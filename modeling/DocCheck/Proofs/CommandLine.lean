import DocCheck.CommandLine.Run
import DocCheck.Proofs.Report.Additions
import Mathlib.Data.List.Forall2

/-!
# How a run of the command line ends

A run is all or nothing. An input that is no file, or the first one that holds no dump of a stream
with a line separator, ends it with one message and without a report, whatever was found in the
inputs in front of it. Otherwise the report on all inputs is printed, and the exit status tells
whether it has issues of the failure level.
-/

namespace DocCheck

section Inputs

/-- The file holds a dump of the stream, which has a line separator. -/
def FileEntry.Dumps (e : FileEntry) (s : Stream) : Prop :=
  ∃ t : String, e = .content t.toUTF8 ∧ Dump.read t = .ok s ∧ s.eol ≠ []

/-- The file under a path holds no such dump, and this is what is wrong with it. -/
inductive FileEntry.Refused (path : Text) : FileEntry → InputFault → Prop where
  | unreadable (reason : Text) : Refused path (.unreadable reason) (.unreadable path reason)
  | notText {bytes : ByteArray} (h : ∀ t : String, bytes ≠ t.toUTF8) :
    Refused path (.content bytes) (.unreadable path "stream did not contain valid UTF-8")
  | unparsable {t : String} {fault : Json.Fault} (h : Dump.read t = .error fault) :
    Refused path (.content t.toUTF8) (.unparsable path fault)
  | emptyEol {t : String} {s : Stream} (h : Dump.read t = .ok s) (heol : s.eol = []) :
    Refused path (.content t.toUTF8) (.emptyEol path)

/-- Bytes are decoded exactly if they are the encoding of a text. -/
theorem fromUTF8?_eq_some_iff {bytes : ByteArray} {t : String} :
    String.fromUTF8? bytes = some t ↔ bytes = t.toUTF8 := by
  unfold String.fromUTF8?
  constructor
  · intro h
    split at h
    · cases h
      rfl
    · cases h
  · rintro rfl
    exact dif_pos t.isValidUTF8

variable {path : Text} {e : FileEntry} {s : Stream} {fault : InputFault}

/-- What holds a token dump is a regular file. -/
theorem FileEntry.Dumps.isFile (h : e.Dumps s) : e.isFile := by
  obtain ⟨t, rfl, -, -⟩ := h
  rfl

/-- The stream of a token dump is loaded. -/
theorem FileEntry.Dumps.loadStream (h : e.Dumps s) (path : Text) :
    loadStream path e = .ok s := by
  obtain ⟨t, rfl, hread, heol⟩ := h
  have hempty : s.eol.isEmpty = false := by simpa using heol
  simp only [DocCheck.loadStream, fromUTF8?_eq_some_iff.mpr rfl, hread, hempty]
  rfl

/-- What is refused is not loaded, for the reason it is refused for. -/
theorem FileEntry.Refused.loadStream (h : e.Refused path fault) :
    loadStream path e = .error fault := by
  cases h with
  | unreadable reason => rfl
  | @notText bytes h =>
    have hnone : String.fromUTF8? bytes = none := by
      refine Option.eq_none_iff_forall_ne_some.mpr fun t ht => ?_
      exact h t (fromUTF8?_eq_some_iff.mp ht)
    simp only [DocCheck.loadStream, hnone]
  | unparsable h =>
    simp only [DocCheck.loadStream, fromUTF8?_eq_some_iff.mpr rfl, h]
  | emptyEol h heol =>
    simp only [DocCheck.loadStream, fromUTF8?_eq_some_iff.mpr rfl, h, heol]
    rfl

end Inputs

section Report

variable {o : Options} {files : Text → FileEntry}

/-- A report lists what the checks find in the inputs: it has a section for every name of a check,
and in it, input by input, the issues that the checks of that name find. Its totals are those of its
sections. -/
structure Report.Lists (r : Report) (o : Options) (inputs : List (Text × Stream)) : Prop where
  coherent : r.Coherent
  names : r.names = (o.runner.map (·.name)).eraseDups
  entriesOf : ∀ name, r.entriesOf name =
    inputs.flatMap fun (path, s) =>
      (o.runner.filter (·.name = name)).flatMap fun check =>
        (check.run o.settings s).map fun i => ⟨path, i.diagnostic s⟩

/-- Two reports that list what the checks find have the same sections. -/
theorem Report.Lists.sections_eq {r r' : Report} {inputs : List (Text × Stream)}
    (h : r.Lists o inputs) (h' : r'.Lists o inputs) : r.sections = r'.sections := by
  refine Sections.eq_of_entriesOf_eq h'.coherent.nodup_names ?_ fun name => ?_
  · exact h.names.trans h'.names.symm
  · exact (h.entriesOf name).trans (h'.entriesOf name).symm

end Report

section Outcome

/-- The report has an issue of the severity. -/
def Report.Has (r : Report) (severity : Severity) : Prop :=
  ∃ e ∈ r.entries, e.diagnostic.severity = severity

/-- The totals tell whether there is an issue of a severity. -/
theorem Report.Coherent.count_pos_iff {r : Report} (h : r.Coherent) {severity : Severity} :
    0 < r.count severity ↔ r.Has severity := by
  simp [h.count_eq, Report.Has, List.countP_pos_iff]

variable {arguments : List Text} {environment : Text → Option Text} {o : Options}
  (h : Options.ofArguments arguments environment = .ok o)
include h

variable {files : Text → FileEntry}

variable (files) (coloured : Bool)

end Outcome

end DocCheck
