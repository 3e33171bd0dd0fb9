import DocCheck.Proofs.Report.Store
import DocCheck.Report.Plain

/-!
# What a report keeps of the runs that were added to it

A report is filled run by run. Its two parts agree after every run, so it lists the names in the
order in which they first came, each with the entries of all its runs in the order of these runs,
and its totals count every issue that was added.
-/

namespace DocCheck

/-- What a check found in one file, with the stream in which the positions are looked up. -/
structure Addition where
  name : Text
  file : Text
  issues : List Issue
  stream : Stream

/-- The entries of an addition: each issue with the file and its line in the stream. -/
def Addition.entries (a : Addition) : List Entry :=
  a.issues.map fun i => ⟨a.file, i.severity, i.message, i.position, a.stream.lineAt? i.position⟩

/-- The report with one more addition. -/
def Report.addOne (r : Report) (a : Addition) : Report := r.add a.name a.file a.issues a.stream

/-- The report of several runs, each given by a name and its entries, one after the other. -/
def Report.collect (runs : List ReportSection) : Report :=
  runs.foldl (fun r run => r.extend run.name run.entries) .empty

/-- The report of several additions, one after the other. -/
def Report.ofAdditions (adds : List Addition) : Report := adds.foldl addOne .empty

/-- The sections of several runs, one after the other. -/
def Sections.collect (runs : List ReportSection) : List ReportSection :=
  runs.foldl (fun ss run => Sections.append run.name run.entries ss) []

namespace Sections

variable (runs : List ReportSection)

/-- One more run is put behind the others. -/
theorem collect_concat (run : ReportSection) :
    collect (runs ++ [run]) = append run.name run.entries (collect runs) :=
  List.foldl_concat ..

/-- The names of the sections come in the order in which they first came, each of them once. -/
theorem names_collect : names (collect runs) = (runs.map (·.name)).eraseDups := by
  induction runs using List.reverseRecOn with
  | nil => rfl
  | append_singleton runs run ih =>
    rw [collect_concat, names_append, ih, List.map_append, List.map_singleton, eraseDups_concat]

/-- The sections of a name have the entries of all runs of that name, in their order. -/
theorem entriesOf_collect (name : Text) :
    entriesOf (collect runs) name = (runs.filter (·.name = name)).flatMap (·.entries) := by
  induction runs using List.reverseRecOn with
  | nil => rfl
  | append_singleton runs run ih =>
    have hnodup : (names (collect runs)).Nodup := names_collect runs ▸ nodup_eraseDups _
    rw [collect_concat, entriesOf_append hnodup, ih, List.filter_append, List.flatMap_append]
    by_cases hrun : run.name = name <;> simp [hrun]

/-- One run: its entries come in once, and no other is lost. -/
theorem perm_entries_append (ss : List ReportSection) (name : Text) (entries : List Entry) :
    ((append name entries ss).flatMap (·.entries)).Perm (ss.flatMap (·.entries) ++ entries) := by
  induction ss with
  | nil => simp [append]
  | cons s ss ih =>
    unfold append
    split
    · simp only [List.flatMap_cons, List.append_assoc]
      exact (List.perm_append_comm).append_left _
    · simp only [List.flatMap_cons, List.append_assoc] at ih ⊢
      exact ih.append_left _

/-- The sections have the entries of all runs. -/
theorem perm_entries_collect :
    ((collect runs).flatMap (·.entries)).Perm (runs.flatMap (·.entries)) := by
  induction runs using List.reverseRecOn with
  | nil => exact .refl _
  | append_singleton runs run ih =>
    rw [collect_concat, List.flatMap_append, List.flatMap_singleton]
    exact (perm_entries_append _ _ _).trans (ih.append_right _)

end Sections

namespace Report

section Collect

variable (runs : List ReportSection)

/-- However many runs are added, the two parts of a report agree, and its sections are those of the
runs. -/
theorem coherent_and_sections_collect :
    (collect runs).Coherent ∧ (collect runs).sections = Sections.collect runs := by
  -- Both facts go together: an addition does to the sections what it should only if the parts
  -- agree.
  induction runs using List.reverseRecOn with
  | nil => exact ⟨coherent_empty, rfl⟩
  | append_singleton runs run ih =>
    have hone : collect (runs ++ [run]) = (collect runs).extend run.name run.entries :=
      List.foldl_concat ..
    obtain ⟨hcoherent, hsections⟩ := ih
    rw [hone, hcoherent.sections_extend, hsections, Sections.collect_concat]
    exact ⟨hcoherent.extend _ _, rfl⟩

/-- A report of several runs has their names in the order in which they first came. -/
theorem names_collect : (collect runs).names = (runs.map (·.name)).eraseDups := by
  rw [names, (coherent_and_sections_collect runs).2, Sections.names_collect]

/-- A report shows under a name the entries of all runs of that name, in their order. -/
theorem entriesOf_collect (name : Text) :
    (collect runs).entriesOf name = (runs.filter (·.name = name)).flatMap (·.entries) := by
  rw [entriesOf, (coherent_and_sections_collect runs).2]
  exact Sections.entriesOf_collect runs name

end Collect

section Additions

variable (adds : List Addition)

/-- Additions are runs with the entries of their issues. -/
theorem ofAdditions_eq_collect :
    ofAdditions adds = collect (adds.map fun a => ⟨a.name, a.entries⟩) := by
  rw [collect, List.foldl_map]
  rfl

/-- The names come in the order in which they were first added, each of them once. -/
theorem names_ofAdditions : (ofAdditions adds).names = (adds.map (·.name)).eraseDups := by
  rw [ofAdditions_eq_collect, names_collect, List.map_map]
  rfl

/-- A report has the entries of all additions, each once. -/
theorem perm_entries_ofAdditions :
    (ofAdditions adds).entries.Perm (adds.flatMap Addition.entries) := by
  have hperm := Sections.perm_entries_collect (adds.map fun a => ⟨a.name, a.entries⟩)
  rwa [← (coherent_and_sections_collect _).2, ← ofAdditions_eq_collect, List.flatMap_map] at hperm

end Additions

end Report

section Lines

/-- What is printed for people, apart from the summary. -/
inductive ReportLine where
  | heading (name : Text)
  | entry (e : Entry)

namespace ReportLine

/-- The text of a line of a report. -/
def text (coloured : Bool) : ReportLine → Text
  | heading name => "\n" ++ Ink.heading.paint coloured ("==> " ++ name) ++ "\n"
  | entry e => e.text coloured

end ReportLine

/-- The lines that are printed for a section. -/
def ReportSection.lines (s : ReportSection) : List ReportLine :=
  if s.entries.isEmpty then [] else .heading s.name :: s.entries.map .entry

/-- The lines that are printed for a report. -/
def Report.lines (r : Report) : List ReportLine := r.sections.flatMap (·.lines)

/-- What is printed for people shows the sections only: where the two parts of a report agree, the
summary counts what the sections have. -/
theorem Report.Coherent.text_eq {r r' : Report} (h : r.Coherent) (h' : r'.Coherent)
    (hsections : r.sections = r'.sections) (coloured : Bool) :
    r.text coloured = r'.text coloured := by
  have hentries : r.entries = r'.entries := congrArg (List.flatMap ReportSection.entries) hsections
  have hcount (severity : Severity) : r.count severity = r'.count severity := by
    rw [h.count_eq, h'.count_eq, hentries]
  have herrors : r.errors = r'.errors := hcount .error
  have hwarnings : r.warnings = r'.warnings := hcount .warning
  rw [Report.text, Report.summary, hsections, herrors, hwarnings]
  rfl

end Lines

end DocCheck
