import DocCheck.Proofs.Json.Unambiguity
import DocCheck.Proofs.Json.Writing
import DocCheck.Proofs.Report.Additions

/-!
# What can be read back from the JSON text of a report

The text of a report is JSON and stands for one value only. That value is an object with a list for
each check, and its lists hold all that is known of the entries, so the text determines the entries
under the name of every check, whatever characters are in file names and messages.
-/

namespace DocCheck

namespace Json

/-- The value of the first member with a key. -/
def member? (key : Text) : Json → Option Json
  | object members => members.lookup key
  | _ => none

/-- The text of a string. -/
def string? : Json → Option Text
  | string t => some t
  | _ => none

/-- The number of a natural number. -/
def number? : Json → Option Nat
  | number n => some n
  | _ => none

/-- A number that may be null. -/
def optionalNumber? : Json → Option (Option Nat)
  | null => some none
  | number n => some (some n)
  | _ => none

end Json

/-- The severity with a name. -/
def Severity.ofName? (t : Text) : Option Severity := [warning, error].find? (·.name = t)

/-- A severity is found by its name. -/
theorem Severity.ofName?_name (severity : Severity) : ofName? severity.name = some severity := by
  cases severity <;> decide

namespace Report

/-- The entry of a JSON object. -/
def entryOfJson? (v : Json) : Option Entry := do
  let file ← (← v.member? "file").string?
  let line ← (← v.member? "line").optionalNumber?
  let position ← (← v.member? "position").number?
  let message ← (← v.member? "message").string?
  let severity ← Severity.ofName? (← (← v.member? "severity").string?)
  return ⟨file, severity, message, position, line⟩

/-- The section of a member of a JSON object: its key and a list of entries. -/
def sectionOfMember? : Text × Json → Option ReportSection
  | (name, .list elements) => (elements.mapM entryOfJson?).map (⟨name, ·⟩)
  | _ => none

/-- The sections of a JSON object with a list of entries for each name. -/
def ofJson? : Json → Option (List ReportSection)
  | .object members => members.mapM sectionOfMember?
  | _ => none

/-- A line is read back, also where there is none. -/
theorem optionalNumber?_line (line : Option Nat) :
    ((line.map Json.number).getD .null).optionalNumber? = some line := by
  cases line <;> rfl

/-- An entry can be read back from its object. -/
theorem entryOfJson?_entryJson (e : Entry) : entryOfJson? (entryJson e) = some e := by
  have hfile : (entryJson e).member? "file" = some (.string e.file) := rfl
  have hline : (entryJson e).member? "line" =
    some ((e.diagnostic.line.map Json.number).getD .null) := rfl
  have hposition : (entryJson e).member? "position" = some (.number e.diagnostic.position) := rfl
  have hmessage : (entryJson e).member? "message" = some (.string e.diagnostic.message) := rfl
  have hseverity : (entryJson e).member? "severity" =
    some (.string e.diagnostic.severity.name) := rfl
  simp only [entryOfJson?, hfile, hline, hposition, hmessage, hseverity, Option.bind_eq_bind,
    Option.bind_some, optionalNumber?_line, Json.string?, Json.number?, Severity.ofName?_name]
  rfl

/-- The entries of a section are read back in their order. -/
theorem mapM_entryJson (entries : List Entry) :
    (entries.map entryJson).mapM entryOfJson? = some entries := by
  have hread : entryOfJson? ∘ entryJson = fun e => pure (id e) := funext entryOfJson?_entryJson
  rw [List.mapM_map, hread, List.mapM_pure, List.map_id]
  rfl

/-- The members of the JSON object of a report. -/
def jsonMembers (r : Report) : List (Text × Json) :=
  Check.all.map fun c => (c.name, .list ((r.entriesOf c.name).map entryJson))

/-- The entries under the name of every check can be read back from the members. -/
theorem mapM_jsonMembers (r : Report) :
    r.jsonMembers.mapM sectionOfMember? =
      some (Check.all.map fun c => ⟨c.name, r.entriesOf c.name⟩) := by
  have hread (c : Check) :
      sectionOfMember? (c.name, .list ((r.entriesOf c.name).map entryJson)) =
        some ⟨c.name, r.entriesOf c.name⟩ := by
    rw [sectionOfMember?, mapM_entryJson, Option.map_some]
  rw [jsonMembers, List.mapM_map]
  exact (congrArg (List.mapM · Check.all) (funext hread)).trans List.mapM_pure

/-- The text of a report stands for its object and for nothing else. -/
theorem denotes_jsonText_iff (r : Report) (v : Json) :
    Json.Denotes r.jsonText v ↔ v = .object r.jsonMembers := by
  have hblank : Json.Blank "\n" := Json.blank_newline 0
  have hdenotes : Json.Denotes r.jsonText (.object r.jsonMembers) := Json.denotes_text _ hblank
  constructor
  · intro h
    exact h.unique hdenotes
  · rintro rfl
    exact hdenotes

/-- The text of a report determines the entries under the name of every check. -/
theorem jsonText_eq_iff (r r' : Report) :
    r'.jsonText = r.jsonText ↔ ∀ c ∈ Check.all, r'.entriesOf c.name = r.entriesOf c.name := by
  constructor
  · intro htext
    have hdenotes := (denotes_jsonText_iff r' _).mpr rfl
    rw [htext, denotes_jsonText_iff] at hdenotes
    have hmembers : r'.jsonMembers = r.jsonMembers := Json.object.inj hdenotes
    have hsections := mapM_jsonMembers r'
    rw [hmembers, mapM_jsonMembers, Option.some.injEq] at hsections
    intro c hc
    exact (ReportSection.mk.inj (List.map_inj_left.mp hsections c hc)).2.symm
  · intro hentries
    have hmembers : r'.jsonMembers = r.jsonMembers :=
      List.map_congr_left fun c hc => by rw [hentries c hc]
    exact congrArg (fun members => (Json.object members).text ++ "\n") hmembers

/-- The names of a report made by the two checks are names of checks. -/
theorem exists_check_of_mem_names {runs : List ReportSection}
    (h : ∀ run ∈ runs, run.name = "file-comment" ∨ run.name = "class-comment") :
    ∀ name ∈ (collect runs).names, ∃ c ∈ Check.all, c.name = name := by
  intro name hname
  rw [names_collect, List.mem_eraseDups] at hname
  obtain ⟨run, hrun, rfl⟩ := List.mem_map.mp hname
  rcases h run hrun with hfile | hclass
  · exact ⟨.fileComment, by simp [Check.all], hfile.symm⟩
  · exact ⟨.classComment, by simp [Check.all], hclass.symm⟩

/-- Where every name is that of a check, the checks show all entries. -/
theorem entriesOf_eq_of_check {r r' : Report}
    (h : ∀ name ∈ r.names, ∃ c ∈ Check.all, c.name = name)
    (h' : ∀ name ∈ r'.names, ∃ c ∈ Check.all, c.name = name)
    (hentries : ∀ c ∈ Check.all, r'.entriesOf c.name = r.entriesOf c.name) (name : Text) :
    r'.entriesOf name = r.entriesOf name := by
  by_cases hname : ∃ c ∈ Check.all, c.name = name
  · obtain ⟨c, hc, rfl⟩ := hname
    exact hentries c hc
  · exact (Sections.entriesOf_of_not_mem fun hmem => hname (h' name hmem)).trans
      (Sections.entriesOf_of_not_mem fun hmem => hname (h name hmem)).symm

/-- The text of a report that was filled under the names of the two checks stands for one JSON
value, an object with these two names as its keys. Under each of them the entries of all runs of
that name can be read back in their order, each with its file, line, position, message and
severity. Two such reports have the same text only if they have the same entries under every
name. -/
theorem jsonText_lossless (runs : List ReportSection)
    (h : ∀ run ∈ runs, run.name = "file-comment" ∨ run.name = "class-comment") :
    (∃ members : List (Text × Json),
      (∀ v, Json.Denotes (collect runs).jsonText v ↔ v = .object members) ∧
      members.map Prod.fst = ["file-comment", "class-comment"] ∧
      ofJson? (.object members) =
        some
          [⟨"file-comment",
              (runs.filter (·.name = ("file-comment" : Text))).flatMap (·.entries)⟩,
            ⟨"class-comment",
              (runs.filter (·.name = ("class-comment" : Text))).flatMap (·.entries)⟩]) ∧
    ∀ runs' : List ReportSection,
      (∀ run ∈ runs', run.name = "file-comment" ∨ run.name = "class-comment") →
      ((collect runs').jsonText = (collect runs).jsonText ↔
        ∀ name, (collect runs').entriesOf name = (collect runs).entriesOf name) := by
  -- The text denotes one value only, and that value holds the entries of both names.
  constructor
  · refine ⟨(collect runs).jsonMembers, denotes_jsonText_iff _, rfl, ?_⟩
    rw [ofJson?, mapM_jsonMembers]
    simp only [Check.all, List.map_cons, List.map_nil, entriesOf_collect]
    rfl
  · intro runs' h'
    rw [jsonText_eq_iff]
    constructor
    · exact entriesOf_eq_of_check (exists_check_of_mem_names h) (exists_check_of_mem_names h')
    · intro hentries c _
      exact hentries c.name

/-- Two runs of one check around one of the other, with characters that have to be escaped. -/
def escapedRuns : List ReportSection :=
  [⟨"class-comment", [⟨"a\"b\\c.json", .error, "tab\tand\nline", 3, some 2⟩]⟩,
    ⟨"file-comment", []⟩,
    ⟨"class-comment", [⟨"\x01é😀", .warning, "\x7f\r\x0c", 0, none⟩]⟩]

/-- The report of these runs is not taken for that of the first run alone. -/
theorem jsonText_lossless_escapedRuns :
    (∀ run ∈ escapedRuns, run.name = "file-comment" ∨ run.name = "class-comment") ∧
    (∀ run ∈ escapedRuns.take 1, run.name = "file-comment" ∨ run.name = "class-comment") ∧
    (collect (escapedRuns.take 1)).jsonText ≠ (collect escapedRuns).jsonText ∧
    ∃ members, Json.Denotes (collect escapedRuns).jsonText (.object members) ∧
      ofJson? (.object members) = some [⟨"file-comment", []⟩,
        ⟨"class-comment", [⟨"a\"b\\c.json", .error, "tab\tand\nline", 3, some 2⟩,
          ⟨"\x01é😀", .warning, "\x7f\r\x0c", 0, none⟩]⟩] := by
  have hruns : ∀ run ∈ escapedRuns, run.name = "file-comment" ∨ run.name = "class-comment" := by
    decide
  have hfirst : ∀ run ∈ escapedRuns.take 1,
      run.name = "file-comment" ∨ run.name = "class-comment" := by decide
  obtain ⟨⟨members, hdenotes, -, hread⟩, htext⟩ := jsonText_lossless escapedRuns hruns
  refine ⟨hruns, hfirst, ?_, members, (hdenotes _).mpr rfl, hread⟩
  intro hsame
  have hentries := (htext _ hfirst).mp hsame "class-comment"
  revert hentries
  decide

end Report

end DocCheck
