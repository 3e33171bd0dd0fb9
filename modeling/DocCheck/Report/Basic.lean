import DocCheck.Check
import DocCheck.Json.Value

/-!
# Reports

A report collects the diagnostics of several runs by the name of the check. It has two parts, a map
from names to diagnostics and the list of the names in the order in which they were first added.
Sections follow the list, and totals are taken over the map.
-/

namespace DocCheck

/-- A diagnostic and the file it was found in. -/
structure Entry where
  file : Text
  diagnostic : Diagnostic
  deriving DecidableEq, Repr

/-- The entries of one check. -/
structure ReportSection where
  name : Text
  entries : List Entry
  deriving DecidableEq, Repr

/-- The entries that are kept for each name. A name is kept once, and the order of the names has no
meaning. -/
structure EntryMap where
  pairs : List (Text × List Entry)
  nodup : (pairs.map (·.1)).Nodup

namespace EntryMap

/-- The map that keeps no name. -/
def empty : EntryMap := ⟨[], List.nodup_nil⟩

/-- The entries under a name, if it is kept. -/
def get? (m : EntryMap) (name : Text) : Option (List Entry) :=
  (m.pairs.find? (·.1 = name)).map (·.2)

/-- Whether a name is kept. -/
def contains (m : EntryMap) (name : Text) : Bool := (m.get? name).isSome

/-- All lists of entries. -/
def values (m : EntryMap) : List (List Entry) := m.pairs.map (·.2)

/-- Puts entries behind those of a name, which is kept from then on. -/
def extend (m : EntryMap) (name : Text) (entries : List Entry) : EntryMap where
  pairs := (name, (m.get? name).getD [] ++ entries) :: m.pairs.filter (·.1 ≠ name)
  nodup := by
    have hrest : ((m.pairs.filter (·.1 ≠ name)).map (·.1)).Nodup :=
      m.nodup.sublist (List.filter_sublist.map _)
    have hnew : name ∉ (m.pairs.filter (·.1 ≠ name)).map (·.1) := by simp
    exact List.nodup_cons.mpr ⟨hnew, hrest⟩

end EntryMap

/-- A report: the entries by the name of the check, and the names in the order in which they first
came. -/
structure Report where
  results : EntryMap
  order : List Text

namespace Report

/-- The report to which nothing was added. -/
def empty : Report := ⟨.empty, []⟩

/-- Puts entries behind those of a name. A name that is not kept yet comes last. -/
def extend (r : Report) (name : Text) (entries : List Entry) : Report where
  order := if r.results.contains name then r.order else r.order ++ [name]
  results := r.results.extend name entries

/-- Adds the issues that a check found in a file. -/
def add (r : Report) (name file : Text) (issues : List Issue) (s : Stream) : Report :=
  r.extend name (issues.map fun i => ⟨file, i.diagnostic s⟩)

/-- The sections of a report: its names in their order, each with what is kept under it. -/
def sections (r : Report) : List ReportSection :=
  r.order.filterMap fun name => (r.results.get? name).map fun entries => ⟨name, entries⟩

/-- All entries, section by section. -/
def entries (r : Report) : List Entry := r.sections.flatMap (·.entries)

/-- The entries that are shown under a name. -/
def entriesOf (r : Report) (name : Text) : List Entry :=
  (r.sections.filter (·.name = name)).flatMap (·.entries)

/-- The number of entries of a severity that are kept, whatever the order of the names. -/
def count (r : Report) (severity : Severity) : Nat :=
  r.results.values.flatten.countP (·.diagnostic.severity = severity)

/-- The number of issues that are errors. -/
def errors (r : Report) : Nat := r.count .error

/-- The number of issues that are warnings. -/
def warnings (r : Report) : Nat := r.count .warning

/-- An entry as a JSON object. -/
def entryJson (e : Entry) : Json :=
  .object [("file", .string e.file),
    ("line", (e.diagnostic.line.map Json.number).getD .null),
    ("position", .number e.diagnostic.position),
    ("message", .string e.diagnostic.message),
    ("severity", .string e.diagnostic.severity.name)]

/-- The report as a JSON object with one list for each check. Other names are left out. -/
def toJson (r : Report) : Json :=
  .object (Check.all.map fun c => (c.name, .list ((r.entriesOf c.name).map entryJson)))

/-- The text of the report as JSON, on lines of its own. -/
def jsonText (r : Report) : Text := r.toJson.text ++ "\n"

end Report

end DocCheck
