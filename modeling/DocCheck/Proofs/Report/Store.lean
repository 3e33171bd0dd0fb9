import DocCheck.Proofs.Text.Names
import DocCheck.Report.Basic

/-!
# The two parts of a report

A report keeps its entries in a map, which has no order, and its names in a list. The two agree: no
name comes twice in the list, and the list has the names that the map keeps. Every addition
preserves that. Through it a report stands for a list of sections, to which an addition does what it
would do if sections were all there is: it puts its entries behind those of its name, and opens a
section at the end for a new one. The totals, which are taken over the map, are those of the
sections.
-/

namespace DocCheck

namespace Sections

/-- Appends entries to the section of a name, which is opened at the end if need be. -/
def append (name : Text) (entries : List Entry) : List ReportSection → List ReportSection
  | [] => [⟨name, entries⟩]
  | s :: rest =>
    if s.name = name then ⟨s.name, s.entries ++ entries⟩ :: rest
    else s :: append name entries rest

/-- The names of sections, in order. -/
def names (ss : List ReportSection) : List Text := ss.map (·.name)

/-- The entries in the sections of a name, one section after the other. -/
def entriesOf (ss : List ReportSection) (name : Text) : List Entry :=
  (ss.filter (·.name = name)).flatMap (·.entries)

variable {ss : List ReportSection} {name : Text}

/-- A section of a new name comes last, and the others stay where they are. -/
theorem names_append (ss : List ReportSection) (name : Text) (entries : List Entry) :
    names (append name entries ss) =
      if name ∈ names ss then names ss else names ss ++ [name] := by
  have hcons (s : ReportSection) (ss) : names (s :: ss) = s.name :: names ss := rfl
  induction ss with
  | nil => rfl
  | cons s ss ih =>
    unfold append
    split
    · next hs => rw [hcons, hcons, if_pos (by simp [hs])]
    · next hs =>
      have hne : name ≠ s.name := Ne.symm hs
      rw [hcons, ih, hcons]
      by_cases hmem : name ∈ names ss <;> simp [hmem, hne]

/-- There are no entries under a name without a section. -/
theorem entriesOf_of_not_mem (h : name ∉ names ss) : entriesOf ss name = [] := by
  have hnone : ss.filter (·.name = name) = [] := by
    refine List.filter_eq_nil_iff.mpr fun s hs hname => h ?_
    exact List.mem_map.mpr ⟨s, hs, of_decide_eq_true hname⟩
  rw [entriesOf, hnone, List.flatMap_nil]

/-- The entries of a first section stand in front of those of the others. -/
theorem entriesOf_cons (s : ReportSection) (ss : List ReportSection) (name : Text) :
    entriesOf (s :: ss) name = (if s.name = name then s.entries else []) ++ entriesOf ss name := by
  by_cases hs : s.name = name <;> simp [entriesOf, hs]

/-- The new entries stand behind those of their name, and the other names keep theirs. -/
theorem entriesOf_append (h : (names ss).Nodup) (name : Text) (entries : List Entry)
    (other : Text) :
    entriesOf (append name entries ss) other =
      entriesOf ss other ++ if name = other then entries else [] := by
  induction ss with
  | nil =>
    rw [append, entriesOf_cons]
    exact List.append_nil _
  | cons s ss ih =>
    obtain ⟨hnew, hss⟩ := List.nodup_cons.mp h
    unfold append
    split
    · next hs =>
      subst hs
      by_cases hother : s.name = other
      · subst hother
        -- A second section of this name would have its entries behind the new ones.
        simp [entriesOf_cons, entriesOf_of_not_mem hnew]
      · simp [entriesOf_cons, hother]
    · rw [entriesOf_cons, ih hss, entriesOf_cons, List.append_assoc]

/-- Sections with distinct names are the list of their names with the entries of each. -/
theorem eq_map_names (h : (names ss).Nodup) : ss = (names ss).map fun n => ⟨n, entriesOf ss n⟩ := by
  induction ss with
  | nil => rfl
  | cons s ss ih =>
    obtain ⟨hnew, hss⟩ := List.nodup_cons.mp h
    have hs : entriesOf (s :: ss) s.name = s.entries := by
      rw [entriesOf_cons, if_pos rfl, entriesOf_of_not_mem hnew, List.append_nil]
    have hrest : (names ss).map (fun n => (⟨n, entriesOf (s :: ss) n⟩ : ReportSection)) =
        (names ss).map fun n => ⟨n, entriesOf ss n⟩ := by
      refine List.map_congr_left fun n hn => ?_
      have hne : s.name ≠ n := by
        rintro rfl
        exact hnew hn
      rw [entriesOf_cons, if_neg hne, List.nil_append]
    rw [names, List.map_cons, List.map_cons, hs, ← names, hrest, ← ih hss]

/-- Names and the entries under each name determine sections with distinct names. -/
theorem eq_of_entriesOf_eq {ss ss' : List ReportSection} (h : (names ss).Nodup)
    (hnames : names ss' = names ss) (hentries : ∀ name, entriesOf ss' name = entriesOf ss name) :
    ss' = ss := by
  calc ss' = (names ss').map fun n => ⟨n, entriesOf ss' n⟩ := eq_map_names (hnames ▸ h)
    _ = (names ss).map fun n => ⟨n, entriesOf ss n⟩ := by
      rw [hnames]
      exact List.map_congr_left fun name _ => congrArg _ (hentries name)
    _ = ss := (eq_map_names h).symm

end Sections

namespace EntryMap

variable (m : EntryMap) {name : Text}

/-- The names that a map keeps. -/
def names : List Text := m.pairs.map (·.1)

/-- What is kept under a name is found under it. -/
theorem get?_of_mem {pair : Text × List Entry} (h : pair ∈ m.pairs) :
    m.get? pair.1 = some pair.2 := by
  rw [get?, find?_name_of_nodup m.nodup h, Option.map_some]

/-- A map contains the names that it keeps. -/
theorem contains_iff : m.contains name ↔ name ∈ m.names := by
  simp [contains, get?, names]

/-- The entries of a map are those under its names. -/
theorem flatten_values : m.values.flatten = m.names.flatMap fun n => (m.get? n).getD [] := by
  rw [values, names, List.flatMap_map, ← List.flatMap_def]
  refine List.flatMap_congr fun pair hpair => ?_
  rw [m.get?_of_mem hpair, Option.getD_some]

/-- Under its name a map keeps the new entries behind the old ones; the other names keep theirs. -/
theorem get?_extend (name : Text) (entries : List Entry) (other : Text) :
    (m.extend name entries).get? other =
      if name = other then some ((m.get? name).getD [] ++ entries) else m.get? other := by
  by_cases hname : name = other
  · simp [get?, extend, hname]
  · have hothers : (m.pairs.filter (·.1 ≠ name)).find? (·.1 = other) =
        m.pairs.find? (·.1 = other) := by
      rw [List.find?_filter]
      refine congrArg (List.find? · m.pairs) (funext fun pair => ?_)
      by_cases hpair : pair.1 = other <;> simp [hpair, Ne.symm hname]
    have hfirst : (decide (name = other)) = false := decide_eq_false hname
    rw [if_neg hname, get?, extend, List.find?_cons, hfirst, hothers]
    rfl

/-- A map keeps the name that was extended, and the others as before. -/
theorem contains_extend (name : Text) (entries : List Entry) (other : Text) :
    (m.extend name entries).contains other = (decide (name = other) || m.contains other) := by
  rw [contains, get?_extend]
  by_cases hname : name = other <;> simp [hname, contains]

end EntryMap

namespace Report

/-- The names of the sections of a report, in order. -/
def names (r : Report) : List Text := Sections.names r.sections

/-- The two parts of a report agree. -/
structure Coherent (r : Report) : Prop where
  /-- No name comes twice. -/
  nodup : r.order.Nodup
  /-- The names in order are those that the map keeps. -/
  mem_order_iff : ∀ name, name ∈ r.order ↔ r.results.contains name

/-- The two parts of the empty report agree. -/
theorem coherent_empty : empty.Coherent :=
  ⟨List.nodup_nil, fun name => by simp [empty, EntryMap.contains, EntryMap.get?, EntryMap.empty]⟩

namespace Coherent

variable {r r' : Report} (h : r.Coherent)
include h

/-- After an addition the two parts still agree. -/
theorem extend (name : Text) (entries : List Entry) : (r.extend name entries).Coherent := by
  constructor
  · unfold Report.extend
    dsimp only
    split
    · exact h.nodup
    · next hnew =>
      have hnot : name ∉ r.order := mt (h.mem_order_iff name).mp hnew
      exact List.nodup_append.mpr ⟨h.nodup, List.nodup_singleton name, by grind⟩
  · intro other
    unfold Report.extend
    dsimp only
    rw [EntryMap.contains_extend]
    split
    · next hknown =>
      rw [h.mem_order_iff]
      by_cases hname : name = other
      · simp [← hname, hknown]
      · simp [hname]
    · rw [List.mem_append, h.mem_order_iff, List.mem_singleton]
      by_cases hname : name = other
      · simp [hname]
      · simp [hname, Ne.symm hname]

/-- Every name in order has its section. -/
theorem sections_eq :
    r.sections = r.order.map fun name => ⟨name, (r.results.get? name).getD []⟩ := by
  rw [sections, ← List.filterMap_eq_map]
  refine List.filterMap_congr fun name hname => ?_
  obtain ⟨entries, hentries⟩ := Option.isSome_iff_exists.mp ((h.mem_order_iff name).mp hname)
  simp [hentries]

/-- The sections come in the order of the names. -/
theorem names_eq : r.names = r.order := by
  rw [names, h.sections_eq, Sections.names, List.map_map]
  exact List.map_id _

/-- No section has the name of another one. -/
theorem nodup_names : r.names.Nodup := h.names_eq.symm ▸ h.nodup

/-- Under a name a report shows what its map keeps. -/
theorem entriesOf_eq (name : Text) : r.entriesOf name = (r.results.get? name).getD [] := by
  by_cases hname : name ∈ r.order
  · -- The name has one place in the order, so there is one section to show.
    have hone : r.order.filter (· = name) = [name] := by
      rw [List.filter_eq, List.count_eq_one_of_mem h.nodup hname, List.replicate_one]
    have hfilter : r.sections.filter (·.name = name) =
        [⟨name, (r.results.get? name).getD []⟩] := by
      rw [h.sections_eq, List.filter_map]
      exact congrArg (List.map _) hone
    rw [entriesOf, hfilter, List.flatMap_singleton]
  · have hnone : r.results.get? name = none := by
      rw [← Option.not_isSome_iff_eq_none]
      exact mt (h.mem_order_iff name).mpr hname
    have hnot : name ∉ r.names := by rwa [h.names_eq]
    rw [hnone]
    exact Sections.entriesOf_of_not_mem hnot

/-- An addition does to a report what it does to its sections. -/
theorem sections_extend (name : Text) (entries : List Entry) :
    (r.extend name entries).sections = Sections.append name entries r.sections := by
  have hnew := h.extend name entries
  have hnames : (r.extend name entries).names =
      Sections.names (Sections.append name entries r.sections) := by
    have horder : (r.extend name entries).order =
        if name ∈ r.order then r.order else r.order ++ [name] := by
      simp only [h.mem_order_iff]
      rfl
    rw [hnew.names_eq, horder, Sections.names_append, ← names, h.names_eq]
  -- The names are distinct, so it is enough to compare names and the entries under each name.
  refine Sections.eq_of_entriesOf_eq (hnames ▸ hnew.nodup_names) hnames fun other => ?_
  rw [Sections.entriesOf_append h.nodup_names]
  refine (hnew.entriesOf_eq other).trans ?_
  have hold : Sections.entriesOf r.sections other = (r.results.get? other).getD [] :=
    h.entriesOf_eq other
  have hget : (r.extend name entries).results.get? other =
      if name = other then some ((r.results.get? name).getD [] ++ entries)
      else r.results.get? other := r.results.get?_extend name entries other
  rw [hget, hold]
  by_cases hname : name = other <;> simp [hname]

/-- The map keeps the entries of the sections and no others, in whatever order. -/
theorem perm_entries : r.results.values.flatten.Perm r.entries := by
  -- The map and the list have the same names, each of them once, in orders that need not agree.
  have hperm : r.results.names.Perm r.order := by
    refine (List.perm_ext_iff_of_nodup r.results.nodup h.nodup).mpr fun name => ?_
    rw [h.mem_order_iff, EntryMap.contains_iff]
    rfl
  have hentries : r.entries = r.order.flatMap fun name => (r.results.get? name).getD [] := by
    rw [entries, h.sections_eq, List.flatMap_map]
  rw [EntryMap.flatten_values, hentries]
  exact hperm.flatMap_right _

/-- The totals over the map are those of the sections. -/
theorem count_eq (severity : Severity) :
    r.count severity = r.entries.countP (·.diagnostic.severity = severity) :=
  h.perm_entries.countP_eq _

end Coherent

end Report

end DocCheck
