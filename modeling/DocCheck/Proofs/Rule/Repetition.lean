import DocCheck.Proofs.Rule.Stage
import Mathlib.Data.List.Nodup

/-!
# Presence, repetition and grouping of tags

Whether a tag is missing, repeated against its grammar or scattered among other tags is decided
from the occurrences of the tag and from the places of its name in the order of tags. All of it can
be told from the header lines of the text: a tag is missing if no header has its name, and it is
scattered if its name comes back behind a header with another name.
-/

namespace DocCheck

/-- The tag whose presence, number or grouping a finding is about. -/
def Finding.talliedTag? : Finding → Option Text
  | missingTag _ tag | duplicateTag _ tag | ungroupedTags tag => some tag
  | _ => none

/-- The content of a tag says nothing about how often it occurs. -/
theorem Finding.talliedTag?_eq_none {f : Finding} (h : f.stage = .content) :
    f.talliedTag? = none := by
  cases f <;> simp_all [stage, talliedTag?]

/-- The header lines with the name stand together, and no other one has the name. -/
def InOneRun (hs : List (Nat × Text)) (name : Text) : Prop :=
  ∃ front run behind, hs = front ++ (run ++ behind) ∧ (∀ h ∈ front, h.2 ≠ name) ∧
    (∀ h ∈ run, h.2 = name) ∧ ∀ h ∈ behind, h.2 ≠ name

/-- A header with the name would come back behind these header lines: the name is among them, but
the last of them has another one. -/
def ComesBack (front : List (Nat × Text)) (name : Text) : Prop :=
  (∃ h ∈ front, h.2 = name) ∧ ∀ h ∈ front.getLast?, h.2 ≠ name

/-- In one run no header comes back. -/
theorem InOneRun.not_comesBack {hs front behind : List (Nat × Text)} {h : Nat × Text} {name : Text}
    (hrun : InOneRun hs name) (hhs : hs = front ++ h :: behind) (hname : h.2 = name) :
    ¬ ComesBack front name := by
  rintro ⟨⟨earlier, hearlier, hearliername⟩, hlast⟩
  obtain ⟨outer, run, rest, hsplit, houter, hinner, hrest⟩ := hrun
  rw [hhs] at hsplit
  rcases List.append_eq_append_iff.mp hsplit with ⟨between, rfl, -⟩ | ⟨between, rfl, hbehind⟩
  · exact houter earlier (List.mem_append_left _ hearlier) hearliername
  · rcases List.append_eq_append_iff.mp hbehind with ⟨tail, -, rfl⟩ | ⟨tail, rfl, -⟩
    · exact hrest h (by simp) hname
    · -- The header stands in the run, and so does the line in front of it.
      by_cases hbetween : between = []
      · rw [hbetween, List.append_nil] at hearlier
        exact houter earlier hearlier hearliername
      · have hmem := List.getLast_mem hbetween
        refine hlast (between.getLast hbetween) ?_ (hinner _ (List.mem_append_left _ hmem))
        rw [List.getLast?_append_of_ne_nil _ hbetween, List.getLast?_eq_some_getLast hbetween]
        rfl

section Scan

variable {name : Text} {hs : List (Nat × Text)} {os : List Occurrence}

/-- The places in two runs of names, the second counted on from the first. -/
theorem placesFrom_append (place : Nat) (name : Text) (xs ys : List Text) :
    placesFrom place name (xs ++ ys) =
      placesFrom place name xs ++ placesFrom (place + xs.length) name ys := by
  simp [placesFrom, List.zipIdx_append]

/-- Once a place is behind the expected one, the next occurrence is out of place. -/
theorem Comment.firstStray?_of_lt
    (hos : os.map (fun o => (o.line, o.name)) = hs.filter (·.2 = name)) {expected place : Nat}
    (hlt : expected < place) :
    (firstStray? expected (os.zip (placesFrom place name (hs.map (·.2))))).map
        (fun o => (o.line, o.name)) = hs.find? (·.2 = name) := by
  induction hs generalizing place with
  | nil =>
    obtain rfl := List.map_eq_nil_iff.mp hos
    rfl
  | cons h hs ih =>
    by_cases hname : h.2 = name
    · rw [List.filter_cons_of_pos (by simpa using hname)] at hos
      obtain ⟨o, os, rfl, ho, -⟩ := List.map_eq_cons_iff.mp hos
      rw [List.map_cons, hname, placesFrom_cons_self, List.zip_cons_cons, firstStray?,
        if_neg (by omega), List.find?_cons_of_pos (by simpa using hname), Option.map_some, ho]
    · rw [List.filter_cons_of_neg (by simpa using hname)] at hos
      rw [List.map_cons, placesFrom_cons_of_ne _ hname,
        List.find?_cons_of_neg (by simpa using hname), ih hos (by omega)]

/-- While the places are the expected ones the scan stays in the run, and behind it the next
occurrence is out of place. -/
theorem Comment.firstStray?_self
    (hos : os.map (fun o => (o.line, o.name)) = hs.filter (·.2 = name)) (place : Nat) :
    (firstStray? place (os.zip (placesFrom place name (hs.map (·.2))))).map
        (fun o => (o.line, o.name)) = (hs.dropWhile (·.2 = name)).find? (·.2 = name) := by
  induction hs generalizing place os with
  | nil =>
    obtain rfl := List.map_eq_nil_iff.mp hos
    rfl
  | cons h hs ih =>
    by_cases hname : h.2 = name
    · rw [List.filter_cons_of_pos (by simpa using hname)] at hos
      obtain ⟨o, os, rfl, -, hos⟩ := List.map_eq_cons_iff.mp hos
      rw [List.map_cons, hname, placesFrom_cons_self, List.zip_cons_cons, firstStray?, if_pos rfl,
        List.dropWhile_cons_of_pos (by simpa using hname), ih hos]
    · rw [List.filter_cons_of_neg (by simpa using hname)] at hos
      rw [List.map_cons, placesFrom_cons_of_ne _ hname,
        List.dropWhile_cons_of_neg (by simpa using hname),
        List.find?_cons_of_neg (by simpa using hname),
        firstStray?_of_lt hos (Nat.lt_succ_self place)]

/-- The scan over all occurrences starts at the first header with the name. -/
theorem Comment.firstStray?_headD {outer inner : List (Nat × Text)} {first : Nat × Text}
    (houter : ∀ h ∈ outer, h.2 ≠ name) (hfirst : first.2 = name)
    (hos : os.map (fun o => (o.line, o.name)) = (outer ++ first :: inner).filter (·.2 = name))
    {places : List Nat}
    (hplaces : places = placesFrom 1 name ((outer ++ first :: inner).map (·.2))) :
    (firstStray? (places.headD 0) (os.zip places)).map (fun o => (o.line, o.name)) =
      (inner.dropWhile (·.2 = name)).find? (·.2 = name) := by
  have hnot : name ∉ outer.map (·.2) := fun hmem => by
    obtain ⟨h, hh, hname⟩ := List.mem_map.mp hmem
    exact houter h hh hname
  have hnone : outer.filter (·.2 = name) = [] := by simpa using houter
  rw [List.filter_append, hnone, List.nil_append,
    List.filter_cons_of_pos (by simpa using hfirst)] at hos
  obtain ⟨o, os, rfl, -, hos⟩ := List.map_eq_cons_iff.mp hos
  rw [hplaces, List.map_append, placesFrom_append, placesFrom_of_not_mem hnot, List.nil_append,
    List.map_cons, hfirst, placesFrom_cons_self, List.headD_cons, List.zip_cons_cons, firstStray?,
    if_pos rfl, firstStray?_self hos]

end Scan

section Runs

variable {name : Text} {outer inner : List (Nat × Text)} {first : Nat × Text}
  (houter : ∀ h ∈ outer, h.2 ≠ name) (hfirst : first.2 = name)

include houter hfirst

/-- The first run of a name, with header lines of other names behind it. -/
theorem InOneRun.of_first (inner : List (Nat × Text)) {gap : List (Nat × Text)}
    (hgap : ∀ h ∈ gap, h.2 ≠ name) :
    InOneRun (outer ++ (first :: inner.takeWhile (·.2 = name) ++ gap)) name := by
  refine ⟨outer, _, gap, rfl, houter, fun h hh => ?_, hgap⟩
  rcases List.mem_cons.mp hh with rfl | hh
  · exact hfirst
  · simpa using List.mem_takeWhile_imp hh

/-- No header behind the first run has the name. -/
theorem InOneRun.of_find?_eq_none
    (h : (inner.dropWhile (·.2 = name)).find? (·.2 = name) = none) :
    InOneRun (outer ++ first :: inner) name := by
  have hbehind : ∀ h ∈ inner.dropWhile (·.2 = name), h.2 ≠ name := fun h' hh' => by
    simpa using List.find?_eq_none.mp h h' hh'
  have hrun := InOneRun.of_first houter hfirst inner hbehind
  rwa [List.cons_append, List.takeWhile_append_dropWhile] at hrun

/-- A header behind the first run with the name is one that comes back. -/
theorem exists_comesBack_of_find?_eq_some {h : Nat × Text}
    (hfound : (inner.dropWhile (·.2 = name)).find? (·.2 = name) = some h) :
    ∃ front behind, outer ++ first :: inner = front ++ h :: behind ∧ ComesBack front name ∧
      InOneRun front name := by
  obtain ⟨hname, gap, behind, hbehind, hgap⟩ := List.find?_eq_some_iff_append.mp hfound
  have hgap : ∀ h ∈ gap, h.2 ≠ name := fun h' hh' => by simpa using hgap h' hh'
  -- Right behind the run stands another name, so the gap is not empty.
  have hne : gap ≠ [] := by
    rintro rfl
    have hhead := List.head?_dropWhile_not (·.2 = name) inner
    rw [hbehind] at hhead
    exact absurd hname (by simpa using hhead)
  refine ⟨outer ++ (first :: inner.takeWhile (·.2 = name) ++ gap), behind, ?_,
    ⟨⟨first, by simp, hfirst⟩, fun h' hh' => ?_⟩, InOneRun.of_first houter hfirst inner hgap⟩
  · rw [List.append_assoc, List.append_assoc, ← hbehind, List.cons_append,
      List.takeWhile_append_dropWhile]
  · rw [← List.append_assoc, List.getLast?_append_of_ne_nil _ hne] at hh'
    exact hgap h' (List.mem_of_getLast? hh')

end Runs

/-- What is reported on the presence, the number and the grouping of a tag, given the header lines
of the comment. -/
inductive TagReport (hs : List (Nat × Text)) (s : Scope) (g : Grammar) : List Issue → Prop
  | absent (hnone : hs.countP (·.2 = g.name) = 0) :
    TagReport hs s g
      (if g.requirement = .required then [⟨s.last, .missingTag s.owner g.name⟩] else [])
  | once (hone : hs.countP (·.2 = g.name) = 1) : TagReport hs s g []
  /-- Behind the header that is reported no further one has the name. -/
  | duplicate (hmany : 2 ≤ hs.countP (·.2 = g.name)) (hrepeatable : g.repeatable = false)
      {front behind : List (Nat × Text)} {line : Nat}
      (hhs : hs = front ++ (line, g.name) :: behind) (hlast : ∀ h ∈ behind, h.2 ≠ g.name) :
    TagReport hs s g [s.at line (.duplicateTag s.owner g.name)]
  | grouped (hmany : 2 ≤ hs.countP (·.2 = g.name)) (hrepeatable : g.repeatable = true)
      (hrun : InOneRun hs g.name) : TagReport hs s g []
  /-- The header that is reported comes back, and none in front of it does. -/
  | ungrouped (hmany : 2 ≤ hs.countP (·.2 = g.name)) (hrepeatable : g.repeatable = true)
      (hrun : ¬ InOneRun hs g.name) {front behind : List (Nat × Text)} {line : Nat}
      (hhs : hs = front ++ (line, g.name) :: behind) (hback : ComesBack front g.name)
      (hfirst : ∀ earlier h between, front = earlier ++ h :: between → h.2 = g.name →
        ¬ ComesBack earlier g.name) :
    TagReport hs s g [s.at line (.ungroupedTags g.name)]

namespace Comment

variable {c : Comment} {s : Scope} {g : Grammar} {hs : List (Nat × Text)}

/-- The last occurrence is the last header with its name. -/
theorem exists_last_header {os : List Occurrence} {o : Occurrence} {name : Text}
    (hos : os.map (fun o => (o.line, o.name)) = hs.filter (·.2 = name))
    (hlast : os.getLast? = some o) :
    ∃ front behind, hs = front ++ (o.line, name) :: behind ∧ ∀ h ∈ behind, h.2 ≠ name := by
  have hfound : hs.reverse.find? (·.2 = name) = some (o.line, o.name) := by
    rw [← List.head?_filter, List.filter_reverse, ← hos, List.head?_reverse, List.getLast?_map,
      hlast]
    rfl
  obtain ⟨hname, behind, front, hsplit, hbehind⟩ := List.find?_eq_some_iff_append.mp hfound
  have hname : o.name = name := by simpa using hname
  refine ⟨front.reverse, behind.reverse, ?_, fun h hh => ?_⟩
  · rw [← List.reverse_reverse hs, hsplit, hname, List.reverse_append, List.reverse_cons,
      List.append_assoc, List.singleton_append]
  · simpa using hbehind h (List.mem_reverse.mp hh)

/-- Repetition and grouping are reported as the header lines dictate, if the occurrences are the
headers with the name of the tag and its places are counted behind the description entry. -/
theorem tagReport_checkRepetition
    (hos : (c.occurrences g.name).map (fun o => (o.line, o.name)) = hs.filter (·.2 = g.name))
    (hplaces : c.indexes g.name = placesFrom 1 g.name (hs.map (·.2)))
    (hne : c.occurrences g.name ≠ []) : TagReport hs s g (c.checkRepetition s g) := by
  have hlength : hs.countP (·.2 = g.name) = (c.occurrences g.name).length := by
    rw [List.countP_eq_length_filter, ← hos, List.length_map]
  have hpos := List.length_pos_of_ne_nil hne
  unfold checkRepetition
  dsimp only
  split
  · exact .once (by omega)
  · split
    · next hrepeatable =>
      obtain ⟨o, os, hcons⟩ := List.exists_cons_of_ne_nil hne
      have hfirst : hs.find? (·.2 = g.name) = some (o.line, o.name) := by
        rw [← List.head?_filter, ← hos, hcons]
        rfl
      obtain ⟨hname, outer, inner, rfl, houter⟩ := List.find?_eq_some_iff_append.mp hfirst
      have houter : ∀ h ∈ outer, h.2 ≠ g.name := fun h hh => by simpa using houter h hh
      have hname : (o.line, o.name).2 = g.name := by simpa using hname
      have hscan := firstStray?_headD houter hname hos hplaces
      cases hfound : (inner.dropWhile (·.2 = g.name)).find? (·.2 = g.name) with
      | none =>
        rw [hfound, Option.map_eq_none_iff] at hscan
        rw [hscan]
        exact .grouped (by omega) hrepeatable (.of_find?_eq_none houter hname hfound)
      | some h =>
        rw [hfound, Option.map_eq_some_iff] at hscan
        obtain ⟨stray, hstray, rfl⟩ := hscan
        have hstrayname : stray.name = g.name := by simpa using List.find?_some hfound
        obtain ⟨front, behind, hsplit, hback, hrun⟩ :=
          exists_comesBack_of_find?_eq_some houter hname hfound
        rw [hstrayname] at hsplit
        rw [hstray]
        exact .ungrouped (by omega) hrepeatable (fun h => h.not_comesBack hsplit rfl hback) hsplit
          hback fun earlier h between hfront hh => hrun.not_comesBack hfront hh
    · next hrepeatable =>
      obtain ⟨front, behind, hhs, hbehind⟩ :=
        exists_last_header hos (List.getLast?_eq_some_getLast hne)
      rw [List.getLast?_eq_some_getLast hne]
      exact .duplicate (by omega) (Bool.eq_false_iff.mpr hrepeatable) hhs hbehind

/-- The issues with the presence, the number and the grouping of one tag. -/
def checkTally (c : Comment) (s : Scope) (g : Grammar) : List Issue :=
  if (c.occurrences g.name).isEmpty then
    if g.requirement = .required then [⟨s.last, .missingTag s.owner g.name⟩] else []
  else c.checkRepetition s g

/-- Behind these issues with a tag stand those with its content. -/
theorem checkTag_eq (c : Comment) (s : Scope) (g : Grammar) :
    c.checkTag s g = c.checkTally s g ++
      if (c.occurrences g.name).isEmpty then []
      else g.contentRule.check s (c.occurrences g.name) := by
  unfold checkTag checkTally
  dsimp only
  split
  · rw [List.append_nil]
  · rfl

/-- What is reported about how often a tag occurs names the tag. -/
theorem talliedTag?_of_mem_checkTally {i : Issue} (h : i ∈ c.checkTally s g) :
    i.finding.talliedTag? = some g.name := by
  unfold checkTally at h
  split at h
  · rw [List.mem_ite_nil_right, List.mem_singleton] at h
    rw [h.2]
    rfl
  · unfold checkRepetition at h
    dsimp only at h
    split at h
    · cases h
    · split at h
      all_goals
        obtain ⟨o, -, rfl⟩ := Option.map_eq_some_iff.mp (Option.mem_toList.mp h)
        rfl

/-- An issue with a tag that is about presence, number or grouping is about that tag. -/
theorem eq_name_of_mem_checkTag (hrule : g.contentRule.IsBuiltIn) {i : Issue} {tag : Text}
    (h : i ∈ c.checkTag s g) (htag : i.finding.talliedTag? = some tag) : tag = g.name := by
  rw [checkTag_eq, List.mem_append, List.mem_ite_nil_left] at h
  rcases h with h | ⟨-, h⟩
  · exact Option.some.inj (htag.symm.trans (talliedTag?_of_mem_checkTally h))
  · rw [Finding.talliedTag?_eq_none (hrule.stage_of_mem_check h)] at htag
    cases htag

/-- Of the issues with a tag, those about the presence, the number and the grouping of tags other
than the description entry. -/
theorem filter_checkTag (hrule : g.contentRule.IsBuiltIn) (c : Comment) (s : Scope) :
    (c.checkTag s g).filter (·.finding.talliedTag?.any (· ≠ descriptionEntry)) =
      if g.name ≠ descriptionEntry then c.checkTally s g else [] := by
  split
  · next hname =>
    rw [checkTag_eq, List.filter_append, List.filter_eq_self.mpr, List.filter_eq_nil_iff.mpr,
      List.append_nil]
    · intro i hi
      rw [List.mem_ite_nil_left] at hi
      simp [Finding.talliedTag?_eq_none (hrule.stage_of_mem_check hi.2)]
    · intro i hi
      simp [talliedTag?_of_mem_checkTally hi, hname]
  · next hname =>
    rw [not_not] at hname
    refine List.filter_eq_nil_iff.mpr fun i hi => ?_
    cases htag : i.finding.talliedTag? with
    | none => simp
    | some tag => simp [eq_name_of_mem_checkTag hrule hi htag, hname]

/-- Of the issues with all tags, those about the presence, the number and the grouping of tags other
than the description entry. -/
theorem filter_checkTags {v : Vocabulary} (hrules : v.UsesBuiltInRules) (c : Comment) (s : Scope) :
    (c.checkTags v s).filter (·.finding.talliedTag?.any (· ≠ descriptionEntry)) =
      (v.grammars.filter fun g => g.isChecked && g.name ≠ descriptionEntry).flatMap
        (c.checkTally s) := by
  have htags : ∀ gs : List Grammar, (∀ g ∈ gs, g.contentRule.IsBuiltIn) →
      ((gs.filter (·.isChecked)).flatMap (c.checkTag s)).filter
          (·.finding.talliedTag?.any (· ≠ descriptionEntry)) =
        (gs.filter fun g => g.isChecked && g.name ≠ descriptionEntry).flatMap
          (c.checkTally s) := by
    intro gs hgs
    induction gs with
    | nil => rfl
    | cons g gs ih =>
      obtain ⟨hrule, hgs⟩ := List.forall_mem_cons.mp hgs
      by_cases hchecked : g.isChecked
      · rw [List.filter_cons_of_pos hchecked, List.flatMap_cons, List.filter_append, ih hgs,
          filter_checkTag hrule]
        by_cases hname : g.name = descriptionEntry
        · rw [if_neg (not_not.mpr hname), List.nil_append,
            List.filter_cons_of_neg (by simp [hname])]
        · rw [if_pos hname, List.filter_cons_of_pos (by simp [hchecked, hname]),
            List.flatMap_cons]
      · rw [List.filter_cons_of_neg hchecked, ih hgs, List.filter_cons_of_neg (by simp [hchecked])]
  exact htags v.grammars hrules

section Reading

variable {raw eol : Text} {v : Vocabulary}

/-- Presence, number and grouping of a tag of the vocabulary are reported as the header lines
dictate, unless it has the name of the description entry. -/
theorem tagReport_checkTally (h : Comment.parse raw v eol = .ok c) (hg : g ∈ v.grammars)
    (hname : g.name ≠ descriptionEntry) (s : Scope) :
    TagReport (headers (Margin.strip raw eol)) s g (c.checkTally s g) := by
  have hknown : (v.get? g.name).isSome := List.find?_isSome.mpr ⟨g, hg, by simp⟩
  have hos := map_occurrences_of_parse h hknown
  have hplaces : c.indexes g.name =
      placesFrom 1 g.name ((headers (Margin.strip raw eol)).map (·.2)) := by
    rw [indexes_eq_placesFrom, order_of_parse h, placesFrom_cons_of_ne _ (Ne.symm hname)]
  unfold checkTally
  split
  · next hempty =>
    refine .absent ?_
    rw [List.countP_eq_length_filter, ← hos, List.isEmpty_iff.mp hempty]
    rfl
  · next hne => exact tagReport_checkRepetition hos hplaces (by simpa using hne)

/-- Presence, number and grouping of tags are reported exactly. Of a comment that was read, the
issues of these kinds about tags that are not named like the description entry come from the checked
tags of the vocabulary in order, and for each tag they are what the header lines dictate. None is
about a tolerated tag. The rules for content are the usual ones; another one could report such an
issue itself. -/
theorem tallies_reported_exactly (hrules : v.UsesBuiltInRules)
    (h : Comment.parse raw v eol = .ok c) (s : Scope) :
    (∃ report : Grammar → List Issue,
      (∀ g ∈ v.grammars, g.isChecked → g.name ≠ descriptionEntry →
        TagReport (headers (Margin.strip raw eol)) s g (report g)) ∧
      (c.checkTags v s).filter (·.finding.talliedTag?.any (· ≠ descriptionEntry)) =
        (v.grammars.filter fun g => g.isChecked && g.name ≠ descriptionEntry).flatMap report) ∧
    ∀ g ∈ v.grammars, g.requirement = .tolerated →
      ∀ i ∈ c.checkTags v s, i.finding.talliedTag? ≠ some g.name := by
  refine ⟨⟨c.checkTally s, fun g hg _ hname => tagReport_checkTally h hg hname s, ?_⟩, ?_⟩
  · rw [filter_checkTags hrules]
  · intro g hg htolerated i hi htag
    obtain ⟨g', hg', hi⟩ := List.mem_flatMap.mp hi
    obtain ⟨hmem, hchecked⟩ := List.mem_filter.mp hg'
    have hname : g.name = g'.name := eq_name_of_mem_checkTag (hrules g' hmem) hi htag
    have heq : g = g' := List.inj_on_of_nodup_map v.nodup hg hmem hname
    rw [← heq, Grammar.isChecked, htolerated] at hchecked
    cases hchecked

/-- Two packages and three references, with an unknown and a tolerated tag between the
references. -/
def scatteredTags : Text :=
  "/**\n * Short.\n *\n * @package A\n * @see a\n * @todo x\n * @see b\n * @link p\n".toList ++
    " * @see c\n * @package B\n * @link q\n */".toList

/-- The second package is one too many, the second reference comes back behind the unknown tag, and
three tags are missing. The tolerated tag is scattered too, but not reported. -/
theorem tallies_reported_scatteredTags :
    ∃ c, Comment.parse scatteredTags .fileComment "\n" = .ok c ∧
      (∃ report : Grammar → List Issue,
        (∀ g ∈ Vocabulary.fileComment.grammars, g.isChecked → g.name ≠ descriptionEntry →
          TagReport (headers (Margin.strip scatteredTags "\n")) ⟨.file, 0, 11, "\n", []⟩ g
            (report g)) ∧
        (Vocabulary.fileComment.grammars.filter fun g =>
            g.isChecked && g.name ≠ descriptionEntry).flatMap report =
          [⟨9, .duplicateTag .file "package"⟩, ⟨11, .missingTag .file "copyright"⟩,
            ⟨11, .missingTag .file "license"⟩, ⟨11, .missingTag .file "version"⟩,
            ⟨6, .ungroupedTags "see"⟩]) ∧
      ∀ i ∈ c.checkTags .fileComment ⟨.file, 0, 11, "\n", []⟩,
        i.finding.talliedTag? ≠ some "link" := by
  have hparse : Comment.parse scatteredTags .fileComment "\n" = .ok {
      short := "Short.", breaksAfter := 2, shortEnd := 1, firstTag := some 3
      tags := [⟨"package", "package", 3, "\n\n", .single "A"⟩,
        ⟨"see", "sees", 4, "\n", .single "a"⟩, ⟨"see", "sees", 6, "\n", .single "b"⟩,
        ⟨"link", "link", 7, "\n", .single "p"⟩, ⟨"see", "sees", 8, "\n", .single "c"⟩,
        ⟨"package", "package", 9, "\n", .single "B"⟩, ⟨"link", "link", 10, "\n", .single "q"⟩]
      order := ["comment", "package", "see", "todo", "see", "link", "see", "package", "link"]
      unknown := [⟨"todo", 5⟩] } := by decide +kernel
  obtain ⟨⟨report, hreport, hissues⟩, htolerated⟩ :=
    tallies_reported_exactly Vocabulary.usesBuiltInRules_fileComment hparse
      ⟨.file, 0, 11, "\n", []⟩
  refine ⟨_, hparse, ⟨report, hreport, hissues.symm.trans (by decide +kernel)⟩, ?_⟩
  exact htolerated
    { name := "link", shape := .single, requirement := .tolerated
      orderHint := some "follows @version" } (by simp [Vocabulary.fileComment]) rfl

end Reading

end Comment

end DocCheck
