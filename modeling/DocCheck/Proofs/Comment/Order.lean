import DocCheck.Proofs.Comment.TagList
import DocCheck.Rule.Layout

/-!
# Places in the order of tags

Whether the occurrences of a tag are grouped is decided from two lists side by side: the places of
its name in the order of tags, and its occurrences. The order of tags starts with an entry for the
description, which has a name of its own. The two lists line up for every tag of the vocabulary but
one with that name.
-/

namespace DocCheck

/-- The places of a name in a list of names, the first place being `place`. -/
def placesFrom (place : Nat) (name : Text) (names : List Text) : List Nat :=
  ((names.zipIdx place).filter (·.1 = name)).map (·.2)

/-- The indexes of a tag are its places in the order of all tags. -/
theorem Comment.indexes_eq_placesFrom (c : Comment) (name : Text) :
    c.indexes name = placesFrom 0 name c.order := rfl

/-- A name at the head is at the first place. -/
theorem placesFrom_cons_self (place : Nat) (name : Text) (names : List Text) :
    placesFrom place name (name :: names) = place :: placesFrom (place + 1) name names := by
  simp [placesFrom]

/-- Another name at the head only moves the places on. -/
theorem placesFrom_cons_of_ne (place : Nat) {name n : Text} (h : n ≠ name) (names : List Text) :
    placesFrom place name (n :: names) = placesFrom (place + 1) name names := by
  simp [placesFrom, h]

/-- The places of a name are the ranks of the pairs with that name. -/
theorem forall₂_placesFrom (place : Nat) (name : Text) (hs : List (Nat × Text)) :
    List.Forall₂ (fun i h => ∃ rank, i = place + rank ∧ hs[rank]? = some h)
      (placesFrom place name (hs.map (·.2))) (hs.filter (·.2 = name)) := by
  induction hs generalizing place with
  | nil => exact List.Forall₂.nil
  | cons h hs ih =>
    have htail := (ih (place + 1)).imp
      (S := fun i h' => ∃ rank, i = place + rank ∧ (h :: hs)[rank]? = some h') (by
        rintro i h' ⟨rank, rfl, hrank⟩
        exact ⟨rank + 1, by omega, hrank⟩)
    by_cases hname : h.2 = name
    · rw [List.filter_cons_of_pos (by simpa using hname), List.map_cons, hname,
        placesFrom_cons_self]
      exact List.Forall₂.cons ⟨0, rfl, rfl⟩ htail
    · rw [List.filter_cons_of_neg (by simpa using hname), List.map_cons,
        placesFrom_cons_of_ne _ hname]
      exact htail

/-- Places and occurrences line up: there are as many of both, and each place is one more than the
rank of its occurrence among the header lines. -/
def LineUp (lines : List Text) (places : List Nat) (os : List Occurrence) : Prop :=
  List.Forall₂ (fun place o =>
    ∃ rank, place = rank + 1 ∧ (headers lines)[rank]? = some (o.line, o.name)) places os

section Reading

variable {raw eol name : Text} {v : Vocabulary} {c : Comment}

/-- The occurrences of a tag of the vocabulary are the header lines with its name. -/
theorem Comment.map_occurrences_of_parse (h : Comment.parse raw v eol = .ok c)
    (hname : (v.get? name).isSome) :
    (c.occurrences name).map (fun o => (o.line, o.name)) =
      (headers (Margin.strip raw eol)).filter (·.2 = name) := by
  have hfilter : (c.occurrences name).map (fun o => (o.line, o.name)) =
      (c.tags.map fun o => (o.line, o.name)).filter (·.2 = name) := by
    rw [occurrences, List.filter_map]
    rfl
  rw [hfilter, map_tags_of_parse h, List.filter_filter]
  refine List.filter_congr fun h _ => ?_
  by_cases heq : h.2 = name <;> simp [heq, hname]

/-- Behind the description entry the places of a tag line up with its occurrences. -/
theorem Comment.lineUp_placesFrom (h : Comment.parse raw v eol = .ok c)
    (hname : (v.get? name).isSome) :
    LineUp (Margin.strip raw eol)
      (placesFrom 1 name ((headers (Margin.strip raw eol)).map (·.2))) (c.occurrences name) := by
  have hplaces := forall₂_placesFrom 1 name (headers (Margin.strip raw eol))
  rw [← map_occurrences_of_parse h hname, List.forall₂_map_right_iff] at hplaces
  refine hplaces.imp ?_
  rintro place o ⟨rank, rfl, hrank⟩
  exact ⟨rank, Nat.add_comm _ _, hrank⟩

/-- The places and the occurrences of a tag of the vocabulary line up unless it has the name of the
description entry. Then the place of that entry stands in front, and the other places line up. -/
theorem Comment.lineUp_indexes_iff (h : Comment.parse raw v eol = .ok c)
    (hname : (v.get? name).isSome) :
    (LineUp (Margin.strip raw eol) (c.indexes name) (c.occurrences name) ↔
      name ≠ descriptionEntry) ∧
    (name = descriptionEntry → ∃ places, c.indexes name = 0 :: places ∧
      LineUp (Margin.strip raw eol) places (c.occurrences name)) := by
  have hlineUp := lineUp_placesFrom h hname
  have hindexes : c.indexes name =
      placesFrom 0 name (descriptionEntry :: (headers (Margin.strip raw eol)).map (·.2)) := by
    rw [indexes_eq_placesFrom, order_of_parse h]
  by_cases hentry : name = descriptionEntry
  · rw [hentry, placesFrom_cons_self, Nat.zero_add] at hindexes
    rw [hentry] at hlineUp ⊢
    refine ⟨⟨fun hbad => ?_, fun hne => absurd rfl hne⟩, fun _ => ⟨_, hindexes, hlineUp⟩⟩
    -- With the description entry there is one place too many.
    have hlong := hbad.length_eq
    have hfit := hlineUp.length_eq
    rw [hindexes, List.length_cons] at hlong
    omega
  · rw [placesFrom_cons_of_ne _ (Ne.symm hentry)] at hindexes
    exact ⟨⟨fun _ => hentry, fun _ => hindexes ▸ hlineUp⟩, fun heq => absurd heq hentry⟩

end Reading

/-- A vocabulary with a repeatable tag that is named like the description entry. -/
def commentVocabulary : Vocabulary where
  nodup := by decide
  grammars := [{ name := "package", shape := .single },
    { name := "comment", shape := .single, repeatable := true }]

/-- A tag, and behind it two neighbouring tags that are named like the description entry. -/
def commentTags : Text :=
  "/**\n * Short.\n *\n * @package Foo\n * @comment a\n * @comment b\n */"

/-- The place of the description entry comes first, so the last place has no occurrence. -/
theorem Comment.not_lineUp_commentTags :
    ∃ c, Comment.parse commentTags commentVocabulary "\n" = .ok c ∧
      (commentVocabulary.get? "comment").isSome ∧
      c.indexes "comment" = [0, 2, 3] ∧ (c.occurrences "comment").map (·.line) = [4, 5] ∧
      ¬ LineUp (Margin.strip commentTags "\n") (c.indexes "comment") (c.occurrences "comment") ∧
      LineUp (Margin.strip commentTags "\n") [2, 3] (c.occurrences "comment") := by
  have hparse : Comment.parse commentTags commentVocabulary "\n" = .ok {
      short := "Short.", breaksAfter := 2, shortEnd := 1, firstTag := some 3
      tags := [⟨"package", "package", 3, "\n\n", .single "Foo"⟩,
        ⟨"comment", "comment", 4, "\n", .single "a"⟩,
        ⟨"comment", "comment", 5, "\n", .single "b"⟩]
      order := ["comment", "package", "comment", "comment"] } := by decide +kernel
  have hknown : (commentVocabulary.get? "comment").isSome := by decide
  obtain ⟨hiff, hrest⟩ := lineUp_indexes_iff hparse hknown
  obtain ⟨places, hplaces, hlineUp⟩ := hrest rfl
  obtain rfl : [2, 3] = places := (List.cons.inj hplaces).2
  exact ⟨_, hparse, hknown, hplaces, rfl, fun h => hiff.mp h rfl, hlineUp⟩

/-- The two neighbours are reported as not grouped, because they are compared with the places of the
description entry and of the first of them. -/
example :
    (Comment.parse commentTags commentVocabulary "\n").map
        (·.checkTags commentVocabulary ⟨.file, 0, 6, "\n", []⟩) =
      .ok [⟨5, .ungroupedTags "comment"⟩] := by decide +kernel

end DocCheck
