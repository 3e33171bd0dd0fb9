import DocCheck.Check
import DocCheck.Proofs.Comment.Reading
import DocCheck.Proofs.Text.Names

/-!
# Vocabularies as maps

Entering a grammar replaces the one of its name where it stands, or puts it behind all others. Seen
through the look-up a vocabulary is therefore a map in which the last entry of a name counts; seen
as a list it has the names in the order of first entry. Reading a comment uses the look-up only, and
of a grammar only shape and container, so the order of the vocabulary does not matter to it.
-/

namespace DocCheck

/-- In a list, too, a grammar that was entered is found under its name, and the other names keep
theirs. -/
theorem Grammar.find?_enter (g : Grammar) (gs : List Grammar) (name : Text) :
    (g.enter gs).find? (·.name = name) =
      if g.name = name then some g else gs.find? (·.name = name) := by
  induction gs with
  | nil => by_cases hg : g.name = name <;> simp [enter, hg]
  | cons h gs ih =>
    unfold enter
    split
    · next hname => by_cases hg : g.name = name <;> simp [hname, hg]
    · next hname =>
      by_cases hh : h.name = name
      · have hg : g.name ≠ name := fun hg => hname (hh.trans hg.symm)
        simp [hh, hg]
      · simpa [hh] using ih

namespace Vocabulary

/-- A grammar that is entered, or several that are entered together. -/
inductive Registration where
  | single (g : Grammar)
  | several (gs : List Grammar)

/-- The grammars of a registration, in the order in which they are entered. -/
def Registration.grammars : Registration → List Grammar
  | single g => [g]
  | several gs => gs

/-- The vocabulary after one registration. -/
def registerOne (v : Vocabulary) : Registration → Vocabulary
  | .single g => v.insert g
  | .several gs => v.insertAll gs

/-- The vocabulary after several registrations, one after the other. -/
def register (v : Vocabulary) (rs : List Registration) : Vocabulary := rs.foldl registerOne v

section Entering

variable (v : Vocabulary) (gs : List Grammar)

/-- Entering a grammar enters its name: a new one comes last, and a known one stays where it is. -/
theorem names_insert (g : Grammar) :
    (v.insert g).names = if g.name ∈ v.names then v.names else v.names ++ [g.name] :=
  g.map_name_enter v.grammars

/-- A grammar that was entered is found under its name, and the other names keep theirs. -/
theorem get?_insert (g : Grammar) (name : Text) :
    (v.insert g).get? name = if g.name = name then some g else v.get? name :=
  g.find?_enter v.grammars name

/-- The last grammar is entered last. -/
theorem insertAll_concat (g : Grammar) : v.insertAll (gs ++ [g]) = (v.insertAll gs).insert g :=
  List.foldl_concat ..

/-- The names after several entries: the old ones, then the new ones in the order of first entry. -/
theorem names_insertAll : (v.insertAll gs).names = enterNames v.names (gs.map (·.name)) := by
  induction gs using List.reverseRecOn with
  | nil => exact (enterNames_nil v.names).symm
  | append_singleton gs g ih =>
    rw [insertAll_concat, names_insert, ih, List.map_append, List.map_singleton, enterNames_concat]

/-- Of several entries of a name the last one counts. -/
theorem get?_insertAll (name : Text) :
    (v.insertAll gs).get? name = (gs.filter (·.name = name)).getLast?.or (v.get? name) := by
  induction gs using List.reverseRecOn with
  | nil => rfl
  | append_singleton gs g ih =>
    rw [insertAll_concat, get?_insert, ih, List.filter_append]
    by_cases hg : g.name = name <;> simp [hg]

/-- Registrations are entries of their grammars, one after the other. -/
theorem register_eq_insertAll (rs : List Registration) :
    v.register rs = v.insertAll (rs.flatMap (·.grammars)) := by
  induction rs generalizing v with
  | nil => rfl
  | cons r rs ih =>
    have hone : v.registerOne r = v.insertAll r.grammars := by cases r <;> rfl
    rw [List.flatMap_cons, insertAll, List.foldl_append, ← insertAll, ← insertAll, ← hone, ← ih]
    rfl

end Entering

/-- Each grammar is found under its name. -/
theorem get?_name {v : Vocabulary} {g : Grammar} (hg : g ∈ v.grammars) :
    v.get? g.name = some g :=
  find?_name_of_nodup v.nodup hg

/-- The order of a vocabulary does not matter to the look-up. -/
theorem get?_eq_of_perm {v w : Vocabulary} (hperm : v.grammars.Perm w.grammars) (name : Text) :
    v.get? name = w.get? name := by
  cases hfound : v.get? name with
  | some g =>
    obtain rfl : g.name = name := by simpa using List.find?_some hfound
    exact (get?_name (hperm.mem_iff.mp (List.mem_of_find?_eq_some hfound))).symm
  | none =>
    refine (List.find?_eq_none.mpr fun g hg => ?_).symm
    exact List.find?_eq_none.mp hfound g (hperm.mem_iff.mpr hg)

/-- The vocabulary `w` is `v` after the grammars `gs` were entered: a map in which the last entry of
a name counts, listed in the order of first entry. -/
structure LastWins (v : Vocabulary) (gs : List Grammar) (w : Vocabulary) : Prop where
  nodup : w.names.Nodup
  /-- A name has its last grammar, or the one that it had before. -/
  get?_eq : ∀ name, w.get? name = (gs.filter (·.name = name)).getLast?.or (v.get? name)
  /-- The old names come first, then the new ones in the order of first entry. -/
  names_eq : w.names = v.names ++ ((gs.map (·.name)).removeAll v.names).eraseDups
  /-- Every grammar is listed under the name that it is found by. -/
  listed : ∀ g ∈ w.grammars, w.get? g.name = some g

/-- Entering grammars one after the other makes such a map. -/
theorem lastWins_insertAll (v : Vocabulary) (gs : List Grammar) :
    LastWins v gs (v.insertAll gs) :=
  ⟨(v.insertAll gs).nodup, v.get?_insertAll gs, v.names_insertAll gs, fun _ hg => get?_name hg⟩

/-- Two vocabularies give each name the same shape and the same container, or do not know it. -/
def SameReading (v w : Vocabulary) : Prop :=
  ∀ name, (v.get? name).map (fun g => (g.shape, g.container)) =
    (w.get? name).map fun g => (g.shape, g.container)

section Reading

variable {v w : Vocabulary}

/-- Vocabularies that read alike know the same names. -/
theorem SameReading.isNone_get? (h : SameReading v w) (name : Text) :
    (v.get? name).isNone = (w.get? name).isNone := by
  rw [← Option.isNone_map, h name, Option.isNone_map]

/-- Reading tags looks at nothing else in a vocabulary. -/
theorem SameReading.readTags_eq (h : SameReading v w) (eol : Text) (rank : Nat)
    (ts : List RawTag) : readTags v eol rank ts = readTags w eol rank ts := by
  induction ts generalizing rank with
  | nil => rfl
  | cons t ts ih =>
    have hname := h t.name
    simp only [readTags, ih]
    cases hv : v.get? t.name with
    | none =>
      rw [hv] at hname
      rw [Option.map_eq_none_iff.mp hname.symm]
    | some g =>
      rw [hv] at hname
      obtain ⟨g', hw, hsame⟩ := Option.map_eq_some_iff.mp hname.symm
      obtain ⟨hshape, hcontainer⟩ := Prod.mk.inj hsame
      simp only [hw, hshape, hcontainer]

/-- Vocabularies that read alike read every comment alike. -/
theorem SameReading.parse_eq (h : SameReading v w) (raw eol : Text) :
    Comment.parse raw v eol = Comment.parse raw w eol := by
  have hassemble : Comment.assemble v eol (Margin.strip raw eol) =
      Comment.assemble w eol (Margin.strip raw eol) := by
    funext tags
    simp only [Comment.assemble, h.isNone_get?]
  rw [Comment.parse_eq, Comment.parse_eq, h.readTags_eq, hassemble]

end Reading

/-- However grammars are registered, a vocabulary stays a map in which the last entry of a name
counts, listed in the order of first entry; so do the vocabularies of the settings, of which the
extra tags are the later entries. Two vocabularies that agree on shape and container of every name
read every comment alike. -/
theorem lastWins_register :
    (∀ (v : Vocabulary) (rs : List Registration),
      LastWins v (rs.flatMap Registration.grammars) (v.register rs)) ∧
    (∀ cfg : Settings, LastWins fileComment cfg.extraTags cfg.fileVocabulary ∧
      LastWins classComment cfg.extraTags cfg.classVocabulary) ∧
    ∀ v w, SameReading v w → ∀ raw eol, Comment.parse raw v eol = Comment.parse raw w eol := by
  refine ⟨fun v rs => ?_, fun cfg => ⟨?_, ?_⟩, fun v w h raw eol => h.parse_eq raw eol⟩
  · rw [register_eq_insertAll]
    exact lastWins_insertAll v _
  · exact lastWins_insertAll fileComment cfg.extraTags
  · exact lastWins_insertAll classComment cfg.extraTags

/-- A vocabulary of two tags. -/
def twoTags : Vocabulary where
  nodup := by decide
  grammars := [{ name := "package", shape := .single }, { name := "see", shape := .single }]

/-- Registrations that give both tags another grammar and enter a third tag twice. -/
def reenteredTags : List Registration :=
  [.single { name := "see", shape := .leaf },
    .several [{ name := "todo", shape := .single }, { name := "package", shape := .keyValue },
      { name := "todo", shape := .leaf }]]

/-- The third tag stands last and has its second grammar. In any other order the vocabulary reads
every comment alike. -/
theorem lastWins_reenteredTags :
    LastWins twoTags (reenteredTags.flatMap Registration.grammars)
        (twoTags.register reenteredTags) ∧
      (twoTags.register reenteredTags).names =
        ["package".toList, "see".toList, "todo".toList] ∧
      (twoTags.register reenteredTags).get? "todo" = some { name := "todo", shape := .leaf } ∧
      ∀ w : Vocabulary, w.grammars.Perm (twoTags.register reenteredTags).grammars →
        ∀ raw eol, Comment.parse raw w eol =
          Comment.parse raw (twoTags.register reenteredTags) eol := by
  obtain ⟨hregister, -, hread⟩ := lastWins_register
  have hlast := hregister twoTags reenteredTags
  refine ⟨hlast, hlast.names_eq.trans (by decide), hlast.get?_eq "todo", fun w hperm => ?_⟩
  exact hread _ _ fun name => by rw [get?_eq_of_perm hperm]

end Vocabulary

end DocCheck
