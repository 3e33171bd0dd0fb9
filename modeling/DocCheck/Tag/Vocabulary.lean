import DocCheck.Rule.Content

/-!
# Vocabularies

A vocabulary is the list of the tags a comment may use, each with a name of its own. A tag that is
entered again keeps its place and gets the new grammar, so the order of the list is the order of
first entry.
-/

namespace DocCheck

/-- The known tags, in the order in which they are checked. No two of them have the same name. -/
structure Vocabulary where
  grammars : List Grammar
  nodup : (grammars.map (·.name)).Nodup

/-- Enters a grammar into a list; one of the same name is replaced where it stands. -/
def Grammar.enter (g : Grammar) : List Grammar → List Grammar
  | [] => [g]
  | h :: gs => if h.name = g.name then g :: gs else h :: g.enter gs

/-- A grammar of a new name comes last, and one of a known name takes the place of the other. -/
theorem Grammar.map_name_enter (g : Grammar) (gs : List Grammar) :
    (g.enter gs).map (·.name) =
      if g.name ∈ gs.map (·.name) then gs.map (·.name) else gs.map (·.name) ++ [g.name] := by
  induction gs with
  | nil => rfl
  | cons h gs ih =>
    unfold Grammar.enter
    split
    · next hname => simp [hname]
    · next hname =>
      rw [List.map_cons, ih]
      split <;> simp_all [Ne.symm hname]

/-- A grammar that is entered repeats no name. -/
theorem Grammar.nodup_enter (g : Grammar) {gs : List Grammar} (h : (gs.map (·.name)).Nodup) :
    ((g.enter gs).map (·.name)).Nodup := by
  rw [g.map_name_enter]
  split
  · exact h
  · next hnew =>
    refine List.nodup_append.mpr ⟨h, List.pairwise_singleton _ _, ?_⟩
    rintro name hname other hother rfl
    rw [List.mem_singleton.mp hother] at hname
    exact hnew hname

namespace Vocabulary

/-- The vocabulary without tags. -/
def empty : Vocabulary := ⟨[], List.nodup_nil⟩

/-- The grammar of a tag. -/
def get? (v : Vocabulary) (name : Text) : Option Grammar := v.grammars.find? (·.name = name)

/-- Enters a grammar; one of the same name is replaced where it stands. -/
def insert (v : Vocabulary) (g : Grammar) : Vocabulary :=
  ⟨g.enter v.grammars, g.nodup_enter v.nodup⟩

/-- Enters several grammars one after the other. -/
def insertAll (v : Vocabulary) (gs : List Grammar) : Vocabulary := gs.foldl insert v

/-- The names of the known tags, in order. -/
def names (v : Vocabulary) : List Text := v.grammars.map (·.name)

/-- The tags of a file comment. -/
def fileComment : Vocabulary where
  nodup := by decide
  grammars := [
    { name := "category", shape := .single, requirement := .tolerated
      orderHint := some "precedes @package" },
    { name := "package", shape := .single, requirement := .required
      orderHint := some "follows @category", rule := some .package },
    { name := "subpackage", shape := .single
      orderHint := some "follows @package", rule := some .subpackage },
    { name := "author", shape := .single, container := "authors", repeatable := true
      orderHint := some "follows @subpackage (if used) or @package", rule := some .authors },
    { name := "copyright", shape := .single, container := "copyrights", requirement := .required
      repeatable := true, orderHint := some "follows @author", rule := some .copyrights },
    { name := "license", shape := .keyValue, requirement := .required
      orderHint := some "follows @copyright (if used) or @author", rule := some .license },
    { name := "version", shape := .single, requirement := .required
      orderHint := some "follows @license", rule := some .version },
    { name := "link", shape := .single, requirement := .tolerated
      orderHint := some "follows @version" },
    { name := "see", shape := .single, container := "sees", repeatable := true
      orderHint := some "follows @link" }]

/-- A tag of class comments that declares a property. -/
def propertyTag (name : Text) : Grammar :=
  { name, shape := .property, container := "properties", requirement := .tolerated
    repeatable := true }

/-- A tag of class comments whose content is free. -/
def freeTag (name : Text) : Grammar :=
  { name, shape := .single, requirement := .tolerated, repeatable := true }

/-- The tags of a class comment. -/
def classComment : Vocabulary where
  nodup := by decide
  grammars := [
    { name := "package", shape := .single, requirement := .required, rule := some .package },
    { name := "version", shape := .single, requirement := .required, rule := some .version },
    { name := "mainclass", shape := .leaf },
    { name := "uses", shape := .single, repeatable := true },
    { name := "see", shape := .single, container := "sees", repeatable := true },
    { name := "tutorial", shape := .single },
    propertyTag "property", propertyTag "property-read", propertyTag "property-write",
    freeTag "category", freeTag "subpackage", freeTag "author", freeTag "copyright",
    freeTag "since", freeTag "deprecated", freeTag "link",
    { name := "license", shape := .keyValue, requirement := .tolerated }]

end Vocabulary

end DocCheck
