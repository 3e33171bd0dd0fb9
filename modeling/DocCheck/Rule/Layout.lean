import DocCheck.Tag.Vocabulary

/-!
# The layout of a comment

Blank lines around the descriptions, and presence, repetition and grouping of tags. Every rule is
examined on its own: no violation hides another one.
-/

namespace DocCheck

namespace Comment

/-- The issues with the blank lines in front of the short text, between the texts and in front of
the tags. -/
def checkSpacing (c : Comment) (s : Scope) : List Issue :=
  (if !c.short.isEmpty && 0 < c.blanksBefore then
    [s.at 1 (.extraNewlinesBeforeShort s.owner c.blanksBefore)] else []) ++
  (if c.hasLong && c.between.count s.eol ≠ 2 then
    [s.at (c.shortEnd + 1) (.blankLineBetweenDescriptions s.owner)] else []) ++
  (if 1 < c.order.length && c.breaksAfter ≠ 2 then
    [s.at (c.firstTag.getD 0) (.blankLineBeforeTags s.owner)] else [])

/-- The first occurrence that is out of place when each is expected right behind the one before,
the first of them at `expected`. -/
def firstStray? (expected : Nat) : List (Occurrence × Nat) → Option Occurrence
  | [] => none
  | (o, index) :: rest => if index = expected then firstStray? (expected + 1) rest else some o

/-- The issues with the number and the grouping of the occurrences of a tag. -/
def checkRepetition (c : Comment) (s : Scope) (g : Grammar) : List Issue :=
  let occurrences := c.occurrences g.name
  if occurrences.length ≤ 1 then []
  else if g.repeatable then
    let indexes := c.indexes g.name
    ((firstStray? (indexes.headD 0) (occurrences.zip indexes)).map fun o =>
      s.at o.line (.ungroupedTags g.name)).toList
  else (occurrences.getLast?.map fun o => s.at o.line (.duplicateTag s.owner g.name)).toList

/-- The issues with one tag of the vocabulary. -/
def checkTag (c : Comment) (s : Scope) (g : Grammar) : List Issue :=
  let occurrences := c.occurrences g.name
  if occurrences.isEmpty then
    if g.requirement = .required then [⟨s.last, .missingTag s.owner g.name⟩] else []
  else c.checkRepetition s g ++ g.contentRule.check s occurrences

/-- The issues with the tags, in the order of the vocabulary. -/
def checkTags (c : Comment) (v : Vocabulary) (s : Scope) : List Issue :=
  (v.grammars.filter (·.isChecked)).flatMap (c.checkTag s)

/-- The issues with spacing and tags. -/
def checkLayout (c : Comment) (v : Vocabulary) (s : Scope) : List Issue :=
  c.checkSpacing s ++ c.checkTags v s

end Comment

end DocCheck
