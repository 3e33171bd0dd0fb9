import DocCheck.Text.Space

/-!
# Text

Text is a list of characters. This module holds the operations the rest of the library is written
in: trimming, cutting at a separator, counting separators, and lengths in UTF-8 bytes, which is
the unit of every column.

A separator may be empty. It then stands before every character and at the end of the text, so
that `"ab"` has four pieces and three separators.
-/

namespace DocCheck

/-- Text, as the list of its characters. -/
abbrev Text := List Char

/-- String literals stand for texts. -/
instance : Coe String Text := ⟨String.toList⟩

namespace Text

/-- The length of the UTF-8 form of a text, in bytes. -/
def byteLength : Text → Nat
  | [] => 0
  | c :: t => c.utf8Size + byteLength t

/-- A text without any visible character. -/
def isBlank (t : Text) : Bool := t.all isSpace

/-- The text without spaces at its start. -/
def trimStart (t : Text) : Text := t.dropWhile isSpace

/-- The text without spaces at its end. -/
def trimEnd (t : Text) : Text := (t.reverse.dropWhile isSpace).reverse

/-- The text without spaces at its ends. -/
def trim (t : Text) : Text := (trimStart t).trimEnd

/-- What follows `lead`, if the text starts with it. -/
def after? : (t lead : Text) → Option Text
  | t, [] => some t
  | [], _ :: _ => none
  | c :: t, l :: lead => if l = c then after? t lead else none

/-- Whether `part` occurs in the text. -/
def contains (t part : Text) : Bool :=
  match t with
  | [] => part.isEmpty
  | c :: t => part.isPrefixOf (c :: t) || contains t part

/-- The pieces between the occurrences of a non-empty separator, taken from left to right without
overlap. `skip` characters still belong to the separator found last. -/
def pieces (sep : Text) : (skip : Nat) → Text → List Text
  | _, [] => [[]]
  | skip + 1, _ :: t => pieces sep skip t
  | 0, c :: t =>
    if sep.isPrefixOf (c :: t) then [] :: pieces sep (sep.length - 1) t
    else (pieces sep 0 t).modifyHead (c :: ·)

/-- The pieces of a text between its separators, in order. -/
def splitOn (t sep : Text) : List Text :=
  if sep.isEmpty then [] :: (t.map ([·]) ++ [[]]) else pieces sep 0 t

/-- The number of separators in a text. -/
def count (t sep : Text) : Nat := (t.splitOn sep).length - 1

/-- The text in front of the first separator, and the text behind it. -/
def cut? (t sep : Text) : Option (Text × Text) :=
  match t with
  | [] => if sep.isEmpty then some ([], []) else none
  | c :: t =>
    match after? (c :: t) sep with
    | some rest => some ([], rest)
    | none => (cut? t sep).map fun (front, rest) => (c :: front, rest)

/-- The text behind the last place where the separator occurs. -/
def afterLast? (t sep : Text) : Option Text :=
  match t with
  | [] => if sep.isEmpty then some [] else none
  | c :: t => (afterLast? t sep).or (after? (c :: t) sep)

/-- Several texts with a separator between neighbours. -/
def join (sep : Text) (parts : List Text) : Text := sep.intercalate parts

/-- A text written `n` times. -/
def times (t : Text) (n : Nat) : Text := (List.replicate n t).flatten

/-- Every occurrence of `old`, from left to right without overlap, replaced by `new`. -/
def replace (t old new : Text) : Text := join new (t.splitOn old)

/-- A number in decimal digits. -/
def ofNat (n : Nat) : Text := Nat.toDigits 10 n

/-- What follows a lead is shorter by the lead. -/
theorem length_after? {t lead rest : Text} (h : t.after? lead = some rest) :
    rest.length + lead.length = t.length := by
  induction lead generalizing t with
  | nil => simp_all [after?]
  | cons l lead ih =>
    cases t with
    | nil => simp [after?] at h
    | cons c t =>
      simp only [after?] at h
      split at h
      · simp only [List.length_cons]
        have := ih h
        omega
      · simp at h

/-- Behind a non-empty separator less text remains. -/
theorem length_cut? {t sep front rest : Text} (hsep : sep.isEmpty = false)
    (h : t.cut? sep = some (front, rest)) : rest.length < t.length := by
  induction t generalizing front with
  | nil => simp [cut?, hsep] at h
  | cons c t ih =>
    rw [cut?] at h
    split at h
    · next rest' hafter =>
      have hlen := length_after? hafter
      have hpos : 0 < sep.length := by
        cases sep with
        | nil => simp at hsep
        | cons => simp
      simp only [Option.some.injEq, Prod.mk.injEq] at h
      rw [← h.2]
      omega
    · obtain ⟨⟨front', rest'⟩, hcut, heq⟩ := Option.map_eq_some_iff.mp h
      simp only [Prod.mk.injEq] at heq
      have hlt := ih (hcut.trans (by rw [heq.2]))
      simp only [List.length_cons]
      omega

/-- The physical lines of a text, each with its separator; a text that ends with a separator has
no further line. With an empty separator the whole text is one line. -/
def lines (t sep : Text) : List Text :=
  if hsep : sep.isEmpty then (if t.isEmpty then [] else [t])
  else
    match h : t.cut? sep with
    | none => if t.isEmpty then [] else [t]
    | some (front, rest) =>
      have : rest.length < t.length := length_cut? (by simpa using hsep) h
      (front ++ sep) :: lines rest sep
termination_by t.length

end Text

end DocCheck
