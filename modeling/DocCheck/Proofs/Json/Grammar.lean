import DocCheck.Json.Value
import Mathlib.Data.List.Forall2

/-!
# The grammar of JSON texts

Which texts are JSON, and which value a JSON text stands for, said apart from any reader or writer.
Strings may spell a character in several ways, white space may stand between any two parts, and
nothing depends on the order of members.

Values that nobody asks for are described by their text alone: their numbers may have a fraction
and an exponent, and their strings may hold halves of a character.
-/

namespace DocCheck.Json

section Blanks

/-- A text that may stand between the parts of a JSON text. -/
def Blank (t : Text) : Prop := ∀ c ∈ t, c ∈ [' ', '\t', '\n', '\r']

/-- A text with white space on both sides. -/
def Padded (t padded : Text) : Prop :=
  ∃ front back, Blank front ∧ Blank back ∧ padded = front ++ t ++ back

/-- The characters that may follow a value, or come in front of its first character. -/
def delimiters : List Char := [' ', '\t', '\n', '\r', ',', ']', '\x7d']

/-- A text behind a value: it is at its end or starts with a delimiter. -/
def Delimited (t : Text) : Prop := ∀ c ∈ t.head?, c ∈ delimiters

/-- A text that starts with no delimiter, such as that of a value. -/
def Starts (t : Text) : Prop := ∃ c rest, t = c :: rest ∧ c ∉ delimiters

/-- No characters are blank. -/
theorem blank_nil : Blank [] := fun _ h => absurd h List.not_mem_nil

/-- Blanks may follow blanks. -/
theorem Blank.append {t u : Text} (ht : Blank t) (hu : Blank u) : Blank (t ++ u) := by
  intro c hc
  rcases List.mem_append.mp hc with h | h
  · exact ht c h
  · exact hu c h

/-- Behind white space a text stays delimited. -/
theorem Blank.delimited_append {t u : Text} (ht : Blank t) (hu : Delimited u) :
    Delimited (t ++ u) := by
  cases t with
  | nil => exact hu
  | cons c t =>
    rintro c' hc'
    obtain rfl : c = c' := Option.some.inj hc'
    have hblank := ht c List.mem_cons_self
    simp only [delimiters, List.mem_cons, List.not_mem_nil, or_false] at hblank ⊢
    tauto

/-- A value may be followed by blanks. -/
theorem Blank.delimited {t : Text} (h : Blank t) : Delimited t := by
  have hend : Delimited [] := fun _ hc => nomatch hc
  have happend := h.delimited_append hend
  rwa [List.append_nil] at happend

/-- A text that starts with a delimiter may follow a value. -/
theorem delimited_cons {c : Char} (hc : c ∈ delimiters) (t : Text) : Delimited (c :: t) := by
  rintro c' hc'
  obtain rfl : c = c' := Option.some.inj hc'
  exact hc

/-- No delimiter can go on with a number. -/
theorem Delimited.head_ne {rest : Text} (h : Delimited rest) {c : Char} (hc : c ∈ rest.head?) :
    c.isDigit = false ∧ c ≠ '.' ∧ c ≠ 'e' ∧ c ≠ 'E' := by
  have hmem := h c hc
  simp only [delimiters, List.mem_cons, List.not_mem_nil, or_false] at hmem
  rcases hmem with rfl | rfl | rfl | rfl | rfl | rfl | rfl <;> decide

end Blanks

section Strings

/-- The letters of the short escapes, with the characters that they stand for. -/
def shortEscapes : List (Char × Char) :=
  [('"', '"'), ('\\', '\\'), ('/', '/'), ('b', '\x08'), ('f', '\x0c'), ('n', '\n'), ('r', '\r'),
    ('t', '\t')]

/-- A digit in base sixteen; its letter may be small or a capital. -/
def HexDigit (n : Nat) (c : Char) : Prop :=
  n < 16 ∧ (c = n.digitChar ∨ c = n.digitChar.toUpper)

/-- A number as four digits in base sixteen. -/
inductive FourDigits : Nat → Text → Prop
  | mk {a b c d : Nat} {w x y z : Char} : HexDigit a w → HexDigit b x → HexDigit c y →
      HexDigit d z → FourDigits (16 * (16 * (16 * a + b) + c) + d) [w, x, y, z]

/-- The ways to write a character in a string. Beyond the basic plane its number is that of a pair
of halves. -/
inductive CharText : Char → Text → Prop
  | plain {c : Char} : c ≠ '"' → c ≠ '\\' → 0x20 ≤ c.toNat → CharText c [c]
  | short {letter c : Char} : (letter, c) ∈ shortEscapes → CharText c ['\\', letter]
  | number {c : Char} {t : Text} : FourDigits c.toNat t → CharText c ('\\' :: 'u' :: t)
  | pair {c : Char} {high low : Nat} {t u : Text} : high < 0x400 → low < 0x400 →
      c.toNat = 0x10000 + 0x400 * high + low → FourDigits (0xD800 + high) t →
      FourDigits (0xDC00 + low) u → CharText c ('\\' :: 'u' :: t ++ '\\' :: 'u' :: u)

/-- A string that stands for the characters of a text. -/
def StringText (s t : Text) : Prop :=
  ∃ pieces, List.Forall₂ CharText s pieces ∧ t = '"' :: pieces.flatten ++ ['"']

/-- A part of a string: a character, or a number that may be half of one. -/
inductive StringPiece : Text → Prop
  | char {c : Char} {t : Text} : CharText c t → StringPiece t
  | half {n : Nat} {t : Text} : FourDigits n t → StringPiece ('\\' :: 'u' :: t)

/-- A string, whether or not its halves of characters come in pairs. -/
def AnyString (t : Text) : Prop :=
  ∃ pieces : List Text, (∀ p ∈ pieces, StringPiece p) ∧ t = '"' :: pieces.flatten ++ ['"']

/-- A spelling of a string is a string. -/
theorem StringText.anyString {s t : Text} (h : StringText s t) : AnyString t := by
  obtain ⟨pieces, hpieces, rfl⟩ := h
  refine ⟨pieces, fun p hp => ?_, rfl⟩
  induction hpieces with
  | nil => cases hp
  | cons hc _ ih =>
    rcases List.mem_cons.mp hp with rfl | hp
    · exact .char hc
    · exact ih hp

end Strings

section Numbers

/-- A run of digits. -/
def Digits (t : Text) : Prop := t ≠ [] ∧ ∀ c ∈ t, c.isDigit

/-- A run of digits without zeros in front. -/
def Whole (t : Text) : Prop := Digits t ∧ (t.head? = some '0' → t = ['0'])

/-- A natural number in decimal digits. -/
def NaturalText (n : Nat) (t : Text) : Prop := Whole t ∧ Nat.ofDigitChars 10 t 0 = n

/-- A fraction with its point, or nothing. -/
def Fraction (t : Text) : Prop := t = [] ∨ ∃ digits, Digits digits ∧ t = '.' :: digits

/-- An exponent with its letter, or nothing. -/
def Exponent (t : Text) : Prop :=
  t = [] ∨ ∃ letter sign digits, letter ∈ ['e', 'E'] ∧ sign ∈ ([[], ['+'], ['-']] : List Text) ∧
    Digits digits ∧ t = letter :: sign ++ digits

/-- A number. -/
def NumberText (t : Text) : Prop :=
  ∃ sign whole fraction exponent, sign ∈ ([[], ['-']] : List Text) ∧ Whole whole ∧
    Fraction fraction ∧ Exponent exponent ∧ t = sign ++ whole ++ fraction ++ exponent

/-- A spelling of a natural number is a number. -/
theorem NaturalText.numberText {n : Nat} {t : Text} (h : NaturalText n t) : NumberText t := by
  refine ⟨[], t, [], [], List.mem_cons_self, h.1, .inl rfl, .inl rfl, ?_⟩
  simp

end Numbers

section Brackets

variable {α : Type} {P : α → Text → Prop}

/-- Items with commas between them, each with white space around it. -/
inductive Separated (P : α → Text → Prop) : List α → Text → Prop
  | one {a : α} {t padded : Text} : P a t → Padded t padded → Separated P [a] padded
  | more {a : α} {as : List α} {t padded rest : Text} : P a t → Padded t padded →
      Separated P as rest → Separated P (a :: as) (padded ++ ',' :: rest)

/-- Items between brackets. -/
def Bracketed (P : α → Text → Prop) (opening closing : Char) (as : List α) (t : Text) : Prop :=
  ∃ inner, t = opening :: inner ++ [closing] ∧ (as = [] ∧ Blank inner ∨ Separated P as inner)

/-- A list, given the texts of its elements. -/
abbrev ListText (elements : List Text) (t : Text) : Prop := Bracketed Eq '[' ']' elements t

/-- A member of an object, given its key and the text of its value. -/
def MemberText (m : Text × Text) (t : Text) : Prop :=
  ∃ key front back, StringText m.1 key ∧ Blank front ∧ Blank back ∧
    t = key ++ front ++ ':' :: back ++ m.2

/-- An object, given the keys and the texts of the values of its members. -/
abbrev ObjectText (members : List (Text × Text)) (t : Text) : Prop :=
  Bracketed MemberText '\x7b' '\x7d' members t

/-- White space behind the last item belongs to it. -/
theorem Separated.append_blank {as : List α} {t blank : Text} (h : Separated P as t)
    (hblank : Blank blank) : Separated P as (t ++ blank) := by
  induction h with
  | one hP hpad =>
    obtain ⟨front, back, hfront, hback, rfl⟩ := hpad
    refine .one hP ⟨front, back ++ blank, hfront, hback.append hblank, ?_⟩
    simp only [List.append_assoc]
  | more hP hpad _ ih =>
    rw [List.append_assoc, List.cons_append]
    exact .more hP hpad ih

/-- Items that are told by their texts come between the same commas. -/
theorem Separated.of_forall₂ {as : List α} {texts : List Text} {t : Text}
    (h : Separated Eq texts t) (hP : List.Forall₂ P as texts) : Separated P as t := by
  induction h generalizing as with
  | one heq hpad =>
    subst heq
    obtain _ | ⟨ha, hnil⟩ := hP
    obtain _ | _ := hnil
    exact .one ha hpad
  | more heq hpad _ ih =>
    subst heq
    obtain _ | ⟨ha, hP⟩ := hP
    exact .more ha hpad (ih hP)

/-- What is known of each item is known of the items between the brackets. -/
theorem Bracketed.of_forall₂ {as : List α} {texts : List Text} {opening closing : Char} {t : Text}
    (h : Bracketed Eq opening closing texts t) (hP : List.Forall₂ P as texts) :
    Bracketed P opening closing as t := by
  obtain ⟨inner, rfl, ⟨rfl, hblank⟩ | hitems⟩ := h
  · exact ⟨inner, rfl, .inl ⟨List.forall₂_nil_right_iff.mp hP, hblank⟩⟩
  · exact ⟨inner, rfl, .inr (hitems.of_forall₂ hP)⟩

end Brackets

section Values

/-- A value that is neither list nor object. -/
inductive IsScalar : Text → Prop
  | null : IsScalar "null"
  | true : IsScalar "true"
  | false : IsScalar "false"
  | number {t : Text} : NumberText t → IsScalar t
  | string {t : Text} : AnyString t → IsScalar t

/-- A JSON value. -/
inductive IsValue : Text → Prop
  | scalar {t : Text} : IsScalar t → IsValue t
  | list {elements : List Text} {t : Text} : ListText elements t →
      (∀ e ∈ elements, IsValue e) → IsValue t
  | object {members : List (Text × Text)} {t : Text} : ObjectText members t →
      (∀ m ∈ members, IsValue m.2) → IsValue t

/-- The texts that stand for a value. -/
inductive Spells : Json → Text → Prop
  | null : Spells .null "null"
  | true : Spells (.bool true) "true"
  | false : Spells (.bool false) "false"
  | number {n : Nat} {t : Text} : NaturalText n t → Spells (.number n) t
  | string {s t : Text} : StringText s t → Spells (.string s) t
  | list {vs : List Json} {elements : List Text} {t : Text} : ListText elements t →
      vs.length = elements.length → (∀ p ∈ vs.zip elements, Spells p.1 p.2) →
      Spells (.list vs) t
  | object {ms : List (Text × Json)} {members : List (Text × Text)} {t : Text} :
      ObjectText members t → ms.map Prod.fst = members.map Prod.fst →
      (∀ p ∈ (ms.map Prod.snd).zip (members.map Prod.snd), Spells p.1 p.2) →
      Spells (.object ms) t

/-- A whole text that stands for a value, with white space around it. -/
def Denotes (t : Text) (v : Json) : Prop := ∃ u, Spells v u ∧ Padded u t

end Values

end DocCheck.Json
