import DocCheck.Proofs.Rule.PackageName
import DocCheck.Proofs.Text.Trim
import Mathlib.Data.List.DropRight

/-!
# Suggested package names

A suggestion is made by cutting a name into words, capitalising them and joining them again. Read
from left to right, this writes separators as underscores and starts every word in upper case, and
then takes the underscores off the ends. In ASCII the result is a name in which no word starts in
lower case: such a name is suggested for itself, and it is a package name exactly if its first
character is a capital, which is the first letter of the name it was made from.
-/

namespace DocCheck

open Text

/-- The characters between the words of a name. -/
def isSeparator (c : Char) : Bool := c == ' ' || c == '_'

/-- Words are separated by spaces and underscores. -/
theorem isSeparator_iff {c : Char} : isSeparator c ↔ c = ' ' ∨ c = '_' := by
  simp [isSeparator]

/-- A name read from left to right, with underscores for separators and every word in upper case at
its start. `start` tells whether a word may start here. -/
def titled (start : Bool) : Text → Text
  | [] => []
  | c :: t =>
    if isSeparator c then '_' :: titled true t
    else (if start then uppercase c else [c]) ++ titled false t

/-- Capitalising the words one by one is the same as reading the name from left to right. The first
word is capitalised or not, as the scan may start inside a word. -/
theorem join_capitalize_eq_titled (name : Text) :
    ∃ first words, splitOn (name.map fun c => if c = ' ' then '_' else c) "_" = first :: words ∧
      join "_" (capitalize first :: words.map capitalize) = titled true name ∧
      join "_" (first :: words.map capitalize) = titled false name := by
  have hsep : ("_" : Text) ≠ [] := by decide
  induction name with
  | nil => exact ⟨[], [], splitOn_nil hsep, rfl, rfl⟩
  | cons c t ih =>
    obtain ⟨first, words, hsplit, htrue, hfalse⟩ := ih
    rw [List.map_cons]
    by_cases hc : isSeparator c
    · have hunderscore : (if c = ' ' then '_' else c) = '_' := by
        rcases isSeparator_iff.mp hc with rfl | rfl <;> rfl
      have hjoin (start : Bool) :
          join "_" ([] :: (first :: words).map capitalize) = titled start (c :: t) := by
        rw [titled, if_pos hc, ← htrue, List.map_cons]
        exact join_cons _ _ (List.cons_ne_nil _ _)
      refine ⟨[], first :: words, ?_, hjoin true, hjoin false⟩
      rw [hunderscore, ← hsplit]
      exact splitOn_sep_append hsep _
    · obtain ⟨hspace, hunderscore⟩ := not_or.mp (mt isSeparator_iff.mpr hc)
      have hother (u : Text) : ¬ ("_" : Text) <+: c :: u := fun h =>
        hunderscore (List.cons_prefix_cons.mp h).1.symm
      refine ⟨c :: first, words, ?_, ?_, ?_⟩
      · rw [if_neg hspace, splitOn_cons hsep (hother _), hsplit, List.modifyHead_cons]
      · rw [titled, if_neg hc, if_pos rfl, ← hfalse]
        exact join_append_cons _ _ _ _
      · rw [titled, if_neg hc, if_neg Bool.false_ne_true, ← hfalse]
        exact join_append_cons _ [c] _ _

/-- A suggestion is the name read from left to right, without underscores at its ends. -/
theorem suggestUnderscoreName_eq (name : Text) :
    suggestUnderscoreName name = trimUnderscores (titled true name) := by
  obtain ⟨first, words, hsplit, htrue, -⟩ := join_capitalize_eq_titled name
  rw [suggestUnderscoreName, hsplit, List.map_cons, htrue]

section Ends

/-- Underscores are taken off the start and then off the end. -/
theorem trimUnderscores_eq_rdropWhile (t : Text) :
    trimUnderscores t = (t.dropWhile (· == '_')).rdropWhile (· == '_') := rfl

/-- Taking underscores off leaves a part of the name. -/
theorem trimUnderscores_isInfix (t : Text) : trimUnderscores t <:+: t :=
  (List.rdropWhile_prefix _ _).isInfix.trans (List.dropWhile_suffix _).isInfix

/-- Behind the underscores at the start stands none. -/
theorem ne_underscore_of_head? {t : Text} :
    ∀ c ∈ (t.dropWhile (· == '_')).head?, (c == '_') = false := by
  intro c hc
  have hhead := List.head?_dropWhile_not (· == '_') t
  rwa [hc] at hhead

/-- Taking underscores off the end keeps a first character that is none. -/
theorem head?_trimUnderscores (t : Text) :
    (trimUnderscores t).head? = (t.dropWhile (· == '_')).head? := by
  rw [trimUnderscores_eq_rdropWhile]
  cases hrest : t.dropWhile (· == '_') with
  | nil => rfl
  | cons c rest =>
    have hc : (c == '_') = false := ne_underscore_of_head? (t := t) c (by rw [hrest]; rfl)
    have hcut : (c :: rest).rdropWhile (· == '_') = c :: rest.rdropWhile (· == '_') :=
      rdropWhile_append_cons (p := (· == '_')) hc [] rest
    rw [hcut, List.head?_cons, List.head?_cons]

/-- No underscore is left at the ends. -/
theorem trimUnderscores_trimUnderscores (t : Text) :
    trimUnderscores (trimUnderscores t) = trimUnderscores t := by
  have hstart : (trimUnderscores t).dropWhile (· == '_') = trimUnderscores t := by
    rw [dropWhile_eq_self_iff_head?, head?_trimUnderscores]
    exact ne_underscore_of_head?
  rw [trimUnderscores_eq_rdropWhile (trimUnderscores t), hstart, trimUnderscores_eq_rdropWhile,
    List.rdropWhile_idempotent]

end Ends

/-- Words joined by underscores: no space, and no word that starts in lower case. -/
structure IsTitled (t : Text) : Prop where
  noSpace : ' ' ∉ t
  first : ∀ c ∈ t.head?, isLowercase c = false
  noLowercase : ∀ front c rest, t = front ++ '_' :: c :: rest → isLowercase c = false

/-- A package name is of this form and starts with a capital. -/
theorem isPackageName_iff {t : Text} :
    IsPackageName t ↔ IsTitled t ∧ ∃ c ∈ t.head?, c.isUpper := by
  constructor
  · rintro ⟨hspace, ⟨c, rest, rfl, hc⟩, hlower⟩
    refine ⟨⟨hspace, ?_, hlower⟩, c, rfl, hc⟩
    rintro x ⟨⟩
    exact isLowercase_of_isUpper hc
  · rintro ⟨⟨hspace, -, hlower⟩, c, hc, hupper⟩
    obtain ⟨rest, rfl⟩ := List.head?_eq_some_iff.mp hc
    exact ⟨hspace, ⟨c, rest, rfl, hupper⟩, hlower⟩

/-- Without the underscores at its ends a name is still of this form. -/
theorem IsTitled.trimUnderscores {t : Text} (h : IsTitled t) : IsTitled (trimUnderscores t) := by
  have hpart := trimUnderscores_isInfix t
  refine ⟨fun hmem => h.noSpace (hpart.subset hmem), fun c hc => ?_, fun front c rest heq => ?_⟩
  · rw [head?_trimUnderscores] at hc
    obtain ⟨rest, hrest⟩ := List.head?_eq_some_iff.mp hc
    have hsplit := List.takeWhile_append_dropWhile (p := (· == '_')) (l := t)
    rw [hrest] at hsplit
    -- The first character that is kept is the first of all, or an underscore stands before it.
    rcases List.eq_nil_or_concat (t.takeWhile (· == '_')) with hnil | ⟨front, x, hfront⟩
    · rw [hnil, List.nil_append] at hsplit
      exact h.first c (by rw [← hsplit]; rfl)
    · have hx : (x == '_') = true := by
        apply List.mem_takeWhile_imp (p := (· == '_')) (l := t)
        rw [hfront]
        simp
      rw [hfront, eq_of_beq hx, List.concat_eq_append, List.append_assoc] at hsplit
      exact h.noLowercase front c rest hsplit.symm
  · obtain ⟨before, behind, hsplit⟩ := hpart
    rw [heq] at hsplit
    exact h.noLowercase (before ++ front) c (rest ++ behind) (by simp [← hsplit])

/-- A text of ASCII characters. -/
def Text.IsAscii (t : Text) : Prop := ∀ c ∈ t, c.toNat < 0x80

section Ascii

/-- Upper case makes a capital of a letter in lower case and changes nothing else. -/
theorem toUpper_cases (c : Char) :
    (c.isLower ∧ c.toUpper.isUpper) ∨ (c.isLower = false ∧ c.toUpper = c) := by
  by_cases hc : 'a'.val ≤ c.val ∧ c.val ≤ 'z'.val
  · have hself : c.toUpper = ⟨c.val + ('A'.val - 'a'.val), _⟩ := dif_pos hc
    have hupper : 'A'.val ≤ c.toUpper.val ∧ c.toUpper.val ≤ 'Z'.val := by
      rw [hself]
      grind
    have hlower := Bool.and_eq_true_iff.mpr ⟨decide_eq_true hc.1, decide_eq_true hc.2⟩
    exact .inl ⟨hlower, decide_eq_true hupper⟩
  · refine .inr ⟨Bool.eq_false_iff.mpr fun hlower => hc ?_, dif_neg hc⟩
    obtain ⟨hle, hge⟩ := Bool.and_eq_true_iff.mp hlower
    exact ⟨of_decide_eq_true hle, of_decide_eq_true hge⟩

/-- Upper case is a capital exactly for letters. -/
theorem isUpper_toUpper (c : Char) : c.toUpper.isUpper = c.isAlpha := by
  have halpha : c.isAlpha = (c.isUpper || c.isLower) := rfl
  rcases toUpper_cases c with ⟨hlower, hupper⟩ | ⟨hlower, hself⟩
  · rw [hupper, halpha, hlower, Bool.or_true]
  · rw [hself, halpha, hlower, Bool.or_false]

/-- Only a sign becomes a sign in upper case. -/
theorem eq_of_toUpper_eq {c d : Char} (hd : d.isAlpha = false) (h : c.toUpper = d) : c = d := by
  have hupper : ¬ d.isUpper := (Bool.or_eq_false_iff.mp hd).1 ▸ Bool.false_ne_true
  rcases toUpper_cases c with ⟨-, hcapital⟩ | ⟨-, hself⟩
  · exact absurd (h ▸ hcapital) hupper
  · exact hself.symm.trans h

/-- Upper case stays in ASCII. -/
theorem toUpper_lt {c : Char} (hc : c.toNat < 0x80) : c.toUpper.toNat < 0x80 := by
  rcases toUpper_cases c with ⟨-, hupper⟩ | ⟨-, hself⟩
  · have hle : 65 ≤ c.toUpper.toNat ∧ c.toUpper.toNat ≤ 90 := of_decide_eq_true hupper
    omega
  · rwa [hself]

/-- The character that is written for one of ASCII. -/
def titledChar (start : Bool) (c : Char) : Char :=
  if isSeparator c then '_' else if start then c.toUpper else c

variable {start : Bool} {c : Char} {t : Text}

/-- One step: a character is written, and a word may start behind a separator. -/
theorem titled_cons (hc : c.toNat < 0x80) (start : Bool) (t : Text) :
    titled start (c :: t) = titledChar start c :: titled (isSeparator c) t := by
  rw [titled, titledChar]
  cases isSeparator c with
  | true => rfl
  | false => cases start <;> simp [uppercase, hc]

/-- What is written for a character of ASCII is of ASCII. -/
theorem titledChar_lt (hc : c.toNat < 0x80) : (titledChar start c).toNat < 0x80 := by
  unfold titledChar
  split
  · decide
  · split
    · exact toUpper_lt hc
    · exact hc

/-- Underscores are written for separators and for nothing else, and spaces for nothing. -/
theorem titledChar_eq_iff {d : Char} (hd : isSeparator d) :
    titledChar start c = d ↔ isSeparator c ∧ d = '_' := by
  have hsign : d.isAlpha = false := by
    rcases isSeparator_iff.mp hd with rfl | rfl <;> decide
  unfold titledChar
  split
  · next hc => simp [hc, eq_comm]
  · next hc =>
    refine iff_of_false (fun h => hc ?_) (fun h => hc h.1)
    split at h
    · rwa [eq_of_toUpper_eq hsign h]
    · rwa [h]

/-- At the start of a word no character is written in lower case. -/
theorem isLowercase_titledChar (hc : c.toNat < 0x80) : isLowercase (titledChar true c) = false := by
  unfold titledChar
  split
  · decide
  · rw [if_pos rfl]
    rcases toUpper_cases c with ⟨-, hupper⟩ | ⟨hlower, hself⟩
    · exact isLowercase_of_isUpper hupper
    · rwa [hself, isLowercase, if_pos hc]

/-- A character that may stand where it does is written as it is. -/
theorem titledChar_eq_self (hspace : c ≠ ' ') (hlower : start → c.isLower = false) :
    titledChar start c = c := by
  unfold titledChar
  split
  · next hc => exact ((isSeparator_iff.mp hc).resolve_left hspace).symm
  · split
    · next hstart =>
      rcases toUpper_cases c with ⟨hletter, -⟩ | ⟨-, hself⟩
      · rw [hlower hstart] at hletter
        cases hletter
      · exact hself
    · rfl

/-- What is written for a name of ASCII is of ASCII. -/
theorem isAscii_titled (ht : t.IsAscii) : (titled start t).IsAscii := by
  induction t generalizing start with
  | nil => exact ht
  | cons c t ih =>
    obtain ⟨hc, ht⟩ := List.forall_mem_cons.mp ht
    rw [titled_cons hc]
    exact List.forall_mem_cons.mpr ⟨titledChar_lt hc, ih ht⟩

/-- The first character is written for the first character. -/
theorem head?_titled (ht : t.IsAscii) :
    (titled start t).head? = t.head?.map (titledChar start) := by
  cases t with
  | nil => rfl
  | cons c t =>
    rw [titled_cons (ht c List.mem_cons_self), List.head?_cons, List.head?_cons, Option.map_some]

/-- No space is written. -/
theorem space_not_mem_titled (ht : t.IsAscii) : ' ' ∉ titled start t := by
  induction t generalizing start with
  | nil => simp [titled]
  | cons c t ih =>
    obtain ⟨hc, ht⟩ := List.forall_mem_cons.mp ht
    rw [titled_cons hc, List.mem_cons, not_or]
    refine ⟨fun h => ?_, ih ht⟩
    have hspace : ' ' = '_' := ((titledChar_eq_iff (by decide)).mp h.symm).2
    cases hspace

/-- At the start of a word no lower case is written. -/
theorem isLowercase_head?_titled (ht : t.IsAscii) :
    ∀ c ∈ (titled true t).head?, isLowercase c = false := by
  intro c hc
  rw [head?_titled ht] at hc
  obtain ⟨x, hx, rfl⟩ := Option.map_eq_some_iff.mp hc
  exact isLowercase_titledChar (ht x (List.mem_of_head? hx))

/-- Behind an underscore no lower case is written: the underscore stands for a separator, behind
which a word may start. -/
theorem isLowercase_of_titled_eq {front : Text} {c : Char} {rest : Text}
    (ht : t.IsAscii) (h : titled start t = front ++ '_' :: c :: rest) :
    isLowercase c = false := by
  induction t generalizing start front with
  | nil => simp [titled] at h
  | cons x t ih =>
    obtain ⟨hx, ht⟩ := List.forall_mem_cons.mp ht
    rw [titled_cons hx] at h
    cases front with
    | nil =>
      obtain ⟨hunderscore, hrest⟩ := List.cons_eq_cons.mp h
      rw [((titledChar_eq_iff (by decide)).mp hunderscore).1] at hrest
      exact isLowercase_head?_titled ht c (by rw [hrest]; rfl)
    | cons y front => exact ih ht (List.cons_eq_cons.mp h).2

/-- What is written has no word that starts in lower case. -/
theorem isTitled_titled (ht : t.IsAscii) : IsTitled (titled true t) :=
  ⟨space_not_mem_titled ht, isLowercase_head?_titled ht, fun _ _ _ => isLowercase_of_titled_eq ht⟩

/-- A text without spaces is left as it is, if no word of it starts in lower case. -/
theorem titled_eq_self (ht : t.IsAscii) (hspace : ' ' ∉ t)
    (hfirst : start → ∀ c ∈ t.head?, isLowercase c = false)
    (hlower : ∀ front c rest, t = front ++ '_' :: c :: rest → isLowercase c = false) :
    titled start t = t := by
  induction t generalizing start with
  | nil => rfl
  | cons c t ih =>
    obtain ⟨hc, ht⟩ := List.forall_mem_cons.mp ht
    rw [List.mem_cons, not_or] at hspace
    have hself : titledChar start c = c := by
      refine titledChar_eq_self (Ne.symm hspace.1) fun hstart => ?_
      have hcase := hfirst hstart c rfl
      rwa [isLowercase, if_pos hc] at hcase
    have hnext : isSeparator c → ∀ x ∈ t.head?, isLowercase x = false := by
      intro hsep x hx
      obtain ⟨rest, rfl⟩ := List.head?_eq_some_iff.mp hx
      have hunderscore : c = '_' := (isSeparator_iff.mp hsep).resolve_left (Ne.symm hspace.1)
      exact hlower [] x rest (by rw [hunderscore]; rfl)
    rw [titled_cons hc, hself, ih ht hspace.2 hnext]
    intro front x rest heq
    exact hlower (c :: front) x rest (by rw [heq]; rfl)

/-- A name in which no word starts in lower case is written as it is. -/
theorem IsTitled.titled_eq (ht : t.IsAscii) (h : IsTitled t) : titled true t = t :=
  titled_eq_self ht h.noSpace (fun _ => h.first) h.noLowercase

/-- A suggestion starts with the first character that separates no words, in upper case. -/
theorem head?_suggestUnderscoreName (ht : t.IsAscii) :
    (suggestUnderscoreName t).head? = (t.find? (!isSeparator ·)).map Char.toUpper := by
  rw [suggestUnderscoreName_eq, head?_trimUnderscores]
  induction t with
  | nil => rfl
  | cons c t ih =>
    obtain ⟨hc, ht⟩ := List.forall_mem_cons.mp ht
    rw [titled_cons hc]
    cases hsep : isSeparator c with
    | true =>
      rw [(titledChar_eq_iff (by decide)).mpr ⟨hsep, rfl⟩, List.dropWhile_cons_of_pos (by simp),
        List.find?_cons_of_neg (by simp [hsep]), ih ht]
    | false =>
      have hshown : titledChar true c ≠ '_' := fun h => by
        rw [((titledChar_eq_iff (by decide)).mp h).1] at hsep
        cases hsep
      rw [List.dropWhile_cons_of_neg (by simpa using hshown),
        List.find?_cons_of_pos (by simp [hsep]), List.head?_cons, Option.map_some, titledChar,
        hsep]
      rfl

/-- A suggestion has no word that starts in lower case. -/
theorem isTitled_suggestUnderscoreName (ht : t.IsAscii) :
    IsTitled (suggestUnderscoreName t) := by
  rw [suggestUnderscoreName_eq]
  exact (isTitled_titled ht).trimUnderscores

/-- A suggestion is suggested for itself. -/
theorem suggestUnderscoreName_idem (ht : t.IsAscii) :
    suggestUnderscoreName (suggestUnderscoreName t) = suggestUnderscoreName t := by
  have hascii : (suggestUnderscoreName t).IsAscii := by
    intro c hc
    rw [suggestUnderscoreName_eq] at hc
    exact isAscii_titled ht c ((trimUnderscores_isInfix _).subset hc)
  rw [suggestUnderscoreName_eq (suggestUnderscoreName t),
    (isTitled_suggestUnderscoreName ht).titled_eq hascii, suggestUnderscoreName_eq,
    trimUnderscores_trimUnderscores]

/-- Of a package name only underscores at the end are taken. -/
theorem suggestUnderscoreName_of_isPackageName (ht : t.IsAscii)
    (h : IsPackageName t) : suggestUnderscoreName t = t.rdropWhile (· == '_') := by
  obtain ⟨htitled, c, hc, hupper⟩ := isPackageName_iff.mp h
  have hstart : t.dropWhile (· == '_') = t := by
    rw [dropWhile_eq_self_iff_head?, hc]
    rintro x ⟨⟩
    refine beq_eq_false_iff_ne.mpr ?_
    rintro rfl
    cases hupper
  rw [suggestUnderscoreName_eq, htitled.titled_eq ht, trimUnderscores_eq_rdropWhile, hstart]

end Ascii

/-- In ASCII a suggestion is a package name whenever it can be one: exactly if the name has a
character besides spaces and underscores and the first of them is a letter. It is suggested for
itself, and what is suggested for a package name is that name without underscores at its end. -/
theorem suggestUnderscoreName_valid {name : Text} (hascii : name.IsAscii) :
    (isUnderscoreName (suggestUnderscoreName name) ↔
      ∃ c, name.find? (fun c => c ≠ ' ' ∧ c ≠ '_') = some c ∧ c.isAlpha) ∧
    suggestUnderscoreName (suggestUnderscoreName name) = suggestUnderscoreName name ∧
    (isUnderscoreName name → suggestUnderscoreName name = name.rdropWhile (· == '_')) := by
  refine ⟨?_, suggestUnderscoreName_idem hascii, fun h =>
    suggestUnderscoreName_of_isPackageName hascii (isUnderscoreName_iff.mp h)⟩
  have hword : (fun c : Char => decide (c ≠ ' ' ∧ c ≠ '_')) = (!isSeparator ·) := by
    funext c
    rw [Bool.eq_iff_iff]
    simp [isSeparator]
  rw [isUnderscoreName_iff, isPackageName_iff, head?_suggestUnderscoreName hascii, hword]
  constructor
  · rintro ⟨-, x, hx, hupper⟩
    obtain ⟨c, hc, rfl⟩ := Option.map_eq_some_iff.mp hx
    exact ⟨c, hc, by rwa [isUpper_toUpper] at hupper⟩
  · rintro ⟨c, hc, halpha⟩
    refine ⟨isTitled_suggestUnderscoreName hascii, c.toUpper,
      Option.map_eq_some_iff.mpr ⟨c, hc, rfl⟩, ?_⟩
    rwa [isUpper_toUpper]

/-- A name with separators at its ends and several of them between words, one of which starts with a
digit. -/
def spacedWords : Text := "_ foo  2bar_baz_ "

/-- A package name that ends in underscores. -/
def openEnded : Text := "Foo_2Bar__"

/-- Separators are written one for one, a digit stays, and underscores at the end of a package name
go. -/
theorem suggestUnderscoreName_spacedWords :
    (spacedWords.IsAscii ∧
      suggestUnderscoreName spacedWords = "Foo__2bar_Baz".toList ∧
      isUnderscoreName (suggestUnderscoreName spacedWords) ∧
      suggestUnderscoreName (suggestUnderscoreName spacedWords) =
        suggestUnderscoreName spacedWords) ∧
    (openEnded.IsAscii ∧ isUnderscoreName openEnded ∧
      suggestUnderscoreName openEnded = "Foo_2Bar".toList) := by
  have hascii {t : Text} (ht : t.all (·.toNat < 0x80)) : t.IsAscii := by
    simpa [Text.IsAscii] using ht
  have hspaced : spacedWords.IsAscii := hascii (by decide)
  have hopen : openEnded.IsAscii := hascii (by decide)
  have hname : isUnderscoreName openEnded := by decide
  obtain ⟨hvalid, hidem, -⟩ := suggestUnderscoreName_valid hspaced
  refine ⟨⟨hspaced, by decide, hvalid.mpr ⟨'f', by decide, by decide⟩, hidem⟩, hopen, hname, ?_⟩
  rw [(suggestUnderscoreName_valid hopen).2.2 hname]
  decide

end DocCheck
