import DocCheck.Proofs.Json.Grammar
import DocCheck.Proofs.Text.Split

/-!
# The text of a value is JSON

Every value is written as a text of the grammar that stands for it: control characters, quotes and
backslashes are escaped, numbers have no zeros in front, and the line ends and indentation of
lists and objects are white space.
-/

namespace DocCheck.Json

section Leaves

/-- A character is written plainly, by a short escape or by its number. -/
theorem charText_escapeChar (c : Char) : CharText c (escapeChar c) := by
  unfold escapeChar
  split
  · exact .short (by decide)
  · exact .short (by decide)
  · exact .short (by decide)
  · exact .short (by decide)
  · exact .short (by decide)
  · exact .short (by decide)
  · exact .short (by decide)
  · next hquote hescape _ _ _ _ _ =>
    split
    · next hcontrol =>
      have hnumber : FourDigits c.toNat ['0', '0', Nat.digitChar (c.toNat / 16),
          Nat.digitChar (c.toNat % 16)] := by
        have hzero : HexDigit 0 '0' := ⟨by decide, .inl rfl⟩
        have hhigh : HexDigit (c.toNat / 16) (Nat.digitChar (c.toNat / 16)) :=
          ⟨by omega, .inl rfl⟩
        have hlow : HexDigit (c.toNat % 16) (Nat.digitChar (c.toNat % 16)) :=
          ⟨by omega, .inl rfl⟩
        have hsum := FourDigits.mk hzero hzero hhigh hlow
        rwa [show 16 * (16 * (16 * 0 + 0) + c.toNat / 16) + c.toNat % 16 = c.toNat by omega] at hsum
      exact .number hnumber
    · next hcontrol => exact .plain hquote hescape (by omega)

/-- What is written for a string spells it. -/
theorem stringText_stringText (t : Text) : StringText t (stringText t) := by
  refine ⟨t.map escapeChar, ?_, ?_⟩
  · rw [List.forall₂_map_right_iff]
    exact List.forall₂_same.mpr fun c _ => charText_escapeChar c
  · rw [stringText, List.flatMap_def]
    rfl

/-- The digits of a positive number do not start with zero. -/
theorem head?_ofNat {n : Nat} (hn : 0 < n) : (Text.ofNat n).head? ≠ some '0' := by
  induction n using Nat.strongRecOn with
  | _ n ih =>
    unfold Text.ofNat
    by_cases hlt : n < 10
    · rw [Nat.toDigits_of_lt_base hlt, List.head?_cons]
      intro hzero
      have := Nat.digitChar_eq_zero.mp (Option.some.inj hzero)
      omega
    · rw [Nat.toDigits_of_base_le (by decide) (by omega),
        List.head?_append_of_ne_nil _ Nat.toDigits_ne_nil]
      exact ih (n / 10) (by omega) (by omega)

/-- What is written for a natural number spells it. -/
theorem naturalText_ofNat (n : Nat) : NaturalText n (Text.ofNat n) := by
  refine ⟨⟨⟨Nat.toDigits_ne_nil, fun c hc => ?_⟩, fun hzero => ?_⟩, Nat.ofDigitChars_ten_toDigits⟩
  · exact Nat.isDigit_of_mem_toDigits (by decide) (by decide) hc
  · rcases Nat.eq_zero_or_pos n with rfl | hpos
    · exact Nat.toDigits_zero 10
    · exact absurd hzero (head?_ofNat hpos)

/-- The line end and the indentation of a level are blank. -/
theorem blank_newline (level : Nat) : Blank (newline level) := by
  intro c hc
  rcases List.mem_cons.mp hc with rfl | hspace
  · decide
  · rw [(List.mem_replicate.mp hspace).2]
    decide

end Leaves

section Brackets

variable {α : Type} {P : α → Text → Prop}

/-- Items on lines of their own are separated by commas. -/
theorem separated_join {as : List α} {items : List Text} (h : List.Forall₂ P as items)
    (hne : items ≠ []) (level : Nat) :
    Separated P as (Text.join "," (items.map (newline level ++ ·))) := by
  have hpad (item : Text) : Padded item (newline level ++ item) :=
    ⟨newline level, [], blank_newline level, blank_nil, (List.append_nil _).symm⟩
  induction h with
  | nil => exact absurd rfl hne
  | @cons a item as items hP htail ih =>
    cases htail with
    | nil =>
      rw [List.map_singleton, Text.join_singleton]
      exact .one hP (hpad item)
    | cons hP' htail =>
      rw [List.map_cons, Text.join_cons _ _ (by simp)]
      exact .more hP (hpad item) (ih (List.cons_ne_nil _ _))

/-- What is written between brackets is a list of items in the sense of the grammar. -/
theorem bracketed_items {as : List α} {items : List Text} (h : List.Forall₂ P as items)
    (opening closing : Char) (level : Nat) :
    Bracketed P opening closing as (bracketed opening closing level items) := by
  cases h with
  | nil => exact ⟨[], rfl, .inl ⟨rfl, blank_nil⟩⟩
  | cons hP htail =>
    have hitems := separated_join (.cons hP htail) (List.cons_ne_nil _ _) (level + 1)
    exact ⟨_, rfl, .inr (hitems.append_blank (blank_newline level))⟩

/-- What is written for a member is its key, a colon and its value. -/
theorem memberText_written (key value : Text) :
    MemberText (key, value) (stringText key ++ ": " ++ value) := by
  refine ⟨stringText key, [], [' '], stringText_stringText key, blank_nil, ?_, ?_⟩
  · intro c hc
    rw [List.mem_singleton.mp hc]
    decide
  · rw [List.append_nil]
    rfl

end Brackets

section Values

/-- A list stands for values that its elements stand for. -/
theorem Spells.ofElements {vs : List Json} {elements : List Text} {t : Text}
    (h : ListText elements t) (hvs : List.Forall₂ Spells vs elements) : Spells (.list vs) t :=
  .list h hvs.length_eq fun _ hp => (List.forall₂_iff_zip.mp hvs).2 hp

/-- An object stands for members with its keys that the values of its members stand for. -/
theorem Spells.ofMembers {ms : List (Text × Json)} {members : List (Text × Text)} {t : Text}
    (h : ObjectText members t) (hkeys : ms.map Prod.fst = members.map Prod.fst)
    (hvs : List.Forall₂ Spells (ms.map Prod.snd) (members.map Prod.snd)) : Spells (.object ms) t :=
  .object h hkeys fun _ hp => (List.forall₂_iff_zip.mp hvs).2 hp

mutual

/-- At any level of indentation the text of a value stands for it. -/
theorem spells_textAt (level : Nat) : (v : Json) → Spells v (textAt level v)
  | .null => by
    rw [textAt]
    exact .null
  | .bool true => by
    rw [textAt]
    exact .true
  | .bool false => by
    rw [textAt]
    exact .false
  | .number n => by
    rw [textAt]
    exact .number (naturalText_ofNat n)
  | .string t => by
    rw [textAt]
    exact .string (stringText_stringText t)
  | .list vs => by
    have hvs := spells_elementTexts (level + 1) vs
    have hitems := List.forall₂_same.mpr fun t (_ : t ∈ elementTexts (level + 1) vs) => Eq.refl t
    rw [textAt]
    exact .ofElements (bracketed_items hitems '[' ']' level) hvs
  | .object ms => by
    obtain ⟨members, hkeys, hvs, hitems⟩ := spells_memberTexts (level + 1) ms
    rw [textAt]
    exact .ofMembers (bracketed_items hitems '\x7b' '\x7d' level) hkeys hvs

/-- The texts of elements spell them one by one. -/
theorem spells_elementTexts (level : Nat) : (vs : List Json) →
    List.Forall₂ Spells vs (elementTexts level vs)
  | [] => .nil
  | v :: vs => .cons (spells_textAt level v) (spells_elementTexts level vs)

/-- The texts of members have their keys and spell their values. -/
theorem spells_memberTexts (level : Nat) : (ms : List (Text × Json)) →
    ∃ members, ms.map Prod.fst = members.map Prod.fst ∧
      List.Forall₂ Spells (ms.map Prod.snd) (members.map Prod.snd) ∧
      List.Forall₂ MemberText members (memberTexts level ms)
  | [] => ⟨[], rfl, .nil, .nil⟩
  | (key, v) :: ms => by
    obtain ⟨members, hkeys, hvs, hitems⟩ := spells_memberTexts level ms
    refine ⟨(key, textAt level v) :: members, ?_, ?_, ?_⟩
    · rw [List.map_cons, List.map_cons, hkeys]
    · exact .cons (spells_textAt level v) hvs
    · exact .cons (memberText_written key _) hitems

end

/-- What is written for a value denotes it, also with blanks behind it. -/
theorem denotes_text (v : Json) {blank : Text} (h : Blank blank) : Denotes (v.text ++ blank) v :=
  ⟨v.text, spells_textAt 0 v, [], blank, blank_nil, h, rfl⟩

end Values

end DocCheck.Json
