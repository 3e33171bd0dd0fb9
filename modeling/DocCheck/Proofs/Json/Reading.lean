import DocCheck.Json.Container
import DocCheck.Proofs.Json.Grammar
import DocCheck.Proofs.Text.Trim

/-!
# Readers on JSON texts

A reader that is given a text of the grammar takes off exactly that text, whatever white space
stands in front of it and whatever delimiter follows. This is said of strings, of natural numbers,
and of lists and objects whose elements and members can be read.
-/

namespace DocCheck.Json.Reader

variable {α β σ : Type}

/-- The reader takes the value `a` off the text `t`, between white space and a delimiter. -/
def Reads (read : Reader α) (t : Text) (a : α) : Prop :=
  ∀ front rest, Blank front → Delimited rest → read (front ++ (t ++ rest)) = .ok (a, rest)

section Characters

/-- Space, tab, line feed and carriage return are blank. -/
theorem isBlankChar_iff {c : Char} : isBlankChar c = true ↔ c ∈ [' ', '\t', '\n', '\r'] := by
  simp only [isBlankChar, Bool.or_eq_true, beq_iff_eq, List.mem_cons, List.not_mem_nil, or_false]
  tauto

/-- Blanks are delimiters. -/
theorem isBlankChar_eq_false {c : Char} (h : c ∉ delimiters) : isBlankChar c = false := by
  rw [← Bool.not_eq_true, isBlankChar_iff]
  simp only [delimiters, List.mem_cons, List.not_mem_nil, or_false] at h ⊢
  tauto

/-- White space is passed over in front of the next character. -/
theorem nextChar?_append {blank : Text} (h : Blank blank) (t : Text) :
    nextChar? (blank ++ t) = nextChar? t := by
  have hskip : skipBlank (blank ++ t) = skipBlank t :=
    List.dropWhile_append_of_pos fun c hc => isBlankChar_iff.mpr (h c hc)
  rw [nextChar?, hskip, nextChar?]

/-- A character that is not blank comes next. -/
theorem nextChar?_cons {c : Char} (h : isBlankChar c = false) (t : Text) :
    nextChar? (c :: t) = some (c, t) := by
  rw [nextChar?, skipBlank, List.dropWhile_cons_of_neg (by rw [h]; exact Bool.false_ne_true)]

/-- Blanks in front of the next character are passed over. -/
theorem nextChar?_blank_cons {blank : Text} {c : Char} (h : Blank blank)
    (hc : isBlankChar c = false) (t : Text) : nextChar? (blank ++ c :: t) = some (c, t) := by
  rw [nextChar?_append h, nextChar?_cons hc]

/-- Behind blanks alone there is no next character. -/
theorem nextChar?_of_blank {blank : Text} (h : Blank blank) : nextChar? blank = none := by
  rw [← List.append_nil blank, nextChar?_append h]
  rfl

/-- A colon is found behind blanks. -/
theorem colon_blank {blank : Text} (h : Blank blank) (t : Text) :
    colon (blank ++ ':' :: t) = .ok t := by
  rw [colon, nextChar?_blank_cons h (by decide)]
  rfl

end Characters

section Strings

/-- A hexadecimal digit has its value, in lower and in upper case. -/
theorem hexValue?_eq_some {n : Nat} {c : Char} (h : HexDigit n c) : hexValue? c = some n := by
  have hall : ∀ n < 16, hexValue? n.digitChar = some n ∧
      hexValue? n.digitChar.toUpper = some n := by decide
  obtain ⟨hn, rfl | rfl⟩ := h
  · exact (hall n hn).1
  · exact (hall n hn).2

/-- Four digits are read as the number they stand for. -/
theorem hexUnit_eq {n : Nat} {digits : Text} (h : FourDigits n digits) (rest : Text) :
    hexUnit (digits ++ rest) = .ok (n, rest) := by
  obtain ⟨hw, hx, hy, hz⟩ := h
  next w x y z =>
  have hbytes : ¬ Text.byteLength [w, x, y, z] < 4 := by
    have := w.utf8Size_pos
    have := x.utf8Size_pos
    have := y.utf8Size_pos
    have := z.utf8Size_pos
    simp only [Text.byteLength]
    omega
  have htake : ([w, x, y, z] ++ rest).take 4 = [w, x, y, z] := rfl
  have hdrop : ([w, x, y, z] ++ rest).drop 4 = rest := rfl
  rw [hexUnit, htake, hdrop, if_neg hbytes]
  simp [hexNumber?, hexValue?_eq_some hw, hexValue?_eq_some hx, hexValue?_eq_some hy,
    hexValue?_eq_some hz]

/-- A letter behind a backslash is read as the character it stands for. -/
theorem escape_short {letter c : Char} (h : (letter, c) ∈ shortEscapes) (rest : Text) :
    escape (letter :: rest) = .ok (c, rest) := by
  simp only [shortEscapes, List.mem_cons, Prod.mk.injEq, List.not_mem_nil, or_false] at h
  rcases h with ⟨rfl, rfl⟩ | ⟨rfl, rfl⟩ | ⟨rfl, rfl⟩ | ⟨rfl, rfl⟩ | ⟨rfl, rfl⟩ | ⟨rfl, rfl⟩ |
    ⟨rfl, rfl⟩ | ⟨rfl, rfl⟩ <;> rfl

/-- A numeric escape is read as the character with that number. -/
theorem unicodeEscape_number {c : Char} {digits : Text} (h : FourDigits c.toNat digits)
    (rest : Text) : unicodeEscape (digits ++ rest) = .ok (c, rest) := by
  -- The number of a character is never that of a half.
  have hvalid : c.toNat < 0xD800 ∨ 0xDFFF < c.toNat := by
    rcases c.valid with hlow | hhigh
    · exact .inl hlow
    · exact .inr hhigh.1
  have hlow : ¬ ((decide (0xDC00 ≤ c.toNat) && decide (c.toNat ≤ 0xDFFF)) = true) := by
    simp only [Bool.and_eq_true, decide_eq_true_eq]
    omega
  have hhigh : ¬ ((decide (0xD800 ≤ c.toNat) && decide (c.toNat ≤ 0xDBFF)) = true) := by
    simp only [Bool.and_eq_true, decide_eq_true_eq]
    omega
  simp only [unicodeEscape, hexUnit_eq h]
  rw [if_neg hlow, if_neg hhigh, Char.ofNat_toNat]

/-- Two numeric escapes that form a surrogate pair are read as one character. -/
theorem unicodeEscape_pair {c : Char} {high low : Nat} {t u : Text} (hhigh : high < 0x400)
    (hlow : low < 0x400) (hc : c.toNat = 0x10000 + 0x400 * high + low)
    (ht : FourDigits (0xD800 + high) t) (hu : FourDigits (0xDC00 + low) u) (rest : Text) :
    unicodeEscape (t ++ ('\\' :: 'u' :: (u ++ rest))) = .ok (c, rest) := by
  have hfirst :
      ¬ ((decide (0xDC00 ≤ 0xD800 + high) && decide (0xD800 + high ≤ 0xDFFF)) = true) := by
    simp only [Bool.and_eq_true, decide_eq_true_eq]
    omega
  have hpair : (decide (0xD800 ≤ 0xD800 + high) && decide (0xD800 + high ≤ 0xDBFF)) = true := by
    simp only [Bool.and_eq_true, decide_eq_true_eq]
    omega
  have hsecond : (decide (0xDC00 ≤ 0xDC00 + low) && decide (0xDC00 + low ≤ 0xDFFF)) = true := by
    simp only [Bool.and_eq_true, decide_eq_true_eq]
    omega
  have hnumber : 0x10000 + (0xD800 + high - 0xD800) * 0x400 + (0xDC00 + low - 0xDC00) =
      c.toNat := by
    omega
  simp only [unicodeEscape, hexUnit_eq ht]
  rw [if_neg hfirst, if_pos hpair]
  simp only [lowSurrogate, hexUnit_eq hu]
  rw [if_pos hsecond, hnumber, Char.ofNat_toNat]

/-- An escape gives the character it stands for, and the string goes on behind it. -/
theorem stringBody_escape {t rest : Text} {c : Char} (h : escape t = .ok (c, rest)) :
    stringBody ('\\' :: t) = (stringBody rest).map fun (s, rest) => (c :: s, rest) := by
  rw [stringBody]
  split
  · next hfault => cases h.symm.trans hfault
  · next hok =>
    cases h.symm.trans hok
    rfl

/-- Any other character but a control character stands for itself. -/
theorem stringBody_plain {c : Char} (hquote : c ≠ '"') (hescape : c ≠ '\\')
    (hcontrol : 0x20 ≤ c.toNat) (t : Text) :
    stringBody (c :: t) = (stringBody t).map fun (s, rest) => (c :: s, rest) := by
  rw [stringBody.eq_def]
  split
  · next h => cases h
  · next h => exact absurd (List.cons.inj h).1 hquote
  · next h => exact absurd (List.cons.inj h).1 hescape
  · next h =>
    cases h
    rw [if_neg (by omega)]

/-- A character is read off any of the ways to write it. -/
theorem stringBody_charText {c : Char} {piece : Text} (h : CharText c piece) (t : Text) :
    stringBody (piece ++ t) = (stringBody t).map fun (s, rest) => (c :: s, rest) := by
  cases h with
  | plain hquote hescape hcontrol => exact stringBody_plain hquote hescape hcontrol t
  | short hshort => exact stringBody_escape (escape_short hshort t)
  | number hdigits => exact stringBody_escape (unicodeEscape_number hdigits t)
  | pair hhigh hlow hc ht hu =>
    simp only [List.cons_append, List.append_assoc]
    exact stringBody_escape (unicodeEscape_pair hhigh hlow hc ht hu t)

/-- A string is read character by character up to its closing quote. -/
theorem stringBody_pieces {s : Text} {pieces : List Text} (h : List.Forall₂ CharText s pieces)
    (rest : Text) : stringBody (pieces.flatten ++ '"' :: rest) = .ok (s, rest) := by
  induction h with
  | nil => rw [List.flatten_nil, List.nil_append, stringBody]
  | cons hc _ ih =>
    rw [List.flatten_cons, List.append_assoc, stringBody_charText hc, ih]
    rfl

/-- A string is read from any spelling of it. -/
theorem reads_string (wanted : Text) {s t : Text} (h : StringText s t) :
    Reads (string wanted) t s := by
  intro front rest hfront _
  obtain ⟨pieces, hpieces, rfl⟩ := h
  simp only [List.cons_append, List.append_assoc, List.nil_append]
  rw [string, nextChar?_blank_cons hfront (by decide)]
  exact stringBody_pieces hpieces rest

end Strings

section Numbers

/-- Further digits do not make a number smaller. -/
theorem le_ofDigitChars (digits : Text) (n : Nat) : n ≤ Nat.ofDigitChars 10 digits n := by
  rw [Nat.ofDigitChars_eq_ofDigitChars_zero]
  have hle : n ≤ 10 ^ digits.length * n := Nat.le_mul_of_pos_left n (Nat.pow_pos (by decide))
  omega

/-- Digits whose number fits are all gathered. -/
theorem gather_eq {digits : Text} {n : Nat} (h : Nat.ofDigitChars 10 digits n < wordSize) :
    gather n digits = (Nat.ofDigitChars 10 digits n, []) := by
  induction digits generalizing n with
  | nil => rfl
  | cons c digits ih =>
    rw [Nat.ofDigitChars_cons] at h ⊢
    have hle := le_ofDigitChars digits (10 * n + (c.toNat - '0'.toNat))
    simp only [gather]
    rw [if_pos (by omega), ih h]

/-- A natural number that fits into a word is read as such. -/
theorem number_naturalText {n : Nat} {t rest : Text} (h : NaturalText n t) (hn : n < wordSize)
    (hrest : Delimited rest) : number false (t ++ rest) = .ok (.natural n, rest) := by
  obtain ⟨⟨⟨hne, hdigits⟩, hzero⟩, rfl⟩ := h
  have htail : ∀ c ∈ rest.head?, c.isDigit = false := fun c hc => (hrest.head_ne hc).1
  have hempty : ¬ (t.isEmpty = true) := by simpa using hne
  have hleading : ¬ ((decide (t.head? = some '0') && decide (1 < t.length)) = true) := by
    rw [Bool.and_eq_true, decide_eq_true_eq, decide_eq_true_eq]
    rintro ⟨hhead, hlength⟩
    rw [hzero hhead] at hlength
    exact Nat.lt_irrefl _ hlength
  simp only [number, takeWhile_append_of_head? hdigits htail,
    dropWhile_append_of_head? hdigits htail, gather_eq hn]
  rw [if_neg hempty, if_neg hleading]
  split
  · exact absurd rfl (hrest.head_ne rfl).2.1
  · exact absurd rfl (hrest.head_ne rfl).2.2.1
  · exact absurd rfl (hrest.head_ne rfl).2.2.2
  · rfl

end Numbers

section Brackets

/-- The text from which the items in `inner` are read on: that text itself for the first item, and
with a comma in front for the others. -/
inductive Enters (inner : Text) : Bool → Text → Prop
  | first : Enters inner true inner
  | comma {blank : Text} : Blank blank → Enters inner false (blank ++ ',' :: inner)

/-- An element is found behind the comma and the blanks in front of it. -/
theorem nextElement_enters {front t rest text : Text} {first : Bool} (hfront : Blank front)
    (ht : Starts t) (h : Enters (front ++ (t ++ rest)) first text) :
    nextElement first text = .ok (true, t ++ rest) := by
  obtain ⟨c, t, rfl, hc⟩ := ht
  have hnext := nextChar?_blank_cons hfront (isBlankChar_eq_false hc) (t ++ rest)
  have hclose : c ≠ ']' := by
    rintro rfl
    exact hc (by decide)
  rw [List.cons_append] at h ⊢
  cases h with
  | first => simp only [nextElement, hnext, if_neg hclose, if_true]
  | comma hblank =>
    simp only [nextElement, nextChar?_blank_cons hblank (show isBlankChar ',' = false by decide),
      hnext, if_neg hclose]
    rfl

/-- The closing bracket ends a list. -/
theorem nextElement_end {blank : Text} (h : Blank blank) (first : Bool) (rest : Text) :
    nextElement first (blank ++ ']' :: rest) = .ok (false, rest) := by
  rw [nextElement, nextChar?_blank_cons h (by decide)]
  rfl

/-- One step: an element is read, and then the others. -/
theorem elements_more {element : Reader β} {helement : Consumes element} {first : Bool}
    {t t' rest : Text} {b : β} (hnext : nextElement first t = .ok (true, t'))
    (hvalue : element t' = .ok (b, rest)) :
    elements element @helement first t =
      (elements element @helement false rest).map fun (bs, rest) => (b :: bs, rest) := by
  rw [elements]
  split
  · next h => cases hnext.symm.trans h
  · next h => cases hnext.symm.trans h
  · next h =>
    cases hnext.symm.trans h
    split
    · next h => cases hvalue.symm.trans h
    · next h =>
      cases hvalue.symm.trans h
      rfl

/-- At the closing bracket there are no more elements. -/
theorem elements_end {element : Reader β} {helement : Consumes element} {first : Bool}
    {t rest : Text} (hnext : nextElement first t = .ok (false, rest)) :
    elements element @helement first t = .ok ([], rest) := by
  rw [elements]
  split
  · next h => cases hnext.symm.trans h
  · next h =>
    cases hnext.symm.trans h
    rfl
  · next h => cases hnext.symm.trans h

/-- Elements that can be read one by one are read in a row. -/
theorem elements_separated {P : α → Text → Prop} {value : α → β} {element : Reader β}
    {helement : Consumes element} {as : List α} {inner : Text} (h : Separated P as inner)
    (hstart : ∀ a ∈ as, ∀ t, P a t → Starts t)
    (hread : ∀ a ∈ as, ∀ t, P a t → Reads element t (value a)) (rest : Text) {first : Bool}
    {text : Text} (henters : Enters (inner ++ ']' :: rest) first text) :
    elements element @helement first text = .ok (as.map value, rest) := by
  induction h generalizing first text with
  | one hP hpad =>
    obtain ⟨front, back, hfront, hback, rfl⟩ := hpad
    simp only [List.append_assoc] at henters
    have hnext := nextElement_enters hfront (hstart _ List.mem_cons_self _ hP) henters
    have hvalue := hread _ List.mem_cons_self _ hP [] _ blank_nil
      (hback.delimited_append (delimited_cons (by decide : ']' ∈ delimiters) rest))
    rw [elements_more hnext hvalue, elements_end (nextElement_end hback false rest)]
    rfl
  | @more _ _ _ _ rest' hP hpad _ ih =>
    obtain ⟨front, back, hfront, hback, rfl⟩ := hpad
    simp only [List.append_assoc, List.cons_append] at henters
    have hnext := nextElement_enters hfront (hstart _ List.mem_cons_self _ hP) henters
    have hvalue := hread _ List.mem_cons_self _ hP [] (back ++ ',' :: (rest' ++ ']' :: rest))
      blank_nil (hback.delimited_append (delimited_cons (by decide : ',' ∈ delimiters) _))
    rw [elements_more hnext hvalue,
      ih (fun a ha => hstart a (List.mem_cons_of_mem _ ha))
        (fun a ha => hread a (List.mem_cons_of_mem _ ha)) (.comma hback)]
    rfl

/-- A list is read if its elements are. -/
theorem reads_list {P : α → Text → Prop} {value : α → β} {element : Reader β}
    {helement : Consumes element} {as : List α} {t : Text} (h : Bracketed P '[' ']' as t)
    (hstart : ∀ a ∈ as, ∀ t, P a t → Starts t)
    (hread : ∀ a ∈ as, ∀ t, P a t → Reads element t (value a)) :
    Reads (list element @helement) t (as.map value) := by
  intro front rest hfront _
  obtain ⟨inner, rfl, hinner⟩ := h
  simp only [List.cons_append, List.append_assoc, List.nil_append]
  rw [list, nextChar?_blank_cons hfront (by decide)]
  rcases hinner with ⟨rfl, hblank⟩ | hitems
  · exact elements_end (nextElement_end hblank true rest)
  · exact elements_separated hitems hstart hread rest .first

/-- The key of a member is found behind the comma and the blanks in front of it. -/
theorem nextKey_enters {m : Text × Text} {front t rest text : Text} {first : Bool}
    (hfront : Blank front) (ht : MemberText m t) (h : Enters (front ++ (t ++ rest)) first text) :
    ∃ blank back, Blank blank ∧ Blank back ∧
      nextKey first text = .ok (some m.1, blank ++ ':' :: (back ++ (m.2 ++ rest))) := by
  obtain ⟨key, blank, back, ⟨pieces, hpieces, rfl⟩, hblank, hback, rfl⟩ := ht
  refine ⟨blank, back, hblank, hback, ?_⟩
  simp only [List.cons_append, List.append_assoc, List.nil_append] at h
  have hquote : isBlankChar '"' = false := by decide
  have hcomma : isBlankChar ',' = false := by decide
  have hbody := stringBody_pieces hpieces (blank ++ ':' :: (back ++ (m.2 ++ rest)))
  cases h with
  | first =>
    simp only [nextKey, nextChar?_blank_cons hfront hquote, hbody]
    rfl
  | comma hcommas =>
    simp only [nextKey, nextChar?_blank_cons hcommas hcomma, nextChar?_blank_cons hfront hquote,
      hbody]
    rfl

/-- The closing brace ends an object. -/
theorem nextKey_end {blank : Text} (h : Blank blank) (first : Bool) (rest : Text) :
    nextKey first (blank ++ '\x7d' :: rest) = .ok (none, rest) := by
  simp only [nextKey, nextChar?_blank_cons h (show isBlankChar '\x7d' = false by decide)]
  rfl

/-- The member leads from one state to another, read from the text behind its key on. -/
def ReadsMember (member : Text → σ → Reader σ) (m : Text × Text) (st st' : σ) : Prop :=
  ∀ blank back rest, Blank blank → Blank back → Delimited rest →
    member m.1 st (blank ++ ':' :: (back ++ (m.2 ++ rest))) = .ok (st', rest)

/-- The members lead from one state to another, one after the other. -/
inductive Run (member : Text → σ → Reader σ) : σ → List (Text × Text) → σ → Prop
  | nil {st : σ} : Run member st [] st
  | cons {st st' last : σ} {m : Text × Text} {ms : List (Text × Text)} :
      ReadsMember member m st st' → Run member st' ms last → Run member st (m :: ms) last

variable {member : Text → σ → Reader σ} {hmember : ∀ key st, Consumes (member key st)}

/-- One step: a member leads to the next state, and then the others are read. -/
theorem members_more {first : Bool} {st st' : σ} {t t' rest key : Text}
    (hkey : nextKey first t = .ok (some key, t')) (hvalue : member key st t' = .ok (st', rest)) :
    members member hmember first st t = members member hmember false st' rest := by
  rw [members]
  split
  · next h => cases hkey.symm.trans h
  · next h => cases hkey.symm.trans h
  · next h =>
    cases hkey.symm.trans h
    split
    · next h => cases hvalue.symm.trans h
    · next h =>
      cases hvalue.symm.trans h
      rfl

/-- At the closing brace the state is final. -/
theorem members_end {first : Bool} {st : σ} {t rest : Text}
    (hkey : nextKey first t = .ok (none, rest)) :
    members member hmember first st t = .ok (st, rest) := by
  rw [members]
  split
  · next h => cases hkey.symm.trans h
  · next h =>
    cases hkey.symm.trans h
    rfl
  · next h => cases hkey.symm.trans h

/-- Members that can be read one by one are read in a row. -/
theorem members_separated {ms : List (Text × Text)} {inner : Text}
    (h : Separated MemberText ms inner) {st last : σ} (hrun : Run member st ms last) (rest : Text)
    {first : Bool} {text : Text} (henters : Enters (inner ++ '\x7d' :: rest) first text) :
    members member hmember first st text = .ok (last, rest) := by
  induction h generalizing st first text with
  | one hm hpad =>
    obtain ⟨front, back, hfront, hback, rfl⟩ := hpad
    simp only [List.append_assoc] at henters
    obtain _ | ⟨hread, hnil⟩ := hrun
    obtain _ | _ := hnil
    obtain ⟨blank, space, hblank, hspace, hkey⟩ := nextKey_enters hfront hm henters
    have hvalue := hread blank space _ hblank hspace
      (hback.delimited_append (delimited_cons (by decide : '\x7d' ∈ delimiters) rest))
    rw [members_more hkey hvalue, members_end (nextKey_end hback false rest)]
  | @more _ _ _ _ rest' hm hpad _ ih =>
    obtain ⟨front, back, hfront, hback, rfl⟩ := hpad
    simp only [List.append_assoc, List.cons_append] at henters
    obtain _ | ⟨hread, hrun⟩ := hrun
    obtain ⟨blank, space, hblank, hspace, hkey⟩ := nextKey_enters hfront hm henters
    have hvalue := hread blank space (back ++ ',' :: (rest' ++ '\x7d' :: rest)) hblank hspace
      (hback.delimited_append (delimited_cons (by decide : ',' ∈ delimiters) _))
    rw [members_more hkey hvalue]
    exact ih hrun (.comma hback)

/-- The members of an object are read behind its opening bracket. -/
theorem members_objectText {ms : List (Text × Text)} {t : Text} (h : ObjectText ms t) {st last : σ}
    (hrun : Run member st ms last) :
    ∃ inner, t = '\x7b' :: inner ∧
      ∀ rest, members member hmember true st (inner ++ rest) = .ok (last, rest) := by
  obtain ⟨inner, rfl, hinner⟩ := h
  refine ⟨inner ++ ['\x7d'], rfl, fun rest => ?_⟩
  rw [List.append_assoc, List.singleton_append]
  rcases hinner with ⟨rfl, hblank⟩ | hitems
  · obtain _ | _ := hrun
    exact members_end (nextKey_end hblank true rest)
  · exact members_separated hitems hrun rest .first

end Brackets

end DocCheck.Json.Reader
