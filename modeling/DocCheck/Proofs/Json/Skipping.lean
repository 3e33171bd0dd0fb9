import DocCheck.Proofs.Json.Reading

/-!
# Passing over JSON values

A value that nobody asks for is passed over up to its last character and no further, however deep
its lists and objects go. The frames that are open around it do not matter: behind the value the
reading goes on with them as they were.
-/

namespace DocCheck.Json.Reader

variable {α : Type}

section Strings

/-- A letter behind a backslash is skipped. -/
theorem skipEscape_short {letter c : Char} (h : (letter, c) ∈ shortEscapes) (rest : Text) :
    skipEscape (letter :: rest) = .ok rest := by
  simp only [shortEscapes, List.mem_cons, Prod.mk.injEq, List.not_mem_nil, or_false] at h
  rcases h with ⟨rfl, -⟩ | ⟨rfl, -⟩ | ⟨rfl, -⟩ | ⟨rfl, -⟩ | ⟨rfl, -⟩ | ⟨rfl, -⟩ | ⟨rfl, -⟩ |
    ⟨rfl, -⟩ <;> rfl

/-- The four digits of a numeric escape are skipped. -/
theorem skipEscape_digits {n : Nat} {digits : Text} (h : FourDigits n digits) (rest : Text) :
    skipEscape ('u' :: (digits ++ rest)) = .ok rest := by
  rw [skipEscape, hexUnit_eq h]
  rfl

/-- An escape does not end a string. -/
theorem skipString_escape {t rest : Text} (h : skipEscape t = .ok rest) :
    skipString ('\\' :: t) = skipString rest := by
  rw [skipString]
  split
  · next hfault => cases h.symm.trans hfault
  · next hok =>
    cases h.symm.trans hok
    rfl

/-- Any other character but a quote does not end a string. -/
theorem skipString_plain {c : Char} (hquote : c ≠ '"') (hescape : c ≠ '\\')
    (hcontrol : 0x20 ≤ c.toNat) (t : Text) : skipString (c :: t) = skipString t := by
  rw [skipString.eq_def]
  split
  · next h => cases h
  · next h => exact absurd (List.cons.inj h).1 hquote
  · next h => exact absurd (List.cons.inj h).1 hescape
  · next h =>
    cases h
    rw [if_neg (by omega)]

/-- No piece of a string ends it. -/
theorem skipString_piece {piece : Text} (h : StringPiece piece) (t : Text) :
    skipString (piece ++ t) = skipString t := by
  cases h with
  | half hdigits => exact skipString_escape (skipEscape_digits hdigits t)
  | char hchar =>
    cases hchar with
    | plain hquote hescape hcontrol => exact skipString_plain hquote hescape hcontrol t
    | short hshort => exact skipString_escape (skipEscape_short hshort t)
    | number hdigits => exact skipString_escape (skipEscape_digits hdigits t)
    | pair _ _ _ hhigh hlow =>
      simp only [List.cons_append, List.append_assoc]
      rw [skipString_escape (skipEscape_digits hhigh _),
        skipString_escape (skipEscape_digits hlow t)]

/-- A string is skipped up to its closing quote. -/
theorem skipString_pieces {pieces : List Text} (h : ∀ p ∈ pieces, StringPiece p) (rest : Text) :
    skipString (pieces.flatten ++ '"' :: rest) = .ok rest := by
  induction pieces with
  | nil => rw [List.flatten_nil, List.nil_append, skipString]
  | cons p pieces ih =>
    rw [List.flatten_cons, List.append_assoc, skipString_piece (h p List.mem_cons_self)]
    exact ih fun q hq => h q (List.mem_cons_of_mem _ hq)

end Strings

section Numbers

/-- Digits are skipped up to the first other character. -/
theorem skipDigits_append {digits rest : Text} (h : Digits digits)
    (hrest : ∀ c ∈ rest.head?, c.isDigit = false) : skipDigits (digits ++ rest) = .ok rest := by
  have hempty : ¬ (digits.isEmpty = true) := by simpa using h.1
  rw [skipDigits, takeWhile_append_of_head? h.2 hrest, dropWhile_append_of_head? h.2 hrest,
    if_neg hempty]

/-- Behind the letter of an exponent its sign is passed over, digits stay. -/
theorem exponentSign_append {sign digits : Text} (hsign : sign ∈ ([[], ['+'], ['-']] : List Text))
    (hdigits : Digits digits) (rest : Text) :
    (exponentSign (sign ++ digits ++ rest)).2 = digits ++ rest := by
  simp only [List.mem_cons, List.not_mem_nil, or_false] at hsign
  rcases hsign with rfl | rfl | rfl
  · obtain ⟨c, digits, rfl⟩ := List.exists_cons_of_ne_nil hdigits.1
    have hc := hdigits.2 c List.mem_cons_self
    rw [List.nil_append, List.cons_append, exponentSign.eq_def]
    split
    · next h =>
      cases h
      cases hc
    · next h =>
      cases h
      cases hc
    · rfl
  · rfl
  · rfl

/-- An exponent is skipped up to the delimiter behind it. -/
theorem skipExponent_append {exponent rest : Text} (h : Exponent exponent)
    (hrest : Delimited rest) : skipExponent (exponent ++ rest) = .ok rest := by
  rcases h with rfl | ⟨letter, sign, digits, hletter, hsign, hdigits, rfl⟩
  · rw [List.nil_append, skipExponent.eq_def]
    split
    · exact absurd rfl (hrest.head_ne rfl).2.2.1
    · exact absurd rfl (hrest.head_ne rfl).2.2.2
    · rfl
  · have htail := skipDigits_append hdigits fun c hc => (hrest.head_ne hc).1
    have hsigned := exponentSign_append hsign hdigits rest
    simp only [List.mem_cons, List.not_mem_nil, or_false] at hletter
    rcases hletter with rfl | rfl <;>
      rw [List.cons_append, List.cons_append, skipExponent, hsigned, htail]

/-- Neither an exponent nor a delimiter goes on with the digits in front of it. -/
theorem head?_exponent_append {exponent rest : Text} (h : Exponent exponent)
    (hrest : Delimited rest) :
    ∀ c ∈ (exponent ++ rest).head?, c.isDigit = false ∧ c ≠ '.' := by
  intro c hc
  rcases h with rfl | ⟨letter, sign, digits, hletter, -, -, rfl⟩
  · exact ⟨(hrest.head_ne hc).1, (hrest.head_ne hc).2.1⟩
  · obtain rfl : letter = c := Option.some.inj hc
    simp only [List.mem_cons, List.not_mem_nil, or_false] at hletter
    rcases hletter with rfl | rfl <;> decide

/-- A number is skipped up to the delimiter behind it. -/
theorem skipNumber_append {whole fraction exponent rest : Text} (hwhole : Whole whole)
    (hfraction : Fraction fraction) (hexponent : Exponent exponent) (hrest : Delimited rest) :
    skipNumber (whole ++ (fraction ++ (exponent ++ rest))) = .ok rest := by
  have hbehind := head?_exponent_append hexponent hrest
  have hhead : ∀ c ∈ (fraction ++ (exponent ++ rest)).head?, c.isDigit = false := by
    rcases hfraction with rfl | ⟨digits, -, rfl⟩
    · exact fun c hc => (hbehind c hc).1
    · rintro c hc
      obtain rfl : '.' = c := Option.some.inj hc
      decide
  have hleading : ¬ ((whole.isEmpty ||
      (decide (whole.head? = some '0') && decide (1 < whole.length))) = true) := by
    rw [Bool.or_eq_true, Bool.and_eq_true, decide_eq_true_eq, decide_eq_true_eq,
      List.isEmpty_iff]
    rintro (hnil | ⟨hzero, hlength⟩)
    · exact hwhole.1.1 hnil
    · rw [hwhole.2 hzero] at hlength
      exact Nat.lt_irrefl _ hlength
  simp only [skipNumber, takeWhile_append_of_head? hwhole.1.2 hhead,
    dropWhile_append_of_head? hwhole.1.2 hhead]
  rw [if_neg hleading]
  -- Without a fraction the exponent, or what follows the number, must not start with a dot.
  rcases hfraction with rfl | ⟨digits, hdigits, rfl⟩
  · rw [List.nil_append]
    split
    · next h => exact absurd rfl (hbehind '.' (by rw [h]; rfl)).2
    · exact skipExponent_append hexponent hrest
  · simp only [List.cons_append, skipDigits_append hdigits fun c hc => (hbehind c hc).1]
    exact skipExponent_append hexponent hrest

end Numbers

section Scalars

/-- The first character of a number. -/
theorem head_numberText {t : Text} (h : NumberText t) :
    ∃ c rest, t = c :: rest ∧ (c = '-' ∨ c.isDigit = true) := by
  obtain ⟨sign, whole, fraction, exponent, hsign, hwhole, -, -, rfl⟩ := h
  simp only [List.mem_cons, List.not_mem_nil, or_false] at hsign
  rcases hsign with rfl | rfl
  · obtain ⟨c, whole, rfl⟩ := List.exists_cons_of_ne_nil hwhole.1.1
    exact ⟨c, _, rfl, .inr (hwhole.1.2 c List.mem_cons_self)⟩
  · exact ⟨'-', _, rfl, .inl rfl⟩

/-- A digit opens neither list nor object and is no delimiter. -/
theorem opened?_of_isDigit {c : Char} (h : c.isDigit = true) :
    Frame.opened? c = none ∧ c ∉ delimiters := by
  constructor
  · unfold Frame.opened?
    split
    · cases h
    · cases h
    · rfl
  · intro hmem
    have := (Delimited.head_ne (delimited_cons hmem []) rfl).1
    rw [h] at this
    cases this

/-- A scalar starts with a character that opens neither list nor object. -/
theorem head_isScalar {t : Text} (h : IsScalar t) :
    ∃ c rest, t = c :: rest ∧ c ∉ delimiters ∧ Frame.opened? c = none := by
  cases h with
  | null => exact ⟨'n', "ull".toList, rfl, by decide, rfl⟩
  | true => exact ⟨'t', "rue".toList, rfl, by decide, rfl⟩
  | false => exact ⟨'f', "alse".toList, rfl, by decide, rfl⟩
  | number hnumber =>
    obtain ⟨c, rest, rfl, rfl | hc⟩ := head_numberText hnumber
    · exact ⟨'-', rest, rfl, by decide, rfl⟩
    · exact ⟨c, rest, rfl, (opened?_of_isDigit hc).2, (opened?_of_isDigit hc).1⟩
  | string hstring =>
    obtain ⟨pieces, -, rfl⟩ := hstring
    exact ⟨'"', pieces.flatten ++ ['"'], rfl, by decide, rfl⟩

/-- A digit starts a number. -/
theorem skipScalar_of_isDigit {c : Char} (h : c.isDigit = true) (t : Text) :
    skipScalar (c :: t) = skipNumber (c :: t) := by
  unfold skipScalar
  split
  · next heq => cases heq
  · next heq =>
    cases heq
    cases h
  · next heq =>
    cases heq
    cases h
  · next heq =>
    cases heq
    cases h
  · next heq =>
    cases heq
    cases h
  · next heq =>
    cases heq
    cases h
  · next heq =>
    cases heq
    rw [if_pos h]

/-- A value without parts is skipped up to the delimiter behind it. -/
theorem skipScalar_append {t rest : Text} (h : IsScalar t) (hrest : Delimited rest) :
    skipScalar (t ++ rest) = .ok rest := by
  cases h with
  | null => rfl
  | true => rfl
  | false => rfl
  | string hstring =>
    obtain ⟨pieces, hpieces, rfl⟩ := hstring
    rw [List.append_assoc, List.cons_append, List.singleton_append, skipScalar]
    exact skipString_pieces hpieces rest
  | number hnumber =>
    obtain ⟨sign, whole, fraction, exponent, hsign, hwhole, hfraction, hexponent, rfl⟩ := hnumber
    have hskip := skipNumber_append hwhole hfraction hexponent hrest
    simp only [List.mem_cons, List.not_mem_nil, or_false] at hsign
    simp only [List.append_assoc]
    rcases hsign with rfl | rfl
    · obtain ⟨c, whole, rfl⟩ := List.exists_cons_of_ne_nil hwhole.1.1
      rw [List.nil_append, List.cons_append,
        skipScalar_of_isDigit (hwhole.1.2 c List.mem_cons_self)]
      exact hskip
    · exact hskip

end Scalars

section Steps

variable {frame : Frame} {frames : List Frame} {c : Char} {t t' : Text}

/-- One step: a value without parts is skipped. -/
theorem skipValue_scalar (hnext : nextChar? t = some (c, t')) (hc : Frame.opened? c = none)
    {rest : Text} (hscalar : skipScalar (c :: t') = .ok rest) :
    skipValue frames t = skipRest frames rest := by
  rw [skipValue]
  split
  · next h => cases hnext.symm.trans h
  · next h =>
    cases hnext.symm.trans h
    split
    · next h => cases hc.symm.trans h
    · split
      · next h => cases hscalar.symm.trans h
      · next h =>
        cases hscalar.symm.trans h
        rfl

/-- One step: an empty list or object is skipped. -/
theorem skipValue_closed (hnext : nextChar? t = some (c, t')) (hc : Frame.opened? c = some frame)
    {rest : Text} (hclose : close? frame t' = some rest) :
    skipValue frames t = skipRest frames rest := by
  rw [skipValue]
  split
  · next h => cases hnext.symm.trans h
  · next h =>
    cases hnext.symm.trans h
    split
    · next h =>
      cases hc.symm.trans h
      split
      · next h =>
        cases hclose.symm.trans h
        rfl
      · next h => cases hclose.symm.trans h
    · next h => cases hc.symm.trans h

/-- One step: a list or object is entered, and its first value is skipped. -/
theorem skipValue_opened (hnext : nextChar? t = some (c, t')) (hc : Frame.opened? c = some frame)
    (hclose : close? frame t' = none) :
    skipValue frames t = (frame.skipKey t').bind (skipValue (frame :: frames)) := by
  rw [skipValue]
  split
  · next h => cases hnext.symm.trans h
  · next h =>
    cases hnext.symm.trans h
    split
    · next h =>
      cases hc.symm.trans h
      split
      · next h => cases hclose.symm.trans h
      · split
        · next h =>
          rw [h]
          rfl
        · next h =>
          dsimp only
          rw [h]
          rfl
    · next h => cases hc.symm.trans h

/-- One step: behind a comma the next value is skipped. -/
theorem skipRest_comma (hnext : nextChar? t = some (',', t')) :
    skipRest (frame :: frames) t = (frame.skipKey t').bind (skipValue (frame :: frames)) := by
  rw [skipRest]
  split
  · next h => cases hnext.symm.trans h
  · next h =>
    cases hnext.symm.trans h
    rw [if_pos rfl]
    split
    · next h =>
      rw [h]
      rfl
    · next h =>
      dsimp only
      rw [h]
      rfl

/-- One step: a closing bracket leaves the innermost list or object. -/
theorem skipRest_closing (hnext : nextChar? t = some (frame.closing, t')) :
    skipRest (frame :: frames) t = skipRest frames t' := by
  have hcomma : frame.closing ≠ ',' := by cases frame <;> decide
  rw [skipRest]
  split
  · next h => cases hnext.symm.trans h
  · next h =>
    cases hnext.symm.trans h
    rw [if_neg hcomma, if_pos rfl]

end Steps

section Values

/-- A value starts with no delimiter. -/
theorem starts_isValue {t : Text} (h : IsValue t) : Starts t := by
  cases h with
  | scalar hscalar =>
    obtain ⟨c, rest, rfl, hc, -⟩ := head_isScalar hscalar
    exact ⟨c, rest, rfl, hc⟩
  | list hlist _ =>
    obtain ⟨inner, rfl, -⟩ := hlist
    exact ⟨'[', inner ++ [']'], rfl, by decide⟩
  | object hobject _ =>
    obtain ⟨inner, rfl, -⟩ := hobject
    exact ⟨'\x7b', inner ++ ['\x7d'], rfl, by decide⟩

/-- A member starts with the quote of its key. -/
theorem starts_memberText {m : Text × Text} {t : Text} (h : MemberText m t) : Starts t := by
  obtain ⟨key, front, back, ⟨pieces, -, rfl⟩, -, -, rfl⟩ := h
  exact ⟨'"', _, by simp only [List.cons_append]; rfl, by decide⟩

/-- Items start with a character that closes no frame. -/
theorem nextChar?_separated {P : α → Text → Prop} {as : List α} {inner : Text}
    (h : Separated P as inner) (hstart : ∀ a ∈ as, ∀ t, P a t → Starts t) (rest : Text) :
    ∃ c t, nextChar? (inner ++ rest) = some (c, t) ∧ c ∉ delimiters := by
  cases h with
  | one hP hpad =>
    obtain ⟨front, back, hfront, -, rfl⟩ := hpad
    obtain ⟨c, t, rfl, hc⟩ := hstart _ List.mem_cons_self _ hP
    refine ⟨c, t ++ (back ++ rest), ?_, hc⟩
    simp only [List.append_assoc, List.cons_append]
    exact nextChar?_blank_cons hfront (isBlankChar_eq_false hc) _
  | @more _ _ _ _ rest' hP hpad _ =>
    obtain ⟨front, back, hfront, -, rfl⟩ := hpad
    obtain ⟨c, t, rfl, hc⟩ := hstart _ List.mem_cons_self _ hP
    refine ⟨c, t ++ (back ++ ',' :: (rest' ++ rest)), ?_, hc⟩
    simp only [List.append_assoc, List.cons_append]
    exact nextChar?_blank_cons hfront (isBlankChar_eq_false hc) _

/-- Items that are passed over one by one are passed over in a row, and the frame is closed. -/
theorem skip_separated {P : α → Text → Prop} {frame : Frame} {as : List α} {inner : Text}
    (h : Separated P as inner)
    (hitem : ∀ a ∈ as, ∀ t, P a t → ∀ frames front rest, Blank front → Delimited rest →
      (frame.skipKey (front ++ (t ++ rest))).bind (skipValue frames) = skipRest frames rest)
    (frames : List Frame) (rest : Text) :
    (frame.skipKey (inner ++ frame.closing :: rest)).bind (skipValue (frame :: frames)) =
      skipRest frames rest := by
  have hclosing : frame.closing ∈ delimiters ∧ isBlankChar frame.closing = false := by
    cases frame <;> decide
  induction h with
  | one hP hpad =>
    obtain ⟨front, back, hfront, hback, rfl⟩ := hpad
    simp only [List.append_assoc]
    rw [hitem _ List.mem_cons_self _ hP _ front _ hfront
      (hback.delimited_append (delimited_cons hclosing.1 rest))]
    exact skipRest_closing (nextChar?_blank_cons hback hclosing.2 rest)
  | @more _ _ _ _ rest' hP hpad _ ih =>
    obtain ⟨front, back, hfront, hback, rfl⟩ := hpad
    simp only [List.append_assoc, List.cons_append]
    rw [hitem _ List.mem_cons_self _ hP _ front (back ++ ',' :: (rest' ++ frame.closing :: rest))
      hfront (hback.delimited_append (delimited_cons (by decide : ',' ∈ delimiters) _)),
      skipRest_comma (nextChar?_blank_cons hback (by decide) _)]
    exact ih fun a ha => hitem a (List.mem_cons_of_mem _ ha)

/-- A list or an object is passed over if its items are. -/
theorem skipValue_bracketed {P : α → Text → Prop} (frame : Frame) {opening : Char} {as : List α}
    {t : Text} (hframe : Frame.opened? opening = some frame)
    (h : Bracketed P opening frame.closing as t) (hstart : ∀ a ∈ as, ∀ t, P a t → Starts t)
    (hitem : ∀ a ∈ as, ∀ t, P a t → ∀ frames front rest, Blank front → Delimited rest →
      (frame.skipKey (front ++ (t ++ rest))).bind (skipValue frames) = skipRest frames rest)
    (frames : List Frame) {front : Text} (hfront : Blank front) (rest : Text) :
    skipValue frames (front ++ (t ++ rest)) = skipRest frames rest := by
  have hclosing : frame.closing ∈ delimiters ∧ isBlankChar frame.closing = false := by
    cases frame <;> decide
  have hopening : isBlankChar opening = false := by
    unfold Frame.opened? at hframe
    split at hframe
    · rfl
    · rfl
    · cases hframe
  obtain ⟨inner, rfl, hinner⟩ := h
  simp only [List.cons_append, List.append_assoc, List.nil_append]
  have hnext := nextChar?_blank_cons hfront hopening (inner ++ frame.closing :: rest)
  rcases hinner with ⟨-, hblank⟩ | hitems
  · refine skipValue_closed hnext hframe ?_
    simp only [close?, nextChar?_blank_cons hblank hclosing.2, if_true]
  · have hopen : close? frame (inner ++ frame.closing :: rest) = none := by
      obtain ⟨c, t, hc, hdelimiter⟩ := nextChar?_separated hitems hstart (frame.closing :: rest)
      have hne : c ≠ frame.closing := fun heq => hdelimiter (heq ▸ hclosing.1)
      simp only [close?, hc, if_neg hne]
    rw [skipValue_opened hnext hframe hopen]
    exact skip_separated hitems hitem frames rest

/-- The key of a member and its colon are skipped. -/
theorem skipKey_memberText {m : Text × Text} {t front : Text} (h : MemberText m t)
    (hfront : Blank front) (rest : Text) :
    ∃ back, Blank back ∧ skipKey (front ++ (t ++ rest)) = .ok (back ++ (m.2 ++ rest)) := by
  obtain ⟨key, blank, back, hkey, hblank, hback, rfl⟩ := h
  obtain ⟨pieces, hpieces, rfl⟩ := hkey.anyString
  refine ⟨back, hback, ?_⟩
  simp only [List.cons_append, List.append_assoc, List.nil_append]
  simp only [skipKey, nextChar?_blank_cons hfront (show isBlankChar '"' = false by decide),
    if_true, skipString_pieces hpieces]
  exact colon_blank hblank (back ++ (m.2 ++ rest))

/-- A value is passed over to its end, and the open frames go on behind it. -/
theorem skipValue_isValue {t : Text} (h : IsValue t) (frames : List Frame) (front rest : Text)
    (hfront : Blank front) (hrest : Delimited rest) :
    skipValue frames (front ++ (t ++ rest)) = skipRest frames rest := by
  induction h generalizing frames front rest with
  | scalar hscalar =>
    have hskip := skipScalar_append hscalar hrest
    obtain ⟨c, t, rfl, hc, hopened⟩ := head_isScalar hscalar
    exact skipValue_scalar (nextChar?_blank_cons hfront (isBlankChar_eq_false hc) _) hopened hskip
  | list hlist helements ih =>
    refine skipValue_bracketed .list rfl hlist ?_ ?_ frames hfront rest
    · rintro e he t rfl
      exact starts_isValue (helements e he)
    · rintro e he t rfl frames front rest hfront hrest
      exact ih e he frames front rest hfront hrest
  | object hobject hmembers ih =>
    refine skipValue_bracketed .object rfl hobject ?_ ?_ frames hfront rest
    · exact fun m _ t ht => starts_memberText ht
    · intro m hm t ht frames front rest hfront hrest
      obtain ⟨back, hback, hkey⟩ := skipKey_memberText ht hfront rest
      rw [Frame.skipKey, hkey]
      exact ih m hm frames back rest hback hrest

/-- Every value is skipped up to the delimiter behind it. -/
theorem skip_isValue {t front rest : Text} (h : IsValue t) (hfront : Blank front)
    (hrest : Delimited rest) : skip (front ++ (t ++ rest)) = .ok rest := by
  rw [skip, skipValue_isValue h [] front rest hfront hrest, skipRest]

end Values

end DocCheck.Json.Reader
