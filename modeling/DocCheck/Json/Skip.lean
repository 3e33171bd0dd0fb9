import DocCheck.Json.Number

/-!
# Passing over JSON values

The value of a member that nobody asked for is passed over. It has to be well formed, but numbers
are not evaluated and halves of a character need not come in pairs. Nested lists and objects are
kept on a stack of frames.
-/

namespace DocCheck.Json.Reader

/-- The text behind what follows a backslash. -/
def skipEscape (t : Text) : Except Fault Text :=
  match t with
  | [] => .error .ended
  | 'u' :: t => (hexUnit t).map (·.2)
  | c :: t => if (simpleEscape? c).isSome then .ok t else .error .malformed

/-- An escape that is skipped takes at least the character behind the backslash. -/
theorem length_skipEscape {t rest : Text} (h : skipEscape t = .ok rest) :
    rest.length < t.length := by
  unfold skipEscape at h
  split at h
  · simp at h
  · next t =>
    cases hunit : hexUnit t with
    | error fault => simp [hunit, Except.map] at h
    | ok p =>
      simp only [hunit, Except.map, Except.ok.injEq] at h
      have := length_hexUnit (n := p.1) (t := t) (hunit.trans rfl)
      simp only [List.length_cons, ← h]
      omega
  · split at h
    · simp only [Except.ok.injEq] at h
      simp [h]
    · simp at h

/-- The text behind a string whose opening quote has been passed. -/
def skipString (t : Text) : Except Fault Text :=
  match t with
  | [] => .error .ended
  | '"' :: t => .ok t
  | '\\' :: t =>
    match h : skipEscape t with
    | .error fault => .error fault
    | .ok t' =>
      have : t'.length < t.length := length_skipEscape h
      skipString t'
  | c :: t => if c.toNat < 0x20 then .error .malformed else skipString t
termination_by t.length

/-- A string that is skipped takes at least its closing quote. -/
theorem length_skipString {t rest : Text} (h : skipString t = .ok rest) :
    rest.length < t.length := by
  fun_induction skipString t with
  | case1 => simp at h
  | case2 => simp_all
  | case3 => simp at h
  | case4 t t' hescape hlt ih =>
    have := ih h
    simp only [List.length_cons]
    omega
  | case5 => simp at h
  | case6 c t _ _ _ ih =>
    have := ih h
    simp only [List.length_cons]
    omega

/-- The text behind a run of digits, which must not be empty. -/
def skipDigits (t : Text) : Except Fault Text :=
  if (t.takeWhile Char.isDigit).isEmpty then .error .malformed
  else .ok (t.dropWhile Char.isDigit)

/-- The text behind an exponent, if there is one. -/
def skipExponent (t : Text) : Except Fault Text :=
  match t with
  | 'e' :: t | 'E' :: t => skipDigits (exponentSign t).2
  | t => .ok t

/-- The text behind a number whose sign has been passed. -/
def skipNumber (t : Text) : Except Fault Text :=
  let digits := t.takeWhile Char.isDigit
  if digits.isEmpty || (digits.head? = some '0' && 1 < digits.length) then .error .malformed
  else
    match t.dropWhile Char.isDigit with
    | '.' :: t =>
      match skipDigits t with
      | .error fault => .error fault
      | .ok t => skipExponent t
    | t => skipExponent t

/-- Digits that are needed take at least one character. -/
theorem length_skipDigits {t rest : Text} (h : skipDigits t = .ok rest) :
    rest.length < t.length := by
  unfold skipDigits at h
  split at h
  · simp at h
  · next hdigits =>
    simp only [Except.ok.injEq] at h
    rw [← h]
    exact length_dropWhile_lt (by simpa using hdigits)

/-- An exponent that is skipped gives nothing back. -/
theorem length_skipExponent {t rest : Text} (h : skipExponent t = .ok rest) :
    rest.length ≤ t.length := by
  unfold skipExponent at h
  split at h
  · next t =>
    have := length_skipDigits h
    have := length_exponentSign t
    simp only [List.length_cons]
    omega
  · next t =>
    have := length_skipDigits h
    have := length_exponentSign t
    simp only [List.length_cons]
    omega
  · simp only [Except.ok.injEq] at h
    simp [h]

/-- A number that is skipped takes at least one digit. -/
theorem length_skipNumber {t rest : Text} (h : skipNumber t = .ok rest) :
    rest.length < t.length := by
  simp only [skipNumber] at h
  split at h
  · simp at h
  · next hdigits =>
    simp only [Bool.or_eq_true, not_or, Bool.not_eq_true] at hdigits
    have hlt := length_dropWhile_lt (t := t) (p := Char.isDigit) hdigits.1
    split at h
    · next t' hrest =>
      rw [hrest, List.length_cons] at hlt
      split at h
      · simp at h
      · next hskip =>
        have := length_skipDigits hskip
        have := length_skipExponent h
        omega
    · have := length_skipExponent h
      omega

/-- The text behind a value that is neither list nor object. -/
def skipScalar (t : Text) : Except Fault Text :=
  match t with
  | [] => .error .ended
  | 'n' :: t => word "ull" t
  | 't' :: t => word "rue" t
  | 'f' :: t => word "alse" t
  | '"' :: t => skipString t
  | '-' :: t => skipNumber t
  | c :: t => if c.isDigit then skipNumber (c :: t) else .error .malformed

/-- A value without parts takes characters. -/
theorem length_skipScalar {t rest : Text} (h : skipScalar t = .ok rest) :
    rest.length < t.length := by
  unfold skipScalar at h
  split at h
  · simp at h
  iterate 3
    · have := length_word h
      simp only [List.length_cons]
      omega
  · have := length_skipString h
    simp only [List.length_cons]
    omega
  · have := length_skipNumber h
    simp only [List.length_cons]
    omega
  · split at h
    · exact length_skipNumber h
    · simp at h

/-- The text behind a colon. -/
def colon (t : Text) : Except Fault Text :=
  match nextChar? t with
  | none => .error .ended
  | some (c, t) => if c = ':' then .ok t else .error .malformed

/-- The colon behind a key is taken. -/
theorem length_colon {t rest : Text} (h : colon t = .ok rest) : rest.length < t.length := by
  unfold colon at h
  split at h
  · simp at h
  · next hnext =>
    split at h
    · simp only [Except.ok.injEq] at h
      exact h ▸ length_nextChar? hnext
    · simp at h

/-- The text behind the key of a member and its colon. -/
def skipKey (t : Text) : Except Fault Text :=
  match nextChar? t with
  | none => .error .ended
  | some (c, t) => if c = '"' then (skipString t).bind colon else .error .malformed

/-- A key that is skipped takes its quotes and the colon. -/
theorem length_skipKey {t rest : Text} (h : skipKey t = .ok rest) : rest.length < t.length := by
  unfold skipKey at h
  split at h
  · simp at h
  · next t' hnext =>
    have := length_nextChar? hnext
    split at h
    · cases hstring : skipString t' with
      | error fault => simp [hstring, Except.bind] at h
      | ok t'' =>
        have := length_skipString hstring
        have := length_colon (t := t'') (by simpa [hstring, Except.bind] using h)
        omega
    · simp at h

/-- A list or an object that has been opened. -/
inductive Frame where
  | list
  | object
  deriving DecidableEq, Repr

/-- The bracket that closes a frame. -/
def Frame.closing : Frame → Char
  | list => ']'
  | object => '\x7d'

/-- The text behind the closing bracket of a frame, if that comes next. -/
def close? (frame : Frame) (t : Text) : Option Text :=
  match nextChar? t with
  | some (c, t) => if c = frame.closing then some t else none
  | none => none

/-- The bracket that closes a list or an object is taken. -/
theorem length_close? {frame : Frame} {t rest : Text} (h : close? frame t = some rest) :
    rest.length < t.length := by
  unfold close? at h
  split at h
  · next hnext =>
    split at h
    · simp only [Option.some.injEq] at h
      exact h ▸ length_nextChar? hnext
    · simp at h
  · simp at h

/-- The text behind what stands in front of a value of a frame: the key, in an object. -/
def Frame.skipKey (frame : Frame) (t : Text) : Except Fault Text :=
  match frame with
  | list => .ok t
  | object => Reader.skipKey t

/-- In front of a value in a list there is no key to take. -/
theorem Frame.length_skipKey {frame : Frame} {t rest : Text} (h : frame.skipKey t = .ok rest) :
    rest.length ≤ t.length := by
  cases frame with
  | list =>
    simp only [Frame.skipKey, Except.ok.injEq] at h
    simp [h]
  | object => exact Nat.le_of_lt (Reader.length_skipKey h)

/-- The frame that a character opens. -/
def Frame.opened? : Char → Option Frame
  | '[' => some list
  | '\x7b' => some object
  | _ => none

mutual

/-- The text behind all open frames, when a value is due. -/
def skipValue (frames : List Frame) (t : Text) : Except Fault Text :=
  match hnext : nextChar? t with
  | none => .error .ended
  | some (c, t') =>
    have := length_nextChar? hnext
    match Frame.opened? c with
    | some frame =>
      match hclose : close? frame t' with
      | some t'' =>
        have := length_close? hclose
        skipRest frames t''
      | none =>
        match hkey : frame.skipKey t' with
        | .error fault => .error fault
        | .ok t'' =>
          have := Frame.length_skipKey hkey
          skipValue (frame :: frames) t''
    | none =>
      match hscalar : skipScalar (c :: t') with
      | .error fault => .error fault
      | .ok t'' =>
        have : t''.length < t'.length + 1 := length_skipScalar hscalar
        skipRest frames t''
termination_by t.length

/-- The text behind all open frames, when a value has just ended. -/
def skipRest (frames : List Frame) (t : Text) : Except Fault Text :=
  match frames with
  | [] => .ok t
  | frame :: outer =>
    match hnext : nextChar? t with
    | none => .error .ended
    | some (c, t') =>
      have := length_nextChar? hnext
      if c = ',' then
        match hkey : frame.skipKey t' with
        | .error fault => .error fault
        | .ok t'' =>
          have := Frame.length_skipKey hkey
          skipValue (frame :: outer) t''
      else if c = frame.closing then skipRest outer t'
      else .error .malformed
termination_by t.length

end

/-- No text is gained by passing over values. -/
theorem length_skipValue_le :
    (∀ {frames : List Frame} {t rest : Text}, skipValue frames t = .ok rest →
      rest.length < t.length) ∧
    (∀ {frames : List Frame} {t rest : Text}, skipRest frames t = .ok rest →
      rest.length ≤ t.length) := by
  -- The two functions call each other, so both bounds are proved together, by induction on a bound
  -- of the length of the text.
  suffices key : ∀ n, (∀ {frames : List Frame} {t rest : Text}, t.length ≤ n →
      skipValue frames t = .ok rest → rest.length < t.length) ∧
      (∀ {frames : List Frame} {t rest : Text}, t.length ≤ n →
      skipRest frames t = .ok rest → rest.length ≤ t.length) from
    ⟨fun h => (key _).1 (Nat.le_refl _) h, fun h => (key _).2 (Nat.le_refl _) h⟩
  intro n
  induction n with
  | zero =>
    constructor
    · intro frames t rest hlen h
      obtain rfl : t = [] := List.eq_nil_of_length_eq_zero (by omega)
      rw [skipValue] at h
      simp [nextChar?, skipBlank] at h
    · intro frames t rest hlen h
      obtain rfl : t = [] := List.eq_nil_of_length_eq_zero (by omega)
      rw [skipRest.eq_def] at h
      split at h
      · simp only [Except.ok.injEq] at h
        simp [← h]
      · simp [nextChar?, skipBlank] at h
  | succ n ih =>
    constructor
    · intro frames t rest hlen h
      rw [skipValue] at h
      split at h
      · simp at h
      · next c t' hnext =>
        have hlt := length_nextChar? hnext
        split at h
        · split at h
          · next hclose =>
            have := length_close? hclose
            have := ih.2 (by omega) h
            omega
          · split at h
            · simp at h
            · next hkey =>
              have := Frame.length_skipKey hkey
              have := ih.1 (by omega) h
              omega
        · split at h
          · simp at h
          · next hscalar =>
            have := length_skipScalar hscalar
            simp only [List.length_cons] at this
            have := ih.2 (by omega) h
            omega
    · intro frames t rest hlen h
      rw [skipRest.eq_def] at h
      split at h
      · simp only [Except.ok.injEq] at h
        simp [h]
      · split at h
        · simp at h
        · next hnext =>
          have hlt := length_nextChar? hnext
          split at h
          · split at h
            · simp at h
            · next hkey =>
              have := Frame.length_skipKey hkey
              have := ih.1 (by omega) h
              omega
          · split at h
            · have := ih.2 (by omega) h
              omega
            · simp at h

/-- Passes over one value. -/
def skip (t : Text) : Except Fault Text := skipValue [] t

/-- A value that is skipped takes characters. -/
theorem length_skip {t rest : Text} (h : skip t = .ok rest) : rest.length < t.length :=
  length_skipValue_le.1 h

end DocCheck.Json.Reader
