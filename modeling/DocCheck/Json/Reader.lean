import DocCheck.Json.Fault

/-!
# Reading JSON text

A reader takes a value off the front of a text and leaves the rest. Each reader leaves less text
than it was given, which is what ends the loops over members and elements.
-/

namespace DocCheck.Json

/-- Takes a value off the front of a text. -/
abbrev Reader (α : Type) := Text → Except Fault (α × Text)

namespace Reader

/-- A reader that takes at least one character. -/
def Consumes {α : Type} (read : Reader α) : Prop :=
  ∀ {t : Text} {a : α} {rest : Text}, read t = .ok (a, rest) → rest.length < t.length

/-- White space between the parts of a JSON text. -/
def isBlankChar (c : Char) : Bool := c == ' ' || c == '\n' || c == '\t' || c == '\r'

/-- The text without the white space in front. -/
def skipBlank (t : Text) : Text := t.dropWhile isBlankChar

/-- The first character that is no white space, and the text behind it. -/
def nextChar? (t : Text) : Option (Char × Text) :=
  match skipBlank t with
  | [] => none
  | c :: rest => some (c, rest)

/-- The next character that is not blank is taken. -/
theorem length_nextChar? {t rest : Text} {c : Char} (h : nextChar? t = some (c, rest)) :
    rest.length < t.length := by
  have hle : (skipBlank t).length ≤ t.length := (List.dropWhile_sublist _).length_le
  unfold nextChar? at h
  split at h
  · simp at h
  · next hskip =>
    simp only [Option.some.injEq, Prod.mk.injEq] at h
    rw [hskip, List.length_cons, h.2] at hle
    omega

/-- The text behind the remaining characters of a word. -/
def word : (letters t : Text) → Except Fault Text
  | [], t => .ok t
  | _ :: _, [] => .error .ended
  | l :: letters, c :: t => if l = c then word letters t else .error .malformed

/-- The letters of a word are taken one by one. -/
theorem length_word {letters t rest : Text} (h : word letters t = .ok rest) :
    rest.length ≤ t.length := by
  induction letters generalizing t with
  | nil => simp_all [word]
  | cons l letters ih =>
    cases t with
    | nil => simp [word] at h
    | cons c t =>
      simp only [word] at h
      split at h
      · have := ih h
        simp only [List.length_cons]
        omega
      · simp at h

/-- The value of a digit in base sixteen. -/
def hexValue? (c : Char) : Option Nat :=
  if c.isDigit then some (c.toNat - '0'.toNat)
  else if 'a' ≤ c && c ≤ 'f' then some (c.toNat - 'a'.toNat + 10)
  else if 'A' ≤ c && c ≤ 'F' then some (c.toNat - 'A'.toNat + 10)
  else none

/-- The number of four digits in base sixteen. -/
def hexNumber? (t : Text) : Option Nat :=
  t.foldlM (fun n c => (hexValue? c).map (16 * n + ·)) 0

/-- Reads four digits in base sixteen. With fewer than four bytes left the text ends too early. -/
def hexUnit (t : Text) : Except Fault (Nat × Text) :=
  if Text.byteLength (t.take 4) < 4 then .error .ended
  else if (t.take 4).length = 4 then
    match hexNumber? (t.take 4) with
    | some n => .ok (n, t.drop 4)
    | none => .error .malformed
  else .error .malformed

/-- Four hexadecimal digits are taken, or reading fails. -/
theorem length_hexUnit {t rest : Text} {n : Nat} (h : hexUnit t = .ok (n, rest)) :
    rest.length ≤ t.length := by
  unfold hexUnit at h
  repeat' split at h
  all_goals first
    | (simp only [Except.ok.injEq, Prod.mk.injEq] at h; rw [← h.2, List.length_drop]; omega)
    | simp at h

/-- Reads the second half of a character beyond the basic plane, whose first half is `high`. -/
def lowSurrogate (high : Nat) (t : Text) : Except Fault (Char × Text) :=
  match t with
  | [] => .error .ended
  | ['\\'] => .error .ended
  | '\\' :: 'u' :: t =>
    match hexUnit t with
    | .error fault => .error fault
    | .ok (low, t) =>
      if 0xDC00 ≤ low && low ≤ 0xDFFF then
        .ok (Char.ofNat (0x10000 + (high - 0xD800) * 0x400 + (low - 0xDC00)), t)
      else .error .malformed
  | _ => .error .malformed

/-- Reads a character given by its number; halves of a character have to come in pairs. -/
def unicodeEscape (t : Text) : Except Fault (Char × Text) :=
  match hexUnit t with
  | .error fault => .error fault
  | .ok (n, t) =>
    if 0xDC00 ≤ n && n ≤ 0xDFFF then .error .malformed
    else if 0xD800 ≤ n && n ≤ 0xDBFF then lowSurrogate n t
    else .ok (Char.ofNat n, t)

/-- The character of an escape of one letter. -/
def simpleEscape? : Char → Option Char
  | '"' => some '"'
  | '\\' => some '\\'
  | '/' => some '/'
  | 'b' => some '\x08'
  | 'f' => some '\x0c'
  | 'n' => some '\n'
  | 'r' => some '\r'
  | 't' => some '\t'
  | _ => none

/-- Reads what follows a backslash. -/
def escape (t : Text) : Except Fault (Char × Text) :=
  match t with
  | [] => .error .ended
  | 'u' :: t => unicodeEscape t
  | c :: t =>
    match simpleEscape? c with
    | some d => .ok (d, t)
    | none => .error .malformed

/-- The second half of a surrogate pair gives nothing back. -/
theorem length_lowSurrogate {high : Nat} {t rest : Text} {c : Char}
    (h : lowSurrogate high t = .ok (c, rest)) : rest.length ≤ t.length := by
  unfold lowSurrogate at h
  split at h
  · simp at h
  · simp at h
  · split at h
    · simp at h
    · next hunit =>
      split at h
      · simp only [Except.ok.injEq, Prod.mk.injEq] at h
        have := length_hexUnit hunit
        rw [← h.2]
        simp only [List.length_cons]
        omega
      · simp at h
  · simp at h

/-- A numeric escape gives nothing back. -/
theorem length_unicodeEscape {t rest : Text} {c : Char} (h : unicodeEscape t = .ok (c, rest)) :
    rest.length ≤ t.length := by
  unfold unicodeEscape at h
  split at h
  · simp at h
  · next hunit =>
    have hle := length_hexUnit hunit
    split at h
    · simp at h
    · split at h
      · exact Nat.le_trans (length_lowSurrogate h) hle
      · simp only [Except.ok.injEq, Prod.mk.injEq] at h
        rw [← h.2]
        exact hle

/-- An escape takes at least the character behind the backslash. -/
theorem length_escape {t rest : Text} {c : Char} (h : escape t = .ok (c, rest)) :
    rest.length < t.length := by
  unfold escape at h
  split at h
  · simp at h
  · have := length_unicodeEscape h
    simp only [List.length_cons]
    omega
  · split at h
    · simp only [Except.ok.injEq, Prod.mk.injEq] at h
      simp [h.2]
    · simp at h

/-- Reads a string behind its opening quote. -/
def stringBody (t : Text) : Except Fault (Text × Text) :=
  match t with
  | [] => .error .ended
  | '"' :: t => .ok ([], t)
  | '\\' :: t =>
    match h : escape t with
    | .error fault => .error fault
    | .ok (c, t') =>
      have : t'.length < t.length := length_escape h
      (stringBody t').map fun (s, rest) => (c :: s, rest)
  | c :: t =>
    if c.toNat < 0x20 then .error .malformed
    else (stringBody t).map fun (s, rest) => (c :: s, rest)
termination_by t.length

/-- The text of a string takes at least the closing quote. -/
theorem stringBody_consumes : Consumes stringBody := by
  intro t s rest h
  fun_induction stringBody t generalizing s rest with
  | case1 => simp at h
  | case2 t => simp_all
  | case3 => simp at h
  | case4 t c t' hescape hlt ih =>
    cases hbody : stringBody t' with
    | error fault => simp [hbody, Except.map] at h
    | ok p =>
      simp only [hbody, Except.map, Except.ok.injEq, Prod.mk.injEq] at h
      have := ih (show stringBody t' = .ok (p.1, rest) by rw [hbody, ← h.2])
      simp only [List.length_cons]
      omega
  | case5 => simp at h
  | case6 c t _ _ _ ih =>
    cases hbody : stringBody t with
    | error fault => simp [hbody, Except.map] at h
    | ok p =>
      simp only [hbody, Except.map, Except.ok.injEq, Prod.mk.injEq] at h
      have := ih (show stringBody t = .ok (p.1, rest) by rw [hbody, ← h.2])
      simp only [List.length_cons]
      omega

end Reader

end DocCheck.Json
