import DocCheck.Json.Reader

/-!
# Reading JSON numbers

A number without fraction and exponent is a natural number if it fits into 64 bits, and a negative
integer if it fits into 63 bits with its sign. Every other number is a double: its digits are
gathered into a significand of 64 bits, the further ones only count, and the power of ten is
applied to it.
-/

namespace DocCheck.Json.Reader

/-- The number of values that fit into 64 bits. -/
def wordSize : Nat := 0x10000000000000000

/-- Appends digits to a significand as long as it fits into 64 bits, and gives back the others. -/
def gather (significand : Nat) : Text → Nat × Text
  | [] => (significand, [])
  | c :: digits =>
    let next := 10 * significand + (c.toNat - '0'.toNat)
    if next < wordSize then gather next digits else (significand, c :: digits)

/-- The double of a significand and a power of ten, if it is in range. -/
def real (isNegative : Bool) (significand : Nat) (exponent : Int) (rest : Text) :
    Except Fault (Found × Text) :=
  match Binary64.ofDecimal? significand exponent with
  | some x => .ok (.real isNegative x, rest)
  | none => .error .malformed

/-- The largest power of ten that an exponent may name. -/
def exponentLimit : Nat := 0x80000000

/-- The sign of an exponent, and the text behind it. -/
def exponentSign : Text → Bool × Text
  | '+' :: t => (false, t)
  | '-' :: t => (true, t)
  | t => (false, t)

/-- The number of a run of digits. -/
def digitsValue (digits : Text) : Nat :=
  digits.foldl (fun n c => 10 * n + (c.toNat - '0'.toNat)) 0

/-- Reads what follows the letter of an exponent. -/
def exponent (isNegative : Bool) (significand : Nat) (power : Int) (t : Text) :
    Except Fault (Found × Text) :=
  let (down, t) := exponentSign t
  let digits := t.takeWhile Char.isDigit
  let rest := t.dropWhile Char.isDigit
  if digits.isEmpty then .error (if t.isEmpty then .ended else .malformed)
  else
    let n := digitsValue digits
    if n < exponentLimit then
      real isNegative significand (if down then power - n else power + n) rest
    else if significand ≠ 0 && !down then .error .malformed
    else .ok (.real isNegative (.ofNat 0), rest)

/-- Reads what may follow the digits in front of an exponent. -/
def afterDigits (isNegative : Bool) (significand : Nat) (power : Int) (t : Text) :
    Except Fault (Found × Text) :=
  match t with
  | 'e' :: t | 'E' :: t => exponent isNegative significand power t
  | t => real isNegative significand power t

/-- Reads what follows a decimal point. -/
def fraction (isNegative : Bool) (significand : Nat) (power : Int) (t : Text) :
    Except Fault (Found × Text) :=
  let digits := t.takeWhile Char.isDigit
  let rest := t.dropWhile Char.isDigit
  if digits.isEmpty then .error (if rest.isEmpty then .ended else .malformed)
  else
    let (significand, spare) := gather significand digits
    afterDigits isNegative significand (power - (digits.length - spare.length : Nat)) rest

/-- An integer, or a double if it is too large. Zero with a sign is a double. -/
def integer (isNegative : Bool) (n : Nat) : Found :=
  if !isNegative then .natural n
  else if 0 < n && n ≤ wordSize / 2 then .negative n
  else .real true (.ofNat n)

/-- Reads a number behind its sign. -/
def number (isNegative : Bool) (t : Text) : Except Fault (Found × Text) :=
  let digits := t.takeWhile Char.isDigit
  let rest := t.dropWhile Char.isDigit
  if digits.isEmpty then .error (if t.isEmpty then .ended else .malformed)
  else if digits.head? = some '0' && 1 < digits.length then .error .malformed
  else
    let (significand, spare) := gather 0 digits
    match rest with
    | '.' :: t => fraction isNegative significand spare.length t
    | 'e' :: t | 'E' :: t => exponent isNegative significand spare.length t
    | rest =>
      if spare.isEmpty then .ok (integer isNegative significand, rest)
      else real isNegative significand spare.length rest

/-- Skipping digits gives nothing back. -/
theorem length_dropWhile_isDigit (t : Text) : (t.dropWhile Char.isDigit).length ≤ t.length :=
  (List.dropWhile_sublist _).length_le

/-- Deciding on a number with a fraction or an exponent gives nothing back. -/
theorem length_real {isNegative : Bool} {significand : Nat} {power : Int} {t rest : Text}
    {found : Found} (h : real isNegative significand power t = .ok (found, rest)) :
    rest.length ≤ t.length := by
  unfold real at h
  split at h
  · simp only [Except.ok.injEq, Prod.mk.injEq] at h
    simp [h.2]
  · simp at h

/-- The sign of an exponent takes at most one character. -/
theorem length_exponentSign (t : Text) : (exponentSign t).2.length ≤ t.length := by
  unfold exponentSign
  split <;> simp

/-- An exponent gives nothing back. -/
theorem length_exponent {isNegative : Bool} {significand : Nat} {power : Int} {t rest : Text}
    {found : Found} (h : exponent isNegative significand power t = .ok (found, rest)) :
    rest.length ≤ t.length := by
  simp only [exponent] at h
  have hsign := length_exponentSign t
  have hdrop := length_dropWhile_isDigit (exponentSign t).2
  split at h
  · simp at h
  · split at h
    · have := length_real h
      omega
    · split at h
      · simp at h
      · simp only [Except.ok.injEq, Prod.mk.injEq] at h
        rw [← h.2]
        omega

/-- What may follow the digits of a number gives nothing back. -/
theorem length_afterDigits {isNegative : Bool} {significand : Nat} {power : Int} {t rest : Text}
    {found : Found} (h : afterDigits isNegative significand power t = .ok (found, rest)) :
    rest.length ≤ t.length := by
  unfold afterDigits at h
  split at h
  · have := length_exponent h
    simp only [List.length_cons]
    omega
  · have := length_exponent h
    simp only [List.length_cons]
    omega
  · exact length_real h

/-- A fraction gives nothing back. -/
theorem length_fraction {isNegative : Bool} {significand : Nat} {power : Int} {t rest : Text}
    {found : Found} (h : fraction isNegative significand power t = .ok (found, rest)) :
    rest.length ≤ t.length := by
  simp only [fraction] at h
  split at h
  · simp at h
  · exact Nat.le_trans (length_afterDigits h) (length_dropWhile_isDigit t)

/-- Where a run of digits is not empty, less text is left behind it. -/
theorem length_dropWhile_lt {p : Char → Bool} {t : Text} (h : (t.takeWhile p).isEmpty = false) :
    (t.dropWhile p).length < t.length := by
  have hsum := congrArg List.length (List.takeWhile_append_dropWhile (p := p) (l := t))
  rw [List.length_append] at hsum
  have hpos : 0 < (t.takeWhile p).length := by
    cases hrun : t.takeWhile p with
    | nil => simp [hrun] at h
    | cons => simp
  omega

/-- A number takes at least one digit. -/
theorem number_consumes (isNegative : Bool) : Consumes (number isNegative) := by
  intro t found rest h
  simp only [number] at h
  split at h
  · simp at h
  · next hdigits =>
    have hlt := length_dropWhile_lt (t := t) (p := Char.isDigit) (by simpa using hdigits)
    split at h
    · simp at h
    · split at h
      · next hrest =>
        have := length_fraction h
        rw [hrest, List.length_cons] at hlt
        omega
      · next hrest =>
        have := length_exponent h
        rw [hrest, List.length_cons] at hlt
        omega
      · next hrest =>
        have := length_exponent h
        rw [hrest, List.length_cons] at hlt
        omega
      · split at h
        · simp only [Except.ok.injEq, Prod.mk.injEq] at h
          rw [← h.2]
          exact hlt
        · have := length_real h
          omega

end DocCheck.Json.Reader
