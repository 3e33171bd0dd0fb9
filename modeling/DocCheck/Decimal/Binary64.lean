/-!
# Double-precision numbers

A non-negative double is a mantissa below `2 ^ 53` times a power of two. Arithmetic is exact on
natural numbers and rounds once, to the nearest double and to the even mantissa on a tie.
-/

namespace DocCheck

/-- The quotient of two numbers, rounded to the nearest number and to the even one on a tie. -/
def roundDiv (num den : Nat) : Nat :=
  let q := num / den
  let twice := 2 * (num % den)
  if twice < den || (twice = den && q % 2 = 0) then q else q + 1

/-- The non-negative double `mantissa * 2 ^ exponent`. -/
structure Binary64 where
  mantissa : Nat
  exponent : Int
  deriving DecidableEq, Repr

namespace Binary64

/-- Mantissas have 53 bits. -/
def mantissaLimit : Nat := 0x20000000000000

/-- The quotient `num / (den * 2 ^ q)` as numerator and denominator. -/
def shiftRatio (num den : Nat) (q : Int) : Nat × Nat :=
  if 0 ≤ q then (num, den * Nat.pow 2 q.toNat) else (num * Nat.pow 2 (-q).toNat, den)

/-- The double nearest to a quotient. The exponent is not bounded above; see `isFinite`. -/
def ofRatio (num den : Nat) : Binary64 :=
  if num = 0 then ⟨0, -1074⟩
  else
    let low : Int := num.log2 - den.log2 - 53
    let (a, b) := shiftRatio num den low
    let q := max (-1074) (if a / b < mantissaLimit then low else low + 1)
    let (a, b) := shiftRatio num den q
    let m := roundDiv a b
    if m = mantissaLimit then ⟨mantissaLimit / 2, q + 1⟩ else ⟨m, q⟩

/-- The double nearest to a natural number. -/
def ofNat (n : Nat) : Binary64 := ofRatio n 1

/-- The value as numerator and denominator. -/
def toRatio (x : Binary64) : Nat × Nat :=
  if 0 ≤ x.exponent then (x.mantissa * Nat.pow 2 x.exponent.toNat, 1)
  else (x.mantissa, Nat.pow 2 (-x.exponent).toNat)

/-- Whether the number is in the range of doubles. -/
def isFinite (x : Binary64) : Bool := x.exponent ≤ 971

/-- The product, rounded once. -/
def mul (x y : Binary64) : Binary64 :=
  ofRatio (x.toRatio.1 * y.toRatio.1) (x.toRatio.2 * y.toRatio.2)

/-- The quotient, rounded once. -/
def div (x y : Binary64) : Binary64 :=
  ofRatio (x.toRatio.1 * y.toRatio.2) (x.toRatio.2 * y.toRatio.1)

/-- The double nearest to a power of ten. -/
def pow10 (n : Nat) : Binary64 := ofNat (Nat.pow 10 n)

/-- Divides by a power of ten, in steps that stay in the range of doubles. -/
def divPow10 (x : Binary64) (n : Nat) : Binary64 :=
  if n ≤ 308 then x.div (pow10 n)
  else if x.mantissa = 0 then x
  else divPow10 (x.div (pow10 308)) (n - 308)
termination_by n

/-- Multiplies by a power of ten; `none` if the result is out of range. -/
def mulPow10? (x : Binary64) (n : Nat) : Option Binary64 :=
  if 308 < n then (if x.mantissa = 0 then some x else none)
  else
    let product := x.mul (pow10 n)
    if product.isFinite then some product else none

/-- A number of the form `significand * 10 ^ exponent`, by one rounding of the significand and one
of each product or quotient; `none` if it is out of range. -/
def ofDecimal? (significand : Nat) (exponent : Int) : Option Binary64 :=
  if 0 ≤ exponent then (ofNat significand).mulPow10? exponent.toNat
  else some ((ofNat significand).divPow10 (-exponent).toNat)

end Binary64

end DocCheck
