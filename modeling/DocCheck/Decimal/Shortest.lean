import DocCheck.Decimal.Binary64
import DocCheck.Text.Basic

/-!
# The shortest decimal form of a double

A double is written with the fewest digits that read back as the same double; of two such digit
strings the nearer one is taken. Numbers from `10 ^ -5` up to `10 ^ 16` are written positionally
and keep a digit behind the point; the others have an exponent with a sign.
-/

namespace DocCheck

/-- The decimal number `digits * 10 ^ exponent`. -/
structure Decimal where
  digits : Nat
  exponent : Int
  deriving DecidableEq, Repr

namespace Binary64

/-- The numbers that read back as a double: four times the value and the ends of the interval, over
a common denominator. The ends belong to it when the mantissa is even. -/
structure Neighbourhood where
  low : Nat
  value : Nat
  high : Nat
  den : Nat
  closed : Bool

/-- The interval of numbers that round to a double. Below a power of two it is half as wide. -/
def neighbourhood (x : Binary64) : Neighbourhood :=
  let scale := Nat.pow 2 x.exponent.toNat
  let below := if x.mantissa = mantissaLimit / 2 && -1074 < x.exponent then 1 else 2
  { low := (4 * x.mantissa - below) * scale
    value := 4 * x.mantissa * scale
    high := (4 * x.mantissa + 2) * scale
    den := 4 * Nat.pow 2 (-x.exponent).toNat
    closed := x.mantissa % 2 = 0 }

/-- Whether `d * 10 ^ e` lies in the interval. -/
def Neighbourhood.contains (n : Neighbourhood) (d : Nat) (e : Int) : Bool :=
  let num := d * Nat.pow 10 e.toNat * n.den
  let scale := Nat.pow 10 (-e).toNat
  if n.closed then n.low * scale ≤ num && num ≤ n.high * scale
  else n.low * scale < num && num < n.high * scale

/-- The position of the first digit: the exponent `k` with `10 ^ k ≤ value < 10 ^ (k + 1)`. -/
def Neighbourhood.magnitude (n : Neighbourhood) : Int :=
  if n.den ≤ n.value then (Nat.toDigits 10 (n.value / n.den)).length - 1
  else -(((List.range 400).find? fun k => n.den ≤ n.value * Nat.pow 10 k).getD 0 : Nat)

/-- The nearest number of the interval with at most `count` digits. -/
def Neighbourhood.withDigits? (n : Neighbourhood) (count : Nat) : Option Decimal :=
  let e := n.magnitude - count + 1
  let num := n.value * Nat.pow 10 (-e).toNat
  let den := n.den * Nat.pow 10 e.toNat
  let down := num / den
  let nearer := if 2 * (num % den) < den || (2 * (num % den) = den && down % 2 = 0)
    then [down, down + 1] else [down + 1, down]
  (nearer.find? (n.contains · e)).map (⟨·, e⟩)

/-- The shortest decimal number that reads back as a double. -/
def shortest (x : Binary64) : Decimal :=
  (((List.range 17).findSome? fun k => x.neighbourhood.withDigits? (k + 1))).getD ⟨0, 0⟩

end Binary64

namespace Decimal

/-- The digits without zeros at the end, and the exponent of the first digit. -/
def scientific (d : Decimal) : Text × Int :=
  let digits : Text := Text.ofNat d.digits
  ((digits.reverse.dropWhile (· == '0')).reverse, d.exponent + digits.length - 1)

/-- An exponent with its sign. -/
def exponentText (e : Int) : Text := (if e < 0 then '-' else '+') :: Text.ofNat e.natAbs

/-- The text of a decimal number. -/
def text (d : Decimal) : Text :=
  if d.digits = 0 then "0.0"
  else
    let (digits, e) := d.scientific
    let zeros (n : Nat) : Text := List.replicate n '0'
    if e < -5 || 15 < e then
      let point : Text := if 1 < digits.length then "." else ""
      digits.take 1 ++ point ++ digits.drop 1 ++ "e" ++ exponentText e
    else if e < 0 then "0." ++ zeros (e.natAbs - 1) ++ digits
    else
      let whole := e.toNat + 1
      if digits.length ≤ whole then digits ++ zeros (whole - digits.length) ++ ".0"
      else digits.take whole ++ "." ++ digits.drop whole

end Decimal

/-- The shortest text of a double. -/
def Binary64.text (x : Binary64) : Text := if x.mantissa = 0 then "0.0" else x.shortest.text

end DocCheck
