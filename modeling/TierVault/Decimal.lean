import TierVault.Binary64

/-!
Numbers as decimals: the shortest one that reads back, or one of fixed length.

A finite number is `mantissa · 2 ^ exponent`. The reals that round to it form an interval whose ends
belong to it when the mantissa is even. Among the decimals of one to seventeen digits the first grid
that has a point in the interval is taken, and on it the point nearest to the number.
-/

namespace TierVault

/-- `digits · 10 ^ exponent`. -/
structure Decimal where
  digits : Nat
  exponent : Int
  deriving DecidableEq, Inhabited

namespace Decimal

/-- A positive number and the interval that rounds to it, over one denominator. -/
structure Interval where
  value : Nat
  low : Nat
  high : Nat
  denominator : Nat
  closed : Bool

/-- The bit of a mantissa that is not stored. -/
def hiddenBit : Nat := 4503599627370496

/-- The interval of a finite number other than zero, from the fields of its bits. -/
def Interval.ofBits (number : Binary64) : Interval :=
  let fraction := number.magnitude.toNat % hiddenBit
  let biased := number.magnitude.toNat / hiddenBit
  let mantissa := if biased = 0 then fraction else fraction + hiddenBit
  let shift : Int := (if biased = 0 then 1 else biased : Nat) - 1075 - 2
  let scale := Nat.pow 2 shift.toNat
  let step := if fraction = 0 ∧ 1 < biased then 1 else 2
  { value := 4 * mantissa * scale
    low := (4 * mantissa - step) * scale
    high := (4 * mantissa + 2) * scale
    denominator := Nat.pow 2 (-shift).toNat
    closed := mantissa % 2 = 0 }

/-- Whether `numerator / denominator` rounds to the number. -/
def Interval.contains (interval : Interval) (numerator denominator : Nat) : Bool :=
  let scaled := numerator * interval.denominator
  if interval.closed then
    interval.low * denominator ≤ scaled && scaled ≤ interval.high * denominator
  else
    interval.low * denominator < scaled && scaled < interval.high * denominator

/-- The point nearest to the number on the grid of multiples of `10 ^ exponent`, if it rounds to the
number. Of two equally near the upper one is taken. -/
def onGrid (interval : Interval) (exponent : Int) : Option Decimal :=
  let up := Nat.pow 10 exponent.toNat
  let down := Nat.pow 10 (-exponent).toNat
  let numerator := interval.value * down
  let divisor := interval.denominator * up
  let below := numerator / divisor
  let belowFits := interval.contains (below * up) down
  let aboveFits := interval.contains ((below + 1) * up) down
  let nearerBelow := 2 * (numerator - below * divisor) < divisor
  if belowFits && (nearerBelow || !aboveFits) then some ⟨below, exponent⟩
  else if aboveFits then some ⟨below + 1, exponent⟩
  else none

/-- The exponent of the leading digit, sought upwards from `-324`. -/
def leadingExponent (interval : Interval) : (steps : Nat) → (exponent : Int) → Int
  | 0, exponent => exponent
  | steps + 1, exponent =>
    let next := exponent + 1
    if interval.denominator * Nat.pow 10 next.toNat ≤
        interval.value * Nat.pow 10 (-next).toNat then
      leadingExponent interval steps next
    else exponent

/-- Drops trailing zeros of the digits. -/
def stripZeros : (bound : Nat) → Decimal → Decimal
  | 0, decimal => decimal
  | bound + 1, decimal =>
    if decimal.digits ≠ 0 ∧ decimal.digits % 10 = 0 then
      stripZeros bound ⟨decimal.digits / 10, decimal.exponent + 1⟩
    else decimal

/-- The shortest decimal for a finite number other than zero. -/
def shortest (number : Binary64) : Decimal :=
  let interval := Interval.ofBits number
  let leading := leadingExponent interval 700 (-325)
  let grids := (List.range 17).map fun places => leading - Int.ofNat places
  stripZeros 20 ((grids.findSome? (onGrid interval)).getD ⟨0, 0⟩)

def digitText (decimal : Decimal) : String := toString decimal.digits

/-- Zeros, `count` of them. -/
def zeros (count : Nat) : String := String.ofList (List.replicate count '0')

/-- All digits before and after the point, without an exponent. An integral number shows no point. -/
def positional (decimal : Decimal) : String :=
  let digits := decimal.digitText
  if 0 ≤ decimal.exponent then digits ++ zeros decimal.exponent.toNat
  else
    let places := (-decimal.exponent).toNat
    if places < digits.length then
      String.ofList (digits.toList.take (digits.length - places)) ++ "." ++
        String.ofList (digits.toList.drop (digits.length - places))
    else "0." ++ zeros (places - digits.length) ++ digits

/-- The exponent that the number has when one digit stands before the point. -/
def leading (decimal : Decimal) : Int := decimal.exponent + decimal.digitText.length - 1

/-- One digit before the point, the others after it, and the exponent with its sign. -/
def scientific (decimal : Decimal) : String :=
  let exponent := if decimal.leading < 0 then toString decimal.leading else s!"+{decimal.leading}"
  match decimal.digitText.toList with
  | [] => ""
  | [digit] => s!"{digit}e{exponent}"
  | digit :: rest => s!"{digit}.{String.ofList rest}e{exponent}"

end Decimal

end TierVault

/-! ## A fixed count of digits after the point -/

namespace TierVault.Decimal

/-- The whole number nearest to `numerator / denominator`; a half goes to the even neighbour. -/
def roundHalfEven (numerator denominator : Nat) : Nat :=
  let below := numerator / denominator
  let excess := 2 * (numerator % denominator)
  if denominator < excess || (excess = denominator && below % 2 = 1) then below + 1 else below

/-- The magnitude of a finite number, to `places` digits after the point. -/
def fixed (places : Nat) (number : Binary64) : Decimal :=
  let interval := Interval.ofBits number
  ⟨roundHalfEven (interval.value * Nat.pow 10 places) interval.denominator, -places⟩

example : roundHalfEven 25 10 = 2 := by decide
example : roundHalfEven 35 10 = 4 := by decide

end TierVault.Decimal
