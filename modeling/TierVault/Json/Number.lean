import TierVault.Json.Reader

/-!
Numbers in JSON text.

Integers that a word can hold are kept as they are. Every other number becomes a binary one; digits
that a word cannot hold only move its exponent, and a number too large for any binary one is refused.
-/

namespace TierVault.Json

/-- `10 ^ exponent` for exponents up to 308. -/
def powerOfTen (exponent : Nat) : Float := Float.ofScientific 1 false exponent

/-- Scales by powers of ten in steps of at most 308; nothing if the result is too large. -/
def scale? : (bound : Nat) → Float → Int → Option Float
  | 0, number, _ => some number
  | bound + 1, number, exponent =>
    if exponent.natAbs ≤ 308 then
      if 0 ≤ exponent then
        let scaled := number * powerOfTen exponent.natAbs
        if scaled.isInf then none else some scaled
      else some (number / powerOfTen exponent.natAbs)
    else if number == 0.0 then some number
    else if 0 ≤ exponent then none
    else scale? bound (number / powerOfTen 308) (exponent + 308)

/-- The number of a significand and an exponent, all of whose digits were read. -/
def floatOfParts (positive : Bool) (significand : Nat) (exponent : Int) : Reader Binary64 :=
  fun input =>
    match scale? 40 significand.toUInt64.toFloat (max exponent (-10000)) with
    | some number => .ok (.ofFloat (if positive then number else -number), input)
    | none => stop .numberTooLarge input

/-- Exponents beyond this bound are taken for infinite. -/
def exponentBound : Nat := 2147483647

/-- The digits after an exponent mark and its sign. -/
def exponentDigits (positive : Bool) (significand : Nat) (start : Int) (sign : Bool) :
    (exponent : Nat) → Reader Binary64
  | exponent, byte :: input =>
    if isDigit byte then
      let next := exponent * 10 + digitValue byte
      if exponentBound < next then
        if significand ≠ 0 ∧ sign then stop .numberTooLarge input
        else .ok (⟨if positive then 0 else Binary64.signBit⟩, input.dropWhile isDigit)
      else exponentDigits positive significand start sign next input
    else
      floatOfParts positive significand
        (if sign then start + exponent else start - exponent) (byte :: input)
  | exponent, [] =>
    floatOfParts positive significand (if sign then start + exponent else start - exponent) []

/-- What follows an exponent mark. -/
def exponentPart (positive : Bool) (significand : Nat) (start : Int) : Reader Binary64 :=
  fun input =>
    let (sign, input) := match input with
      | byte :: rest =>
        if byte = code '+' then (true, rest)
        else if byte = code '-' then (false, rest)
        else (true, input)
      | [] => (true, input)
    match input with
    | [] => stop .endInValue []
    | byte :: rest =>
      if isDigit byte then exponentDigits positive significand start sign (digitValue byte) rest
      else stop .badNumber rest

def isExponentMark (byte : UInt8) : Bool := byte = code 'e' || byte = code 'E'

/-- The end of a number after its digits: an exponent or nothing. -/
def afterDigits (positive : Bool) (significand : Nat) (exponent : Int) : Reader Binary64
  | byte :: input =>
    if isExponentMark byte then exponentPart positive significand exponent input
    else floatOfParts positive significand exponent (byte :: input)
  | [] => floatOfParts positive significand exponent []

/-- The digits after a point. Digits that a word cannot hold are dropped. -/
def fractionDigits (positive : Bool) : (significand : Nat) → (exponent : Int) → (some : Bool) →
    Reader Binary64
  | significand, exponent, found, byte :: input =>
    if isDigit byte then
      let next := significand * 10 + digitValue byte
      if Word.limit ≤ next then
        afterDigits positive significand exponent ((byte :: input).dropWhile isDigit)
      else fractionDigits positive next (exponent - 1) true input
    else if found then afterDigits positive significand exponent (byte :: input)
    else stopBehind .badNumber (byte :: input)
  | significand, exponent, found, [] =>
    if found then afterDigits positive significand exponent [] else stop .endInValue []

/-- The digits of an integer that no word holds: they only move the exponent. -/
def longDigits (positive : Bool) (significand : Nat) : (exponent : Int) → Reader Binary64
  | exponent, byte :: input =>
    if isDigit byte then longDigits positive significand (exponent + 1) input
    else if byte = code '.' then fractionDigits positive significand exponent false input
    else afterDigits positive significand exponent (byte :: input)
  | exponent, [] => afterDigits positive significand exponent []

def signed (positive : Bool) (significand : Nat) : Number :=
  if positive then .whole significand
  else if significand = 0 ∨ 9223372036854775808 < significand then
    .fractional (Binary64.ofFloat (-significand.toUInt64.toFloat))
  else .negative significand

/-- A number whose integer digits so far are `significand`. -/
def integerDigits (positive : Bool) : (significand : Nat) → Reader Number
  | significand, byte :: input =>
    if isDigit byte ∧ significand ≠ 0 then
      let next := significand * 10 + digitValue byte
      if Word.limit ≤ next then do
        let (number, rest) ← longDigits positive significand 0 (byte :: input)
        return (.fractional number, rest)
      else integerDigits positive next input
    else if isDigit byte then stopBehind .badNumber (byte :: input)
    else if byte = code '.' then do
      let (number, rest) ← fractionDigits positive significand 0 false input
      return (.fractional number, rest)
    else if isExponentMark byte then do
      let (number, rest) ← exponentPart positive significand 0 input
      return (.fractional number, rest)
    else .ok (signed positive significand, byte :: input)
  | significand, [] => .ok (signed positive significand, [])

/-- A number after its sign. A zero stands alone before the point. -/
def unsigned (positive : Bool) : Reader Number
  | [] => stop .endInValue []
  | byte :: input =>
    if isDigit byte then integerDigits positive (digitValue byte) input else stop .badNumber input

end TierVault.Json
