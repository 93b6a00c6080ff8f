import TierVault.Text.Utf8

/-!
Hexadecimal text: written in lower case, read in either case.
-/

namespace TierVault.Hexadecimal

def digit (value : Nat) : Char :=
  if value < 10 then Char.ofNat (48 + value) else Char.ofNat (87 + value)

/-- The last `width` digits of a number. -/
def digits : (width : Nat) → Nat → List Char
  | 0, _ => []
  | width + 1, number => digits width (number / 16) ++ [digit (number % 16)]

def ofNat (width number : Nat) : String := String.ofList (digits width number)

/-- Two digits a byte. -/
def ofBytes (bytes : Bytes) : String :=
  String.ofList (bytes.flatMap fun byte => [digit (byte.toNat / 16), digit (byte.toNat % 16)])

def value? (digit : Char) : Option Nat :=
  if '0' ≤ digit ∧ digit ≤ '9' then some (digit.toNat - 48)
  else if 'a' ≤ digit ∧ digit ≤ 'f' then some (digit.toNat - 87)
  else if 'A' ≤ digit ∧ digit ≤ 'F' then some (digit.toNat - 55)
  else none

/-- The number that digits stand for, most significant first. -/
def ofDigits? (digits : List Char) : Option Nat :=
  digits.foldlM (fun number digit => (value? digit).map (number * 16 + ·)) 0

def toNat? (text : String) : Option Nat :=
  ofDigits? text.toList

/-- The bytes that pairs of digits stand for. -/
def ofPairs? : List Char → Option Bytes
  | [] => some []
  | [_] => none
  | high :: low :: digits => do
    let number ← ofDigits? [high, low]
    return UInt8.ofNat number :: (← ofPairs? digits)

def toBytes? (text : String) : Option Bytes :=
  ofPairs? text.toList

example : ofNat 4 171 = "00ab" := by decide
example : ofBytes [0x2A, 0xFF] = "2aff" := by decide
example : toNat? "00Ab" = some 171 := by decide
example : toBytes? "2aff" = some [0x2A, 0xFF] := by decide

end TierVault.Hexadecimal
