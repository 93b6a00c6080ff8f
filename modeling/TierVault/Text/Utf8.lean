/-!
UTF-8 as bytes, and the order of texts.

A text is written as the bytes of its encoding. Bytes that are no encoding are refused with the
index of the first byte that belongs to no character, and with the number of bytes that are wrong
there, if more input could not mend them. Texts are in the order of their bytes.
-/

namespace TierVault

/-- File contents, payloads and encoded values. -/
abbrev Bytes := List UInt8

namespace Utf8

/-- The first place where bytes stop being UTF-8. -/
inductive Defect
  /-- `length` bytes from `index` can begin no character. -/
  | invalid (length index : Nat)
  /-- The input ends inside the character that begins at `index`. -/
  | incomplete (index : Nat)
  deriving DecidableEq

def Defect.message : Defect → String
  | .invalid length index => s!"invalid utf-8 sequence of {length} bytes from index {index}"
  | .incomplete index => s!"incomplete utf-8 byte sequence from index {index}"

def isContinuation (byte : UInt8) : Bool :=
  0x80 ≤ byte && byte ≤ 0xBF

/-- Which second bytes may follow a leading byte of a three-byte character. -/
def secondOfThree (lead second : UInt8) : Bool :=
  if lead = 0xE0 then 0xA0 ≤ second && second ≤ 0xBF
  else if lead = 0xED then 0x80 ≤ second && second ≤ 0x9F
  else isContinuation second

/-- Which second bytes may follow a leading byte of a four-byte character. -/
def secondOfFour (lead second : UInt8) : Bool :=
  if lead = 0xF0 then 0x90 ≤ second && second ≤ 0xBF
  else if lead = 0xF4 then 0x80 ≤ second && second ≤ 0x8F
  else isContinuation second

/-- The length of the character at the head of the bytes, or what is wrong with it. -/
def characterLength (index : Nat) : Bytes → Except Defect Nat
  | [] => .ok 0
  | lead :: rest =>
    if lead < 0x80 then .ok 1
    else if 0xC2 ≤ lead && lead ≤ 0xDF then
      match rest with
      | [] => .error (.incomplete index)
      | second :: _ => if isContinuation second then .ok 2 else .error (.invalid 1 index)
    else if 0xE0 ≤ lead && lead ≤ 0xEF then
      match rest with
      | [] => .error (.incomplete index)
      | second :: rest =>
        if !secondOfThree lead second then .error (.invalid 1 index)
        else match rest with
          | [] => .error (.incomplete index)
          | third :: _ => if isContinuation third then .ok 3 else .error (.invalid 2 index)
    else if 0xF0 ≤ lead && lead ≤ 0xF4 then
      match rest with
      | [] => .error (.incomplete index)
      | second :: rest =>
        if !secondOfFour lead second then .error (.invalid 1 index)
        else match rest with
          | [] => .error (.incomplete index)
          | third :: rest =>
            if !isContinuation third then .error (.invalid 2 index)
            else match rest with
              | [] => .error (.incomplete index)
              | fourth :: _ => if isContinuation fourth then .ok 4 else .error (.invalid 3 index)
    else .error (.invalid 1 index)

/-- The first defect at or after `index`, looking at no more than `characters` characters. -/
def firstDefect : (characters index : Nat) → Bytes → Option Defect
  | 0, _, _ => none
  | _ + 1, _, [] => none
  | characters + 1, index, bytes =>
    match characterLength index bytes with
    | .error defect => some defect
    | .ok length => firstDefect characters (index + length) (bytes.drop length)

def encode (text : String) : Bytes :=
  text.toUTF8.data.toList

def decode (bytes : Bytes) : Except Defect String :=
  match String.fromUTF8? ⟨bytes.toArray⟩ with
  | some text => .ok text
  | none => .error ((firstDefect bytes.length 0 bytes).getD (.incomplete bytes.length))

/-- A text for bytes that need not be one: bytes beyond ASCII are then replaced. -/
def lossy (bytes : Bytes) : String :=
  match String.fromUTF8? ⟨bytes.toArray⟩ with
  | some text => text
  | none =>
    String.ofList (bytes.map fun byte => Char.ofNat (if byte < 0x80 then byte.toNat else 0xFFFD))

/-- What was written reads back. -/
theorem decode_encode (text : String) : decode (encode text) = .ok text := by
  simp [decode, encode, String.fromUTF8?, String.toUTF8, text.isValidUTF8, String.fromUTF8]

example : firstDefect 3 0 [0x61, 0xFF, 0x62] = some (.invalid 1 1) := by decide
example : firstDefect 3 0 [0x61, 0xE2, 0x82] = some (.incomplete 1) := by decide

end Utf8

end TierVault

/-! ## Order

The first difference decides, and a text comes before every longer one that it begins.
This is also the order of the UTF-8 bytes. -/

namespace TierVault.TextOrder

def lettersBefore : List Char → List Char → Bool
  | _, [] => false
  | [], _ :: _ => true
  | left :: restLeft, right :: restRight =>
    left.toNat < right.toNat || (left == right && lettersBefore restLeft restRight)

/-- Whether `left` comes before `right`. -/
def before (left right : String) : Bool := lettersBefore left.toList right.toList

example : before "ab" "b" = true := by decide
example : before "a" "a" = false := by decide
example : before "a" "aa" = true := by decide

end TierVault.TextOrder
