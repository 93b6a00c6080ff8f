import TierVault.Json.Writer
import TierVault.Text.Quoted
import TierVault.Text.Utf8

/-!
Readers of JSON text, and what can be wrong with it.

A reader takes a thing of a known kind from the front of the input and stops at the first thing that
is wrong. It tells how much of the input lies behind the place where it stopped; lines and columns
follow from that and from the whole text.
-/

/-! ## Problems

Either the text is no JSON, or it ends too early, or it is JSON of another kind than expected. A defect
is a problem and the place where it was noticed. -/

namespace TierVault.Json

inductive Number
  | whole (number : Nat)
  /-- Below zero. -/
  | negative (magnitude : Nat)
  | fractional (number : Binary64)
  deriving DecidableEq

/-- What stands where something else was expected. -/
inductive Found
  | null
  | truth (truth : Bool)
  | number (value : Number)
  | text (content : String)
  | list
  | object
  deriving DecidableEq

inductive Mismatch
  /-- A value of another kind. -/
  | kind (found : Found) (expected : String)
  /-- A number out of range. -/
  | range (found : Found) (expected : String)
  /-- A name that is none of those allowed. -/
  | name (found : String)
  | missingField (field : String)
  | repeatedField (field : String)
  deriving DecidableEq

inductive Problem
  | endInList
  | endInObject
  | endInText
  | endInValue
  | noColon
  | noCommaInList
  | noCommaInObject
  | noWord
  | noValue
  | badEscape
  | badNumber
  | numberTooLarge
  | badCharacter
  | controlCharacter
  | keyIsNoText
  /-- An escape for one half of a pair, without the other half. -/
  | halfPair
  /-- No second escape after the first half of a pair. -/
  | endOfEscape
  | trailingComma
  | trailingBytes
  | mismatch (cause : Mismatch)
  deriving DecidableEq

/-- The three ways in which a text can be wrong. -/
inductive ProblemKind
  | malformed
  | mismatch
  | unfinished
  deriving DecidableEq

structure Defect where
  problem : Problem
  /-- Lines are counted from one. -/
  line : Nat
  /-- How many bytes of the line were read. -/
  column : Nat
  deriving DecidableEq

def Number.describe : Number → String
  | whole number => "integer `" ++ toString number ++ "`"
  | negative magnitude => "integer `-" ++ toString magnitude ++ "`"
  | fractional number => "floating point `" ++ floatText number ++ "`"

def Found.describe : Found → String
  | null => "null"
  | truth true => "boolean `true`"
  | truth false => "boolean `false`"
  | number value => value.describe
  | text content => "string " ++ Quoted.write content
  | list => "sequence"
  | object => "map"

def Mismatch.message : Mismatch → String
  | kind found expected => "invalid type: " ++ found.describe ++ ", expected " ++ expected
  | range found expected => "invalid value: " ++ found.describe ++ ", expected " ++ expected
  | name found => "unknown variant `" ++ found ++ "`"
  | missingField field => "missing field `" ++ field ++ "`"
  | repeatedField field => "duplicate field `" ++ field ++ "`"

namespace Problem

def kind : Problem → ProblemKind
  | endInList | endInObject | endInText | endInValue => .unfinished
  | mismatch _ => .mismatch
  | _ => .malformed

def message : Problem → String
  | endInList => "EOF while parsing a list"
  | endInObject => "EOF while parsing an object"
  | endInText => "EOF while parsing a string"
  | endInValue => "EOF while parsing a value"
  | noColon => "expected `:`"
  | noCommaInList => "expected `,` or `]`"
  | noCommaInObject => "expected `,` or `\x7d`"
  | noWord => "expected ident"
  | noValue => "expected value"
  | badEscape => "invalid escape"
  | badNumber => "invalid number"
  | numberTooLarge => "number out of range"
  | badCharacter => "invalid unicode code point"
  | controlCharacter => "control character (\\u0000-\\u001F) found while parsing a string"
  | keyIsNoText => "key must be a string"
  | halfPair => "lone leading surrogate in hex escape"
  | endOfEscape => "unexpected end of hex escape"
  | trailingComma => "trailing comma"
  | trailingBytes => "trailing characters"
  | mismatch cause => cause.message

end Problem

namespace Defect

def kind (defect : Defect) : ProblemKind := defect.problem.kind

def message (defect : Defect) : String :=
  s!"{defect.problem.message} at line {defect.line} column {defect.column}"

end Defect

/-! ## Readers -/

/-- Where a reader stopped, and why. -/
structure Stop where
  problem : Problem
  /-- How many bytes lie behind the place. -/
  left : Nat
  deriving DecidableEq

/-- Takes a thing from the front of the input and returns what is left. -/
abbrev Reader (Item : Type) := Bytes → Except Stop (Item × Bytes)

/-- Stops in front of what is left. -/
def stop {Item : Type} (problem : Problem) (left : Bytes) : Except Stop Item :=
  .error ⟨problem, left.length⟩

/-- Stops behind the first byte of what is left, or at the end. -/
def stopBehind {Item : Type} (problem : Problem) (left : Bytes) : Except Stop Item :=
  .error ⟨problem, left.length - 1⟩

/-- The code of an ASCII character. -/
def code (letter : Char) : UInt8 := letter.toNat.toUInt8

/-- The line and column that a reader of `text` had come to when it stopped. -/
def Stop.defect (text : Bytes) (stop : Stop) : Defect :=
  let seen := (text.take (text.length - stop.left)).reverse
  ⟨stop.problem, seen.count (code '\n') + 1, (seen.takeWhile (· ≠ code '\n')).length⟩

example : (Stop.mk .noValue 2).defect [10, 10, 65, 66, 67, 68] = ⟨.noValue, 3, 2⟩ := by decide

def isBlank (byte : UInt8) : Bool :=
  byte = 0x20 || byte = 0x0A || byte = 0x0D || byte = 0x09

def isDigit (byte : UInt8) : Bool := code '0' ≤ byte && byte ≤ code '9'

def digitValue (byte : UInt8) : Nat := byte.toNat - 48

def skipBlanks (input : Bytes) : Bytes := input.dropWhile isBlank

/-- Takes the rest of a word such as `null` after its first letter. -/
def word : (letters : List Char) → Reader Unit
  | [], input => .ok ((), input)
  | _ :: _, [] => stop .endInValue []
  | letter :: letters, byte :: input =>
    if byte = code letter then word letters input else stop .noWord input

end TierVault.Json
