import TierVault.Decimal
import TierVault.Text.Hexadecimal

/-!
Writing JSON text.

Documents are written compactly, or with one item a line and two spaces for each level. Strings escape
quotes, backslashes and control characters only. A number with a fraction is written with its
shortest digits; an integral one keeps `.0`.
-/

namespace TierVault.Json

inductive Document
  | null
  | truth (truth : Bool)
  | integer (number : Int)
  | float (number : Binary64)
  | string (text : String)
  | list (items : List Document)
  | object (fields : List (String × Document))
  deriving Inhabited

def escapeLetter (letter : Char) : String :=
  if letter = '"' then "\\\""
  else if letter = '\\' then "\\\\"
  else if letter = '\n' then "\\n"
  else if letter = '\r' then "\\r"
  else if letter = '\t' then "\\t"
  else if letter.toNat = 8 then "\\b"
  else if letter.toNat = 12 then "\\f"
  else if letter.toNat < 32 then
    "\\u" ++ Hexadecimal.ofNat 4 letter.toNat
  else letter.toString

def quoted (text : String) : String :=
  "\"" ++ String.join (text.toList.map escapeLetter) ++ "\""

/-- Exponents of the leading digit from -5 to 15 are written without an exponent. NaN and the
infinities have no JSON form and become `null`. -/
def floatText (number : Binary64) : String :=
  if number.isNaN || number.isInfinite then "null"
  else
    let sign := if number.isNegative then "-" else ""
    if number.isZero then sign ++ "0.0"
    else
      let decimal := Decimal.shortest number
      if decimal.leading < -5 || 15 < decimal.leading then sign ++ decimal.scientific
      else if 0 ≤ decimal.exponent then sign ++ decimal.positional ++ ".0"
      else sign ++ decimal.positional

namespace Document

mutual

def compact : Document → String
  | null => "null"
  | truth true => "true"
  | truth false => "false"
  | integer number => toString number
  | float number => floatText number
  | string text => quoted text
  | list items => "[" ++ compactItems items ++ "]"
  | object fields => "\x7b" ++ compactFields fields ++ "\x7d"

def compactItems : List Document → String
  | [] => ""
  | [item] => compact item
  | item :: next :: rest => compact item ++ "," ++ compactItems (next :: rest)

def compactFields : List (String × Document) → String
  | [] => ""
  | [(name, value)] => quoted name ++ ":" ++ compact value
  | (name, value) :: next :: rest =>
      quoted name ++ ":" ++ compact value ++ "," ++ compactFields (next :: rest)

end

def newLine (level : Nat) : String :=
  "\n" ++ String.ofList (List.replicate (2 * level) ' ')

mutual

def prettyAt (level : Nat) : Document → String
  | null => "null"
  | truth true => "true"
  | truth false => "false"
  | integer number => toString number
  | float number => floatText number
  | string text => quoted text
  | list [] => "[]"
  | list (item :: rest) => "[" ++ prettyItems (level + 1) (item :: rest) ++ newLine level ++ "]"
  | object [] => "\x7b\x7d"
  | object (field :: rest) =>
      "\x7b" ++ prettyFields (level + 1) (field :: rest) ++ newLine level ++ "\x7d"

def prettyItems (level : Nat) : List Document → String
  | [] => ""
  | [item] => newLine level ++ prettyAt level item
  | item :: next :: rest =>
      newLine level ++ prettyAt level item ++ "," ++ prettyItems level (next :: rest)

def prettyFields (level : Nat) : List (String × Document) → String
  | [] => ""
  | [(name, value)] => newLine level ++ quoted name ++ ": " ++ prettyAt level value
  | (name, value) :: next :: rest =>
      newLine level ++ quoted name ++ ": " ++ prettyAt level value ++ "," ++
        prettyFields level (next :: rest)

end

def pretty (document : Document) : String := prettyAt 0 document

example : (list [null, integer 3]).compact = "[null,3]" := by decide

end Document

end TierVault.Json
