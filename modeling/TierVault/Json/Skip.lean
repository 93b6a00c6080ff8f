import TierVault.Json.Number
import TierVault.Json.Text

/-!
Skipping a value that nobody asked for.

Skipping looks at brackets, words and digits but does not interpret them: escapes need not pair up,
and a number may be as large as it likes. There is no limit to the depth of the brackets.
-/

namespace TierVault.Json

/-- A string after its opening quote. -/
def skipString : (bound : Nat) → Reader Unit
  | _, [] => stop .endInText []
  | 0, input => stop .endInText input
  | bound + 1, byte :: input =>
    if byte = code '"' then .ok ((), input)
    else if byte = code '\\' then
      match input with
      | [] => stop .endInText []
      | escape :: rest =>
        if escape = code 'u' then do
          let (_, rest) ← hexUnit rest
          skipString bound rest
        else if (simpleEscape? escape).isSome then skipString bound rest
        else stop .badEscape rest
    else if byte < 0x20 then stop .controlCharacter (byte :: input)
    else skipString bound input

/-- What follows an exponent mark. -/
def skipExponent : Reader Unit := fun input =>
  let input := match input with
    | byte :: rest => if byte = code '+' || byte = code '-' then rest else input
    | [] => input
  match input with
  | byte :: rest => if isDigit byte then .ok ((), rest.dropWhile isDigit) else stop .badNumber rest
  | [] => stop .badNumber []

/-- An exponent, if there is one. -/
def skipExponentPart : Reader Unit
  | byte :: rest => if isExponentMark byte then skipExponent rest else .ok ((), byte :: rest)
  | [] => .ok ((), [])

/-- What follows the integer digits of a number. -/
def skipFraction : Reader Unit
  | byte :: rest =>
    if byte = code '.' then
      match rest with
      | digit :: others =>
        if isDigit digit then skipExponentPart (others.dropWhile isDigit)
        else stopBehind .badNumber rest
      | [] => stop .badNumber []
    else skipExponentPart (byte :: rest)
  | [] => .ok ((), [])

/-- A number after its sign. -/
def skipNumber : Reader Unit
  | byte :: rest =>
    if byte = code '0' then
      match rest with
      | next :: _ => if isDigit next then stopBehind .badNumber rest else skipFraction rest
      | [] => .ok ((), [])
    else if isDigit byte then skipFraction (rest.dropWhile isDigit)
    else stop .badNumber rest
  | [] => stop .badNumber []

/-- An open bracket. -/
inductive Bracket
  | list
  | object
  deriving DecidableEq

namespace Bracket

/-- The text ends inside the bracket. -/
def unclosed : Bracket → Problem
  | list => .endInList
  | object => .endInObject

/-- Something else than a comma or the end of the bracket. -/
def noComma : Bracket → Problem
  | list => .noCommaInList
  | object => .noCommaInObject

def close : Bracket → UInt8
  | list => code ']'
  | object => code '\x7d'

end Bracket

/-- What the skipper expects next. -/
inductive Expecting
  | value
  /-- A key of the innermost object. -/
  | key
  /-- A comma or the end of the innermost bracket; the first thing after an opening bracket may
  also be a value. -/
  | next (first : Bool)

/-- Skips one value. The open brackets are kept in a list. -/
def skipSteps : (bound : Nat) → List Bracket → Expecting → Reader Unit
  | 0, _, _, input => stop .endInValue input
  | bound + 1, brackets, .value, input =>
    let after (rest : Bytes) :=
      if brackets.isEmpty then .ok ((), rest) else skipSteps bound brackets (.next false) rest
    match skipBlanks input with
    | [] => stop .endInValue []
    | byte :: rest =>
      if byte = code 'n' then do
        let (_, rest) ← word ['u', 'l', 'l'] rest
        after rest
      else if byte = code 't' then do
        let (_, rest) ← word ['r', 'u', 'e'] rest
        after rest
      else if byte = code 'f' then do
        let (_, rest) ← word ['a', 'l', 's', 'e'] rest
        after rest
      else if byte = code '-' then do
        let (_, rest) ← skipNumber rest
        after rest
      else if isDigit byte then do
        let (_, rest) ← skipNumber (byte :: rest)
        after rest
      else if byte = code '"' then do
        let (_, rest) ← skipString rest.length rest
        after rest
      else if byte = code '[' then skipSteps bound (.list :: brackets) (.next true) rest
      else if byte = code '\x7b' then skipSteps bound (.object :: brackets) (.next true) rest
      else stopBehind .noValue (byte :: rest)
  | bound + 1, brackets, .key, input =>
    match skipBlanks input with
    | [] => stop .endInObject []
    | byte :: rest =>
      if byte ≠ code '"' then stopBehind .keyIsNoText (byte :: rest)
      else do
        let (_, rest) ← skipString rest.length rest
        match skipBlanks rest with
        | [] => stop .endInObject []
        | byte :: rest =>
          if byte = code ':' then skipSteps bound brackets .value rest
          else stopBehind .noColon (byte :: rest)
  | _ + 1, [], .next _, input => .ok ((), input)
  | bound + 1, bracket :: outer, .next first, input =>
    match skipBlanks input with
    | [] => stop bracket.unclosed []
    | byte :: rest =>
      let inside : Expecting := if bracket = .object then .key else .value
      if byte = code ',' ∧ ¬ first then skipSteps bound (bracket :: outer) inside rest
      else if byte = bracket.close then
        if outer.isEmpty then .ok ((), rest) else skipSteps bound outer (.next false) rest
      else if first then skipSteps bound (bracket :: outer) inside (byte :: rest)
      else stopBehind bracket.noComma (byte :: rest)

/-- Each two steps take at least one byte. -/
def skip : Reader Unit := fun input => skipSteps (2 * input.length + 2) [] .value input

end TierVault.Json
