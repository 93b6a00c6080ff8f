import TierVault.Json.Number
import TierVault.Json.Text

/-!
Reading JSON values of an expected kind.

A reader of a kind knows how the kind is called, and says so when it finds something else.
-/

namespace TierVault.Json

/-- Stops at a value that is not of the expected kind. A value that is none at all is worse. -/
def unexpected {Item : Type} (expected : String) : Reader Item := fun input =>
  let found (found : Found) (rest : Bytes) : Except Stop (Item × Bytes) :=
    stop (.mismatch (.kind found expected)) rest
  match input with
  | [] => stop .endInValue []
  | byte :: rest =>
    if byte = code 'n' then do
      let (_, rest) ← word ['u', 'l', 'l'] rest
      found .null rest
    else if byte = code 't' then do
      let (_, rest) ← word ['r', 'u', 'e'] rest
      found (.truth true) rest
    else if byte = code 'f' then do
      let (_, rest) ← word ['a', 'l', 's', 'e'] rest
      found (.truth false) rest
    else if byte = code '-' then do
      let (number, rest) ← unsigned false rest
      found (.number number) rest
    else if isDigit byte then do
      let (number, rest) ← unsigned true input
      found (.number number) rest
    else if byte = code '"' then do
      let (text, rest) ← stringRest rest
      found (.text text) rest
    else if byte = code '[' then found .list input
    else if byte = code '\x7b' then found .object input
    else stopBehind .noValue input

/-- Hands the first byte that is not blank, and what follows it, to a reader. -/
def atValue {Item : Type} (read : UInt8 → Reader Item) : Reader Item := fun input =>
  match skipBlanks input with
  | [] => stop .endInValue []
  | byte :: rest => read byte rest

/-! ## Numbers -/

def number (expected : String) : Reader Number := atValue fun byte rest =>
  if byte = code '-' then unsigned false rest
  else if isDigit byte then unsigned true (byte :: rest)
  else unexpected expected (byte :: rest)

/-- Stops at a number that an integer kind does not have. -/
def refuse {Item : Type} (number : Number) (expected : String) : Reader Item := fun rest =>
  match number with
  | .fractional _ => stop (.mismatch (.kind (.number number) expected)) rest
  | _ => stop (.mismatch (.range (.number number) expected)) rest

/-- An integer from zero to below `bound`. -/
def natural (bound : Nat) (expected : String) : Reader Nat := fun input => do
  let (number, rest) ← number expected input
  match number with
  | .whole magnitude =>
    if magnitude < bound then return (magnitude, rest) else refuse number expected rest
  | _ => refuse number expected rest

/-- An integer from `-bound` to below `bound`. -/
def integer (bound : Nat) (expected : String) : Reader Int := fun input => do
  let (number, rest) ← number expected input
  match number with
  | .whole magnitude =>
    if magnitude < bound then return (Int.ofNat magnitude, rest) else refuse number expected rest
  | .negative magnitude =>
    if magnitude ≤ bound then return (-(Int.ofNat magnitude), rest)
    else refuse number expected rest
  | .fractional _ => refuse number expected rest

/-- Integers count as numbers too. -/
def float (expected : String) : Reader Binary64 := fun input => do
  let (number, rest) ← number expected input
  match number with
  | .whole number => return (Binary64.ofWord number, rest)
  | .negative magnitude =>
    return (Binary64.ofFloat (-magnitude.toUInt64.toFloat), rest)
  | .fractional number => return (number, rest)

/-! ## Words and strings -/

def truth : Reader Bool := atValue fun byte rest =>
  if byte = code 't' then do
    let (_, rest) ← word ['r', 'u', 'e'] rest
    return (true, rest)
  else if byte = code 'f' then do
    let (_, rest) ← word ['a', 'l', 's', 'e'] rest
    return (false, rest)
  else unexpected "a boolean" (byte :: rest)

def string (expected : String) : Reader String := atValue fun byte rest =>
  if byte = code '"' then stringRest rest else unexpected expected (byte :: rest)

/-- `null` or a value. -/
def optional {Item : Type} (read : Reader Item) : Reader (Option Item) := atValue fun byte rest =>
  if byte = code 'n' then do
    let (_, rest) ← word ['u', 'l', 'l'] rest
    return (none, rest)
  else do
    let (item, rest) ← read (byte :: rest)
    return (some item, rest)

/-! ## Brackets -/

/-- The end of a list. -/
def closeList : Reader Unit := fun input =>
  match skipBlanks input with
  | [] => stop .endInList []
  | byte :: rest =>
    if byte = code ']' then .ok ((), rest)
    else if byte = code ',' then
      match skipBlanks rest with
      | [] => stop .trailingBytes []
      | next :: rest =>
        stopBehind (if next = code ']' then .trailingComma else .trailingBytes) (next :: rest)
    else stopBehind .trailingBytes (byte :: rest)

/-- The end of an object. -/
def closeObject : Reader Unit := fun input =>
  match skipBlanks input with
  | [] => stop .endInObject []
  | byte :: rest =>
    if byte = code '\x7d' then .ok ((), rest)
    else stopBehind (if byte = code ',' then .trailingComma else .trailingBytes) (byte :: rest)

/-- Whether another element follows in a list, up to its first byte. -/
def nextElement (first : Bool) : Reader Bool := fun input =>
  match skipBlanks input with
  | [] => stop .endInList []
  | byte :: rest =>
    if byte = code ']' then .ok (false, byte :: rest)
    else if first then .ok (true, byte :: rest)
    else if byte = code ',' then
      match skipBlanks rest with
      | [] => stop .endInValue []
      | byte :: rest =>
        if byte = code ']' then stopBehind .trailingComma (byte :: rest)
        else .ok (true, byte :: rest)
    else stopBehind .noCommaInList (byte :: rest)

/-- The next key of an object with its colon, or none at the end of the object. -/
def nextKey (first : Bool) : Reader (Option String) := fun input =>
  let key (input : Bytes) : Except Stop (Option String × Bytes) := do
    let (name, rest) ← stringRest input
    return (some name, rest)
  match skipBlanks input with
  | [] => stop .endInObject []
  | byte :: rest =>
    if byte = code '\x7d' then .ok (none, byte :: rest)
    else if first then
      if byte = code '"' then key rest else stopBehind .keyIsNoText (byte :: rest)
    else if byte = code ',' then
      match skipBlanks rest with
      | [] => stop .endInValue []
      | byte :: rest =>
        if byte = code '"' then key rest
        else stopBehind (if byte = code '\x7d' then .trailingComma else .keyIsNoText) (byte :: rest)
    else stopBehind .noCommaInObject (byte :: rest)

def colon : Reader Unit := fun input =>
  match skipBlanks input with
  | [] => stop .endInObject []
  | byte :: rest => if byte = code ':' then .ok ((), rest) else stopBehind .noColon (byte :: rest)

/-! ## Lists and objects of one kind -/

/-- The elements of a list up to its end; those read so far stand in reverse. -/
def elements {Item : Type} (read : Reader Item) : (bound : Nat) → (first : Bool) → List Item →
    Reader (List Item)
  | 0, _, _, input => stop .endInList input
  | bound + 1, first, items, input => do
    let (more, rest) ← nextElement first input
    if more then
      let (item, rest) ← read rest
      elements read bound false (item :: items) rest
    else
      let (_, rest) ← closeList rest
      return (items.reverse, rest)

def listOf {Item : Type} (read : Reader Item) : Reader (List Item) := atValue fun byte rest =>
  if byte = code '[' then elements read (rest.length + 1) true [] rest
  else unexpected "a sequence" (byte :: rest)

/-- The fields of an object up to its end, in the order of the text. -/
def members {Item : Type} (read : Reader Item) : (bound : Nat) → (first : Bool) →
    List (String × Item) → Reader (List (String × Item))
  | 0, _, _, input => stop .endInObject input
  | bound + 1, first, items, input => do
    let (key?, rest) ← nextKey first input
    match key? with
    | none =>
      let (_, rest) ← closeObject rest
      return (items.reverse, rest)
    | some key =>
      let (_, rest) ← colon rest
      let (item, rest) ← read rest
      members read bound false ((key, item) :: items) rest

/-- An object whose values are all of one kind. -/
def objectOf {Item : Type} (read : Reader Item) : Reader (List (String × Item)) :=
  atValue fun byte rest =>
    if byte = code '\x7b' then members read (rest.length + 1) true [] rest
    else unexpected "a map" (byte :: rest)

end TierVault.Json
