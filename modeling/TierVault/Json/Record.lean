import TierVault.Json.Kinds
import TierVault.Json.Skip

/-!
Reading records from JSON text.

A record is an object of its fields, of which unknown ones are skipped, or a list of its fields in
their order. A known field may stand in an object once.
-/

namespace TierVault.Json

/-- A field of a record: its name, whether it may be missing, and how reading it changes the
record. -/
structure RecordField (Record : Type) where
  name : String
  optional : Bool
  read : Record → Reader Record

/-- A field that is read by `read` and put in place by `put`. -/
def field {Record Item : Type} (name : String) (read : Reader Item)
    (put : Record → Item → Record) (optional : Bool) : RecordField Record where
  name := name
  optional := optional
  read record input := do
    let (item, rest) ← read input
    return (put record item, rest)

/-- What is left of an object that is given up: its end is passed if it comes next. -/
def leaveObject (input : Bytes) : Bytes :=
  match skipBlanks input with
  | [] => []
  | byte :: rest => if byte = code '\x7d' then rest else byte :: rest

/-- The fields of a record in an object, up to its end. -/
def recordMembers {Record : Type} (fields : List (RecordField Record)) : (bound : Nat) →
    (first : Bool) → (seen : List String) → Record → Reader Record
  | 0, _, _, _, input => stop .endInObject input
  | bound + 1, first, seen, record, input => do
    let (key?, rest) ← nextKey first input
    match key? with
    | none =>
      match fields.find? fun field => !(field.optional || seen.contains field.name) with
      | some field => stop (.mismatch (.missingField field.name)) (leaveObject rest)
      | none =>
        let (_, rest) ← closeObject rest
        return (record, rest)
    | some key =>
      match fields.find? (·.name == key) with
      | some field =>
        if seen.contains key then stop (.mismatch (.repeatedField key)) (leaveObject rest)
        let (_, rest) ← colon rest
        let (record, rest) ← field.read record rest
        recordMembers fields bound false (key :: seen) record rest
      | none =>
        let (_, rest) ← colon rest
        let (_, rest) ← skip rest
        recordMembers fields bound false seen record rest

/-- The fields of a record in a list, in their order; optional ones may be missing at the end. -/
def recordElements {Record : Type} : (fields : List (RecordField Record)) → (first : Bool) → Record →
    Reader Record
  | [], _, record, input => do
    let (_, rest) ← closeList input
    return (record, rest)
  | field :: fields, first, record, input => do
    let (more, rest) ← nextElement first input
    if more then
      let (record, rest) ← field.read record rest
      recordElements fields false record rest
    else if field.optional then recordElements fields first record rest
    else stop (.mismatch (.missingField field.name)) rest

/-- A record as an object or as a list of its fields. Missing fields keep their values in `start`. -/
def record {Record : Type} (expected : String) (fields : List (RecordField Record))
    (start : Record) : Reader Record := atValue fun byte rest =>
  if byte = code '\x7b' then recordMembers fields (rest.length + 1) true [] start rest
  else if byte = code '[' then recordElements fields true start rest
  else unexpected expected (byte :: rest)

/-- The whole text as one value. -/
def whole {Item : Type} (read : Reader Item) (text : Bytes) : Except Defect Item :=
  let item : Except Stop Item := do
    let (item, rest) ← read text
    match skipBlanks rest with
    | [] => return item
    | byte :: rest => stopBehind .trailingBytes (byte :: rest)
  item.mapError (·.defect text)

end TierVault.Json
