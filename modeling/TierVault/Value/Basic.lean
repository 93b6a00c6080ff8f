import TierVault.Text.Utf8
import TierVault.Value.Table

/-!
Values bound to the variables of a session.

A value is plain data, a table, or a live handle: a connection, an open file, a closure. Data can be
stored in every tier. A live handle exists only in the running process, so a value that contains one
anywhere cannot be stored.
-/

namespace TierVault

/-- A resource of the running process. Two handles are the same when their identities are. -/
structure Handle where
  typeName : String
  identity : Nat
  deriving DecidableEq, Inhabited

def Handle.describe (handle : Handle) : String :=
  "<opaque " ++ handle.typeName ++ ">"

inductive Value
  | null
  | flag (truth : Bool)
  | integer (number : Int64)
  | float (number : Binary64)
  | text (content : String)
  | bytes (content : Bytes)
  | list (items : List Value)
  /-- Fields in increasing order of their names. -/
  | map (fields : List (String × Value))
  | table (content : Table)
  | live (handle : Handle)
  deriving Inhabited

namespace Value

def typeName : Value → String
  | null => "null"
  | flag _ => "bool"
  | integer _ => "int"
  | float _ => "float"
  | text _ => "text"
  | bytes _ => "bytes"
  | list _ => "list"
  | map _ => "map"
  | table _ => "table"
  | live _ => "opaque"

/-! ## Maps -/

/-- Adds a field in its place; a field of the same name is replaced. -/
def insertField (name : String) (value : Value) :
    List (String × Value) → List (String × Value)
  | [] => [(name, value)]
  | (other, held) :: rest =>
    if TextOrder.before name other then (name, value) :: (other, held) :: rest
    else if name = other then (name, value) :: rest
    else (other, held) :: insertField name value rest

/-- Of fields with one name the last counts. -/
def mapOfFields (fields : List (String × Value)) : Value :=
  map (fields.foldl (fun built (name, value) => insertField name value built) [])

/-- Field names increase strictly, so each occurs once. -/
def FieldsInOrder (fields : List (String × Value)) : Prop :=
  (fields.map Prod.fst).Pairwise fun left right => TextOrder.before left right

mutual

/-- Every map inside the value has its fields in order. -/
def Ordered : Value → Prop
  | list items => OrderedItems items
  | map fields => FieldsInOrder fields ∧ OrderedFields fields
  | _ => True

def OrderedItems : List Value → Prop
  | [] => True
  | item :: rest => Ordered item ∧ OrderedItems rest

def OrderedFields : List (String × Value) → Prop
  | [] => True
  | (_, value) :: rest => Ordered value ∧ OrderedFields rest

end

mutual

/-- Every table inside the value is regular. -/
def RegularTables : Value → Prop
  | list items => RegularTablesItems items
  | map fields => RegularTablesFields fields
  | table content => content.Regular
  | _ => True

def RegularTablesItems : List Value → Prop
  | [] => True
  | item :: rest => RegularTables item ∧ RegularTablesItems rest

def RegularTablesFields : List (String × Value) → Prop
  | [] => True
  | (_, value) :: rest => RegularTables value ∧ RegularTablesFields rest

end

/-! ## Size and kind -/

/-- Bytes that every value costs in memory beside its content. -/
def headerBytes : Nat := 40

mutual

/-- Approximate bytes in memory, found without encoding the value. -/
def footprint : Value → Nat
  | text content => headerBytes + utf8Length content
  | bytes content => headerBytes + content.length
  | list items => headerBytes + footprintItems items
  | map fields => headerBytes + footprintFields fields
  | table content => headerBytes + content.footprint
  | _ => headerBytes

def footprintItems : List Value → Nat
  | [] => 0
  | item :: rest => footprint item + footprintItems rest

def footprintFields : List (String × Value) → Nat
  | [] => 0
  | (name, value) :: rest => utf8Length name + footprint value + footprintFields rest

end

mutual

/-- No live handle occurs in the value. -/
def isSerializable : Value → Bool
  | live _ => false
  | list items => areSerializable items
  | map fields => haveSerializableValues fields
  | _ => true

def areSerializable : List Value → Bool
  | [] => true
  | item :: rest => isSerializable item && areSerializable rest

def haveSerializableValues : List (String × Value) → Bool
  | [] => true
  | (_, value) :: rest => isSerializable value && haveSerializableValues rest

end

/-- Number of elements of a collection; a scalar has none. -/
def length? : Value → Option Nat
  | text content => some content.length
  | bytes content => some content.length
  | list items => some items.length
  | map fields => some fields.length
  | table content => some content.rowCount
  | _ => none

/-- Scalars are never empty. -/
def isEmpty (value : Value) : Bool :=
  value.length? == some 0

def item? (value : Value) (index : Nat) : Option Value :=
  match value with
  | list items => items[index]?
  | _ => none

def field? (value : Value) (name : String) : Option Value :=
  match value with
  | map fields => (fields.find? (·.1 == name)).map Prod.snd
  | _ => none

/-- The items of a list or the values of a map. -/
def children : Value → List Value
  | list items => items
  | map fields => fields.map Prod.snd
  | _ => []

def table? : Value → Option Table
  | table content => some content
  | _ => none

/-! ## Equality -/

mutual

/-- Floats compare as numbers and live handles by identity, so a value that holds a NaN differs
from itself. -/
def equals : Value → Value → Bool
  | null, null => true
  | flag left, flag right => left == right
  | integer left, integer right => left == right
  | float left, float right => left.equals right
  | text left, text right => left == right
  | bytes left, bytes right => left == right
  | list left, list right => equalItems left right
  | map left, map right => equalFields left right
  | table left, table right => left.equals right
  | live left, live right => left.identity == right.identity
  | _, _ => false

def equalItems : List Value → List Value → Bool
  | [], [] => true
  | left :: restLeft, right :: restRight => equals left right && equalItems restLeft restRight
  | _, _ => false

def equalFields : List (String × Value) → List (String × Value) → Bool
  | [], [] => true
  | (leftName, left) :: restLeft, (rightName, right) :: restRight =>
      leftName == rightName && equals left right && equalFields restLeft restRight
  | _, _ => false

end

example : (mapOfFields [("b", null), ("a", flag true), ("b", flag false)]).field? "b" =
    some (flag false) := rfl

end Value

end TierVault
