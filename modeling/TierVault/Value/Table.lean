import TierVault.Binary64
import TierVault.Sums
import TierVault.Text.Utf8

/-!
Column-oriented tables.

A table built by `Table.ofColumns` has columns of one length and of distinct names. A table that was
decoded from bytes may have neither, so a slice of it can fall outside one of its columns.
-/

namespace TierVault

inductive ColumnData
  | integers (items : List Int64)
  | floats (items : List Binary64)
  | texts (items : List String)
  | flags (items : List Bool)
  deriving DecidableEq, Inhabited

structure Column where
  name : String
  data : ColumnData
  deriving DecidableEq, Inhabited

structure Table where
  columns : List Column
  deriving DecidableEq, Inhabited

inductive TableError
  | lengthMismatch (name : String) (expected actual : Nat)
  | duplicateColumn (name : String)
  deriving DecidableEq

def TableError.message : TableError → String
  | .lengthMismatch name expected actual =>
      s!"Column '{name}' has {actual} rows, expected {expected}"
  | .duplicateColumn name => s!"Duplicate column name '{name}'"

def utf8Length (text : String) : Nat := text.utf8ByteSize

/-- The items from `start` up to `stop`, which must lie inside the list. -/
def checkedSlice {Item : Type} (items : List Item) (start stop : Nat) : Except Fault (List Item) :=
  if items.length < start then .error (.sliceStart start items.length)
  else if items.length < stop then .error (.sliceEnd stop items.length)
  else .ok ((items.drop start).take (stop - start))

namespace ColumnData

def length : ColumnData → Nat
  | .integers items => items.length
  | .floats items => items.length
  | .texts items => items.length
  | .flags items => items.length

/-- Approximate bytes in memory. A text item costs 24 bytes beside its own. -/
def footprint : ColumnData → Nat
  | .integers items => items.length * 8
  | .floats items => items.length * 8
  | .texts items => sumOf (items.map fun text => utf8Length text + 24)
  | .flags items => items.length

def slice (data : ColumnData) (start stop : Nat) : Except Fault ColumnData :=
  match data with
  | .integers items => return .integers (← checkedSlice items start stop)
  | .floats items => return .floats (← checkedSlice items start stop)
  | .texts items => return .texts (← checkedSlice items start stop)
  | .flags items => return .flags (← checkedSlice items start stop)

/-- Items compare one by one, floats as numbers. -/
def equals : ColumnData → ColumnData → Bool
  | .integers left, .integers right => left == right
  | .floats left, .floats right =>
      left.length == right.length && (left.zip right).all fun (a, b) => a.equals b
  | .texts left, .texts right => left == right
  | .flags left, .flags right => left == right
  | _, _ => false

end ColumnData

namespace Table

def empty : Table := ⟨[]⟩

/-- Checks the columns after `seen` in order: first the length, then the name. -/
def check (expected : Nat) (seen : List String) : List Column → Except TableError Unit
  | [] => .ok ()
  | column :: rest =>
    if column.data.length ≠ expected then
      .error (.lengthMismatch column.name expected column.data.length)
    else if column.name ∈ seen then .error (.duplicateColumn column.name)
    else check expected (column.name :: seen) rest

def ofColumns : List Column → Except TableError Table
  | [] => .ok empty
  | first :: rest => do
    check first.data.length [] (first :: rest)
    return ⟨first :: rest⟩

/-- Columns of one length and of pairwise distinct names. -/
def Regular (table : Table) : Prop :=
  (∀ left ∈ table.columns, ∀ right ∈ table.columns, left.data.length = right.data.length) ∧
    (table.columns.map Column.name).Nodup

def rowCount (table : Table) : Nat :=
  match table.columns with
  | [] => 0
  | first :: _ => first.data.length

def column? (table : Table) (name : String) : Option ColumnData :=
  (table.columns.find? (·.name == name)).map Column.data

/-- Rows from `offset` on, `count` of them, as far as the first column has them. -/
def slice (table : Table) (offset count : Nat) : Except Fault Table := do
  let start := min offset table.rowCount
  let stop := min (Word.saturatingSum offset count) table.rowCount
  let columns ← table.columns.mapM fun column =>
    return { column with data := ← column.data.slice start stop }
  return ⟨columns⟩

/-- Approximate bytes in memory. -/
def footprint (table : Table) : Nat :=
  sumOf (table.columns.map fun column => utf8Length column.name + column.data.footprint)

def equals (left right : Table) : Bool :=
  left.columns.length == right.columns.length &&
    (left.columns.zip right.columns).all fun (a, b) => a.name == b.name && a.data.equals b.data

example : ofColumns [⟨"a", .integers [1, 2]⟩, ⟨"b", .flags [true]⟩] =
    .error (.lengthMismatch "b" 2 1) := rfl

end Table

end TierVault
