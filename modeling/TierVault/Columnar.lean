import TierVault.Value.Table

/-!
Columnar files of tables.

A columnar file holds one table, column by column. Only a table that has a column, and whose columns
have one length, can be written. Reading checks the table again, so columns of one name can be written
but not read back.
-/

namespace TierVault.Columnar

inductive Error
  | noColumns
  /-- The columns have different lengths. -/
  | ragged
  /-- The compression level is none of the format, or the bytes are no columnar file. -/
  | format
  | table (error : TableError)
  deriving DecidableEq

def Error.message? : Error → Option String
  | .noColumns => some "Table without columns has no columnar form"
  | .table error => some error.message
  | .ragged | .format => none

/-- What a columnar file holds. -/
structure File where
  columns : List Column
  deriving DecidableEq, Inhabited

/-- The bytes that begin and end every columnar file. -/
def magic : Bytes := [0x50, 0x41, 0x52, 0x31]

/-- The length of a file whose columns are not compressed. -/
def File.length (file : File) : Nat :=
  2 * magic.length + sumOf (file.columns.map fun column =>
    utf8Length column.name + column.data.footprint)

def supports (table : Table) : Bool :=
  !table.columns.isEmpty

/-- Levels of column compression. -/
def isLevel (level : Int) : Bool := 1 ≤ level && level ≤ 22

def isRagged (table : Table) : Bool :=
  table.columns.any fun column => column.data.length != table.rowCount

/-- Writes a table as a file; with a level its columns are compressed. -/
def write (table : Table) (level : Option Int) : Except Error File :=
  if !supports table then .error .noColumns
  else if isRagged table then .error .ragged
  else if level.any (!isLevel ·) then .error .format
  else .ok ⟨table.columns⟩

def read (file : File) : Except Error Table :=
  match Table.ofColumns file.columns with
  | .ok table => .ok table
  | .error error => .error (.table error)

end TierVault.Columnar
