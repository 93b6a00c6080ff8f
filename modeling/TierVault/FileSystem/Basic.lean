import TierVault.Columnar
import TierVault.PathTree
import TierVault.RecencyList
import TierVault.Text.Utf8

/-!
A tree of directories and files.

Each thing stands at a path, in a directory at the path above it. Beside plain files there are
databases, whose content is a list of rows, columnar files, which hold a table, and files of zeros,
which are kept by their length. Each call that touches the medium is counted, and the medium may refuse
a call by its number; a refused call changes nothing. The medium also tells the time.
-/

namespace TierVault

/-- A stored payload of a database. -/
structure Blob where
  payload : Bytes
  compressed : Bool
  /-- Reads since it was stored. -/
  accessCount : Nat
  deriving DecidableEq, Inhabited

/-- The rows of a database, least recently used first. -/
abbrev Rows := List (Resident Blob)

inductive Node
  | directory
  | file (content : Bytes)
  | zeros (length : Nat)
  | database (rows : Rows)
  | columnar (file : Columnar.File)
  deriving Inhabited

inductive IoError
  | notFound
  | alreadyExists
  | notADirectory
  | isADirectory
  | nameTooLong
  /-- A name holds the null character. -/
  | invalidName
  | invalidData
  | unexpectedEnd
  | other
  deriving DecidableEq, Inhabited

/-- The name of the kind of error. -/
def IoError.kind : IoError → String
  | notFound => "NotFound"
  | alreadyExists => "AlreadyExists"
  | notADirectory => "NotADirectory"
  | isADirectory => "IsADirectory"
  | nameTooLong => "InvalidFilename"
  | invalidName => "InvalidInput"
  | invalidData => "InvalidData"
  | unexpectedEnd => "UnexpectedEof"
  | other => "Other"

def IoError.message : IoError → String
  | notFound => "No such file or directory (os error 2)"
  | alreadyExists => "File exists (os error 17)"
  | notADirectory => "Not a directory (os error 20)"
  | isADirectory => "Is a directory (os error 21)"
  | nameTooLong => "File name too long (os error 36)"
  | invalidName => "file name contained an unexpected NUL byte"
  | invalidData => "stream did not contain valid UTF-8"
  | unexpectedEnd => "incomplete frame"
  | other => "other error"

structure FileSystem where
  nodes : PathTree Node
  workingDirectory : Path
  /-- How many calls were made so far. -/
  calls : Nat
  /-- The calls that the medium refuses. -/
  refuses : Nat → Option IoError
  /-- Seconds on the medium's clock. -/
  seconds : Nat

namespace Node

def isDirectory : Node → Bool
  | directory => true
  | _ => false

/-- Databases are laid out in pages of this length, four of them before any payload. -/
def pageLength : Nat := 4096

/-- The length of a file. -/
def length? : Node → Option Nat
  | directory => none
  | file content => some content.length
  | zeros length => some length
  | database rows => some (4 * pageLength + sumOf (rows.map fun row => row.item.payload.length))
  | columnar content => some content.length

/-- The bytes of a file. A database and a columnar file show how they begin, and a byte that no text
has. -/
def content? : Node → Option Bytes
  | directory => none
  | file content => some content
  | zeros length => some (List.replicate length 0)
  | database _ => some (Utf8.encode "SQLite format 3\x00" ++ [0xFF])
  | columnar _ => some (Columnar.magic ++ [0xFF])

/-- What a columnar file holds. Other bytes are no columnar file. -/
def columnar? : Node → Except Columnar.Error Columnar.File
  | columnar content => .ok content
  | _ => .error .format

end Node

namespace FileSystem

/-- A tree with the working directory in it, on a medium that refuses nothing. -/
def start (workingDirectory : Path) : FileSystem where
  nodes := (List.range workingDirectory.length).foldl
    (fun nodes depth => nodes.put (workingDirectory.take (depth + 1)) .directory) .empty
  workingDirectory := workingDirectory
  calls := 0
  refuses _ := none
  seconds := 0

/-- What stands at a path. The root is always a directory. -/
def node? (files : FileSystem) (path : Path) : Option Node :=
  if path = [] then some .directory else files.nodes.find? path

def place (files : FileSystem) (path : Path) (node : Node) : FileSystem :=
  { files with nodes := files.nodes.put path node }

def discard (files : FileSystem) (path : Path) : FileSystem :=
  { files with nodes := files.nodes.remove path }

def isThere (files : FileSystem) (path : Path) : Bool := (files.node? path).isSome

def isDirectory (files : FileSystem) (path : Path) : Bool :=
  (files.node? path).any Node.isDirectory

/-- Names of the things that stand directly in a directory. -/
def children (files : FileSystem) (directory : Path) : List String :=
  (files.nodes.walk directory).names

/-- Everything below a directory. -/
def below (files : FileSystem) (directory : Path) : Keyed Path Node :=
  (files.nodes.walk directory).entriesBelow directory

theorem node?_place_same {path : Path} (files : FileSystem) (node : Node) (inside : path ≠ []) :
    (files.place path node).node? path = some node := by
  simp [node?, place, inside]

theorem node?_place_other {path other : Path} (files : FileSystem) (node : Node)
    (different : other ≠ path) : (files.place path node).node? other = files.node? other := by
  simp [node?, place, different]

theorem node?_discard_same {path : Path} (files : FileSystem) (inside : path ≠ []) :
    (files.discard path).node? path = none := by
  simp [node?, discard, inside]

theorem node?_discard_other {path other : Path} (files : FileSystem) (different : other ≠ path) :
    (files.discard path).node? other = files.node? other := by
  simp [node?, discard, different]

end FileSystem

end TierVault
