import TierVault.FileName
import TierVault.FileSystem.Basic

/-!
Which path a name leads to.

A name is followed piece by piece. Each piece must be looked up in a directory that is there, also one
that leads nowhere: so a slash at the end asks for a directory, and two dots cannot lead out of
something that is missing. Names and their pieces have a greatest length.
-/

namespace TierVault.FileSystem

/-- Names are shorter than this, in bytes. -/
def nameLimit : Nat := 4096

/-- The longest piece, in bytes. -/
def pieceLimit : Nat := 255

/-- The pieces of a name that can be looked up at all. -/
def piecesOf (name : String) : Except IoError (List String) :=
  if name.toList.contains '\x00' then .error .invalidName
  else if name.isEmpty then .error .notFound
  else if nameLimit ≤ name.utf8ByteSize then .error .nameTooLong
  else .ok (FileName.pieces name)

/-- Where a name begins. -/
def origin (files : FileSystem) (pieces : List String) : Path :=
  if pieces.head? = some "" then [] else files.workingDirectory

/-- Why a path is no directory. -/
def missing (files : FileSystem) (path : Path) : IoError :=
  if files.isThere path then .notADirectory else .notFound

/-- Where a walk stands. -/
structure Position where
  /-- What stands at the root and below it. -/
  root : PathTree Node
  /-- The names passed, the last one first, each with what stands there and below. -/
  passed : List (String × PathTree Node)

namespace Position

def path (position : Position) : Path := (position.passed.map Prod.fst).reverse

/-- What stands here and below. -/
def tree (position : Position) : PathTree Node :=
  (position.passed.head?.map Prod.snd).getD position.root

def isDirectory (position : Position) : Bool :=
  position.passed.isEmpty || position.tree.item?.any Node.isDirectory

def down (position : Position) (name : String) : Position :=
  { position with passed := (name, position.tree.step name) :: position.passed }

/-- Above the root is the root. -/
def up (position : Position) : Position := { position with passed := position.passed.tail }

def goTo (position : Position) (path : Path) : Position := path.foldl down position

end Position

def positionAt (files : FileSystem) (path : Path) : Position :=
  (Position.mk files.nodes []).goTo path

def followFrom (files : FileSystem) : Position → List String → Except IoError Path
  | position, [] => .ok position.path
  | position, piece :: pieces =>
    if !position.isDirectory then .error (files.missing position.path)
    else if FileName.isIdle piece then followFrom files position pieces
    else if piece = ".." then followFrom files position.up pieces
    else if pieceLimit < piece.utf8ByteSize then .error .nameTooLong
    else followFrom files (position.down piece) pieces

/-- Follows pieces from a path. The thing that the last piece names need not be there. -/
def follow (files : FileSystem) (path : Path) (pieces : List String) : Except IoError Path :=
  files.followFrom (files.positionAt path) pieces

/-- The path of the thing that a name names. -/
def find (files : FileSystem) (name : String) : Except IoError Path := do
  let pieces ← piecesOf name
  let path ← files.follow (files.origin pieces) pieces
  if files.isThere path then return path else .error .notFound

/-- What a name names. -/
def named? (files : FileSystem) (name : String) : Option Node :=
  (files.find name).toOption.bind files.node?

/-- Something of that name is there. -/
def has (files : FileSystem) (name : String) : Bool := (files.find name).isOk

/-- The pieces lead to a directory. -/
def leadsToDirectory (files : FileSystem) (pieces : List String) : Bool :=
  (files.follow (files.origin pieces) pieces).toOption.any files.isDirectory

/-- The path that a new thing gets, whether or not something stands there. Slashes at the end do not
count; a name that ends with dots is always `taken`. -/
def newPath (files : FileSystem) (taken : IoError) (pieces : List String) : Except IoError Path :=
  match pieces.reverse.dropWhile (· = "") with
  | [] => .error taken
  | last :: before => do
    let directory ← files.follow (files.origin pieces) before.reverse
    if !files.isDirectory directory then .error (files.missing directory)
    else if last = "." || last = ".." then .error taken
    else if pieceLimit < last.utf8ByteSize then .error .nameTooLong
    else return directory ++ [last]

/-- The path that a new file gets. A name with a slash at its end is that of a directory. -/
def newFile (files : FileSystem) (name : String) : Except IoError Path := do
  let pieces ← piecesOf name
  let path ← files.newPath .isADirectory pieces
  if pieces.getLast? = some "" then .error .isADirectory else return path

/-- A path as its shortest name. -/
def nameOf (path : Path) : String := "/" ++ "/".intercalate path

/-- The path that the pieces lead to if everything on the way were a directory. -/
def locate (files : FileSystem) (pieces : List String) : Path :=
  pieces.foldl (fun path piece =>
    if FileName.isIdle piece then path else if piece = ".." then path.dropLast else path ++ [piece])
    (files.origin pieces)

namespace Position

theorem map_fst_goTo (position : Position) (path : Path) :
    (position.goTo path).passed.map Prod.fst = path.reverse ++ position.passed.map Prod.fst := by
  induction path generalizing position with
  | nil => rfl
  | cons name path induction =>
    have later := induction (position.down name)
    simpa [goTo, down] using later

theorem tree_goTo (position : Position) (path : Path) :
    (position.goTo path).tree = position.tree.walk path := by
  induction path generalizing position with
  | nil => rfl
  | cons name path induction => exact induction (position.down name)

end Position

@[simp] theorem path_positionAt (files : FileSystem) (path : Path) :
    (files.positionAt path).path = path := by
  simp [positionAt, Position.path, Position.map_fst_goTo]

@[simp] theorem isDirectory_positionAt (files : FileSystem) (path : Path) :
    (files.positionAt path).isDirectory = files.isDirectory path := by
  have names := Position.map_fst_goTo ⟨files.nodes, []⟩ path
  have empty : (files.positionAt path).passed.isEmpty = path.isEmpty := by
    rw [← List.isEmpty_map, positionAt, names]
    simp
  have tree : (files.positionAt path).tree = files.nodes.walk path := Position.tree_goTo _ path
  cases path with
  | nil => simp [Position.isDirectory, empty, isDirectory, node?, Node.isDirectory]
  | cons name path =>
    simp [Position.isDirectory, empty, tree, isDirectory, node?, PathTree.find?]

@[simp] theorem down_positionAt (files : FileSystem) (path : Path) (name : String) :
    (files.positionAt path).down name = files.positionAt (path ++ [name]) := by
  simp [positionAt, Position.goTo]

@[simp] theorem up_positionAt (files : FileSystem) (path : Path) :
    (files.positionAt path).up = files.positionAt path.dropLast := by
  by_cases inside : path = []
  · subst inside
    rfl
  · have last := List.dropLast_concat_getLast inside
    conv => lhs; rw [← last]
    simp [positionAt, Position.goTo, Position.down, Position.up]

@[simp] theorem follow_nil (files : FileSystem) (path : Path) : files.follow path [] = .ok path := by
  simp [follow, followFrom]

/-- One piece asks for a directory and leads on, up or nowhere. -/
theorem follow_cons (files : FileSystem) (path : Path) (piece : String) (pieces : List String) :
    files.follow path (piece :: pieces) =
      if !files.isDirectory path then .error (files.missing path)
      else if FileName.isIdle piece then files.follow path pieces
      else if piece = ".." then files.follow path.dropLast pieces
      else if pieceLimit < piece.utf8ByteSize then .error .nameTooLong
      else files.follow (path ++ [piece]) pieces := by
  simp [follow, followFrom]

theorem follow_append (files : FileSystem) (path : Path) (front rest : List String) :
    files.follow path (front ++ rest) =
      (files.follow path front).bind fun path => files.follow path rest := by
  induction front generalizing path with
  | nil => simp [Except.bind]
  | cons piece front induction =>
    simp only [List.cons_append, follow_cons]
    split
    · rfl
    · split
      · exact induction _
      · split
        · exact induction _
        · split
          · rfl
          · exact induction _

end TierVault.FileSystem
