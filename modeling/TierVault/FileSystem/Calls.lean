import TierVault.FileSystem.Lookup

/-!
Calls on a tree of files, by name.
-/

namespace TierVault

abbrev FileAction (Result : Type) := EStateM IoError FileSystem Result

namespace FileSystem

def ofExcept {Result : Type} : Except IoError Result → FileAction Result
  | .ok result => pure result
  | .error error => throw error

/-- Counts a call and lets the medium refuse it. -/
def call : FileAction Unit := fun files =>
  let counted := { files with calls := files.calls + 1 }
  match files.refuses files.calls with
  | some error => .error error counted
  | none => .ok () counted

/-! ## Directories -/

def makeDirectoryAt (pieces : List String) : FileAction Unit := do
  call
  let files ← get
  let path ← ofExcept (files.newPath .alreadyExists pieces)
  if files.isThere path then throw .alreadyExists
  set (files.place path .directory)

def makeDirectory (name : String) : FileAction Unit := do
  makeDirectoryAt (← ofExcept (piecesOf name))

/-- Makes a directory unless it is there. -/
def ensureDirectoryAt (pieces : List String) : FileAction Unit :=
  tryCatch (makeDirectoryAt pieces) fun error => do
    if error ≠ .alreadyExists || !(← get).leadsToDirectory pieces then throw error

/-- Makes the first of the directories; if the one above it is missing, that one first. -/
def ensureDirectories : List (List String) → FileAction Unit
  | [] => pure ()
  | pieces :: above =>
    tryCatch (ensureDirectoryAt pieces) fun error => do
      if error ≠ .notFound then throw error
      ensureDirectories above
      ensureDirectoryAt pieces

/-- Makes a directory and what is missing above it. The empty name asks for nothing. -/
def makeDirectories (name : String) : FileAction Unit := do
  if name.isEmpty then return ()
  let pieces ← ofExcept (piecesOf name)
  ensureDirectories (pieces :: FileName.ancestors pieces.length pieces)

/-- Names of the things in a directory. -/
def list (name : String) : FileAction (List String) := do
  call
  let files ← get
  let path ← ofExcept (files.find name)
  if !files.isDirectory path then throw .notADirectory
  return files.children path

/-- Removes a directory and everything below it. -/
def removeTree (name : String) : FileAction Unit := do
  call
  let files ← get
  let path ← ofExcept (files.find name)
  if !files.isDirectory path then throw .notADirectory
  set { files with nodes := files.nodes.cut path }

/-! ## Files -/

/-- Opens what a name names. -/
def openNode (name : String) : FileAction Node := do
  call
  let files ← get
  let path ← ofExcept (files.find name)
  match files.node? path with
  | some node => return node
  | none => throw .notFound

def readFile (name : String) : FileAction Bytes := do
  match (← openNode name).content? with
  | some content => return content
  | none => throw .isADirectory

/-- Puts a file in place of the file of that name, if there is one. -/
def writeNode (name : String) (node : Node) : FileAction Unit := do
  call
  let files ← get
  let path ← ofExcept (files.newFile name)
  if files.isDirectory path then throw .isADirectory
  set (files.place path node)

def writeFile (name : String) (content : Bytes) : FileAction Unit :=
  writeNode name (.file content)

/-- Moves a file over another name. -/
def rename (name target : String) : FileAction Unit := do
  call
  let files ← get
  let path ← ofExcept (files.find name)
  let newPath ← ofExcept (files.newFile target)
  match files.node? path with
  | none => throw .notFound
  | some node =>
    if files.isDirectory newPath then throw .isADirectory
    set ((files.discard path).place newPath node)

def removeFile (name : String) : FileAction Unit := do
  call
  let files ← get
  let path ← ofExcept (files.find name)
  if files.isDirectory path then throw .isADirectory
  set (files.discard path)

end FileSystem

end TierVault
