import TierVault.CommandLine.Run
import TierVault.Memory.Reading
import TierVault.Store.Image
import TierVault.Zstandard.Codec

/-!
The program on a machine.

What a run may look at is taken from the machine into a tree of files, the run works on the tree, and
then the machine is brought to what the run left.
-/

namespace TierVault.Machine

/-- A path as the machine takes it. -/
def place (path : Path) := do
  let directory ← IO.currentDir
  return directory / FileSystem.nameOf path

/-! ## From the machine -/

def nodeAt? (path : Path) : IO (Option Node) := do
  let place ← place path
  if ← place.isDir then return some .directory
  if ← place.pathExists then return some (.ofImage (← IO.FS.readBinFile place).toList)
  return none

/-- Takes in what stands at a path and the directories above it. -/
def takeIn (path : Path) (files : FileSystem) : IO FileSystem := do
  let mut files := files
  for depth in List.range path.length do
    let above := path.take (depth + 1)
    if let some node ← nodeAt? above then files := files.place above node
  return files

/-- Takes in all that is looked at on the way to what a name names. -/
def takeInNamed (name : String) (files : FileSystem) : IO FileSystem := do
  let pieces := FileName.pieces name
  let mut files := files
  for length in List.range pieces.length do
    files ← takeIn (files.locate (pieces.take (length + 1))) files
  return files

/-- Takes in what stands below a directory. -/
partial def takeInBelow (path : Path) (files : FileSystem) : IO FileSystem := do
  let mut files := files
  for entry in ← (← place path).readDir do
    let path := path ++ [entry.fileName]
    if let some node ← nodeAt? path then
      files := files.place path node
      if node.isDirectory then files ← takeInBelow path files
  return files

def takeInTree (name : String) (files : FileSystem) : IO FileSystem := do
  let files ← takeInNamed name files
  let path := files.locate (FileName.pieces name)
  if files.isDirectory path then takeInBelow path files else return files

/-- Takes in the file of a database and what stands beside it. -/
def takeInDatabase (name : String) (files : FileSystem) : IO FileSystem := do
  let some file := (DatabaseName.parse name).toOption.bind DatabaseName.file? | return files
  let mut files := files
  for ending in ["", Connection.journalEnding, Connection.logEnding, Connection.logIndexEnding] do
    files ← takeInNamed (file ++ ending) files
  return files

/-- Takes in what a run with the arguments may look at. -/
def filesFor (arguments : List String) : IO FileSystem := do
  let directory ← IO.currentDir
  let now ← (directory / "/proc/self").metadata
  let files := { FileSystem.start ((FileName.pieces directory.toString).filter (· ≠ "")) with
    seconds := now.modified.sec.toNat }
  match CommandLine.Invocation.ofArguments arguments with
  | .error _ => return files
  | .ok invocation =>
    let files ← takeInNamed invocation.config files
    match invocation.command, CommandLine.settings invocation files with
    | .scan name _, _ => takeInNamed name files
    | .memory, _ | _, .error _ => return files
    | _, .ok config =>
      let files ← takeInTree config.cache.directory files
      takeInDatabase (FileName.join config.cache.databaseDirectory "cache.db") files

def sources : IO SessionSources := do
  let start ← IO.monoNanosNow
  let process ← IO.FS.readFile "/proc/self/statm"
  let machine ← IO.FS.readFile "/proc/meminfo"
  return {
    codec := Zstandard.codec
    clock := fun reading => start + reading
    probe := fun _ => .ofSystem process machine
    identifier := fun number => Hexadecimal.ofNat 32 (start * Word.limit + number) }

/-! ## To the machine -/

/-- Removes what is gone or has another kind, the lower things first. -/
def removeOld (before after : FileSystem) : IO Unit := do
  for (path, node) in (before.below []).mergeSort fun left right => left.1.length ≥ right.1.length do
    let stays := (after.node? path).any fun left => left.isDirectory == node.isDirectory
    if !stays then
      let place ← place path
      if node.isDirectory then IO.FS.removeDir place else IO.FS.removeFile place

/-- Writes what is new or has another content, the upper things first. -/
def writeNew (before after : FileSystem) : IO Unit := do
  for (path, node) in (after.below []).mergeSort fun left right => left.1.length ≤ right.1.length do
    let place ← place path
    match node.image? with
    | none => if !before.isDirectory path then IO.FS.createDir place
    | some content =>
      if (before.node? path).bind Node.image? ≠ some content then
        IO.FS.writeBinFile place ⟨content.toArray⟩

/-- Runs the program and gives its exit code. -/
def run (arguments : List String) : IO UInt32 := do
  let before ← filesFor arguments
  let (outcome, after) := CommandLine.run (← sources) arguments before
  removeOld before after
  writeNew before after
  IO.print outcome.output
  outcome.log.forM IO.println
  IO.eprint outcome.diagnostics
  return outcome.code.toUInt32

end TierVault.Machine

def main (arguments : List String) : IO UInt32 :=
  TierVault.Machine.run arguments
