import TierVault.Compression.Frame
import TierVault.FileSystem.Calls
import TierVault.Value.Codec

/-!
Spill files: one value in one compressed file.

A file's name shows for which variable it was written. An identifier in it keeps names of several
files apart, also where the variables have one name.
-/

namespace TierVault

/-- Why a value was not written to a file or read from it. -/
inductive SpillError
  | io (error : IoError)
  | codec (error : CodecError)
  | compression (error : CompressionError)
  deriving DecidableEq

abbrev SpillAction (Result : Type) := EStateM SpillError FileSystem Result

namespace SpillAction

variable {Result : Type}

def ofExcept {Error : Type} (wrap : Error → SpillError) : Except Error Result → SpillAction Result
  | .ok result => pure result
  | .error error => throw (wrap error)

/-- A call on files. -/
def onFiles (action : FileAction Result) : SpillAction Result := fun files =>
  match action files with
  | .ok result files => .ok result files
  | .error error files => .error (.io error) files

end SpillAction

namespace SpillFile

open SpillAction

/-! ## Names -/

/-- Letters, digits, hyphens and underscores of ASCII. -/
def isPlain (letter : Char) : Bool := letter.isAlphanum || letter = '-' || letter = '_'

def stemLength : Nat := 64

/-- The first part of a file's name: that of the variable, cut short, with an underscore for each
letter that is not plain. -/
def stem (name : String) : String :=
  let letters := (name.toList.take stemLength).map fun letter => if isPlain letter then letter else '_'
  if letters.isEmpty then "value" else String.ofList letters

def nameFor (name identifier : String) : String := stem name ++ "_" ++ identifier ++ ".spill"

example : nameFor "frame/1" "7f" = "frame_1_7f.spill" := by decide

/-! ## Files -/

/-- Writes a value to a new file of a directory, and tells the file's length. -/
def write (compressor : Compressor) (directory file : String) (value : Value) : SpillAction Nat := do
  let encoded ← ofExcept .codec value.encode
  let frame := compressor.compress encoded
  onFiles (FileSystem.makeDirectories directory)
  onFiles (FileSystem.writeFile (FileName.join directory file) frame)
  return frame.length

def read (compressor : Compressor) (name : String) : SpillAction Value := do
  let frame ← onFiles (FileSystem.readFile name)
  let encoded ← ofExcept .compression (compressor.decompress frame)
  ofExcept .codec (Value.decode encoded)

end SpillFile

end TierVault
