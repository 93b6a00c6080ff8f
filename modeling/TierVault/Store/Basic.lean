import TierVault.Columnar
import TierVault.Compression.Frame
import TierVault.FileSystem.Calls
import TierVault.Store.Database.Error
import TierVault.Value.Codec

/-!
Stores: places that keep values under keys.

A store's calls run in a world, which holds what the store keeps. A call answers, or reports an error;
the world it leaves behind counts in both cases. Calls may also stop with a fault.
-/

namespace TierVault

/-- What a store reports instead of an answer. -/
inductive StoreError
  | tooLarge (size budget : Nat)
  | codec (error : CodecError)
  | compression (error : CompressionError)
  | columnar (error : Columnar.Error)
  | database (error : DatabaseError)
  | io (error : IoError)
  deriving DecidableEq

def StoreError.tooLargeMessage (size budget : Nat) : String :=
  s!"Value of {size} bytes exceeds the backend budget of {budget} bytes"

/-- What a store reports, and below it what caused that. A database is named as it was given. -/
def StoreError.causes (databaseName : String) : StoreError → List String
  | tooLarge size budget => [tooLargeMessage size budget]
  | codec error => [error.message]
  | compression .decompress => ["Decompression failed"]
  | columnar error => [error.message?.getD "Columnar file error"]
  | database error => error.causes databaseName
  | io error => ["I/O error: " ++ error.message, error.message]

abbrev StoreAction (World Result : Type) := ExceptT StoreError (Action World) Result

structure Store (World : Type) where
  name : String
  /-- Encoded bytes that it holds at most. -/
  budget : Nat
  /-- The value under a key. Counts as a use of the key. -/
  get : String → StoreAction World (Option Value)
  /-- Stores a value. The least recently used others make room for it. -/
  put : String → Value → StoreAction World Unit
  has : String → StoreAction World Bool
  /-- Removes a key, and tells whether it was there. -/
  delete : String → StoreAction World Bool
  clear : StoreAction World Unit
  /-- Encoded bytes of all values. -/
  size : StoreAction World Nat
  /-- Keys and encoded sizes, least recently used first. -/
  entries : StoreAction World (List (String × Nat))

namespace StoreAction

variable {World Local Result : Type}

def ofExcept {Error : Type} (wrap : Error → StoreError) :
    Except Error Result → StoreAction World Result
  | .ok result => pure result
  | .error error => throw (wrap error)

/-- Stops with the fault of a checked computation, if there is one. -/
def checked (computation : Except Fault Result) : StoreAction World Result :=
  ExceptT.lift (Action.ofExcept computation)

/-- Runs a call in a part of a larger world. -/
def within (read : World → Local) (write : World → Local → World)
    (action : StoreAction Local Result) : StoreAction World Result := fun world =>
  match action (read world) with
  | .ok result inner => .ok result (write world inner)
  | .error fault inner => .error fault (write world inner)

/-- A call on files. -/
def onFiles (action : FileAction Result) : StoreAction FileSystem Result := fun files =>
  match action files with
  | .ok result files => .ok (.ok result) files
  | .error error files => .ok (.error (.io error)) files

/-- Goes on after an error. -/
def attempt (action : StoreAction World Unit) : StoreAction World Unit := do
  let _ ← ExceptT.lift action.run
  return ()

end StoreAction

namespace Store

variable {World Local : Type}

/-- A store whose world is a part of a larger one. -/
def within (read : World → Local) (write : World → Local → World) (store : Store Local) :
    Store World where
  name := store.name
  budget := store.budget
  get key := .within read write (store.get key)
  put key value := .within read write (store.put key value)
  has key := .within read write (store.has key)
  delete key := .within read write (store.delete key)
  clear := .within read write store.clear
  size := .within read write store.size
  entries := .within read write store.entries

end Store

end TierVault
