import TierVault.Store.Database.Error
import TierVault.Text.Hexadecimal
import TierVault.Text.Utf8

/-!
Names of databases.

A name that begins with `file:` is a reference: an authority, a path, and settings after a question
mark, up to a number sign. Two hexadecimal digits after a percent sign stand for a byte. Any other name
is that of a file. A database without a file lives in memory as long as it is open.
-/

namespace TierVault

/-- What may be done to the file of a database. -/
inductive DatabaseAccess
  | readOnly
  | existing
  /-- The file is made if it is missing. -/
  | create
  deriving DecidableEq, Inhabited

structure DatabaseName where
  /-- The file, unless the database lives in memory. -/
  file? : Option String
  access : DatabaseAccess
  /-- The file is taken as one that nobody changes. -/
  immutable : Bool
  deriving DecidableEq, Inhabited

namespace DatabaseName

/-! ## Parts of a reference -/

def isSign (sign : Char) (byte : UInt8) : Bool := byte.toNat = sign.toNat

def digit? (byte : UInt8) : Option Nat := Hexadecimal.value? (Char.ofNat byte.toNat)

/-- Reads escapes. An escaped zero ends a part. -/
def decodePart : Bytes → Bytes
  | first :: second :: third :: rest =>
    match isSign '%' first, digit? second, digit? third with
    | true, some high, some low =>
      if high = 0 ∧ low = 0 then [] else (16 * high + low).toUInt8 :: decodePart rest
    | _, _, _ => first :: decodePart (second :: third :: rest)
  | part => part

/-- What stands before the first sign, and what after it. -/
def cutAt (sign : Char) (part : Bytes) : Bytes × Option Bytes :=
  let before := part.takeWhile (!isSign sign ·)
  (before, (part.drop before.length).tail?)

/-- The parts between the signs. -/
def splitAt (sign : Char) : (bound : Nat) → Bytes → List Bytes
  | 0, part => [part]
  | bound + 1, part =>
    match cutAt sign part with
    | (before, some rest) => before :: splitAt sign bound rest
    | (before, none) => [before]

def partText (part : Bytes) : String := Utf8.lossy (decodePart part)

/-- The settings in order. Those without a name are left out. -/
def settings (part : Bytes) : List (String × String) :=
  ((splitAt '&' part.length part).map fun setting =>
    let (name, value?) := cutAt '=' setting
    (partText name, partText (value?.getD []))).filter fun setting => setting.1 ≠ ""

/-! ## Settings -/

/-- What the settings so far ask for. -/
structure Wishes where
  access? : Option DatabaseAccess
  system : String
  immutable : Bool

/-- The ranks in which kinds of access include each other; a database in memory has the least. -/
def rank : Option DatabaseAccess → Nat
  | none => 0
  | some .readOnly => 1
  | some .existing => 2
  | some .create => 3

def accessOf? (value : String) : Option (Option DatabaseAccess) :=
  match value with
  | "ro" => some (some .readOnly)
  | "rw" => some (some .existing)
  | "rwc" => some (some .create)
  | "memory" => some none
  | _ => none

/-- A truth as a number or a word. -/
def isAffirmed (value : String) : Bool :=
  match value.toList with
  | digit :: rest =>
    if digit.isDigit then (digit :: rest.takeWhile Char.isDigit).any (· ≠ '0')
    else ["on", "yes", "true"].contains (value.map Char.toLower)
  | [] => false

/-- Access can be asked for below what was asked for before, and in memory for anything. -/
def wish (wishes : Wishes) (setting : String × String) : Except DatabaseError Wishes :=
  let (name, value) := setting
  if name = "vfs" then .ok { wishes with system := value }
  else if name = "cache" then
    if value = "shared" || value = "private" then .ok wishes
    else .error (.badName ("no such cache mode: " ++ value))
  else if name = "mode" then
    match accessOf? value with
    | none => .error (.badName ("no such access mode: " ++ value))
    | some access? =>
      if wishes.access?.isSome && rank wishes.access? < rank access? then
        .error (.denied ("access mode not allowed: " ++ value))
      else .ok { wishes with access? }
  else if name = "immutable" then .ok { wishes with immutable := isAffirmed value }
  else .ok wishes

/-- The file systems that a name may ask for. The last one keeps files in memory. -/
def systems : List String := ["unix", "unix-none", "unix-dotfile", "unix-excl", "memdb"]

/-! ## Names -/

/-- A file name that stands for no file. -/
def isInMemory (file : String) : Bool := file = "" || file = ":memory:"

/-- The authority of a reference and what follows it. -/
def authority (reference : Bytes) : Bytes × Bytes :=
  match reference with
  | first :: second :: rest =>
    if isSign '/' first && isSign '/' second then
      let name := rest.takeWhile (!isSign '/' ·)
      (name, rest.drop name.length)
    else ([], reference)
  | _ => ([], reference)

/-- Reads a reference, from which its beginning was taken. -/
def ofReference (reference : Bytes) : Except DatabaseError DatabaseName := do
  let (host, rest) := authority reference
  let host := Utf8.lossy host
  if host ≠ "" && host ≠ "localhost" then throw (.badName ("invalid uri authority: " ++ host))
  let (path, settings?) := cutAt '?' (cutAt '#' rest).1
  let wishes ← (settings (settings?.getD [])).foldlM wish ⟨some .create, "unix", false⟩
  if !systems.contains wishes.system then throw (.badName ("no such vfs: " ++ wishes.system))
  let file := partText path
  let kept := wishes.access?.isNone || wishes.system = "memdb" || isInMemory file
  return {
    file? := if kept then none else some file
    access := wishes.access?.getD .create
    immutable := wishes.immutable }

def parse (name : String) : Except DatabaseError DatabaseName :=
  let bytes := Utf8.encode name
  let beginning := Utf8.encode "file:"
  if beginning.isPrefixOf bytes then ofReference (bytes.drop beginning.length)
  else .ok ⟨some name, .create, false⟩

end DatabaseName

end TierVault
