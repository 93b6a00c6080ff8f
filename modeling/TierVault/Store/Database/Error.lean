/-!
Why a database cannot be opened or changed.
-/

namespace TierVault

inductive DatabaseError
  /-- The file is something else. -/
  | notADatabase
  | malformed
  | unsupportedFormat
  /-- The file of the name as it was given is not there and cannot be made, or is a directory. -/
  | unopened
  /-- A directory stands where a companion of the file should be. -/
  | companionUnopened
  /-- A directory cannot be read as a file. -/
  | unreadable
  | companionUnreadable
  | companionKept
  | readOnly
  | locked
  /-- The name has a part that means nothing. -/
  | badName (message : String)
  /-- The name asks for more than can be given. -/
  | denied (message : String)
  deriving DecidableEq

namespace DatabaseError

/-- What went wrong with the database of a name. -/
def message (databaseName : String) : DatabaseError → String
  | notADatabase => "file is not a database"
  | malformed => "database disk image is malformed"
  | unsupportedFormat => "unsupported file format"
  | unopened => "unable to open database file: " ++ databaseName
  | companionUnopened => "unable to open database file"
  | unreadable | companionUnreadable | companionKept => "disk I/O error"
  | readOnly => "attempt to write a readonly database"
  | locked => "locking protocol"
  | badName message | denied message => message

/-- The number of the kind of error, and what it means. -/
def kind : DatabaseError → Nat × String
  | notADatabase => (26, "File opened that is not a database file")
  | malformed => (11, "The database disk image is malformed")
  | unopened | companionUnopened => (14, "Unable to open the database file")
  | unreadable => (10, "Some kind of disk I/O error occurred")
  | companionUnreadable => (266, "Error reading from disk")
  | companionKept => (2570, "I/O error within xDelete of a VFS object")
  | readOnly => (8, "Attempt to write a readonly database")
  | locked => (15, "Database lock protocol error")
  | unsupportedFormat | badName _ => (1, "SQL error or missing database")
  | denied _ => (3, "Access permission denied")

/-- The error and below it its causes. -/
def causes (databaseName : String) (error : DatabaseError) : List String :=
  [s!"SQLite error: {error.message databaseName}", error.message databaseName,
    s!"Error code {error.kind.1}: {error.kind.2}"]

end DatabaseError

end TierVault
