import TierVault.Cache.Statistics
import TierVault.CommandLine.Invocation
import TierVault.Config.Text
import TierVault.Decimal
import TierVault.Memory.Report
import TierVault.Session.Opening
import TierVault.Store.Basic
import TierVault.Stream.Source

/-!
A run of the program: from its arguments and the files there are to what it prints and the files it
leaves.
-/

/-! ## Failures

The report of a failure names what was being done, and below it the causes from the outside in. -/

namespace TierVault.CommandLine

inductive Failure
  | settings (error : Config.LoadError)
  /-- The cache whose database has that name cannot be opened. -/
  | cache (databaseName : String) (error : StoreError)
  | file (name : String) (error : IoError)
  | fault (fault : Fault)
  deriving DecidableEq

namespace Failure

/-- What failed, followed by its causes. -/
def chain : Failure → List String
  | .settings (.io error) => [error.message]
  | .settings (.text defect) => [defect.message]
  | .cache databaseName error => "opening cache" :: error.causes databaseName
  | .file name error => ["opening " ++ name, error.message]
  | .fault cause => [cause.message]

/-- A cause of several lines: those after the first begin below its text. -/
def indented (margin cause : String) : String :=
  ("\n" ++ margin).intercalate (cause.splitToList (· = '\n'))

def causeLines : List String → List String
  | [cause] => ["    " ++ indented "    " cause]
  | causes => causes.zipIdx.map fun (cause, index) =>
    let text := indented "       " cause
    s!"    {index}: {text}"

def report (failure : Failure) : String :=
  match failure.chain with
  | [] => ""
  | [only] => "Error: " ++ only ++ "\n"
  | first :: causes =>
    "Error: " ++ first ++ "\n\nCaused by:\n" ++ "\n".intercalate (causeLines causes) ++ "\n"

/-- A fault of the program is told apart from a failure of what it works on. -/
def exitCode : Failure → Nat
  | .fault _ => 101
  | _ => 1

end Failure

/-! ## Outcomes -/

/-- What a run shows. -/
structure Outcome where
  code : Nat
  output : String
  /-- Messages about the progress of the run. -/
  log : List String
  /-- What goes to the error output. -/
  diagnostics : String
  deriving DecidableEq, Inhabited

namespace Outcome

def ofOutput (output : String) : Outcome := ⟨0, output, [], ""⟩

def ofLog (log : List String) : Outcome := ⟨0, "", log, ""⟩

def ofFailure (failure : Failure) : Outcome := ⟨failure.exitCode, "", [], failure.report⟩

/-- A request for help is answered; other arguments that are not accepted end the run with code 2. -/
def ofUsageError (error : UsageError) : Outcome :=
  match error with
  | .displayHelp _ => ofOutput error.message
  | .displayHelpOnMissingArgumentOrSubcommand => ⟨2, "", [], error.message⟩
  | _ => ⟨2, "", [], "error: " ++ error.message ++ "\n\nFor more information, try '--help'.\n"⟩

end Outcome

abbrev Run (Result : Type) := EStateM Failure FileSystem Result

namespace Run

variable {Result : Type}

def ofExcept {Error : Type} (wrap : Error → Failure) : Except Error Result → Run Result
  | .ok result => pure result
  | .error error => throw (wrap error)

def onStore (wrap : StoreError → Failure) (action : StoreAction FileSystem Result) : Run Result :=
  fun files => match action files with
  | .ok (.ok result) files => .ok result files
  | .ok (.error error) files => .error (wrap error) files
  | .error fault files => .error (.fault fault) files

end Run

/-! ## Commands on the cache -/

/-- Opens the cache and leaves in it what is there. -/
def openCache (sources : SessionSources) (config : Config) : Run OpenCache :=
  .onStore (.cache (FileName.join config.cache.databaseDirectory "cache.db"))
    (OpenCache.openIn sources.codec { config with cache.clearOnOpen := false } sources.clock)

def stats (sources : SessionSources) (config : Config) : Run Outcome := do
  let cache ← openCache sources config
  set cache.close
  let statistics := (CacheStatistics.ofState cache.state).document.pretty
  return .ofOutput (statistics ++ "\n" ++ cache.state.metrics.text)

def clear (sources : SessionSources) (config : Config) : Run Outcome := do
  let cache ← openCache sources config
  match OpenCache.run TieredCache.clear cache with
  | .ok _ cache =>
    set cache.close
    return .ofOutput ""
  | .error fault _ => throw (.fault fault)

/-! ## The memory report -/

/-- Checks the memory of the process once and reports. -/
def memory (sources : SessionSources) (config : Config) : Run Outcome := do
  let files ← get
  let setup := MemorySetup.ofConfig sources config
  let check : MemoryAction MemoryReport := do
    let _ ← MemoryManager.checkPressure setup
    MemoryReport.take setup
  match check ⟨.start setup, files⟩ with
  | .ok report _ => return .ofOutput (report.document.pretty ++ "\n")
  | .error fault _ => throw (.fault fault)

/-! ## Scanning a file -/

def progressMessage (meter : Meter) : String :=
  let percent := meter.progress.mul (.ofWord 100)
  s!"Scanning processed={meter.processed} progress={(Decimal.fixed 1 percent).positional}%"

def endMessage (meter : Meter) : String :=
  s!"Scan complete lines={meter.processed} bytes={meter.bytes}"

/-- Pulls up to `bound` lines and adds to the log, which has the last message first, after every
`every` of them. -/
def follow (stream : Stream String) (every : Nat) :
    (bound : Nat) → (log : List String) → stream.Position → Flow (List String)
  | 0, log, (_, meter) => return (endMessage meter :: log).reverse
  | bound + 1, log, position => do
    let (line?, position) ← stream.advance position
    let meter := position.2
    match line? with
    | none => return (endMessage meter :: log).reverse
    | some _ =>
      let log := if meter.processed % every = 0 then progressMessage meter :: log else log
      follow stream every bound log position

/-- The content of a file, which is to be scanned. -/
def contentOf (name : String) : Run Bytes := fun files =>
  match FileSystem.readFile name files with
  | .ok content files => .ok content files
  | .error error files => .error (.file name error) files

def scan (config : Config) (name : String) (every : Nat) : Run Outcome := do
  let content ← contentOf name
  let _ ← .ofExcept .fault (Stream.lineBuffer config.stream.chunkSize)
  let stream := Stream.ofLines content config.stream.chunkSize
  match follow stream (max every 1) (stream.remaining + 1) [] stream.position false with
  | .ok log _ => return .ofLog log
  | .error fault _ => throw (.fault fault)

/-! ## All commands -/

/-- The settings that a run works with. -/
def settings (invocation : Invocation) (files : FileSystem) : Except Config.LoadError Config := do
  let config ← Config.load files invocation.config
  match invocation.cacheDirectory? with
  | some directory => return { config with cache.directory := directory }
  | none => return config

def perform (sources : SessionSources) (invocation : Invocation) : Run Outcome := do
  let config ← .ofExcept .settings (settings invocation (← get))
  match invocation.command with
  | .stats => stats sources config
  | .memory => memory sources config
  | .clear => clear sources config
  | .scan name every => scan config name every

/-- Runs the program, and tells what it shows and which files it leaves. -/
def run (sources : SessionSources) (arguments : List String) (files : FileSystem) :
    Outcome × FileSystem :=
  match Invocation.ofArguments arguments with
  | .error error => (.ofUsageError error, files)
  | .ok invocation =>
    match perform sources invocation files with
    | .ok outcome files => (outcome, files)
    | .error failure files => (.ofFailure failure, files)

end TierVault.CommandLine
