import TierVault.CommandLine.Grammar

/-!
The commands of the program, how they are given on the command line, and their help pages.

A page tells what a command is for and how it is called, and lists its commands, arguments and
options. The descriptions of a list stand in one column.
-/

/-! ## Commands -/

namespace TierVault.CommandLine

inductive Command
  | stats
  | memory
  | clear
  | scan (path : String) (chunkSize : Nat)
  deriving DecidableEq, Inhabited

structure Invocation where
  config : String
  cacheDirectory? : Option String
  verbose : Bool
  command : Command
  deriving DecidableEq, Inhabited

def helpOption : Parameter := ⟨"help", some 'h', .help⟩

def mainGrammar : Grammar where
  options :=
    [⟨"config", some 'c', .path⟩, ⟨"cache-dir", none, .path⟩, ⟨"verbose", some 'v', .switch⟩,
      helpOption]
  positional? := none
  subcommands := ["stats", "memory", "clear", "scan", "help"]

def plainGrammar : Grammar := ⟨[helpOption], none, []⟩

def pathArgument : Parameter := ⟨"path", none, .path⟩

def scanGrammar : Grammar where
  options := [⟨"chunk-size", none, .count⟩, helpOption]
  positional? := some pathArgument
  subcommands := []

/-- Lines between two progress reports of a scan. -/
def defaultChunkSize : Nat := 100000

/-- Reads all arguments of a subcommand. A request for help names it. -/
def readSubcommand (name : String) (grammar : Grammar) (arguments : List String) :
    Except UsageError Progress :=
  match readArguments grammar false false .start arguments with
  | .ok (progress, _) =>
    match progress.settle with
    | .error (.displayHelp _) => .error (.displayHelp [name])
    | settled => settled
  | .error (.displayHelp _) => .error (.displayHelp [name])
  | .error error => .error error

def readCommand (name : String) (arguments : List String) : Except UsageError Command := do
  match name with
  | "help" =>
    match arguments with
    | [] => throw (.displayHelp [])
    | [command] =>
      if mainGrammar.subcommands.contains command then throw (.displayHelp [command])
      else throw .invalidSubcommand
    | _ => throw .invalidSubcommand
  | "scan" =>
    let progress ← readSubcommand name scanGrammar arguments
    match Keyed.find? "path" progress.given with
    | none => throw .missingRequiredArgument
    | some path =>
      let chunkSize := (Keyed.find? "chunk-size" progress.given).bind count?
      return .scan path (chunkSize.getD defaultChunkSize)
  | "stats" => do
    let _ ← readSubcommand name plainGrammar arguments
    return .stats
  | "memory" => do
    let _ ← readSubcommand name plainGrammar arguments
    return .memory
  | _ => do
    let _ ← readSubcommand name plainGrammar arguments
    return .clear

/-- Reads a command line. A fault in the arguments of the subcommand is told before a value that was
given in front of it is judged. -/
def Invocation.ofArguments (arguments : List String) : Except UsageError Invocation := do
  let (progress, subcommand?) ← readArguments mainGrammar false false .start arguments
  let command? ← match subcommand? with
    | some (name, rest) => (readCommand name rest).map some
    | none => pure none
  let progress ← progress.settle
  match command? with
  | none =>
    if progress.given.isEmpty then throw .displayHelpOnMissingArgumentOrSubcommand
    else throw .missingSubcommand
  | some command =>
    return {
      config := (Keyed.find? "config" progress.given).getD "config.json"
      cacheDirectory? := Keyed.find? "cache-dir" progress.given
      verbose := Keyed.has "verbose" progress.given
      command }

/-! ## Help -/

structure HelpPage where
  about : String
  usage : String
  commands : List (String × String)
  arguments : List (String × String)
  options : List (String × String)

namespace HelpPage

def padded (width : Nat) (text : String) : String :=
  text ++ String.ofList (List.replicate (width - text.length) ' ')

/-- A headed list; nothing if the list is empty. -/
def listing (heading : String) (rows : List (String × String)) : String :=
  if rows.isEmpty then ""
  else
    let width := (rows.map fun (item, _) => item.length).foldl max 0
    let line := fun (item, description) => "  " ++ padded width item ++ "  " ++ description ++ "\n"
    "\n" ++ heading ++ ":\n" ++ String.join (rows.map line)

def text (page : HelpPage) : String :=
  page.about ++ "\n\nUsage: " ++ page.usage ++ "\n" ++ listing "Commands" page.commands ++
    listing "Arguments" page.arguments ++ listing "Options" page.options

end HelpPage

/-! ## The pages -/

def programName : String := "session-cache"

def statsPurpose : String := "Print per-tier statistics and metrics for the cache directory"

def memoryPurpose : String := "Print the process memory report"

def clearPurpose : String := "Remove every cached entry in all tiers"

def scanPurpose : String := "Stream a file line by line and report progress and throughput"

def helpPurpose : String := "Print this message or the help of the given subcommand(s)"

def helpRow : String := "-h, --help"

def mainPage : HelpPage where
  about := "Inspect and exercise a session cache directory"
  usage := programName ++ " [OPTIONS] <COMMAND>"
  commands :=
    [("stats", statsPurpose), ("memory", memoryPurpose), ("clear", clearPurpose),
      ("scan", scanPurpose), ("help", helpPurpose)]
  arguments := []
  options :=
    [("-c, --config <CONFIG>", "Path to configuration file (JSON) [default: config.json]"),
      ("    --cache-dir <CACHE_DIR>", "Override the cache directory from the configuration"),
      ("-v, --verbose", "Enable verbose logging"),
      (helpRow, "Print help")]

/-- A command that takes no arguments. -/
def plainPage (name purpose : String) : HelpPage where
  about := purpose
  usage := programName ++ " " ++ name
  commands := []
  arguments := []
  options := [(helpRow, "Print help")]

def scanPage : HelpPage where
  about := scanPurpose
  usage := programName ++ " scan [OPTIONS] <PATH>"
  commands := []
  arguments := [("<PATH>", "File to scan")]
  options :=
    [("    --chunk-size <CHUNK_SIZE>",
        "Lines per progress report [default: " ++ toString defaultChunkSize ++ "]"),
      (helpRow, "Print help")]

def helpPage : HelpPage where
  about := helpPurpose
  usage := programName ++ " help [COMMAND]..."
  commands := []
  arguments := [("[COMMAND]...", "Print help for the subcommand(s)")]
  options := []

/-- The page of the command that was asked for. -/
def pageFor : (commands : List String) → HelpPage
  | ["stats"] => plainPage "stats" statsPurpose
  | ["memory"] => plainPage "memory" memoryPurpose
  | ["clear"] => plainPage "clear" clearPurpose
  | ["scan"] => scanPage
  | ["help"] => helpPage
  | _ => mainPage

/-! ## Arguments that are not accepted -/

def UsageError.message : UsageError → String
  | invalidValue => "a value is missing or empty"
  | unknownArgument => "unexpected argument"
  | invalidSubcommand => "unrecognized subcommand"
  | valueValidation => "invalid value"
  | tooManyValues => "unexpected value"
  | argumentConflict => "an argument cannot be used multiple times"
  | missingRequiredArgument => "a required argument was not provided"
  | missingSubcommand => "a subcommand was not provided"
  | displayHelp commands => (pageFor commands).text
  | displayHelpOnMissingArgumentOrSubcommand => mainPage.text

end TierVault.CommandLine
