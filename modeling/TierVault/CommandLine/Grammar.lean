import TierVault.Fault
import TierVault.Keyed

/-!
Command lines: options, positional arguments and subcommands.

Arguments are read from left to right. An option with a value takes it from the same argument or from
the next one; the value is judged when the next option or positional argument begins, or at the end.
After `--` all arguments are positional. Reading stops at a subcommand, which reads the rest.
-/

namespace TierVault.CommandLine

/-- Why a command line was not accepted. A request for help is one of the reasons. -/
inductive UsageError
  | invalidValue
  | unknownArgument
  | invalidSubcommand
  | valueValidation
  | tooManyValues
  | argumentConflict
  | missingRequiredArgument
  | missingSubcommand
  /-- Help for the named subcommands, from the outside in. -/
  | displayHelp (commands : List String)
  | displayHelpOnMissingArgumentOrSubcommand
  deriving DecidableEq

def UsageError.kind : UsageError → String
  | invalidValue => "InvalidValue"
  | unknownArgument => "UnknownArgument"
  | invalidSubcommand => "InvalidSubcommand"
  | valueValidation => "ValueValidation"
  | tooManyValues => "TooManyValues"
  | argumentConflict => "ArgumentConflict"
  | missingRequiredArgument => "MissingRequiredArgument"
  | missingSubcommand => "MissingSubcommand"
  | displayHelp _ => "DisplayHelp"
  | displayHelpOnMissingArgumentOrSubcommand => "DisplayHelpOnMissingArgumentOrSubcommand"

/-- What an option stands for. -/
inductive Kind
  /-- A path, which must not be empty. -/
  | path
  /-- A count in decimal digits, perhaps after a plus sign. -/
  | count
  /-- Present or not. -/
  | switch
  | help
  deriving DecidableEq

def Kind.takesValue : Kind → Bool
  | path | count => true
  | switch | help => false

structure Parameter where
  name : String
  short? : Option Char
  kind : Kind
  deriving DecidableEq

structure Grammar where
  options : List Parameter
  positional? : Option Parameter
  subcommands : List String

/-! ## Values -/

def digits? (letters : List Char) : Option Nat :=
  if letters.isEmpty then none
  else letters.foldlM (fun number letter =>
    if letter.isDigit then some (number * 10 + (letter.toNat - 48)) else none) 0

def count? (text : String) : Option Nat :=
  let letters := match text.toList with
    | '+' :: rest => rest
    | letters => letters
  (digits? letters).filter (· < Word.limit)

def checkValue (kind : Kind) (value : String) : Except UsageError Unit :=
  match kind with
  | .path => if value.isEmpty then .error .invalidValue else .ok ()
  | .count => if (count? value).isSome then .ok () else .error .valueValidation
  | .switch | .help => .ok ()

/-! ## Progress -/

/-- What was read: the values by name, and an option whose value is still to come or to be judged. -/
structure Progress where
  given : Keyed String String
  pending? : Option (Parameter × Option String)

namespace Progress

def start : Progress := ⟨[], none⟩

/-- Takes an option with its value. An option may be given once. -/
def accept (progress : Progress) (parameter : Parameter) (value? : Option String) :
    Except UsageError Progress := do
  if parameter.kind = .help then throw (.displayHelp [])
  if parameter.kind.takesValue && value?.isNone then throw .invalidValue
  if Keyed.has parameter.name progress.given then throw .argumentConflict
  let value := value?.getD "true"
  checkValue parameter.kind value
  return { progress with given := Keyed.put parameter.name value progress.given }

/-- Judges the pending option. -/
def settle (progress : Progress) : Except UsageError Progress :=
  match progress.pending? with
  | none => .ok progress
  | some (parameter, value?) => accept { progress with pending? := none } parameter value?

def take (progress : Progress) (parameter : Parameter) (value? : Option String) :
    Except UsageError Progress := do
  (← progress.settle).accept parameter value?

/-- Waits for the value of an option. -/
def await (progress : Progress) (parameter : Parameter) : Except UsageError Progress := do
  return { ← progress.settle with pending? := some (parameter, none) }

def supply (progress : Progress) (value : String) : Progress :=
  { progress with
    pending? := progress.pending?.map fun (parameter, _) => (parameter, some value) }

end Progress

/-! ## Arguments -/

/-- Whether the next argument may be the value of the option before it. -/
abbrev Awaiting := Bool

/-- A cluster of short options; the first one with a value takes the rest of the cluster. -/
def readCluster (grammar : Grammar) : Progress → List Char → Except UsageError (Progress × Awaiting)
  | progress, [] => .ok (progress, false)
  | progress, letter :: rest =>
    match grammar.options.find? (·.short? == some letter) with
    | none => .error .unknownArgument
    | some parameter =>
      if parameter.kind.takesValue then
        match rest with
        | [] => do return (← progress.await parameter, true)
        | '=' :: value => do return (← progress.take parameter (String.ofList value), false)
        | value => do return (← progress.take parameter (String.ofList value), false)
      else do
        let progress ← progress.take parameter none
        readCluster grammar progress rest

/-- A long option after its two dashes. -/
def readLong (grammar : Grammar) (progress : Progress) (letters : List Char) :
    Except UsageError (Progress × Awaiting) :=
  let name := letters.takeWhile (· ≠ '=')
  let value? := match letters.dropWhile (· ≠ '=') with
    | [] => none
    | _ :: value => some (String.ofList value)
  match grammar.options.find? (·.name == String.ofList name) with
  | none => .error .unknownArgument
  | some parameter =>
    if parameter.kind.takesValue then
      match value? with
      | none => do return (← progress.await parameter, true)
      | some value => do return (← progress.take parameter value, false)
    else
      match value? with
      | none => do return (← progress.take parameter none, false)
      | some _ => .error .tooManyValues

/-- What is wrong with an argument for which there is no place. -/
def misplaced (grammar : Grammar) (trailing : Bool) (argument : String) : UsageError :=
  if grammar.subcommands.isEmpty then .unknownArgument
  else if trailing && grammar.subcommands.contains argument then .unknownArgument
  else .invalidSubcommand

/-- Reads arguments up to a subcommand, which is returned with the arguments after it. -/
def readArguments (grammar : Grammar) : (trailing : Bool) → Awaiting → Progress → List String →
    Except UsageError (Progress × Option (String × List String))
  | _, _, progress, [] => .ok (progress, none)
  | trailing, awaiting, progress, argument :: rest =>
    let asPositional := fun (_ : Unit) => do
      match grammar.positional? with
      | none => throw (misplaced grammar trailing argument)
      | some parameter =>
        if Keyed.has parameter.name progress.given ||
            progress.pending?.any fun (pending, _) => pending.name == parameter.name then
          throw .unknownArgument
        let progress ← progress.settle
        readArguments grammar trailing false
          { progress with pending? := some (parameter, some argument) } rest
    if trailing then asPositional ()
    else if !awaiting && grammar.subcommands.contains argument then
      .ok (progress, some (argument, rest))
    else
      match argument.toList with
      | ['-', '-'] => readArguments grammar true false progress rest
      | '-' :: '-' :: letters => do
        let (progress, awaiting) ← readLong grammar progress letters
        readArguments grammar false awaiting progress rest
      | '-' :: letter :: letters => do
        let (progress, awaiting) ← readCluster grammar progress (letter :: letters)
        readArguments grammar false awaiting progress rest
      | _ =>
        if awaiting then readArguments grammar false false (progress.supply argument) rest
        else asPositional ()

end TierVault.CommandLine
