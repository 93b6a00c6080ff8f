import TierVault.Session.State

/-!
Running code and offloading afterwards.

After code has run well, every value that ought to leave process memory is moved to the cache or, if
the cache refuses it, to a spill file, and a lazy variable takes its name. A value that neither takes
stays where it is.
-/

namespace TierVault

/-- What one execution did. -/
structure ExecutionReport where
  mode : ExecutionMode
  pressureBefore : Bool
  reclaimForced : Bool
  /-- Variables that were moved to the cache. -/
  cached : List String
  /-- Variables that were moved to spill files. -/
  spilled : List String
  reclaimAfter : Bool
  deriving DecidableEq, Inhabited

namespace Session

variable {World Note : Type}

/-- Runs a program on the namespace, up to its note and failure. -/
def runProgram (setup : SessionSetup World) :
    Program Note → SessionAction World (Note × Option String)
  | .finish note failure? => return (note, failure?)
  | .insert name value next => do
    let old? ← bind name (.value value)
    giveUp setup old?
    runProgram setup (next old?)
  | .remove name next => do
    let old? ← unbind name
    giveUp setup old?
    runProgram setup (next old?)
  | .read name next => do
    let value? ← read setup name
    runProgram setup (next value?)

def isSkipped (setup : SessionSetup World) (name : String) : Bool :=
  setup.skippedBeginnings.any fun beginning => beginning.toList.isPrefixOf name.toList

/-- Whether a binding is a value that ought to leave process memory. -/
def isCandidate (setup : SessionSetup World) (name : String) :
    Binding → SessionAction World Bool
  | .value value =>
    if isSkipped setup name then return false
    else onMemory setup (MemoryManager.shouldSpill setup.memory value)
  | .lazy _ => return false

/-- The names whose values ought to leave process memory. -/
def candidates (setup : SessionSetup World) : SessionAction World (List String) := do
  let chosen ← (← get).bindings.filterM fun (name, binding) => isCandidate setup name binding
  return chosen.map Prod.fst

/-- A cache key that no other variable has. -/
def freshKey (setup : SessionSetup World) (name : String) : SessionAction World String :=
  fun state =>
    .ok ("var:" ++ name ++ ":" ++ setup.identifier state.nextKey)
      { state with nextKey := state.nextKey + 1 }

/-- Moves a value out of process memory and tells where to. -/
def store (setup : SessionSetup World) (name : String) (value : Value) :
    SessionAction World (Option Backing) := do
  let key ← freshKey setup name
  if ← onCache (TieredCache.put setup.cache key value none) then return some (.cached key)
  let spill? ← onMemory setup (MemoryManager.spill setup.memory name value)
  return spill?.map Backing.spilled

/-- Moves the value of a name out of process memory; a lazy variable takes its place. -/
def offload (setup : SessionSetup World) (name : String) :
    SessionAction World (Option Backing) := do
  match ← binding? name with
  | some (.value value) =>
    match ← store setup name value with
    | some backing =>
      let index ← addVariable name backing
      let _ ← bind name (.lazy index)
      return some backing
    | none => return none
  | _ => return none

/-- Offloads all candidates, and tells each one's name with where it went. -/
def offloadAll (setup : SessionSetup World) : SessionAction World (List (String × Backing)) := do
  let moved ← (← candidates setup).mapM fun name => do
    return (← offload setup name).map fun backing => (name, backing)
  return moved.filterMap id

/-- Runs code and then offloads. Code that fails is not followed by anything; its message is told. -/
def execute (setup : SessionSetup World) (executor : Executor Note) (code : String) :
    SessionAction World (Note × Except String ExecutionReport) := do
  let (pressureBefore, _) ← onMemory setup (MemoryManager.checkPressure setup.memory)
  let reclaimForced ← if pressureBefore then reclaimIfNeeded setup true else pure false
  let mode := setup.classifier.classify (setup.files (← get).cache.world) code
  let (note, failure?) ← runProgram setup (executor code mode)
  match failure? with
  | some message => return (note, .error message)
  | none =>
    let moved ← offloadAll setup
    let reclaimAfter ← reclaimIfNeeded setup false
    let (spilled, cached) := moved.partition fun (_, backing) => backing.isSpilled
    return (note, .ok {
      mode, pressureBefore, reclaimForced
      cached := cached.map Prod.fst
      spilled := spilled.map Prod.fst
      reclaimAfter })

/-! ## The end -/

/-- Unbinds every name. -/
def giveUpNamespace (setup : SessionSetup World) : SessionAction World Unit := do
  let held := (← get).bindings
  setBindings fun _ => []
  held.forM fun (_, binding) => giveUp setup (some binding)

def closeCache (setup : SessionSetup World) : SessionAction World Unit :=
  modify fun state =>
    { state with
      cacheIsOpen := false
      cache := { state.cache with world := setup.closeStores state.cache.world } }

/-- Sweeps once more and forgets the reclaimers. -/
def retireMemory (setup : SessionSetup World) : SessionAction World Unit := do
  let _ ← onMemory setup MemoryManager.sweep
  modify fun state => { state with reclaimers := [] }

/-- Ends a session: lets the namespace go, removes what is expired, and closes the cache. -/
def shutdown (setup : SessionSetup World) : SessionAction World Unit := do
  giveUpNamespace setup
  let _ ← onCache (TieredCache.cleanupExpired setup.cache)
  retireMemory setup
  closeCache setup

/-- Ends a session without any care: the cache is closed first, so that what the namespace left in it
stays. -/
def abandon (setup : SessionSetup World) : SessionAction World Unit := do
  closeCache setup
  giveUpNamespace setup

end Session

end TierVault
