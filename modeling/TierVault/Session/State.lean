import TierVault.Cache.Operations
import TierVault.Keyed
import TierVault.Memory.Manager
import TierVault.Session.Classifier
import TierVault.Stream.Processor
import TierVault.Text.Quoted
import TierVault.Value.Basic

/-!
What a session holds: a cache, a memory manager, lazy variables and the namespace.

A lazy variable stands for a value that lies in the cache or in a spill file. Its first read loads the
value, which is then kept. It is shared by its owners; when the last one goes, what lies behind it is
removed. A variable outlives the cache of its session and reads as absent if it was never loaded.
-/

namespace TierVault

/-! # Names

The variables that executed code sees.

A name is bound to a value, or to a lazy variable that stands for a value somewhere else. Bindings
are kept in the order of their names.
-/

inductive Binding
  | value (value : Value)
  /-- A share in the lazy variable of that number. -/
  | lazy (index : Nat)
  deriving Inhabited

def Binding.isLazy : Binding → Bool
  | value _ => false
  | lazy _ => true

abbrev Namespace := Keyed String Binding

namespace Namespace

/-- Binds a name, in its place among the others. -/
def bind (name : String) (binding : Binding) : Namespace → Namespace
  | [] => [(name, binding)]
  | (other, held) :: rest =>
    if TextOrder.before name other then (name, binding) :: (other, held) :: rest
    else if name = other then (name, binding) :: rest
    else (other, held) :: bind name binding rest

def names (bindings : Namespace) : List String := Keyed.keys bindings

/-- The lazy variables that names are bound to. -/
def lazyVariables (bindings : Namespace) : List Nat :=
  bindings.filterMap fun
    | (_, .lazy index) => some index
    | (_, .value _) => none

end Namespace

/-- What code does with the namespace until it ends: well, or with a failure. It leaves a note for
whoever runs it. -/
inductive Program (Note : Type)
  | finish (note : Note) (failure? : Option String)
  /-- Binds a value; the binding that it replaces is told and then given up. -/
  | insert (name : String) (value : Value) (next : Option Binding → Program Note)
  /-- Unbinds a name; its binding is told and then given up. -/
  | remove (name : String) (next : Option Binding → Program Note)
  /-- Reads the value of a name. -/
  | read (name : String) (next : Option Value → Program Note)

/-- Makes a program of code. -/
abbrev Executor (Note : Type) := String → ExecutionMode → Program Note

/-! # States -/

/-- Where the value of a lazy variable lies. -/
inductive Backing
  /-- In the cache, under a key. -/
  | cached (key : String)
  /-- In the spill file of that number. -/
  | spilled (spill : Nat)
  deriving DecidableEq, Inhabited

namespace Backing

def key? : Backing → Option String
  | cached key => some key
  | spilled _ => none

def isSpilled : Backing → Bool
  | cached _ => false
  | spilled _ => true

end Backing

structure LazyVariable where
  name : String
  backing : Backing
  /-- The value, once it was loaded. -/
  loaded? : Option Value
  owners : Nat
  deriving Inhabited

namespace LazyVariable

def isLoaded (held : LazyVariable) : Bool := held.loaded?.isSome

def isAlive (held : LazyVariable) : Bool := 0 < held.owners

def describe (held : LazyVariable) : String :=
  let key := match held.backing.key? with
    | some key => "Some(" ++ Quoted.write key ++ ")"
    | none => "None"
  "LazyVariable \x7b name: " ++ Quoted.write held.name ++ ", key: " ++ key ++
    ", spilled: " ++ toString held.backing.isSpilled ++
    ", loaded: " ++ toString held.isLoaded ++ " \x7d"

end LazyVariable

/-! ## Questions

A variable answers as its value does, which is loaded for the first question. Where it cannot be loaded, there is
nothing to find in it. -/

/-- What can be asked of a value. -/
inductive Question
  | value
  | length
  | empty
  | item (place : Nat)
  | field (name : String)
  | elements

namespace Question

abbrev Answer : Question → Type
  | value => Option Value
  | length => Option Nat
  | empty => Bool
  | item _ => Option Value
  | field _ => Option Value
  | elements => List Value

/-- What the value answers. -/
def of : (question : Question) → Value → question.Answer
  | value, found => some found
  | length, found => found.length?
  | empty, found => found.isEmpty
  | item place, found => found.item? place
  | field name, found => found.field? name
  | elements, found => found.children

/-- The answer where there is no value. -/
def absent : (question : Question) → question.Answer
  | value => none
  | length => none
  | empty => false
  | item _ => none
  | field _ => none
  | elements => []

end Question

/-! ## States -/

/-- What stays the same in the life of a session. -/
structure SessionSetup (World : Type) where
  cache : CacheSetup World
  memory : MemorySetup
  classifier : Classifier
  processor : Processor
  /-- Variables whose names begin with one of these are never offloaded. -/
  skippedBeginnings : List String
  /-- Tells the cache keys of variables apart. -/
  identifier : Nat → String
  files : World → FileSystem
  setFiles : World → FileSystem → World
  /-- What the end of the cache does to its stores. -/
  closeStores : World → World

structure SessionState (World : Type) where
  cache : CacheState World
  cacheIsOpen : Bool
  memory : MemoryManager
  /-- What a reclaim pass asks to free memory. -/
  reclaimers : List (CacheAction World Nat)
  /-- Lazy variables by their numbers; those without owners keep their places. -/
  lazyVariables : List LazyVariable
  bindings : Namespace
  /-- The number of the next cache key. -/
  nextKey : Nat

abbrev SessionAction (World Result : Type) := Action (SessionState World) Result

namespace SessionState

/-- The state with the memory manager and the files that an action left. -/
def withMemory {World : Type} (state : SessionState World) (setup : SessionSetup World)
    (memory : ManagedMemory) : SessionState World :=
  { state with
    memory := memory.manager
    cache := { state.cache with world := setup.setFiles state.cache.world memory.files } }

end SessionState

namespace Session

variable {World Result : Type}

/-- A session over an open cache. Its reclaim passes remove what is expired in the cache. -/
def start (setup : SessionSetup World) (cache : CacheState World) : SessionState World where
  cache := cache
  cacheIsOpen := true
  memory := .start setup.memory
  reclaimers := [TieredCache.reclaimExpired setup.cache]
  lazyVariables := []
  bindings := []
  nextKey := 0

/-! ## Acting on the parts -/

def onCache (action : CacheAction World Result) : SessionAction World Result := fun state =>
  match action state.cache with
  | .ok result cache => .ok result { state with cache }
  | .error fault cache => .error fault { state with cache }

def onMemory (setup : SessionSetup World) (action : MemoryAction Result) :
    SessionAction World Result := fun state =>
  match action ⟨state.memory, setup.files state.cache.world⟩ with
  | .ok result memory => .ok result (state.withMemory setup memory)
  | .error fault memory => .error fault (state.withMemory setup memory)

def register (reclaimer : CacheAction World Nat) : SessionAction World Unit :=
  modify fun state => { state with reclaimers := state.reclaimers ++ [reclaimer] }

def reclaimIfNeeded (setup : SessionSetup World) (forced : Bool) : SessionAction World Bool := do
  let reclaimers := (← get).reclaimers.map onCache
  MemoryManager.reclaimIfNeeded (onMemory setup) setup.memory reclaimers forced

def optimize (setup : SessionSetup World) : SessionAction World MemoryManager.Optimization := do
  let reclaimers := (← get).reclaimers.map onCache
  MemoryManager.optimize (onMemory setup) setup.memory reclaimers

/-! ## Lazy variables -/

def lazyVariable? (index : Nat) : SessionAction World (Option LazyVariable) :=
  return (← get).lazyVariables[index]?

def setVariable (index : Nat) (held : LazyVariable) : SessionAction World Unit :=
  modify fun state => { state with lazyVariables := state.lazyVariables.set index held }

/-- A new lazy variable with one owner. Tells its number. -/
def addVariable (name : String) (backing : Backing) : SessionAction World Nat := fun state =>
  .ok state.lazyVariables.length
    { state with lazyVariables := state.lazyVariables ++ [⟨name, backing, none, 1⟩] }

/-- Adds an owner. -/
def share (index : Nat) : SessionAction World Unit := do
  if let some held ← lazyVariable? index then
    setVariable index { held with owners := held.owners + 1 }

/-- Removes what lies behind a variable. What is in a cache that was closed stays there. -/
def releaseBacking (setup : SessionSetup World) : Backing → SessionAction World Unit
  | .cached key => do
    if (← get).cacheIsOpen then
      let _ ← onCache (TieredCache.delete setup.cache key)
  | .spilled spill => onMemory setup (MemoryManager.release spill)

/-- An owner lets a variable go. After the last one, what lies behind it is removed. -/
def release (setup : SessionSetup World) (index : Nat) : SessionAction World Unit := do
  if let some held ← lazyVariable? index then
    if held.isAlive then
      let left := { held with owners := held.owners - 1 }
      setVariable index left
      if !left.isAlive then releaseBacking setup held.backing

/-- Reads what lies behind a variable. -/
def loadBacking (setup : SessionSetup World) : Backing → SessionAction World (Option Value)
  | .cached key => do
    if (← get).cacheIsOpen then onCache (TieredCache.get setup.cache key) else return none
  | .spilled spill => return (← onMemory setup (MemoryManager.load setup.memory spill)).toOption

/-- The value of a lazy variable, which the first read that finds it keeps. -/
def force (setup : SessionSetup World) (index : Nat) : SessionAction World (Option Value) := do
  match ← lazyVariable? index with
  | none => return none
  | some held =>
    match held.loaded? with
    | some value => return some value
    | none =>
      match ← loadBacking setup held.backing with
      | none => return none
      | some value =>
        setVariable index { held with loaded? := some value }
        return some value

/-- Asks a lazy variable. -/
def ask (setup : SessionSetup World) (index : Nat) (question : Question) :
    SessionAction World question.Answer := do
  match ← force setup index with
  | some value => return question.of value
  | none => return question.absent

/-! ## Bindings -/

def binding? (name : String) : SessionAction World (Option Binding) :=
  return Keyed.find? name (← get).bindings

def setBindings (change : Namespace → Namespace) : SessionAction World Unit :=
  modify fun state => { state with bindings := change state.bindings }

/-- Binds a name. The binding that was replaced is the caller's. -/
def bind (name : String) (binding : Binding) : SessionAction World (Option Binding) := do
  let old? ← binding? name
  setBindings (Namespace.bind name binding)
  return old?

/-- Unbinds a name. Its binding is the caller's. -/
def unbind (name : String) : SessionAction World (Option Binding) := do
  let old? ← binding? name
  setBindings (Keyed.remove name)
  return old?

/-- Lets a binding go. -/
def giveUp (setup : SessionSetup World) : Option Binding → SessionAction World Unit
  | some (.lazy index) => release setup index
  | some (.value _) | none => return ()

/-- The value behind a binding. -/
def forceBinding (setup : SessionSetup World) : Binding → SessionAction World (Option Value)
  | .value value => return some value
  | .lazy index => force setup index

def read (setup : SessionSetup World) (name : String) : SessionAction World (Option Value) := do
  match ← binding? name with
  | some binding => forceBinding setup binding
  | none => return none

end Session

end TierVault
