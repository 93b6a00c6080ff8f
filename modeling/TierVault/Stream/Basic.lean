import TierVault.Binary64

/-!
Streams that are pulled one item at a time and can be cancelled.

A stream stands over a source, counts what it hands out, and shares one cancellation flag with every
stream of its pipeline. It looks at the flag before each pull; once it has ended or was cancelled it
stays so. Functions that a pipeline applies to items may set the flag or stop with a fault.
-/

namespace TierVault

/-- A computation beside the cancellation flag of its pipeline. -/
abbrev Flow (Result : Type) := Action Bool Result

namespace Flow

def isCancelled : Flow Bool := get

def cancel : Flow Unit := set true

end Flow

inductive StreamState
  | created
  | iterating
  | exhausted
  | cancelled
  deriving DecidableEq, Inhabited

namespace StreamState

def name : StreamState → String
  | created => "Created"
  | iterating => "Iterating"
  | exhausted => "Exhausted"
  | cancelled => "Cancelled"

def hasEnded : StreamState → Bool
  | exhausted | cancelled => true
  | created | iterating => false

end StreamState

/-- What a stream tells about its progress. -/
structure Meter where
  state : StreamState
  /-- How many items there will be, if that is known. -/
  total? : Option Nat
  processed : Nat
  bytes : Nat
  chunkSize : Nat
  deriving DecidableEq, Inhabited

namespace Meter

def start (total? : Option Nat) (chunkSize : Nat) : Meter := ⟨.created, total?, 0, 0, chunkSize⟩

/-- The part of the stream that was consumed. With an unknown total it is 0 until the end. -/
def progress (meter : Meter) : Binary64 :=
  if meter.state = .exhausted then Binary64.one
  else match meter.total? with
    | some 0 => Binary64.one
    | some total =>
      ((Binary64.ofWord meter.processed).div (Binary64.ofWord total)).minimum Binary64.one
    | none => Binary64.zero

end Meter

/-- Items that are pulled one by one. `remaining` bounds how many are still to come. -/
structure Source (Item : Type) : Type 1 where
  Core : Type
  core : Core
  pull : Core → Flow (Option Item × Core)
  remaining : Core → Nat

structure Stream (Item : Type) : Type 1 where
  source : Source Item
  meter : Meter
  /-- The bytes that an item counts for. -/
  weigh? : Option (Item → Nat)

namespace Stream

variable {Item : Type}

/-- The part of a stream that changes when it is pulled. -/
abbrev Position (stream : Stream Item) : Type := stream.source.Core × Meter

def position (stream : Stream Item) : stream.Position := (stream.source.core, stream.meter)

def atPosition (stream : Stream Item) (position : stream.Position) : Stream Item :=
  { stream with source := { stream.source with core := position.1 }, meter := position.2 }

def weight (stream : Stream Item) (item : Item) : Nat :=
  match stream.weigh? with
  | some weigh => weigh item
  | none => 0

/-- The meter after a pull of the source. -/
def meterAfter (stream : Stream Item) (meter : Meter) (cancelled : Bool) :
    Option Item → Meter
  | some item =>
    { meter with
      state := .iterating
      processed := meter.processed + 1
      bytes := meter.bytes + stream.weight item }
  | none => { meter with state := if cancelled then .cancelled else .exhausted }

/-- The next item from a position of the stream. -/
def advance (stream : Stream Item) (position : stream.Position) :
    Flow (Option Item × stream.Position) := do
  let (core, meter) := position
  if meter.state.hasEnded then return (none, position)
  if ← Flow.isCancelled then return (none, core, { meter with state := .cancelled })
  let (item?, core) ← stream.source.pull core
  return (item?, core, stream.meterAfter meter (← Flow.isCancelled) item?)

/-- The next item of the stream, and its position after it. -/
def next (stream : Stream Item) : Flow (Option Item × stream.Position) :=
  stream.advance stream.position

def ofSource (source : Source Item) (total? : Option Nat) (chunkSize : Nat)
    (weigh? : Option (Item → Nat)) : Stream Item :=
  ⟨source, .start total? chunkSize, weigh?⟩

/-- How many more items can come at most. -/
def remaining (stream : Stream Item) : Nat := stream.source.remaining stream.source.core

/-! ## Draining -/

/-- Pulls up to `bound` items, and tells the position after the last pull. -/
def drainFrom (stream : Stream Item) : (bound : Nat) → stream.Position →
    Flow (List Item × stream.Position)
  | 0, position => return ([], position)
  | bound + 1, position => do
    let (item?, position) ← stream.advance position
    match item? with
    | none => return ([], position)
    | some item =>
      let (items, position) ← drainFrom stream bound position
      return (item :: items, position)

/-- All items that are left, and the position at the end. -/
def drain (stream : Stream Item) : Flow (List Item × stream.Position) :=
  stream.drainFrom (stream.remaining + 1) stream.position

/-- The first `limit` items, or all. One more item is pulled to tell a limit from the end. -/
def collect (stream : Stream Item) (limit? : Option Nat) : Flow (List Item) := do
  let bound := match limit? with
    | some limit => min limit (stream.remaining + 1)
    | none => stream.remaining + 1
  let (items, position) ← stream.drainFrom bound stream.position
  let (_, _) ← stream.advance position
  return items

/-- Folds the items into one result for each key, keys in the order of their first items. -/
def group {Key Result : Type} [DecidableEq Key] (stream : Stream Item) (key : Item → Key)
    (initial : Result) (fold : Result → Item → Result) : Flow (List (Key × Result)) := do
  let (items, _) ← stream.drain
  let add (groups : List (Key × Result)) (item : Item) : List (Key × Result) :=
    if groups.any (·.1 = key item) then
      groups.map fun (name, result) =>
        if name = key item then (name, fold result item) else (name, result)
    else groups ++ [(key item, fold initial item)]
  return items.foldl add []

end Stream

end TierVault
