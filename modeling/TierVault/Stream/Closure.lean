import TierVault.Stream.Pipeline

/-!
Functions that keep a state between their calls.

What such a function does with an item may depend on all calls before, so it can cancel its pipeline at
any one of them, however often the same item comes. The transforms that call a function are given here
for functions with a state; a function without one is the case of a state that tells nothing.
-/

namespace TierVault

structure Closure (Argument Result : Type) : Type 1 where
  State : Type
  state : State
  call : State → Argument → Flow (Result × State)

namespace Closure

/-- A function that does the same at every call. -/
def ofFunction {Argument Result : Type} (function : Argument → Flow Result) :
    Closure Argument Result where
  State := Unit
  state := ()
  call _ argument := do return (← function argument, ())

end Closure

namespace Stream

variable {Item Result : Type}

def mapBy (stream : Stream Item) (transform : Closure Item Result) : Stream Result :=
  stream.layer transform.state
    (fun (position, state) => do
      let (item?, position) ← stream.advance position
      match item? with
      | none => return (none, position, state)
      | some item =>
        let (result, state) ← transform.call state item
        return (some result, position, state))
    (fun (position, _) => stream.remainingFrom position)
    stream.meter.total? stream.meter.chunkSize

/-- Pulls until an item is kept, at most `bound` times. -/
def seekBy (stream : Stream Item) (keep : Closure Item Bool) : (bound : Nat) →
    stream.Position × keep.State → Flow (Option Item × stream.Position × keep.State)
  | 0, place => return (none, place)
  | bound + 1, (position, state) => do
    let (item?, position) ← stream.advance position
    match item? with
    | none => return (none, position, state)
    | some item =>
      let (kept, state) ← keep.call state item
      if kept then return (some item, position, state)
      else seekBy stream keep bound (position, state)

def filterBy (stream : Stream Item) (keep : Closure Item Bool) : Stream Item :=
  stream.layer keep.state
    (fun (position, state) => stream.seekBy keep (stream.remainingFrom position + 1) (position, state))
    (fun (position, _) => stream.remainingFrom position)
    none stream.meter.chunkSize

def windowsBy (stream : Stream Item) (width step : Nat) (transform : Closure (List Item) Result) :
    Stream Result :=
  let width := max width 1
  let step := max step 1
  stream.layer ((WindowState.mk [] 0 : WindowState Item), transform.state)
    (fun (position, window, state) => do
      let (full, position, window) ←
        stream.fillWindow width (stream.remainingFrom position + 1) (position, window)
      if !full then return (none, position, window, state)
      let (result, state) ← transform.call state window.held
      let dropped := min step window.held.length
      return (some result, position, ⟨window.held.drop dropped, step - dropped⟩, state))
    (fun (position, window, _) => stream.remainingFrom position + window.held.length)
    none width

end Stream

/-- Transforms one after the other, whose functions may keep a state. -/
inductive ClosurePipeline : Type → Type → Type 1
  | done {Item : Type} : ClosurePipeline Item Item
  | map {Item Middle Result : Type} (transform : Closure Item Middle)
      (rest : ClosurePipeline Middle Result) : ClosurePipeline Item Result
  | filter {Item Result : Type} (keep : Closure Item Bool) (rest : ClosurePipeline Item Result) :
      ClosurePipeline Item Result
  | batch {Item Result : Type} (size : Nat) (rest : ClosurePipeline (List Item) Result) :
      ClosurePipeline Item Result
  | take {Item Result : Type} (count : Nat) (rest : ClosurePipeline Item Result) :
      ClosurePipeline Item Result
  | skip {Item Result : Type} (count : Nat) (rest : ClosurePipeline Item Result) :
      ClosurePipeline Item Result
  | windows {Item Middle Result : Type} (width step : Nat)
      (transform : Closure (List Item) Middle) (rest : ClosurePipeline Middle Result) :
      ClosurePipeline Item Result

namespace ClosurePipeline

/-- The stream that the pipeline makes of a stream. -/
def apply {Item Result : Type} : ClosurePipeline Item Result → Stream Item → Stream Result
  | done, stream => stream
  | map transform rest, stream => rest.apply (stream.mapBy transform)
  | filter keep rest, stream => rest.apply (stream.filterBy keep)
  | batch size rest, stream => rest.apply (stream.batch size)
  | take count rest, stream => rest.apply (stream.take count)
  | skip count rest, stream => rest.apply (stream.skip count)
  | windows width step transform rest, stream =>
    rest.apply (stream.windowsBy width step transform)

end ClosurePipeline

/-- The pipeline, each of its functions with a state that tells nothing. -/
def Pipeline.withState {Item Result : Type} : Pipeline Item Result → ClosurePipeline Item Result
  | done => .done
  | map transform rest => .map (.ofFunction transform) rest.withState
  | filter keep rest => .filter (.ofFunction keep) rest.withState
  | batch size rest => .batch size rest.withState
  | take count rest => .take count rest.withState
  | skip count rest => .skip count rest.withState
  | windows width step transform rest => .windows width step (.ofFunction transform) rest.withState

end TierVault
