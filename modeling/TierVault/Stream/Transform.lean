import TierVault.Stream.Basic
import TierVault.Stream.Source

/-!
Streams made of streams.

Each transform pulls the stream below it, so that every layer looks at the cancellation flag. A
batch that was cut short by a cancellation is not handed out, and a window that could not be filled
is not either.
-/

namespace TierVault.Stream

variable {Item Result : Type}

/-- A stream over `stream` whose pulls also carry an own state. -/
def layer {Own : Type} (stream : Stream Item) (own : Own)
    (pull : stream.Position × Own → Flow (Option Result × stream.Position × Own))
    (remaining : stream.Position × Own → Nat) (total? : Option Nat) (chunkSize : Nat) :
    Stream Result :=
  ofSource
    { Core := stream.Position × Own
      core := (stream.position, own)
      pull := pull
      remaining := remaining }
    total? chunkSize none

/-- How many items can still come from a position. -/
def remainingFrom (stream : Stream Item) (position : stream.Position) : Nat :=
  stream.source.remaining position.1

def map (stream : Stream Item) (transform : Item → Flow Result) : Stream Result :=
  stream.layer ()
    (fun (position, _) => do
      let (item?, position) ← stream.advance position
      match item? with
      | none => return (none, position, ())
      | some item => return (some (← transform item), position, ()))
    (fun (position, _) => stream.remainingFrom position)
    stream.meter.total? stream.meter.chunkSize

/-- Pulls until an item is kept, at most `bound` times. -/
def seek (stream : Stream Item) (keep : Item → Flow Bool) : (bound : Nat) → stream.Position →
    Flow (Option Item × stream.Position)
  | 0, position => return (none, position)
  | bound + 1, position => do
    let (item?, position) ← stream.advance position
    match item? with
    | none => return (none, position)
    | some item => if ← keep item then return (some item, position) else seek stream keep bound position

/-- How many items remain is no longer known. -/
def filter (stream : Stream Item) (keep : Item → Flow Bool) : Stream Item :=
  stream.layer ()
    (fun (position, _) => do
      let (item?, position) ← stream.seek keep (stream.remainingFrom position + 1) position
      return (item?, position, ()))
    (fun (position, _) => stream.remainingFrom position)
    none stream.meter.chunkSize

/-- Consecutive items in lists of `size`; the last one may be short. -/
def batch (stream : Stream Item) (size : Nat) : Stream (List Item) :=
  let size := max size 1
  stream.layer ()
    (fun (position, _) => do
      let (items, position) ← stream.drainFrom size position
      if items.isEmpty || position.2.state = .cancelled then return (none, position, ())
      else return (some items, position, ()))
    (fun (position, _) => stream.remainingFrom position)
    (stream.meter.total?.map (groupCount · size)) size

/-- The first `count` items. -/
def take (stream : Stream Item) (count : Nat) : Stream Item :=
  stream.layer count
    (fun (position, left) =>
      match left with
      | 0 => return (none, position, 0)
      | left + 1 => do
        let (item?, position) ← stream.advance position
        return (item?, position, left))
    (fun (position, left) => min left (stream.remainingFrom position))
    (stream.meter.total?.map (min · count)) stream.meter.chunkSize

/-- Pulls `count` items away; `false` if the stream ends before. -/
def discard (stream : Stream Item) : (count : Nat) → stream.Position → Flow (Bool × stream.Position)
  | 0, position => return (true, position)
  | count + 1, position => do
    let (item?, position) ← stream.advance position
    if item?.isSome then discard stream count position else return (false, position)

/-- All but the first `count` items. -/
def skip (stream : Stream Item) (count : Nat) : Stream Item :=
  stream.layer count
    (fun (position, left) => do
      let (there, position) ← stream.discard left position
      if !there then return (none, position, 0)
      let (item?, position) ← stream.advance position
      return (item?, position, 0))
    (fun (position, _) => stream.remainingFrom position)
    (stream.meter.total?.map (· - count)) stream.meter.chunkSize

/-! ## Windows -/

/-- The items of the window being filled, and how many items must pass before the next one enters. -/
structure WindowState (Item : Type) where
  held : List Item
  pendingSkip : Nat
  deriving DecidableEq

/-- Pulls until the window is full, at most `bound` times; `false` if the stream ends before. -/
def fillWindow (stream : Stream Item) (width : Nat) : (bound : Nat) →
    stream.Position × WindowState Item → Flow (Bool × stream.Position × WindowState Item)
  | bound, (position, window) =>
    if width ≤ window.held.length then return (true, position, window)
    else match bound with
      | 0 => return (false, position, window)
      | bound + 1 => do
        let (item?, position) ← stream.advance position
        match item? with
        | none => return (false, position, window)
        | some item =>
          if 0 < window.pendingSkip then
            fillWindow stream width bound
              (position, { window with pendingSkip := window.pendingSkip - 1 })
          else
            fillWindow stream width bound (position, { window with held := window.held ++ [item] })

/-- `transform` of every full window of `width` items; windows begin `step` items apart. -/
def windows (stream : Stream Item) (width step : Nat) (transform : List Item → Flow Result) :
    Stream Result :=
  let width := max width 1
  let step := max step 1
  stream.layer (WindowState.mk [] 0 : WindowState Item)
    (fun (position, window) => do
      let (full, position, window) ←
        stream.fillWindow width (stream.remainingFrom position + 1) (position, window)
      if !full then return (none, position, window)
      let result ← transform window.held
      let dropped := min step window.held.length
      return (some result, position, ⟨window.held.drop dropped, step - dropped⟩))
    (fun (position, window) => stream.remainingFrom position + window.held.length)
    none width

end TierVault.Stream
