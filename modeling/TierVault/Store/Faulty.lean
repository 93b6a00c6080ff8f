import TierVault.Store.Basic

/-!
A store whose calls can be made to fail.

Each kind of call has a switch. While it is on, the call reports an error before it does anything;
one more switch makes every read come back empty, whatever the others say.
-/

namespace TierVault

/-- What can be made to fail. -/
inductive Switch
  | get
  | put
  | delete
  | clear
  | entries
  /-- Reads find nothing. -/
  | miss
  deriving DecidableEq, Inhabited

/-- A world and the switches that are on. -/
structure Switched (World : Type) where
  on : List Switch
  inner : World

namespace Switched

variable {World Result : Type}

def turn (switch : Switch) (on : Bool) (world : Switched World) : Switched World :=
  let others := world.on.filter (· ≠ switch)
  { world with on := if on then switch :: others else others }

def inside (action : StoreAction World Result) : StoreAction (Switched World) Result :=
  .within Switched.inner (fun world inner => { world with inner }) action

/-- A call that its switch can make fail. -/
def guarded (switch : Switch) (action : StoreAction (Switched World) Result) :
    StoreAction (Switched World) Result := do
  if (← getThe (Switched World)).on.contains switch then throw (.io .other)
  action

def store (inner : Store World) : Store (Switched World) where
  name := inner.name
  budget := inner.budget
  get key := guarded .get do
    if (← getThe (Switched World)).on.contains .miss then return none
    inside (inner.get key)
  put key value := guarded .put (inside (inner.put key value))
  has key := inside (inner.has key)
  delete key := guarded .delete (inside (inner.delete key))
  clear := guarded .clear (inside inner.clear)
  size := inside inner.size
  entries := guarded .entries (inside inner.entries)

end Switched

end TierVault
