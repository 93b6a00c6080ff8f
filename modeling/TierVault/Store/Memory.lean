import TierVault.RecencyList
import TierVault.Store.Basic

/-!
A store in process memory.

Values are kept as they are; their encoded size counts against the budget.
-/

namespace TierVault

abbrev MemoryWorld := List (Resident Value)

namespace MemoryStore

def get (key : String) : StoreAction MemoryWorld (Option Value) := do
  let residents ← getThe MemoryWorld
  match RecencyList.find? key residents with
  | none => return none
  | some resident =>
    set (RecencyList.use key id residents)
    return some resident.item

def put (budget : Nat) (key : String) (value : Value) : StoreAction MemoryWorld Unit := do
  let size ← .ofExcept .codec value.encodedSize
  if budget < size then throw (.tooLarge size budget)
  modify (RecencyList.put budget ⟨key, size, value⟩)

def delete (key : String) : StoreAction MemoryWorld Bool := do
  let residents ← getThe MemoryWorld
  set (RecencyList.remove key residents)
  return RecencyList.has key residents

/-- A memory store that holds at most `budget` encoded bytes. -/
def store (budget : Nat) : Store MemoryWorld where
  name := "memory"
  budget := budget
  get := get
  put := put budget
  has key := return RecencyList.has key (← getThe MemoryWorld)
  delete := delete
  clear := set ([] : MemoryWorld)
  size := return RecencyList.total (← getThe MemoryWorld)
  entries := return RecencyList.listing (← getThe MemoryWorld)

end MemoryStore

end TierVault
