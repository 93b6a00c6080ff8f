import TierVault.Fault
import TierVault.Sums

/-!
Items in the order of their last use, oldest first, each with the bytes that it counts for.

Putting an item drops the oldest others, and only as many of them as it needs to fit a budget.
-/

namespace TierVault

/-- An item under its key. -/
structure Resident (Item : Type) where
  key : String
  size : Nat
  item : Item

namespace RecencyList

variable {Item : Type}

def find? (key : String) (residents : List (Resident Item)) : Option (Resident Item) :=
  residents.find? (·.key == key)

def has (key : String) (residents : List (Resident Item)) : Bool :=
  (find? key residents).isSome

def remove (key : String) (residents : List (Resident Item)) : List (Resident Item) :=
  residents.filter (·.key != key)

def total (residents : List (Resident Item)) : Nat :=
  sumOf (residents.map Resident.size)

/-- Uses an item: what is left of it stands last. -/
def use (key : String) (change : Item → Item) (residents : List (Resident Item)) :
    List (Resident Item) :=
  match find? key residents with
  | some resident => remove key residents ++ [{ resident with item := change resident.item }]
  | none => residents

/-- Drops the oldest items until `incoming` more bytes fit the budget. -/
def makeRoom (budget incoming : Nat) : List (Resident Item) → List (Resident Item)
  | [] => []
  | resident :: rest =>
    if total (resident :: rest) + incoming ≤ budget then resident :: rest
    else makeRoom budget incoming rest

/-- Puts an item, in place of the one under its key if there is one. -/
def put (budget : Nat) (resident : Resident Item) (residents : List (Resident Item)) :
    List (Resident Item) :=
  makeRoom budget resident.size (remove resident.key residents) ++ [resident]

/-- Keys and sizes, oldest first. -/
def listing (residents : List (Resident Item)) : List (String × Nat) :=
  residents.map fun resident => (resident.key, resident.size)

end RecencyList

end TierVault
