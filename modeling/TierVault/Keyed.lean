/-!
Lists of items under keys.

The list keeps its order: putting an item under a key that is there replaces the item where it
stands, and a new key comes last.
-/

namespace TierVault

abbrev Keyed (Key Item : Type) := List (Key × Item)

namespace Keyed

variable {Key Item : Type} [DecidableEq Key]

def find? (key : Key) : Keyed Key Item → Option Item
  | [] => none
  | (other, item) :: rest => if other = key then some item else find? key rest

def has (key : Key) (items : Keyed Key Item) : Bool := (find? key items).isSome

def put (key : Key) (item : Item) : Keyed Key Item → Keyed Key Item
  | [] => [(key, item)]
  | (other, held) :: rest =>
    if other = key then (key, item) :: rest else (other, held) :: put key item rest

def remove (key : Key) (items : Keyed Key Item) : Keyed Key Item :=
  items.filter fun pair => pair.1 ≠ key

def keys (items : Keyed Key Item) : List Key := items.map Prod.fst

@[simp] theorem find?_nil (key : Key) : find? key ([] : Keyed Key Item) = none := rfl

@[simp] theorem find?_put_same (key : Key) (item : Item) (items : Keyed Key Item) :
    find? key (put key item items) = some item := by
  induction items with
  | nil => simp [put, find?]
  | cons head rest induction =>
    obtain ⟨other, held⟩ := head
    by_cases equal : other = key <;> simp [put, find?, equal, induction]

@[simp] theorem find?_put_other {key asked : Key} (item : Item) (items : Keyed Key Item)
    (different : asked ≠ key) : find? asked (put key item items) = find? asked items := by
  induction items with
  | nil => simp [put, find?, different.symm]
  | cons head rest induction =>
    obtain ⟨other, held⟩ := head
    by_cases equal : other = key
    · subst equal
      simp [put, find?, different.symm]
    · simp [put, find?, equal, induction]

@[simp] theorem find?_remove_same (key : Key) (items : Keyed Key Item) :
    find? key (remove key items) = none := by
  induction items with
  | nil => rfl
  | cons head rest induction =>
    obtain ⟨other, held⟩ := head
    by_cases equal : other = key
    · simpa [remove, equal] using induction
    · simpa [remove, find?, equal] using induction

@[simp] theorem find?_remove_other {key asked : Key} (items : Keyed Key Item)
    (different : asked ≠ key) : find? asked (remove key items) = find? asked items := by
  induction items with
  | nil => rfl
  | cons head rest induction =>
    obtain ⟨other, held⟩ := head
    by_cases equal : other = key
    · subst equal
      simpa [remove, find?, different.symm] using induction
    · by_cases found : other = asked
      · simp [remove, find?, found, different]
      · simpa [remove, find?, equal, found] using induction

end Keyed

end TierVault
