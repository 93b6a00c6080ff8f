import TierVault.Entry

/-!
Which entries leave a tier.

The least recently used entries go first, and no more of them than are needed. Entries that were last
used at the same time leave in the order in which a heap of all candidates hands them out.
-/

/-! # Heaps

Heaps in an array.

The children of a place stand at twice the place and one or two more, and no item is less than its
children. Items that compare as equal leave a heap in an order that the places decide: a hole is
filled from below, by the second of two equal children. Main statement: what a heap hands out is what
was put into it.
-/

namespace TierVault.Heap

variable {Item : Type} (atMost : Item → Item → Bool)

/-- The place of the greater child. -/
def greaterChild? (items : Array Item) (place : Nat) : Option Nat :=
  match items[2 * place + 1]?, items[2 * place + 2]? with
  | some left, some right => some (if atMost left right then 2 * place + 2 else 2 * place + 1)
  | some _, none => some (2 * place + 1)
  | none, _ => none

/-- The item at one place is at most that at another. -/
def isOrdered (items : Array Item) (lower upper : Nat) : Bool :=
  match items[lower]?, items[upper]? with
  | some lesser, some greater => atMost lesser greater
  | _, _ => true

/-- Lets an item sink until no child is greater. -/
def sink : (bound place : Nat) → Array Item → Array Item
  | 0, _, items => items
  | bound + 1, place, items =>
    match greaterChild? atMost items place with
    | none => items
    | some child =>
      if isOrdered atMost items child place then items
      else sink bound child (items.swapIfInBounds place child)

/-- Makes a heap of the items, from the last parent up. -/
def build (items : Array Item) : Array Item :=
  (List.range (items.size / 2)).foldr (sink atMost items.size) items

/-- Lets an item sink to a place without children, and tells the place. -/
def sinkToLeaf : (bound place : Nat) → Array Item → Nat × Array Item
  | 0, place, items => (place, items)
  | bound + 1, place, items =>
    match greaterChild? atMost items place with
    | none => (place, items)
    | some child => sinkToLeaf bound child (items.swapIfInBounds place child)

/-- Lets an item rise until its parent is not less. -/
def rise : (bound place : Nat) → Array Item → Array Item
  | 0, _, items => items
  | bound + 1, place, items =>
    if place = 0 || isOrdered atMost items place ((place - 1) / 2) then items
    else rise bound ((place - 1) / 2) (items.swapIfInBounds place ((place - 1) / 2))

/-- Repairs a heap whose first item came from its end: the item sinks all the way, and rises from
there. -/
def settle (items : Array Item) : Array Item :=
  let (place, items) := sinkToLeaf atMost items.size 0 items
  rise atMost items.size place items

/-- Takes the first item out as often as `count` tells. -/
def drain : (count : Nat) → Array Item → List Item
  | 0, _ => []
  | count + 1, items =>
    let moved := items.swapIfInBounds 0 (items.size - 1)
    match moved.back? with
    | none => []
    | some greatest => greatest :: drain count (settle atMost moved.pop)

/-- The items in the order in which a heap of all of them hands them out, the greatest first. -/
def release (items : List Item) : List Item :=
  drain atMost items.length (build atMost items.toArray)

/-! ## Nothing is lost -/

theorem swapIfInBounds_perm (items : Array Item) (left right : Nat) :
    (items.swapIfInBounds left right).Perm items := by
  unfold Array.swapIfInBounds
  split
  · split
    · exact Array.swap_perm _ _
    · exact .rfl
  · exact .rfl

theorem sink_perm (bound place : Nat) (items : Array Item) :
    (sink atMost bound place items).Perm items := by
  induction bound generalizing place items with
  | zero => exact .rfl
  | succ bound induction =>
    unfold sink
    split
    · exact .rfl
    · split
      · exact .rfl
      · exact (induction _ _).trans (swapIfInBounds_perm _ _ _)

theorem build_perm (items : Array Item) : (build atMost items).Perm items := by
  unfold build
  generalize items.size = bound
  generalize List.range _ = places
  induction places with
  | nil => exact .rfl
  | cons place rest induction => exact (sink_perm _ _ _ _).trans induction

theorem sinkToLeaf_perm (bound place : Nat) (items : Array Item) :
    (sinkToLeaf atMost bound place items).2.Perm items := by
  induction bound generalizing place items with
  | zero => exact .rfl
  | succ bound induction =>
    unfold sinkToLeaf
    split
    · exact .rfl
    · exact (induction _ _).trans (swapIfInBounds_perm _ _ _)

theorem rise_perm (bound place : Nat) (items : Array Item) :
    (rise atMost bound place items).Perm items := by
  induction bound generalizing place items with
  | zero => exact .rfl
  | succ bound induction =>
    unfold rise
    split
    · exact .rfl
    · exact (induction _ _).trans (swapIfInBounds_perm _ _ _)

theorem settle_perm (items : Array Item) : (settle atMost items).Perm items :=
  (rise_perm _ _ _ _).trans (sinkToLeaf_perm _ _ _ _)

theorem drain_perm (count : Nat) (items : Array Item) (all : count = items.size) :
    (drain atMost count items).Perm items.toList := by
  induction count generalizing items with
  | zero =>
    have empty : items = #[] := Array.eq_empty_of_size_eq_zero all.symm
    simp [drain, empty]
  | succ count induction =>
    have moved := swapIfInBounds_perm items 0 (items.size - 1)
    unfold drain
    generalize items.swapIfInBounds 0 (items.size - 1) = swapped at moved
    have size : swapped.size = count + 1 := by rw [moved.size_eq, all]
    dsimp only
    split
    · rename_i none
      simp [Array.back?_eq_none_iff] at none
      simp [none] at size
    · rename_i greatest last
      have rest := induction (settle atMost swapped.pop) (by
        rw [(settle_perm atMost _).size_eq, Array.size_pop, size]; rfl)
      have pushed : swapped = swapped.pop.push greatest := by
        obtain ⟨_, rfl⟩ := Array.back?_eq_some_iff.1 last
        simp
      refine List.Perm.trans ?_ moved.toList
      rw [pushed]
      simp only [Array.toList_push, Array.pop_push]
      exact (List.Perm.cons _ (rest.trans (settle_perm atMost _).toList)).trans
        (List.perm_append_singleton _ _).symm

/-- A heap hands out what was put into it. -/
theorem release_perm (items : List Item) : (release atMost items).Perm items := by
  have built := build_perm atMost items.toArray
  exact (drain_perm atMost _ _ (by simpa using built.size_eq.symm)).trans built.toList

example : release (fun (left right : Nat × Nat) => left.1 ≤ right.1)
    [(1, 0), (1, 1), (1, 2), (0, 3)] = [(1, 0), (1, 2), (1, 1), (0, 3)] := by decide

end TierVault.Heap

/-! # Victims -/

namespace TierVault

/-- When something was last used: a reading of the clock, and the tick that tells equal readings
apart. -/
structure Recency where
  lastAccess : Nat
  tick : Nat
  deriving DecidableEq, Inhabited

namespace Recency

def compare (left right : Recency) : Ordering :=
  (Ord.compare left.lastAccess right.lastAccess).then (Ord.compare left.tick right.tick)

/-- `left` is at least as old as `right`. -/
def notAfter (left right : Recency) : Bool :=
  left.lastAccess < right.lastAccess ||
    (left.lastAccess == right.lastAccess && left.tick ≤ right.tick)

end Recency

def Entry.recency (entry : Entry) : Recency := ⟨entry.lastAccess, entry.accessTick⟩

/-- An entry that may be asked to leave. -/
structure Candidate where
  key : String
  size : Nat
  recency : Recency
  deriving DecidableEq, Inhabited

namespace Candidate

def ofEntry (entry : Entry) : Candidate := ⟨entry.key, entry.size, entry.recency⟩

/-- The older candidate is the greater one: it leaves first. -/
def priority (left right : Candidate) : Ordering :=
  Recency.compare right.recency left.recency

end Candidate

namespace Eviction

/-- The entries of a tier that are not protected. -/
def candidates (entries : List Entry) (tier : Tier) (protectedKeys : List String) :
    List Candidate :=
  (entries.filter fun entry => entry.tier == tier && !protectedKeys.contains entry.key).map
    Candidate.ofEntry

/-- The candidates by age. The heap settles the order of those that are equally old. -/
def oldestFirst (candidates : List Candidate) : List Candidate :=
  (Heap.release (fun left right => (left.priority right).isLE) candidates).mergeSort
    fun left right => left.recency.notAfter right.recency

theorem oldestFirst_perm (candidates : List Candidate) :
    (oldestFirst candidates).Perm candidates :=
  (List.mergeSort_perm _ _).trans (Heap.release_perm _ _)

/-- The shortest beginning of the list that frees `needed` bytes beside those already `freed`, or all
of it. -/
def takeUntilFreed (needed : Nat) : (freed : Nat) → List Candidate → Except Fault (List Candidate)
  | _, [] => .ok []
  | freed, candidate :: rest => do
    if needed ≤ freed then return []
    let freed ← Word.sum freed candidate.size
    return candidate :: (← takeUntilFreed needed freed rest)

/-- The entries of `tier` that must leave to free `needed` bytes, oldest first. If the tier cannot
free that much, all that may leave. -/
def victims (entries : List Entry) (tier : Tier) (needed : Nat) (protectedKeys : List String) :
    Except Fault (List Candidate) :=
  takeUntilFreed needed 0 (oldestFirst (candidates entries tier protectedKeys))

end Eviction

end TierVault
