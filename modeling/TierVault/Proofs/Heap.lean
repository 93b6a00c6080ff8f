import TierVault.Eviction

/-!
Heaps hand their items out by rank, the greatest first.

No item stands below a lesser one, so none is greater than the first. While an item moves, its place is a hole:
the items next to it may be out of order with it, but those below it still go under the one above it. The hole
goes down when the greater child takes its place, and up when the item above does; nothing else changes. Once
the item in the hole is in order with those above and below it, the items are a heap again.
-/

namespace TierVault.Heap

variable {Item : Type} {atMost : Item → Item → Bool}

/-- Any two items compare. Different items may be equal in rank. -/
structure Ranking (atMost : Item → Item → Bool) : Prop where
  total : ∀ left right, atMost left right = true ∨ atMost right left = true
  trans : ∀ {first second third}, atMost first second = true → atMost second third = true →
    atMost first third = true

/-- What one place holds is at most what another one holds. A place behind the last one is empty, and goes under
every other. -/
def Under (atMost : Item → Item → Bool) : (lower upper : Option Item) → Prop
  | none, _ => True
  | some _, none => False
  | some lesser, some greater => atMost lesser greater = true

namespace Under

variable {first second third : Option Item}

theorem refl (ranking : Ranking atMost) (held : Option Item) : Under atMost held held := by
  cases held with
  | none => trivial
  | some item => exact (ranking.total item item).elim id id

theorem trans (ranking : Ranking atMost) (low : Under atMost first second) (high : Under atMost second third) :
    Under atMost first third := by
  match first, second, third with
  | none, _, _ => trivial
  | some _, some _, some _ => exact ranking.trans low high

theorem total (ranking : Ranking atMost) (left right : Option Item) :
    Under atMost left right ∨ Under atMost right left := by
  match left, right with
  | none, _ => exact .inl trivial
  | some _, none => exact .inr trivial
  | some left, some right => exact ranking.total left right

end Under

/-! ## Places -/

section

variable {items : Array Item} {place child hole : Nat}

/-- The place above. The first place has none. -/
def parent (place : Nat) : Nat := (place - 1) / 2

theorem parent_lt (inner : 0 < place) : parent place < place := by
  unfold parent
  omega

/-- The two places below. -/
theorem parent_eq_iff : 0 < place ∧ parent place = hole ↔ place = 2 * hole + 1 ∨ place = 2 * hole + 2 := by
  unfold parent
  omega

theorem isOrdered_iff (atMost : Item → Item → Bool) (lower : Nat) {upper : Nat} (inside : upper < items.size) :
    isOrdered atMost items lower upper = true ↔ Under atMost items[lower]? items[upper]? := by
  unfold isOrdered
  rw [Array.getElem?_eq_getElem inside]
  cases items[lower]? with
  | none => exact iff_of_true rfl trivial
  | some lesser => exact Iff.rfl

theorem greaterChild?_eq_none (leaf : greaterChild? atMost items hole = none) (inner : 0 < place)
    (below : parent place = hole) : items[place]? = none := by
  have side := parent_eq_iff.mp ⟨inner, below⟩
  unfold greaterChild? at leaf
  split at leaf
  · cases leaf
  · cases leaf
  · rename_i missing
    rw [Array.getElem?_eq_none_iff] at missing ⊢
    omega

/-- One of the children is found, and the other one goes under it. -/
theorem greaterChild?_cases (ranking : Ranking atMost) (found : greaterChild? atMost items hole = some child) :
    child < items.size ∧
      (child = 2 * hole + 1 ∧ Under atMost items[2 * hole + 2]? items[2 * hole + 1]? ∨
        child = 2 * hole + 2 ∧ Under atMost items[2 * hole + 1]? items[2 * hole + 2]?) := by
  unfold greaterChild? at found
  split at found
  · rename_i left right first second
    rw [first, second]
    split at found
    · rename_i greater
      cases found
      exact ⟨(Array.getElem?_eq_some_iff.mp second).1, .inr ⟨rfl, greater⟩⟩
    · rename_i lesser
      cases found
      exact ⟨(Array.getElem?_eq_some_iff.mp first).1, .inl ⟨rfl, (ranking.total left right).resolve_left lesser⟩⟩
  · rename_i first second
    rw [second]
    cases found
    exact ⟨(Array.getElem?_eq_some_iff.mp first).1, .inl ⟨rfl, trivial⟩⟩
  · cases found

/-- The child that is found stands below, and whatever else stands there goes under it. -/
theorem greaterChild?_eq_some (ranking : Ranking atMost) (found : greaterChild? atMost items hole = some child) :
    0 < child ∧ parent child = hole ∧ child < items.size ∧
      ∀ place, 0 < place → parent place = hole → Under atMost items[place]? items[child]? := by
  obtain ⟨inside, side⟩ := greaterChild?_cases ranking found
  obtain ⟨inner, below⟩ := parent_eq_iff.mpr (side.imp And.left And.left)
  refine ⟨inner, below, inside, fun place within near => ?_⟩
  rcases side with ⟨rfl, greatest⟩ | ⟨rfl, greatest⟩
  · rcases parent_eq_iff.mp ⟨within, near⟩ with rfl | rfl
    · exact .refl ranking _
    · exact greatest
  · rcases parent_eq_iff.mp ⟨within, near⟩ with rfl | rfl
    · exact greatest
    · exact .refl ranking _

theorem getElem?_swapIfInBounds {first second : Nat} (inside : first < items.size)
    (insideToo : second < items.size) (place : Nat) :
    (items.swapIfInBounds first second)[place]? =
      if place = first then items[second]? else if place = second then items[first]? else items[place]? := by
  rw [Array.swapIfInBounds_def, dif_pos inside, dif_pos insideToo, Array.getElem?_swap,
    Array.getElem?_eq_getElem inside, Array.getElem?_eq_getElem insideToo]
  by_cases one : place = first
  · subst one
    by_cases same : second = place
    · subst same
      rw [if_pos rfl]
    · rw [if_neg same, if_pos rfl, if_pos rfl]
  · simp only [if_neg one, if_neg (Ne.symm one), eq_comm (a := second)]

end

/-! ## Order -/

section

variable {items : Array Item} {start hole child : Nat}

/-- From a place on, no item stands above a greater one. -/
def OrderedFrom (atMost : Item → Item → Bool) (start : Nat) (items : Array Item) : Prop :=
  ∀ place, 0 < place → start ≤ parent place → Under atMost items[place]? items[parent place]?

/-- The same but for the item in the hole. What is below the hole goes under what is above it. -/
structure OrderedBut (atMost : Item → Item → Bool) (start hole : Nat) (items : Array Item) : Prop where
  inside : hole < items.size
  elsewhere : ∀ place, 0 < place → start ≤ parent place → place ≠ hole → parent place ≠ hole →
    Under atMost items[place]? items[parent place]?
  across : ∀ place, 0 < place → parent place = hole → 0 < hole → start ≤ parent hole →
    Under atMost items[place]? items[parent hole]?

/-- The item in the hole goes under the one above it. -/
def FitsAbove (atMost : Item → Item → Bool) (start hole : Nat) (items : Array Item) : Prop :=
  0 < hole → start ≤ parent hole → Under atMost items[hole]? items[parent hole]?

/-- The items below the hole go under the one in it. -/
def FitsBelow (atMost : Item → Item → Bool) (hole : Nat) (items : Array Item) : Prop :=
  ∀ place, 0 < place → parent place = hole → Under atMost items[place]? items[hole]?

theorem fitsBelow_of_leaf (leaf : greaterChild? atMost items hole = none) : FitsBelow atMost hole items := by
  intro place inner below
  rw [greaterChild?_eq_none leaf inner below]
  trivial

namespace OrderedBut

theorem close (ordered : OrderedBut atMost start hole items) (above : FitsAbove atMost start hole items)
    (below : FitsBelow atMost hole items) : OrderedFrom atMost start items := by
  intro place inner after
  by_cases here : place = hole
  · subst here
    exact above inner after
  by_cases under : parent place = hole
  · rw [under]
    exact below place inner under
  · exact ordered.elsewhere place inner after here under

/-- The greater child takes the place of the hole. -/
theorem down (ranking : Ranking atMost) (ordered : OrderedBut atMost start hole items)
    (found : greaterChild? atMost items hole = some child) :
    OrderedBut atMost start child (items.swapIfInBounds hole child) := by
  obtain ⟨inner, under, inside, greatest⟩ := greaterChild?_eq_some ranking found
  have deeper : hole < child := under ▸ parent_lt inner
  have held := getElem?_swapIfInBounds ordered.inside inside
  refine ⟨by rwa [Array.size_swapIfInBounds], fun place within after apart beyond => ?_,
    fun place within below _ after => ?_⟩
  · have higher := parent_lt within
    rw [held place, held (parent place), if_neg apart, if_neg beyond]
    by_cases here : place = hole
    · -- The child that came up goes under what was above the hole.
      subst here
      rw [if_pos rfl, if_neg (Nat.ne_of_lt higher)]
      exact ordered.across child inner under within after
    by_cases near : parent place = hole
    · -- The other child goes under it.
      rw [if_neg here, if_pos near]
      exact greatest place within near
    · rw [if_neg here, if_neg near]
      exact ordered.elsewhere place within after here near
  · -- What is below the new hole was in order with the child that went up.
    have higher := parent_lt within
    rw [held place, held (parent child), if_pos under, if_neg (by omega), if_neg (by omega), ← below]
    rw [under] at after
    exact ordered.elsewhere place within (by omega) (by omega) (by omega)

/-- The item above takes the place of the hole. -/
theorem up (ranking : Ranking atMost) (ordered : OrderedBut atMost 0 hole items) (inner : 0 < hole)
    (less : Under atMost items[parent hole]? items[hole]?) :
    OrderedBut atMost 0 (parent hole) (items.swapIfInBounds hole (parent hole)) ∧
      FitsBelow atMost (parent hole) (items.swapIfInBounds hole (parent hole)) := by
  have higher := parent_lt inner
  have inside : parent hole < items.size := Nat.lt_trans higher ordered.inside
  have held := getElem?_swapIfInBounds ordered.inside inside
  -- Below the new hole there are the item that came down, and the one that was beside the hole.
  have beside (place : Nat) (within : 0 < place) (near : parent place = parent hole) :
      Under atMost (items.swapIfInBounds hole (parent hole))[place]? items[parent hole]? := by
    have low : place ≠ parent hole := near ▸ Nat.ne_of_gt (parent_lt within)
    rw [held place]
    by_cases here : place = hole
    · rw [if_pos here]
      exact .refl ranking _
    · rw [if_neg here, if_neg low, ← near]
      exact ordered.elsewhere place within (Nat.zero_le _) here (near ▸ Nat.ne_of_lt higher)
  refine ⟨⟨by rwa [Array.size_swapIfInBounds], fun place within _ apart beyond => ?_,
    fun place within near more _ => ?_⟩, fun place within near => ?_⟩
  · have here : place ≠ hole := fun same => beyond (same ▸ rfl)
    rw [held place, held (parent place), if_neg here, if_neg apart, if_neg beyond]
    split
    · rename_i under
      exact ordered.across place within under inner (Nat.zero_le _)
    · rename_i under
      exact ordered.elsewhere place within (Nat.zero_le _) here under
  · have highest := parent_lt more
    rw [held (parent (parent hole)), if_neg (Nat.ne_of_lt (Nat.lt_trans highest higher)),
      if_neg (Nat.ne_of_lt highest)]
    exact (beside place within near).trans ranking
      (ordered.elsewhere (parent hole) more (Nat.zero_le _) (Nat.ne_of_lt higher) (by omega))
  · rw [held (parent hole), if_neg (Nat.ne_of_lt higher), if_pos rfl]
    exact (beside place within near).trans ranking less

end OrderedBut

/-- Nothing is greater than what stands first. -/
theorem OrderedFrom.under_first (ranking : Ranking atMost) (ordered : OrderedFrom atMost 0 items) (place : Nat) :
    Under atMost items[place]? items[0]? := by
  induction place using Nat.strongRecOn with
  | ind place induction =>
      rcases Nat.eq_zero_or_pos place with rfl | inner
      · exact .refl ranking _
      · exact (ordered place inner (Nat.zero_le _)).trans ranking (induction _ (parent_lt inner))

end

/-! ## Moving items -/

section

variable {items : Array Item} {bound start hole count : Nat}

theorem size_sink (bound place : Nat) (items : Array Item) : (sink atMost bound place items).size = items.size :=
  (sink_perm atMost bound place items).size_eq

/-- An item that has sunk leaves everything in order, if it was in order with what is above it. -/
theorem orderedFrom_sink (ranking : Ranking atMost) (ordered : OrderedBut atMost start hole items)
    (above : FitsAbove atMost start hole items) (enough : items.size ≤ bound + hole) :
    OrderedFrom atMost start (sink atMost bound hole items) := by
  induction bound generalizing hole items with
  | zero =>
      have inside := ordered.inside
      omega
  | succ bound induction =>
      unfold sink
      split
      · rename_i leaf
        exact ordered.close above (fitsBelow_of_leaf leaf)
      · rename_i child found
        obtain ⟨inner, under, inside, greatest⟩ := greaterChild?_eq_some ranking found
        have deeper : hole < child := under ▸ parent_lt inner
        have compared := isOrdered_iff atMost child ordered.inside
        split
        · rename_i less
          exact ordered.close above fun place within below =>
            (greatest place within below).trans ranking (compared.mp less)
        · rename_i more
          refine induction (ordered.down ranking found) (fun _ _ => ?_) ?_
          · have held := getElem?_swapIfInBounds ordered.inside inside
            rw [under, held child, held hole, if_neg (Nat.ne_of_gt deeper), if_pos rfl, if_pos rfl]
            exact (Under.total ranking _ _).resolve_right fun less => more (compared.mpr less)
          · rw [Array.size_swapIfInBounds]
            omega

/-- Sinking items one after the other, the last parent first, makes a heap of them. -/
theorem orderedFrom_foldr (ranking : Ranking atMost) (within : start ≤ items.size)
    (ordered : OrderedFrom atMost start items) :
    OrderedFrom atMost 0 ((List.range start).foldr (sink atMost items.size) items) := by
  induction start generalizing items with
  | zero => exact ordered
  | succ start induction =>
      have but : OrderedBut atMost start start items := by
        refine ⟨within, fun place inner after _ apart => ordered place inner (by omega), ?_⟩
        intro place inner below more after
        exact absurd (parent_lt more) (Nat.not_lt.mpr after)
      have sunk : OrderedFrom atMost start (sink atMost items.size start items) :=
        orderedFrom_sink ranking but (fun more after => absurd (parent_lt more) (Nat.not_lt.mpr after))
          (Nat.le_add_right _ _)
      rw [List.range_succ, List.foldr_append]
      have next := induction (by rw [size_sink]; omega) sunk
      rwa [size_sink] at next

theorem orderedFrom_build (ranking : Ranking atMost) (items : Array Item) :
    OrderedFrom atMost 0 (build atMost items) := by
  refine orderedFrom_foldr ranking (Nat.div_le_self _ _) fun place inner after => ?_
  have beyond : items.size ≤ place := by
    have := parent_eq_iff.mp ⟨inner, rfl⟩
    omega
  rw [Array.getElem?_eq_none beyond]
  trivial

/-- The item that sinks all the way reaches a place without children. -/
theorem orderedBut_sinkToLeaf (ranking : Ranking atMost) (ordered : OrderedBut atMost start hole items)
    (enough : items.size ≤ bound + hole) :
    OrderedBut atMost start (sinkToLeaf atMost bound hole items).1 (sinkToLeaf atMost bound hole items).2 ∧
      FitsBelow atMost (sinkToLeaf atMost bound hole items).1 (sinkToLeaf atMost bound hole items).2 := by
  induction bound generalizing hole items with
  | zero =>
      have inside := ordered.inside
      omega
  | succ bound induction =>
      unfold sinkToLeaf
      split
      · rename_i leaf
        exact ⟨ordered, fitsBelow_of_leaf leaf⟩
      · rename_i child found
        obtain ⟨inner, under, -, -⟩ := greaterChild?_eq_some ranking found
        have deeper : hole < child := under ▸ parent_lt inner
        refine induction (ordered.down ranking found) ?_
        rw [Array.size_swapIfInBounds]
        omega

theorem orderedFrom_rise (ranking : Ranking atMost) (ordered : OrderedBut atMost 0 hole items)
    (below : FitsBelow atMost hole items) (enough : hole ≤ bound) :
    OrderedFrom atMost 0 (rise atMost bound hole items) := by
  induction bound generalizing hole items with
  | zero =>
      cases Nat.le_zero.mp enough
      exact ordered.close (fun inner => absurd inner (Nat.lt_irrefl 0)) below
  | succ bound induction =>
      unfold rise
      rcases Nat.eq_zero_or_pos hole with rfl | inner
      · exact ordered.close (fun inner => absurd inner (Nat.lt_irrefl 0)) below
      have higher := parent_lt inner
      have compared := isOrdered_iff atMost hole (Nat.lt_trans higher ordered.inside)
      rw [decide_eq_false (Nat.ne_of_gt inner), Bool.false_or]
      change OrderedFrom atMost 0 (if isOrdered atMost items hole (parent hole) = true then items
        else rise atMost bound (parent hole) (items.swapIfInBounds hole (parent hole)))
      split
      · rename_i less
        exact ordered.close (fun _ _ => compared.mp less) below
      · rename_i more
        obtain ⟨moved, onward⟩ := ordered.up ranking inner
          ((Under.total ranking _ _).resolve_right fun less => more (compared.mpr less))
        exact induction moved onward (by omega)

/-- A heap with another item in its first place is repaired. -/
theorem orderedFrom_settle (ranking : Ranking atMost) (ordered : OrderedBut atMost 0 0 items) :
    OrderedFrom atMost 0 (settle atMost items) := by
  obtain ⟨sunk, below⟩ := orderedBut_sinkToLeaf ranking ordered (Nat.le_add_right items.size 0)
  exact orderedFrom_rise ranking sunk below (Nat.le_of_lt sunk.inside)

/-! ## Handing out -/

/-- With the last item in the first place, and without the first one, only the first place is out of order. -/
theorem orderedBut_pop (ordered : OrderedFrom atMost 0 items) (more : 1 < items.size) :
    OrderedBut atMost 0 0 (items.swapIfInBounds 0 (items.size - 1)).pop := by
  have held := getElem?_swapIfInBounds (Nat.lt_of_succ_lt more)
    (Nat.sub_lt (Nat.lt_of_succ_lt more) Nat.one_pos)
  refine ⟨?_, fun place inner _ apart beyond => ?_, fun _ _ _ inner => absurd inner (Nat.lt_irrefl 0)⟩
  · rw [Array.size_pop, Array.size_swapIfInBounds]
    omega
  rw [Array.getElem?_pop, Array.getElem?_pop, Array.size_swapIfInBounds]
  split
  · rename_i inside
    have higher := parent_lt inner
    rw [if_pos (Nat.lt_trans higher inside), held place, held (parent place), if_neg apart, if_neg beyond,
      if_neg (Nat.ne_of_lt inside), if_neg (Nat.ne_of_lt (Nat.lt_trans higher inside))]
    exact ordered place inner (Nat.zero_le _)
  · trivial

theorem drain_pairwise (ranking : Ranking atMost) (ordered : OrderedFrom atMost 0 items)
    (all : count = items.size) :
    (drain atMost count items).Pairwise fun earlier later => atMost later earlier = true := by
  induction count generalizing items with
  | zero => exact .nil
  | succ count induction =>
      have size : count = (settle atMost (items.swapIfInBounds 0 (items.size - 1)).pop).size := by
        rw [(settle_perm atMost _).size_eq, Array.size_pop, Array.size_swapIfInBounds, ← all]
        rfl
      have handed := drain_perm atMost (count + 1) items all
      unfold drain at handed ⊢
      dsimp only at handed ⊢
      cases last : (items.swapIfInBounds 0 (items.size - 1)).back? with
      | none => exact .nil
      | some greatest =>
          rw [last] at handed
          have first : items[0]? = some greatest := by
            rw [Array.back?_eq_getElem?, Array.size_swapIfInBounds,
              getElem?_swapIfInBounds (by omega) (by omega)] at last
            split at last
            · rename_i single
              rwa [single] at last
            · rwa [if_pos rfl] at last
          refine .cons (fun later member => ?_) ?_
          · have listed := handed.mem_iff.mp (List.mem_cons_of_mem greatest member)
            obtain ⟨place, held⟩ := Array.mem_iff_getElem?.mp (Array.mem_toList_iff.mp listed)
            have under := ordered.under_first ranking place
            rwa [held, first] at under
          · rcases Nat.eq_zero_or_pos count with rfl | more
            · exact .nil
            · exact induction (orderedFrom_settle ranking (orderedBut_pop ordered (by omega))) size

/-- Each item that a heap hands out is at least as great as those after it. -/
theorem release_pairwise (ranking : Ranking atMost) (items : List Item) :
    (release atMost items).Pairwise fun earlier later => atMost later earlier = true := by
  refine drain_pairwise ranking (orderedFrom_build ranking items.toArray) ?_
  rw [(build_perm atMost items.toArray).size_eq, List.size_toArray]

end

end TierVault.Heap
