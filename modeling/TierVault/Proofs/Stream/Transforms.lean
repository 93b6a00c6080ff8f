import TierVault.Proofs.Stream.Supply

/-!
What streams of streams hand out.

Each transform of a stream is matched by a function on the list of its items. A stream carries a list if
it supplies that list and its known total, if it has one, is the length of the list; every transform
takes a stream that carries a list to one that carries the image of it.
-/

namespace TierVault

variable {Item Result : Type}

/-! ## Slices of a list -/

/-- `count` slices of `width` items; each begins `step` items after the one before. -/
def slices (count step width : Nat) (items : List Item) : List (List Item) :=
  (List.range count).map fun index => (items.drop (index * step)).take width

theorem length_slices (count step width : Nat) (items : List Item) :
    (slices count step width items).length = count := by
  rw [slices, List.length_map, List.length_range]

theorem slices_succ (count step width : Nat) (items : List Item) :
    slices (count + 1) step width items =
      items.take width :: slices count step width (items.drop step) := by
  simp only [slices, List.range_succ_eq_map, List.map_cons, List.map_map, Nat.zero_mul,
    List.drop_zero]
  congr 1
  apply List.map_congr_left
  intro index _
  simp only [Function.comp_apply, List.drop_drop]
  congr 2
  rw [Nat.succ_mul, Nat.add_comm]

/-- Consecutive lists of `size` items; the last one may be short. -/
def batchesOf (size : Nat) (items : List Item) : List (List Item) :=
  slices (groupCount items.length size) size size items

/-- How many full windows fit into `length` items. -/
def windowCount (length width step : Nat) : Nat :=
  if length < width then 0 else (length - width) / step + 1

/-- All full windows of `width` items that begin `step` items apart. -/
def windowsOf (width step : Nat) (items : List Item) : List (List Item) :=
  slices (windowCount items.length width step) step width items

section Counts

variable {length size width step : Nat}

theorem groupCount_zero (positive : 0 < size) : groupCount 0 size = 0 := by
  unfold groupCount
  rw [Nat.zero_add]
  exact Nat.div_eq_of_lt (Nat.sub_lt positive Nat.one_pos)

theorem groupCount_step (positive : 0 < size) (some : 0 < length) :
    groupCount length size = groupCount (length - size) size + 1 := by
  unfold groupCount
  by_cases short : length ≤ size
  · have low : size ≤ length + size - 1 := by omega
    have high : length + size - 1 < 2 * size := by omega
    have none_left : length - size + size - 1 < size := by omega
    rw [Nat.div_eq_of_lt none_left]
    exact Nat.div_eq_of_lt_le (by omega) (by omega)
  · have split : length + size - 1 = length - size + size - 1 + size := by omega
    rw [split, Nat.add_div_right _ positive]

theorem groupCount_le (positive : 0 < size) : groupCount length size ≤ length := by
  apply Nat.le_of_lt_succ
  apply Nat.div_lt_of_lt_mul
  have grows : length ≤ size * length := Nat.le_mul_of_pos_left length positive
  rw [Nat.mul_succ]
  omega

theorem windowCount_short (short : length < width) : windowCount length width step = 0 :=
  if_pos short

theorem windowCount_step (positive : 0 < width) (steps : 0 < step) (full : width ≤ length) :
    windowCount length width step = windowCount (length - step) width step + 1 := by
  unfold windowCount
  rw [if_neg (Nat.not_lt.mpr full)]
  by_cases last : length - step < width
  · have below : length - width < step := by omega
    rw [if_pos last, Nat.div_eq_of_lt below]
  · have split : length - width = length - step - width + step := by omega
    rw [if_neg last, split, Nat.add_div_right _ steps]

theorem windowCount_le (positive : 0 < width) :
    windowCount length width step ≤ length := by
  unfold windowCount
  split
  · exact Nat.zero_le _
  · have divided := Nat.div_le_self (length - width) step
    omega

end Counts

theorem batchesOf_nil {size : Nat} (positive : 0 < size) :
    batchesOf size ([] : List Item) = [] := by
  rw [batchesOf, List.length_nil, groupCount_zero positive]
  rfl

theorem batchesOf_step {size : Nat} {items : List Item} (positive : 0 < size)
    (some : items ≠ []) :
    batchesOf size items = items.take size :: batchesOf size (items.drop size) := by
  rw [batchesOf, groupCount_step positive (List.length_pos_iff.mpr some), slices_succ, batchesOf,
    List.length_drop]

theorem eq_nil_of_batchesOf {size : Nat} {items : List Item} (positive : 0 < size)
    (none : batchesOf size items = []) : items = [] := by
  cases items with
  | nil => rfl
  | cons item rest =>
      rw [batchesOf_step positive (List.cons_ne_nil item rest)] at none
      cases none

theorem length_batchesOf_le {size : Nat} (positive : 0 < size) (items : List Item) :
    (batchesOf size items).length ≤ items.length := by
  rw [batchesOf, length_slices]
  exact groupCount_le positive

theorem windowsOf_short {width step : Nat} {items : List Item} (short : items.length < width) :
    windowsOf width step items = [] := by
  rw [windowsOf, windowCount_short short]
  rfl

theorem length_windowsOf_le {width : Nat} (positive : 0 < width) (step : Nat) (items : List Item) :
    (windowsOf width step items).length ≤ items.length := by
  rw [windowsOf, length_slices]
  exact windowCount_le positive

theorem windowsOf_step {width step : Nat} {items : List Item} (positive : 0 < width)
    (steps : 0 < step) (full : width ≤ items.length) :
    windowsOf width step items = items.take width :: windowsOf width step (items.drop step) := by
  rw [windowsOf, windowCount_step positive steps full, slices_succ, windowsOf, List.length_drop]

namespace Stream

/-! ## Filling a window -/

namespace WindowState

/-- The items that windows are still made of: those held, and of the items to come those that are not
passed over. -/
def coming (window : WindowState Item) (items : List Item) : List Item :=
  window.held ++ items.drop window.pendingSkip

/-- Items are passed over only before the first one is held. -/
def Settled (window : WindowState Item) : Prop := window.pendingSkip = 0 ∨ window.held = []

theorem length_coming_le (window : WindowState Item) (items : List Item) :
    (window.coming items).length ≤ window.held.length + items.length := by
  rw [coming, List.length_append, List.length_drop]
  exact Nat.add_le_add_left (Nat.sub_le _ _) _

/-- The window after a full one: the next begins `step` items later. -/
def shifted (held : List Item) (step : Nat) : WindowState Item :=
  let dropped := min step held.length
  ⟨held.drop dropped, step - dropped⟩

theorem settled_shifted (held : List Item) (step : Nat) : (shifted held step).Settled := by
  by_cases kept : step ≤ held.length
  · apply Or.inl
    simp only [shifted, Nat.min_eq_left kept, Nat.sub_self]
  · apply Or.inr
    simp only [shifted, Nat.min_eq_right (Nat.le_of_not_le kept), List.drop_length]

theorem length_shifted_le (held : List Item) (step : Nat) :
    (shifted held step).held.length ≤ held.length := by
  simp only [shifted, List.length_drop]
  exact Nat.sub_le _ _

theorem coming_shifted (items : List Item) (width step : Nat) :
    (shifted (items.take width) step).coming (items.drop width) = items.drop step := by
  have dropped (held : List Item) : held.drop (min step held.length) = held.drop step := by
    by_cases kept : step ≤ held.length
    · rw [Nat.min_eq_left kept]
    · have beyond : held.length ≤ step := Nat.le_of_not_le kept
      rw [Nat.min_eq_right beyond, List.drop_length, List.drop_eq_nil_of_le beyond]
  calc
    _ = (items.take width).drop step ++
          (items.drop width).drop (step - (items.take width).length) := by
        have skipped (length : Nat) : step - min step length = step - length := by omega
        simp only [shifted, coming, dropped, skipped]
    _ = (items.take width ++ items.drop width).drop step := List.drop_append.symm
    _ = items.drop step := by rw [List.take_append_drop]

end WindowState

/-- Filling tells whether a window of the items still to come is full; if so, it is held. -/
theorem SuppliesFrom.fillWindow {stream : Stream Item} {position : stream.Position}
    {items : List Item} (supplies : stream.SuppliesFrom position items) {width bound : Nat}
    (positive : 0 < width) {window : WindowState Item} (settled : window.Settled)
    (room : window.held.length ≤ width) (enough : items.length < bound) :
    ∃ after later,
      (stream.fillWindow width bound (position, window)).Answers
        (decide (width ≤ (window.coming items).length), after, later) ∧
      (width ≤ (window.coming items).length →
        later = ⟨(window.coming items).take width, 0⟩ ∧
        stream.SuppliesFrom after ((window.coming items).drop width)) := by
  induction bound generalizing position items window with
  | zero => exact absurd enough (Nat.not_lt_zero _)
  | succ bound induction =>
      rw [Stream.fillWindow]
      by_cases full : width ≤ window.held.length
      · have none_passed : window.pendingSkip = 0 := by
          rcases settled with none_passed | none_held
          · exact none_passed
          · rw [none_held] at full
            exact absurd full (Nat.not_le_of_lt positive)
        have exactly : window.held.length = width := Nat.le_antisymm room full
        have split : window.coming items = window.held ++ items := by
          rw [WindowState.coming, none_passed, List.drop_zero]
        have reaches : width ≤ (window.held ++ items).length := by
          rw [List.length_append]
          exact Nat.le_add_right_of_le full
        rw [split, if_pos full, decide_eq_true reaches, List.take_left' exactly,
          List.drop_left' exactly]
        exact ⟨position, window, .pure _, fun _ => ⟨by rw [← none_passed], supplies⟩⟩
      · obtain ⟨next, advanced, others⟩ := supplies.advance
        rw [if_neg full]
        cases items with
        | nil =>
            have split : window.coming [] = window.held := by
              rw [WindowState.coming, List.drop_nil, List.append_nil]
            rw [split, decide_eq_false full]
            exact ⟨next, window, .bind advanced (.pure _), fun reaches => absurd reaches full⟩
        | cons item rest =>
            change stream.SuppliesFrom next rest at others
            have fewer : rest.length < bound := Nat.lt_of_succ_lt_succ enough
            by_cases passing : 0 < window.pendingSkip
            · have none_held : window.held = [] := settled.resolve_left (Nat.ne_of_gt passing)
              have split : window.coming (item :: rest) =
                  WindowState.coming { window with pendingSkip := window.pendingSkip - 1 } rest := by
                unfold WindowState.coming
                obtain ⟨skip, pending⟩ := Nat.exists_eq_add_of_lt passing
                rw [pending]
                rfl
              have keeps : WindowState.Settled
                  { window with pendingSkip := window.pendingSkip - 1 } := .inr none_held
              rw [split]
              obtain ⟨after, later, filled, told⟩ := induction others keeps room fewer
              refine ⟨after, later, .bind advanced ?_, told⟩
              simpa only [List.head?_cons, passing, if_true] using filled
            · have none_passed : window.pendingSkip = 0 := Nat.eq_zero_of_not_pos passing
              have split : window.coming (item :: rest) =
                  WindowState.coming { window with held := window.held ++ [item] } rest := by
                unfold WindowState.coming
                rw [none_passed, List.drop_zero, List.drop_zero, List.append_assoc]
                rfl
              have more : (window.held ++ [item]).length ≤ width := by
                rw [List.length_append]
                exact Nat.lt_of_not_le full
              have keeps : WindowState.Settled
                  { window with held := window.held ++ [item] } := .inl none_passed
              rw [split]
              obtain ⟨after, later, filled, told⟩ := induction others keeps more fewer
              refine ⟨after, later, .bind advanced ?_, told⟩
              simpa only [List.head?_cons, passing, if_false] using filled

/-! ## What the layers supply -/

/-- The places of the source of `layer` supply the list. -/
abbrev LayerSupplies (layer : Stream Result) : layer.source.Core → List Result → Prop :=
  Supplies layer.source.pull layer.source.remaining

namespace SuppliesFrom

variable {stream : Stream Item} {position : stream.Position} {items : List Item}

theorem map (supplies : stream.SuppliesFrom position items) (transform : Item → Result) :
    (stream.map fun item => pure (transform item)).LayerSupplies (position, ())
      (items.map transform) := by
  induction items generalizing position with
  | nil =>
      obtain ⟨after, advanced, -⟩ := supplies.advance
      exact ⟨_, .bind advanced (.pure _)⟩
  | cons item rest induction =>
      obtain ⟨after, advanced, others⟩ := supplies.advance
      have bounded : (rest.map transform).length < stream.remainingFrom position := by
        rw [List.length_map]
        exact supplies.length_le
      exact ⟨bounded, (after, ()), .bind advanced (.bind (.pure _) (.pure _)), induction others⟩

theorem filter (supplies : stream.SuppliesFrom position items) (keep : Item → Bool) :
    (stream.filter fun item => pure (keep item)).LayerSupplies (position, ())
      (items.filter keep) := by
  -- The induction is on the items that are kept, since one pull passes over all those that are not.
  generalize kept_eq : items.filter keep = kept
  induction kept generalizing position items with
  | nil =>
      obtain ⟨after, left, sought, -⟩ :=
        supplies.seek (Nat.lt_succ_of_le supplies.length_le)
      rw [kept_eq] at sought
      exact ⟨_, .bind sought (.pure _)⟩
  | cons item rest induction =>
      obtain ⟨after, left, sought, others, follows⟩ :=
        supplies.seek (Nat.lt_succ_of_le supplies.length_le)
      rw [kept_eq] at sought follows
      have bounded : rest.length < stream.remainingFrom position := by
        have fewer := List.length_filter_le keep items
        rw [kept_eq] at fewer
        exact Nat.lt_of_lt_of_le fewer supplies.length_le
      exact ⟨bounded, (after, ()), .bind sought (.pure _), induction others follows⟩

theorem batch (supplies : stream.SuppliesFrom position items) (size : Nat) :
    (stream.batch size).LayerSupplies (position, ()) (batchesOf (max size 1) items) := by
  have positive : 0 < max size 1 := Nat.le_max_right _ _
  generalize batches_eq : batchesOf (max size 1) items = batches
  induction batches generalizing position items with
  | nil =>
      obtain ⟨after, drained, -⟩ := supplies.drainFrom (max size 1)
      have none_left : items = [] := eq_nil_of_batchesOf positive batches_eq
      rw [none_left, List.take_nil] at drained
      exact ⟨_, .bind drained (.pure _)⟩
  | cons batch others induction =>
      obtain ⟨after, drained, left⟩ := supplies.drainFrom (max size 1)
      have some_left : items ≠ [] := by
        rintro rfl
        rw [batchesOf_nil positive] at batches_eq
        cases batches_eq
      have bounded : others.length < stream.remainingFrom position := by
        have fewer := length_batchesOf_le positive items
        rw [batches_eq] at fewer
        exact Nat.lt_of_lt_of_le fewer supplies.length_le
      rw [batchesOf_step positive some_left] at batches_eq
      injection batches_eq with batch_eq others_eq
      refine ⟨bounded, (after, ()), .bind drained ?_, induction left others_eq⟩
      have filled : (items.take (max size 1)).isEmpty = false := by
        rw [List.isEmpty_eq_false_iff, Ne, List.take_eq_nil_iff, not_or]
        exact ⟨Nat.ne_of_gt positive, some_left⟩
      simp only [filled, left.active, decide_false, Bool.or_self, Bool.false_eq_true, if_false]
      rw [← batch_eq]
      exact .pure _

theorem take (supplies : stream.SuppliesFrom position items) (count left : Nat) :
    (stream.take count).LayerSupplies (position, left) (items.take left) := by
  induction left generalizing position items with
  | zero => exact ⟨_, .pure _⟩
  | succ left induction =>
      obtain ⟨after, advanced, others⟩ := supplies.advance
      cases items with
      | nil => exact ⟨_, .bind advanced (.pure _)⟩
      | cons item rest =>
          have bounded : (rest.take left).length < min (left + 1) (stream.remainingFrom position) := by
            have more : rest.length + 1 ≤ stream.remainingFrom position := supplies.length_le
            rw [List.length_take]
            omega
          exact ⟨bounded, (after, left), .bind advanced (.pure _), induction others⟩

theorem skip (supplies : stream.SuppliesFrom position items) (count left : Nat) :
    (stream.skip count).LayerSupplies (position, left) (items.drop left) := by
  generalize results_eq : items.drop left = results
  induction results generalizing position items left with
  | nil =>
      obtain ⟨middle, discarded, others⟩ := supplies.discard left
      by_cases reached : left ≤ items.length
      · rw [results_eq] at others
        rw [decide_eq_true reached] at discarded
        obtain ⟨after, advanced, -⟩ := others.advance
        exact ⟨_, .bind discarded (.bind advanced (.pure _))⟩
      · rw [decide_eq_false reached] at discarded
        exact ⟨_, .bind discarded (.pure _)⟩
  | cons item rest induction =>
      obtain ⟨middle, discarded, others⟩ := supplies.discard left
      have longer : rest.length + 1 = items.length - left := by
        rw [← List.length_drop, results_eq, List.length_cons]
      have reached : left ≤ items.length := by omega
      rw [results_eq] at others
      rw [decide_eq_true reached] at discarded
      obtain ⟨after, advanced, left_over⟩ := others.advance
      have bounded : rest.length < stream.remainingFrom position := by
        have more := supplies.length_le
        omega
      exact ⟨bounded, (after, 0), .bind discarded (.bind advanced (.pure _)),
        induction left_over 0 rfl⟩

theorem windows (supplies : stream.SuppliesFrom position items) (width step : Nat)
    (transform : List Item → Result) {window : WindowState Item} (settled : window.Settled)
    (room : window.held.length ≤ max width 1) :
    (stream.windows width step fun held => pure (transform held)).LayerSupplies (position, window)
      ((windowsOf (max width 1) (max step 1) (window.coming items)).map transform) := by
  have positive : 0 < max width 1 := Nat.le_max_right _ _
  have steps : 0 < max step 1 := Nat.le_max_right _ _
  generalize windows_eq : windowsOf (max width 1) (max step 1) (window.coming items) = windows
  induction windows generalizing position items window with
  | nil =>
      obtain ⟨after, later, filled, -⟩ :=
        supplies.fillWindow positive settled room (Nat.lt_succ_of_le supplies.length_le)
      have short : ¬max width 1 ≤ (window.coming items).length := by
        intro full
        rw [windowsOf_step positive steps full] at windows_eq
        cases windows_eq
      rw [decide_eq_false short] at filled
      exact ⟨_, .bind filled (.pure _)⟩
  | cons full others induction =>
      obtain ⟨after, later, filled, told⟩ :=
        supplies.fillWindow positive settled room (Nat.lt_succ_of_le supplies.length_le)
      have reached : max width 1 ≤ (window.coming items).length := by
        apply Nat.le_of_not_lt
        intro short
        rw [windowsOf_short short] at windows_eq
        cases windows_eq
      have bounded : others.length < stream.remainingFrom position + window.held.length := by
        have fewer := length_windowsOf_le positive (max step 1) (window.coming items)
        have more := window.length_coming_le items
        have bound := supplies.length_le
        rw [windows_eq, List.length_cons] at fewer
        omega
      obtain ⟨held, left⟩ := told reached
      rw [decide_eq_true reached] at filled
      rw [windowsOf_step positive steps reached, ← WindowState.coming_shifted] at windows_eq
      injection windows_eq with full_eq others_eq
      subst held full_eq
      have results_bounded : (others.map transform).length <
          stream.remainingFrom position + window.held.length := by
        rw [List.length_map]
        exact bounded
      have fits := Nat.le_trans (WindowState.length_shifted_le _ (max step 1))
        (List.length_take_le (max width 1) (window.coming items))
      exact ⟨results_bounded, _, .bind filled (.bind (.pure _) (.pure _)),
        induction left (WindowState.settled_shifted _ _) fits others_eq⟩

end SuppliesFrom

/-! ## The transforms -/

/-- The stream hands out the list, and its total is the length of the list if it is known. -/
structure Carries (stream : Stream Item) (items : List Item) : Prop where
  supplies : stream.SuppliesFrom stream.position items
  total : ∀ total, stream.meter.total? = some total → total = items.length

theorem carries_ofList (items : List Item) : (ofList items).Carries items where
  supplies := ⟨StreamState.noConfusion, Source.ofList_supplies items⟩
  total := fun _ known => (Option.some.inj known).symm

/-- A new layer supplies what its pulls do. -/
theorem carries_layer {Own : Type} {stream : Stream Item} {own : Own}
    {pull : stream.Position × Own → Flow (Option Result × stream.Position × Own)}
    {remaining : stream.Position × Own → Nat} {total? : Option Nat} {chunkSize : Nat}
    {results : List Result} (supplies : Supplies pull remaining (stream.position, own) results)
    (total : ∀ total, total? = some total → total = results.length) :
    (stream.layer own pull remaining total? chunkSize).Carries results :=
  ⟨⟨StreamState.noConfusion, supplies⟩, total⟩

namespace Carries

variable {stream : Stream Item} {items : List Item}

/-- A total that is computed from the total below. -/
theorem total_map (carries : stream.Carries items) {change : Nat → Nat} {length : Nat}
    (changed : change items.length = length) (total : Nat)
    (known : stream.meter.total?.map change = some total) : total = length := by
  obtain ⟨before, told, rfl⟩ := Option.map_eq_some_iff.mp known
  rw [carries.total before told, changed]

theorem map (carries : stream.Carries items) (transform : Item → Result) :
    (stream.map fun item => pure (transform item)).Carries (items.map transform) := by
  apply carries_layer (carries.supplies.map transform)
  rw [List.length_map]
  exact carries.total

theorem filter (carries : stream.Carries items) (keep : Item → Bool) :
    (stream.filter fun item => pure (keep item)).Carries (items.filter keep) :=
  carries_layer (carries.supplies.filter keep) fun _ unknown => nomatch unknown

theorem batch (carries : stream.Carries items) (size : Nat) :
    (stream.batch size).Carries (batchesOf (max size 1) items) := by
  apply carries_layer (carries.supplies.batch size)
  apply carries.total_map
  rw [batchesOf, length_slices]

theorem take (carries : stream.Carries items) (count : Nat) :
    (stream.take count).Carries (items.take count) := by
  apply carries_layer (carries.supplies.take count count)
  apply carries.total_map
  rw [List.length_take, Nat.min_comm]

theorem skip (carries : stream.Carries items) (count : Nat) :
    (stream.skip count).Carries (items.drop count) := by
  apply carries_layer (carries.supplies.skip count count)
  apply carries.total_map
  rw [List.length_drop]

theorem windows (carries : stream.Carries items) (width step : Nat)
    (transform : List Item → Result) :
    (stream.windows width step fun held => pure (transform held)).Carries
      ((windowsOf (max width 1) (max step 1) items).map transform) := by
  have empty : WindowState.Settled (⟨[], 0⟩ : WindowState Item) := .inl rfl
  exact carries_layer (carries.supplies.windows width step transform empty (Nat.zero_le _))
    fun _ unknown => nomatch unknown

/-- Collecting gives the whole list, or as much of it as is asked for. -/
theorem collect (carries : stream.Carries items) (limit? : Option Nat) :
    (stream.collect limit?).Answers
      (match limit? with
        | some limit => items.take limit
        | none => items) := by
  have bounded : items.length ≤ stream.remaining := carries.supplies.length_le
  unfold Stream.collect
  cases limit? with
  | none =>
      obtain ⟨after, drained, left⟩ := carries.supplies.drainFrom (stream.remaining + 1)
      obtain ⟨_, looked, -⟩ := left.advance
      rw [List.take_of_length_le (Nat.le_succ_of_le bounded)] at drained
      exact .bind drained (.bind looked (.pure _))
  | some limit =>
      obtain ⟨after, drained, left⟩ :=
        carries.supplies.drainFrom (min limit (stream.remaining + 1))
      obtain ⟨_, looked, -⟩ := left.advance
      have limited : items.take (min limit (stream.remaining + 1)) = items.take limit := by
        rw [List.take_eq_take_iff]
        omega
      rw [limited] at drained
      exact .bind drained (.bind looked (.pure _))

end Carries

end Stream

end TierVault
