import TierVault.Proofs.Sums

/-!
Where actions lead.

An action ends with an answer and a state, or stops with a fault. `Leads` speaks of both ends at once: the
answer and the state satisfy a condition, and the fault is one of those that are expected.
-/

namespace TierVault.Action

variable {State Result Next Item : Type} {faults : Fault → Prop}

/-- The action ends as `after` tells, or stops with one of the faults. -/
def Leads (faults : Fault → Prop) (action : Action State Result) (state : State)
    (after : Result → State → Prop) : Prop :=
  match action state with
  | .ok result final => after result final
  | .error fault _ => faults fault

theorem Leads.of_ok {action : Action State Result} {state final : State} {result : Result}
    {after : Result → State → Prop} (leads : Leads faults action state after)
    (ended : action state = .ok result final) : after result final := by
  simpa only [Leads, ended] using leads

theorem Leads.of_error {action : Action State Result} {state final : State} {fault : Fault}
    {after : Result → State → Prop} (leads : Leads faults action state after)
    (stopped : action state = .error fault final) : faults fault := by
  simpa only [Leads, stopped] using leads

/-- Where no fault is expected, the action ends. -/
theorem Leads.ends {action : Action State Result} {state : State}
    {after : Result → State → Prop} (leads : Leads faults action state after)
    (quiet : ∀ fault, ¬faults fault) :
    ∃ result final, action state = .ok result final ∧ after result final := by
  cases ended : action state with
  | ok result final => exact ⟨result, final, rfl, leads.of_ok ended⟩
  | error fault final => exact absurd (leads.of_error ended) (quiet fault)

theorem Leads.mono {fewer : Fault → Prop} {action : Action State Result} {state : State}
    {after : Result → State → Prop} (leads : Leads fewer action state after)
    (expected : ∀ fault, fewer fault → faults fault) : Leads faults action state after := by
  unfold Leads at leads ⊢
  split
  · simpa only [*] using leads
  · refine expected _ ?_
    simpa only [*] using leads

theorem Leads.imp {action : Action State Result} {state : State}
    {after later : Result → State → Prop} (leads : Leads faults action state after)
    (implies : ∀ result final, action state = .ok result final → after result final →
      later result final) : Leads faults action state later := by
  unfold Leads at leads ⊢
  split
  · rename_i result final ended
    rw [ended] at leads
    exact implies result final ended leads
  · rename_i ended
    rw [ended] at leads
    exact leads

theorem Leads.and {action : Action State Result} {state : State}
    {after later : Result → State → Prop} (first : Leads faults action state after)
    (second : Leads faults action state later) :
    Leads faults action state fun result final => after result final ∧ later result final :=
  first.imp fun _ _ ended holds => ⟨holds, second.of_ok ended⟩

theorem leads_of_eq {action : Action State Result} {state final : State} {result : Result}
    {after : Result → State → Prop} (ended : action state = .ok result final) :
    Leads faults action state after ↔ after result final := by
  simp only [Leads, ended]

theorem leads_congr {action other : Action State Result} {state : State} {after : Result → State → Prop}
    (same : action state = other state) :
    Leads faults action state after ↔ Leads faults other state after := by
  rw [Leads, Leads, same]

/-- Where an action leads can be found out by running it. -/
instance decidableLeads [DecidablePred faults] (action : Action State Result) (state : State)
    (after : Result → State → Prop) [∀ result final, Decidable (after result final)] :
    Decidable (Leads faults action state after) :=
  match ended : action state with
  | .ok result final => decidable_of_iff (after result final) (by simp only [Leads, ended])
  | .error fault _ => decidable_of_iff (faults fault) (by simp only [Leads, ended])

/-! ## Building blocks -/

@[simp] theorem leads_pure (result : Result) (state : State) (after : Result → State → Prop) :
    Leads faults (pure result) state after ↔ after result state := Iff.rfl

@[simp] theorem leads_bind (action : Action State Result) (next : Result → Action State Next)
    (state : State) (after : Next → State → Prop) :
    Leads faults (action >>= next) state after ↔
      Leads faults action state fun result middle => Leads faults (next result) middle after := by
  simp only [Leads, bind, EStateM.bind]
  cases action state <;> rfl

@[simp] theorem leads_get (state : State) (after : State → State → Prop) :
    Leads faults (MonadState.get : Action State State) state after ↔ after state state := Iff.rfl

@[simp] theorem leads_modify (change : State → State) (state : State)
    (after : Unit → State → Prop) :
    Leads faults (modify change : Action State Unit) state after ↔ after () (change state) := Iff.rfl

@[simp] theorem leads_set (next : State) (state : State) (after : PUnit → State → Prop) :
    Leads faults (set next : Action State PUnit) state after ↔ after ⟨⟩ next := Iff.rfl

@[simp] theorem leads_ofExcept_ok (result : Result) (state : State)
    (after : Result → State → Prop) :
    Leads faults (ofExcept (.ok result)) state after ↔ after result state := Iff.rfl

theorem leads_ofExcept (computation : Except Fault Result) (state : State)
    (after : Result → State → Prop)
    (stops : ∀ fault, computation = .error fault → faults fault)
    (leads : ∀ result, computation = .ok result → after result state) :
    Leads faults (ofExcept computation) state after := by
  cases computation with
  | ok result => exact leads result rfl
  | error fault => exact stops fault rfl

/-- A checked sum needs to fit only where an overflow is not expected. -/
theorem leads_sum {left right : Nat} {state : State} {after : Nat → State → Prop}
    (fits : ¬faults .sumOverflow → left + right < Word.limit) (leads : after (left + right) state) :
    Leads faults (ofExcept (Word.sum left right)) state after := by
  by_cases expected : faults .sumOverflow
  · refine leads_ofExcept _ _ _ ?_ ?_
    · intro fault failed
      exact (Word.sum_error failed).1 ▸ expected
    · intro result summed
      exact Word.sum_ok_eq summed ▸ leads
  · rw [Word.sum_eq_ok (fits expected)]
    exact leads

/-- A loop whose every round takes the invariant from the items left to those left after it. -/
theorem leads_forM {body : Item → Action State Unit} (invariant : List Item → State → Prop)
    (round : ∀ item rest state, invariant (item :: rest) state →
      Leads faults (body item) state fun _ final => invariant rest final)
    {items : List Item} {state : State} (start : invariant items state) :
    Leads faults (items.forM body) state fun _ final => invariant [] final := by
  induction items generalizing state with
  | nil => exact start
  | cons item rest induction =>
      change Leads faults (body item >>= fun _ => rest.forM body) state _
      rw [leads_bind]
      exact (round item rest state start).imp fun _ _ _ => induction

/-! ## Loops that keep an invariant -/

section Loops

variable {invariant : State → Prop} {items : List Item} {state : State}

theorem leads_mapM {body : Item → Action State Result}
    (round : ∀ item ∈ items, ∀ state, invariant state →
      Leads faults (body item) state fun _ final => invariant final)
    (start : invariant state) :
    Leads faults (items.mapM body) state fun _ final => invariant final := by
  induction items generalizing state with
  | nil => exact start
  | cons item rest induction =>
      simp only [List.mapM_cons, leads_bind, leads_pure]
      apply (round item List.mem_cons_self state start).imp
      intro _ middle _ holds
      exact induction (fun later member => round later (List.mem_cons_of_mem _ member)) holds

theorem leads_filterM {test : Item → Action State Bool}
    (round : ∀ item state, invariant state →
      Leads faults (test item) state fun _ final => invariant final)
    (start : invariant state) :
    Leads faults (items.filterM test) state fun _ final => invariant final := by
  have reversed (items chosen : List Item) (state : State) (start : invariant state) :
      Leads faults (List.filterAuxM test items chosen) state fun _ final => invariant final := by
    induction items generalizing state chosen with
    | nil => exact start
    | cons item rest induction =>
        simp only [List.filterAuxM, leads_bind]
        exact (round item state start).imp fun _ _ _ => induction _ _
  simp only [List.filterM, leads_bind, leads_pure]
  exact reversed items [] state start

end Loops

/-! ## Any fault -/

/-- Nothing is asked of actions that stop. -/
def AnyFault (_ : Fault) : Prop := True

theorem leads_any {action : Action State Result} {state : State}
    {after : Result → State → Prop} :
    Leads AnyFault action state after ↔
      ∀ result final, action state = .ok result final → after result final := by
  constructor
  · intro leads result final ended
    exact leads.of_ok ended
  · intro leads
    unfold Leads
    cases ended : action state with
    | ok result final => exact leads result final ended
    | error fault final => exact trivial

/-- Of an action that stops with no other fault, it is enough to know where it ends. -/
theorem Leads.of_any {action : Action State Result} {state : State} {after : Result → State → Prop}
    (leads : Leads AnyFault action state after) (ends : Leads faults action state fun _ _ => True) :
    Leads faults action state after :=
  ends.imp fun _ _ ended _ => leads.of_ok ended

theorem leads_any_ofExcept (computation : Except Fault Result) {state : State}
    {after : Result → State → Prop}
    (leads : ∀ result, computation = .ok result → after result state) :
    Leads AnyFault (ofExcept computation) state after :=
  leads_ofExcept computation state after (fun _ _ => trivial) leads

/-! ## Invariants -/

section Invariants

variable {invariant : State → Prop}

/-- Wherever the action leads to, the invariant goes on to hold. -/
def Heeds (invariant : State → Prop) (action : Action State Result) : Prop :=
  ∀ state, invariant state → Leads AnyFault action state fun _ final => invariant final

theorem heeds_pure (result : Result) : Heeds invariant (pure result) := fun _ holds => holds

theorem heeds_get : Heeds invariant (MonadState.get : Action State State) := fun _ holds => holds

theorem heeds_ofExcept (computation : Except Fault Result) :
    Heeds invariant (ofExcept computation) := by
  intro state holds
  apply leads_any_ofExcept
  intro result _
  exact holds

theorem Heeds.bind {action : Action State Result} {next : Result → Action State Next}
    (first : Heeds invariant action) (further : ∀ result, Heeds invariant (next result)) :
    Heeds invariant (action >>= next) := by
  intro state holds
  rw [leads_bind]
  apply (first state holds).imp
  intro result middle _
  exact further result middle

theorem heeds_forM {body : Item → Action State Unit} (items : List Item)
    (round : ∀ item, Heeds invariant (body item)) : Heeds invariant (items.forM body) := by
  intro state holds
  apply leads_forM (fun _ => invariant) _ holds
  intro item _ middle
  exact round item middle

theorem heeds_filterM {test : Item → Action State Bool} (items : List Item)
    (round : ∀ item, Heeds invariant (test item)) : Heeds invariant (items.filterM test) :=
  fun _ => leads_filterM round

end Invariants

end TierVault.Action
