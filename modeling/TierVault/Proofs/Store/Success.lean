import TierVault.Proofs.Action
import TierVault.Proofs.FileSystem
import TierVault.Store.Basic

/-!
Calls on stores that report no error.
-/

namespace TierVault.StoreAction

open TierVault.Action

variable {World Local Result Next : Type} {faults : Fault → Prop} {world : World}
  {action : StoreAction World Result} {result : Result}

/-- The call answers, or stops with one of the faults, and reports no error. -/
structure Succeeds (faults : Fault → Prop) (action : StoreAction World Result) (world : World)
    (after : Result → World → Prop) : Prop where
  leads : Leads faults action.run world fun answer final =>
    ∃ result, answer = .ok result ∧ after result final

variable {after later : Result → World → Prop}

theorem Succeeds.imp (succeeds : Succeeds faults action world after)
    (implies : ∀ result final, after result final → later result final) :
    Succeeds faults action world later := by
  refine ⟨succeeds.leads.imp ?_⟩
  rintro answer final - ⟨result, same, holds⟩
  exact ⟨result, same, implies result final holds⟩

/-- Where no fault is expected, the call answers. -/
theorem Succeeds.ends (succeeds : Succeeds faults action world after) (quiet : ∀ fault, ¬faults fault) :
    ∃ result final, action.run world = .ok (.ok result) final ∧ after result final := by
  obtain ⟨answer, final, ended, result, rfl, holds⟩ := succeeds.leads.ends quiet
  exact ⟨result, final, ended, holds⟩

/-- Whether a call succeeds can be found out by running it. -/
instance decidableSucceeds [DecidablePred faults] [∀ result final, Decidable (after result final)] :
    Decidable (Succeeds faults action world after) :=
  match ended : action.run world with
  | .ok (.ok result) final => decidable_of_iff (after result final)
      ⟨fun holds => ⟨(leads_of_eq ended).mpr ⟨result, rfl, holds⟩⟩, fun succeeds => by
        obtain ⟨_, same, holds⟩ := (leads_of_eq ended).mp succeeds.leads
        exact (Except.ok.inj same) ▸ holds⟩
  | .ok (.error _) _ => .isFalse fun succeeds => by
      obtain ⟨_, same, _⟩ := (leads_of_eq ended).mp succeeds.leads
      cases same
  | .error fault _ => decidable_of_iff (faults fault)
      ⟨fun expected => ⟨by simpa only [Leads, ended] using expected⟩, fun succeeds => succeeds.leads.of_error ended⟩

theorem succeeds_of_eq {final : World} (ended : action.run world = .ok (.ok result) final)
    (holds : after result final) : Succeeds faults action world after :=
  ⟨(leads_of_eq ended).mpr ⟨result, rfl, holds⟩⟩

theorem succeeds_pure (holds : after result world) :
    Succeeds faults (pure result : StoreAction World Result) world after :=
  succeeds_of_eq rfl holds

theorem Succeeds.bind {next : Result → StoreAction World Next} {goal : Next → World → Prop}
    (first : Succeeds faults action world fun result middle =>
      Succeeds faults (next result) middle goal) : Succeeds faults (action >>= next) world goal := by
  constructor
  rw [ExceptT.run_bind, leads_bind]
  refine first.leads.imp ?_
  rintro answer middle - ⟨result, rfl, further⟩
  exact further.leads

/-- After a call, what follows runs if it answered. -/
theorem leads_run_bind {next : Result → StoreAction World Next}
    {goal : Except StoreError Next → World → Prop}
    (leads : Leads faults action.run world fun answer middle =>
      match answer with
      | .ok result => Leads faults (next result).run middle goal
      | .error error => goal (.error error) middle) :
    Leads faults (action >>= next).run world goal := by
  rw [ExceptT.run_bind, leads_bind]
  refine leads.imp fun answer middle _ further => ?_
  cases answer <;> exact further

/-- After a call that reports no error, what follows runs. -/
theorem Succeeds.leads_bind {next : Result → StoreAction World Next}
    {goal : Except StoreError Next → World → Prop}
    (first : Succeeds faults action world fun result middle => Leads faults (next result).run middle goal) :
    Leads faults (action >>= next).run world goal := by
  refine leads_run_bind (first.leads.imp ?_)
  rintro answer middle - ⟨result, rfl, further⟩
  exact further

/-- After a call that answered, its continuation runs. -/
theorem run_bind_of_ok {next : Result → StoreAction World Next} {middle : World}
    (first : action.run world = .ok (.ok result) middle) :
    (action >>= next).run world = (next result).run middle := by
  rw [ExceptT.run_bind]
  change EStateM.bind action.run _ world = _
  unfold EStateM.bind
  rw [first]

theorem run_bind_of_failed {next : Result → StoreAction World Next} {error : StoreError} {middle : World}
    (failed : action.run world = .ok (.error error) middle) :
    (action >>= next).run world = .ok (.error error) middle := by
  rw [ExceptT.run_bind]
  change EStateM.bind action.run _ world = _
  unfold EStateM.bind
  rw [failed]
  rfl

theorem run_throw (error : StoreError) (world : World) :
    (throw error : StoreAction World Result).run world = .ok (.error error) world := rfl

/-- A call that answered has gone through both of its parts. -/
theorem ended_of_bind {next : Result → StoreAction World Next} {answer : Next} {final : World}
    (ended : (action >>= next).run world = .ok (.ok answer) final) : ∃ result middle,
      action.run world = .ok (.ok result) middle ∧ (next result).run middle = .ok (.ok answer) final := by
  rw [ExceptT.run_bind] at ended
  change EStateM.bind action.run _ world = _ at ended
  unfold EStateM.bind at ended
  cases called : action.run world with
  | error fault middle =>
      rw [called] at ended
      cases ended
  | ok result middle =>
      rw [called] at ended
      cases result with
      | error error => cases ended
      | ok result => exact ⟨result, middle, rfl, ended⟩

theorem ended_of_checked {computation : Except Fault Result} {final : World}
    (ended : (checked computation).run world = .ok (.ok result) final) :
    computation = .ok result ∧ final = world := by
  cases computation with
  | ok own =>
      cases ended
      exact ⟨rfl, rfl⟩
  | error fault => cases ended

theorem ended_of_onFiles {action : FileAction Result} {files final : FileSystem}
    (ended : (onFiles action).run files = .ok (.ok result) final) :
    action files = .ok result final := by
  simp only [onFiles, ExceptT.run] at ended
  cases called : action files with
  | error error middle =>
      simp only [called] at ended
      cases ended
  | ok own middle =>
      simp only [called] at ended
      cases ended
      rfl

/-- A call that may fail leaves its files either way. -/
theorem left_of_attempted {action : FileAction Result} {files final : FileSystem}
    {answer : Except StoreError Result}
    (ended : (ExceptT.lift (onFiles action).run : StoreAction FileSystem _).run files =
      .ok (.ok answer) final) : final = FileSystem.leftBy (action files) := by
  rw [ExceptT.run_lift] at ended
  change EStateM.map _ (onFiles action).run files = _ at ended
  unfold EStateM.map at ended
  cases called : action files with
  | ok result middle =>
      have same : (onFiles action).run files = .ok (.ok result) middle := by
        simp only [onFiles, ExceptT.run, called]
      rw [same] at ended
      cases ended
      rfl
  | error error middle =>
      have same : (onFiles action).run files = .ok (.error (.io error)) middle := by
        simp only [onFiles, ExceptT.run, called]
      rw [same] at ended
      cases ended
      rfl

theorem succeeds_getThe {goal : World → World → Prop} (holds : goal world world) :
    Succeeds faults (getThe World : StoreAction World World) world goal :=
  succeeds_of_eq rfl holds

theorem succeeds_modify {change : World → World} {goal : Unit → World → Prop}
    (holds : goal () (change world)) :
    Succeeds faults (modify change : StoreAction World Unit) world goal :=
  succeeds_of_eq rfl holds

theorem succeeds_ofExcept {Error : Type} {wrap : Error → StoreError} {computation : Except Error Result}
    (computed : computation = .ok result) (holds : after result world) :
    Succeeds faults (ofExcept wrap computation : StoreAction World Result) world after := by
  subst computed
  exact succeeds_of_eq rfl holds

theorem succeeds_checked {computation : Except Fault Result}
    (stops : ∀ fault, computation = .error fault → faults fault)
    (holds : ∀ result, computation = .ok result → after result world) :
    Succeeds faults (checked computation : StoreAction World Result) world after := by
  cases computation with
  | ok result => exact succeeds_of_eq rfl (holds result rfl)
  | error fault => exact ⟨stops fault rfl⟩

/-- A sum, unless it does not fit a word. -/
theorem succeeds_sum {left right : Nat} {goal : Nat → World → Prop}
    (fits : ¬faults .sumOverflow → left + right < Word.limit)
    (holds : left + right < Word.limit → goal (left + right) world) :
    Succeeds faults (checked (Word.sum left right) : StoreAction World Nat) world goal := by
  refine succeeds_checked (fun fault failed => ?_) fun result summed => ?_
  · obtain ⟨rfl, large⟩ := Word.sum_error failed
    refine Classical.byContradiction fun expected => ?_
    exact absurd (fits expected) (Nat.not_lt.mpr large)
  · rw [Word.sum_ok_eq summed]
    exact holds (Word.sum_ok_lt summed)

theorem succeeds_onFiles_of_eq {action : FileAction Result} {files final : FileSystem}
    {goal : Result → FileSystem → Prop} (ended : action files = .ok result final)
    (holds : goal result final) : Succeeds faults (onFiles action) files goal := by
  have ran : (onFiles action).run files = .ok (.ok result) final := by
    simp only [onFiles, ExceptT.run, ended]
  exact succeeds_of_eq ran holds

/-- An error is passed over. -/
theorem succeeds_attempt {action : StoreAction World Unit} {goal : Unit → World → Prop}
    (leads : Leads faults action.run world fun _ final => goal () final) :
    Succeeds faults action.attempt world goal := by
  constructor
  unfold attempt
  rw [ExceptT.run_bind, ExceptT.run_lift, map_eq_pure_bind, bind_assoc, leads_bind]
  exact leads.imp fun answer final _ holds => ⟨(), rfl, holds⟩

/-- An error is handled. -/
theorem leads_tryCatch {handle : StoreError → StoreAction World Result}
    {goal : Except StoreError Result → World → Prop}
    (leads : Leads faults action.run world fun answer middle =>
      match answer with
      | .ok result => goal (.ok result) middle
      | .error error => Leads faults (handle error).run middle goal) :
    Leads faults (tryCatchThe StoreError action handle).run world goal := by
  change Leads faults (action.run >>= _) world _
  rw [leads_bind]
  refine leads.imp fun answer middle _ further => ?_
  cases answer <;> exact further

theorem Succeeds.tryCatch {handle : StoreError → StoreAction World Result}
    (succeeds : Succeeds faults action world after) :
    Succeeds faults (tryCatchThe StoreError action handle) world after := by
  refine ⟨leads_tryCatch (succeeds.leads.imp ?_)⟩
  rintro answer final - ⟨result, rfl, holds⟩
  exact ⟨result, rfl, holds⟩

/-- The answer of a call, be it an error, is what the lifted call answers. -/
theorem succeeds_lift {goal : Except StoreError Result → World → Prop}
    (leads : Leads faults action.run world goal) :
    Succeeds faults (ExceptT.lift action.run) world goal := by
  constructor
  rw [ExceptT.run_lift, map_eq_pure_bind, leads_bind]
  exact leads.imp fun answer final _ holds => ⟨answer, rfl, holds⟩

theorem Succeeds.lift {goal : Except StoreError Result → World → Prop}
    (succeeds : Succeeds faults action world fun result final => goal (.ok result) final) :
    Succeeds faults (ExceptT.lift action.run) world goal := by
  refine succeeds_lift (succeeds.leads.imp ?_)
  rintro answer final - ⟨result, rfl, holds⟩
  exact holds

/-- The expected result is the answer. -/
theorem Succeeds.answers {goal : World → Prop}
    (succeeds : Succeeds faults action world fun own final => own = result ∧ goal final) :
    Leads faults action.run world fun answer final => answer = .ok result ∧ goal final := by
  refine succeeds.leads.imp ?_
  rintro answer final - ⟨_, rfl, rfl, holds⟩
  exact ⟨rfl, holds⟩

/-! ## Calls in a part of the world -/

variable {Local : Type} {read : World → Local} {write : World → Local → World}

theorem leads_within {action : StoreAction Local Result}
    {goal : Except StoreError Result → World → Prop} :
    Leads faults (within read write action).run world goal ↔
      Leads faults action.run (read world) fun answer inner => goal answer (write world inner) := by
  simp only [Leads, within, ExceptT.run]
  cases action (read world) <;> rfl

theorem succeeds_within {action : StoreAction Local Result} {goal : Result → World → Prop}
    (succeeds : Succeeds faults action (read world) fun result inner => goal result (write world inner)) :
    Succeeds faults (within read write action) world goal :=
  ⟨leads_within.mpr succeeds.leads⟩

end TierVault.StoreAction
