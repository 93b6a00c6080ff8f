import TierVault.Cache.State
import TierVault.Proofs.Action
import TierVault.Store.Faulty
import TierVault.Store.Memory

/-!
Four stores side by side, each with a world of its own.

Their calls answer as those of the single stores do, and each leaves the worlds of the others alone.
-/

namespace TierVault

variable {World Local Result Next Error : Type}

/-! ## What calls answer -/

namespace StoreAction

/-- The action answers in every world. Its answer may be an error. -/
def Answers (action : StoreAction World Result) : Prop :=
  ∀ world, ∃ answer after, action.run world = .ok answer after

theorem answers_pure (result : Result) :
    (pure result : StoreAction World Result).Answers :=
  fun world => ⟨.ok result, world, rfl⟩

theorem answers_throw (error : StoreError) :
    (throw error : StoreAction World Result).Answers :=
  fun world => ⟨.error error, world, rfl⟩

theorem Answers.bind {action : StoreAction World Result} {next : Result → StoreAction World Next}
    (first : action.Answers) (further : ∀ result, (next result).Answers) :
    (action >>= next).Answers := by
  intro world
  obtain ⟨answer, middle, ended⟩ := first world
  cases answer with
  | error error =>
      refine ⟨.error error, middle, ?_⟩
      simp only [Bind.bind, ExceptT.bind, ExceptT.mk, ExceptT.run] at ended ⊢
      simp [EStateM.bind, ended, ExceptT.bindCont, pure, EStateM.pure]
  | ok result =>
      obtain ⟨answer, after, later⟩ := further result middle
      refine ⟨answer, after, ?_⟩
      simp only [Bind.bind, ExceptT.bind, ExceptT.mk, ExceptT.run] at ended later ⊢
      simp [EStateM.bind, ended, ExceptT.bindCont, later]

theorem answers_getThe : (getThe World : StoreAction World World).Answers :=
  fun world => ⟨.ok world, world, rfl⟩

theorem answers_set (world : World) : (set world : StoreAction World PUnit).Answers :=
  fun _ => ⟨.ok ⟨⟩, world, rfl⟩

theorem answers_modify (change : World → World) :
    (modify change : StoreAction World PUnit).Answers :=
  fun world => ⟨.ok ⟨⟩, change world, rfl⟩

theorem answers_ofExcept (wrap : Error → StoreError) (computation : Except Error Result) :
    (StoreAction.ofExcept wrap computation : StoreAction World Result).Answers := by
  cases computation with
  | ok result => exact answers_pure result
  | error error => exact answers_throw (wrap error)

theorem Answers.ite {condition : Prop} [Decidable condition]
    {action other : StoreAction World Result} (yes : action.Answers) (no : other.Answers) :
    (if condition then action else other).Answers := by
  split
  · exact yes
  · exact no

theorem Answers.within {action : StoreAction Local Result} (answers : action.Answers)
    (read : World → Local) (write : World → Local → World) :
    (StoreAction.within read write action).Answers := by
  intro world
  obtain ⟨answer, after, ended⟩ := answers (read world)
  refine ⟨answer, write world after, ?_⟩
  simp only [StoreAction.within, ExceptT.run] at ended ⊢
  rw [ended]

theorem run_within_of_ok {action : StoreAction Local Result} {read : World → Local}
    {write : World → Local → World} {world : World} {inner : Local} {answer : Except StoreError Result}
    (ended : action.run (read world) = .ok answer inner) :
    (StoreAction.within read write action).run world = .ok answer (write world inner) := by
  simp only [StoreAction.within, ExceptT.run] at ended ⊢
  rw [ended]

/-- A call in a part of the world is the call on the part. -/
theorem run_within {action : StoreAction Local Result} {read : World → Local}
    {write : World → Local → World} {world after : World} {answer : Except StoreError Result}
    (ended : (StoreAction.within read write action).run world = .ok answer after) :
    ∃ inner, action.run (read world) = .ok answer inner ∧ after = write world inner := by
  simp only [StoreAction.within, ExceptT.run] at ended ⊢
  cases called : action (read world) with
  | ok result inner =>
      rw [called] at ended
      cases ended
      exact ⟨inner, rfl, rfl⟩
  | error fault inner =>
      rw [called] at ended
      cases ended

end StoreAction

namespace Store

/-- Every call on the store answers. -/
structure Answers (store : Store World) : Prop where
  get : ∀ key, (store.get key).Answers
  put : ∀ key value, (store.put key value).Answers
  delete : ∀ key, (store.delete key).Answers
  clear : store.clear.Answers

theorem Answers.within {store : Store Local} (answers : store.Answers) (read : World → Local)
    (write : World → Local → World) : (store.within read write).Answers where
  get key := (answers.get key).within read write
  put key value := (answers.put key value).within read write
  delete key := (answers.delete key).within read write
  clear := answers.clear.within read write

end Store

open StoreAction in
theorem MemoryStore.answers (budget : Nat) : (MemoryStore.store budget).Answers where
  get key := by
    refine answers_getThe.bind fun residents => ?_
    cases RecencyList.find? key residents with
    | none => exact answers_pure none
    | some resident => exact (answers_set _).bind fun _ => answers_pure _
  put key value := by
    refine (answers_ofExcept .codec value.encodedSize).bind fun size => ?_
    refine StoreAction.Answers.ite ?_ (answers_modify _)
    exact (answers_throw _).bind fun _ => answers_modify _
  delete key := answers_getThe.bind fun _ => (answers_set _).bind fun _ => answers_pure _
  clear := answers_set _

namespace Switched

theorem answers_guarded (switch : Switch) {action : StoreAction (Switched World) Result}
    (answers : action.Answers) : (guarded switch action).Answers := by
  refine StoreAction.answers_getThe.bind fun world => .ite ?_ answers
  exact (StoreAction.answers_throw _).bind fun _ => answers

theorem answers {inner : Store World} (answering : inner.Answers) :
    (Switched.store inner).Answers where
  get key := by
    refine answers_guarded .get (StoreAction.answers_getThe.bind fun world => ?_)
    exact .ite (StoreAction.answers_pure none) ((answering.get key).within _ _)
  put key value := answers_guarded .put ((answering.put key value).within _ _)
  delete key := answers_guarded .delete ((answering.delete key).within _ _)
  clear := answers_guarded .clear (answering.clear.within _ _)

end Switched

/-- The stores side by side. -/
def PerTier.sideBySide (stores : PerTier (Store Local)) : PerTier (Store (PerTier Local)) :=
  .ofFunction fun tier =>
    (stores.get tier).within (·.get tier) fun worlds world => worlds.set tier world

theorem PerTier.get_sideBySide (stores : PerTier (Store Local)) (tier : Tier) :
    stores.sideBySide.get tier = (stores.get tier).within (·.get tier) fun worlds world =>
      worlds.set tier world := by
  rw [sideBySide, get_ofFunction]

theorem PerTier.answers_sideBySide {stores : PerTier (Store Local)}
    (answers : ∀ tier, (stores.get tier).Answers) (tier : Tier) :
    (stores.sideBySide.get tier).Answers := by
  rw [get_sideBySide]
  exact (answers tier).within _ _

/-- A cache over four stores in memory whose calls can be made to fail. -/
def CacheSetup.switched (tiers : TierConfig) (defaultLifetime? : Option Nat) (clock : Nat → Nat) :
    CacheSetup (PerTier (Switched MemoryWorld)) where
  tiers := tiers
  defaultLifetime? := defaultLifetime?
  stores := PerTier.sideBySide
    (.ofFunction fun tier => Switched.store (MemoryStore.store (tiers.capacity tier)))
  clock := clock

theorem CacheSetup.switched_answers (tiers : TierConfig) (defaultLifetime? : Option Nat)
    (clock : Nat → Nat) (tier : Tier) :
    ((CacheSetup.switched tiers defaultLifetime? clock).stores.get tier).Answers := by
  refine PerTier.answers_sideBySide (fun tier => ?_) tier
  rw [PerTier.get_ofFunction]
  exact Switched.answers (MemoryStore.answers _)

end TierVault
