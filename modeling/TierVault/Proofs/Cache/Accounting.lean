import TierVault.Cache.Statistics
import TierVault.Proofs.Cache.Twins
import TierVault.Proofs.Store.SideBySide

/-!
The counts of a tiered cache agree with its entries after every call, whatever the stores answer.

This needs nothing of the stores but that they answer. That no count ever runs short is put like this: a
cache that stops there runs no differently.
-/

/-! ## A cache that stops where its counts run short

Step by step it does the same as one that clamps them, until a count runs short. Where the books are
balanced no count ever does, so that in all their runs they are one. -/

namespace TierVault

variable {World State Result : Type}

/-- The strict action does what the lenient one does, unless it stops because a count ran short. -/
def Action.Shadows (strict lenient : Action State Result) : Prop :=
  ∀ state, strict state = lenient state ∨
    ∃ final, strict state = .error .differenceOverflow final

/-- The same cache, but it stops where a count runs short. -/
def CacheSetup.stopping (setup : CacheSetup World) : CacheSetup World :=
  { setup with shortfall := .stop }

namespace TieredCache

open TierVault.Action CacheState

variable (setup : CacheSetup World)

theorem takeAway_stop (shortfall : Shortfall) (held amount : Nat) :
    Shortfall.stop.takeAway held amount = shortfall.takeAway held amount ∨
      ∃ fault, Shortfall.stop.takeAway held amount = .error fault ∧ fault = .differenceOverflow := by
  cases shortfall with
  | stop => exact .inl rfl
  | clamp =>
      simp only [Shortfall.takeAway, Word.difference]
      split
      · exact .inl rfl
      · exact .inr ⟨_, rfl, rfl⟩

/-- Over the same stores, only the counts can tell the two caches apart. -/
theorem resembles_stopping : setup.stopping.Resembles setup.stores setup.shortfall
    (· = .differenceOverflow) Eq fun _ _ => True where
  takeAway := takeAway_stop setup.shortfall
  get _ _ := (follows_refl _).imp fun _ _ same => ⟨same, fun _ _ => trivial⟩
  put _ _ _ _ := follows_refl _
  delete _ _ := follows_refl _
  clear _ := follows_refl _

theorem eq_of_beside {state other : CacheState World} (beside : Beside Eq state other) :
    state = other := by
  obtain ⟨rfl⟩ := beside
  rfl

theorem shadows_runAll (calls : List CacheCall) :
    Shadows (runAll setup.stopping calls) (runAll setup calls) := by
  intro state
  have may : ∀ call ∈ calls, call.Allowed fun _ _ => True := by
    intro call _
    cases call <;> trivial
  have ends := parallel_runAll (resembles_stopping setup) may state state (.over rfl)
  change Alike _ _ _ _ (runAll setup calls state) at ends
  generalize runAll setup.stopping calls state = strict at ends ⊢
  generalize runAll setup calls state = lenient at ends ⊢
  cases ends with
  | ok same last =>
      obtain rfl := same
      obtain rfl := eq_of_beside last
      exact .inl rfl
  | error last =>
      obtain rfl := eq_of_beside last
      exact .inl rfl
  | stopped expected =>
      obtain rfl := expected
      exact .inr ⟨_, rfl⟩

end TieredCache

/-! ## Balanced books -/

variable {World : Type}

/-- Every call on a store answers. It may report an error, but does not stop. -/
def CacheSetup.Answers (setup : CacheSetup World) : Prop :=
  setup.Steady (fun _ => False) fun _ => True

theorem CacheSetup.answers_of_stores {setup : CacheSetup World}
    (answers : ∀ tier, (setup.stores.get tier).Answers) : setup.Answers := by
  have keeps {Result : Type} {action : StoreAction World Result} (answering : action.Answers) :
      action.Keeps (fun _ => False) fun _ => True := by
    intro world _
    obtain ⟨answer, after, ended⟩ := answering world
    exact (Action.leads_of_eq ended).mpr trivial
  exact
    { get := fun tier key => keeps ((answers tier).get key)
      put := fun tier key value => keeps ((answers tier).put key value)
      delete := fun tier key => keeps ((answers tier).delete key)
      clear := fun tier => keeps (answers tier).clear }

/-- What a cache tells of its tiers is what a count of its entries gives. -/
structure CacheState.Accounted (setup : CacheSetup World) (state : CacheState World) : Prop where
  entries : ∀ tier, ((CacheStatistics.ofState state).usage.get tier).entries =
    (state.entryList.filter fun entry => entry.tier = tier).length
  bytes : ∀ tier, ((CacheStatistics.ofState state).usage.get tier).bytes =
    sumOf ((state.entryList.filter fun entry => entry.tier = tier).map Entry.size)
  within : ∀ tier, ((CacheStatistics.ofState state).usage.get tier).bytes ≤
    setup.tiers.capacity tier
  total : (CacheStatistics.ofState state).totalEntries =
    sumOf (Tier.all.map fun tier => ((CacheStatistics.ofState state).usage.get tier).entries)

theorem CacheState.Balanced.accounted {setup : CacheSetup World} {state : CacheState World}
    (balanced : state.Balanced setup) : state.Accounted setup where
  entries tier := congrArg TierUsage.entries (balanced.usage tier)
  bytes tier := congrArg TierUsage.bytes (balanced.usage tier)
  within := balanced.within
  total := balanced.length_eq

namespace TieredCache

open TierVault.Action CacheState

variable {setup : CacheSetup World} {faults : Fault → Prop}

/-- No count runs short in any run. -/
theorem runAll_stopping (answers : setup.Answers) (world : World) (calls : List CacheCall) :
    runAll setup.stopping calls (.start setup world) = runAll setup calls (.start setup world) := by
  rcases shadows_runAll setup calls (.start setup world) with same | ⟨final, short⟩
  · exact same
  · have steady : setup.stopping.Steady (· ≠ .differenceOverflow) fun _ => True :=
      CacheSetup.Steady.mono ⟨answers.get, answers.put, answers.delete, answers.clear⟩ nofun
    have leads := leads_runAll steady (orderly_start world trivial) calls
      fun expected => absurd nofun expected
    exact absurd rfl (leads.of_error short)

/-- Where the capacities of all tiers and each value together make a word, all sums fit. -/
theorem sumsFit_of_capacities (answers : setup.Answers) {state : CacheState World}
    (balanced : state.Balanced setup) {calls : List CacheCall}
    (fits : ∀ call ∈ calls,
      sumOf (Tier.all.map setup.tiers.capacity) + call.weight < Word.limit) :
    SumsFit setup calls state := by
  induction calls generalizing state with
  | nil => trivial
  | cons call later induction =>
      have below : state.total ≤ sumOf (Tier.all.map setup.tiers.capacity) := by
        rw [balanced.total_eq_sum]
        have first := balanced.within .memory
        have second := balanced.within .sqlite
        have third := balanced.within .columnar
        have fourth := balanced.within .compressed
        simp only [Tier.all, List.map_cons, List.map_nil, sumOf_cons, sumOf_nil]
        omega
      have room : state.total + call.weight < Word.limit := by
        have here := fits call List.mem_cons_self
        omega
      refine ⟨room, fun answer next ended => ?_⟩
      have orderly : state.Orderly setup (fun _ => False) fun _ => True :=
        ⟨balanced.toTallied, trivial, fun _ => Nat.lt_of_le_of_lt (Nat.le_add_right _ _) room⟩
      have leads := leads_run answers orderly call fun _ => room
      have restrained := restrained_of_outcome (leads.of_ok ended).1 balanced.toTallied
      refine induction (restrained.balanced balanced) fun call member => ?_
      exact fits call (List.mem_cons_of_mem _ member)

/-- After every run, each tier counts exactly the entries that are of the tier, and no more bytes than its
capacity; and a cache that stops where a count runs short runs no differently. Where the sums fit, the run
ends. -/
theorem runAll_accounted (setup : CacheSetup World) (answers : setup.Answers) (world : World)
    (calls : List CacheCall) :
    (∀ history final, runAll setup calls (.start setup world) = .ok history final →
      final.Accounted setup) ∧
    runAll { setup with shortfall := .stop } calls (.start setup world) =
      runAll { setup with shortfall := .clamp } calls (.start setup world) ∧
    (SumsFit setup calls (.start setup world) →
      ∃ history final, runAll setup calls (.start setup world) = .ok history final) := by
  refine ⟨fun history final ended => ?_, ?_, fun fits => ?_⟩
  · exact ((lives_of_ok (.start world) ended).2.balanced (.start world)).accounted
  · have clamping : ({ setup with shortfall := .clamp } : CacheSetup World).Answers :=
      ⟨answers.get, answers.put, answers.delete, answers.clear⟩
    exact runAll_stopping clamping world calls
  · have leads := leads_runAll answers (orderly_start world trivial) calls fun _ => fits
    obtain ⟨history, final, ended, -⟩ := leads.ends nofun
    exact ⟨history, final, ended⟩

/-- A second value in a tier for one, a store that does not delete, and a value that comes back. -/
theorem runAll_accounted_crowded :
    let setup := CacheSetup.switched { budgets := ⟨5, 5, 5, 0⟩ } none id
    let calls : List CacheCall :=
      [.put "left" .null none, .put "right" .null none, .get "left", .put "left" .null none]
    ∃ history final,
      runAll setup calls (.start setup (.const ⟨[.delete], []⟩)) = .ok history final ∧
        final.Accounted setup := by
  intro setup calls
  have answers : setup.Answers :=
    CacheSetup.answers_of_stores (CacheSetup.switched_answers _ none id)
  obtain ⟨accounted, -, ends⟩ := runAll_accounted setup answers (.const ⟨[.delete], []⟩) calls
  obtain ⟨history, final, ended⟩ := ends (sumsFit_of_capacities answers (.start _) (by decide))
  exact ⟨history, final, ended, accounted history final ended⟩

end TieredCache

end TierVault
