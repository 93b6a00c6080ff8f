import TierVault.Proofs.Cache.Retreat
import TierVault.Proofs.Eviction

/-!
Making room in a tier leads to a retreat, and to room if it tells so.
-/

namespace TierVault

variable {World : Type}

/-- The counts tally and the stores are sound. Unless an overflow is expected, all sizes together are a
word. -/
structure CacheState.Orderly (setup : CacheSetup World) (faults : Fault → Prop) (sound : World → Prop)
    (state : CacheState World) : Prop where
  tallied : state.Tallied setup
  sound : sound state.world
  fits : ¬faults .sumOverflow → state.total < Word.limit

namespace CacheState

variable {faults : Fault → Prop} {setup : CacheSetup World} {sound : World → Prop}
  {state final : CacheState World} {hottest : Tier} {kept : List String}

theorem Orderly.overflows (orderly : state.Orderly setup faults sound)
    (large : Word.limit ≤ state.total) : faults .sumOverflow :=
  Classical.byContradiction fun checked => absurd (orderly.fits checked) (Nat.not_lt.mpr large)

theorem Orderly.inWorld (orderly : state.Orderly setup faults sound) {world : World}
    (isSound : sound world) : (state.inWorld world).Orderly setup faults sound :=
  ⟨orderly.tallied.inWorld world, isSound, orderly.fits⟩

theorem Orderly.counted (orderly : state.Orderly setup faults sound)
    (change : Counters → Counters) : (state.counted change).Orderly setup faults sound :=
  ⟨orderly.tallied.counted change, orderly.sound, orderly.fits⟩

theorem Orderly.recorded (orderly : state.Orderly setup faults sound) (operation outcome : String) :
    (state.recorded operation outcome).Orderly setup faults sound :=
  ⟨orderly.tallied.recorded operation outcome, orderly.sound, orderly.fits⟩

theorem Orderly.timed (orderly : state.Orderly setup faults sound) :
    state.timed.Orderly setup faults sound :=
  ⟨orderly.tallied.timed, orderly.sound, orderly.fits⟩

theorem Orderly.of_total_le (orderly : state.Orderly setup faults sound)
    (tallied : final.Tallied setup) (isSound : sound final.world)
    (less : final.total ≤ state.total) : final.Orderly setup faults sound :=
  ⟨tallied, isSound, fun checked => Nat.lt_of_le_of_lt less (orderly.fits checked)⟩

theorem Retreat.orderly (retreat : Retreat setup hottest kept state final)
    (orderly : state.Orderly setup faults sound) (isSound : sound final.world) :
    final.Orderly setup faults sound :=
  orderly.of_total_le (retreat.tallied orderly.tallied) isSound
    (retreat.total_le orderly.tallied)

end CacheState

namespace TieredCache

open TierVault.Action CacheState

variable {faults : Fault → Prop} {setup : CacheSetup World} {sound : World → Prop} {state : CacheState World}
  {key : String} {entry : Entry} {kept : List String} {tier : Tier}

/-- The entries of a tier stay, but for that of one key. -/
def SparesOthers (tier : Tier) (key : String) (state final : CacheState World) : Prop :=
  ∀ other held, other ≠ key → state.lookup other = some held → held.tier = tier →
    final.lookup other = some held

/-- The key has no entry in the tier. -/
def Vacated (tier : Tier) (key : String) (state : CacheState World) : Prop :=
  ∀ held, state.lookup key = some held → held.tier ≠ tier

/-- Where making room in `tier` leads. -/
def MakesRoom (setup : CacheSetup World) (faults : Fault → Prop) (sound : World → Prop)
    (tier : Tier) : Prop :=
  ∀ (needed : Nat) (kept : List String) (state : CacheState World),
    state.Orderly setup faults sound →
    (¬faults .sumOverflow → (state.usage.get tier).bytes + needed < Word.limit) →
    Leads faults (makeRoom setup tier needed kept) state fun fits final =>
      Retreat setup tier kept state final ∧ final.Orderly setup faults sound ∧
        (fits = true → (final.usage.get tier).bytes + needed ≤
          max (setup.tiers.capacity tier) (final.usage.get tier).bytes)

/-- The entry of a key leaves its tier. -/
def vacate (setup : CacheSetup World) (tier : Tier) (kept : List String) (key : String) :
    CacheAction World Unit := do
  let demoted ← match tier.colder? with
    | none => pure false
    | some next => demote setup (makeRoom setup next) key tier next kept
  if !demoted then evict setup key

theorem makeRoom_eq (setup : CacheSetup World) (tier : Tier) (needed : Nat) (kept : List String) :
    makeRoom setup tier needed kept = (do
      let usage := (← MonadState.get).usage.get tier
      if usage.capacity < needed then return false
      if needed ≤ usage.available then return true
      let victims ← Action.ofExcept
        (Eviction.victims (← MonadState.get).entryList tier (needed - usage.available) kept)
      victims.forM fun victim => vacate setup tier kept victim.key
      let usage := (← MonadState.get).usage.get tier
      return (← Action.ofExcept (Word.sum usage.bytes needed)) ≤ usage.capacity) := by
  cases tier <;> rfl

theorem leads_evict (steady : setup.Steady faults sound) (orderly : state.Orderly setup faults sound)
    (found : state.lookup key = some entry) (free : key ∉ kept) :
    Leads faults (evict setup key) state fun _ final =>
      Retreat setup entry.tier kept state final ∧ final.Orderly setup faults sound ∧
        SparesOthers entry.tier key state final ∧ Vacated entry.tier key final := by
  simp only [evict, leads_bind]
  refine leads_removeEntry steady orderly.sound (fun _ => orderly.tallied.covers) ?_ ?_
  · intro missing
    cases missing.symm.trans found
  · intro held answer world same deleted stays
    cases same.symm.trans found
    simp only [if_true, leads_bind, leads_count, leads_record]
    have retreat := Retreat.evict (.stay state) found free (Nat.le_refl _) deleted
    refine ⟨retreat, retreat.orderly orderly stays, ?_, ?_⟩
    · intro other kept different there _
      simpa [evicted, lookup_forget, different] using there
    · intro held there
      simp [lookup_forget] at there

theorem leads_demote {next : Tier} (steady : setup.Steady faults sound)
    (room : MakesRoom setup faults sound next) (step : entry.tier.colder? = some next)
    (orderly : state.Orderly setup faults sound) (found : state.lookup key = some entry)
    (free : key ∉ kept) :
    Leads faults (demote setup (makeRoom setup next) key entry.tier next kept) state
      fun moved final =>
        Retreat setup entry.tier kept state final ∧ final.Orderly setup faults sound ∧
          SparesOthers entry.tier key state final ∧
            (moved = true → Vacated entry.tier key final) ∧
              (moved = false → final.lookup key = some entry) := by
  have deeper := Tier.level_colder step
  have different := Tier.ne_of_colder step
  simp only [demote, leads_bind, leads_lookup, found]
  refine leads_onStore (steady.get _ _) orderly.sound ?_
  intro answer asked get stays
  have reads := Retreat.read (.stay state : Retreat setup entry.tier kept state state) get
  have still := orderly.inWorld stays
  rcases answer with error | _ | value
  · exact ⟨reads, still, fun _ _ _ there _ => there, fun moved => (by cases moved), fun _ => found⟩
  · exact ⟨reads, still, fun _ _ _ there _ => there, fun moved => (by cases moved), fun _ => found⟩
  simp only [leads_bind]
  refine (room entry.size (kept ++ [key]) _ still fun checked => ?_).imp ?_
  · have below := orderly.tallied.bytes_add_le_total found different
    exact Nat.lt_of_le_of_lt below (orderly.fits checked)
  rintro fits roomy - ⟨inner, tidy, space⟩
  have whole : Retreat setup entry.tier kept state roomy :=
    reads.trans (inner.weaken (by omega) (List.subset_append_left kept [key]))
  have present : roomy.lookup key = some entry :=
    (inner.lookup_of_mem (List.mem_append_right kept (List.mem_singleton.mpr rfl))).trans found
  have spared : SparesOthers entry.tier key state roomy := by
    intro other held _ there own
    exact inner.lookup_of_hotter there (by rw [own, deeper]; omega)
  cases fits with
  | false => exact ⟨whole, tidy, spared, fun moved => (by cases moved), fun _ => present⟩
  | true =>
      simp only [Bool.not_true, Bool.false_eq_true, if_false, leads_bind]
      refine leads_onStore (steady.put _ _ _) tidy.sound ?_
      intro answer written put stays
      rcases answer with error | _
      · have refuses : Refuses setup key entry.size value next roomy _ :=
          .because (fits_of_elsewhere present different (space rfl)) put
        have retreat := Retreat.stuck (.stay state) found free (Nat.le_refl _) step get inner refuses
        exact ⟨retreat, tidy.inWorld stays, spared, fun moved => (by cases moved), fun _ => present⟩
      · simp only [leads_bind, leads_count, leads_record, leads_pure]
        refine leads_moveEntry steady stays present different
          (tidy.tallied.covers present) (fun checked => ?_) ?_
        · have below := tidy.tallied.bytes_add_le_total present different
          exact Nat.lt_of_le_of_lt below (tidy.fits checked)
        · intro answer gone deleted stays
          have moves : Moves setup key entry value next roomy _ := .followed (space rfl) put deleted
          have retreat := Retreat.demote (.stay state) found free (Nat.le_refl _) step get inner moves
          refine ⟨retreat, retreat.orderly orderly stays, ?_, fun _ => ?_, fun failed => (by cases failed)⟩
          · intro other held another there own
            have kept := spared other held another there own
            simpa [demoted, lookup_relocate, another] using kept
          · intro held there
            have moved : some { entry with tier := next } = some held := by
              simpa [demoted, lookup_relocate] using there
            cases moved
            exact different.symm

theorem leads_vacate (steady : setup.Steady faults sound)
    (room : ∀ next, entry.tier.colder? = some next → MakesRoom setup faults sound next)
    (orderly : state.Orderly setup faults sound) (found : state.lookup key = some entry)
    (free : key ∉ kept) :
    Leads faults (vacate setup entry.tier kept key) state fun _ final =>
      Retreat setup entry.tier kept state final ∧ final.Orderly setup faults sound ∧
        SparesOthers entry.tier key state final ∧ Vacated entry.tier key final := by
  unfold vacate
  cases step : entry.tier.colder? with
  | none => exact leads_evict steady orderly found free
  | some next =>
      simp only [leads_bind]
      refine (leads_demote steady (room next step) step orderly found free).imp ?_
      rintro moved middle - ⟨retreat, tidy, spared, left, present⟩
      cases moved with
      | true => exact ⟨retreat, tidy, spared, left rfl⟩
      | false =>
          simp only [Bool.not_false, if_true]
          refine (leads_evict steady tidy (present rfl) free).imp ?_
          rintro _ final - ⟨further, done, sparedToo, gone⟩
          refine ⟨retreat.trans further, done, ?_, gone⟩
          intro other held different there own
          exact sparedToo other held different (spared other held different there own) own

/-- Every victim still has its entry in the tier, and no two are the same. -/
structure Awaiting (tier : Tier) (kept : List String) (victims : List Candidate)
    (state : CacheState World) : Prop where
  distinct : (victims.map Candidate.key).Nodup
  present : ∀ victim ∈ victims, ∃ entry, state.lookup victim.key = some entry ∧
    entry.tier = tier ∧ entry.size = victim.size
  free : ∀ victim ∈ victims, victim.key ∉ kept

theorem awaiting_of_victims {needed : Nat} {victims : List Candidate}
    (tallied : state.Tallied setup)
    (took : Eviction.victims state.entryList tier needed kept = .ok victims) :
    Awaiting tier kept victims state where
  distinct := Eviction.nodup_victims took tallied.nodup_entryList
  present victim member := by
    obtain ⟨entry, held, own, -, rfl⟩ := Eviction.mem_victims took member
    exact ⟨entry, tallied.lookup_of_mem held, own, rfl⟩
  free victim member := by
    obtain ⟨entry, -, -, free, rfl⟩ := Eviction.mem_victims took member
    exact free

theorem Awaiting.rest {victim : Candidate} {victims : List Candidate} {final : CacheState World}
    (awaiting : Awaiting tier kept (victim :: victims) state)
    (spared : SparesOthers tier victim.key state final) : Awaiting tier kept victims final where
  distinct := (List.nodup_cons.mp awaiting.distinct).2
  present other member := by
    obtain ⟨entry, found, own, size⟩ := awaiting.present other (List.mem_cons_of_mem _ member)
    refine ⟨entry, spared other.key entry ?_ found own, own, size⟩
    intro same
    refine (List.nodup_cons.mp awaiting.distinct).1 ?_
    exact same ▸ List.mem_map_of_mem member
  free other member := awaiting.free other (List.mem_cons_of_mem _ member)

/-- Making room leads to a retreat, whatever the stores answer. -/
theorem makesRoom (steady : setup.Steady faults sound) (tier : Tier) :
    MakesRoom setup faults sound tier := by
  induction tier using Tier.colder_induction with
  | step tier room =>
      intro needed kept state orderly fits
      rw [makeRoom_eq]
      simp only [leads_bind, leads_get]
      split
      · refine ⟨.stay state, orderly, ?_⟩
        intro impossible
        cases impossible
      split
      · rename_i enough
        refine ⟨.stay state, orderly, fun _ => ?_⟩
        have capacity := orderly.tallied.capacity tier
        unfold TierUsage.available at enough
        omega
      simp only [leads_bind, leads_get]
      refine leads_ofExcept _ _ _ (fun fault failed => ?_) ?_
      · obtain ⟨rfl, large⟩ := Eviction.victims_error failed
        exact orderly.overflows large
      intro victims took
      have awaiting := awaiting_of_victims orderly.tallied took
      refine (leads_forM
        (fun left middle => Retreat setup tier kept state middle ∧
          middle.Orderly setup faults sound ∧ Awaiting tier kept left middle)
        ?_ ⟨.stay state, orderly, awaiting⟩).imp ?_
      · rintro victim rest middle ⟨retreat, tidy, awaiting⟩
        have first := List.mem_cons_self (a := victim) (l := rest)
        obtain ⟨entry, found, rfl, -⟩ := awaiting.present victim first
        refine (leads_vacate steady room tidy found (awaiting.free victim first)).imp ?_
        rintro _ final - ⟨further, done, spared, -⟩
        exact ⟨retreat.trans further, done, awaiting.rest spared⟩
      · rintro _ final - ⟨retreat, tidy, -⟩
        have less := retreat.bytes_le orderly.tallied (Nat.le_refl tier.level)
        refine leads_sum (fun checked => ?_) ⟨retreat, tidy, fun fits => ?_⟩
        · have below := fits checked
          omega
        · rw [← tidy.tallied.capacity tier]
          exact Nat.le_trans (of_decide_eq_true fits) (Nat.le_max_left _ _)

end TieredCache

end TierVault
