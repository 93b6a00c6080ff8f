import TierVault.Proofs.Cache.Opening
import TierVault.Proofs.Eviction.Order

/-!
Entries for payloads that the stores tell of, in a cache that knows nothing of them.

The entries come in the order in which the payloads are told, from hot to cold, and each counts as used at the
moment it is made. So the evictor takes those of one tier in the order in which its store told them.
-/

namespace TierVault

variable {World Other : Type}

/-- The tier in which the value of a key lies, and its size. -/
structure Placement where
  tier : Tier
  key : String
  size : Nat

def Entry.placement (entry : Entry) : Placement := ⟨entry.tier, entry.key, entry.size⟩

namespace Placement

def bytesIn (tier : Tier) (placement : Placement) : Nat :=
  if placement.tier = tier then placement.size else 0

/-- The entry that is made for a payload. -/
def entry (setup : CacheSetup World) (tick now : Nat) (placement : Placement) : Entry :=
  .create placement.key placement.size placement.tier setup.defaultLifetime? tick now

/-- The entries for payloads, one after the other. -/
def entries (setup : CacheSetup World) : (tick readings : Nat) → List Placement → List Entry
  | _, _, [] => []
  | tick, readings, placement :: rest =>
    placement.entry setup (tick + 1) (setup.clock readings) ::
      entries setup (tick + 1) (readings + 1) rest

def ofListing (tier : Tier) (listed : List (String × Nat)) : List Placement :=
  listed.map fun (key, size) => ⟨tier, key, size⟩

/-- What the stores of some tiers tell. -/
def ofListings (tiers : List Tier) (listed : Tier → List (String × Nat)) : List Placement :=
  tiers.flatMap fun tier => ofListing tier (listed tier)

variable {setup : CacheSetup World} {tick readings : Nat} {placements : List Placement}
  {placement : Placement} {tier : Tier} {listed : Tier → List (String × Nat)}

theorem map_placement_entries :
    (entries setup tick readings placements).map Entry.placement = placements := by
  induction placements generalizing tick readings with
  | nil => rfl
  | cons placement rest induction => exact congrArg (placement :: ·) induction

/-- When the entries are made. -/
theorem of_mem_entries {entry : Entry} (member : entry ∈ entries setup tick readings placements) :
    ∃ number reading, tick < number ∧ readings ≤ reading ∧ reading < readings + placements.length ∧
      entry = entry.placement.entry setup number (setup.clock reading) := by
  induction placements generalizing tick readings with
  | nil => cases member
  | cons placement rest induction =>
      rcases List.mem_cons.mp member with rfl | later
      · exact ⟨tick + 1, readings, Nat.lt_succ_self tick, Nat.le_refl readings, by simp, rfl⟩
      · obtain ⟨number, reading, after, onward, before, same⟩ := induction later
        rw [List.length_cons]
        exact ⟨number, reading, Nat.lt_of_succ_lt after, Nat.le_of_succ_le onward, by omega, same⟩

theorem tier_of_mem_ofListing {listed : List (String × Nat)} (member : placement ∈ ofListing tier listed) :
    placement.tier = tier := by
  obtain ⟨pair, -, rfl⟩ := List.mem_map.mp member
  rfl

theorem mem_ofListings : placement ∈ ofListings Tier.all listed ↔
    (placement.key, placement.size) ∈ listed placement.tier := by
  unfold ofListings ofListing
  rw [List.mem_flatMap]
  constructor
  · rintro ⟨tier, -, member⟩
    obtain ⟨pair, among, rfl⟩ := List.mem_map.mp member
    exact among
  · intro among
    refine ⟨placement.tier, ?_, List.mem_map.mpr ⟨_, among, rfl⟩⟩
    cases placement.tier <;> decide

theorem nodup_ofListings (distinct : ∀ tier, (listed tier).Nodup) :
    (ofListings Tier.all listed).Nodup := by
  refine List.nodup_flatMap.mpr ⟨fun tier _ => (distinct tier).map ?_, ?_⟩
  · rintro ⟨key, size⟩ ⟨_, _⟩ same
    cases same
    rfl
  · have apart : Tier.all.Pairwise (· ≠ ·) := by decide
    refine apart.imp fun different placement one other => different ?_
    exact (tier_of_mem_ofListing one).symm.trans (tier_of_mem_ofListing other)

theorem filter_ofListings (tier : Tier) : (ofListings Tier.all listed).filter (·.tier = tier) =
    ofListing tier (listed tier) := by
  have own (place : Tier) : (ofListing place (listed place)).filter (·.tier = tier) =
      if place = tier then ofListing tier (listed tier) else [] := by
    split
    · rename_i same
      subst same
      exact List.filter_eq_self.mpr fun _ member => decide_eq_true (tier_of_mem_ofListing member)
    · rename_i other
      refine List.filter_eq_nil_iff.mpr fun _ member => ?_
      rw [tier_of_mem_ofListing member]
      simpa using other
  unfold ofListings
  rw [List.filter_flatMap]
  simp only [own]
  cases tier <;> simp [Tier.all]

end Placement

/-! ## Order of use -/

/-- Where the clock does not run backwards, each of the entries is used after those ahead of it. -/
theorem Placement.pairwise_entries {setup : CacheSetup World} {tick readings : Nat}
    {placements : List Placement}
    (forward : ∀ first second, first ≤ second → setup.clock first ≤ setup.clock second) :
    (entries setup tick readings placements).Pairwise
      fun left right => left.recency.Before right.recency := by
  induction placements generalizing tick readings with
  | nil => exact .nil
  | cons placement rest induction =>
      refine .cons (fun entry member => ?_) induction
      obtain ⟨number, reading, after, onward, -, same⟩ := of_mem_entries member
      rw [same]
      exact ⟨forward _ _ (Nat.le_of_succ_le onward), after⟩

namespace CacheState

variable {setup : CacheSetup World} {state : CacheState World} {key : String} {entry : Entry}
  {tier : Tier} {placement : Placement} {placements rest : List Placement}

theorem entryList_enroll (fresh : state.lookup key = none) :
    (state.enroll key entry).entryList = state.entryList ++ [entry] := by
  change (Keyed.put key entry state.entries).map Prod.snd = _
  rw [Keyed.put_of_find?_eq_none fresh, List.map_append]
  rfl

/-- With an entry for a payload. -/
def takeIn (setup : CacheSetup World) (state : CacheState World) (placement : Placement) :
    CacheState World :=
  insert setup state placement.key placement.size placement.tier setup.defaultLifetime?

/-- With entries for payloads, one after the other. -/
def takeAll (setup : CacheSetup World) (state : CacheState World) (placements : List Placement) :
    CacheState World :=
  placements.foldl (takeIn setup) state

/-- The payloads are of different keys that have no entries, and their bytes can be counted in. -/
structure Welcomes (state : CacheState World) (placements : List Placement) : Prop where
  distinct : (placements.map Placement.key).Nodup
  fresh : ∀ placement ∈ placements, state.lookup placement.key = none
  fits : ∀ tier,
    (state.usage.get tier).bytes + sumOf (placements.map (Placement.bytesIn tier)) < Word.limit

theorem Welcomes.head (welcomes : Welcomes state (placement :: rest)) :
    state.lookup placement.key = none ∧
      (state.usage.get placement.tier).bytes + placement.size < Word.limit := by
  refine ⟨welcomes.fresh placement List.mem_cons_self, ?_⟩
  have fits := welcomes.fits placement.tier
  rw [List.map_cons, sumOf_cons, Placement.bytesIn, if_pos rfl] at fits
  omega

theorem Welcomes.tail (welcomes : Welcomes state (placement :: rest)) :
    Welcomes (takeIn setup state placement) rest := by
  obtain ⟨unlike, distinct⟩ := List.nodup_cons.mp welcomes.distinct
  refine ⟨distinct, fun other member => ?_, fun tier => ?_⟩
  · have different : other.key ≠ placement.key := by
      intro same
      exact unlike (same ▸ List.mem_map_of_mem member)
    rw [takeIn, lookup_insert, if_neg different]
    exact welcomes.fresh other (List.mem_cons_of_mem _ member)
  · have fits := welcomes.fits tier
    rw [List.map_cons, sumOf_cons, ← Nat.add_assoc] at fits
    rw [takeIn, insert, usage_enroll, Entry.bytes_addTo, Entry.bytesIn_create]
    exact fits

@[simp] theorem world_takeAll : (takeAll setup state placements).world = state.world := by
  induction placements generalizing state with
  | nil => rfl
  | cons placement rest induction => exact induction

theorem readings_takeAll :
    (takeAll setup state placements).readings = state.readings + placements.length := by
  induction placements generalizing state with
  | nil => rfl
  | cons placement rest induction => exact induction.trans (Nat.succ_add_eq_add_succ _ _)

theorem takeAll_append (first second : List Placement) :
    takeAll setup state (first ++ second) = takeAll setup (takeAll setup state first) second :=
  List.foldl_append

theorem Tallied.takeAll (tallied : state.Tallied setup) (welcomes : state.Welcomes placements) :
    (takeAll setup state placements).Tallied setup := by
  induction placements generalizing state with
  | nil => exact tallied
  | cons placement rest induction =>
      exact induction (tallied.ticked.timed.enroll rfl welcomes.head.1) welcomes.tail

theorem entryList_takeAll (welcomes : state.Welcomes placements) :
    (takeAll setup state placements).entryList =
      state.entryList ++ Placement.entries setup state.tick state.readings placements := by
  induction placements generalizing state with
  | nil => exact (List.append_nil _).symm
  | cons placement rest induction =>
      have own : (takeIn setup state placement).entryList = state.entryList ++
          [placement.entry setup (state.tick + 1) (setup.clock state.readings)] :=
        entryList_enroll welcomes.head.1
      refine (induction welcomes.tail).trans ?_
      rw [own, List.append_assoc]
      rfl

/-- Every payload has its entry. -/
theorem map_placement_takeAll (welcomes : state.Welcomes placements) :
    (takeAll setup state placements).entryList.map Entry.placement =
      state.entryList.map Entry.placement ++ placements := by
  rw [entryList_takeAll welcomes, List.map_append, Placement.map_placement_entries]

/-- Where the clock does not run backwards, the evictor takes the entries of a tier in the order in which its
store told of the payloads. -/
theorem oldestFirst_takeAll {listed : Tier → List (String × Nat)}
    (forward : ∀ first second, first ≤ second → setup.clock first ≤ setup.clock second)
    (welcomes : state.Welcomes (Placement.ofListings Tier.all listed)) (bare : state.entryList = [])
    (tier : Tier) :
    (Eviction.oldestFirst (Eviction.candidates
        (takeAll setup state (Placement.ofListings Tier.all listed)).entryList tier [])).map
      (fun candidate => (candidate.key, candidate.size)) = listed tier := by
  rw [entryList_takeAll welcomes, bare, List.nil_append]
  generalize made : Placement.entries setup state.tick state.readings _ = entries
  have kept : Eviction.candidates entries tier [] =
      (entries.filter (·.placement.tier = tier)).map Candidate.ofEntry := by
    simp only [Eviction.candidates, List.contains_nil, Bool.not_false, Bool.and_true]
    rfl
  have ordered : Eviction.ByAge (Eviction.candidates entries tier []) :=
    List.pairwise_map.mpr ((made ▸ Placement.pairwise_entries forward).filter _)
  have all : entries.map Entry.placement = Placement.ofListings Tier.all listed :=
    made ▸ Placement.map_placement_entries
  have told : (entries.filter (·.placement.tier = tier)).map Entry.placement =
      Placement.ofListing tier (listed tier) := by
    rw [← Placement.filter_ofListings, ← all, List.filter_map]
    rfl
  have pairs := congrArg (List.map fun placement => (placement.key, placement.size)) told
  rw [Eviction.oldestFirst_of_byAge ordered, kept, List.map_map]
  rw [List.map_map, Placement.ofListing, List.map_map] at pairs
  refine pairs.trans ?_
  exact List.map_id _

end CacheState

namespace TieredCache

open TierVault.Action CacheState

variable {setup : CacheSetup World} {state : CacheState World} {tier : Tier} {tiers : List Tier}
  {stored : List (String × Nat)} {listed : Tier → List (String × Nat)} {rest : List Placement}

theorem leads_adopt_welcome (welcomes : state.Welcomes (Placement.ofListing tier stored ++ rest)) :
    Leads (fun _ => False) (stored.mapM fun (key, size) => adopt setup tier key size) state
      fun counts final => sumOf counts = stored.length ∧
        final = takeAll setup state (Placement.ofListing tier stored) ∧ final.Welcomes rest := by
  induction stored generalizing state with
  | nil => exact ⟨rfl, rfl, welcomes⟩
  | cons pair later induction =>
      obtain ⟨key, size⟩ := pair
      obtain ⟨fresh, fits⟩ := welcomes.head
      simp only [List.mapM_cons, adopt, leads_bind, leads_pure, leads_lookup, fresh]
      refine leads_insertEntry (fun _ => fits) ?_
      refine (induction welcomes.tail).imp ?_
      rintro counts final - ⟨counted, same, welcome⟩
      exact ⟨by rw [sumOf_cons, counted, List.length_cons, Nat.add_comm], same, welcome⟩

theorem leads_survey_welcome (tells : ∀ tier, (setup.stores.get tier).entries.run state.world =
      .ok (.ok (listed tier)) state.world)
    (welcomes : state.Welcomes (Placement.ofListing tier (listed tier) ++ rest)) :
    Leads (fun _ => False) (survey setup tier) state fun count final =>
      count = (listed tier).length ∧
        final = takeAll setup state (Placement.ofListing tier (listed tier)) ∧ final.Welcomes rest := by
  have asked : onStore setup tier (·.entries) state = .ok (.ok (listed tier)) state := by
    unfold onStore
    rw [tells]
  simp only [survey, leads_bind]
  refine (leads_of_eq asked).mpr ?_
  simp only [leads_bind, leads_pure]
  exact leads_adopt_welcome welcomes

/-- Of every payload that is told an entry is made, if the keys are new and the bytes can be counted in. -/
theorem leads_surveys_welcome (tells : ∀ tier, (setup.stores.get tier).entries.run state.world =
      .ok (.ok (listed tier)) state.world)
    (welcomes : state.Welcomes (Placement.ofListings tiers listed)) :
    Leads (fun _ => False) (tiers.mapM (survey setup)) state fun counts final =>
      sumOf counts = (Placement.ofListings tiers listed).length ∧
        final = takeAll setup state (Placement.ofListings tiers listed) := by
  induction tiers generalizing state with
  | nil => exact ⟨rfl, rfl⟩
  | cons tier later induction =>
      simp only [List.mapM_cons, leads_bind, leads_pure]
      refine (leads_survey_welcome tells welcomes).imp ?_
      rintro count middle - ⟨counted, rfl, welcome⟩
      have same : (takeAll setup state (Placement.ofListing tier (listed tier))).world = state.world :=
        world_takeAll
      refine (induction (same.symm ▸ tells) welcome).imp ?_
      rintro counts final - ⟨others, rfl⟩
      refine ⟨?_, (takeAll_append _ _).symm⟩
      rw [sumOf_cons, counted, others]
      simp [Placement.ofListings, Placement.ofListing]

theorem restore_of_tells (tells : ∀ tier, (setup.stores.get tier).entries.run state.world =
      .ok (.ok (listed tier)) state.world)
    (welcomes : state.Welcomes (Placement.ofListings Tier.all listed)) :
    restore setup state = .ok (Placement.ofListings Tier.all listed).length
      (takeAll setup state (Placement.ofListings Tier.all listed)) := by
  have leads : Leads (fun _ => False) (restore setup) state fun count final =>
      count = (Placement.ofListings Tier.all listed).length ∧
        final = takeAll setup state (Placement.ofListings Tier.all listed) := by
    simp only [restore_eq, leads_bind, leads_pure]
    exact leads_surveys_welcome tells welcomes
  obtain ⟨count, final, ended, rfl, rfl⟩ := leads.ends fun _ => id
  exact ended

end TieredCache

end TierVault
