import TierVault.Proofs.Cache.Adoption
import TierVault.Proofs.Cache.Losses
import TierVault.Proofs.Cache.Storage
import TierVault.Proofs.Cache.Twins

/-!
Caches that have what another cache had, and a cache in a directory beside one in memory.

Where a cache agrees with its stores, their listings tell exactly its entries. So a cache that makes entries for
what the stores outside memory list has those entries again, counts them as before, and agrees with the stores.

The stores of a cache in a directory and of the same cache in memory stand for the same maps, and so the two caches
answer every call alike. What is known of a cache over stores that do not fail is known of the one in the directory
then; it may also stop, at a count that is no word.
-/

namespace TierVault

/-! # What lies outside memory -/

section

variable {World Other : Type}

namespace Placement

/-- What a count gives for a tier. -/
def usage (capacity : Nat) (tier : Tier) (placements : List Placement) : TierUsage where
  entries := (placements.filter (·.tier = tier)).length
  bytes := sumOf ((placements.filter (·.tier = tier)).map size)
  capacity := capacity

theorem usage_perm {left right : List Placement} (perm : left.Perm right) (capacity : Nat) (tier : Tier) :
    usage capacity tier left = usage capacity tier right := by
  have kept := perm.filter (·.tier = tier)
  unfold usage
  rw [kept.length_eq, sumOf_perm (kept.map size)]

end Placement

namespace CacheState

/-- Where the values of all entries lie. -/
def placements (state : CacheState World) : List Placement := state.entryList.map Entry.placement

/-- Where the values of entries lie that are not in memory. -/
def persisted (state : CacheState World) : List Placement :=
  state.placements.filter (·.tier ≠ .memory)

variable {setup : CacheSetup World} {other : CacheSetup Other} {state : CacheState World}
  {next : CacheState Other} {key : String} {entry : Entry} {tier : Tier} {placement : Placement}

theorem Tallied.map_placement_lookup (tallied : state.Tallied setup) :
    (state.lookup key).map Entry.placement = some placement ↔
      placement ∈ state.placements ∧ placement.key = key := by
  unfold placements
  rw [Option.map_eq_some_iff, List.mem_map]
  constructor
  · rintro ⟨entry, found, rfl⟩
    have named := tallied.named key entry found
    exact ⟨⟨entry, List.mem_map_of_mem (Keyed.mem_of_find? found), rfl⟩, named⟩
  · rintro ⟨⟨entry, member, rfl⟩, rfl⟩
    exact ⟨entry, tallied.lookup_of_mem member, rfl⟩

theorem Tallied.nodup_placements (tallied : state.Tallied setup) :
    (state.placements.map Placement.key).Nodup := by
  unfold placements
  rw [List.map_map]
  exact tallied.nodup_entryList

theorem mem_persisted : placement ∈ state.persisted ↔
    placement ∈ state.placements ∧ placement.tier ≠ .memory := by
  simp [persisted]

/-- A cache that knew of nothing has the entries for what it found, and no others. -/
theorem placements_takeAll {world : World} {placed : List Placement}
    (welcomes : (CacheState.start setup world).Welcomes placed) :
    (takeAll setup (.start setup world) placed).placements = placed :=
  map_placement_takeAll welcomes

/-- Its entries were made at one reading of the clock each, with the default lifetime. -/
theorem of_lookup_takeAll {world : World} {placed : List Placement}
    (welcomes : (CacheState.start setup world).Welcomes placed)
    (found : (takeAll setup (.start setup world) placed).lookup key = some entry) :
    ∃ reading < (takeAll setup (.start setup world) placed).readings,
      entry.lifetime? = setup.defaultLifetime? ∧ entry.createdAt = setup.clock reading := by
  have member : entry ∈ (takeAll setup (.start setup world) placed).entryList :=
    List.mem_map_of_mem (Keyed.mem_of_find? found)
  rw [entryList_takeAll welcomes] at member
  obtain ⟨number, reading, -, -, before, same⟩ := Placement.of_mem_entries member
  rw [readings_takeAll, same]
  exact ⟨reading, before, rfl, rfl⟩

theorem tally_eq : state.tally setup tier =
    Placement.usage (setup.tiers.capacity tier) tier state.placements := by
  unfold tally entriesIn placements Placement.usage
  rw [List.filter_map, List.length_map, List.map_map]
  rfl

theorem item?_shelf_eq (state : CacheState World) (newest : String → Option Value) (tier : Tier)
    (key : String) : (state.shelf newest tier).item? key =
      ((state.lookup key).map Entry.placement).bind
        fun placement => if placement.tier = tier then newest key else none := by
  rw [item?_shelf, Option.bind_map]
  rfl

/-! ## The same entries again -/

section Again

variable (tallied : state.Tallied setup) (again : next.Tallied other)
  (same : next.placements.Perm state.persisted)
include tallied again same

/-- The entry of a key is there again, unless it was in memory. -/
theorem lookup_of_persisted (key : String) : (next.lookup key).map Entry.placement =
    ((state.lookup key).map Entry.placement).filter (·.tier ≠ .memory) := by
  refine Option.ext fun placement => ?_
  rw [again.map_placement_lookup, same.mem_iff, mem_persisted, Option.filter_eq_some_iff,
    tallied.map_placement_lookup, decide_eq_true_iff]
  exact and_right_comm

theorem exists_again (found : state.lookup key = some entry) (cold : entry.tier ≠ .memory) :
    ∃ again, next.lookup key = some again ∧ again.placement = entry.placement := by
  have kept : ((state.lookup key).map Entry.placement).filter (·.tier ≠ .memory) =
      some entry.placement := by
    rw [found, Option.filter_eq_some_iff]
    exact ⟨rfl, decide_eq_true cold⟩
  exact Option.map_eq_some_iff.mp ((lookup_of_persisted tallied again same key).trans kept)

theorem usage_of_persisted (tiers : setup.tiers = other.tiers) (tier : Tier) : next.usage.get tier =
    if tier = .memory then .ofCapacity (other.tiers.capacity tier) else state.usage.get tier := by
  rw [again.usage, tally_eq, Placement.usage_perm same]
  split
  · rename_i hot
    have none_left : state.persisted.filter (·.tier = tier) = [] :=
      List.filter_eq_nil_iff.mpr fun _ member => by
        simpa [hot] using (mem_persisted.mp member).2
    unfold Placement.usage
    rw [none_left]
    rfl
  · rename_i cold
    have all_left : state.persisted.filter (·.tier = tier) = state.placements.filter (·.tier = tier) := by
      refine (List.filter_filter ..).trans (List.filter_congr fun placement _ => ?_)
      by_cases own : placement.tier = tier <;> simp [own, cold]
    rw [tallied.usage, tally_eq, tiers]
    unfold Placement.usage
    rw [all_left]

/-- What the entries tell of a store outside memory is what they told before. -/
theorem shelf_of_persisted (tiers : setup.tiers = other.tiers) (newest : String → Option Value) (tier : Tier) :
    next.shelf newest tier = if tier = .memory then .empty else state.shelf newest tier := by
  have bytes := congrArg TierUsage.bytes (usage_of_persisted tallied again same tiers tier)
  have lookup := lookup_of_persisted tallied again same
  split
  · rename_i hot
    subst hot
    refine Shelf.ext (funext fun key => ?_) bytes
    rw [item?_shelf_eq, lookup]
    cases (state.lookup key).map Entry.placement with
    | none => rfl
    | some placement => by_cases held : placement.tier = .memory <;> simp [Shelf.empty, Option.filter_some, held]
  · rename_i cold
    rw [if_neg cold] at bytes
    refine Shelf.ext (funext fun key => ?_) bytes
    rw [item?_shelf_eq, item?_shelf_eq, lookup]
    cases (state.lookup key).map Entry.placement with
    | none => rfl
    | some placement =>
        by_cases held : placement.tier = .memory <;> simp [Option.filter_some, held, Ne.symm cold]

end Again

section Agrees

variable {setup other : CacheSetup World} {storable : Value → Prop} {sound : World → Prop}
  {shelves : World → Tier → Shelf} {newest : String → Option Value} {state next : CacheState World}
  {placements : List Placement} {listed : Tier → List (String × Nat)}

/-- The store of a tier holds a value where an entry of the tier and of its size is. -/
theorem Agrees.mem_placements (agrees : Agrees setup storable sound shelves newest state)
    (tier : Tier) (key : String) (size : Nat) : ⟨tier, key, size⟩ ∈ state.placements ↔
      ∃ value, (shelves state.world tier).item? key = some value ∧ value.weight = size := by
  have tallied := agrees.balanced.toTallied
  have told : ⟨tier, key, size⟩ ∈ state.placements ↔
      (state.lookup key).map Entry.placement = some ⟨tier, key, size⟩ :=
    (and_iff_left rfl).symm.trans tallied.map_placement_lookup.symm
  rw [told, agrees.stocked, item?_shelf]
  cases found : state.lookup key with
  | none => simp
  | some entry =>
      obtain ⟨value, new, -, sized⟩ := agrees.sized key entry found
      have named := tallied.named key entry found
      simp only [Option.map_some, Option.bind_some, Option.some.injEq, Entry.placement,
        Placement.mk.injEq, named, true_and, new]
      by_cases own : entry.tier = tier
      · simp [own, Value.weight_eq sized]
      · simp [own]

/-- What the stores outside memory list is what the entries tell. -/
theorem Agrees.persisted_of_listings (agrees : Agrees setup storable sound shelves newest state)
    (distinct : ∀ tier, (listed tier).Nodup)
    (lists : ∀ tier key size, (key, size) ∈ listed tier ↔ tier ≠ .memory ∧
      ∃ value, (shelves state.world tier).item? key = some value ∧ value.weight = size) :
    (Placement.ofListings Tier.all listed).Perm state.persisted := by
  have once : state.persisted.Nodup :=
    (agrees.balanced.toTallied.nodup_placements.of_map).filter _
  refine (List.perm_ext_iff_of_nodup (Placement.nodup_ofListings distinct) once).mpr fun placement => ?_
  rw [Placement.mem_ofListings, lists, mem_persisted, ← agrees.mem_placements]
  exact and_comm

/-- An empty cache has room in its books for what a balanced one had outside memory. -/
theorem Balanced.welcomes (balanced : state.Balanced setup)
    (words : ∀ tier, setup.tiers.capacity tier < Word.limit)
    (same : placements.Perm state.persisted) (world : Other) (fresh : CacheSetup Other) :
    (CacheState.start fresh world).Welcomes placements where
  distinct := by
    refine ((same.map Placement.key).nodup_iff).mpr ?_
    exact (List.filter_sublist.map Placement.key).nodup balanced.nodup_placements
  fresh _ _ := rfl
  fits tier := by
    have held : sumOf (state.persisted.map (Placement.bytesIn tier)) ≤ (state.usage.get tier).bytes := by
      rw [balanced.bytes]
      refine Nat.le_trans (sumOf_sublist (List.filter_sublist.map _)) (Nat.le_of_eq ?_)
      simp only [CacheState.placements, entryList, Keyed.weigh, List.map_map]
      rfl
    have within := balanced.within tier
    have small := words tier
    have none_held : ((CacheState.start fresh world).usage.get tier).bytes = 0 := by
      cases tier <;> rfl
    rw [sumOf_perm (same.map _), none_held]
    omega

/-- A cache that has the entries outside memory again agrees with its stores, where these kept what they held. -/
theorem Agrees.again (agrees : Agrees setup storable sound shelves newest state)
    (again : next.Tallied other) (tiers : setup.tiers = other.tiers)
    (same : next.placements.Perm state.persisted) (isSound : sound next.world)
    (hot : shelves next.world .memory = .empty)
    (cold : ∀ tier, tier ≠ .memory → shelves next.world tier = shelves state.world tier) :
    Agrees other storable sound shelves newest next := by
  have tallied := agrees.balanced.toTallied
  have usage := usage_of_persisted tallied again same tiers
  have lookup := lookup_of_persisted tallied again same
  refine ⟨⟨again, fun tier => ?_⟩, isSound, fun key entry found => ?_, ?_⟩
  · rw [usage]
    split
    · exact Nat.zero_le _
    · exact tiers ▸ agrees.balanced.within tier
  · have before := lookup key
    rw [found, Option.map_some, eq_comm, Option.filter_eq_some_iff, Option.map_eq_some_iff] at before
    obtain ⟨⟨old, known, placed⟩, -⟩ := before
    obtain ⟨value, new, able, sized⟩ := agrees.sized key old known
    have size : old.size = entry.size := congrArg Placement.size placed
    exact ⟨value, new, able, size ▸ sized⟩
  · funext tier
    rw [shelf_of_persisted tallied again same tiers]
    split
    · rename_i hot_tier
      exact hot_tier ▸ hot
    · rw [cold tier ‹_›, agrees.stocked]

end Agrees

end CacheState

end

/-! # A directory beside memory -/

section

open FileSystem TierVault.Action

variable {World Local State Place Result Answer : Type} {faults : Fault → Prop}

/-! ## Calls of both -/

/-- Two actions that both lead somewhere end alike. -/
theorem Action.alike_of_leads {related : State → Place → Prop} {same : Result → Answer → Prop}
    {action : Action State Result} {twin : Action Place Answer} {state : State} {place : Place}
    {after : Result → State → Prop} {last : Answer → Place → Prop}
    (leads : Leads faults action state after) (ends : Leads (fun _ => False) twin place last)
    (both : ∀ result final answer next, after result final → last answer next →
      same result answer ∧ related final next) :
    Alike faults related same (action state) (twin place) := by
  obtain ⟨answer, next, ended, holds⟩ := ends.ends fun _ => id
  rw [ended]
  cases done : action state with
  | ok result final =>
      obtain ⟨results, states⟩ := both result final answer next (leads.of_ok done) holds
      exact .ok results states
  | error fault final => exact .stopped (leads.of_error done)

/-- The same cache over stores in memory. -/
def CacheSetup.twin (setup : CacheSetup World) : CacheSetup (PerTier MemoryWorld) :=
  .inMemory setup.tiers setup.defaultLifetime? setup.clock

/-- The cache is over the stores that the settings describe, with their budgets for the capacities of its tiers. -/
structure CacheSetup.IsOver (setup : CacheSetup Storage) (settings : StorageSettings) : Prop where
  stores : setup.stores = Storage.stores settings
  clamps : setup.shortfall = .clamp
  budgets : ∀ tier, ((Storage.stores settings).get tier).budget = setup.tiers.capacity tier

namespace Storage

variable {settings : StorageSettings} {keys : List String} {step : Nat}

/-- Stores in memory stand for maps. -/
abbrev Mirrored (worlds : PerTier MemoryWorld) (maps : PerTier RecentMap) : Prop :=
  ∀ tier, Mirrors (fun _ item value => item = value) (worlds.get tier) (maps.get tier)

/-- The four stores and stores in memory stand for the same maps. -/
def Matches (site : Site settings keys step) (storage : Storage) (worlds : PerTier MemoryWorld) : Prop :=
  ∃ maps, Stands site storage maps ∧ Mirrored worlds maps

/-- A value that may be stored under a key. -/
abbrev Permitted (keys : List String) (step : Nat) (key : String) (value : Value) : Prop :=
  DiskStore.Permits keys step (.put key value)

variable {site : Site settings keys step} {setup : CacheSetup Storage} {storage : Storage}
  {maps : PerTier RecentMap}

/-- Each call is answered alike, and as the map of its tier answers it. -/
theorem follows_call (site : Site settings keys step) (based : setup.IsOver settings) (tier : Tier)
    {call : StoreCall} (permits : DiskStore.Permits keys step call) :
    Follows (· = .sumOverflow) (Matches site)
      (fun answer other => answer = other ∧ ∃ map : RecentMap,
        (∀ pair ∈ map, Permitted keys step pair.1 pair.2) ∧
          answer = (RecentMap.step (setup.tiers.capacity tier) map call).1)
      (call.run ((stores settings).get tier)).run (call.run (setup.twin.stores.get tier)).run := by
  rintro storage worlds ⟨maps, stands, mirrors⟩
  have leads := leads_call stands tier permits
  rw [based.budgets] at leads
  have ends : Leads (fun _ => False) (call.run (setup.twin.stores.get tier)).run worlds
      fun answer after =>
        answer = (RecentMap.step (setup.tiers.capacity tier) (maps.get tier) call).1 ∧
          ∃ world, after = worlds.set tier world ∧ Mirrors (fun _ item value => item = value) world
            (RecentMap.step (setup.tiers.capacity tier) (maps.get tier) call).2 := by
    change Leads _ (call.run ((PerTier.sideBySide _).get tier)).run _ _
    rw [PerTier.sideBySide, PerTier.get_ofFunction, PerTier.get_ofFunction, StoreCall.run_within,
      StoreAction.leads_within]
    refine (MemoryStore.refines (setup.tiers.capacity tier) call [] _ _ (mirrors tier)).imp ?_
    rintro answer world - ⟨same, mirrors⟩
    exact ⟨same, world, rfl, mirrors⟩
  refine alike_of_leads leads ends ?_
  rintro answer after other _ ⟨rfl, onward⟩ ⟨rfl, world, rfl, here⟩
  refine ⟨⟨rfl, maps.get tier, stands.permitted tier, rfl⟩, _, onward, fun place => ?_⟩
  by_cases own : place = tier
  · subst own
    rwa [PerTier.get_set_same, PerTier.get_set_same]
  · rw [PerTier.get_set_other _ _ own, PerTier.get_set_other _ _ own]
    exact mirrors place

theorem resembles (site : Site settings keys step) (based : setup.IsOver settings) :
    setup.Resembles setup.twin.stores .clamp (· = .sumOverflow) (Matches site)
      (Permitted keys step) where
  takeAway held amount := .inl (by rw [based.clamps])
  get tier key := by
    have may : DiskStore.Permits keys step (.get key) := trivial
    rw [based.stores]
    refine (follows_call site based tier may).imp ?_
    rintro answer _ ⟨rfl, map, permitted, told⟩
    refine ⟨rfl, fun value read => ?_⟩
    cases known : Keyed.find? key map with
    | none =>
        rw [RecentMap.step_get_of_none known, read] at told
        cases told
    | some held =>
        rw [RecentMap.step_get_of_some known, read] at told
        cases told
        exact permitted (key, value) (Keyed.mem_of_find? known)
  put tier key value permits := by
    have may : DiskStore.Permits keys step (.put key value) := permits
    rw [based.stores]
    exact (follows_call site based tier may).imp fun _ _ told => told.1
  delete tier key := by
    have may : DiskStore.Permits keys step (.delete key) := trivial
    rw [based.stores]
    exact (follows_call site based tier may).imp fun _ _ told => told.1
  clear tier := by
    have may : DiskStore.Permits keys step .clear := trivial
    rw [based.stores]
    exact (follows_call site based tier may).imp fun _ _ told => told.1

/-! ## The cache knows what its stores hold -/

abbrev IsSound (worlds : PerTier MemoryWorld) : Prop := ∀ tier, MemoryStore.Sound (worlds.get tier)

abbrev shelves (worlds : PerTier MemoryWorld) (tier : Tier) : Shelf := MemoryStore.shelf (worlds.get tier)

/-- The cache agrees with stores in memory that stand for the same maps as its own stores. -/
def Consistent (site : Site settings keys step) (setup : CacheSetup Storage)
    (newest : String → Option Value) (state : CacheState Storage) : Prop :=
  ∃ worlds, Matches site state.world worlds ∧
    CacheState.Agrees setup.twin (fun _ => True) IsSound shelves newest (state.over worlds)

variable {worlds : PerTier MemoryWorld} {newest : String → Option Value} {state : CacheState Storage}

theorem item?_shelves (mirrored : Mirrored worlds maps) (tier : Tier) (key : String) :
    (shelves worlds tier).item? key = Keyed.find? key (maps.get tier) := by
  change (RecencyList.find? key (worlds.get tier)).map Resident.item = _
  rcases (mirrored tier).find? key with ⟨missing, unknown⟩ | ⟨item, value, found, known, rfl⟩
  · rw [missing, unknown]
    rfl
  · rw [found, known]
    rfl

theorem distinct_of_sound (mirrored : Mirrored worlds maps) (isSound : IsSound worlds) (tier : Tier) :
    Keyed.Distinct (maps.get tier) := by
  unfold Keyed.Distinct
  rw [(mirrored tier).keys]
  exact (isSound tier).distinct

theorem nodup_listing {map : RecentMap} (distinct : Keyed.Distinct map) : (listing map).Nodup := by
  refine List.Nodup.of_map Prod.fst ?_
  unfold listing
  rw [List.map_map]
  exact distinct

theorem mem_listing (mirrored : Mirrored worlds maps) (isSound : IsSound worlds) (tier : Tier) (key : String)
    (size : Nat) : (key, size) ∈ listing (maps.get tier) ↔
      ∃ value, (shelves worlds tier).item? key = some value ∧ value.weight = size := by
  simp only [item?_shelves mirrored]
  unfold listing
  rw [List.mem_map]
  constructor
  · rintro ⟨⟨_, value⟩, member, same⟩
    cases same
    exact ⟨value, (distinct_of_sound mirrored isSound tier).find?_of_mem member, rfl⟩
  · rintro ⟨value, found, rfl⟩
    exact ⟨(key, value), Keyed.mem_of_find? found, rfl⟩

/-! ### Without what is in memory -/

theorem get_restarted {Item : Type} (items : PerTier (List Item)) (tier : Tier) :
    (items.set .memory []).get tier = if tier = .memory then [] else items.get tier := by
  cases tier <;> rfl

theorem Mirrored.restarted (mirrored : Mirrored worlds maps) :
    Mirrored (worlds.set .memory []) (maps.set .memory []) := by
  intro tier
  rw [get_restarted, get_restarted]
  split
  · exact .nil
  · exact mirrored tier

theorem IsSound.restarted (isSound : IsSound worlds) : IsSound (worlds.set .memory []) := by
  intro tier
  rw [get_restarted]
  split
  · exact ⟨List.nodup_nil, nofun⟩
  · exact isSound tier

/-! ## Runs and reads -/

section Runs

open TieredCache CacheState

variable (based : setup.IsOver settings)
include based

theorem consistent_of_runAll {world : Storage} {calls : List CacheCall} {history : List CacheEvent}
    (stands : Stands site world (.const []))
    (may : ∀ call ∈ calls, call.Allowed (Permitted keys step))
    (ended : runAll setup calls (.start setup world) = .ok history state) :
    Consistent site setup (latest · history) state := by
  have fresh : Matches site world (.const []) :=
    ⟨_, stands, fun tier => by cases tier <;> exact .nil⟩
  have follows := parallel_runAll (resembles site based) may
  obtain ⟨_, _, reached, rfl, @⟨worlds, worlds_match⟩⟩ := follows.of_ok (.over fresh) ended
  refine ⟨worlds, worlds_match, ?_⟩
  refine agrees_of_runAll (CacheSetup.inMemory_sturdy ..) (fun tier => ?_) (fun tier => ?_) (fun call _ => ?_)
    reached
  · cases tier <;> exact ⟨List.nodup_nil, nofun⟩
  · cases tier <;> rfl
  · cases call <;> trivial

/-- What a read answers: the newest value of the key, as long as its entry is not expired. -/
theorem Consistent.leads_get
    (consistent : Consistent site setup newest state) (key : String) :
    Leads (· = .sumOverflow) (TieredCache.get setup key) state fun answer _ =>
      answer = (state.lookup key).bind fun entry =>
        if entry.isExpired (setup.clock state.readings) then none else newest key := by
  obtain ⟨worlds, worlds_match, agrees⟩ := consistent
  have sturdy := CacheSetup.inMemory_sturdy setup.tiers setup.defaultLifetime? setup.clock
  have steady : setup.twin.Steady (· = .sumOverflow) IsSound := sturdy.steady.mono fun _ => False.elim
  have reads : Leads (· = .sumOverflow) (TieredCache.get setup.twin key) (state.over worlds) _ :=
    leads_read steady ⟨agrees.balanced.toTallied, agrees.sound, fun checked => absurd rfl checked⟩
  have follows := parallel_get (resembles site based) key
  refine (follows.leads (.over worlds_match) reads).imp ?_
  rintro answer final - ⟨_, last, rfl, -, outcome, -⟩
  exact outcome.answer_eq sturdy agrees

/-- What a read of a key with an entry answers. -/
theorem Consistent.leads_get_of_lookup (consistent : Consistent site setup newest state) {key : String}
    {entry : Entry} (found : state.lookup key = some entry) : ∃ value, newest key = some value ∧
      Leads (· = .sumOverflow) (TieredCache.get setup key) state fun answer _ =>
        answer = if entry.isExpired (setup.clock state.readings) then none else some value := by
  obtain ⟨worlds, -, agrees⟩ := id consistent
  obtain ⟨value, new, -⟩ := agrees.sized key entry found
  refine ⟨value, new, (consistent.leads_get based key).imp ?_⟩
  rintro answer final - rfl
  rw [found, Option.bind_some, new]

end Runs

theorem Consistent.tallied (consistent : Consistent site setup newest state) : state.Tallied setup := by
  obtain ⟨worlds, -, agrees⟩ := consistent
  exact ⟨agrees.balanced.distinct, agrees.balanced.named, agrees.balanced.usage⟩

/-! ## Another cache over the same stores -/

section Reopening

open TieredCache CacheState

variable {next : CacheSetup Storage}

/-- The stores are closed and opened again, and a cache that asks them what they hold knows of all that was not in
memory. -/
theorem Consistent.reopened (consistent : Consistent site setup newest state)
    (words : ∀ tier, setup.tiers.capacity tier < Word.limit) (same : next.stores = stores settings)
    (tiers : setup.tiers = next.tiers) :
    ∃ closed opened after listed,
      (close settings).run state.world = .ok (.ok ()) closed ∧
      (openIn settings).run closed.files = .ok (.ok opened) after ∧
      (∀ tier, tier ≠ .memory → ((stores settings).get tier).entries.run state.world =
        .ok (.ok (listed tier)) state.world) ∧
      (Placement.ofListings Tier.all listed).Perm state.persisted ∧
      (CacheState.start next opened).Welcomes (Placement.ofListings Tier.all listed) ∧
      restore next (.start next opened) = .ok (Placement.ofListings Tier.all listed).length
        (takeAll next (.start next opened) (Placement.ofListings Tier.all listed)) ∧
      Consistent site next newest
        (takeAll next (.start next opened) (Placement.ofListings Tier.all listed)) := by
  obtain ⟨worlds, ⟨maps, stands, mirrored⟩, agrees⟩ := consistent
  obtain ⟨closed, closing, stays, filed⟩ := stands.closed
  obtain ⟨opened, after, opening, again⟩ := stays.reopened filed
  have sound := IsSound.restarted agrees.sound
  let listed (tier : Tier) : List (String × Nat) := listing ((maps.set .memory []).get tier)
  have listed_of_cold {tier : Tier} (cold : tier ≠ .memory) : listed tier = listing (maps.get tier) :=
    congrArg listing (PerTier.get_set_other _ _ cold)
  have perm : (Placement.ofListings Tier.all listed).Perm (state.over worlds).persisted := by
    refine agrees.persisted_of_listings
      (fun tier => nodup_listing (distinct_of_sound mirrored.restarted sound tier)) fun tier key size => ?_
    by_cases hot : tier = .memory
    · subst hot
      exact iff_of_false List.not_mem_nil fun both => both.1 rfl
    · rw [listed_of_cold hot, mem_listing mirrored agrees.sound]
      exact (and_iff_right hot).symm
  have welcomes := agrees.balanced.welcomes words perm opened next
  have tells (tier : Tier) : (next.stores.get tier).entries.run opened = .ok (.ok (listed tier)) opened := by
    rw [same]
    exact again.run_entries tier
  refine ⟨closed, opened, after, listed, closing, opening, fun tier cold => ?_, perm, welcomes,
    restore_of_tells tells welcomes, worlds.set .memory [], ⟨_, ?_, mirrored.restarted⟩, ?_⟩
  · rw [stands.run_entries, listed_of_cold cold]
  · rw [world_takeAll]
    exact again
  · have tallied := (Tallied.start opened).takeAll welcomes
    have placed : ((takeAll next (.start next opened) (Placement.ofListings Tier.all listed)).over
        (worlds.set .memory [])).placements.Perm (state.over worlds).persisted :=
      (placements_takeAll welcomes).symm ▸ perm
    refine agrees.again ⟨tallied.distinct, tallied.named, tallied.usage⟩ tiers placed sound rfl
      fun tier cold => ?_
    exact congrArg MemoryStore.shelf (PerTier.get_set_other _ _ cold)

end Reopening

end Storage

end

end TierVault
