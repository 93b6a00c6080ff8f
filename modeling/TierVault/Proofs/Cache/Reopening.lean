import TierVault.Proofs.Cache.Mirrored
import TierVault.Proofs.Cache.Opening
import TierVault.Proofs.Store.PayloadNames

/-!
A cache that is closed, and opened again with what it left behind.

Whatever was not in memory has an entry again, of the same tier and size, and the same value can be read. Two
things are not kept: the lifetimes of entries, which begin anew with the default one, and the order in which the
cache used them, for which the order that their store knows takes its place.
-/

namespace TierVault

open TierVault.Action CacheState TieredCache

/-- The same settings, but what an earlier run left is kept. -/
def Config.keeping (config : Config) : Config :=
  { config with cache := { config.cache with clearOnOpen := false } }

namespace CacheCall

/-- The key and the value that are put, if something is. -/
def offered? : CacheCall → Option (String × Value)
  | put key value _ => some (key, value)
  | _ => none

/-- The keys that are put. -/
def keysOf (calls : List CacheCall) : List String := (calls.filterMap offered?).map Prod.fst

/-- More than one of the calls adds to any count: one, and all bytes that are ever written. -/
def stepOf (calls : List CacheCall) : Nat :=
  1 + sumOf ((calls.filterMap offered?).map fun pair => DiskStore.load pair.2)

/-- All values that are put may be held. -/
theorem allowed_of_offers {calls : List CacheCall}
    (storable : ∀ call ∈ calls, call.Offers fun value => value.WellFormed ∧ value.RegularTables) :
    ∀ call ∈ calls, call.Allowed (Storage.Permitted (keysOf calls) (stepOf calls)) := by
  intro call member
  cases call with
  | put key value lifetime? =>
      obtain ⟨wellFormed, regular⟩ := storable _ member
      have offered : (key, value) ∈ calls.filterMap offered? := List.mem_filterMap.mpr ⟨_, member, rfl⟩
      have part := size_le_sumOf_of_mem (fun pair : String × Value => DiskStore.load pair.2) offered
      exact ⟨List.mem_map_of_mem offered, Nat.le_add_left_of_le part, wellFormed, regular⟩
  | _ => trivial

end CacheCall

namespace TieredCache

variable {World Result : Type} {faults : Fault → Prop} {setup : CacheSetup World} {tier : Tier}
  {call : Store World → StoreAction World Result} {state : CacheState World}

theorem leads_onStore_iff {after : Except StoreError Result → CacheState World → Prop} :
    Leads faults (onStore setup tier call) state after ↔
      Leads faults (call (setup.stores.get tier)).run state.world
        fun answer world => after answer (state.inWorld world) := by
  unfold Leads onStore
  cases (call (setup.stores.get tier)).run state.world <;> rfl

end TieredCache

namespace OpenCache

variable {codec : FrameCodec} {config : Config} {clock later : Nat → Nat} {files after : FileSystem}
  {cache : OpenCache} {calls : List CacheCall} {history : List CacheEvent} {state : CacheState Storage}
  {settings : StorageSettings} {setup : CacheSetup Storage} {storage : Storage} {keys : List String}
  {step : Nat}

/-- What a cache that is opened is set up with. -/
abbrev setupOf (codec : FrameCodec) (config : Config) (clock : Nat → Nat) : CacheSetup Storage :=
  .ofConfig config (Storage.stores (.ofConfig codec config)) clock

theorem isOver_setupOf (codec : FrameCodec) (config : Config) (clock : Nat → Nat) :
    (setupOf codec config clock).IsOver (.ofConfig codec config) :=
  ⟨rfl, rfl, fun tier => by cases tier <;> rfl⟩

/-! ## Opening -/

/-- Stores without contents stay so when they are emptied. -/
theorem leads_clearStores_bare {site : Storage.Site settings keys step} (based : setup.IsOver settings)
    (stands : Storage.Stands site storage (.const [])) :
    Leads (· = .sumOverflow) (clearStores setup) (.start setup storage) fun _ final =>
      ∃ world, final = .start setup world ∧ Storage.Stands site world (.const []) := by
  refine leads_forM (fun _ (final : CacheState Storage) => ∃ world, final = .start setup world ∧
    Storage.Stands site world (.const [])) ?_ ⟨storage, rfl, stands⟩
  rintro tier - _ ⟨world, rfl, stands⟩
  have may : DiskStore.Permits keys step .clear := trivial
  simp only [leads_bind, leads_pure]
  refine leads_onStore_iff.mpr ?_
  rw [based.stores]
  refine (Storage.leads_call stands tier may).imp ?_
  rintro answer final - ⟨-, emptied⟩
  have bare : (PerTier.const ([] : RecentMap)).set tier [] = .const [] := by
    cases tier <;> rfl
  exact ⟨final, rfl, bare ▸ emptied⟩

/-- Over stores without contents, a cache begins with no entries, whether it empties them or not. -/
theorem start_of_openIn {site : Storage.Site (.ofConfig codec config) keys step}
    (opened : (openIn codec config clock).run files = .ok (.ok cache) after)
    (stored : ∃ after, (Storage.openIn (.ofConfig codec config)).run files = .ok (.ok storage) after)
    (stands : Storage.Stands site storage (.const [])) :
    cache.storage = .ofConfig codec config ∧ cache.setup = setupOf codec config clock ∧
      ∃ world, cache.state = .start cache.setup world ∧ Storage.Stands site world (.const []) := by
  obtain ⟨settings, setup, -, own, middle, ended, first⟩ := ended_of_openIn opened
  obtain ⟨_, stored⟩ := stored
  cases ended.symm.trans stored
  have based : cache.setup.IsOver (.ofConfig codec config) := setup ▸ isOver_setupOf codec config clock
  refine ⟨settings, setup, ?_⟩
  split at first
  · exact (leads_clearStores_bare based stands).of_ok first
  · obtain ⟨count, restored⟩ := first
    let listed : Tier → List (String × Nat) := fun _ => []
    have tells (tier : Tier) :
        (cache.setup.stores.get tier).entries.run storage = .ok (.ok (listed tier)) storage := by
      rw [based.stores, stands.run_entries, PerTier.get_const]
      rfl
    have welcomes : (CacheState.start cache.setup storage).Welcomes (Placement.ofListings Tier.all listed) :=
      ⟨List.nodup_nil, nofun, fun tier => by cases tier <;> exact Nat.two_pow_pos 64⟩
    have ended := restore_of_tells tells welcomes
    obtain ⟨-, begun⟩ := EStateM.Result.ok.inj (restored.symm.trans ended)
    exact ⟨storage, begun, stands⟩

/-- A cache that keeps what it finds opens its stores and asks them what they hold. -/
theorem openIn_of_restore {count : Nat} (keeps : config.cache.clearOnOpen = false)
    (opening : (Storage.openIn (.ofConfig codec config)).run files = .ok (.ok storage) after)
    (restored : restore (setupOf codec config clock) (.start (setupOf codec config clock) storage) =
      .ok count state) :
    (openIn codec config clock).run files =
      .ok (.ok ⟨.ofConfig codec config, setupOf codec config clock, state⟩) state.world.files := by
  have ran : run restore
      ⟨.ofConfig codec config, setupOf codec config clock, .start (setupOf codec config clock) storage⟩ =
      .ok count ⟨.ofConfig codec config, setupOf codec config clock, state⟩ := by
    unfold run
    simp only [restored]
  refine (StoreAction.run_bind_of_ok opening).trans ?_
  unfold setupOf at ran
  simp only [keeps, Bool.false_eq_true, if_false, Bind.bind, EStateM.bind, ran]
  rfl

theorem close_of_run {closed : Storage} (settings : cache.storage = .ofConfig codec config)
    (closing : (Storage.close (.ofConfig codec config)).run state.world = .ok (.ok ()) closed) :
    close { cache with state } = closed.files := by
  have ended : Storage.close cache.storage state.world = .ok (.ok ()) closed := settings ▸ closing
  unfold close
  simp only [ended]

/-! ## A run from the beginning -/

/-- A cache that was opened over stores without contents, and a run of calls on it. -/
structure FirstRun (codec : FrameCodec) (config : Config) (clock : Nat → Nat) (calls : List CacheCall)
    (cache : OpenCache) (history : List CacheEvent) (state : CacheState Storage) : Prop where
  opened : ∃ files storage after, (openIn codec config clock).run files = .ok (.ok cache) after ∧
    Storage.Fresh (.ofConfig codec config) files storage ∧ storage.files.seconds < Word.limit
  level : Columnar.isLevel config.compression.level = true
  words : ∀ tier, config.tiers.capacity tier < Word.limit
  /-- All values that are put are those of a running program, with regular tables. -/
  storable : ∀ call ∈ calls, call.Offers fun value => value.WellFormed ∧ value.RegularTables
  /-- No two keys that are put have one digest, by which their files are named. -/
  apart : ∀ left ∈ CacheCall.keysOf calls, ∀ right ∈ CacheCall.keysOf calls,
    Sha256.digest (Utf8.encode left) = Sha256.digest (Utf8.encode right) → left = right
  ended : runAll cache.setup calls cache.state = .ok history state

/-- After the run, the cache knows what its stores hold. -/
theorem FirstRun.consistent (run : FirstRun codec config clock calls cache history state) :
    cache.storage = .ofConfig codec config ∧ cache.setup = setupOf codec config clock ∧
      ∃ site : Storage.Site (.ofConfig codec config) (CacheCall.keysOf calls) (CacheCall.stepOf calls),
        Storage.Consistent site (setupOf codec config clock) (latest · history) state := by
  obtain ⟨files, storage, after, opened, fresh, early⟩ := run.opened
  have apart : ∀ left ∈ CacheCall.keysOf calls, ∀ right ∈ CacheCall.keysOf calls,
      DiskStore.payloadName left = DiskStore.payloadName right → left = right :=
    fun left first right second same =>
      run.apart left first right second (DiskStore.digest_eq_of_payloadName_eq same)
  have positive : 1 ≤ CacheCall.stepOf calls := Nat.le_add_right 1 _
  obtain ⟨site, stands⟩ := fresh.stands ⟨rfl, rfl⟩ ⟨run.level, run.level⟩ apart positive early
  obtain ⟨settings, setup, world, begun, stands⟩ := start_of_openIn opened fresh.opened stands
  have ended := run.ended
  rw [begun, setup] at ended
  exact ⟨settings, setup, site, Storage.consistent_of_runAll (isOver_setupOf codec config clock) stands
    (CacheCall.allowed_of_offers run.storable) ended⟩

/-! ## The end, and another beginning -/

/-- The cache is closed, and the one that is opened then has entries for what the stores outside memory listed. -/
theorem FirstRun.reopened (run : FirstRun codec config clock calls cache history state)
    (later : Nat → Nat) : ∃ world after listed,
      let next := setupOf codec config.keeping later
      let final := takeAll next (.start next world) (Placement.ofListings Tier.all listed)
      (openIn codec config.keeping later).run (close { cache with state }) =
          .ok (.ok ⟨.ofConfig codec config, next, final⟩) after ∧
        (∀ tier, tier ≠ .memory → (cache.setup.stores.get tier).entries.run state.world =
          .ok (.ok (listed tier)) state.world) ∧
        (Placement.ofListings Tier.all listed).Perm state.persisted ∧
        (CacheState.start next world).Welcomes (Placement.ofListings Tier.all listed) ∧
        ∃ site : Storage.Site (.ofConfig codec config) (CacheCall.keysOf calls) (CacheCall.stepOf calls),
          Storage.Consistent site cache.setup (latest · history) state ∧
            Storage.Consistent site next (latest · history) final := by
  obtain ⟨settings, setup, site, consistent⟩ := run.consistent
  let next : CacheSetup Storage := setupOf codec config.keeping later
  obtain ⟨closed, opened, after, listed, closing, opening, tells, perm, welcomes, restored, again⟩ :=
    consistent.reopened run.words (rfl : next.stores = _) rfl
  have opens := openIn_of_restore (rfl : config.keeping.cache.clearOnOpen = false) opening restored
  rw [← close_of_run settings closing] at opens
  rw [setup]
  exact ⟨opened, _, listed, opens, tells, perm, welcomes, site, consistent, again⟩

/-! ## A run in which a value moves -/

/-- Small values begin in memory, which holds one of them, and others in the database. -/
def shifting : Config where
  cache := { directory := "", clearOnOpen := false }
  tiers := { budgets := ⟨50, 100, 1000, 1000⟩, memoryLimit := 43 }

/-- The last value takes the place of the first, which goes to the database. -/
def shifts : List CacheCall :=
  [.put "y" (zeros 30) none, .put "x" (zeros 40) none, .put "z" (zeros 30) none]

/-- The files after the database was opened over nothing, and then the store of columns, and the one of frames. -/
def filesOfDatabase : FileSystem := (FileSystem.start []).place ["cache.db"] (.database [])

def filesOfColumns : FileSystem := filesOfDatabase.counted.place ["parquet"] .directory

def filesOfFrames : FileSystem := filesOfColumns.counted.place ["compressed"] .directory

theorem fresh_shifting : ∃ storage, Storage.Fresh (.ofConfig Zstandard.codec shifting) (.start []) storage ∧
    storage.files.seconds < Word.limit := by
  have connects : (DatabaseStore.openIn (StorageSettings.ofConfig Zstandard.codec shifting).database).run
      (.start []) = .ok (.ok ⟨some ["cache.db"], true, []⟩) filesOfDatabase := by rfl
  have shelves : (DiskStore.openIn (StorageSettings.ofConfig Zstandard.codec shifting).columnar).run
      filesOfDatabase = .ok (.ok ⟨.empty, false, default⟩) filesOfColumns := by rfl
  have packs : (DiskStore.openIn (StorageSettings.ofConfig Zstandard.codec shifting).compressed).run
      filesOfColumns = .ok (.ok ⟨.empty, false, default⟩) filesOfFrames := by rfl
  have opens : (Storage.openIn (.ofConfig Zstandard.codec shifting)).run (.start []) =
      .ok (.ok ⟨[], ⟨some ["cache.db"], true, []⟩, ⟨.empty, false, default⟩, ⟨.empty, false, default⟩,
        filesOfFrames⟩) filesOfFrames :=
    (StoreAction.run_bind_of_ok connects).trans <| (StoreAction.run_bind_of_ok shelves).trans <|
      (StoreAction.run_bind_of_ok packs).trans rfl
  have columnar : FileSystem.Vacant filesOfFrames "parquet" ["parquet"] :=
    ⟨⟨by rfl, by rfl⟩, fun _ => rfl, by decide, _, rfl⟩
  have compressed : FileSystem.Vacant filesOfFrames "compressed" ["compressed"] :=
    ⟨⟨by rfl, by rfl⟩, fun _ => rfl, by decide, _, rfl⟩
  exact ⟨_, ⟨⟨_, opens⟩, FileSystem.reaches_nil _, by rfl, rfl, rfl, ⟨_, columnar⟩, ⟨_, compressed⟩⟩,
    by decide⟩

/-- The entries of the tier are listed by age, and have these keys. -/
def ListedByAge {World : Type} (state : CacheState World) (tier : Tier) (keys : List String) : Prop :=
  Eviction.ByAge (Eviction.candidates state.entryList tier []) ∧
    (Eviction.candidates state.entryList tier []).map Candidate.key = keys

instance {World : Type} (state : CacheState World) (tier : Tier) (keys : List String) :
    Decidable (ListedByAge state tier keys) :=
  inferInstanceAs (Decidable (_ ∧ _))

/-- What the run comes to, and another opening after it. -/
theorem runs_shifting : ∃ cache opened history state reopened after,
    (openIn Zstandard.codec shifting id).run (.start []) = .ok (.ok cache) opened ∧
      runAll cache.setup shifts cache.state = .ok history state ∧
      (openIn Zstandard.codec shifting.keeping id).run (close { cache with state }) =
        .ok (.ok reopened) after ∧
      state.persisted.map Placement.key = ["y", "x"] ∧
      (Eviction.oldestFirst (Eviction.candidates state.entryList .sqlite [])).map Candidate.key =
        ["y", "x"] ∧
      (Eviction.oldestFirst (Eviction.candidates reopened.state.entryList .sqlite [])).map
        Candidate.key = ["x", "y"] := by
  -- The candidates are listed by age, so that nothing needs to be sorted.
  obtain ⟨cache, opened, opens, runs⟩ : ∃ cache opened,
      (openIn Zstandard.codec shifting id).run (.start []) = .ok (.ok cache) opened ∧
        Leads (fun _ => False) (runAll cache.setup shifts) cache.state fun _ state =>
          StoreAction.Succeeds (fun _ => False) (openIn Zstandard.codec shifting.keeping id)
            (close { cache with state }) fun reopened _ =>
              state.persisted.map Placement.key = ["y", "x"] ∧
                ListedByAge state .sqlite ["y", "x"] ∧ ListedByAge reopened.state .sqlite ["x", "y"] := by
    apply StoreAction.Succeeds.ends ?_ fun _ => id
    decide +kernel
  obtain ⟨history, state, ran, restarts⟩ := runs.ends fun _ => id
  obtain ⟨reopened, after, reopens, placed, ⟨aged, named⟩, renewed, renamed⟩ := restarts.ends fun _ => id
  refine ⟨cache, opened, history, state, reopened, after, opens, ran, reopens, placed, ?_, ?_⟩
  · rw [Eviction.oldestFirst_of_byAge aged, named]
  · rw [Eviction.oldestFirst_of_byAge renewed, renamed]

theorem firstRun_shifting : ∃ cache history state,
    FirstRun Zstandard.codec shifting id shifts cache history state ∧
      state.persisted.map Placement.key = ["y", "x"] := by
  obtain ⟨cache, after, history, state, -, -, opened, ended, -, placed, -⟩ := runs_shifting
  obtain ⟨storage, fresh, early⟩ := fresh_shifting
  refine ⟨cache, history, state, ⟨⟨_, storage, after, opened, fresh, early⟩, by decide, ?_, ?_, ?_, ended⟩,
    placed⟩
  · intro tier
    cases tier <;> decide
  · intro call member
    have small (count : Nat) (below : count < Word.limit) :
        (zeros count).WellFormed ∧ (zeros count).RegularTables :=
      ⟨⟨trivial, (List.length_replicate.trans_lt below :)⟩, trivial⟩
    simp only [shifts, List.mem_cons, List.not_mem_nil, or_false] at member
    rcases member with rfl | rfl | rfl
    · exact small 30 (by decide)
    · exact small 40 (by decide)
    · exact small 30 (by decide)
  · -- The first bytes of the digests tell them apart.
    have distinct : (["y", "x", "z"].map fun key => (Sha256.digest (Utf8.encode key)).head?).Nodup := by
      rw [List.map_cons, List.map_cons, List.map_cons, Sha256.digest_of_single (by decide),
        Sha256.digest_of_single (by decide), Sha256.digest_of_single (by decide)]
      decide +kernel
    exact fun left here right there same =>
      List.inj_on_of_nodup_map distinct here there (congrArg List.head? same)

/-! ## The entries after another opening -/

/-- Closed and opened again, the cache has the entries of all values that were not in memory, with the same tiers
and sizes, and no others; so it counts the same in each tier but memory. Each entry was made just now, and has the
default lifetime. A read of its key answers the latest value as long as the entry is not expired, as it did
before. -/
theorem reopens (run : FirstRun codec config clock calls cache history state) (later : Nat → Nat) :
    ∃ reopened after,
      (openIn codec config.keeping later).run (close { cache with state }) = .ok (.ok reopened) after ∧
      reopened.state.placements.Perm state.persisted ∧
      (∀ tier, reopened.state.usage.get tier =
        if tier = .memory then .ofCapacity (config.tiers.capacity tier) else state.usage.get tier) ∧
      ∀ key entry, state.lookup key = some entry → entry.tier ≠ .memory → ∃ value again reading,
        latest key history = some value ∧ reopened.state.lookup key = some again ∧
        again.placement = entry.placement ∧ again.lifetime? = cache.setup.defaultLifetime? ∧
        again.createdAt = later reading ∧ reading < reopened.state.readings ∧
        Leads (· = .sumOverflow) (get cache.setup key) state (fun answer _ =>
          answer = if entry.isExpired (clock state.readings) then none else some value) ∧
        Leads (· = .sumOverflow) (get reopened.setup key) reopened.state fun answer _ =>
          answer = if again.isExpired (later reopened.state.readings) then none else some value := by
  obtain ⟨world, after, listed, opens, -, perm, welcomes, site, consistent, again⟩ := run.reopened later
  have setup := run.consistent.2.1
  have based : cache.setup.IsOver (.ofConfig codec config) := setup ▸ isOver_setupOf codec config clock
  have tiers : cache.setup.tiers = config.keeping.tiers := congrArg CacheSetup.tiers setup
  have placed := (placements_takeAll welcomes).symm ▸ perm
  refine ⟨_, after, opens, placed, usage_of_persisted consistent.tallied again.tallied placed tiers, ?_⟩
  intro key entry found cold
  obtain ⟨made, there, same⟩ := exists_again consistent.tallied again.tallied placed found cold
  obtain ⟨reading, early, lifetime, created⟩ := of_lookup_takeAll welcomes there
  obtain ⟨value, new, reads⟩ := consistent.leads_get_of_lookup based found
  obtain ⟨_, renewed, rereads⟩ := again.leads_get_of_lookup (isOver_setupOf codec config.keeping later) there
  cases new.symm.trans renewed
  have clocks : cache.setup.clock = clock := congrArg CacheSetup.clock setup
  have lifetimes : cache.setup.defaultLifetime? = (setupOf codec config.keeping later).defaultLifetime? := by
    rw [setup]
    rfl
  rw [clocks] at reads
  exact ⟨value, made, reading, new, there, same, lifetime.trans lifetimes.symm, created, early, reads, rereads⟩

/-- One value was put into the database, and another one moved there. -/
theorem reopens_shifted : ∃ cache history state reopened after,
    FirstRun Zstandard.codec shifting id shifts cache history state ∧
      state.persisted.map Placement.key = ["y", "x"] ∧
      (openIn Zstandard.codec shifting.keeping id).run (close { cache with state }) =
        .ok (.ok reopened) after ∧
      reopened.state.placements.Perm state.persisted := by
  obtain ⟨cache, history, state, run, moved⟩ := firstRun_shifting
  obtain ⟨reopened, after, opens, placed, -⟩ := reopens run id
  exact ⟨cache, history, state, reopened, after, run, moved, opens, placed⟩

/-- Without a lifetime of their own, entries expire at once. -/
def expiring : Config where
  cache := { directory := "", clearOnOpen := false, defaultLifetimeSeconds? := some 0 }
  tiers := { memoryLimit := 0 }

/-- A value that was put for a second can be read. After another opening at the same moment it is expired. -/
theorem reopens_expired : ∃ cache opened history state value next reopened after last,
    (openIn Zstandard.codec expiring id).run (.start []) = .ok (.ok cache) opened ∧
      runAll cache.setup [.put "a" (zeros 48) (some 1000000000)] cache.state = .ok history state ∧
      (state.lookup "a").map Entry.tier = some .sqlite ∧
      get cache.setup "a" state = .ok (some value) next ∧
      (openIn Zstandard.codec expiring.keeping fun _ => 0).run (close { cache with state }) =
        .ok (.ok reopened) after ∧
      get reopened.setup "a" reopened.state = .ok none last := by
  obtain ⟨cache, opened, opens, runs⟩ : ∃ cache opened,
      (openIn Zstandard.codec expiring id).run (.start []) = .ok (.ok cache) opened ∧
        Leads (fun _ => False) (runAll cache.setup [.put "a" (zeros 48) (some 1000000000)]) cache.state
          fun _ state => (state.lookup "a").map Entry.tier = some .sqlite ∧
            Leads (fun _ => False) (get cache.setup "a") state (fun answer _ => answer.isSome = true) ∧
            StoreAction.Succeeds (fun _ => False) (openIn Zstandard.codec expiring.keeping fun _ => 0)
              (close { cache with state }) fun reopened _ =>
                Leads (fun _ => False) (get reopened.setup "a") reopened.state
                  fun answer _ => answer.isNone = true := by
    apply StoreAction.Succeeds.ends ?_ fun _ => id
    decide +kernel
  obtain ⟨history, state, ran, stored, reads, restarts⟩ := runs.ends fun _ => id
  obtain ⟨_, next, read, found⟩ := reads.ends fun _ => id
  obtain ⟨value, rfl⟩ := Option.isSome_iff_exists.mp found
  obtain ⟨reopened, after, reopens, rereads⟩ := restarts.ends fun _ => id
  obtain ⟨_, last, missed, nothing⟩ := rereads.ends fun _ => id
  cases Option.isNone_iff_eq_none.mp nothing
  exact ⟨cache, opened, history, state, value, next, reopened, after, last, opens, ran, stored, read, reopens,
    missed⟩

/-! ## The order after another opening -/

/-- After another opening, the evictor takes the entries of a tier in the order in which the store of the tier told
them before, the least recently used first. -/
theorem order_of_reopens (run : FirstRun codec config clock calls cache history state)
    (forward : ∀ first second, first ≤ second → later first ≤ later second) :
    ∃ reopened after, ∃ listed : Tier → List (String × Nat),
      (openIn codec config.keeping later).run (close { cache with state }) = .ok (.ok reopened) after ∧
      (∀ tier, tier ≠ .memory → (cache.setup.stores.get tier).entries.run state.world =
        .ok (.ok (listed tier)) state.world) ∧
      ∀ tier, tier ≠ .memory →
        (Eviction.oldestFirst (Eviction.candidates reopened.state.entryList tier [])).map
          (fun candidate => (candidate.key, candidate.size)) = listed tier := by
  obtain ⟨world, after, listed, opens, tells, -, welcomes, -⟩ := run.reopened later
  exact ⟨_, after, listed, opens, tells, fun tier _ => oldestFirst_takeAll forward welcomes rfl tier⟩

/-- In the database, the value that moved there is the one used last. -/
theorem order_of_reopens_shifted : ∃ cache history state reopened after,
    FirstRun Zstandard.codec shifting id shifts cache history state ∧
      (openIn Zstandard.codec shifting.keeping id).run (close { cache with state }) =
        .ok (.ok reopened) after ∧
      ∃ listed, (cache.setup.stores.sqlite).entries.run state.world = .ok (.ok listed) state.world ∧
        (Eviction.oldestFirst (Eviction.candidates reopened.state.entryList .sqlite [])).map
          (fun candidate => (candidate.key, candidate.size)) = listed := by
  obtain ⟨cache, history, state, run, -⟩ := firstRun_shifting
  obtain ⟨reopened, after, listed, opens, tells, order⟩ := order_of_reopens run fun _ _ => id
  exact ⟨cache, history, state, reopened, after, run, opens, _, tells .sqlite (by decide),
    order .sqlite (by decide)⟩

/-- The value that was put first and then moved was the first one to go. After another opening it is the last. -/
theorem order_changes : ∃ cache opened history state reopened after,
    (openIn Zstandard.codec shifting id).run (.start []) = .ok (.ok cache) opened ∧
      runAll cache.setup shifts cache.state = .ok history state ∧
      (openIn Zstandard.codec shifting.keeping id).run (close { cache with state }) =
        .ok (.ok reopened) after ∧
      (Eviction.oldestFirst (Eviction.candidates state.entryList .sqlite [])).map Candidate.key =
        ["y", "x"] ∧
      (Eviction.oldestFirst (Eviction.candidates reopened.state.entryList .sqlite [])).map
        Candidate.key = ["x", "y"] := by
  obtain ⟨cache, opened, history, state, reopened, after, opens, ran, reopens, -, before, later⟩ := runs_shifting
  exact ⟨cache, opened, history, state, reopened, after, opens, ran, reopens, before, later⟩

end OpenCache

end TierVault
