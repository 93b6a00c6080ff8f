import TierVault.Proofs.Cache.Steps
import TierVault.Proofs.Keyed

/-!
The books of a tiered cache: its entries, and what each tier counts of them.

The counts are kept by additions and subtractions alone. They tally if they are what a fresh count of the
entries would give, and enrolling, forgetting and relocating an entry keep it so. In a balanced state no tier
holds more than its capacity, either; a tier that holds more, as one may whose entries were found in its store,
does not come to hold more than that.
-/

namespace TierVault

variable {World : Type}

/-! ## What an entry weighs -/

namespace Entry

/-- One, if the entry is of the tier. -/
def countIn (tier : Tier) (entry : Entry) : Nat := if entry.tier = tier then 1 else 0

/-- The entry's size, if the entry is of the tier. -/
def bytesIn (tier : Tier) (entry : Entry) : Nat := if entry.tier = tier then entry.size else 0

variable {entry : Entry} {tier : Tier}

@[simp] theorem countIn_own : entry.countIn entry.tier = 1 := if_pos rfl

@[simp] theorem bytesIn_own : entry.bytesIn entry.tier = entry.size := if_pos rfl

@[simp] theorem countIn_other (different : entry.tier ≠ tier) : entry.countIn tier = 0 :=
  if_neg different

@[simp] theorem bytesIn_other (different : entry.tier ≠ tier) : entry.bytesIn tier = 0 :=
  if_neg different

@[simp] theorem tier_create (key : String) (size : Nat) (tier : Tier) (lifetime? : Option Nat)
    (tick now : Nat) : (create key size tier lifetime? tick now).tier = tier := rfl

@[simp] theorem size_create (key : String) (size : Nat) (tier : Tier) (lifetime? : Option Nat)
    (tick now : Nat) : (create key size tier lifetime? tick now).size = size := rfl

theorem bytesIn_create (key : String) (size : Nat) (tier place : Tier) (lifetime? : Option Nat)
    (tick now : Nat) : (create key size tier lifetime? tick now).bytesIn place =
      if tier = place then size else 0 := rfl

/-! ## Counting in and out -/

/-- The counts with the entry counted in. -/
def addTo (entry : Entry) (usage : PerTier TierUsage) : PerTier TierUsage :=
  usage.set entry.tier ((usage.get entry.tier).more entry.size)

/-- The counts with the entry counted out. -/
def takeFrom (entry : Entry) (usage : PerTier TierUsage) : PerTier TierUsage :=
  usage.set entry.tier ((usage.get entry.tier).less entry.size)

variable {usage : PerTier TierUsage}

theorem entries_addTo : ((entry.addTo usage).get tier).entries =
    (usage.get tier).entries + entry.countIn tier := by
  by_cases own : entry.tier = tier
  · subst own
    simp [addTo, TierUsage.more]
  · simp [addTo, own, Ne.symm own]

theorem bytes_addTo : ((entry.addTo usage).get tier).bytes =
    (usage.get tier).bytes + entry.bytesIn tier := by
  by_cases own : entry.tier = tier
  · subst own
    simp [addTo, TierUsage.more]
  · simp [addTo, own, Ne.symm own]

theorem capacity_addTo :
    ((entry.addTo usage).get tier).capacity = (usage.get tier).capacity := by
  by_cases own : entry.tier = tier
  · subst own
    simp [addTo, TierUsage.more]
  · simp [addTo, Ne.symm own]

theorem entries_takeFrom (tier : Tier) (covered : (usage.get entry.tier).Covers entry.size) :
    ((entry.takeFrom usage).get tier).entries + entry.countIn tier =
      (usage.get tier).entries := by
  by_cases own : entry.tier = tier
  · subst own
    simpa [takeFrom, TierUsage.less] using Nat.sub_add_cancel covered.1
  · simp [takeFrom, own, Ne.symm own]

theorem bytes_takeFrom (tier : Tier) (covered : (usage.get entry.tier).Covers entry.size) :
    ((entry.takeFrom usage).get tier).bytes + entry.bytesIn tier = (usage.get tier).bytes := by
  by_cases own : entry.tier = tier
  · subst own
    simpa [takeFrom, TierUsage.less] using Nat.sub_add_cancel covered.2
  · simp [takeFrom, own, Ne.symm own]

theorem capacity_takeFrom :
    ((entry.takeFrom usage).get tier).capacity = (usage.get tier).capacity := by
  by_cases own : entry.tier = tier
  · subst own
    simp [takeFrom, TierUsage.less]
  · simp [takeFrom, Ne.symm own]

end Entry

namespace CacheState

variable {setup : CacheSetup World} {state : CacheState World} {key : String} {entry : Entry}
  {tier target : Tier}

/-! ## Counting afresh -/

def entriesIn (state : CacheState World) (tier : Tier) : List Entry :=
  state.entryList.filter fun entry => entry.tier = tier

/-- What a count of the entries gives for a tier. -/
def tally (setup : CacheSetup World) (state : CacheState World) (tier : Tier) : TierUsage where
  entries := (state.entriesIn tier).length
  bytes := sumOf ((state.entriesIn tier).map Entry.size)
  capacity := setup.tiers.capacity tier

/-- The bytes of all entries. -/
def total (state : CacheState World) : Nat := sumOf (state.entryList.map Entry.size)

theorem entries_tally : (state.tally setup tier).entries =
    Keyed.weigh (Entry.countIn tier) state.entries := by
  unfold tally entriesIn entryList
  induction state.entries with
  | nil => rfl
  | cons head rest induction =>
      by_cases own : head.2.tier = tier
      · simp_all [Entry.countIn, Keyed.weigh, Nat.add_comm]
      · simp_all [Entry.countIn, Keyed.weigh]

theorem bytes_tally : (state.tally setup tier).bytes =
    Keyed.weigh (Entry.bytesIn tier) state.entries := by
  unfold tally entriesIn entryList
  induction state.entries with
  | nil => rfl
  | cons head rest induction =>
      by_cases own : head.2.tier = tier
      · simp_all [Entry.bytesIn, Keyed.weigh]
      · simp_all [Entry.bytesIn, Keyed.weigh]

theorem total_eq : state.total = Keyed.weigh Entry.size state.entries := by
  simp [total, entryList, Keyed.weigh, Function.comp_def]

variable (state) in
@[simp] theorem usage_enroll : (state.enroll key entry).usage = entry.addTo state.usage := rfl

variable (state) in
@[simp] theorem usage_forget : (state.forget key entry).usage = entry.takeFrom state.usage := rfl

variable (state) in
@[simp] theorem usage_relocate : (state.relocate key entry target).usage =
    { entry with tier := target }.addTo (entry.takeFrom state.usage) := rfl

@[simp] theorem lookup_start (world : World) :
    (CacheState.start setup world).lookup key = none := rfl

theorem lookup_enroll (asked : String) : (state.enroll key entry).lookup asked =
    if asked = key then some entry else state.lookup asked := by
  split
  · rename_i same
    exact same ▸ Keyed.find?_put_same asked entry state.entries
  · rename_i different
    exact Keyed.find?_put_other entry state.entries different

theorem lookup_forget (asked : String) : (state.forget key entry).lookup asked =
    if asked = key then none else state.lookup asked := by
  split
  · rename_i same
    exact same ▸ Keyed.find?_remove_same asked state.entries
  · rename_i different
    exact Keyed.find?_remove_other state.entries different

theorem lookup_relocate (asked : String) : (state.relocate key entry target).lookup asked =
    if asked = key then some { entry with tier := target } else state.lookup asked := by
  split
  · rename_i same
    exact same ▸ Keyed.find?_put_same asked _ state.entries
  · rename_i different
    exact Keyed.find?_put_other _ state.entries different

/-! ## Counts that tally -/

structure Tallied (setup : CacheSetup World) (state : CacheState World) : Prop where
  distinct : Keyed.Distinct state.entries
  /-- Every entry knows its key. -/
  named : ∀ key entry, state.lookup key = some entry → entry.key = key
  usage : ∀ tier, state.usage.get tier = state.tally setup tier

namespace Tallied

theorem entries (tallied : Tallied setup state) (tier : Tier) : (state.usage.get tier).entries =
    Keyed.weigh (Entry.countIn tier) state.entries := by
  rw [tallied.usage, entries_tally]

theorem bytes (tallied : Tallied setup state) (tier : Tier) : (state.usage.get tier).bytes =
    Keyed.weigh (Entry.bytesIn tier) state.entries := by
  rw [tallied.usage, bytes_tally]

theorem capacity (tallied : Tallied setup state) (tier : Tier) :
    (state.usage.get tier).capacity = setup.tiers.capacity tier := by
  rw [tallied.usage]
  rfl

/-- Only the entries and the counts matter. -/
theorem of_weights {next : CacheState World} (distinct : Keyed.Distinct next.entries)
    (named : ∀ key entry, next.lookup key = some entry → entry.key = key)
    (entries : ∀ tier, (next.usage.get tier).entries =
      Keyed.weigh (Entry.countIn tier) next.entries)
    (bytes : ∀ tier, (next.usage.get tier).bytes = Keyed.weigh (Entry.bytesIn tier) next.entries)
    (capacity : ∀ tier, (next.usage.get tier).capacity = setup.tiers.capacity tier) :
    Tallied setup next where
  distinct := distinct
  named := named
  usage tier := by
    have count : (next.usage.get tier).entries = (next.tally setup tier).entries := by
      rw [entries, entries_tally]
    have sum : (next.usage.get tier).bytes = (next.tally setup tier).bytes := by
      rw [bytes, bytes_tally]
    cases found : next.usage.get tier with
    | mk held size limit =>
        rw [found] at count sum
        have bound := capacity tier
        rw [found] at bound
        cases count
        cases sum
        cases bound
        rfl

theorem congr {next : CacheState World} (tallied : Tallied setup state)
    (entries : next.entries = state.entries) (usage : next.usage = state.usage) :
    Tallied setup next := by
  refine of_weights ?_ ?_ ?_ ?_ ?_
  · exact entries ▸ tallied.distinct
  · intro key entry found
    exact tallied.named key entry (by simpa [lookup, entries] using found)
  · exact fun tier => by rw [usage, entries, tallied.entries]
  · exact fun tier => by rw [usage, entries, tallied.bytes]
  · exact fun tier => by rw [usage, tallied.capacity]

theorem inWorld (tallied : Tallied setup state) (world : World) :
    Tallied setup (state.inWorld world) := tallied.congr rfl rfl

theorem counted (tallied : Tallied setup state) (change : Counters → Counters) :
    Tallied setup (state.counted change) := tallied.congr rfl rfl

theorem recorded (tallied : Tallied setup state) (operation outcome : String) :
    Tallied setup (state.recorded operation outcome) := tallied.congr rfl rfl

theorem timed (tallied : Tallied setup state) : Tallied setup state.timed :=
  tallied.congr rfl rfl

theorem ticked (tallied : Tallied setup state) : Tallied setup state.ticked :=
  tallied.congr rfl rfl

/-- Whatever has an entry can be counted out. -/
theorem covers (tallied : Tallied setup state) (found : state.lookup key = some entry) :
    (state.usage.get entry.tier).Covers entry.size := by
  have count := Keyed.le_weigh (Entry.countIn entry.tier) found
  have size := Keyed.le_weigh (Entry.bytesIn entry.tier) found
  rw [← tallied.entries, Entry.countIn_own] at count
  rw [← tallied.bytes, Entry.bytesIn_own] at size
  exact ⟨count, size⟩

theorem keys_eq (tallied : Tallied setup state) :
    state.entryList.map Entry.key = Keyed.keys state.entries := by
  unfold entryList Keyed.keys
  rw [List.map_map]
  refine List.map_congr_left fun pair member => ?_
  exact tallied.named pair.1 pair.2 (tallied.distinct.find?_of_mem member)

theorem nodup_entryList (tallied : Tallied setup state) :
    (state.entryList.map Entry.key).Nodup := by
  rw [tallied.keys_eq]
  exact tallied.distinct

theorem lookup_of_mem (tallied : Tallied setup state) (member : entry ∈ state.entryList) :
    state.lookup entry.key = some entry := by
  obtain ⟨⟨key, held⟩, there, rfl⟩ := List.mem_map.mp member
  have found := tallied.distinct.find?_of_mem there
  rw [tallied.named key held found]
  exact found

/-! ## Changes -/

theorem start (world : World) : Tallied setup (.start setup world) := by
  refine of_weights List.nodup_nil ?_ ?_ ?_ ?_
  · intro key entry found
    cases found
  all_goals
    intro tier
    simp [CacheState.start, TierUsage.ofCapacity]

theorem enroll (tallied : Tallied setup state) (named : entry.key = key)
    (fresh : state.lookup key = none) : Tallied setup (state.enroll key entry) := by
  refine of_weights ?_ ?_ ?_ ?_ ?_
  · exact tallied.distinct.put key entry
  · intro other held found
    by_cases same : other = key
    · subst same
      cases (Keyed.find?_put_same other entry state.entries).symm.trans found
      exact named
    · exact tallied.named other held ((Keyed.find?_put_other entry _ same).symm.trans found)
  · intro tier
    rw [usage_enroll, Entry.entries_addTo, tallied.entries]
    exact (Keyed.weigh_put_of_find?_eq_none _ _ fresh).symm
  · intro tier
    rw [usage_enroll, Entry.bytes_addTo, tallied.bytes]
    exact (Keyed.weigh_put_of_find?_eq_none _ _ fresh).symm
  · intro tier
    rw [usage_enroll, Entry.capacity_addTo, tallied.capacity]

theorem forget (tallied : Tallied setup state) (found : state.lookup key = some entry) :
    Tallied setup (state.forget key entry) := by
  have covered := tallied.covers found
  refine of_weights ?_ ?_ ?_ ?_ ?_
  · exact tallied.distinct.remove key
  · intro other held kept
    by_cases same : other = key
    · subst same
      cases (Keyed.find?_remove_same other state.entries).symm.trans kept
    · exact tallied.named other held ((Keyed.find?_remove_other _ same).symm.trans kept)
  · intro tier
    have out := Entry.entries_takeFrom tier covered
    have removed := Keyed.weigh_remove (Entry.countIn tier) tallied.distinct found
    rw [tallied.entries, ← removed] at out
    exact Nat.add_right_cancel out
  · intro tier
    have out := Entry.bytes_takeFrom tier covered
    have removed := Keyed.weigh_remove (Entry.bytesIn tier) tallied.distinct found
    rw [tallied.bytes, ← removed] at out
    exact Nat.add_right_cancel out
  · intro tier
    rw [usage_forget, Entry.capacity_takeFrom, tallied.capacity]

theorem relocate (tallied : Tallied setup state) (found : state.lookup key = some entry) :
    Tallied setup (state.relocate key entry target) := by
  have covered := tallied.covers found
  refine of_weights ?_ ?_ ?_ ?_ ?_
  · exact tallied.distinct.put key _
  · intro other held kept
    by_cases same : other = key
    · subst same
      cases (Keyed.find?_put_same other _ state.entries).symm.trans kept
      exact tallied.named other entry found
    · exact tallied.named other held ((Keyed.find?_put_other _ _ same).symm.trans kept)
  · intro tier
    have out := Entry.entries_takeFrom tier covered
    have put := Keyed.weigh_put_of_find? (Entry.countIn tier) { entry with tier := target } found
    rw [tallied.entries] at out
    rw [usage_relocate, Entry.entries_addTo]
    change _ = Keyed.weigh _ (Keyed.put key _ state.entries)
    omega
  · intro tier
    have out := Entry.bytes_takeFrom tier covered
    have put := Keyed.weigh_put_of_find? (Entry.bytesIn tier) { entry with tier := target } found
    rw [tallied.bytes] at out
    rw [usage_relocate, Entry.bytes_addTo]
    change _ = Keyed.weigh _ (Keyed.put key _ state.entries)
    omega
  · intro tier
    rw [usage_relocate, Entry.capacity_addTo, Entry.capacity_takeFrom, tallied.capacity]

/-- Another entry may stand under a key, of the same size and tier. -/
theorem rewrite {next : CacheState World} (tallied : Tallied setup state)
    (found : state.lookup key = some entry) (other : Entry)
    (named : other.key = entry.key) (size : other.size = entry.size) (tier : other.tier = entry.tier)
    (entries : next.entries = Keyed.put key other state.entries)
    (usage : next.usage = state.usage) : Tallied setup next := by
  have sameCount (place : Tier) : other.countIn place = entry.countIn place := by
    simp only [Entry.countIn, tier]
  have sameBytes (place : Tier) : other.bytesIn place = entry.bytesIn place := by
    simp only [Entry.bytesIn, tier, size]
  refine of_weights ?_ ?_ ?_ ?_ ?_
  · exact entries ▸ tallied.distinct.put key other
  · intro asked held kept
    unfold lookup at kept
    rw [entries] at kept
    by_cases same : asked = key
    · subst same
      rw [Keyed.find?_put_same] at kept
      cases kept
      rw [named, tallied.named asked entry found]
    · rw [Keyed.find?_put_other _ _ same] at kept
      exact tallied.named asked held kept
  · intro place
    have put := Keyed.weigh_put_of_find? (Entry.countIn place) other found
    rw [usage, entries, tallied.entries]
    have same := sameCount place
    omega
  · intro place
    have put := Keyed.weigh_put_of_find? (Entry.bytesIn place) other found
    rw [usage, entries, tallied.bytes]
    have same := sameBytes place
    omega
  · exact fun place => by rw [usage, tallied.capacity]

/-! ## Sums over all tiers -/

theorem bytes_le_total (tallied : Tallied setup state) (tier : Tier) :
    (state.usage.get tier).bytes ≤ state.total := by
  rw [tallied.bytes, total_eq]
  exact Keyed.weigh_mono fun entry => by
    unfold Entry.bytesIn
    split <;> omega

/-- An entry of one tier finds its bytes beside those of another. -/
theorem bytes_add_le_total (tallied : Tallied setup state) (found : state.lookup key = some entry)
    (different : entry.tier ≠ target) :
    (state.usage.get target).bytes + entry.size ≤ state.total := by
  have own := Keyed.le_weigh (Entry.bytesIn entry.tier) found
  have both : Keyed.weigh (Entry.bytesIn target) state.entries +
      Keyed.weigh (Entry.bytesIn entry.tier) state.entries ≤ Keyed.weigh Entry.size state.entries := by
    rw [← Keyed.weigh_add]
    refine Keyed.weigh_mono fun other => ?_
    unfold Entry.bytesIn
    by_cases same : other.tier = target
    · simp [same, different.symm]
    · simp only [same, if_false]
      split <;> omega
  rw [Entry.bytesIn_own] at own
  rw [tallied.bytes, total_eq]
  omega

theorem total_eq_sum (tallied : Tallied setup state) :
    state.total = sumOf (Tier.all.map fun tier => (state.usage.get tier).bytes) := by
  rw [total_eq]
  simp only [Tier.all, List.map_cons, List.map_nil, sumOf_cons, sumOf_nil, tallied.bytes]
  induction state.entries with
  | nil => rfl
  | cons head rest induction =>
      obtain ⟨key, entry⟩ := head
      simp only [Keyed.weigh_cons]
      cases place : entry.tier <;> simp [Entry.bytesIn, place] <;> omega

theorem length_eq (tallied : Tallied setup state) : state.entries.length =
    sumOf (Tier.all.map fun tier => (state.usage.get tier).entries) := by
  simp only [Tier.all, List.map_cons, List.map_nil, sumOf_cons, sumOf_nil, tallied.entries]
  induction state.entries with
  | nil => rfl
  | cons head rest induction =>
      obtain ⟨key, entry⟩ := head
      simp only [List.length_cons, Keyed.weigh_cons]
      cases place : entry.tier <;> simp [Entry.countIn, place] <;> omega

end Tallied

/-! ## The balance -/

structure Balanced (setup : CacheSetup World) (state : CacheState World) : Prop
    extends Tallied setup state where
  within : ∀ tier, (state.usage.get tier).bytes ≤ setup.tiers.capacity tier

/-- The counts tally, and a tier that holds more than its capacity held as much before. -/
structure Restrained (setup : CacheSetup World) (state next : CacheState World) : Prop where
  tallied : next.Tallied setup
  bytes_le : ∀ tier, (next.usage.get tier).bytes ≤
    max (setup.tiers.capacity tier) (state.usage.get tier).bytes

namespace Restrained

variable {middle next : CacheState World}

theorem refl (tallied : Tallied setup state) : Restrained setup state state :=
  ⟨tallied, fun _ => Nat.le_max_right _ _⟩

theorem trans (first : Restrained setup state middle) (second : Restrained setup middle next) :
    Restrained setup state next := by
  refine ⟨second.tallied, fun tier => ?_⟩
  have before := first.bytes_le tier
  have after := second.bytes_le tier
  omega

theorem balanced (restrained : Restrained setup state next) (start : Balanced setup state) :
    Balanced setup next := by
  refine ⟨restrained.tallied, fun tier => ?_⟩
  have bound := restrained.bytes_le tier
  have within := start.within tier
  omega

/-- Only the entries and the counts matter. -/
theorem congr {final : CacheState World} (restrained : Restrained setup state next)
    (entries : final.entries = next.entries) (usage : final.usage = next.usage) :
    Restrained setup state final :=
  ⟨restrained.tallied.congr entries usage, fun tier => usage ▸ restrained.bytes_le tier⟩

theorem inWorld (restrained : Restrained setup state next) (world : World) :
    Restrained setup state (next.inWorld world) := restrained.congr rfl rfl

theorem counted (restrained : Restrained setup state next) (change : Counters → Counters) :
    Restrained setup state (next.counted change) := restrained.congr rfl rfl

theorem recorded (restrained : Restrained setup state next) (operation outcome : String) :
    Restrained setup state (next.recorded operation outcome) := restrained.congr rfl rfl

theorem timed (restrained : Restrained setup state next) : Restrained setup state next.timed :=
  restrained.congr rfl rfl

end Restrained

namespace Tallied

/-- Where no tier holds more than before, none holds more than it may. -/
theorem restrained {next : CacheState World} (tallied : Tallied setup next)
    (less : ∀ tier, (next.usage.get tier).bytes ≤ (state.usage.get tier).bytes) :
    Restrained setup state next :=
  ⟨tallied, fun tier => Nat.le_trans (less tier) (Nat.le_max_right _ _)⟩

theorem restrained_forget (tallied : Tallied setup state) (found : state.lookup key = some entry) :
    Restrained setup state (state.forget key entry) := by
  refine (tallied.forget found).restrained fun tier => ?_
  have out := Entry.bytes_takeFrom tier (tallied.covers found)
  rw [usage_forget]
  omega

theorem restrained_relocate (tallied : Tallied setup state) (found : state.lookup key = some entry)
    (different : entry.tier ≠ target)
    (fits : (state.usage.get target).bytes + entry.size ≤
      max (setup.tiers.capacity target) (state.usage.get target).bytes) :
    Restrained setup state (state.relocate key entry target) := by
  refine ⟨tallied.relocate found, fun tier => ?_⟩
  have out := Entry.bytes_takeFrom tier (tallied.covers found)
  rw [usage_relocate, Entry.bytes_addTo]
  by_cases own : target = tier
  · subst own
    rw [Entry.bytesIn_other different, Nat.add_zero] at out
    rw [out]
    simpa [Entry.bytesIn] using fits
  · rw [Entry.bytesIn_other own]
    omega

end Tallied

namespace Balanced

theorem congr {next : CacheState World} (balanced : Balanced setup state)
    (entries : next.entries = state.entries) (usage : next.usage = state.usage) :
    Balanced setup next :=
  ((Restrained.refl balanced.toTallied).congr entries usage).balanced balanced

theorem inWorld (balanced : Balanced setup state) (world : World) :
    Balanced setup (state.inWorld world) := balanced.congr rfl rfl

theorem counted (balanced : Balanced setup state) (change : Counters → Counters) :
    Balanced setup (state.counted change) := balanced.congr rfl rfl

theorem recorded (balanced : Balanced setup state) (operation outcome : String) :
    Balanced setup (state.recorded operation outcome) := balanced.congr rfl rfl

theorem timed (balanced : Balanced setup state) : Balanced setup state.timed :=
  balanced.congr rfl rfl

theorem start (world : World) : Balanced setup (.start setup world) := by
  refine ⟨.start world, fun tier => ?_⟩
  simp [CacheState.start, TierUsage.ofCapacity]

theorem forget (balanced : Balanced setup state) (found : state.lookup key = some entry) :
    Balanced setup (state.forget key entry) :=
  (balanced.restrained_forget found).balanced balanced

end Balanced

theorem total_rewrite (found : state.lookup key = some entry) (other : Entry)
    (size : other.size = entry.size) :
    { state with entries := Keyed.put key other state.entries }.total = state.total := by
  have put := Keyed.weigh_put_of_find? Entry.size other found
  rw [total_eq, total_eq]
  rw [size] at put
  exact Nat.add_right_cancel put

section Fields

variable (state : CacheState World)

@[simp] theorem total_inWorld (world : World) : (state.inWorld world).total = state.total := rfl

@[simp] theorem total_counted (change : Counters → Counters) :
    (state.counted change).total = state.total := rfl

@[simp] theorem total_recorded (operation outcome : String) :
    (state.recorded operation outcome).total = state.total := rfl

@[simp] theorem total_timed : state.timed.total = state.total := rfl

@[simp] theorem total_ticked : state.ticked.total = state.total := rfl

end Fields

theorem total_enroll (fresh : state.lookup key = none) :
    (state.enroll key entry).total = state.total + entry.size := by
  rw [total_eq, total_eq]
  exact Keyed.weigh_put_of_find?_eq_none Entry.size entry fresh

theorem total_forget (tallied : Tallied setup state) (found : state.lookup key = some entry) :
    (state.forget key entry).total + entry.size = state.total := by
  rw [total_eq, total_eq]
  exact Keyed.weigh_remove Entry.size tallied.distinct found

theorem total_relocate (found : state.lookup key = some entry) :
    (state.relocate key entry target).total = state.total := by
  have put := Keyed.weigh_put_of_find? Entry.size { entry with tier := target } found
  rw [total_eq, total_eq]
  exact Nat.add_right_cancel put

end CacheState

end TierVault
