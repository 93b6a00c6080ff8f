import TierVault.Proofs.Cache.Leftovers

/-!
A cache that is built anew over the stores of another one.

It asks the stores, from hot to cold, what they hold, and makes an entry of the first payload of each key. So a
key then has its entry in the hottest tier that holds a payload of it, and the other payloads are asked to go.
-/

namespace TierVault

variable {World : Type}

/-- The payload is the one in the hottest tier that holds one of the key. -/
structure Foremost (held : Holding World) (world : World) (key : String) (tier : Tier) (value : Value) :
    Prop where
  there : held world tier key value
  first : ∀ place found, held world place key found → tier.level ≤ place.level

namespace CacheState

/-- Those that are pending, but for some keys of the tier. -/
def Without (pending : Tier → String → Prop) (tier : Tier) (keys : List String) : Tier → String → Prop :=
  fun place asked => pending place asked ∧ ¬(place = tier ∧ asked ∈ keys)

theorem without_nil (pending : Tier → String → Prop) (tier : Tier) : Without pending tier [] = pending := by
  funext place asked
  simp [Without]

theorem without_cons (pending : Tier → String → Prop) (tier : Tier) (key : String) (keys : List String) :
    Without (Without pending tier [key]) tier keys = Without pending tier (key :: keys) := by
  funext place asked
  simp only [Without, List.mem_cons, eq_iff_iff]
  grind

/-- The payloads that were there before are adopted, but for those that are pending. -/
structure Surveying (setup : CacheSetup World) (sound : World → Prop) (held : Holding World) (before : World)
    (pending : Tier → String → Prop) (state : CacheState World) : Prop where
  tallied : state.Tallied setup
  sound : sound state.world
  loses : held.Loses before state.world
  /-- Each entry is of a payload that is there. -/
  stocked : ∀ {key entry}, state.lookup key = some entry → ¬pending entry.tier key ∧
    entry.lifetime? = setup.defaultLifetime? ∧ ∃ value, held state.world entry.tier key value
  /-- A payload is pending and untouched, or its key has an entry in a tier that is no colder. -/
  known : ∀ {tier key value}, held before tier key value →
    (pending tier key ∧ held state.world tier key value) ∨
      ∃ entry, state.lookup key = some entry ∧ entry.tier.level ≤ tier.level

variable {setup : CacheSetup World} {faults : Fault → Prop} {sound : World → Prop} {held : Holding World}
  {refused : Refusals World} {before : World} {pending fewer : Tier → String → Prop}
  {state final : CacheState World}
  {key : String} {tier : Tier} {value : Value} {size : Nat}

namespace Surveying

theorem start (isSound : sound before) :
    Surveying setup sound held before (fun _ _ => True) (.start setup before) where
  tallied := .start before
  sound := isSound
  loses _ _ _ there := there
  stocked found := by cases found
  known there := .inl ⟨trivial, there⟩

/-- What is not there need not be pending. -/
theorem narrow (surveying : Surveying setup sound held before pending state)
    (less : ∀ tier key, fewer tier key → pending tier key)
    (more : ∀ tier key value, pending tier key → held before tier key value → held state.world tier key value →
      fewer tier key ∨ ∃ entry, state.lookup key = some entry ∧ entry.tier.level ≤ tier.level) :
    Surveying setup sound held before fewer state where
  tallied := surveying.tallied
  sound := surveying.sound
  loses := surveying.loses
  stocked found := by
    obtain ⟨looked, rest⟩ := surveying.stocked found
    exact ⟨fun waiting => looked (less _ _ waiting), rest⟩
  known there := by
    rcases surveying.known there with ⟨waiting, still⟩ | adopted
    · exact (more _ _ _ waiting there still).imp (fun kept => ⟨kept, still⟩) id
    · exact .inr adopted

/-- Where all colder tiers are still pending, no entry is in one of them. -/
theorem level_le (surveying : Surveying setup sound held before pending state)
    (ahead : ∀ place asked, tier.level < place.level → pending place asked) {entry : Entry}
    (found : state.lookup key = some entry) : entry.tier.level ≤ tier.level :=
  Nat.not_lt.mp fun colder => (surveying.stocked found).1 (ahead _ _ colder)

/-- The payload of a key without an entry is adopted. -/
theorem adopt (surveying : Surveying setup sound held before pending state) (waiting : pending tier key)
    (there : ∃ value, held before tier key value) (fresh : state.lookup key = none) (size : Nat) :
    Surveying setup sound held before (Without pending tier [key])
      (insert setup state key size tier setup.defaultLifetime?) := by
  have onlyWaits {place : Tier} {value : Value} (held : held before place key value) :=
    (surveying.known held).resolve_right (by simp [fresh])
  refine ⟨surveying.tallied.ticked.timed.enroll rfl fresh, surveying.sound, surveying.loses, ?_, ?_⟩
  · intro asked entry known
    rw [lookup_insert] at known
    split at known
    · rename_i same
      subst same
      cases known
      obtain ⟨value, held⟩ := there
      exact ⟨fun looked => looked.2 ⟨rfl, List.mem_singleton.mpr rfl⟩, rfl, value, (onlyWaits held).2⟩
    · obtain ⟨looked, rest⟩ := surveying.stocked known
      exact ⟨fun waiting => looked waiting.1, rest⟩
  · intro place asked value held
    by_cases own : place = tier ∧ asked = key
    · obtain ⟨rfl, rfl⟩ := own
      exact .inr ⟨_, by rw [lookup_insert, if_pos rfl], Nat.le_refl _⟩
    · rcases surveying.known held with ⟨waits, still⟩ | ⟨entry, known, hot⟩
      · exact .inl ⟨⟨waits, by simpa using own⟩, still⟩
      · refine .inr ⟨entry, ?_, hot⟩
        rw [lookup_insert, if_neg fun same => by cases fresh.symm.trans (same ▸ known)]
        exact known

/-- The payload of a key with an entry elsewhere is asked to go. -/
theorem discard {entry : Entry} {world : World} {answer : Except StoreError Bool}
    (surveying : Surveying setup sound held before pending state)
    (reluctant : setup.Reluctant faults sound held refused) (waiting : pending tier key)
    (found : state.lookup key = some entry) (hot : entry.tier.level ≤ tier.level)
    (deleted : ((setup.stores.get tier).delete key).run state.world = .ok answer world) :
    Surveying setup sound held before (Without pending tier [key]) (state.inWorld world) := by
  have wanes := reluctant.wanes_delete surveying.sound deleted
  have kept := (reluctant.delete _ _ _ _ _ surveying.sound deleted).2
  refine ⟨surveying.tallied.inWorld world, wanes.sound, ?_, ?_, ?_⟩
  · exact fun _ _ _ there => surveying.loses _ _ _ (wanes.loses _ _ _ there)
  · intro asked other known
    obtain ⟨looked, lifetime, value, held⟩ := surveying.stocked known
    refine ⟨fun waiting => looked waiting.1, lifetime, value, kept _ _ _ ?_ held⟩
    by_cases own : asked = key
    · subst own
      exact .inl fun same => looked (same ▸ waiting)
    · exact .inr own
  · intro place asked value held
    rcases surveying.known held with ⟨waits, still⟩ | adopted
    · by_cases own : place = tier ∧ asked = key
      · obtain ⟨rfl, rfl⟩ := own
        exact .inr ⟨entry, found, hot⟩
      · have apart : place ≠ tier ∨ asked ≠ key := Decidable.not_and_iff_not_or_not.mp own
        exact .inl ⟨⟨waits, by simpa using own⟩, kept _ _ _ apart still⟩
    · exact .inr adopted

/-- The stores told what they hold. -/
theorem inWorld {world : World} (surveying : Surveying setup sound held before pending state)
    (isSound : sound world)
    (same : ∀ place key value, held world place key value ↔ held state.world place key value) :
    Surveying setup sound held before pending (state.inWorld world) where
  tallied := surveying.tallied.inWorld world
  sound := isSound
  loses _ _ _ there := surveying.loses _ _ _ ((same _ _ _).mp there)
  stocked found := by
    obtain ⟨looked, lifetime, value, there⟩ := surveying.stocked found
    exact ⟨looked, lifetime, value, (same _ _ _).mpr there⟩
  known there := (surveying.known there).imp_left fun ⟨waits, still⟩ => ⟨waits, (same _ _ _).mpr still⟩

end Surveying

end CacheState

namespace TieredCache

open TierVault.Action CacheState

variable {setup : CacheSetup World} {faults : Fault → Prop} {sound : World → Prop} {held : Holding World}
  {refused : Refusals World} {before : World} {pending : Tier → String → Prop} {state : CacheState World}
  {key : String} {tier : Tier} {size : Nat} {stored : List (String × Nat)} {tiers : List Tier}

theorem leads_adopt_pending (reluctant : setup.Reluctant faults sound held refused) (overflow : faults .sumOverflow)
    (surveying : Surveying setup sound held before pending state)
    (ahead : ∀ place asked, tier.level < place.level → pending place asked)
    (waiting : pending tier key) (there : ∃ value, held before tier key value) :
    Leads faults (adopt setup tier key size) state fun _ final =>
      Surveying setup sound held before (Without pending tier [key]) final := by
  simp only [adopt, leads_bind, leads_lookup]
  cases found : state.lookup key with
  | none =>
      simp only [leads_bind, leads_pure]
      exact leads_insertEntry (fun checked => absurd overflow checked)
        (surveying.adopt waiting there found size)
  | some entry =>
      simp only [leads_bind, leads_pure]
      refine leads_discardPayload reluctant.steady surveying.sound fun answer world deleted _ => ?_
      exact surveying.discard reluctant waiting found (surveying.level_le ahead found) deleted

theorem leads_adoptAll_pending (reluctant : setup.Reluctant faults sound held refused)
    (overflow : faults .sumOverflow)
    (surveying : Surveying setup sound held before pending state)
    (ahead : ∀ place asked, tier.level < place.level → pending place asked)
    (distinct : (stored.map Prod.fst).Nodup)
    (waiting : ∀ key ∈ stored.map Prod.fst, pending tier key ∧ ∃ value, held before tier key value) :
    Leads faults (stored.mapM fun (key, size) => adopt setup tier key size) state fun _ final =>
      Surveying setup sound held before (Without pending tier (stored.map Prod.fst)) final := by
  induction stored generalizing state pending with
  | nil =>
      rw [List.map_nil, without_nil]
      exact surveying
  | cons pair rest induction =>
      obtain ⟨key, size⟩ := pair
      obtain ⟨unlike, apart⟩ := List.nodup_cons.mp distinct
      obtain ⟨⟨waits, there⟩, later⟩ := List.forall_mem_cons.mp waiting
      simp only [List.mapM_cons, leads_bind, leads_pure]
      refine (leads_adopt_pending reluctant overflow surveying ahead waits there).imp ?_
      rintro count middle - adopted
      rw [List.map_cons, ← without_cons]
      refine induction adopted ?_ apart ?_
      · intro place asked colder
        exact ⟨ahead place asked colder, fun own => Nat.ne_of_gt colder (congrArg Tier.level own.1)⟩
      · intro asked member
        refine ⟨⟨(later asked member).1, fun own => unlike ?_⟩, (later asked member).2⟩
        exact List.mem_singleton.mp own.2 ▸ member

/-- After its survey, nothing of a tier is pending. -/
theorem leads_survey_pending (reluctant : setup.Reluctant faults sound held refused) (overflow : faults .sumOverflow)
    (surveying : Surveying setup sound held before (fun place _ => place ∈ tier :: tiers) state)
    (hottest : ∀ place, tier.level < place.level → place ∈ tiers) (once : tier ∉ tiers) :
    Leads faults (survey setup tier) state fun _ final =>
      Surveying setup sound held before (fun place _ => place ∈ tiers) final := by
  obtain ⟨listed, world, told, stays, distinct, all, same⟩ := reluctant.entries tier _ surveying.sound
  have asked : onStore setup tier (·.entries) state = .ok (.ok listed) (state.inWorld world) := by
    unfold onStore
    rw [told]
    rfl
  simp only [survey, leads_bind]
  refine (leads_of_eq asked).mpr ?_
  simp only [leads_bind, leads_pure]
  have listing : Surveying setup sound held before
      (fun place key => place ∈ tiers ∨ place = tier ∧ key ∈ listed.map Prod.fst) (state.inWorld world) := by
    refine (surveying.inWorld stays same).narrow ?_ ?_
    · rintro place key (ahead | ⟨rfl, -⟩)
      · exact List.mem_cons_of_mem _ ahead
      · exact List.mem_cons_self
    · rintro place key value waits - there
      rcases List.mem_cons.mp waits with rfl | ahead
      · exact .inl (.inr ⟨rfl, (all key).mpr ⟨value, (same _ _ _).mp there⟩⟩)
      · exact .inl (.inl ahead)
  refine (leads_adoptAll_pending reluctant overflow listing ?_ distinct ?_).imp ?_
  · exact fun place _ colder => .inl (hottest place colder)
  · intro key member
    obtain ⟨value, there⟩ := (all key).mp member
    exact ⟨.inr ⟨rfl, member⟩, value, surveying.loses _ _ _ there⟩
  · rintro counts final - surveyed
    refine surveyed.narrow ?_ ?_
    · intro place key ahead
      exact ⟨.inl ahead, fun own => once (own.1 ▸ ahead)⟩
    · rintro place key value ⟨ahead | own, outside⟩ - -
      · exact .inl ahead
      · exact absurd own outside

/-- The tiers are surveyed, from hot to cold, up to the coldest one. -/
theorem leads_surveys_pending (reluctant : setup.Reluctant faults sound held refused) (overflow : faults .sumOverflow)
    (surveying : Surveying setup sound held before (fun place _ => place ∈ tiers) state)
    (ordered : tiers.Pairwise (·.level < ·.level))
    (closed : ∀ tier ∈ tiers, ∀ place, tier.level < place.level → place ∈ tiers) :
    Leads faults (tiers.mapM (survey setup)) state fun _ final =>
      Surveying setup sound held before (fun _ _ => False) final := by
  induction tiers generalizing state with
  | nil => exact surveying.narrow (fun _ _ => False.elim) fun _ _ _ member => absurd member List.not_mem_nil
  | cons tier rest induction =>
      obtain ⟨colder, later⟩ := List.pairwise_cons.mp ordered
      have ahead (place : Tier) (below : tier.level < place.level) : place ∈ rest := by
        refine (List.mem_cons.mp (closed tier List.mem_cons_self place below)).resolve_left ?_
        exact fun same => Nat.ne_of_gt below (congrArg Tier.level same)
      have once : tier ∉ rest := fun member => Nat.lt_irrefl _ (colder tier member)
      simp only [List.mapM_cons, leads_bind, leads_pure]
      refine (leads_survey_pending reluctant overflow surveying ahead once).imp ?_
      rintro count middle - surveyed
      refine induction surveyed later ?_
      intro other member place below
      exact ahead place (Nat.lt_trans (colder other member) below)

/-- Every payload is looked at. -/
theorem leads_restore_anew (reluctant : setup.Reluctant faults sound held refused) (overflow : faults .sumOverflow)
    (isSound : sound before) :
    Leads faults (restore setup) (.start setup before) fun _ restored =>
      Surveying setup sound held before (fun _ _ => False) restored := by
  have everywhere (tier : Tier) : tier ∈ Tier.all := by cases tier <;> decide
  simp only [restore_eq, leads_bind, leads_pure]
  refine leads_surveys_pending reluctant overflow ?_ (by decide) fun _ _ place _ => everywhere place
  exact (Surveying.start isSound).narrow (fun _ _ _ => trivial) fun tier _ _ _ _ _ => .inl (everywhere tier)

/-- Where every payload was looked at, a key's entry is of its foremost payload. -/
theorem foremost_of_surveyed {entry : Entry} {value : Value}
    (surveyed : Surveying setup sound held before (fun _ _ => False) state)
    (found : state.lookup key = some entry) (there : held state.world entry.tier key value) :
    Foremost held before key entry.tier value := by
  refine ⟨surveyed.loses _ _ _ there, fun place other held => ?_⟩
  obtain ⟨known, same, hot⟩ := (surveyed.known held).resolve_left fun waits => waits.1
  cases found.symm.trans same
  exact hot

/-- A read in a cache that was built anew answers the foremost payload of the key, and finds none only where
there is none or entries expire. -/
theorem leads_get_surveyed (reluctant : setup.Reluctant faults sound held refused) (overflow : faults .sumOverflow)
    (surveyed : Surveying setup sound held before (fun _ _ => False) state) (key : String) :
    Leads faults (get setup key) state fun answer _ =>
      (answer = none → setup.defaultLifetime? = none → ∀ tier value, ¬held before tier key value) ∧
        ∀ value, answer = some value → ∃ tier, Foremost held before key tier value := by
  have orderly : state.Orderly setup faults sound :=
    ⟨surveyed.tallied, surveyed.sound, fun checked => absurd overflow checked⟩
  refine (leads_read reluctant.steady orderly).imp ?_
  rintro answer final - ⟨reads, -⟩
  constructor
  · rintro rfl lasting tier value there
    obtain ⟨entry, found, -⟩ := (surveyed.known there).resolve_left fun waits => waits.1
    obtain ⟨-, lifetime, payload, held⟩ := surveyed.stocked found
    cases reads with
    | missing unknown => cases found.symm.trans unknown
    | expired known late =>
        cases found.symm.trans known
        simp [Entry.isExpired, lifetime, lasting] at late
    | stale known _ get =>
        cases found.symm.trans known
        cases (reluctant.get _ _ _ _ _ surveyed.sound get).2 payload held
    | failed known _ get =>
        cases found.symm.trans known
        cases (reluctant.get _ _ _ _ _ surveyed.sound get).2 payload held
  · rintro value rfl
    cases reads with
    | hit found _ get =>
        have there := (reluctant.faithful.get _ _ _ _ _ get).2 value rfl
        exact ⟨_, foremost_of_surveyed surveyed found there⟩

end TieredCache

namespace CacheSetup

variable {setup later : CacheSetup World} {faults : Fault → Prop} {sound : World → Prop}
  {held : Holding World} {refused : Refusals World}

theorem Steady.of_stores (steady : setup.Steady faults sound) (same : later.stores = setup.stores) :
    later.Steady faults sound := by
  constructor <;> rw [same]
  · exact steady.get
  · exact steady.put
  · exact steady.delete
  · exact steady.clear

/-- What stores do does not depend on the cache. -/
theorem Reluctant.of_stores (reluctant : setup.Reluctant faults sound held refused)
    (same : later.stores = setup.stores) : later.Reluctant faults sound held refused := by
  have faithful : later.Faithful held := by
    constructor <;> rw [same]
    · exact reluctant.faithful.get
    · exact reluctant.faithful.put
    · exact reluctant.faithful.put_failed
    · exact reluctant.faithful.delete
  refine ⟨faithful, reluctant.steady.of_stores same,
    fun tier key => (reluctant.recalls tier key).of_stores same, ?_, ?_, ?_, ?_⟩ <;> rw [same]
  · exact reluctant.get
  · exact reluctant.delete
  · exact reluctant.clear
  · exact reluctant.entries

end CacheSetup

namespace TieredCache

open TierVault.Action CacheState

/-- A cache that is built anew over the stores of another answers the foremost payload of each key. That is the
latest value of the key, or one that was written before and that a store refused to delete: it lies where the old
cache had no entry of the key, in a hotter tier than all other payloads of it. -/
theorem get_of_rebuilt (setup later : CacheSetup World) (same : later.stores = setup.stores)
    (sound : World → Prop) (held : Holding World) (refused : Refusals World)
    (reluctant : setup.Reluctant (· = .sumOverflow) sound held refused)
    (world : World) (isSound : sound world) (bare : ∀ tier key value, ¬held world tier key value)
    (calls : List CacheCall) {history : List CacheEvent} {final : CacheState World}
    (ended : runAll setup calls (.start setup world) = .ok history final) (key : String) :
    Leads (· = .sumOverflow) (restore later) (.start later final.world) fun _ restored =>
      Leads (· = .sumOverflow) (get later key) restored fun answer _ =>
        (answer = none → later.defaultLifetime? = none → ∀ tier value, ¬held final.world tier key value) ∧
          ∀ value, answer = some value → ∃ tier, Foremost held final.world key tier value ∧
            (latest key history = some value ∨
              Wrote history key value ∧ ¬final.IsIn key tier ∧ refused final.world tier key) := by
  have lives := (lives_of_ok (.start world) ended).1
  have untouched : Fresh held (latest · []) (.start setup world) := .start world
  have fresh : Fresh held (latest · history) final := lives.fresh reluctant.faithful untouched
  have unwritten : Tracked sound held refused (Wrote []) (.start setup world) := .start isSound bare
  have tracked : Tracked sound held refused (Wrote history) final := lives.tracked reluctant unwritten
  have anew := reluctant.of_stores same
  refine (leads_restore_anew anew rfl tracked.sound).imp ?_
  rintro count restored - surveyed
  refine (leads_get_surveyed anew rfl surveyed key).imp ?_
  rintro answer next - ⟨finds, told⟩
  refine ⟨finds, fun value answered => ?_⟩
  obtain ⟨tier, foremost⟩ := told value answered
  refine ⟨tier, foremost, (tracked.latest_or_refused fresh foremost.there).imp_right fun left => ?_⟩
  exact ⟨tracked.wrote foremost.there, left⟩

/-- The value that was overwritten stays in memory because it cannot be deleted, and the new one is in the
database. -/
theorem get_of_rebuilt_orphaned :
    let setup := CacheSetup.switched { budgets := ⟨4, 50, 50, 50⟩ } none id
    let calls : List CacheCall := [.put "left" .null none, .put "left" (.flag true) none]
    ∃ history final, runAll setup calls (.start setup (.const ⟨[.delete], []⟩)) = .ok history final ∧
      Leads (· = .sumOverflow) (restore setup) (.start setup final.world) fun _ restored =>
        Leads (· = .sumOverflow) (get setup "left") restored fun answer _ =>
          (answer = none → setup.defaultLifetime? = none → ∀ tier value,
            ¬MemoryStore.Holds (final.world.get tier).inner "left" value) ∧
          ∀ value, answer = some value → ∃ tier,
            Foremost (fun worlds tier => MemoryStore.Holds (worlds.get tier).inner) final.world "left" tier value ∧
            (latest "left" history = some value ∨
              Wrote history "left" value ∧ ¬final.IsIn "left" tier ∧
                Switch.delete ∈ (final.world.get tier).on) := by
  intro setup calls
  obtain ⟨history, final, ended, -⟩ : ∃ history final,
      runAll setup calls (.start setup (.const ⟨[.delete], []⟩)) = .ok history final ∧ True := by
    apply Leads.ends ?_ fun _ => id
    decide +kernel
  have reluctant := CacheSetup.switched_reluctant setup.tiers none id (· = .sumOverflow)
  have isSound (tier : Tier) : ((PerTier.const (Switched.mk [.delete] [])).get tier).OnlyDeletesFail := by
    rw [PerTier.get_const]
    exact ⟨by simp, List.nodup_nil⟩
  have bare (tier : Tier) (key : String) (value : Value) :
      ¬MemoryStore.Holds ((PerTier.const (Switched.mk [.delete] [])).get tier).inner key value := by
    rintro ⟨resident, member, -⟩
    rw [PerTier.get_const] at member
    cases member
  have told := get_of_rebuilt setup setup rfl _ _ _ reluctant _ isSound bare calls ended "left"
  exact ⟨history, final, ended, told⟩

/-- The value that was written last is in the database. The one before it is in memory, and is found first. -/
theorem leaves_both :
    let setup := CacheSetup.switched { budgets := ⟨4, 50, 50, 50⟩ } none id
    ∃ history final,
      runAll setup [.put "left" .null none, .put "left" (.flag true) none] (.start setup (.const ⟨[.delete], []⟩)) =
          .ok history final ∧
        (latest "left" history matches some (.flag true)) = true ∧
        Leads (fun _ => False) (restore setup) (.start setup final.world) fun count restored =>
          count = 1 ∧ Leads (fun _ => False) (get setup "left") restored fun answer _ =>
            (answer matches some .null) = true := by
  apply Leads.ends ?_ fun _ => id
  decide +kernel

/-- There, the new cache answers the value that was overwritten. -/
theorem rebuilt_answers_overwritten :
    let setup := CacheSetup.switched { budgets := ⟨4, 50, 50, 50⟩ } none id
    let calls : List CacheCall := [.put "left" .null none, .put "left" (.flag true) none]
    ∃ history final restored next,
      runAll setup calls (.start setup (.const ⟨[.delete], []⟩)) = .ok history final ∧
        latest "left" history = some (.flag true) ∧
        restore setup (.start setup final.world) = .ok 1 restored ∧
        get setup "left" restored = .ok (some .null) next := by
  intro setup calls
  obtain ⟨history, final, ended, new, restores⟩ := leaves_both
  obtain ⟨count, restored, rebuilt, rfl, reads⟩ := restores.ends fun _ => id
  obtain ⟨answer, next, read, old⟩ := reads.ends fun _ => id
  refine ⟨history, final, restored, next, ended, ?_, rebuilt, ?_⟩
  · split at new
    · assumption
    · cases new
  · split at old
    · exact read
    · cases old

end TieredCache

end TierVault
