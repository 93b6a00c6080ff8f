import TierVault.Proofs.Cache.Relief

/-!
Which entries a put or a get costs, where stores do not fail.

Entries are evicted from the coldest tier, and demoted from all others. There is one exception: an entry is
evicted as well where the next tier holds the entry of the key that is put or read, and has no room for both.
-/

namespace TierVault

variable {World : Type}

/-- The key that is put or read. Room is made for its value. -/
def CacheCall.inFlight? : CacheCall → Option String
  | put key _ _ => some key
  | get key => some key
  | _ => none

namespace CacheState

variable {setup : CacheSetup World} {state final : CacheState World} {key : String}
  {own : Tier → Nat} {entry : Entry} {tier : Tier}

theorem Replaces.explained (replaces : Replaces setup key tier state final) :
    Explained setup key own state final := by
  refine .nothing (fun _ => replaces.lookup_other) ?_ ?_
  all_goals cases replaces <;> rfl

/-- What fits in a tier, but not beside the bytes of a key, finds the key's entry there. -/
theorem held_of_lt_reclaimed {size capacity : Nat} (fits : size ≤ capacity)
    (excess : capacity < state.reclaimed key tier + size) :
    ∃ held, state.lookup key = some held ∧ held.tier = tier ∧ capacity < held.size + size := by
  unfold reclaimed at excess
  split at excess
  · rename_i held found
    split at excess
    · rename_i here
      exact ⟨held, found, here, excess⟩
    · omega
  · omega

theorem Removes.explained {removed : Bool} (removes : Removes setup key state removed final) :
    Explained setup key own state final := by
  cases removes with
  | missing => exact .refl state
  | removed =>
      refine .nothing (fun asked different => ?_) rfl rfl
      rw [lookup_inWorld, lookup_forget, if_neg different]

end CacheState

namespace TieredCache

open TierVault.Action CacheState

variable {setup : CacheSetup World} {storable : Value → Prop} {sound : World → Prop}
  {shelves : World → Tier → Shelf} {newest : String → Option Value}
  {state final : CacheState World} {key : String} {entry : Entry} {value : Value} {tier : Tier}

/-- While room is made for the value of a key. -/
theorem explained_makeRoom (sturdy : setup.Sturdy storable sound shelves)
    (agrees : Agrees setup storable sound shelves newest state) (tier : Tier) (needed : Nat) :
    Leads AnyFault (makeRoom setup tier needed [key]) state fun _ final =>
      Explained setup key (state.reclaimed key) state final ∧ Retreat setup tier [key] state final := by
  refine Leads.imp (Leads.and
    (relieves sturdy newest key _ tier needed [key] state agrees rfl (List.mem_singleton.mpr rfl)
      (alone_own key tier state))
    (makesRoom (steady_of_sturdy sturdy) tier needed [key] state (orderly_of_agrees agrees)
      fun checked => absurd trivial checked)) ?_
  rintro fits final - ⟨⟨explained, -⟩, retreat, -⟩
  exact ⟨explained, retreat⟩

theorem explained_promote {target : Tier} (sturdy : setup.Sturdy storable sound shelves)
    (agrees : Agrees setup storable sound shelves newest state)
    (found : state.lookup key = some entry) (hotter : entry.tier.hotter? = some target) :
    Leads AnyFault (promote setup key entry.tier target value) state fun _ final =>
      Explained setup key (state.reclaimed key) state final := by
  have steady := steady_of_sturdy sturdy
  have different := (Tier.ne_of_colder (Tier.hotter_eq_some_iff.mp hotter)).symm
  simp only [promote, leads_bind, leads_lookup, found]
  refine (explained_makeRoom sturdy agrees target entry.size).imp ?_
  rintro fits roomy - ⟨explained, retreat⟩
  have tidy := agrees.retreat sturdy retreat
  have present := (retreat.lookup_of_mem (List.mem_singleton.mpr rfl)).trans found
  cases fits with
  | false => exact explained
  | true =>
      simp only [Bool.not_true, Bool.false_eq_true, if_false, leads_bind]
      refine leads_onStore (steady.put _ _ _) tidy.sound ?_
      intro answer written put stays
      rcases answer with error | _
      · exact explained.trans (.nothing (fun _ _ => rfl) rfl rfl)
      simp only [leads_bind, leads_count, leads_record]
      refine leads_moveEntry steady stays present different (tidy.balanced.covers present)
        (fun checked => absurd trivial checked) ?_
      intro answer gone _ _
      refine explained.trans (.nothing (fun asked another => ?_) rfl rfl)
      simp only [lookup_recorded, lookup_counted, lookup_relocate, if_neg another, lookup_inWorld]

theorem explained_hit {now : Nat} (sturdy : setup.Sturdy storable sound shelves)
    (agrees : Agrees setup storable sound shelves newest state)
    (found : state.lookup key = some entry) :
    Leads AnyFault (hit setup key entry.tier value now) state fun _ final =>
      Explained setup key (state.reclaimed key) state final := by
  have tidy := ((agrees.touch found).counted fun counters =>
    { counters with hits := counters.hits + 1 }).recorded "get" "hit"
  have present : (CacheState.touch setup state key entry).hit.lookup key = some (touched setup state entry) :=
    lookup_touch
  have same : (CacheState.touch setup state key entry).hit.reclaimed key = state.reclaimed key := by
    funext tier
    unfold reclaimed
    rw [present, found]
    rfl
  have start : Explained setup key (state.reclaimed key) state
      (CacheState.touch setup state key entry).hit :=
    .nothing (fun asked different => Keyed.find?_put_other _ _ different) rfl rfl
  simp only [TieredCache.hit, leads_bind, leads_touchEntry found, leads_count, leads_record]
  cases hotter : entry.tier.hotter? with
  | none => exact start
  | some target =>
      simp only []
      split
      · simp only [leads_bind, leads_pure]
        refine (explained_promote sturdy tidy present hotter).imp ?_
        intro _ final _ explained
        exact start.trans (same ▸ explained)
      · exact start

theorem explained_get (sturdy : setup.Sturdy storable sound shelves)
    (agrees : Agrees setup storable sound shelves newest state) :
    Leads AnyFault (TieredCache.get setup key) state fun _ final =>
      Explained setup key (state.reclaimed key) state final := by
  have steady := steady_of_sturdy sturdy
  have start (world : World) : Explained setup key (state.reclaimed key) state (state.timed.inWorld world) :=
    .nothing (fun _ _ => rfl) rfl rfl
  simp only [TieredCache.get, leads_bind, leads_readClock, leads_lookup, lookup_timed]
  cases found : state.lookup key with
  | none =>
      simp only [leads_miss]
      exact .nothing (fun _ _ => rfl) rfl rfl
  | some entry =>
      cases late : entry.isExpired (setup.clock state.readings) with
      | true =>
          simp only [late, if_true, leads_bind, leads_countExpired, leads_miss]
          refine (leads_removes steady (orderly_of_agrees agrees.timed)).imp ?_
          rintro removed final - ⟨removes, -⟩
          exact (start _).trans (removes.explained.trans (.nothing (fun _ _ => rfl) rfl rfl))
      | false =>
          simp only [late, Bool.false_eq_true, if_false, leads_bind]
          refine leads_onStore (steady.get _ _) agrees.sound ?_
          intro answer asked get _
          have read := agrees.newest_of_get sturdy found get
          rcases agrees.sized key entry found with ⟨value, new, -⟩
          rw [new] at read
          subst read
          have here := (agrees.timed.get sturdy get).2
          refine (explained_hit sturdy here found).imp ?_
          intro _ final _ explained
          exact (start asked).trans explained

theorem explained_place {size : Nat} {lifetime? : Option Nat}
    (sturdy : setup.Sturdy storable sound shelves) (tier : Tier)
    (agrees : Agrees setup storable sound shelves newest state) :
    Leads AnyFault (place setup key value size lifetime? tier.downward) state fun _ final =>
      Explained setup key (state.reclaimed key) state final := by
  have steady := steady_of_sturdy sturdy
  induction tier using Tier.colder_induction generalizing state with
  | step tier colder =>
      have onward {middle : CacheState World}
          (agrees : Agrees setup storable sound shelves newest middle) :
          Leads AnyFault
            (place setup key value size lifetime? ((tier.colder?.map Tier.downward).getD [])) middle
            fun _ final => Explained setup key (middle.reclaimed key) middle final := by
        cases step : tier.colder? with
        | none => exact .nothing (fun _ _ => rfl) rfl rfl
        | some next => exact colder next step agrees
      rw [Tier.downward_eq, place]
      split
      · exact onward agrees
      simp only [leads_bind, leads_reclaimable]
      refine (explained_makeRoom sturdy agrees tier _).imp ?_
      rintro roomed roomy - ⟨explained, retreat⟩
      have tidy := agrees.retreat sturdy retreat
      cases roomed with
      | false =>
          refine (onward tidy).imp ?_
          intro _ final _ further
          rw [retreat.reclaimed_of_mem (List.mem_singleton.mpr rfl)] at further
          exact explained.trans further
      | true =>
          simp only [Bool.not_true, Bool.false_eq_true, if_false, leads_bind]
          refine leads_onStore (steady.put _ _ _) tidy.sound ?_
          intro answer written put stays
          have start : Explained setup key (state.reclaimed key) state (roomy.inWorld written) :=
            explained.trans (.nothing (fun _ _ => rfl) rfl rfl)
          rcases answer with error | _
          · exact start.trans (.nothing (fun _ _ => rfl) rfl rfl)
          simp only [leads_bind, leads_record, leads_pure]
          refine (leads_replaceEntry steady ((orderly_of_agrees tidy).inWorld stays)).imp ?_
          rintro _ replaced - ⟨replaces, -⟩
          refine leads_insertEntry (fun checked => absurd trivial checked) ?_
          refine start.trans (replaces.explained.trans (.nothing (fun asked different => ?_) rfl rfl))
          rw [lookup_recorded, lookup_enroll, if_neg different, lookup_timed, lookup_ticked]

theorem explained_put {lifetime? : Option Nat} (sturdy : setup.Sturdy storable sound shelves)
    (agrees : Agrees setup storable sound shelves newest state) :
    Leads AnyFault (put setup key value lifetime?) state fun _ final =>
      Explained setup key (state.reclaimed key) state final := by
  unfold put
  cases value.encodedSize with
  | error error => exact .nothing (fun _ _ => rfl) rfl rfl
  | ok size => exact explained_place sturdy _ agrees

/-- Wherever a run leads to, cache and stores agree. -/
theorem agrees_of_runAll {world : World} {calls : List CacheCall} {history : List CacheEvent}
    (sturdy : setup.Sturdy storable sound shelves) (isSound : sound world)
    (bare : ∀ tier, shelves world tier = .empty) (offers : ∀ call ∈ calls, call.Offers storable)
    (ended : runAll setup calls (.start setup world) = .ok history final) :
    Agrees setup storable sound shelves (latest · history) final := by
  have lives := (lives_of_ok (.start world) ended).1
  have asked := calls_of_ok (.start world) ended
  refine lives.agrees sturdy (fun event member => offers event.call ?_) (.start isSound bare)
  rw [← asked]
  exact List.mem_map_of_mem member

theorem explained_run (sturdy : setup.Sturdy storable sound shelves)
    (agrees : Agrees setup storable sound shelves newest state) (call : CacheCall)
    (inFlight : call.inFlight? = some key) :
    Leads AnyFault (call.run setup) state fun _ final =>
      Explained setup key (state.reclaimed key) state final := by
  cases call with
  | put other value lifetime? =>
      cases inFlight
      exact explained_put sturdy agrees
  | get other =>
      cases inFlight
      exact explained_get sturdy agrees
  | _ => cases inFlight

/-- Wherever a healthy cache has come to, a put or a get demotes the entries that leave their tiers to the
next ones, and evicts those that leave the coldest. If it evicts one of another tier, the next tier holds the
entry of the key that is put or read, and cannot hold both. -/
theorem departures_explained (setup : CacheSetup World)
    (sturdy : setup.Sturdy storable sound shelves) (world : World) (isSound : sound world)
    (bare : ∀ tier, shelves world tier = .empty) (calls : List CacheCall)
    (offers : ∀ call ∈ calls, call.Offers storable) {history : List CacheEvent}
    {state : CacheState World}
    (reached : runAll setup calls (.start setup world) = .ok history state)
    (small : ∀ entry ∈ state.entryList, ∀ tier, entry.size ≤ setup.tiers.capacity tier)
    {call : CacheCall} {key : String} (inFlight : call.inFlight? = some key)
    {answer : call.Answer} {final : CacheState World}
    (ended : call.run setup state = .ok answer final) :
    ∃ log, Departed key log state final ∧ ∀ departure ∈ log,
      departure.target? = departure.entry.tier.colder? ∨
        departure.target? = none ∧ ∃ held, state.lookup key = some held ∧
          departure.entry.tier.colder? = some held.tier ∧
            setup.tiers.capacity held.tier < held.size + departure.entry.size := by
  have agrees := agrees_of_runAll sturdy isSound bare offers reached
  obtain ⟨log, departed, explained⟩ := (explained_run sturdy agrees call inFlight).of_ok ended
  have fits (other : String) (entry : Entry) (found : state.others key other = some entry)
      (tier : Tier) : entry.size ≤ setup.tiers.capacity tier := by
    unfold CacheState.others at found
    split at found
    · cases found
    · exact small entry (List.mem_map_of_mem (Keyed.mem_of_find? found)) tier
  have sizes : ∀ departure ∈ log, ∀ tier, departure.entry.size ≤ setup.tiers.capacity tier :=
    departed.departs.sizes (fun size => ∀ tier, size ≤ setup.tiers.capacity tier) fits
  refine ⟨log, departed, fun departure member => ?_⟩
  have reason := explained departure member
  unfold Departure.Explained at reason
  cases target : departure.target? with
  | some target =>
      rw [target] at reason
      exact .inl reason.symm
  | none =>
      rw [target] at reason
      cases step : departure.entry.tier.colder? with
      | none => exact .inl rfl
      | some next =>
          obtain ⟨held, found, there, excess⟩ :=
            held_of_lt_reclaimed (sizes departure member next) (reason next step)
          exact .inr ⟨rfl, held, found, there ▸ rfl, there ▸ excess⟩

/-- A write demotes what it finds in memory. -/
theorem departures_explained_demoted :
    let setup := CacheSetup.inMemory { budgets := ⟨5, 5, 5, 5⟩ } none id
    let call : CacheCall := .put "right" (.flag true) none
    ∃ history state answer final,
      runAll setup [.put "left" .null none] (.start setup (.const [])) = .ok history state ∧
        call.run setup state = .ok answer final ∧ final.counters.demotions = 1 ∧
          ∃ log, Departed "right" log state final ∧ ∀ departure ∈ log,
            departure.target? = departure.entry.tier.colder? ∨
              departure.target? = none ∧ ∃ held, state.lookup "right" = some held ∧
                departure.entry.tier.colder? = some held.tier ∧
                  setup.tiers.capacity held.tier < held.size + departure.entry.size := by
  intro setup call
  rcases (show Leads (fun _ => False) (runAll setup [.put "left" .null none])
      (.start setup (.const [])) fun _ state =>
        (∀ entry ∈ state.entryList, ∀ tier ∈ Tier.all, entry.size ≤ setup.tiers.capacity tier) ∧
          Leads (fun _ => False) (call.run setup) state fun _ final => final.counters.demotions = 1
    by decide +kernel).ends (fun _ => id) with ⟨history, state, reached, small, leads⟩
  rcases leads.ends (fun _ => id) with ⟨answer, final, ended, once⟩
  have isSound (tier : Tier) : MemoryStore.Sound ((PerTier.const []).get tier) := by
    cases tier <;> exact ⟨List.nodup_nil, by simp⟩
  have bare (tier : Tier) : MemoryStore.shelf ((PerTier.const []).get tier) = .empty := by
    cases tier <;> rfl
  refine ⟨history, state, answer, final, reached, ended, once, ?_⟩
  exact departures_explained setup (CacheSetup.inMemory_sturdy setup.tiers none id) _ isSound bare
    [.put "left" .null none] (List.forall_mem_singleton.mpr trivial) reached
    (fun entry member tier => small entry member tier (by cases tier <;> decide)) rfl ended

/-- Larger values begin in the database, which holds one of them. -/
def narrow : CacheSetup (PerTier MemoryWorld) :=
  .inMemory { budgets := ⟨60, 100, 100, 100⟩, memoryLimit := 50 } none id

def zeros (length : Nat) : Value := .bytes (List.replicate length 0)

theorem leads_narrow : Leads (fun _ => False)
    (runAll narrow [.put "k" (zeros 48) none, .put "v" (zeros 33) none])
    (.start narrow (.const [])) fun _ state =>
      (∀ entry ∈ state.entryList, entry.tier ≠ .compressed ∧
        ∀ tier ∈ Tier.all, entry.size ≤ narrow.tiers.capacity tier) ∧
      Leads (fun _ => False) (put narrow "k" (zeros 8) none) state fun answer final =>
        answer = true ∧ (state.lookup "v").map Entry.tier = some .memory ∧
          final.lookup "v" = none ∧
          final.counters.evictions = state.counters.evictions + 1 ∧
            final.counters.demotions = state.counters.demotions := by
  decide +kernel

/-- A small value takes the place of a larger one in the database. The entry that leaves memory for it does
not fit beside the larger one, which is still there, and is lost, though each value fits in every tier. -/
theorem evicts_from_memory :
    ∃ history state final,
      runAll narrow [.put "k" (zeros 48) none, .put "v" (zeros 33) none]
          (.start narrow (.const [])) = .ok history state ∧
        put narrow "k" (zeros 8) none state = .ok true final ∧
          (∀ entry ∈ state.entryList, entry.tier ≠ .compressed ∧
            ∀ tier ∈ Tier.all, entry.size ≤ narrow.tiers.capacity tier) ∧
          (∀ tier ∈ Tier.all, (zeros 8).weight ≤ narrow.tiers.capacity tier) ∧
          (state.lookup "v").map Entry.tier = some .memory ∧ final.lookup "v" = none ∧
          final.counters.evictions = state.counters.evictions + 1 ∧
            final.counters.demotions = state.counters.demotions := by
  rcases leads_narrow.ends (fun _ => id) with ⟨history, state, reached, small, leads⟩
  rcases leads.ends (fun _ => id) with ⟨answer, final, ended, rfl, facts⟩
  exact ⟨history, state, final, reached, ended, small, by decide, facts⟩

end TieredCache

end TierVault
