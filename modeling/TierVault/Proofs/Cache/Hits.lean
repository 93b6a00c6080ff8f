import TierVault.Proofs.Cache.Losses

/-!
What a read that finds its value does to the entries, where stores do not fail.

The read is noted in the entry of its key, and no more happens unless the entry moves one tier up. Room is
then made for it in the hotter tier, so that other entries move to colder tiers or are evicted. None of them
moves up.
-/

/-! # Placement

Where a put leaves its value, over stores that do not fail.

Tiers too small for the value are passed over. In the first of the others there is always room in the end:
all that may not leave it is the entry that the value replaces, whose bytes are not asked for again. So the
search for a tier ends there.
-/

namespace TierVault.TieredCache

open TierVault.Action CacheState

variable {World : Type} {faults : Fault → Prop} {setup : CacheSetup World}
  {storable : Value → Prop} {sound : World → Prop} {shelves : World → Tier → Shelf}
  {newest : String → Option Value} {state : CacheState World} {key : String} {value : Value}
  {size : Nat} {tier : Tier} {lifetime? : Option Nat}

/-- The first of the tiers that can hold the value takes it, and no other is asked. -/
theorem leads_place_first (sturdy : setup.Sturdy storable sound shelves)
    (agrees : Agrees setup storable sound shelves newest state) (able : storable value)
    (sized : value.encodedSize = .ok size) (tiers : List Tier) :
    Leads AnyFault (place setup key value size lifetime? tiers) state fun answer final =>
      match tiers.find? fun tier => size ≤ setup.tiers.capacity tier with
      | some tier => answer = true ∧ ∃ tick now,
          final.lookup key = some (.create key size tier lifetime? tick now)
      | none => answer = false := by
  have steady := steady_of_sturdy sturdy
  induction tiers with
  | nil => exact rfl
  | cons tier colder induction =>
      rw [place]
      split
      · rename_i small
        rwa [List.find?_cons_of_neg (by simpa using small)]
      · rename_i large
        have fitting : size ≤ setup.tiers.capacity tier := Nat.not_lt.mp large
        rw [List.find?_cons_of_pos (by simpa using fitting)]
        simp only [leads_bind, leads_reclaimable]
        refine Leads.imp (Leads.and (leads_makeRoom_of_fitting agrees.balanced fitting)
          (makesRoom steady tier (size - state.reclaimed key tier) [key] state
            (orderly_of_agrees agrees) fun checked => absurd trivial checked)) ?_
        rintro roomed roomy - ⟨rfl, retreat, tidy, space⟩
        have kept := retreat.reclaimed_of_mem (List.mem_singleton.mpr rfl)
        have fits : Fits setup roomy key tier size := by
          unfold Fits
          rw [kept]
          exact space rfl
        simp only [Bool.not_true, Bool.false_eq_true, if_false, leads_bind]
        refine leads_onStore (steady.put _ _ _) tidy.sound ?_
        intro answer written put stays
        rcases (agrees.retreat sturdy retreat).put sturdy able sized fits with ⟨world, taken, -⟩
        cases put.symm.trans taken
        simp only [leads_bind, leads_record, leads_pure]
        refine (leads_replaceEntry steady (tidy.inWorld stays)).imp ?_
        intro _ replaced _ _
        refine leads_insertEntry (fun checked => absurd trivial checked) ⟨trivial, ?_⟩
        refine ⟨replaced.tick + 1, setup.clock replaced.readings, ?_⟩
        rw [lookup_recorded, lookup_enroll, if_pos rfl]

/-- In every state that a healthy cache comes to, a put of a value that can be encoded is taken exactly if the
tier for its size or a colder one can hold it. The key's entry is then a new one in the first of these tiers,
wherever it was before. Making room in such a tier does not fail, and where all sizes together make a word, the
put ends. -/
theorem put_takes_first_fitting (setup : CacheSetup World)
    (sturdy : setup.Sturdy storable sound shelves) (world : World) (isSound : sound world)
    (bare : ∀ tier, shelves world tier = .empty) (calls : List CacheCall)
    (offers : ∀ call ∈ calls, call.Offers storable) {history : List CacheEvent}
    {state : CacheState World}
    (reached : runAll setup calls (.start setup world) = .ok history state)
    (key : String) (value : Value) (lifetime? : Option Nat) {size : Nat} (able : storable value)
    (sized : value.encodedSize = .ok size) :
    (∀ answer final, put setup key value lifetime? state = .ok answer final →
      (answer = true ↔
        ∃ tier ∈ (setup.tiers.tierForSize size).downward, size ≤ setup.tiers.capacity tier) ∧
      ∀ tier, (setup.tiers.tierForSize size).downward.find?
          (fun tier => size ≤ setup.tiers.capacity tier) = some tier →
        ∃ entry, final.lookup key = some entry ∧ entry.tier = tier ∧ entry.size = size ∧
          entry.accessCount = 0) ∧
    (∀ tier ∈ (setup.tiers.tierForSize size).downward, size ≤ setup.tiers.capacity tier →
      ∀ roomed final, makeRoom setup tier (size - state.reclaimed key tier) [key] state =
        .ok roomed final → roomed = true) ∧
    (state.total + size < Word.limit →
      ∃ answer final, put setup key value lifetime? state = .ok answer final) := by
  have agrees := agrees_of_runAll sturdy isSound bare offers reached
  refine ⟨fun answer final ended => ?_, fun tier _ fitting roomed final ended => ?_, fun fits => ?_⟩
  · rw [put, sized] at ended
    have placed := (leads_place_first sturdy agrees able sized _).of_ok ended
    split at placed
    · rename_i tier first
      rcases placed with ⟨rfl, tick, now, found⟩
      have fitting : size ≤ setup.tiers.capacity tier := by simpa using List.find?_some first
      refine ⟨⟨fun _ => ⟨tier, List.mem_of_find?_eq_some first, fitting⟩, fun _ => rfl⟩, ?_⟩
      intro other same
      cases first.symm.trans same
      exact ⟨_, found, rfl, rfl, rfl⟩
    · rename_i none
      subst placed
      refine ⟨⟨nofun, ?_⟩, fun tier first => ?_⟩
      · rintro ⟨tier, member, fitting⟩
        simpa [fitting] using List.find?_eq_none.mp none tier member
      · cases none.symm.trans first
  · exact (leads_makeRoom_of_fitting agrees.balanced fitting).of_ok ended
  · have orderly : state.Orderly setup (fun _ => False) sound :=
      ⟨agrees.balanced.toTallied, agrees.sound, fun _ => by omega⟩
    rw [← Value.weight_eq sized] at fits
    have leads : Leads (fun _ => False) (put setup key value lifetime?) state _ :=
      leads_put sturdy.steady orderly fun _ => fits
    rcases leads.ends (fun _ => id) with ⟨answer, final, ended, -⟩
    exact ⟨answer, final, ended⟩

theorem elsewhere_narrow : Leads (fun _ => False)
    (runAll narrow [.put "k" (zeros 48) none, .put "v" (zeros 33) none])
    (.start narrow (.const [])) fun _ state =>
      (state.lookup "k").map Entry.tier = some .sqlite ∧ state.total = 105 := by
  decide +kernel

/-- A value whose key has its entry in the database comes into memory, while what is there moves to the
database. -/
theorem put_takes_first_fitting_narrow :
    ∃ history state answer final,
      runAll narrow [.put "k" (zeros 48) none, .put "v" (zeros 33) none]
          (.start narrow (.const [])) = .ok history state ∧
        (state.lookup "k").map Entry.tier = some .sqlite ∧
        put narrow "k" (zeros 8) none state = .ok answer final ∧ answer = true ∧
        ∃ entry, final.lookup "k" = some entry ∧ entry.tier = .memory ∧ entry.size = 20 ∧
          entry.accessCount = 0 := by
  rcases elsewhere_narrow.ends (fun _ => id) with ⟨history, state, reached, before, total⟩
  have isSound (tier : Tier) : MemoryStore.Sound ((PerTier.const []).get tier) := by
    cases tier <;> exact ⟨List.nodup_nil, by simp⟩
  have bare (tier : Tier) : MemoryStore.shelf ((PerTier.const []).get tier) = .empty := by
    cases tier <;> rfl
  have sized : (zeros 8).encodedSize = .ok 20 := by rfl
  have sturdy : narrow.Sturdy (fun _ => True) _ _ :=
    CacheSetup.inMemory_sturdy { budgets := ⟨60, 100, 100, 100⟩, memoryLimit := 50 } none id
  have offers : ∀ call ∈ [CacheCall.put "k" (zeros 48) none, .put "v" (zeros 33) none],
      call.Offers fun _ => True := by
    intro call _
    cases call <;> trivial
  rcases put_takes_first_fitting narrow sturdy (.const []) isSound bare _ offers reached "k" (zeros 8) none
    trivial sized with ⟨told, -, ends⟩
  rcases ends (by rw [total]; decide) with ⟨answer, final, ended⟩
  have outcome := told answer final ended
  have large : 20 ≤ narrow.tiers.capacity .memory := by decide
  have taken := outcome.1.mpr ⟨.memory, by decide, large⟩
  exact ⟨history, state, answer, final, reached, before, ended, taken, outcome.2 .memory (by decide)⟩

end TierVault.TieredCache

/-! # Hits -/

namespace TierVault

variable {World : Type}

/-! ## Where departures lead -/

/-- Every entry stays in its tier, or moves to a colder one, or is evicted in one of the departures. -/
def Sinks (log : List Departure) (before after : String → Option Entry) : Prop :=
  ∀ key, match before key with
    | none => after key = none
    | some entry =>
      (∃ tier, entry.tier.level ≤ tier.level ∧ after key = some { entry with tier }) ∨
        (after key = none ∧ ∃ departure ∈ log, departure.key = key ∧ departure.evicts)

theorem Departs.sinks {setup : CacheSetup World} {own : Tier → Nat}
    {before after : String → Option Entry} {log : List Departure} (departs : Departs before log after)
    (explained : ∀ departure ∈ log, departure.Explained setup own) : Sinks log before after := by
  induction departs with
  | none entries =>
      intro key
      cases entries key with
      | none => rfl
      | some entry => exact .inl ⟨entry.tier, Nat.le_refl _, rfl⟩
  | @next entries final later departure there departs induction =>
      have reason := explained departure List.mem_cons_self
      have sinks := induction fun other member => explained other (List.mem_cons_of_mem _ member)
      intro key
      have onward := sinks key
      unfold Departure.after at onward
      by_cases same : key = departure.key
      · subst same
        rw [there]
        rw [if_pos rfl] at onward
        cases target : departure.target? with
        | none =>
            rw [target] at onward
            exact .inr ⟨onward, departure, List.mem_cons_self, rfl, by simp [Departure.evicts, target]⟩
        | some tier =>
            rw [target] at onward
            unfold Departure.Explained at reason
            rw [target] at reason
            have deeper : departure.entry.tier.level ≤ tier.level := by
              rw [Tier.level_colder reason]
              exact Nat.le_succ _
            rcases onward with ⟨colder, below, found⟩ | ⟨gone, later, member, rest⟩
            · exact .inl ⟨colder, Nat.le_trans deeper below, found⟩
            · exact .inr ⟨gone, later, List.mem_cons_of_mem _ member, rest⟩
      · rw [if_neg same] at onward
        cases known : entries key with
        | none =>
            rw [known] at onward
            exact onward
        | some entry =>
            rw [known] at onward
            rcases onward with stays | ⟨gone, later, member, rest⟩
            · exact .inl stays
            · exact .inr ⟨gone, later, List.mem_cons_of_mem _ member, rest⟩

namespace CacheState

/-- Once more read, the entry is read often enough for the next hotter tier, and fits in there. -/
def Climbs (setup : CacheSetup World) (state : CacheState World) (entry : Entry) (target : Tier) :
    Prop :=
  entry.tier.hotter? = some target ∧
    ({ entry with accessCount := entry.accessCount + 1 }.accessFrequency
      (setup.clock state.readings)).exceeds setup.tiers.promotionThreshold = true ∧
    entry.size ≤ setup.tiers.capacity target

/-- What a read that finds the value of `key` makes of the entries. -/
structure Notes (setup : CacheSetup World) (key : String) (state final : CacheState World)
    (before after : Entry) : Prop where
  found : state.lookup key = some before
  live : before.isExpired (setup.clock state.readings) = false
  noted : final.lookup key = some after
  accessCount : after.accessCount = before.accessCount + 1
  name : after.key = before.key
  size : after.size = before.size
  lifetime : after.lifetime? = before.lifetime?
  createdAt : after.createdAt = before.createdAt
  tier : after.tier = before.tier ∨ before.tier.hotter? = some after.tier
  climbs : before.tier.hotter? = some after.tier ↔ ∃ target, Climbs setup state before target
  /-- If the entry stays, so do all others. -/
  still : after.tier = before.tier → ∀ other, other ≠ key → final.lookup other = state.lookup other
  sinks : ∃ log, Departed key log state final ∧ Sinks log (state.others key) (final.others key)

variable {setup : CacheSetup World} {storable : Value → Prop} {sound : World → Prop}
  {shelves : World → Tier → Shelf} {newest : String → Option Value} {state final : CacheState World}
  {key : String} {entry : Entry} {value : Value} {target : Tier}

/-- The read of the key is noted in its entry, which moves one tier up if it is read often enough as of `now`
and fits in there. Otherwise nothing else changes. -/
def Lifts (setup : CacheSetup World) (key : String) (entry : Entry) (now : Nat)
    (state final : CacheState World) : Prop :=
  match entry.tier.hotter? with
  | some target =>
    if ((touched setup state entry).accessFrequency now).exceeds setup.tiers.promotionThreshold = true ∧
        entry.size ≤ setup.tiers.capacity target
      then final.lookup key = some { touched setup state entry with tier := target }
      else final = (touch setup state key entry).hit
  | none => final = (touch setup state key entry).hit

theorem reclaimed_elsewhere (found : state.lookup key = some entry) (different : entry.tier ≠ target) :
    state.reclaimed key target = 0 := by
  simp only [reclaimed, found, if_neg different]

theorem Lifts.notes {own : Tier → Nat} {world : World} (found : state.lookup key = some entry)
    (live : entry.isExpired (setup.clock state.readings) = false)
    (lifts : Lifts setup key entry (setup.clock state.readings) (state.timed.inWorld world) final)
    (explained : Explained setup key own state final) :
    ∃ after, Notes setup key state final entry after := by
  obtain ⟨log, departed, reasons⟩ := explained
  have sinks := departed.departs.sinks reasons
  have stays (same : final = (touch setup (state.timed.inWorld world) key entry).hit)
      (low : ¬∃ target, Climbs setup state entry target) :
      Notes setup key state final entry (touched setup (state.timed.inWorld world) entry) := by
    have apart : entry.tier.hotter? ≠ some entry.tier := by cases entry.tier <;> decide
    subst same
    refine ⟨found, live, lookup_touch, rfl, rfl, rfl, rfl, rfl, .inl rfl, ?_, ?_, log, departed, sinks⟩
    · exact ⟨fun up => absurd up apart, fun climbs => absurd climbs low⟩
    · exact fun _ other different => Keyed.find?_put_other _ _ different
  unfold Lifts at lifts
  cases hotter : entry.tier.hotter? with
  | none =>
      rw [hotter] at lifts
      refine ⟨_, stays lifts ?_⟩
      rintro ⟨target, up, -⟩
      cases hotter.symm.trans up
  | some target =>
      rw [hotter] at lifts
      simp only [] at lifts
      split at lifts
      · rename_i may
        have different := Tier.ne_of_colder (Tier.hotter_eq_some_iff.mp hotter)
        refine ⟨_, found, live, lifts, rfl, rfl, rfl, rfl, rfl, .inr hotter, ?_, ?_, log, departed, sinks⟩
        · exact ⟨fun _ => ⟨target, hotter, may⟩, fun _ => hotter⟩
        · exact fun same => absurd same different
      · rename_i low
        refine ⟨_, stays lifts ?_⟩
        rintro ⟨other, up, may⟩
        cases hotter.symm.trans up
        exact low may

end CacheState

namespace TieredCache

open TierVault.Action CacheState

variable {setup : CacheSetup World} {storable : Value → Prop} {sound : World → Prop}
  {shelves : World → Tier → Shelf} {newest : String → Option Value} {state final : CacheState World}
  {key : String} {entry : Entry} {value : Value} {tier target : Tier} {needed : Nat}
  {kept : List String}

/-- Nothing leaves for what the tier cannot hold. -/
theorem leads_makeRoom_of_large (agrees : Agrees setup storable sound shelves newest state)
    (large : setup.tiers.capacity tier < needed) :
    Leads AnyFault (makeRoom setup tier needed kept) state fun roomed final =>
      roomed = false ∧ final = state := by
  rw [← agrees.balanced.capacity tier] at large
  rw [makeRoom_eq]
  simp only [leads_bind, leads_get, if_pos large]
  exact ⟨rfl, rfl⟩

/-- An entry that fits in the hotter tier moves there, and one that does not changes nothing. -/
theorem leads_promote_if_fits (sturdy : setup.Sturdy storable sound shelves)
    (agrees : Agrees setup storable sound shelves newest state)
    (found : state.lookup key = some entry) (new : newest key = some value)
    (hotter : entry.tier.hotter? = some target) :
    Leads AnyFault (promote setup key entry.tier target value) state fun _ final =>
      if entry.size ≤ setup.tiers.capacity target
      then final.lookup key = some { entry with tier := target }
      else final = state := by
  have steady := steady_of_sturdy sturdy
  have different := (Tier.ne_of_colder (Tier.hotter_eq_some_iff.mp hotter)).symm
  rcases agrees.sized key entry found with ⟨known, same, able, size_eq⟩
  cases new.symm.trans same
  simp only [promote, leads_bind, leads_lookup, found]
  split
  · rename_i fitting
    have roomed : Leads AnyFault
        (makeRoom setup target (entry.size - state.reclaimed key target) [key]) state _ :=
      leads_makeRoom_of_fitting agrees.balanced fitting
    rw [reclaimed_elsewhere found different] at roomed
    refine Leads.imp (roomed.and (makesRoom steady target entry.size [key] state
      (orderly_of_agrees agrees) fun checked => absurd trivial checked)) ?_
    rintro _ roomy - ⟨rfl, retreat, tidy, space⟩
    have present := (retreat.lookup_of_mem (List.mem_singleton.mpr rfl)).trans found
    have fits := fits_of_elsewhere present different (space rfl)
    simp only [Bool.not_true, Bool.false_eq_true, if_false, leads_bind]
    refine leads_onStore (steady.put _ _ _) tidy.sound ?_
    intro answer written put stays
    rcases (agrees.retreat sturdy retreat).put sturdy able size_eq fits with ⟨world, taken, -⟩
    cases put.symm.trans taken
    simp only [leads_bind, leads_count, leads_record]
    refine leads_moveEntry steady stays present different (tidy.tallied.covers present)
      (fun checked => absurd trivial checked) ?_
    intro answer gone _ _
    rw [lookup_recorded, lookup_counted, lookup_relocate, if_pos rfl]
  · rename_i large
    refine (leads_makeRoom_of_large agrees (Nat.not_le.mp large)).imp ?_
    rintro _ roomy - ⟨rfl, rfl⟩
    rfl

/-- The entry of the key is noted, and moves one tier up if it may. -/
theorem leads_hit_lifts {now : Nat} (sturdy : setup.Sturdy storable sound shelves)
    (agrees : Agrees setup storable sound shelves newest state)
    (found : state.lookup key = some entry) (new : newest key = some value) :
    Leads AnyFault (TieredCache.hit setup key entry.tier value now) state fun _ final =>
      Lifts setup key entry now state final := by
  have tidy := ((agrees.touch found).counted fun counters =>
    { counters with hits := counters.hits + 1 }).recorded "get" "hit"
  have present : (touch setup state key entry).hit.lookup key = some (touched setup state entry) :=
    lookup_touch
  simp only [TieredCache.hit, Lifts, leads_bind, leads_touchEntry found, leads_count, leads_record]
  cases hotter : entry.tier.hotter? with
  | none => exact rfl
  | some target =>
      simp only []
      split
      · rename_i often
        simp only [leads_bind, leads_pure, often, true_and]
        exact leads_promote_if_fits sturdy tidy present new hotter
      · rename_i seldom
        exact (if_neg fun both => seldom both.1).mpr rfl

/-- A read that finds a value has found the newest one, and is noted in the entry. -/
theorem leads_get_lifts (sturdy : setup.Sturdy storable sound shelves)
    (agrees : Agrees setup storable sound shelves newest state) :
    Leads AnyFault (TieredCache.get setup key) state fun answer final =>
      ∀ value, answer = some value → newest key = some value ∧
        ∃ entry world, state.lookup key = some entry ∧
          entry.isExpired (setup.clock state.readings) = false ∧
            Lifts setup key entry (setup.clock state.readings) (state.timed.inWorld world) final := by
  have steady := steady_of_sturdy sturdy
  simp only [TieredCache.get, leads_bind, leads_readClock, leads_lookup, lookup_timed]
  cases found : state.lookup key with
  | none =>
      intro value same
      cases same
  | some entry =>
      cases late : entry.isExpired (setup.clock state.readings) with
      | true =>
          simp only [late, if_true, leads_bind, leads_countExpired, leads_miss]
          refine (leads_removes steady (orderly_of_agrees agrees.timed)).imp ?_
          intro _ _ _ _ value same
          cases same
      | false =>
          simp only [late, Bool.false_eq_true, if_false, leads_bind]
          refine leads_onStore (steady.get _ _) agrees.sound ?_
          intro answer asked get _
          have read := agrees.newest_of_get sturdy found get
          rcases agrees.sized key entry found with ⟨value, new, -⟩
          rw [new] at read
          subst read
          have here := (agrees.timed.get sturdy get).2
          have again : (state.timed.inWorld asked).lookup key = some entry := found
          refine Leads.imp (Leads.and (leads_hit_lifts sturdy here again new)
            (leads_hit steady (orderly_of_agrees here) again)) ?_
          rintro _ final - ⟨lifts, rfl, -⟩ answered same
          cases same
          exact ⟨new, entry, asked, rfl, late, lifts⟩

/-- In every state that a healthy cache has come to, a read that finds a value finds the latest one. Its
entry is noted to be read once more and moves one tier up exactly if it is read often enough and fits there.
Otherwise all entries stay. If it moves, others may move to colder tiers or be evicted; cache and stores still
agree on the values. -/
theorem hit_effect (setup : CacheSetup World) (sturdy : setup.Sturdy storable sound shelves)
    (world : World) (isSound : sound world) (bare : ∀ tier, shelves world tier = .empty)
    (calls : List CacheCall) (offers : ∀ call ∈ calls, call.Offers storable)
    {history : List CacheEvent} {state : CacheState World}
    (reached : runAll setup calls (.start setup world) = .ok history state)
    {key : String} {value : Value} {final : CacheState World}
    (hit : TieredCache.get setup key state = .ok (some value) final) :
    latest key history = some value ∧ InAgreement setup history final ∧
      ∃ before after, Notes setup key state final before after := by
  have agrees := agrees_of_runAll sturdy isSound bare offers reached
  have reads : Reads setup key state (some value) final :=
    outcome_of_ok agrees.balanced.toTallied (.get key) hit
  obtain ⟨new, entry, asked, found, live, lifts⟩ :=
    (leads_get_lifts sturdy agrees).of_ok hit value rfl
  have explained := (explained_get sturdy agrees).of_ok hit
  have after := inAgreement_of_agrees sturdy (reads.agrees sturdy agrees).1
  exact ⟨new, after, entry, lifts.notes found live explained⟩

/-- Every read is often enough. Values of 30 bytes or more begin in the database. -/
def eager : CacheSetup (PerTier MemoryWorld) :=
  .inMemory { budgets := ⟨60, 100, 100, 100⟩, memoryLimit := 30, promotionThreshold := .zero } none id

theorem leads_eager : Leads (fun _ => False)
    (runAll eager [.put "k" (zeros 28) none, .put "v" (zeros 13) none])
    (.start eager (.const [])) fun _ state =>
      ((state.lookup "k").map Entry.tier = some .sqlite ∧
        (state.lookup "v").map Entry.tier = some .memory) ∧
      Leads (fun _ => False) (TieredCache.get eager "k") state fun answer final =>
        answer.isSome = true ∧ (final.lookup "k").map Entry.tier = some .memory ∧
          (final.lookup "v").map Entry.tier = some .sqlite := by
  decide +kernel

/-- A value comes up into memory, and what was there makes room in the database. -/
theorem hit_effect_eager :
    ∃ history state value final,
      runAll eager [.put "k" (zeros 28) none, .put "v" (zeros 13) none]
          (.start eager (.const [])) = .ok history state ∧
        TieredCache.get eager "k" state = .ok (some value) final ∧
        (state.lookup "k").map Entry.tier = some .sqlite ∧
        (final.lookup "k").map Entry.tier = some .memory ∧
        (state.lookup "v").map Entry.tier = some .memory ∧
        (final.lookup "v").map Entry.tier = some .sqlite ∧
        latest "k" history = some value ∧ InAgreement eager history final ∧
          ∃ before after, Notes eager "k" state final before after := by
  rcases leads_eager.ends (fun _ => id) with ⟨history, state, reached, ⟨low, high⟩, leads⟩
  rcases leads.ends (fun _ => id) with ⟨answer, final, ended, hits, risen, sunk⟩
  obtain ⟨value, rfl⟩ := Option.isSome_iff_exists.mp hits
  have isSound (tier : Tier) : MemoryStore.Sound ((PerTier.const []).get tier) := by
    cases tier <;> exact ⟨List.nodup_nil, by simp⟩
  have bare (tier : Tier) : MemoryStore.shelf ((PerTier.const []).get tier) = .empty := by
    cases tier <;> rfl
  have sturdy : eager.Sturdy (fun _ => True) _ _ := CacheSetup.inMemory_sturdy _ none id
  have offers : ∀ call ∈ [CacheCall.put "k" (zeros 28) none, .put "v" (zeros 13) none],
      call.Offers fun _ => True := by
    intro call _
    cases call <;> trivial
  exact ⟨history, state, value, final, reached, ended, low, risen, high, sunk,
    hit_effect eager sturdy _ isSound bare _ offers reached ended⟩

end TieredCache

end TierVault
