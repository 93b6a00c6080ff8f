import TierVault.Proofs.Cache.Cleaning
import TierVault.Proofs.Cache.Quiet

/-!
When entries end.

The put that makes an entry fixes when its life begins and how long it lasts. Entries are moved from tier to tier,
read, and written anew beside others, but no life is begun again or made longer: of all changes of a cache, only
the put that is taken gives one.
-/

namespace TierVault

variable {World : Type}

/-! ## Lives -/

/-- From when an entry lives, and for how long. -/
structure Life where
  createdAt : Nat
  lifetime? : Option Nat
  deriving DecidableEq

/-- The life is over at the time. Without a lifetime it never is. -/
def Life.OverAt (life : Life) (time : Nat) : Prop :=
  ∃ lifetime, life.lifetime? = some lifetime ∧ life.createdAt + lifetime ≤ time

def Entry.life (entry : Entry) : Life := ⟨entry.createdAt, entry.lifetime?⟩

/-- From its creation on, an entry is expired exactly when its life is over. -/
theorem Entry.isExpired_iff {entry : Entry} {now : Nat} (born : entry.createdAt ≤ now) :
    entry.isExpired now = true ↔ entry.life.OverAt now := by
  unfold isExpired Life.OverAt life
  cases entry.lifetime? with
  | none => simp
  | some lifetime =>
      simp only [decide_eq_true_eq, Option.some.injEq, exists_eq_left']
      omega

/-- The life that a call gives the key, as of its answer: a put of the key that is taken gives one from the time
that it reads, as long as it asks for, or else as long as the default. -/
def CacheCall.gives (setup : CacheSetup World) (key : String) (state : CacheState World) :
    (call : CacheCall) → call.Answer → Option Life
  | put other _ lifetime?, taken =>
    if taken && other = key then
      some ⟨setup.clock state.readings, lifetime? <|> setup.defaultLifetime?⟩
    else none
  | _, _ => none

/-- The life that the last put of the key that is taken gives, along a run. -/
def TieredCache.lastLife (setup : CacheSetup World) (key : String) :
    List CacheCall → CacheState World → Option Life
  | [], _ => none
  | call :: later, state =>
    match call.run setup state with
    | .ok answer next => lastLife setup key later next <|> call.gives setup key state answer
    | .error .. => none

namespace CacheState

variable {setup : CacheSetup World} {state final : CacheState World} {key asked : String} {entry : Entry}
  {life : Life}

/-- The life of the key's entry. -/
def life? (state : CacheState World) (key : String) : Option Life := (state.lookup key).map Entry.life

theorem life?_of_lookup (found : state.lookup key = some entry) : state.life? key = some entry.life := by
  rw [life?, found]
  rfl

/-! ## What no life begins with -/

theorem life?_touch (found : state.lookup key = some entry) :
    (touch setup state key entry).life? asked = state.life? asked := by
  unfold life?
  by_cases own : asked = key
  · rw [own, lookup_touch, found]
    rfl
  · rw [lookup_touch_other own]

theorem life?_relocate (found : state.lookup key = some entry) (target : Tier) :
    (state.relocate key entry target).life? asked = state.life? asked := by
  unfold life?
  rw [lookup_relocate]
  split
  · rename_i own
    rw [own, found]
    rfl
  · rfl

/-- Quiet changes may end a life, but begin none. -/
theorem Quiet.life? (quiet : Quiet state final) (lives : final.life? asked = some life) :
    state.life? asked = some life := by
  induction quiet with
  | refl => exact lives
  | inWorld _ _ induction => exact induction lives
  | timed _ induction => exact induction lives
  | forget _ _ induction =>
      unfold CacheState.life? at lives
      rw [lookup_forget] at lives
      split at lives
      · cases lives
      · exact induction lives
  | relocate _ found target induction =>
      rw [life?_relocate found] at lives
      exact induction lives
  | evicted _ induction => exact induction lives
  | demoted _ induction => exact induction lives
  | promoted _ induction => exact induction lives
  | expired _ _ induction => exact induction lives

theorem Quiet.readings_le (quiet : Quiet state final) : state.readings ≤ final.readings := by
  induction quiet with
  | timed _ induction => exact Nat.le_succ_of_le induction
  | _ => first | exact Nat.le_refl _ | assumption

theorem Empties.readings {tiers : List Tier} (empties : Empties setup tiers state final) :
    final.readings = state.readings := by
  induction empties with
  | nil => rfl
  | cons _ _ induction => exact induction

/-! ## After each call -/

/-- What a call makes of the lives: every one was there, or the call gave it, and at the time that it read. -/
structure HandsOn (setup : CacheSetup World) (state : CacheState World) (gives : String → Option Life)
    (final : CacheState World) : Prop where
  lives : ∀ key life, final.life? key = some life → (gives key <|> state.life? key) = some life
  readings : state.readings ≤ final.readings
  given : ∀ key life, gives key = some life →
    life.createdAt = setup.clock state.readings ∧ state.readings < final.readings

theorem HandsOn.of_lives (lives : ∀ key life, final.life? key = some life → state.life? key = some life)
    (readings : state.readings ≤ final.readings) : HandsOn setup state (fun _ => none) final :=
  ⟨lives, readings, nofun⟩

/-- What is counted and recorded after the quiet changes does not matter. -/
theorem Quiet.handsOn {middle : CacheState World} (quiet : Quiet state middle)
    (entries : final.entries = middle.entries) (readings : final.readings = middle.readings) :
    HandsOn setup state (fun _ => none) final := by
  refine .of_lives (fun key life lives => quiet.life? ?_) (readings ▸ quiet.readings_le)
  unfold CacheState.life? CacheState.lookup at lives ⊢
  rwa [entries] at lives

/-- A put that is taken gives its key a life, and no other. -/
theorem Writes.handsOn {value : Value} {lifetime? : Option Nat}
    (writes : Writes setup key value lifetime? state true final) :
    HandsOn setup state
      (fun asked => (CacheCall.put key value lifetime?).gives setup asked state true) final := by
  obtain ⟨middle, size, tier, quiet, -, readings, rfl⟩ := writes.of_true
  have timed : state.readings < middle.readings + 1 := by omega
  refine ⟨fun asked life lives => ?_, Nat.le_of_lt timed, fun asked life gives => ?_⟩
  · unfold CacheState.life? at lives
    rw [lookup_recorded, lookup_insert] at lives
    by_cases own : asked = key
    · subst own
      simpa [CacheCall.gives, Entry.life, Entry.create, readings] using lives
    · rw [if_neg own] at lives
      simpa [CacheCall.gives, Ne.symm own] using quiet.life? lives
  · simp only [CacheCall.gives, Bool.true_and, decide_eq_true_eq] at gives
    split at gives
    · cases gives
      exact ⟨rfl, timed⟩
    · cases gives

theorem handsOn_of_outcome {call : CacheCall} {answer : call.Answer}
    (outcome : call.Outcome setup state answer final) :
    HandsOn setup state (fun key => call.gives setup key state answer) final := by
  cases call with
  | put key value lifetime? =>
      cases answer with
      | true => exact Writes.handsOn outcome
      | false =>
          obtain ⟨middle, _, -, quiet, rfl⟩ | rfl := Writes.of_false outcome
          · exact quiet.handsOn rfl rfl
          · exact (Quiet.refl state).handsOn rfl rfl
  | get key =>
      cases answer with
      | none =>
          obtain ⟨middle, _, -, quiet, rfl⟩ := Reads.of_none outcome
          exact quiet.handsOn rfl rfl
      | some value =>
          obtain ⟨before, entry, early, found, late⟩ := Reads.of_some outcome
          have readings : before.readings + 1 ≤ final.readings := late.readings_le
          refine .of_lives (fun asked life lives => ?_) ?_
          · have touched := late.life? lives
            exact early.life? ((life?_touch found).symm.trans touched)
          · exact Nat.le_trans early.readings_le (Nat.le_of_succ_le readings)
  | delete key =>
      cases outcome with
      | deleted removes => exact removes.quiet.handsOn rfl rfl
  | has key => exact (Has.quiet outcome).handsOn rfl rfl
  | clear =>
      cases outcome with
      | cleared empties => exact .of_lives nofun (Nat.le_of_eq empties.readings.symm)
  | cleanupExpired => exact (Cleans.quiet outcome).handsOn rfl rfl
  | reclaimExpired => exact (Reclaims.quiet outcome).handsOn rfl rfl

end CacheState

namespace TieredCache

open TierVault.Action CacheState

variable {faults : Fault → Prop} {setup : CacheSetup World} {sound : World → Prop}
  {state final : CacheState World} {key : String} {life : Life}

/-! ## Along a run -/

theorem readings_le_of_runAll {calls : List CacheCall} (tallied : state.Tallied setup) :
    Leads AnyFault (runAll setup calls) state fun _ final => state.readings ≤ final.readings := by
  induction calls generalizing state with
  | nil => exact Nat.le_refl _
  | cons call later induction =>
      simp only [runAll, leads_bind, leads_pure]
      refine leads_any.mpr fun answer middle ended => ?_
      have outcome := outcome_of_ok tallied call ended
      have first := (handsOn_of_outcome outcome).readings
      refine (induction (restrained_of_outcome outcome tallied).tallied).imp ?_
      exact fun _ final _ rest => Nat.le_trans first rest

/-- A life that is there at the end of a run was given by the last put of its key, or before the run. -/
theorem lastLife_of_runAll {calls : List CacheCall} (tallied : state.Tallied setup) :
    Leads AnyFault (runAll setup calls) state fun _ final =>
      ∀ key life, final.life? key = some life →
        (lastLife setup key calls state <|> state.life? key) = some life := by
  induction calls generalizing state with
  | nil => exact fun key life lives => lives
  | cons call later induction =>
      simp only [runAll, leads_bind, leads_pure]
      refine leads_any.mpr fun answer middle ended => ?_
      have outcome := outcome_of_ok tallied call ended
      have first := (handsOn_of_outcome outcome).lives
      refine (induction (restrained_of_outcome outcome tallied).tallied).imp ?_
      intro _ final _ rest key life lives
      have later := rest key life lives
      simp only [lastLife, ended]
      cases given : lastLife setup key _ middle with
      | some other =>
          rw [given] at later
          exact later
      | none =>
          rw [given] at later
          exact first key life later

/-- Every life was begun at some reading of the run. -/
theorem created_of_lastLife {calls : List CacheCall} (tallied : state.Tallied setup) :
    Leads AnyFault (runAll setup calls) state fun _ final =>
      ∀ key life, lastLife setup key calls state = some life →
        ∃ reading < final.readings, life.createdAt = setup.clock reading := by
  induction calls generalizing state with
  | nil => exact nofun
  | cons call later induction =>
      simp only [runAll, leads_bind, leads_pure]
      refine leads_any.mpr fun answer middle ended => ?_
      have outcome := outcome_of_ok tallied call ended
      have handed := handsOn_of_outcome outcome
      have books := (restrained_of_outcome outcome tallied).tallied
      refine ((induction books).and (readings_le_of_runAll books)).imp ?_
      rintro _ final - ⟨rest, readings⟩ key life given
      simp only [lastLife, ended] at given
      cases last : lastLife setup key _ middle with
      | some other =>
          rw [last] at given
          cases given
          exact rest key _ last
      | none =>
          rw [last] at given
          obtain ⟨created, timed⟩ := handed.given key life given
          exact ⟨state.readings, Nat.lt_of_lt_of_le timed readings, created⟩

/-! ## After the end of a life -/

/-- A read of a key whose entry is expired, or that has none, finds nothing. -/
theorem leads_get_late (steady : setup.Steady faults sound) (tallied : state.Tallied setup)
    (isSound : sound state.world)
    (late : ∀ entry, state.lookup key = some entry → entry.isExpired (setup.clock state.readings) = true) :
    Leads faults (get setup key) state fun answer _ => answer = none := by
  simp only [get, leads_bind, leads_readClock, leads_lookup, lookup_timed]
  cases found : state.lookup key with
  | none => exact rfl
  | some entry =>
      simp only [late entry found, if_true, leads_bind, leads_countExpired, leads_miss]
      exact (leads_removeEntry_of_tallied steady tallied.timed isSound key).imp fun _ _ _ _ => trivial

theorem leads_has_late (steady : setup.Steady faults sound) (tallied : state.Tallied setup)
    (isSound : sound state.world)
    (late : ∀ entry, state.lookup key = some entry → entry.isExpired (setup.clock state.readings) = true) :
    Leads faults (has setup key) state fun answer _ => answer = false := by
  simp only [has, leads_bind, leads_lookup]
  cases found : state.lookup key with
  | none => exact rfl
  | some entry =>
      simp only [leads_bind, leads_readClock, late entry found, if_true, leads_countExpired, leads_pure]
      exact (leads_removeEntry_of_tallied steady tallied.timed isSound key).imp fun _ _ _ _ => trivial

/-- In every state that a run comes to, with a clock that does not run back and whatever the stores do, an entry has
the life that the last put of its key that was taken gave it. Once that life is over, the key is neither found nor
there; and a cleanup leaves exactly the entries whose lives are not over at its reading of the clock. Where the
stores answer, the three end. -/
theorem runAll_lifetimes (setup : CacheSetup World)
    (forward : ∀ first second, first ≤ second → setup.clock first ≤ setup.clock second) (world : World)
    (calls : List CacheCall) {history : List CacheEvent} {state : CacheState World}
    (ended : runAll setup calls (.start setup world) = .ok history state) :
    (∀ key entry, state.lookup key = some entry →
      lastLife setup key calls (.start setup world) = some entry.life) ∧
    (∀ key life, lastLife setup key calls (.start setup world) = some life →
      life.OverAt (setup.clock state.readings) →
        (∀ answer final, get setup key state = .ok answer final → answer = none) ∧
        (∀ answer final, has setup key state = .ok answer final → answer = false) ∧
        (setup.Answers → (∃ final, get setup key state = .ok none final) ∧
          ∃ final, has setup key state = .ok false final)) ∧
    (∀ count final, cleanupExpired setup state = .ok count final → ∀ key entry,
      final.lookup key = some entry ↔
        state.lookup key = some entry ∧ ¬entry.life.OverAt (setup.clock state.readings)) ∧
    (setup.Answers → ∃ count final, cleanupExpired setup state = .ok count final) := by
  have tallied := (lives_of_ok (.start world) ended).2.tallied
  have given (key : String) (entry : Entry) (found : state.lookup key = some entry) :
      lastLife setup key calls (.start setup world) = some entry.life := by
    have lives := (lastLife_of_runAll (.start world)).of_ok ended key entry.life (life?_of_lookup found)
    simpa [life?] using lives
  have expired (key : String) (entry : Entry) (found : state.lookup key = some entry) :
      entry.isExpired (setup.clock state.readings) = true ↔ entry.life.OverAt (setup.clock state.readings) := by
    obtain ⟨reading, past, created⟩ :=
      (created_of_lastLife (.start world)).of_ok ended key entry.life (given key entry found)
    have born : entry.createdAt = setup.clock reading := created
    exact Entry.isExpired_iff (born ▸ forward _ _ (Nat.le_of_lt past))
  refine ⟨given, fun key life last gone => ?_, fun count final cleaned key entry => ?_,
    fun answers => cleanupExpired_ends answers tallied⟩
  · have late (entry : Entry) (found : state.lookup key = some entry) :
        entry.isExpired (setup.clock state.readings) = true := by
      cases last.symm.trans (given key entry found)
      exact (expired key entry found).mpr gone
    refine ⟨fun answer final read => ?_, fun answer final asked => ?_, fun answers => ⟨?_, ?_⟩⟩
    · exact (leads_get_late steady_of_any tallied trivial late).of_ok read
    · exact (leads_has_late steady_of_any tallied trivial late).of_ok asked
    · obtain ⟨answer, final, read, rfl⟩ := (leads_get_late answers tallied trivial late).ends fun _ => id
      exact ⟨final, read⟩
    · obtain ⟨answer, final, asked, rfl⟩ := (leads_has_late answers tallied trivial late).ends fun _ => id
      exact ⟨final, asked⟩
  · have cleans : Cleans setup state count final := outcome_of_ok tallied .cleanupExpired cleaned
    have kept : final.lookup key =
        (state.lookup key).filter fun entry => !entry.isExpired (setup.clock state.readings) := by
      rw [CacheState.lookup, cleans.entries tallied]
      exact tallied.distinct.find?_filter (fun entry => !entry.isExpired (setup.clock state.readings)) key
    rw [kept, Option.filter_eq_some_iff]
    refine and_congr_right fun found => ?_
    rw [← expired key entry found]
    simp

/-- Stores for one value each, and entries that live for three units of time unless they are given another life. -/
def fleeting : CacheSetup (PerTier (Switched MemoryWorld)) :=
  .switched { budgets := ⟨5, 5, 5, 5⟩ } (some 3) id

theorem leads_fleeting : Leads (fun _ => False)
    (runAll fleeting [.put "left" .null none, .put "right" .null (some 9), .get "left"])
    (.start fleeting (.const ⟨[], []⟩)) fun history state =>
      (history.map fun event => event.read?.isSome) = [false, false, true] ∧
      (state.lookup "left").map Entry.tier = some .sqlite ∧ state.readings = 4 := by
  decide +kernel

/-- An entry that was demoted and read lives as long as it was to, and no longer. -/
theorem runAll_lifetimes_demoted :
    (∀ first second, first ≤ second → fleeting.clock first ≤ fleeting.clock second) ∧
    ∃ history state entry final,
      runAll fleeting [.put "left" .null none, .put "right" .null (some 9), .get "left"]
        (.start fleeting (.const ⟨[], []⟩)) = .ok history state ∧
      state.lookup "left" = some entry ∧ entry.tier = .sqlite ∧ entry.life = ⟨0, some 3⟩ ∧
      get fleeting "left" state = .ok none final := by
  refine ⟨fun _ _ => id, ?_⟩
  obtain ⟨history, state, ended, -, there, readings⟩ := leads_fleeting.ends fun _ => id
  obtain ⟨entry, found, tier⟩ := Option.map_eq_some_iff.mp there
  obtain ⟨given, past, -⟩ := runAll_lifetimes fleeting (fun _ _ => id) _ _ ended
  have last : lastLife fleeting "left" [.put "left" .null none, .put "right" .null (some 9), .get "left"]
      (.start fleeting (.const ⟨[], []⟩)) = some ⟨0, some 3⟩ := by decide +kernel
  have life : entry.life = ⟨0, some 3⟩ := Option.some.inj ((given "left" entry found).symm.trans last)
  have late : (⟨0, some 3⟩ : Life).OverAt (fleeting.clock state.readings) := by
    rw [readings]
    exact ⟨3, rfl, by decide⟩
  have answers : fleeting.Answers := CacheSetup.answers_of_stores (CacheSetup.switched_answers _ (some 3) id)
  obtain ⟨final, read⟩ := ((past "left" _ last late).2.2 answers).1
  exact ⟨history, state, entry, final, ended, found, tier, life, read⟩

end TieredCache

end TierVault
