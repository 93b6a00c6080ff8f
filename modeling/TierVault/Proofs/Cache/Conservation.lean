import TierVault.Proofs.Cache.Accounting

/-!
No entry of a tiered cache is lost unnoticed, whatever the stores answer.

An entry comes with a put of a key that has none. It goes with a delete that tells so, or one of the counts
tells that it is gone: of evictions, of expirations, and of reads whose payload was missing or could not be
read. What is written over, demoted or promoted stays one entry.
-/

namespace TierVault

variable {World : Type}

/-! ## What comes and goes -/

/-- A delete of a key that had an entry. -/
def CacheEvent.deletes : CacheEvent → Bool
  | ⟨.delete _, removed⟩ => removed
  | _ => false

/-- By its answer, the call was a put of a key that has no entry in the state. -/
def CacheCall.brings (state : CacheState World) : (call : CacheCall) → call.Answer → Bool
  | put key _ _, taken => taken && (state.lookup key).isNone
  | _, _ => false

/-- How many puts of the run are taken whose key has no entry just before. -/
def TieredCache.arrivals (setup : CacheSetup World) : List CacheCall → CacheState World → Nat
  | [], _ => 0
  | call :: later, state =>
    match call.run setup state with
    | .ok answer next => (call.brings state answer).toNat + arrivals setup later next
    | .error .. => 0

namespace CacheState

/-- The entries that counters and metrics tell are gone. -/
def gone (state : CacheState World) : Nat :=
  state.counters.expirations + state.counters.evictions + state.metrics.count "get" "stale" +
    state.metrics.count "get" "error"

/-- The entries that are there or that a count tells are gone. -/
def known (state : CacheState World) : Nat := state.entries.length + state.gone

variable {setup : CacheSetup World} {state middle final : CacheState World} {key : String}
  {entry : Entry} {value : Value} {tier target hottest : Tier} {kept : List String}
  {lifetime? : Option Nat}

@[simp] theorem known_start (world : World) : (CacheState.start setup world).known = 0 := rfl

section Fields

variable (state)

@[simp] theorem known_inWorld (world : World) : (state.inWorld world).known = state.known := rfl

@[simp] theorem known_timed : state.timed.known = state.known := rfl

@[simp] theorem known_ticked : state.ticked.known = state.known := rfl

@[simp] theorem known_expired (amount : Nat) :
    (state.expired amount).known = state.known + amount := by
  simp only [known, gone, expired, counted]
  omega

/-- Only two outcomes that are recorded tell of a loss. -/
theorem known_recorded {operation outcome : String}
    (stale : (Series.mk "get" "stale").mark ≠ (Series.mk operation outcome).mark)
    (error : (Series.mk "get" "error").mark ≠ (Series.mk operation outcome).mark) :
    (state.recorded operation outcome).known = state.known := by
  have keepsStale := Metrics.countIn_addIn_other 1 state.metrics.counts stale
  have keepsError := Metrics.countIn_addIn_other 1 state.metrics.counts error
  simp only [known, gone, recorded, Metrics.count, Metrics.record, keepsStale, keepsError]

theorem known_recorded_stale :
    (state.recorded "get" "stale").known = state.known + 1 := by
  have counts := Metrics.countIn_addIn_same ⟨"get", "stale"⟩ 1 state.metrics.counts
  have differs : (Series.mk "get" "error").mark ≠ (Series.mk "get" "stale").mark := by decide
  have keeps := Metrics.countIn_addIn_other 1 state.metrics.counts differs
  simp only [known, gone, recorded, Metrics.count, Metrics.record, counts, keeps]
  omega

theorem known_recorded_error :
    (state.recorded "get" "error").known = state.known + 1 := by
  have counts := Metrics.countIn_addIn_same ⟨"get", "error"⟩ 1 state.metrics.counts
  have differs : (Series.mk "get" "stale").mark ≠ (Series.mk "get" "error").mark := by decide
  have keeps := Metrics.countIn_addIn_other 1 state.metrics.counts differs
  simp only [known, gone, recorded, Metrics.count, Metrics.record, counts, keeps]
  omega

@[simp] theorem known_evicted : state.evicted.known = state.known + 1 := by
  unfold evicted
  rw [known_recorded _ (by decide) (by decide)]
  simp only [known, gone, counted]
  omega

@[simp] theorem known_demoted : state.demoted.known = state.known :=
  known_recorded _ (by decide) (by decide)

@[simp] theorem known_promoted : state.promoted.known = state.known :=
  known_recorded _ (by decide) (by decide)

@[simp] theorem known_hit : state.hit.known = state.known :=
  known_recorded _ (by decide) (by decide)

end Fields

theorem known_enroll (fresh : state.lookup key = none) :
    (state.enroll key entry).known = state.known + 1 := by
  have longer : (Keyed.put key entry state.entries).length = state.entries.length + 1 :=
    Keyed.length_put_of_find?_eq_none fresh
  change (Keyed.put key entry state.entries).length + state.gone = _
  rw [longer, known]
  omega

theorem known_insert {size : Nat} (fresh : state.lookup key = none) :
    (insert setup state key size tier lifetime?).known = state.known + 1 := by
  have still : state.ticked.timed.lookup key = none := fresh
  exact known_enroll still

theorem known_forget (tallied : state.Tallied setup) (found : state.lookup key = some entry) :
    (state.forget key entry).known + 1 = state.known := by
  have shorter := Keyed.length_remove tallied.distinct found
  change (Keyed.remove key state.entries).length + state.gone + 1 = _
  rw [known]
  omega

theorem known_relocate (found : state.lookup key = some entry) :
    (state.relocate key entry target).known = state.known :=
  congrArg (· + state.gone) (Keyed.length_put_of_find? found)

theorem known_touch (found : state.lookup key = some entry) :
    (touch setup state key entry).known = state.known :=
  congrArg (· + state.gone) (Keyed.length_put_of_find? found)

/-! ## What each outcome makes of it -/

theorem Removes.known_eq {removed : Bool} (removes : Removes setup key state removed final)
    (start : state.Tallied setup) : final.known + removed.toNat = state.known := by
  cases removes with
  | missing => rfl
  | removed found => exact known_forget start found

theorem Removes.lookup_other {removed : Bool} (removes : Removes setup key state removed final)
    {asked : String} (different : asked ≠ key) : final.lookup asked = state.lookup asked := by
  cases removes with
  | missing => rfl
  | removed => rw [lookup_inWorld, lookup_forget, if_neg different]

/-- Where each of the keys has an entry and stands once, as many entries go. -/
theorem RemovesAll.known_eq {keys : List String} (removes : RemovesAll setup keys state final)
    (start : state.Tallied setup) (once : keys.Nodup)
    (present : ∀ key ∈ keys, state.lookup key ≠ none) :
    final.known + keys.length = state.known := by
  induction removes with
  | nil => rfl
  | @cons key keys state removed middle final first rest induction =>
      rcases List.nodup_cons.mp once with ⟨fresh, distinct⟩
      have out := first.known_eq start
      have wasThere : removed = true := by
        cases first with
        | missing unknown => exact absurd unknown (present key List.mem_cons_self)
        | removed => rfl
      have others (other : String) (member : other ∈ keys) : middle.lookup other ≠ none := by
        have different : other ≠ key := fun same => fresh (same ▸ member)
        rw [first.lookup_other different]
        exact present other (List.mem_cons_of_mem _ member)
      have onward := induction (first.restrained start).tallied distinct others
      rw [wasThere] at out
      rw [List.length_cons]
      exact (congrArg (· + 1) onward).trans out

theorem Cleans.known_eq {answer : Nat} (cleans : Cleans setup state answer final)
    (start : state.Tallied setup) : final.known = state.known := by
  cases cleans with
  | @cleaned middle removed =>
      have once : (state.expiredKeys (setup.clock state.readings)).Nodup :=
        (List.filter_sublist.map Prod.fst).nodup start.distinct
      have present (key : String) (member : key ∈ state.expiredKeys (setup.clock state.readings)) :
          state.timed.lookup key ≠ none := by
        rcases List.mem_map.mp member with ⟨pair, expired, rfl⟩
        rw [lookup_timed, CacheState.lookup, start.distinct.find?_of_mem (List.mem_filter.mp expired).1]
        exact Option.some_ne_none _
      rw [known_expired]
      exact removed.known_eq start.timed once present

theorem Reclaims.known_eq {answer : Nat} (reclaims : Reclaims setup state answer final)
    (start : state.Tallied setup) : final.known = state.known := by
  cases reclaims with
  | reclaimed cleans => exact cleans.known_eq start.timed

theorem Has.known_eq {answer : Bool} (has : Has setup key state answer final)
    (start : state.Tallied setup) : final.known = state.known := by
  cases has with
  | missing => rfl
  | expired _ _ removed => exact (known_expired _ 1).trans (removed.known_eq start.timed)
  | present => rfl

theorem Refuses.known_eq {size : Nat} (refuses : Refuses setup key size value target state final) :
    final.known = state.known := by
  cases refuses
  rfl

theorem Moves.known_eq (moves : Moves setup key entry value target state final)
    (found : state.lookup key = some entry) : final.known = state.known := by
  cases moves with
  | followed => exact known_relocate found

/-- Every eviction is counted, and no demotion ends an entry. -/
theorem Retreat.known_eq (retreat : Retreat setup hottest kept state final)
    (start : state.Tallied setup) : final.known = state.known := by
  induction retreat with
  | stay => rfl
  | read _ _ induction => exact induction start
  | evict before found _ _ _ induction =>
      have out := known_forget (before.tallied start) found
      rw [known_evicted, known_inWorld, out]
      exact induction start
  | stuck before _ _ _ _ _ _ refuses induction inner =>
      have room := inner ((before.tallied start).inWorld _)
      rw [refuses.known_eq, room]
      exact induction start
  | demote before found _ _ _ _ room moves induction inner =>
      have kept := room.lookup_of_mem (List.mem_append_right _ (List.mem_singleton.mpr rfl))
      have same := inner ((before.tallied start).inWorld _)
      rw [known_demoted, moves.known_eq (kept.trans found), same]
      exact induction start

theorem Rises.known_eq (rises : Rises setup key entry value state final)
    (start : state.Tallied setup) (found : state.lookup key = some entry) :
    final.known = state.known := by
  cases rises with
  | stays room => exact room.known_eq start
  | refused _ room refuses => exact refuses.known_eq.trans (room.known_eq start)
  | rises _ room moves =>
      have kept := room.lookup_of_mem (List.mem_singleton.mpr rfl)
      rw [known_promoted, moves.known_eq (kept.trans found)]
      exact room.known_eq start

theorem Reads.known_eq {answer : Option Value} (reads : Reads setup key state answer final)
    (start : state.Tallied setup) : final.known = state.known := by
  cases reads with
  | missing => exact known_recorded _ (by decide) (by decide)
  | expired _ _ removed =>
      refine (known_recorded _ (by decide) (by decide)).trans ?_
      exact (known_expired _ 1).trans (removed.known_eq start.timed)
  | stale found =>
      refine (known_recorded_stale _).trans ?_
      exact known_forget (start.timed.inWorld _) found
  | failed _ _ _ removed =>
      refine (known_recorded_error _).trans ?_
      exact removed.known_eq (start.timed.inWorld _)
  | @hit _ _ world _ found _ _ rises =>
      have touched := (start.timed.inWorld world).touch found
      refine (rises.known_eq ((touched.counted _).recorded _ _) lookup_touch).trans ?_
      exact (known_hit _).trans (known_touch found)

/-- An entry that is replaced goes for the one that comes. -/
theorem Replaces.known_eq (replaces : Replaces setup key tier state final)
    (start : state.Tallied setup) :
    final.known + (state.lookup key).isSome.toNat = state.known := by
  cases replaces with
  | nothing unknown => rw [unknown]; rfl
  | here found => rw [found]; exact known_forget start found
  | elsewhere found => rw [found]; exact known_forget start found

theorem Writes.known_eq {answer : Bool}
    (writes : Writes setup key value lifetime? state answer final) (start : state.Tallied setup) :
    final.known = state.known + (answer && (state.lookup key).isNone).toNat := by
  cases writes with
  | unserializable => exact known_recorded _ (by decide) (by decide)
  | tooLarge _ room =>
      exact (known_recorded _ (by decide) (by decide)).trans (room.known_eq start)
  | refused _ _ room refuses =>
      refine (known_recorded _ (by decide) (by decide)).trans ?_
      exact refuses.known_eq.trans (room.known_eq start)
  | @written _ _ roomy world _ _ _ room _ _ replaces =>
      have same := room.lookup_of_mem (List.mem_singleton.mpr rfl)
      have out := replaces.known_eq ((room.tallied start).inWorld world)
      have unchanged := room.known_eq start
      rw [known_recorded _ (by decide) (by decide), known_insert replaces.lookup]
      rw [lookup_inWorld, known_inWorld, same, unchanged] at out
      cases found : state.lookup key with
      | none =>
          rw [found] at out
          exact congrArg (· + 1) out
      | some old =>
          rw [found] at out
          exact out

end CacheState

namespace TieredCache

open TierVault.Action CacheState

variable {setup : CacheSetup World} {state final : CacheState World}

/-! ## Along a run -/

theorem known_of_delete {key : String} {removed : Bool} (tallied : state.Tallied setup)
    (ended : delete setup key state = .ok removed final) :
    final.known + removed.toNat = state.known := by
  have leads : Leads AnyFault (delete setup key) state fun removed final =>
      final.known + removed.toNat = state.known := by
    simp only [delete, leads_bind, leads_record, leads_pure]
    refine (leads_removes steady_of_any (orderly_of_any tallied)).imp ?_
    intro removed middle _ removes
    have out := removes.1.known_eq tallied
    cases removed with
    | true => rwa [if_pos rfl, known_recorded _ (by decide) (by decide)]
    | false => rwa [if_neg Bool.false_ne_true, known_recorded _ (by decide) (by decide)]
  exact leads.of_ok ended

/-- What a call other than a clear brings and takes. -/
theorem known_of_run (tallied : state.Tallied setup) (call : CacheCall) (ordinary : call ≠ .clear)
    {answer : call.Answer} (ended : call.run setup state = .ok answer final) :
    final.known + (CacheEvent.mk call answer).deletes.toNat =
      state.known + (call.brings state answer).toNat := by
  have outcome := outcome_of_ok tallied call ended
  cases call with
  | put => exact Writes.known_eq outcome tallied
  | get => exact Reads.known_eq outcome tallied
  | delete => exact known_of_delete tallied ended
  | has => exact Has.known_eq outcome tallied
  | clear => exact absurd rfl ordinary
  | cleanupExpired => exact Cleans.known_eq outcome tallied
  | reclaimExpired => exact Reclaims.known_eq outcome tallied

theorem known_of_runAll {calls : List CacheCall} (tallied : state.Tallied setup)
    (ordinary : ∀ call ∈ calls, call ≠ .clear) :
    Leads AnyFault (runAll setup calls) state fun history final =>
      final.known + history.countP CacheEvent.deletes =
        state.known + arrivals setup calls state := by
  induction calls generalizing state with
  | nil => rfl
  | cons call later induction =>
      simp only [runAll, leads_bind, leads_pure]
      refine leads_any.mpr fun answer middle ended => ?_
      have first := known_of_run tallied call (ordinary call List.mem_cons_self) ended
      have restrained := restrained_of_outcome (outcome_of_ok tallied call ended) tallied
      refine (induction restrained.tallied fun other member =>
        ordinary other (List.mem_cons_of_mem _ member)).imp ?_
      intro history final _ rest
      simp only [arrivals, ended]
      rw [List.countP_cons]
      cases deletes : (CacheEvent.mk call answer).deletes with
      | true =>
          rw [deletes, Bool.toNat_true] at first
          rw [if_pos rfl]
          omega
      | false =>
          rw [deletes, Bool.toNat_false] at first
          rw [if_neg Bool.false_ne_true]
          omega

/-- After every run without a clear, the entries are the puts of keys that had none, less the deletes that
found one, less the expirations, the evictions and the reads that found the payload missing or failed. -/
theorem runAll_conserves_entries (setup : CacheSetup World) (world : World)
    (calls : List CacheCall) (ordinary : ∀ call ∈ calls, call ≠ .clear)
    {history : List CacheEvent} {final : CacheState World}
    (ended : runAll setup calls (.start setup world) = .ok history final) :
    final.entries.length + history.countP CacheEvent.deletes + final.counters.expirations +
      final.counters.evictions + final.metrics.count "get" "stale" +
      final.metrics.count "get" "error" = arrivals setup calls (.start setup world) := by
  have conserved := (known_of_runAll (.start world) ordinary).of_ok ended
  rw [known_start] at conserved
  unfold known gone at conserved
  omega

/-- The stores cannot be read. Two entries are evicted for others, and one is deleted, one expires and the
payload of one is asked for. -/
def unreadableCalls : List CacheCall :=
  [.put "left" .null none, .put "right" .null none, .get "right", .put "left" .null none,
    .delete "left", .put "right" .null none, .put "right" (.flag true) none,
    .put "late" .null (some 0), .cleanupExpired]

theorem runAll_conserves_entries_unreadable :
    let setup := CacheSetup.switched { budgets := ⟨5, 5, 5, 0⟩ } none id
    let world := PerTier.const ⟨[.get], []⟩
    ∃ history final, runAll setup unreadableCalls (.start setup world) = .ok history final ∧
      final.entries.length + history.countP CacheEvent.deletes + final.counters.expirations +
        final.counters.evictions + final.metrics.count "get" "stale" +
        final.metrics.count "get" "error" = arrivals setup unreadableCalls (.start setup world) := by
  intro setup world
  have answers : setup.Answers :=
    CacheSetup.answers_of_stores (CacheSetup.switched_answers _ none id)
  have leads := leads_runAll answers (orderly_start world trivial) unreadableCalls fun _ =>
    sumsFit_of_capacities answers (.start world) (by decide)
  obtain ⟨history, final, ended, -⟩ := leads.ends nofun
  have ordinary : ∀ call ∈ unreadableCalls, call ≠ .clear := by
    simp [unreadableCalls]
  exact ⟨history, final, ended, runAll_conserves_entries setup world unreadableCalls ordinary ended⟩

/-- Of the puts, all came in but the second of two on end. -/
example :
    let setup := CacheSetup.switched { budgets := ⟨5, 5, 5, 0⟩ } none id
    arrivals setup unreadableCalls (.start setup (.const ⟨[.get], []⟩)) = 5 := by decide +kernel

end TieredCache

end TierVault
