import Mathlib.Algebra.GroupWithZero.Nat
import TierVault.Proofs.Cache.Accounting
import TierVault.Proofs.Cache.Quiet

/-!
The counters of a tiered cache and its metrics tell the same.

Both are kept by statements of their own, on every way through every operation. A counter that moves goes with a
series of the metrics that is recorded, and the gauges of a tier are set whenever its counts are.
-/

namespace TierVault

variable {World : Type}

/-! ## Series

Series are told apart by a digest of their two words. Those that a cache records have different digests. -/

/-- The series that a cache records. -/
def Series.ofCache : List Series :=
  [⟨"get", "hit"⟩, ⟨"get", "miss"⟩, ⟨"get", "expired"⟩, ⟨"get", "stale"⟩, ⟨"get", "error"⟩, ⟨"put", "ok"⟩,
    ⟨"put", "unserializable"⟩, ⟨"put", "too_large"⟩, ⟨"put", "error"⟩, ⟨"delete", "ok"⟩, ⟨"delete", "missing"⟩,
    ⟨"evict", "ok"⟩, ⟨"demote", "ok"⟩, ⟨"promote", "ok"⟩]

theorem Series.eq_of_mark :
    ∀ one ∈ ofCache, ∀ other ∈ ofCache, one.mark = other.mark → one = other := by
  decide +kernel

/-- What one record does to the counters that are kept beside the series. -/
def Counters.after (counters : Counters) (series : Series) : Counters :=
  { counters with
    hits := counters.hits + if series = ⟨"get", "hit"⟩ then 1 else 0
    misses := counters.misses + if series.operation = "get" ∧ series.outcome ≠ "hit" then 1 else 0
    evictions := counters.evictions + if series = ⟨"evict", "ok"⟩ then 1 else 0
    promotions := counters.promotions + if series = ⟨"promote", "ok"⟩ then 1 else 0
    demotions := counters.demotions + if series = ⟨"demote", "ok"⟩ then 1 else 0
    writeFailures := counters.writeFailures +
      if series = ⟨"put", "too_large"⟩ ∨ series = ⟨"put", "error"⟩ then 1 else 0 }

namespace Metrics

variable {metrics : Metrics}

/-- The counters that the series amount to. Expirations have no series. -/
def counters (metrics : Metrics) (expirations : Nat) : Counters where
  hits := metrics.count "get" "hit"
  misses := metrics.count "get" "miss" + metrics.count "get" "expired" + metrics.count "get" "stale" +
    metrics.count "get" "error"
  evictions := metrics.count "evict" "ok"
  promotions := metrics.count "promote" "ok"
  demotions := metrics.count "demote" "ok"
  expirations := expirations
  writeFailures := metrics.count "put" "error" + metrics.count "put" "too_large"

theorem count_record {operation outcome asked result : String} (known : ⟨operation, outcome⟩ ∈ Series.ofCache)
    (knownToo : ⟨asked, result⟩ ∈ Series.ofCache) :
    (metrics.record operation outcome).count asked result =
      metrics.count asked result + if asked = operation ∧ result = outcome then 1 else 0 := by
  unfold count record
  split
  · rename_i same
    rw [same.1, same.2]
    exact countIn_addIn_same _ 1 _
  · rename_i different
    refine countIn_addIn_other 1 _ fun same => different ?_
    cases Series.eq_of_mark _ knownToo _ known same
    exact ⟨rfl, rfl⟩

/-- A record moves the counter that its series belongs to, and no other. -/
theorem counters_record (metrics : Metrics) {series : Series} (known : series ∈ Series.ofCache) (expirations : Nat) :
    (metrics.record series.operation series.outcome).counters expirations =
      (metrics.counters expirations).after series := by
  simp (disch := decide) only [counters, Counters.after, count_record known]
  simp only [Series.ofCache, List.mem_cons, List.not_mem_nil, or_false] at known
  rcases known with rfl | rfl | rfl | rfl | rfl | rfl | rfl | rfl | rfl | rfl | rfl | rfl | rfl | rfl
  all_goals
    simp
    try omega

end Metrics

/-- The signed word that a gauge holds. -/
def Gauges.signed (word : Nat) : Int := (UInt64.ofNat word).toInt64.toInt

theorem Gauges.signed_eq {word : Nat} (small : word < 2 ^ 63) : signed word = word := by
  change (BitVec.ofNat 64 word).toInt = word
  have held : (BitVec.ofNat 64 word).toNat = word := by
    rw [BitVec.toNat_ofNat]
    exact Nat.mod_eq_of_lt (by omega)
  rw [BitVec.toInt_eq_toNat_of_lt (by omega), held]

/-! ## The state of the two -/

/-- The counters are what the series amount to, and the gauges that are set are the counts of their tiers. -/
structure CacheState.Reconciled (state : CacheState World) : Prop where
  counters : state.counters = state.metrics.counters state.counters.expirations
  gauges : ∀ tier gauges, state.metrics.tiers.get tier = some gauges →
    gauges = ⟨(state.usage.get tier).entries, (state.usage.get tier).bytes⟩

namespace CacheState

variable {setup : CacheSetup World} {state final : CacheState World} {key : String} {entry : Entry}
  {tier : Tier}

namespace Reconciled

theorem start (world : World) : (CacheState.start setup world).Reconciled where
  counters := rfl
  gauges tier gauges set := by
    cases tier <;> cases set

/-- The gauges of a tier are set with its counts. -/
theorem withUsage (reconciled : state.Reconciled) (tier : Tier) (usage : TierUsage) :
    (state.withUsage tier usage).Reconciled where
  counters := reconciled.counters
  gauges place gauges set := by
    change (PerTier.set state.metrics.tiers tier _).get place = _ at set
    by_cases own : place = tier
    · subst own
      rw [PerTier.get_set_same] at set
      cases set
      rw [usage_withUsage, PerTier.get_set_same]
    · rw [PerTier.get_set_other _ _ own] at set
      rw [usage_withUsage, PerTier.get_set_other _ _ own]
      exact reconciled.gauges place gauges set

/-- A counter moves with its series. -/
theorem noted (reconciled : state.Reconciled) (series : Series) (known : series ∈ Series.ofCache)
    {change : Counters → Counters} (moves : change state.counters = state.counters.after series) :
    ((state.counted change).recorded series.operation series.outcome).Reconciled where
  counters := by
    have recorded := state.metrics.counters_record known state.counters.expirations
    rw [← reconciled.counters, ← moves] at recorded
    have expirations : (change state.counters).expirations = state.counters.expirations := by
      rw [moves]
      rfl
    change change state.counters = (state.metrics.record _ _).counters (change state.counters).expirations
    rw [expirations]
    exact recorded.symm
  gauges := reconciled.gauges

theorem recorded (reconciled : state.Reconciled) (series : Series) (known : series ∈ Series.ofCache)
    (still : state.counters.after series = state.counters) :
    (state.recorded series.operation series.outcome).Reconciled :=
  @noted _ _ reconciled series known id still.symm

/-- Only the counters, the metrics and the counts of the tiers matter. -/
theorem congr (reconciled : state.Reconciled) (counters : final.counters = state.counters)
    (metrics : final.metrics = state.metrics) (usage : final.usage = state.usage) : final.Reconciled where
  counters := by
    rw [counters, metrics]
    exact reconciled.counters
  gauges := by
    rw [metrics, usage]
    exact reconciled.gauges

/-- Expirations are counted without a series. -/
theorem expired (reconciled : state.Reconciled) (amount : Nat) : (state.expired amount).Reconciled where
  counters := by
    have same := reconciled.counters
    simp only [CacheState.expired, counted]
    rw [same]
    rfl
  gauges := reconciled.gauges

theorem enroll (reconciled : state.Reconciled) (key : String) (entry : Entry) :
    (state.enroll key entry).Reconciled := by
  have counted := reconciled.withUsage entry.tier ((state.usage.get entry.tier).more entry.size)
  exact counted.congr rfl rfl rfl

theorem forget (reconciled : state.Reconciled) (key : String) (entry : Entry) :
    (state.forget key entry).Reconciled := by
  have counted := reconciled.withUsage entry.tier ((state.usage.get entry.tier).less entry.size)
  exact counted.congr rfl rfl rfl

theorem relocate (reconciled : state.Reconciled) (key : String) (entry : Entry) (target : Tier) :
    (state.relocate key entry target).Reconciled := by
  have out := reconciled.withUsage entry.tier ((state.usage.get entry.tier).less entry.size)
  exact (out.withUsage target _).congr rfl rfl rfl

theorem evicted (reconciled : state.Reconciled) : state.evicted.Reconciled :=
  reconciled.noted ⟨"evict", "ok"⟩ (by decide) (by simp [Counters.after])

theorem demoted (reconciled : state.Reconciled) : state.demoted.Reconciled :=
  reconciled.noted ⟨"demote", "ok"⟩ (by decide) (by simp [Counters.after])

theorem promoted (reconciled : state.Reconciled) : state.promoted.Reconciled :=
  reconciled.noted ⟨"promote", "ok"⟩ (by decide) (by simp [Counters.after])

theorem hit (reconciled : state.Reconciled) : state.hit.Reconciled :=
  reconciled.noted ⟨"get", "hit"⟩ (by decide) (by simp [Counters.after])

theorem missed (reconciled : state.Reconciled) {outcome : String}
    (known : outcome ∈ ["miss", "expired", "stale", "error"]) : (state.missed outcome).Reconciled := by
  have series : ∀ outcome ∈ ["miss", "expired", "stale", "error"],
      (⟨"get", outcome⟩ : Series) ∈ Series.ofCache ∧ outcome ≠ "hit" := by decide
  have recorded := series outcome known
  refine reconciled.noted ⟨"get", outcome⟩ recorded.1 ?_
  simp [Counters.after, recorded.2]

theorem unwritten (reconciled : state.Reconciled) {outcome : String}
    (known : outcome ∈ ["too_large", "error"]) : (state.unwritten outcome).Reconciled := by
  have series : ∀ outcome ∈ ["too_large", "error"],
      (⟨"put", outcome⟩ : Series) ∈ Series.ofCache ∧ (outcome = "too_large" ∨ outcome = "error") := by decide
  have recorded := series outcome known
  refine reconciled.noted ⟨"put", outcome⟩ recorded.1 ?_
  simp [Counters.after, recorded.2]

end Reconciled

/-! ## After each call -/

theorem Quiet.reconciled (quiet : Quiet state final) (start : state.Reconciled) : final.Reconciled := by
  induction quiet with
  | refl => exact start
  | inWorld _ _ induction => exact induction.congr rfl rfl rfl
  | timed _ induction => exact induction.congr rfl rfl rfl
  | forget _ _ induction => exact induction.forget _ _
  | relocate _ _ target induction => exact induction.relocate _ _ target
  | evicted _ induction => exact induction.evicted
  | demoted _ induction => exact induction.demoted
  | promoted _ induction => exact induction.promoted
  | expired _ amount induction => exact induction.expired amount

theorem Quiet.hits (quiet : Quiet state final) : final.counters.hits = state.counters.hits := by
  induction quiet <;> first | rfl | assumption

theorem Quiet.misses (quiet : Quiet state final) : final.counters.misses = state.counters.misses := by
  induction quiet <;> first | rfl | assumption

theorem Empties.reconciled {tiers : List Tier} (empties : Empties setup tiers state final)
    (start : state.Reconciled) : final.Reconciled := by
  induction empties with
  | nil => exact start
  | @cons tier _ state _ world _ _ _ induction =>
      have asked : (state.inWorld world).Reconciled := start.congr rfl rfl rfl
      exact induction (asked.withUsage tier _)

theorem Empties.counters {tiers : List Tier} (empties : Empties setup tiers state final) :
    final.counters = state.counters := by
  induction empties with
  | nil => rfl
  | cons _ _ induction => exact induction

end CacheState

/-- A read that found nothing. -/
def CacheEvent.misses : CacheEvent → Bool
  | ⟨.get _, answer⟩ => answer.isNone
  | _ => false

def CacheCall.reads : CacheCall → Bool
  | get _ => true
  | _ => false

namespace CacheState

/-- What an event makes of counters and metrics. -/
structure Counts (event : CacheEvent) (state final : CacheState World) : Prop where
  reconciled : state.Reconciled → final.Reconciled
  hits : final.counters.hits = state.counters.hits + event.read?.isSome.toNat
  misses : final.counters.misses = state.counters.misses + event.misses.toNat

variable {setup : CacheSetup World} {state middle final : CacheState World} {key : String} {value : Value}
  {lifetime? : Option Nat} {event : CacheEvent}

theorem Quiet.counts (quiet : Quiet state final) (other : event.call.reads = false) :
    Counts event state final := by
  obtain ⟨call, answer⟩ := event
  cases call with
  | get => cases other
  | _ => exact ⟨quiet.reconciled, quiet.hits, quiet.misses⟩

/-- A record may follow that moves neither of the two. -/
theorem Counts.followed (counts : Counts event state middle)
    (reconciled : middle.Reconciled → final.Reconciled) (hits : final.counters.hits = middle.counters.hits)
    (misses : final.counters.misses = middle.counters.misses) : Counts event state final :=
  ⟨fun start => reconciled (counts.reconciled start), hits.trans counts.hits, misses.trans counts.misses⟩

theorem Reads.counts {answer : Option Value} (reads : Reads setup key state answer final) :
    Counts ⟨.get key, answer⟩ state final := by
  cases answer with
  | none =>
      obtain ⟨middle, outcome, known, quiet, rfl⟩ := reads.of_none
      exact
        { reconciled := fun start => (quiet.reconciled start).missed known
          hits := quiet.hits
          misses := congrArg (· + 1) quiet.misses }
  | some value =>
      obtain ⟨before, entry, early, found, late⟩ := reads.of_some
      exact
        { reconciled := fun start => by
            have touched : (touch setup before key entry).Reconciled := (early.reconciled start).congr rfl rfl rfl
            exact late.reconciled touched.hit
          hits := late.hits.trans (congrArg (· + 1) early.hits)
          misses := late.misses.trans early.misses }

theorem Writes.counts {answer : Bool} (writes : Writes setup key value lifetime? state answer final) :
    Counts ⟨.put key value lifetime?, answer⟩ state final := by
  cases answer with
  | true =>
      obtain ⟨middle, size, tier, quiet, -, -, rfl⟩ := writes.of_true
      refine (quiet.counts rfl).followed (fun start => ?_) rfl rfl
      have ticked : middle.ticked.timed.Reconciled := start.congr rfl rfl rfl
      exact (ticked.enroll key _).recorded ⟨"put", "ok"⟩ (by decide) (by simp [Counters.after])
  | false =>
      obtain ⟨middle, outcome, known, quiet, rfl⟩ | rfl := writes.of_false
      · exact (quiet.counts rfl).followed (fun start => start.unwritten known) rfl rfl
      · refine ((Quiet.refl state).counts rfl).followed (fun start => ?_) rfl rfl
        exact start.recorded ⟨"put", "unserializable"⟩ (by decide) (by simp [Counters.after])

theorem Clears.counts (clears : Clears setup state final) {answer : Unit} : Counts ⟨.clear, answer⟩ state final := by
  cases clears with
  | cleared empties =>
      exact
        { reconciled := fun start => (empties.reconciled start).congr rfl rfl rfl
          hits := congrArg Counters.hits empties.counters
          misses := congrArg Counters.misses empties.counters }

end CacheState

namespace TieredCache

open TierVault.Action CacheState

variable {setup : CacheSetup World} {state final : CacheState World}

/-- A delete is recorded under one of two outcomes. -/
theorem counts_of_delete {key : String} {removed : Bool} (tallied : state.Tallied setup)
    (ended : delete setup key state = .ok removed final) : Counts ⟨.delete key, removed⟩ state final := by
  have leads : Leads AnyFault (delete setup key) state fun removed final =>
      Counts ⟨.delete key, removed⟩ state final := by
    simp only [delete, leads_bind, leads_record, leads_pure]
    refine (leads_removes steady_of_any (orderly_of_any tallied)).imp ?_
    rintro removed middle - ⟨removes, -⟩
    refine (removes.quiet.counts rfl).followed (fun start => ?_) rfl rfl
    cases removed with
    | true => exact start.recorded ⟨"delete", "ok"⟩ (by decide) (by simp [Counters.after])
    | false => exact start.recorded ⟨"delete", "missing"⟩ (by decide) (by simp [Counters.after])
  exact leads.of_ok ended

theorem counts_of_run (tallied : state.Tallied setup) (call : CacheCall) {answer : call.Answer}
    (ended : call.run setup state = .ok answer final) : Counts ⟨call, answer⟩ state final := by
  have outcome := outcome_of_ok tallied call ended
  cases call with
  | put => exact Writes.counts outcome
  | get => exact Reads.counts outcome
  | delete => exact counts_of_delete tallied ended
  | has => exact (Has.quiet outcome).counts rfl
  | clear => exact Clears.counts outcome
  | cleanupExpired => exact (Cleans.quiet outcome).counts rfl
  | reclaimExpired => exact (Reclaims.quiet outcome).counts rfl

/-! ## Along a run -/

theorem reconciled_of_runAll {calls : List CacheCall} (tallied : state.Tallied setup) :
    Leads AnyFault (runAll setup calls) state fun history final =>
      (state.Reconciled → final.Reconciled) ∧
      final.counters.hits = state.counters.hits + history.countP (·.read?.isSome) ∧
      final.counters.misses = state.counters.misses + history.countP CacheEvent.misses := by
  induction calls generalizing state with
  | nil => exact ⟨id, rfl, rfl⟩
  | cons call later induction =>
      simp only [runAll, leads_bind, leads_pure]
      refine leads_any.mpr fun answer middle ended => ?_
      have first := counts_of_run tallied call ended
      have restrained := restrained_of_outcome (outcome_of_ok tallied call ended) tallied
      refine (induction restrained.tallied).imp ?_
      rintro history final - ⟨reconciled, hits, misses⟩
      refine ⟨fun start => reconciled (first.reconciled start), ?_, ?_⟩
      · rw [hits, first.hits, List.countP_cons]
        cases (CacheEvent.mk call answer).read?.isSome <;> simp <;> omega
      · rw [misses, first.misses, List.countP_cons]
        cases (CacheEvent.mk call answer).misses <;> simp <;> omega

/-- Every read either found a value or did not. -/
theorem countP_reads (history : List CacheEvent) :
    history.countP (·.read?.isSome) + history.countP CacheEvent.misses =
      (history.map CacheEvent.call).countP CacheCall.reads := by
  induction history with
  | nil => rfl
  | cons event later induction =>
      rw [List.map_cons, List.countP_cons, List.countP_cons, List.countP_cons, ← induction]
      obtain ⟨call, answer⟩ := event
      cases call with
      | get =>
          cases answer with
          | none => simp [CacheEvent.read?, CacheEvent.misses, CacheCall.reads]; omega
          | some => simp [CacheEvent.read?, CacheEvent.misses, CacheCall.reads]; omega
      | _ => simp [CacheEvent.read?, CacheEvent.misses, CacheCall.reads]

/-- After every run, whatever the stores do, the counters are what the series of the metrics amount to; hits are the
reads that answered a value, and with the misses they are all reads; and the gauges that are set for a tier are the
counts of the tier, which are those of its entries. Gauges are signed words, and show a count as it is below half
the word range. -/
theorem runAll_reconciled (setup : CacheSetup World) (world : World) (calls : List CacheCall)
    {history : List CacheEvent} {final : CacheState World}
    (ended : runAll setup calls (.start setup world) = .ok history final) :
    final.counters.hits = final.metrics.count "get" "hit" ∧
    final.counters.misses = final.metrics.count "get" "miss" + final.metrics.count "get" "expired" +
      final.metrics.count "get" "stale" + final.metrics.count "get" "error" ∧
    final.counters.writeFailures = final.metrics.count "put" "error" + final.metrics.count "put" "too_large" ∧
    final.counters.evictions = final.metrics.count "evict" "ok" ∧
    final.counters.promotions = final.metrics.count "promote" "ok" ∧
    final.counters.demotions = final.metrics.count "demote" "ok" ∧
    final.counters.hits + final.counters.misses = calls.countP CacheCall.reads ∧
    final.counters.hits = history.countP (·.read?.isSome) ∧
    ∀ tier gauges, final.metrics.tiers.get tier = some gauges →
      gauges.entries = (final.usage.get tier).entries ∧ gauges.bytes = (final.usage.get tier).bytes ∧
      gauges.entries = (final.entriesIn tier).length ∧
      gauges.bytes = sumOf ((final.entriesIn tier).map Entry.size) ∧
      (gauges.bytes < 2 ^ 63 → Gauges.signed gauges.bytes = gauges.bytes) ∧
      (gauges.entries < 2 ^ 63 → Gauges.signed gauges.entries = gauges.entries) := by
  have tallied : final.Tallied setup := (lives_of_ok (.start world) ended).2.tallied
  obtain ⟨keeps, hits, misses⟩ := (reconciled_of_runAll (.start world)).of_ok ended
  obtain ⟨counters, gauges⟩ := keeps (.start world)
  have started : (CacheState.start setup world).counters = default := rfl
  rw [started] at hits misses
  have found : final.counters.hits = history.countP (·.read?.isSome) := hits.trans (Nat.zero_add _)
  have lost : final.counters.misses = history.countP CacheEvent.misses := misses.trans (Nat.zero_add _)
  refine ⟨congrArg Counters.hits counters, congrArg Counters.misses counters,
    congrArg Counters.writeFailures counters, congrArg Counters.evictions counters,
    congrArg Counters.promotions counters, congrArg Counters.demotions counters, ?_, found, ?_⟩
  · rw [found, lost, countP_reads, calls_of_ok (.start world) ended]
  · intro tier shown set
    obtain rfl := gauges tier shown set
    have usage := tallied.usage tier
    exact ⟨rfl, rfl, congrArg TierUsage.entries usage, congrArg TierUsage.bytes usage, Gauges.signed_eq,
      Gauges.signed_eq⟩

/-- A value is found, and demoted for another; a third fits nowhere, and a fourth is looked for in vain. -/
def mixedCalls : List CacheCall :=
  [.put "left" .null none, .get "left", .put "right" .null none, .put "wide" (.text "wide text") none,
    .get "none", .cleanupExpired]

/-- Stores for one small value each. -/
def cramped : CacheSetup (PerTier (Switched MemoryWorld)) :=
  .switched { budgets := ⟨5, 5, 5, 5⟩ } none id

theorem leads_mixedCalls : Leads (fun _ => False) (runAll cramped mixedCalls)
    (.start cramped (.const ⟨[], []⟩)) fun _ final =>
      final.counters = ⟨1, 1, 0, 0, 1, 0, 1⟩ ∧ final.metrics.tiers.get .sqlite = some ⟨1, 4⟩ := by
  decide +kernel

theorem runAll_reconciled_mixed :
    ∃ history final, runAll cramped mixedCalls (.start cramped (.const ⟨[], []⟩)) = .ok history final ∧
      final.metrics.count "get" "hit" = 1 ∧ final.metrics.count "demote" "ok" = 1 ∧
      final.metrics.count "put" "error" + final.metrics.count "put" "too_large" = 1 ∧
      history.countP (·.read?.isSome) = 1 ∧ (final.entriesIn .sqlite).length = 1 := by
  obtain ⟨history, final, ended, counters, set⟩ := leads_mixedCalls.ends fun _ => id
  obtain ⟨hits, -, failures, -, -, demotions, -, found, shown⟩ := runAll_reconciled cramped _ mixedCalls ended
  rw [counters] at hits failures demotions found
  exact ⟨history, final, ended, hits.symm, demotions.symm, failures.symm, found.symm,
    (shown .sqlite _ set).2.2.1.symm⟩

end TieredCache

end TierVault
