import TierVault.Proofs.Cache.Runs

/-!
The changes of a cache that no caller is told of.

Between the calls on the stores, entries are forgotten and moved, evictions, demotions, promotions and
expirations are counted, and the clock is read. Every operation but a clear is a row of such changes, with at
most one change among them that tells how a read or a write went. So whatever each of these changes keeps is
kept by the operations.
-/

namespace TierVault.CacheState

variable {World : Type}

/-- A row of changes among which nothing is written, found or missed. -/
inductive Quiet : CacheState World → CacheState World → Prop
  | refl (state : CacheState World) : Quiet state state
  | inWorld {state middle : CacheState World} (quiet : Quiet state middle) (world : World) :
      Quiet state (middle.inWorld world)
  | timed {state middle : CacheState World} (quiet : Quiet state middle) : Quiet state middle.timed
  | forget {state middle : CacheState World} {key : String} {entry : Entry} (quiet : Quiet state middle)
      (found : middle.lookup key = some entry) : Quiet state (middle.forget key entry)
  | relocate {state middle : CacheState World} {key : String} {entry : Entry} (quiet : Quiet state middle)
      (found : middle.lookup key = some entry) (target : Tier) : Quiet state (middle.relocate key entry target)
  | evicted {state middle : CacheState World} (quiet : Quiet state middle) : Quiet state middle.evicted
  | demoted {state middle : CacheState World} (quiet : Quiet state middle) : Quiet state middle.demoted
  | promoted {state middle : CacheState World} (quiet : Quiet state middle) : Quiet state middle.promoted
  | expired {state middle : CacheState World} (quiet : Quiet state middle) (amount : Nat) :
      Quiet state (middle.expired amount)

variable {setup : CacheSetup World} {state middle final : CacheState World} {key : String} {entry : Entry}
  {value : Value} {tier target hottest : Tier} {kept : List String} {lifetime? : Option Nat}

theorem Quiet.trans (first : Quiet state middle) (second : Quiet middle final) : Quiet state final := by
  induction second with
  | refl => exact first
  | inWorld _ world induction => exact induction.inWorld world
  | timed _ induction => exact induction.timed
  | forget _ found induction => exact induction.forget found
  | relocate _ found target induction => exact induction.relocate found target
  | evicted _ induction => exact induction.evicted
  | demoted _ induction => exact induction.demoted
  | promoted _ induction => exact induction.promoted
  | expired _ amount induction => exact induction.expired amount

/-! ## Making room -/

theorem Refuses.quiet {size : Nat} (refuses : Refuses setup key size value target state final) :
    Quiet state final := by
  cases refuses
  exact (Quiet.refl state).inWorld _

theorem Moves.quiet (moves : Moves setup key entry value target state final)
    (found : state.lookup key = some entry) : Quiet state final := by
  cases moves with
  | @followed _ after => exact ((Quiet.refl state).inWorld after).relocate found target

theorem Retreat.quiet (retreat : Retreat setup hottest kept state final) : Quiet state final := by
  induction retreat with
  | stay => exact .refl _
  | read _ _ induction => exact induction.inWorld _
  | evict _ found _ _ _ induction => exact ((induction.forget found).inWorld _).evicted
  | stuck _ _ _ _ _ _ _ refuses induction inner =>
      exact ((induction.inWorld _).trans inner).trans refuses.quiet
  | demote _ found _ _ _ _ room moves induction inner =>
      have still := room.lookup_of_mem (List.mem_append_right _ (List.mem_singleton.mpr rfl))
      have moved := moves.quiet (still.trans found)
      exact (((induction.inWorld _).trans inner).trans moved).demoted

/-- Making room takes no time that is told. -/
theorem Retreat.readings (retreat : Retreat setup hottest kept state final) :
    final.readings = state.readings := by
  induction retreat with
  | stay => rfl
  | read _ _ induction => exact induction
  | evict _ _ _ _ _ induction => exact induction
  | stuck _ _ _ _ _ _ _ refuses induction inner =>
      cases refuses
      exact Eq.trans inner induction
  | demote _ _ _ _ _ _ _ moves induction inner =>
      cases moves
      exact Eq.trans inner induction

theorem Rises.quiet (rises : Rises setup key entry value state final)
    (found : state.lookup key = some entry) : Quiet state final := by
  cases rises with
  | stays room => exact room.quiet
  | refused _ room refuses => exact room.quiet.trans refuses.quiet
  | rises _ room moves =>
      have still := room.lookup_of_mem (List.mem_singleton.mpr rfl)
      have moved := moves.quiet (still.trans found)
      exact (room.quiet.trans moved).promoted

/-! ## Operations -/

theorem Removes.quiet {removed : Bool} (removes : Removes setup key state removed final) :
    Quiet state final := by
  cases removes with
  | missing => exact .refl state
  | removed found => exact ((Quiet.refl state).forget found).inWorld _

theorem RemovesAll.quiet {keys : List String} (removes : RemovesAll setup keys state final) :
    Quiet state final := by
  induction removes with
  | nil => exact .refl _
  | cons first _ induction => exact first.quiet.trans induction

theorem Has.quiet {answer : Bool} (has : Has setup key state answer final) : Quiet state final := by
  have timed := (Quiet.refl state).timed
  cases has with
  | missing => exact .refl state
  | expired _ _ removed => exact (timed.trans removed.quiet).expired 1
  | present => exact timed

theorem Cleans.quiet {answer : Nat} (cleans : Cleans setup state answer final) : Quiet state final := by
  have timed := (Quiet.refl state).timed
  cases cleans with
  | cleaned removed => exact (timed.trans removed.quiet).expired _

theorem Reclaims.quiet {answer : Nat} (reclaims : Reclaims setup state answer final) :
    Quiet state final := by
  have timed := (Quiet.refl state).timed
  cases reclaims with
  | reclaimed cleans => exact timed.trans cleans.quiet

theorem Replaces.quiet (replaces : Replaces setup key tier state final) : Quiet state final := by
  cases replaces with
  | nothing => exact .refl state
  | here found => exact (Quiet.refl state).forget found
  | elsewhere found => exact ((Quiet.refl state).forget found).inWorld _

theorem Replaces.readings (replaces : Replaces setup key tier state final) :
    final.readings = state.readings := by
  cases replaces <;> rfl

/-! ## Reads and writes

One change among the quiet ones tells how they went. -/

/-- A read that answers nothing is counted as one of four misses. -/
theorem Reads.of_none (reads : Reads setup key state none final) :
    ∃ middle, ∃ outcome ∈ ["miss", "expired", "stale", "error"],
      Quiet state middle ∧ final = middle.missed outcome := by
  have timed := (Quiet.refl state).timed
  cases reads with
  | missing => exact ⟨_, "miss", by decide, timed, rfl⟩
  | expired _ _ removed => exact ⟨_, "expired", by decide, (timed.trans removed.quiet).expired 1, rfl⟩
  | @stale _ world found =>
      have dropped := (timed.inWorld world).forget found
      exact ⟨_, "stale", by decide, dropped, rfl⟩
  | @failed _ _ world _ _ _ _ removed =>
      have asked := timed.inWorld world
      exact ⟨_, "error", by decide, asked.trans removed.quiet, rfl⟩

/-- A read that answers a value is counted as a hit, with the entry touched. -/
theorem Reads.of_some (reads : Reads setup key state (some value) final) :
    ∃ before entry, Quiet state before ∧ before.lookup key = some entry ∧
      Quiet (touch setup before key entry).hit final := by
  cases reads with
  | @hit entry _ world _ found _ _ rises =>
      have asked := (Quiet.refl state).timed.inWorld world
      exact ⟨state.timed.inWorld world, entry, asked, found, rises.quiet lookup_touch⟩

/-- A write that is refused is counted as one of two failures, or had no encoding and is not. -/
theorem Writes.of_false (writes : Writes setup key value lifetime? state false final) :
    (∃ middle, ∃ outcome ∈ ["too_large", "error"],
      Quiet state middle ∧ final = middle.unwritten outcome) ∨
    final = state.recorded "put" "unserializable" := by
  cases writes with
  | unserializable => exact .inr rfl
  | tooLarge _ room => exact .inl ⟨_, "too_large", by decide, room.quiet, rfl⟩
  | refused _ _ room refuses =>
      exact .inl ⟨_, "error", by decide, room.quiet.trans refuses.quiet, rfl⟩

/-- A write that is taken makes one new entry, at the one time that it reads from the clock. -/
theorem Writes.of_true (writes : Writes setup key value lifetime? state true final) :
    ∃ middle size tier, Quiet state middle ∧ middle.lookup key = none ∧ middle.readings = state.readings ∧
      final = (insert setup middle key size tier (lifetime? <|> setup.defaultLifetime?)).recorded
        "put" "ok" := by
  cases writes with
  | @written size tier _ world replaced _ _ room _ _ replaces =>
      have asked := room.quiet.inWorld world
      have readings : replaced.readings = state.readings := replaces.readings.trans room.readings
      exact ⟨replaced, size, tier, asked.trans replaces.quiet, replaces.lookup, readings, rfl⟩

end TierVault.CacheState
