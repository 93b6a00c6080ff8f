import TierVault.Proofs.Cache.Adoption

/-!
The entries of a cache are dated in the order in which their keys were last used.

A write that is taken and a read that finds its value date the key's entry anew. Nothing else does: an entry that
is moved from tier to tier keeps its date.
-/

namespace TierVault

variable {World : Type}

/-! ## When keys were last used -/

/-- The key was written or found. -/
def CacheEvent.uses (key : String) : CacheEvent → Bool
  | ⟨.put other _ _, true⟩ => other = key
  | ⟨.get other, some _⟩ => other = key
  | _ => false

/-- The number of the last event that used the key. -/
def lastUse (key : String) : List CacheEvent → Option Nat
  | [] => none
  | event :: later =>
    match lastUse key later with
    | some number => some (number + 1)
    | none => if event.uses key then some 0 else none

theorem lastUse_append (key : String) (history : List CacheEvent) (event : CacheEvent) :
    lastUse key (history ++ [event]) =
      if event.uses key then some history.length else lastUse key history := by
  induction history with
  | nil => rfl
  | cons first rest induction =>
      rw [List.cons_append, lastUse, induction, lastUse]
      by_cases uses : event.uses key = true
      · rw [if_pos uses, if_pos uses]
        rfl
      · rw [if_neg uses, if_neg uses]

theorem lastUse_lt {key : String} {history : List CacheEvent} {number : Nat}
    (used : lastUse key history = some number) : number < history.length := by
  induction history generalizing number with
  | nil => cases used
  | cons first rest induction =>
      unfold lastUse at used
      split at used
      · rename_i earlier found
        cases used
        exact Nat.succ_lt_succ (induction found)
      · split at used
        · cases used
          exact Nat.succ_pos _
        · cases used

theorem CacheEvent.eq_of_uses {event : CacheEvent} {key other : String} (one : event.uses key = true)
    (two : event.uses other = true) : key = other := by
  unfold uses at one two
  split at one
  · exact (of_decide_eq_true one).symm.trans (of_decide_eq_true two)
  · exact (of_decide_eq_true one).symm.trans (of_decide_eq_true two)
  · cases one

/-- No event uses two keys. -/
theorem eq_of_lastUse {key other : String} {history : List CacheEvent} {number : Nat}
    (one : lastUse key history = some number) (two : lastUse other history = some number) : key = other := by
  induction history generalizing number with
  | nil => cases one
  | cons first rest induction =>
      unfold lastUse at one two
      split at one
      · rename_i earlier found
        cases one
        split at two
        · rename_i same there
          cases two
          exact induction found there
        · split at two <;> cases two
      · split at one
        · rename_i uses
          cases one
          split at two
          · cases two
          · split at two
            · exact CacheEvent.eq_of_uses uses ‹_›
            · cases two
        · cases one

namespace CacheState

variable {setup : CacheSetup World} {last : String → Option Nat} {kept more : List String}
  {state middle final : CacheState World} {key : String} {entry : Entry} {value : Value}
  {tier target hottest : Tier} {lifetime? : Option Nat} {past : List CacheEvent} {event : CacheEvent}

/-! ## Dates that stay -/

/-- Entries may have gone, and none is dated anew. -/
def KeepsDates (state final : CacheState World) : Prop :=
  (∀ key entry, final.lookup key = some entry →
    ∃ old, state.lookup key = some old ∧ old.recency = entry.recency) ∧
  state.tick ≤ final.tick ∧ state.readings ≤ final.readings

namespace KeepsDates

theorem of_lookup (same : ∀ key entry, final.lookup key = some entry → state.lookup key = some entry)
    (tick : state.tick ≤ final.tick) (readings : state.readings ≤ final.readings) : KeepsDates state final :=
  ⟨fun _ _ found => ⟨_, same _ _ found, rfl⟩, tick, readings⟩

theorem refl (state : CacheState World) : KeepsDates state state :=
  .of_lookup (fun _ _ found => found) (Nat.le_refl _) (Nat.le_refl _)

theorem trans (first : KeepsDates state middle) (second : KeepsDates middle final) : KeepsDates state final := by
  refine ⟨fun key entry found => ?_, Nat.le_trans first.2.1 second.2.1, Nat.le_trans first.2.2 second.2.2⟩
  obtain ⟨between, there, same⟩ := second.1 key entry found
  obtain ⟨old, before, alike⟩ := first.1 key between there
  exact ⟨old, before, alike.trans same⟩

theorem timed (state : CacheState World) : KeepsDates state state.timed :=
  .of_lookup (fun _ _ found => found) (Nat.le_refl _) (Nat.le_succ _)

theorem forget (key : String) (entry : Entry) : KeepsDates state (state.forget key entry) := by
  refine .of_lookup (fun asked held found => ?_) (Nat.le_refl _) (Nat.le_refl _)
  rw [lookup_forget] at found
  split at found
  · cases found
  · exact found

theorem relocate (found : state.lookup key = some entry) (target : Tier) :
    KeepsDates state (state.relocate key entry target) := by
  refine ⟨fun asked held there => ?_, Nat.le_refl _, Nat.le_refl _⟩
  rw [lookup_relocate] at there
  split at there
  · rename_i same
    subst same
    cases there
    exact ⟨entry, found, rfl⟩
  · exact ⟨held, there, rfl⟩

end KeepsDates

theorem Moves.keepsDates (moves : Moves setup key entry value target state final)
    (found : state.lookup key = some entry) : KeepsDates state final := by
  cases moves with
  | @followed _ after =>
      have still : (state.inWorld after).lookup key = some entry := found
      exact .relocate still target

theorem Refuses.keepsDates {size : Nat} (refuses : Refuses setup key size value target state final) :
    KeepsDates state final := by
  cases refuses
  exact .refl state

theorem Retreat.keepsDates (retreat : Retreat setup hottest kept state final) : KeepsDates state final := by
  induction retreat with
  | stay => exact .refl _
  | read _ _ induction => exact induction
  | stuck _ _ _ _ _ _ _ refuses induction inner => exact (induction.trans inner).trans refuses.keepsDates
  | @evict _ _ _ _ key entry _ _ _ _ _ _ _ induction => exact induction.trans (.forget key entry)
  | demote _ found _ _ _ _ room moves induction inner =>
      have still := room.lookup_of_mem (List.mem_append_right _ (List.mem_singleton.mpr rfl))
      have moved := moves.keepsDates (still.trans found)
      exact (induction.trans inner).trans moved

theorem Removes.keepsDates {removed : Bool} (removes : Removes setup key state removed final) :
    KeepsDates state final := by
  cases removes with
  | missing => exact .refl state
  | @removed entry => exact .forget key entry

theorem RemovesAll.keepsDates {keys : List String} (removes : RemovesAll setup keys state final) :
    KeepsDates state final := by
  induction removes with
  | nil => exact .refl _
  | cons first _ induction => exact first.keepsDates.trans induction

theorem Rises.keepsDates (rises : Rises setup key entry value state final)
    (found : state.lookup key = some entry) : KeepsDates state final := by
  cases rises with
  | stays room => exact room.keepsDates
  | refused _ room refuses => exact room.keepsDates.trans refuses.keepsDates
  | rises _ room moves =>
      have still := room.lookup_of_mem (List.mem_singleton.mpr rfl)
      have moved := moves.keepsDates (still.trans found)
      exact room.keepsDates.trans moved

theorem Deletes.keepsDates {answer : Bool} (deletes : Deletes setup key state answer final) :
    KeepsDates state final := by
  cases deletes with
  | deleted removes => exact removes.keepsDates

theorem Has.keepsDates {answer : Bool} (has : Has setup key state answer final) : KeepsDates state final := by
  cases has with
  | missing => exact .refl state
  | expired _ _ removed => exact (KeepsDates.timed state).trans removed.keepsDates
  | present => exact .timed state

theorem Cleans.keepsDates {answer : Nat} (cleans : Cleans setup state answer final) : KeepsDates state final := by
  cases cleans with
  | cleaned removed => exact (KeepsDates.timed state).trans removed.keepsDates

theorem Reclaims.keepsDates {answer : Nat} (reclaims : Reclaims setup state answer final) :
    KeepsDates state final := by
  cases reclaims with
  | reclaimed cleans => exact (KeepsDates.timed state).trans cleans.keepsDates

theorem Empties.keepsDates {tiers : List Tier} (empties : Empties setup tiers state final) :
    KeepsDates state final := by
  induction empties with
  | nil => exact .refl _
  | cons _ _ induction => exact induction

theorem Clears.keepsDates (clears : Clears setup state final) : KeepsDates state final := by
  cases clears with
  | cleared empties => exact ⟨nofun, empties.keepsDates.2⟩

theorem Replaces.keepsDates (replaces : Replaces setup key tier state final) : KeepsDates state final := by
  cases replaces with
  | nothing => exact .refl state
  | @here old => exact .forget key old
  | @elsewhere old => exact .forget key old

/-! ## Dates in the order of use -/

/-- The entries of all keys but those that are kept are dated in the order of their keys' uses. While a value that
was found moves up, its key is kept: its entry is dated already, but the read is not over. -/
structure InOrder (last : String → Option Nat) (kept : List String) (state : CacheState World) : Prop where
  used : ∀ {key entry}, state.lookup key = some entry → key ∉ kept → ∃ number, last key = some number
  order : ∀ {key other entry held number later},
    state.lookup key = some entry → state.lookup other = some held →
    key ∉ kept → other ∉ kept → last key = some number → last other = some later → number < later →
      entry.recency.Before held.recency

/-- Entries may go, and those that are not kept keep their dates. -/
theorem InOrder.keep (inOrder : InOrder last kept state)
    (keeps : ∀ key entry, final.lookup key = some entry → key ∉ more →
      key ∉ kept ∧ ∃ old, state.lookup key = some old ∧ old.recency = entry.recency) :
    InOrder last more final where
  used found free := by
    obtain ⟨unkept, old, before, -⟩ := keeps _ _ found free
    exact inOrder.used before unkept
  order found there free own early late less := by
    obtain ⟨unkept, old, before, same⟩ := keeps _ _ found free
    obtain ⟨unkeptToo, held, beforeToo, alike⟩ := keeps _ _ there own
    exact same ▸ alike ▸ inOrder.order before beforeToo unkept unkeptToo early late less

theorem InOrder.keepsDates (inOrder : InOrder last kept state) (keeps : KeepsDates state final)
    (subset : kept ⊆ more) : InOrder last more final :=
  inOrder.keep fun key entry found free => ⟨fun member => free (subset member), keeps.1 key entry found⟩

/-- The entries are dated in the order of their keys' uses, and before now. -/
structure Dated (setup : CacheSetup World) (past : List CacheEvent) (state : CacheState World) : Prop where
  inOrder : InOrder (lastUse · past) [] state
  before : ∀ {key entry}, state.lookup key = some entry →
    entry.accessTick ≤ state.tick ∧
      ∀ reading, state.readings ≤ reading → entry.lastAccess ≤ setup.clock reading

namespace Dated

theorem start (world : World) : Dated setup [] (.start setup world) :=
  ⟨⟨nofun, nofun⟩, nofun⟩

/-- Nothing is used. -/
theorem keepsDates (dated : Dated setup past state) (keeps : KeepsDates state final) :
    Dated setup past final := by
  refine ⟨dated.inOrder.keepsDates keeps (List.Subset.refl []), ?_⟩
  intro key entry found
  obtain ⟨old, there, alike⟩ := keeps.1 key entry found
  obtain ⟨tick, access⟩ := dated.before there
  have sameTick : old.accessTick = entry.accessTick := congrArg Recency.tick alike
  have sameAccess : old.lastAccess = entry.lastAccess := congrArg Recency.lastAccess alike
  rw [← sameTick, ← sameAccess]
  exact ⟨Nat.le_trans tick keeps.2.1, fun reading later => access reading (Nat.le_trans keeps.2.2 later)⟩

theorem unused (dated : Dated setup past state) (unused : ∀ key, event.uses key = false) :
    Dated setup (past ++ [event]) state := by
  have same : (lastUse · (past ++ [event])) = (lastUse · past) := by
    funext key
    rw [lastUse_append, unused key]
    rfl
  exact ⟨same ▸ dated.inOrder, dated.before⟩

/-- The entry of one key is dated now. -/
theorem renew {fresh : Entry}
    (forward : ∀ first second, first ≤ second → setup.clock first ≤ setup.clock second)
    (dated : Dated setup past state) (uses : event.uses key = true)
    (found : final.lookup key = some fresh)
    (now : fresh.recency = ⟨setup.clock state.readings, state.tick + 1⟩)
    (others : ∀ other, other ≠ key → final.lookup other = state.lookup other)
    (ticked : final.tick = state.tick + 1) (timed : final.readings = state.readings + 1) :
    Dated setup (past ++ [event]) final := by
  have own : lastUse key (past ++ [event]) = some past.length := by
    rw [lastUse_append, if_pos uses]
  have same {other : String} (different : other ≠ key) : lastUse other (past ++ [event]) = lastUse other past := by
    rw [lastUse_append, if_neg fun usesToo => different (CacheEvent.eq_of_uses usesToo uses)]
  have tick : fresh.accessTick = state.tick + 1 := congrArg Recency.tick now
  have access : fresh.lastAccess = setup.clock state.readings := congrArg Recency.lastAccess now
  refine ⟨⟨?_, ?_⟩, ?_⟩
  · intro asked entry there free
    by_cases mine : asked = key
    · exact ⟨past.length, mine ▸ own⟩
    · obtain ⟨number, known⟩ := dated.inOrder.used ((others asked mine).symm.trans there) free
      exact ⟨number, (same mine).trans known⟩
  · -- The renewed entry is younger than all others, and no use comes after this one.
    intro asked other entry held number later there thereToo free freeToo early late less
    by_cases mine : other = key
    · subst mine
      cases found.symm.trans thereToo
      have different : asked ≠ other := by
        rintro rfl
        cases early.symm.trans late
        exact Nat.lt_irrefl _ less
      obtain ⟨ticks, accessed⟩ := dated.before ((others asked different).symm.trans there)
      rw [now]
      exact ⟨accessed _ (Nat.le_refl _), Nat.lt_succ_of_le ticks⟩
    · have lateToo := (same mine).symm.trans late
      have different : asked ≠ key := by
        rintro rfl
        cases own.symm.trans early
        exact Nat.lt_asymm less (lastUse_lt lateToo)
      exact dated.inOrder.order ((others asked different).symm.trans there) ((others other mine).symm.trans thereToo)
        free freeToo ((same different).symm.trans early) lateToo less
  · intro asked entry there
    rw [ticked, timed]
    by_cases mine : asked = key
    · subst mine
      cases found.symm.trans there
      rw [tick, access]
      exact ⟨Nat.le_refl _, fun reading later => forward _ _ (Nat.le_of_succ_le later)⟩
    · obtain ⟨ticks, accessed⟩ := dated.before ((others asked mine).symm.trans there)
      exact ⟨Nat.le_succ_of_le ticks, fun reading later => accessed reading (Nat.le_of_succ_le later)⟩

end Dated

/-! ## After each outcome -/

theorem Reads.keepsDates (reads : Reads setup key state none final) : KeepsDates state final := by
  cases reads with
  | missing => exact .timed state
  | expired _ _ removed => exact (KeepsDates.timed state).trans removed.keepsDates
  | @stale entry => exact (KeepsDates.timed state).trans (.forget key entry)
  | failed _ _ _ removed =>
      have gone := removed.keepsDates
      exact (KeepsDates.timed state).trans gone

theorem Writes.keepsDates (writes : Writes setup key value lifetime? state false final) :
    KeepsDates state final := by
  cases writes with
  | unserializable => exact .refl state
  | tooLarge _ room => exact room.keepsDates
  | refused _ _ room refuses => exact room.keepsDates.trans refuses.keepsDates

variable (forward : ∀ first second, first ≤ second → setup.clock first ≤ setup.clock second)

include forward

theorem Dated.reads (dated : Dated setup past state)
    (reads : Reads setup key state (some value) final) :
    Dated setup (past ++ [⟨.get key, some value⟩]) final := by
  cases reads with
  | @hit entry _ world _ _ _ _ rises =>
      have asked : Dated setup past (state.timed.inWorld world) := dated.keepsDates (.timed state)
      refine Dated.keepsDates ?_ (rises.keepsDates lookup_touch)
      exact asked.renew forward (decide_eq_true rfl) lookup_touch rfl (fun _ => lookup_touch_other) rfl rfl

theorem Dated.writes (dated : Dated setup past state)
    (writes : Writes setup key value lifetime? state true final) :
    Dated setup (past ++ [⟨.put key value lifetime?, true⟩]) final := by
  cases writes with
  | @written size tier roomy world replaced _ _ room _ _ replaces =>
      have roomed : Dated setup past (roomy.inWorld world) := dated.keepsDates room.keepsDates
      have ready := roomed.keepsDates replaces.keepsDates
      refine ready.renew forward (decide_eq_true rfl) ((lookup_insert key).trans (if_pos rfl)) rfl ?_ rfl rfl
      exact fun other different => (lookup_insert other).trans (if_neg different)

theorem dated_of_outcome (dated : Dated setup past state) {call : CacheCall} {answer : call.Answer}
    (outcome : call.Outcome setup state answer final) : Dated setup (past ++ [⟨call, answer⟩]) final := by
  have kept (keeps : KeepsDates state final) (unused : ∀ key, CacheEvent.uses key ⟨call, answer⟩ = false) :=
    (dated.keepsDates keeps).unused unused
  cases call with
  | put key value lifetime? =>
      cases answer with
      | true => exact dated.writes forward outcome
      | false => exact kept (Writes.keepsDates outcome) fun _ => rfl
  | get key =>
      cases answer with
      | some value => exact dated.reads forward outcome
      | none => exact kept (Reads.keepsDates outcome) fun _ => rfl
  | delete => exact kept (Deletes.keepsDates outcome) fun _ => rfl
  | has => exact kept (Has.keepsDates outcome) fun _ => rfl
  | clear => exact kept (Clears.keepsDates outcome) fun _ => rfl
  | cleanupExpired => exact kept (Cleans.keepsDates outcome) fun _ => rfl
  | reclaimExpired => exact kept (Reclaims.keepsDates outcome) fun _ => rfl

end CacheState

end TierVault
