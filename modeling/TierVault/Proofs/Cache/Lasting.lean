import TierVault.Proofs.Cache.Agreement

/-!
Entries that last.

An entry without a lifetime never expires. Over stores that do not fail, only a delete, a clear or a new value
of its own key ends it, or an eviction, which is counted. Entries move and are read without losing their
lifetimes.
-/

namespace TierVault

variable {World : Type}

namespace CacheState

variable {setup : CacheSetup World} {storable : Value → Prop} {sound : World → Prop}
  {shelves : World → Tier → Shelf} {newest : String → Option Value}
  {state middle final : CacheState World} {key asked : String} {entry : Entry} {value : Value}
  {tier target hottest : Tier} {kept : List String} {lifetime? : Option Nat}

/-- The key has an entry that never expires. -/
def Permanent (state : CacheState World) (key : String) : Prop :=
  ∃ entry, state.lookup key = some entry ∧ entry.lifetime? = none

theorem Permanent.lives (permanent : state.Permanent key) (now : Nat) :
    ∃ entry, state.lookup key = some entry ∧ entry.isExpired now = false := by
  obtain ⟨entry, found, lifetime⟩ := permanent
  refine ⟨entry, found, ?_⟩
  rw [Entry.isExpired, lifetime]

theorem not_permanent_of_expired {now : Nat} (found : state.lookup key = some entry)
    (late : entry.isExpired now = true) : ¬state.Permanent key := by
  intro permanent
  obtain ⟨same, there, live⟩ := permanent.lives now
  cases found.symm.trans there
  cases late.symm.trans live

/-- Without an eviction, the key keeps an entry that never expires. -/
structure Lasts (key : String) (state final : CacheState World) : Prop where
  evictions : state.counters.evictions ≤ final.counters.evictions
  permanent : final.counters.evictions = state.counters.evictions → state.Permanent key →
    final.Permanent key

namespace Lasts

theorem refl (key : String) (state : CacheState World) : Lasts key state state :=
  ⟨Nat.le_refl _, fun _ permanent => permanent⟩

theorem trans (first : Lasts key state middle) (second : Lasts key middle final) :
    Lasts key state final := by
  have early := first.evictions
  have late := second.evictions
  refine ⟨Nat.le_trans early late, ?_⟩
  intro none permanent
  exact second.permanent (by omega) (first.permanent (by omega) permanent)

theorem of_not_permanent (evictions : final.counters.evictions = state.counters.evictions)
    (passing : ¬state.Permanent key) : Lasts key state final :=
  ⟨Nat.le_of_eq evictions.symm, fun _ permanent => absurd permanent passing⟩

/-- The entry of the key is the same, or one of the same lifetime. -/
theorem of_lifetime (evictions : final.counters.evictions = state.counters.evictions)
    (lifetime : (final.lookup key).map Entry.lifetime? = (state.lookup key).map Entry.lifetime?) :
    Lasts key state final := by
  refine ⟨Nat.le_of_eq evictions.symm, ?_⟩
  rintro - ⟨entry, found, unlimited⟩
  rw [found, Option.map_some, Option.map_eq_some_iff] at lifetime
  obtain ⟨later, there, same⟩ := lifetime
  exact ⟨later, there, same.trans unlimited⟩

theorem forget_other (different : key ≠ asked) : Lasts asked state (state.forget key entry) := by
  refine of_lifetime rfl ?_
  rw [lookup_forget, if_neg (Ne.symm different)]

theorem relocate (found : state.lookup key = some entry) :
    Lasts asked state (state.relocate key entry target) := by
  refine of_lifetime rfl ?_
  rw [lookup_relocate]
  split
  · rename_i own
    rw [own, found]
    rfl
  · rfl

theorem touch (found : state.lookup key = some entry) :
    Lasts asked state (touch setup state key entry) := by
  refine of_lifetime rfl ?_
  by_cases own : asked = key
  · rw [own, lookup_touch, found]
    rfl
  · exact congrArg (Option.map Entry.lifetime?) (Keyed.find?_put_other _ _ own)

end Lasts

/-! ## Retreats -/

theorem Refuses.lasts {size : Nat} (refuses : Refuses setup key size value target state final) :
    Lasts asked state final := by
  cases refuses
  exact .of_lifetime rfl rfl

theorem Moves.lasts (moves : Moves setup key entry value target state final)
    (found : state.lookup key = some entry) : Lasts asked state final := by
  cases moves with
  | @followed _ after =>
      have still : (state.inWorld after).lookup key = some entry := found
      have world : Lasts asked state (state.inWorld after) := .of_lifetime rfl rfl
      exact world.trans (.relocate still)

theorem Retreat.lasts (retreat : Retreat setup hottest kept state final) :
    Lasts asked state final := by
  induction retreat with
  | stay => exact .refl _ _
  | read _ _ induction => exact induction.trans (.of_lifetime rfl rfl)
  | @evict _ _ _ middle key entry _ world _ _ _ _ _ induction =>
      have gone : Lasts asked middle ((middle.forget key entry).inWorld world).evicted := by
        refine ⟨Nat.le_succ _, ?_⟩
        intro none
        exact absurd none (Nat.succ_ne_self _)
      exact induction.trans gone
  | @stuck _ _ _ middle _ _ _ world _ _ _ _ _ _ _ _ _ _ refuses induction inner =>
      have world : Lasts asked middle (middle.inWorld world) := .of_lifetime rfl rfl
      exact ((induction.trans world).trans inner).trans refuses.lasts
  | @demote _ _ _ middle _ _ _ world _ _ _ _ found _ _ _ _ room moves induction inner =>
      have world : Lasts asked middle (middle.inWorld world) := .of_lifetime rfl rfl
      have still := room.lookup_of_mem (List.mem_append_right _ (List.mem_singleton.mpr rfl))
      have roomy := (induction.trans world).trans inner
      exact (roomy.trans (moves.lasts (still.trans found))).trans (.of_lifetime rfl rfl)

theorem Rises.lasts (rises : Rises setup key entry value state final)
    (found : state.lookup key = some entry) : Lasts asked state final := by
  have kept {target roomy} (room : Retreat setup target [key] state roomy) :
      roomy.lookup key = some entry :=
    (room.lookup_of_mem (List.mem_singleton.mpr rfl)).trans found
  cases rises with
  | stays room => exact room.lasts
  | refused _ room refuses => exact room.lasts.trans refuses.lasts
  | rises _ room moves =>
      exact (room.lasts.trans (moves.lasts (kept room))).trans (.of_lifetime rfl rfl)

/-! ## Operations -/

theorem Removes.evictions {removed : Bool} (removes : Removes setup key state removed final) :
    final.counters.evictions = state.counters.evictions := by
  cases removes with
  | missing => rfl
  | removed => rfl

theorem Removes.lasts {removed : Bool} (removes : Removes setup key state removed final)
    (spared : key ≠ asked ∨ ¬state.Permanent asked) : Lasts asked state final := by
  obtain different | passing := spared
  · cases removes with
    | missing => exact .refl _ _
    | @removed entry _ world =>
        have gone : Lasts asked state (state.forget key entry) := .forget_other different
        exact gone.trans (.of_lifetime rfl rfl)
  · exact .of_not_permanent removes.evictions passing

theorem RemovesAll.evictions {keys : List String} (removes : RemovesAll setup keys state final) :
    final.counters.evictions = state.counters.evictions := by
  induction removes with
  | nil => rfl
  | cons first _ induction => exact induction.trans first.evictions

theorem RemovesAll.lasts {keys : List String} (removes : RemovesAll setup keys state final)
    (spared : asked ∉ keys) : Lasts asked state final := by
  induction removes with
  | nil => exact .refl _ _
  | cons first _ induction =>
      rw [List.mem_cons, not_or] at spared
      exact (first.lasts (.inl (Ne.symm spared.1))).trans (induction spared.2)

/-- What never expires is not cleaned up. -/
theorem Cleans.lasts {answer : Nat} (cleans : Cleans setup state answer final)
    (balanced : state.Balanced setup) : Lasts asked state final := by
  cases cleans with
  | @cleaned cleaned removed =>
      have timed : Lasts asked state state.timed := .of_lifetime rfl rfl
      have told : Lasts asked cleaned
          (cleaned.expired (state.expiredKeys (setup.clock state.readings)).length) :=
        .of_lifetime rfl rfl
      by_cases gone : asked ∈ state.expiredKeys (setup.clock state.readings)
      · obtain ⟨⟨_, entry⟩, member, rfl⟩ := List.mem_map.mp gone
        obtain ⟨there, late⟩ := List.mem_filter.mp member
        have found := balanced.distinct.find?_of_mem there
        have passing : ¬state.Permanent _ := not_permanent_of_expired found late
        exact .of_not_permanent removed.evictions passing
      · exact (timed.trans (removed.lasts gone)).trans told

theorem Reclaims.lasts {answer : Nat} (reclaims : Reclaims setup state answer final)
    (balanced : state.Balanced setup) : Lasts asked state final := by
  cases reclaims with
  | reclaimed cleans =>
      have timed : Lasts asked state state.timed := .of_lifetime rfl rfl
      exact timed.trans (cleans.lasts balanced.timed)

theorem Deletes.lasts {answer : Bool} (deletes : Deletes setup key state answer final)
    (different : key ≠ asked) : Lasts asked state final := by
  cases deletes with
  | deleted removes => exact (removes.lasts (.inl different)).trans (.of_lifetime rfl rfl)

theorem Reads.lasts {answer : Option Value} (reads : Reads setup key state answer final)
    (sturdy : setup.Sturdy storable sound shelves)
    (agrees : Agrees setup storable sound shelves newest state) : Lasts asked state final := by
  cases reads with
  | missing => exact .of_lifetime rfl rfl
  | expired found late removed =>
      have timed : Lasts asked state state.timed := .of_lifetime rfl rfl
      have gone : Lasts asked state.timed _ := removed.lasts <| by
        by_cases own : key = asked
        · exact .inr (own ▸ not_permanent_of_expired found late)
        · exact .inl own
      exact (timed.trans gone).trans (.of_lifetime rfl rfl)
  | stale found _ get =>
      have new := agrees.newest_of_get sturdy found get
      obtain ⟨value, same, -⟩ := agrees.sized _ _ found
      rw [same] at new
      cases new
  | failed found _ get _ => cases agrees.newest_of_get sturdy found get
  | @hit entry _ world _ found _ get rises =>
      have asks : Lasts asked state (state.timed.inWorld world) := .of_lifetime rfl rfl
      have touched : Lasts asked (state.timed.inWorld world)
          (CacheState.touch setup (state.timed.inWorld world) key entry) := .touch found
      have hits : Lasts asked (CacheState.touch setup (state.timed.inWorld world) key entry)
          (CacheState.touch setup (state.timed.inWorld world) key entry).hit :=
        .of_lifetime rfl rfl
      exact ((asks.trans touched).trans hits).trans (rises.lasts lookup_touch)

theorem Reads.eq_none_of_expired {answer : Option Value}
    (reads : Reads setup key state answer final)
    (late : ∀ entry, state.lookup key = some entry →
      entry.isExpired (setup.clock state.readings) = true) : answer = none := by
  cases reads with
  | missing => rfl
  | expired => rfl
  | stale => rfl
  | failed => rfl
  | hit found live => cases live.symm.trans (late _ found)

theorem Replaces.lasts (replaces : Replaces setup key tier state final) (different : key ≠ asked) :
    Lasts asked state final := by
  cases replaces with
  | nothing => exact .refl _ _
  | here => exact .forget_other different
  | @elsewhere old _ world =>
      have gone : Lasts asked state (state.forget key old) := .forget_other different
      exact gone.trans (.of_lifetime rfl rfl)

theorem Writes.lasts {answer : Bool} (writes : Writes setup key value lifetime? state answer final)
    (different : key ≠ asked) : Lasts asked state final := by
  cases writes with
  | unserializable => exact .of_lifetime rfl rfl
  | tooLarge _ room => exact room.lasts.trans (.of_lifetime rfl rfl)
  | refused _ _ room refuses =>
      exact (room.lasts.trans refuses.lasts).trans (.of_lifetime rfl rfl)
  | @written size tier roomy world replaced _ _ room _ _ replaces =>
      have put : Lasts asked roomy (roomy.inWorld world) := .of_lifetime rfl rfl
      have entered : Lasts asked replaced
          (insert setup replaced key size tier (lifetime? <|> setup.defaultLifetime?)) := by
        refine .of_lifetime rfl ?_
        rw [lookup_insert, if_neg (Ne.symm different)]
      exact (((room.lasts.trans put).trans (replaces.lasts different)).trans entered).trans
        (.of_lifetime rfl rfl)

/-- A value that is stored without a lifetime, and with no default for it, gets an entry that never
expires. -/
theorem Writes.permanent (writes : Writes setup key value none state true final)
    (unlimited : setup.defaultLifetime? = none) : final.Permanent key := by
  cases writes with
  | written _ _ _ _ _ _ =>
      refine ⟨_, (lookup_insert key).trans (if_pos rfl), ?_⟩
      exact unlimited

end CacheState

end TierVault
