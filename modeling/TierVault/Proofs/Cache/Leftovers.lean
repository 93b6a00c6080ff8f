import TierVault.Proofs.Cache.Freshness
import TierVault.Proofs.Cache.Opening
import TierVault.Proofs.Store.Reluctant

/-!
Payloads that stay behind because a store refused to delete them.

While a cache lives, its entries tell which payload of a key counts, and what stays behind elsewhere is never
read. A cache that is built anew over the stores has no entries to go by: of the payloads of a key it adopts the
one in the hottest tier. That is the latest value, unless a payload that stayed behind lies in a hotter tier than
the latest one, or the latest one is gone.
-/

namespace TierVault

variable {World : Type}

/-- Payloads may have gone between the worlds. Refusals are not forgotten. -/
structure Wanes (sound : World → Prop) (held : Holding World) (refused : Refusals World)
    (before after : World) : Prop where
  sound : sound after
  loses : held.Loses before after
  recalls : ∀ tier key, refused before tier key → refused after tier key

theorem Wanes.refl {sound : World → Prop} {held : Holding World} {refused : Refusals World} {world : World}
    (isSound : sound world) : Wanes sound held refused world world :=
  ⟨isSound, fun _ _ _ there => there, fun _ _ before => before⟩

theorem Wanes.trans {sound : World → Prop} {held : Holding World} {refused : Refusals World}
    {before middle after : World} (first : Wanes sound held refused before middle)
    (second : Wanes sound held refused middle after) : Wanes sound held refused before after where
  sound := second.sound
  loses _ _ _ there := first.loses _ _ _ (second.loses _ _ _ there)
  recalls _ _ already := second.recalls _ _ (first.recalls _ _ already)

namespace CacheSetup.Reluctant

variable {setup : CacheSetup World} {faults : Fault → Prop} {sound : World → Prop}
  {held : Holding World} {refused : Refusals World} {tier : Tier} {key : String} {value : Value}
  {before after : World}

theorem wanes_get (reluctant : setup.Reluctant faults sound held refused) (isSound : sound before)
    {answer : Except StoreError (Option Value)}
    (ended : ((setup.stores.get tier).get key).run before = .ok answer after) :
    Wanes sound held refused before after where
  sound := (reluctant.steady.get tier key before isSound).of_ok ended
  loses := (reluctant.faithful.get _ _ _ _ _ ended).1
  recalls place asked there := ((reluctant.recalls place asked).get tier key before there).of_ok ended

/-- Where a read finds nothing, nothing is held. -/
theorem not_held_of_get (reluctant : setup.Reluctant faults sound held refused) (isSound : sound before)
    (ended : ((setup.stores.get tier).get key).run before = .ok (.ok none) after) (value : Value) :
    ¬held after tier key value := by
  intro there
  have before := (reluctant.faithful.get _ _ _ _ _ ended).1 _ _ _ there
  cases (reluctant.get _ _ _ _ _ isSound ended).2 value before

theorem wanes_delete (reluctant : setup.Reluctant faults sound held refused) (isSound : sound before)
    {answer : Except StoreError Bool}
    (ended : ((setup.stores.get tier).delete key).run before = .ok answer after) :
    Wanes sound held refused before after where
  sound := (reluctant.steady.delete tier key before isSound).of_ok ended
  loses := reluctant.faithful.delete _ _ _ _ _ ended
  recalls place asked there := ((reluctant.recalls place asked).delete tier key before there).of_ok ended

theorem wanes_clear (reluctant : setup.Reluctant faults sound held refused) (isSound : sound before)
    {answer : Except StoreError Unit}
    (ended : (setup.stores.get tier).clear.run before = .ok answer after) :
    Wanes sound held refused before after where
  sound := (reluctant.steady.clear tier before isSound).of_ok ended
  loses := (reluctant.clear _ _ _ _ isSound ended).1
  recalls place asked there := ((reluctant.recalls place asked).clear tier before there).of_ok ended

theorem wanes_refused (reluctant : setup.Reluctant faults sound held refused) (isSound : sound before)
    {error : StoreError}
    (ended : ((setup.stores.get tier).put key value).run before = .ok (.error error) after) :
    Wanes sound held refused before after where
  sound := (reluctant.steady.put tier key value before isSound).of_ok ended
  loses := reluctant.faithful.put_failed _ _ _ _ _ _ ended
  recalls place asked there := ((reluctant.recalls place asked).put tier key value before there).of_ok ended

end CacheSetup.Reluctant

namespace CacheState

variable {setup : CacheSetup World} {faults : Fault → Prop} {sound : World → Prop}
  {held : Holding World} {refused : Refusals World} {wrote : String → Value → Prop}
  {state middle final : CacheState World} {key : String} {entry : Entry} {value : Value}
  {tier target hottest : Tier} {kept : List String} {lifetime? : Option Nat} {world : World}

def IsIn (state : CacheState World) (key : String) (tier : Tier) : Prop :=
  ∃ entry, state.lookup key = some entry ∧ entry.tier = tier

/-- What the stores hold was written under its key. It lies where the entry of the key is, or in a tier whose
store refused to delete it. -/
structure Tracked (sound : World → Prop) (held : Holding World) (refused : Refusals World)
    (wrote : String → Value → Prop) (state : CacheState World) : Prop where
  sound : sound state.world
  wrote : ∀ {tier key value}, held state.world tier key value → wrote key value
  placed : ∀ {tier key value}, held state.world tier key value →
    state.IsIn key tier ∨ refused state.world tier key

/-- One more value was written. -/
def Also (wrote : String → Value → Prop) (key : String) (value : Value) : String → Value → Prop :=
  fun asked found => wrote asked found ∨ asked = key ∧ found = value

namespace Tracked

theorem start (isSound : sound world) (bare : ∀ tier key value, ¬held world tier key value) :
    Tracked sound held refused wrote (.start setup world) :=
  ⟨isSound, fun there => absurd there (bare _ _ _), fun there => absurd there (bare _ _ _)⟩

/-- Only entries and world count. -/
theorem congr (tracked : Tracked sound held refused wrote state) (entries : final.entries = state.entries)
    (world : final.world = state.world) : Tracked sound held refused wrote final := by
  obtain ⟨isSound, written, placed⟩ := tracked
  refine ⟨world ▸ isSound, world ▸ written, ?_⟩
  unfold IsIn lookup
  rw [world, entries]
  exact placed

theorem mono {more : String → Value → Prop} (tracked : Tracked sound held refused wrote state)
    (known : ∀ key value, wrote key value → more key value) : Tracked sound held refused more state :=
  ⟨tracked.sound, fun there => known _ _ (tracked.wrote there), tracked.placed⟩

/-- Payloads go, and entries only with their payloads. -/
theorem wane (tracked : Tracked sound held refused wrote state)
    (wanes : Wanes sound held refused state.world final.world)
    (still : ∀ tier key value, held final.world tier key value → state.IsIn key tier →
      final.IsIn key tier ∨ refused final.world tier key) :
    Tracked sound held refused wrote final := by
  refine ⟨wanes.sound, fun there => tracked.wrote (wanes.loses _ _ _ there), ?_⟩
  intro tier key value there
  rcases tracked.placed (wanes.loses _ _ _ there) with isIn | before
  · exact still tier key value there isIn
  · exact .inr (wanes.recalls _ _ before)

theorem inWorld (tracked : Tracked sound held refused wrote state)
    (wanes : Wanes sound held refused state.world world) :
    Tracked sound held refused wrote (state.inWorld world) :=
  tracked.wane wanes fun _ _ _ _ isIn => .inl isIn

/-- The entry of a key goes where its payload has gone or was refused to go. -/
theorem drop (tracked : Tracked sound held refused wrote state)
    (found : state.lookup key = some entry) (wanes : Wanes sound held refused state.world world)
    (gone : ∀ value, held world entry.tier key value → refused world entry.tier key) :
    Tracked sound held refused wrote ((state.forget key entry).inWorld world) := by
  refine tracked.wane wanes ?_
  rintro place asked value there ⟨other, known, own⟩
  by_cases same : asked = key
  · subst same
    cases found.symm.trans known
    subst own
    exact .inr (gone value there)
  · refine .inl ⟨other, ?_, own⟩
    rw [lookup_inWorld, lookup_forget, if_neg same]
    exact known

theorem remove (tracked : Tracked sound held refused wrote state)
    (reluctant : setup.Reluctant faults sound held refused) (found : state.lookup key = some entry)
    {answer : Except StoreError Bool}
    (deleted : ((setup.stores.get entry.tier).delete key).run state.world = .ok answer world) :
    Tracked sound held refused wrote ((state.forget key entry).inWorld world) :=
  tracked.drop found (reluctant.wanes_delete tracked.sound deleted)
    (reluctant.delete _ _ _ _ _ tracked.sound deleted).1

theorem read (tracked : Tracked sound held refused wrote state)
    (reluctant : setup.Reluctant faults sound held refused) {answer : Except StoreError (Option Value)}
    (get : ((setup.stores.get tier).get key).run state.world = .ok answer world) :
    Tracked sound held refused wrote (state.inWorld world) :=
  tracked.inWorld (reluctant.wanes_get tracked.sound get)

theorem wrote_of_get (tracked : Tracked sound held refused wrote state)
    (reluctant : setup.Reluctant faults sound held refused)
    (get : ((setup.stores.get tier).get key).run state.world = .ok (.ok (some value)) world) :
    wrote key value :=
  tracked.wrote ((reluctant.faithful.get _ _ _ _ _ get).2 value rfl)

theorem refuse {size : Nat} (tracked : Tracked sound held refused wrote state)
    (reluctant : setup.Reluctant faults sound held refused)
    (refuses : Refuses setup key size value target state final) :
    Tracked sound held refused wrote final := by
  cases refuses with
  | because _ put => exact tracked.inWorld (reluctant.wanes_refused tracked.sound put)

/-- A value is put, and what its key had elsewhere goes or is refused to go. -/
theorem overwrite {written : World} (tracked : Tracked sound held refused wrote state)
    (reluctant : setup.Reluctant faults sound held refused)
    (put : ((setup.stores.get target).put key value).run state.world = .ok (.ok ()) written)
    (wanes : Wanes sound held refused written final.world) (here : final.IsIn key target)
    (left : ∀ place found, place ≠ target → state.IsIn key place → held final.world place key found →
      refused final.world place key)
    (others : ∀ asked place, asked ≠ key → state.IsIn asked place → final.IsIn asked place) :
    Tracked sound held refused (Also wrote key value) final := by
  have copied := reluctant.faithful.put _ _ _ _ _ put
  have recalls {place : Tier} {asked : String} (before : refused state.world place asked) :
      refused final.world place asked :=
    wanes.recalls _ _ (((reluctant.recalls place asked).put target key value _ before).of_ok put)
  have elsewhere {place : Tier} {asked : String} {found : Value} (there : held final.world place asked found)
      (apart : place ≠ target ∨ asked ≠ key) : held state.world place asked found :=
    copied.2 _ _ _ apart (wanes.loses _ _ _ there)
  refine ⟨wanes.sound, ?_, ?_⟩
  · intro place asked found there
    by_cases own : place = target ∧ asked = key
    · obtain ⟨rfl, rfl⟩ := own
      exact .inr ⟨rfl, copied.1 found (wanes.loses _ _ _ there)⟩
    · exact .inl (tracked.wrote (elsewhere there (Decidable.not_and_iff_not_or_not.mp own)))
  · intro place asked found there
    by_cases own : asked = key
    · subst own
      by_cases same : place = target
      · exact .inl (same ▸ here)
      · rcases tracked.placed (elsewhere there (.inl same)) with isIn | before
        · exact .inr (left place found same isIn there)
        · exact .inr (recalls before)
    · rcases tracked.placed (elsewhere there (.inr own)) with isIn | before
      · exact .inl (others asked place own isIn)
      · exact .inr (recalls before)

/-- A payload that is copied stays behind only where its store refuses to delete it. -/
theorem moves (tracked : Tracked sound held refused wrote state)
    (reluctant : setup.Reluctant faults sound held refused) (found : state.lookup key = some entry)
    (known : wrote key value) (moves : Moves setup key entry value target state final) :
    Tracked sound held refused wrote final := by
  cases moves with
  | @followed written after _ _ put deleted =>
      have isSound := (reluctant.steady.put target key value _ tracked.sound).of_ok put
      have moved : Tracked sound held refused (Also wrote key value)
          ((state.inWorld after).relocate key entry target) := by
        refine tracked.overwrite reluctant put (reluctant.wanes_delete isSound deleted) ?_ ?_ ?_
        · exact ⟨_, by rw [lookup_relocate, if_pos rfl], rfl⟩
        · rintro place other - ⟨_, same, rfl⟩ there
          cases found.symm.trans same
          exact (reluctant.delete _ _ _ _ _ isSound deleted).1 other there
        · rintro asked place different ⟨other, same, own⟩
          refine ⟨other, ?_, own⟩
          rw [lookup_relocate, if_neg different]
          exact same
      refine moved.mono fun asked other already => ?_
      rcases already with before | ⟨rfl, rfl⟩
      · exact before
      · exact known

theorem retreat (reluctant : setup.Reluctant faults sound held refused)
    (retreat : Retreat setup hottest kept state final)
    (tracked : Tracked sound held refused wrote state) : Tracked sound held refused wrote final := by
  induction retreat with
  | stay => exact tracked
  | read _ get induction => exact (induction tracked).read reluctant get
  | stuck _ _ _ _ _ get _ refuses induction inner =>
      exact (inner ((induction tracked).read reluctant get)).refuse reluctant refuses
  | evict _ found _ _ deleted induction =>
      exact ((induction tracked).remove reluctant found deleted).congr rfl rfl
  | demote _ found _ _ _ get room moved induction inner =>
      have here := induction tracked
      have roomy := inner (here.read reluctant get)
      have still := room.lookup_of_mem (List.mem_append_right _ (List.mem_singleton.mpr rfl))
      have followed := roomy.moves reluctant (still.trans found) (here.wrote_of_get reluctant get) moved
      exact followed.congr rfl rfl

end Tracked

/-! ## After each outcome -/

theorem Removes.tracked {removed : Bool} (removes : Removes setup key state removed final)
    (reluctant : setup.Reluctant faults sound held refused)
    (tracked : Tracked sound held refused wrote state) : Tracked sound held refused wrote final := by
  cases removes with
  | missing => exact tracked
  | removed found deleted => exact tracked.remove reluctant found deleted

theorem RemovesAll.tracked {keys : List String} (removes : RemovesAll setup keys state final)
    (reluctant : setup.Reluctant faults sound held refused)
    (tracked : Tracked sound held refused wrote state) : Tracked sound held refused wrote final := by
  induction removes with
  | nil => exact tracked
  | cons first _ induction => exact induction (first.tracked reluctant tracked)

theorem Rises.tracked (rises : Rises setup key entry value state final)
    (reluctant : setup.Reluctant faults sound held refused) (found : state.lookup key = some entry)
    (known : wrote key value) (tracked : Tracked sound held refused wrote state) :
    Tracked sound held refused wrote final := by
  cases rises with
  | stays room => exact tracked.retreat reluctant room
  | refused _ room refuses => exact (tracked.retreat reluctant room).refuse reluctant refuses
  | rises _ room moves =>
      have still := room.lookup_of_mem (List.mem_singleton.mpr rfl)
      have followed := (tracked.retreat reluctant room).moves reluctant (still.trans found) known moves
      exact followed.congr rfl rfl

theorem Reads.tracked {answer : Option Value} (reads : Reads setup key state answer final)
    (reluctant : setup.Reluctant faults sound held refused)
    (tracked : Tracked sound held refused wrote state) : Tracked sound held refused wrote final := by
  have timed : Tracked sound held refused wrote state.timed := tracked.congr rfl rfl
  cases reads with
  | missing => exact timed.congr rfl rfl
  | expired _ _ removed => exact (removed.tracked reluctant timed).congr rfl rfl
  | stale found _ get =>
      refine (timed.drop found (reluctant.wanes_get timed.sound get) fun value there => ?_).congr rfl rfl
      exact absurd there (reluctant.not_held_of_get tracked.sound get value)
  | failed _ _ get removed =>
      exact (removed.tracked reluctant (timed.read reluctant get)).congr rfl rfl
  | @hit entry value world _ found _ get rises =>
      have read := timed.read reluctant get
      refine rises.tracked reluctant lookup_touch (tracked.wrote_of_get reluctant get) ?_
      refine read.wane (.refl read.sound) ?_
      rintro place asked other - ⟨known, same, own⟩
      by_cases touches : asked = key
      · subst touches
        cases found.symm.trans same
        exact .inl ⟨_, lookup_touch, own⟩
      · exact .inl ⟨known, (Keyed.find?_put_other _ _ touches).trans same, own⟩

theorem Has.tracked {answer : Bool} (has : Has setup key state answer final)
    (reluctant : setup.Reluctant faults sound held refused)
    (tracked : Tracked sound held refused wrote state) : Tracked sound held refused wrote final := by
  have timed : Tracked sound held refused wrote state.timed := tracked.congr rfl rfl
  cases has with
  | missing => exact tracked
  | expired _ _ removed => exact (removed.tracked reluctant timed).congr rfl rfl
  | present => exact timed

theorem Cleans.tracked {answer : Nat} (cleans : Cleans setup state answer final)
    (reluctant : setup.Reluctant faults sound held refused)
    (tracked : Tracked sound held refused wrote state) : Tracked sound held refused wrote final := by
  have timed : Tracked sound held refused wrote state.timed := tracked.congr rfl rfl
  cases cleans with
  | cleaned removed => exact (removed.tracked reluctant timed).congr rfl rfl

/-- What is left of the old payload is in a tier whose store refused to delete it. -/
theorem Replaces.refused_of_held {place : Tier} {found : Value}
    (replaces : Replaces setup key tier state final)
    (reluctant : setup.Reluctant faults sound held refused) (isSound : sound state.world)
    (isIn : state.IsIn key place) (apart : place ≠ tier)
    (there : held final.world place key found) : refused final.world place key := by
  obtain ⟨entry, known, rfl⟩ := isIn
  cases replaces with
  | nothing unknown => cases unknown.symm.trans known
  | here other same =>
      cases other.symm.trans known
      exact absurd same apart
  | elsewhere other _ deleted =>
      cases other.symm.trans known
      exact (reluctant.delete _ _ _ _ _ isSound deleted).1 found there

theorem Replaces.wanes (replaces : Replaces setup key tier state final)
    (reluctant : setup.Reluctant faults sound held refused) (isSound : sound state.world) :
    Wanes sound held refused state.world final.world := by
  cases replaces with
  | nothing => exact .refl isSound
  | here => exact .refl isSound
  | elsewhere _ _ deleted => exact reluctant.wanes_delete isSound deleted

theorem Writes.tracked {answer : Bool} (writes : Writes setup key value lifetime? state answer final)
    (reluctant : setup.Reluctant faults sound held refused)
    (tracked : Tracked sound held refused wrote state) :
    Tracked sound held refused (if answer then Also wrote key value else wrote) final := by
  cases writes with
  | unserializable => exact tracked.congr rfl rfl
  | tooLarge _ room => exact (tracked.retreat reluctant room).congr rfl rfl
  | refused _ _ room refuses =>
      exact ((tracked.retreat reluctant room).refuse reluctant refuses).congr rfl rfl
  | @written size place roomy world replaced _ _ room _ put replaces =>
      have ready := tracked.retreat reluctant room
      have isSound := (reluctant.steady.put place key value _ ready.sound).of_ok put
      let next := insert setup replaced key size place (lifetime? <|> setup.defaultLifetime?)
      have taken : Tracked sound held refused (Also wrote key value) next := by
        refine ready.overwrite reluctant put (replaces.wanes reluctant isSound) ?_ ?_ ?_
        · exact ⟨_, by rw [lookup_insert, if_pos rfl], rfl⟩
        · intro other found apart isIn there
          exact replaces.refused_of_held reluctant isSound isIn apart there
        · rintro asked other different ⟨entry, same, own⟩
          refine ⟨entry, ?_, own⟩
          rw [lookup_insert, if_neg different, replaces.lookup_other different]
          exact same
      exact taken.congr rfl rfl

theorem Deletes.tracked {answer : Bool} (deletes : Deletes setup key state answer final)
    (reluctant : setup.Reluctant faults sound held refused)
    (tracked : Tracked sound held refused wrote state) : Tracked sound held refused wrote final := by
  cases deletes with
  | deleted removes => exact (removes.tracked reluctant tracked).congr rfl rfl

theorem Empties.wanes {tiers : List Tier} (empties : Empties setup tiers state final)
    (reluctant : setup.Reluctant faults sound held refused) (isSound : sound state.world) :
    Wanes sound held refused state.world final.world ∧
      ∀ tier ∈ tiers, ∀ key value, ¬held final.world tier key value := by
  induction empties with
  | nil => exact ⟨.refl isSound, nofun⟩
  | cons cleared _ induction =>
      have first := reluctant.wanes_clear isSound cleared
      obtain ⟨later, bare⟩ := induction first.sound
      refine ⟨first.trans later, List.forall_mem_cons.mpr ⟨fun key value there => ?_, bare⟩⟩
      exact (reluctant.clear _ _ _ _ isSound cleared).2 key value (later.loses _ _ _ there)

theorem Clears.tracked (clears : Clears setup state final)
    (reluctant : setup.Reluctant faults sound held refused)
    (tracked : Tracked sound held refused wrote state) : Tracked sound held refused wrote final := by
  cases clears with
  | @cleared emptied empties =>
      obtain ⟨wanes, bare⟩ := empties.wanes reluctant tracked.sound
      refine ⟨wanes.sound, fun there => ?_, fun there => ?_⟩
      all_goals exact absurd there (bare _ (by cases ‹Tier› <;> decide) _ _)

/-! ## Along a run -/

/-- A write of the value under the key was taken. -/
def Wrote (history : List CacheEvent) (key : String) (value : Value) : Prop :=
  ∃ lifetime?, ⟨.put key value lifetime?, true⟩ ∈ history

theorem Wrote.append {history : List CacheEvent} (wrote : Wrote history key value)
    (later : List CacheEvent) : Wrote (history ++ later) key value := by
  obtain ⟨lifetime?, member⟩ := wrote
  exact ⟨lifetime?, List.mem_append_left later member⟩

theorem tracked_of_outcome {event : CacheEvent} {past : List CacheEvent}
    (outcome : event.call.Outcome setup state event.answer final)
    (reluctant : setup.Reluctant faults sound held refused)
    (tracked : Tracked sound held refused (Wrote past) state) :
    Tracked sound held refused (Wrote (past ++ [event])) final := by
  have older : ∀ key value, Wrote past key value → Wrote (past ++ [event]) key value :=
    fun _ _ wrote => wrote.append [event]
  rcases event with ⟨call, answer⟩
  cases call with
  | put key value lifetime? =>
      refine (Writes.tracked outcome reluctant tracked).mono fun asked found written => ?_
      cases answer with
      | false => exact older asked found written
      | true =>
          rcases written with before | ⟨rfl, rfl⟩
          · exact older asked found before
          · exact ⟨lifetime?, List.mem_append_right _ (List.mem_singleton.mpr rfl)⟩
  | get key => exact (Reads.tracked outcome reluctant tracked).mono older
  | delete key => exact (Deletes.tracked outcome reluctant tracked).mono older
  | has key => exact (Has.tracked outcome reluctant tracked).mono older
  | clear => exact (Clears.tracked outcome reluctant tracked).mono older
  | cleanupExpired => exact (Cleans.tracked outcome reluctant tracked).mono older
  | reclaimExpired =>
      have timed : Tracked sound held refused (Wrote past) state.timed := tracked.congr rfl rfl
      cases outcome with
      | reclaimed cleans => exact (cleans.tracked reluctant timed).mono older

theorem Lives.tracked {past history : List CacheEvent} (lives : Lives setup state history final)
    (reluctant : setup.Reluctant faults sound held refused)
    (tracked : Tracked sound held refused (Wrote past) state) :
    Tracked sound held refused (Wrote (past ++ history)) final := by
  induction lives generalizing past with
  | rest => rwa [List.append_nil]
  | next event outcome _ induction =>
      have onward := induction (tracked_of_outcome outcome reluctant tracked)
      rwa [List.append_assoc] at onward

/-- A payload that a store holds in the end is the latest value of its key, or its store refused to delete it. -/
theorem Tracked.latest_or_refused {history : List CacheEvent}
    (tracked : Tracked sound held refused (Wrote history) state) (fresh : Fresh held (latest · history) state)
    (there : held state.world tier key value) :
    latest key history = some value ∨ ¬state.IsIn key tier ∧ refused state.world tier key := by
  by_cases isIn : state.IsIn key tier
  · obtain ⟨entry, found, rfl⟩ := isIn
    obtain ⟨newest, new, only⟩ := fresh key entry found
    exact .inl (only value there ▸ new)
  · exact .inr ⟨isIn, (tracked.placed there).resolve_left isIn⟩

end CacheState

end TierVault
