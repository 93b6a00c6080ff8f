import TierVault.Proofs.Cache.Agreement
import TierVault.Proofs.Cache.Freshness
import TierVault.Proofs.Store.Faltering

/-!
What stores hold whose calls may fail at any time.

As long as the store of a tier has not refused to delete anything, it holds the latest values of the entries of
the tier, and nothing else: a write that fails changes nothing, and one that is taken had room. Once it has
refused, it holds more than the cache counts, and may give up what it should keep to make room on its own. What
is left of an entry's payload is the latest value of its key in any case.
-/

namespace TierVault

variable {World : Type}

namespace CacheState

variable {setup : CacheSetup World} {storable : Value → Prop} {sound : World → Prop}
  {shelves : World → Tier → Shelf} {held : Holding World} {refused : World → Tier → Prop}
  {newest : String → Option Value} {state middle final : CacheState World} {key : String}
  {entry : Entry} {value : Value} {tier target hottest : Tier} {kept : List String} {size : Nat}
  {lifetime? : Option Nat} {world : World}

/-- The stores that have refused nothing hold what they should. -/
def Exact (shelves : World → Tier → Shelf) (refused : World → Tier → Prop)
    (newest : String → Option Value) (state : CacheState World) : Prop :=
  ∀ tier, ¬refused state.world tier → shelves state.world tier = state.shelf newest tier

structure Stocked (setup : CacheSetup World) (storable : Value → Prop) (sound : World → Prop)
    (shelves : World → Tier → Shelf) (held : Holding World) (refused : World → Tier → Prop)
    (newest : String → Option Value) (state : CacheState World) : Prop where
  balanced : state.Balanced setup
  sound : sound state.world
  sized : Sized storable newest state
  fresh : Fresh held newest state
  exact : Exact shelves refused newest state

/-- An entry goes, and its payload with it, unless the store refused that. -/
theorem Exact.forget (exact : Exact shelves refused newest state) (sized : Sized storable newest state)
    (found : state.lookup key = some entry)
    (recalls : ∀ place, refused state.world place → refused world place)
    (others : ∀ place, place ≠ entry.tier → shelves world place = shelves state.world place)
    (own : ¬refused world entry.tier →
      shelves world entry.tier = (shelves state.world entry.tier).remove key) :
    Exact shelves refused newest ((state.forget key entry).inWorld world) := by
  intro place spared
  have before := exact place fun already => spared (recalls place already)
  have less := congrFun (shelf_forget sized found) place
  change shelves world place = (state.forget key entry).shelf newest place
  by_cases same : place = entry.tier
  · subst same
    rw [own spared, before, less, Shelf.change_same]
  · rw [others place same, before, less, Shelf.change_other _ _ same]

namespace Stocked

/-- Only entries, counts and world matter. -/
theorem congr (stocked : Stocked setup storable sound shelves held refused newest state)
    (entries : final.entries = state.entries) (usage : final.usage = state.usage)
    (world : final.world = state.world) :
    Stocked setup storable sound shelves held refused newest final := by
  have lookup : final.lookup = state.lookup := by
    funext key
    exact congrArg (Keyed.find? key) entries
  have shelf : final.shelf newest = state.shelf newest := by
    funext tier
    apply Shelf.ext
    · funext asked
      rw [item?_shelf, item?_shelf, lookup]
    · exact congrArg (fun counts => (PerTier.get counts tier).bytes) usage
  refine ⟨stocked.balanced.congr entries usage, world ▸ stocked.sound, ?_, ?_, ?_⟩
  · unfold Sized
    rw [lookup]
    exact stocked.sized
  · unfold Fresh
    rw [lookup, world]
    exact stocked.fresh
  · unfold Exact
    rw [shelf, world]
    exact stocked.exact

theorem inWorld (stocked : Stocked setup storable sound shelves held refused newest state)
    (isSound : sound world) (loses : held.Loses state.world world)
    (recalls : ∀ place, refused state.world place → refused world place)
    (same : shelves world = shelves state.world) :
    Stocked setup storable sound shelves held refused newest (state.inWorld world) := by
  refine ⟨stocked.balanced.inWorld _, isSound, stocked.sized, stocked.fresh.inWorld loses, ?_⟩
  intro tier spared
  change shelves world tier = _
  rw [same]
  exact stocked.exact tier fun already => spared (recalls tier already)

theorem read (stocked : Stocked setup storable sound shelves held refused newest state)
    (faltering : setup.Faltering storable sound shelves held refused)
    {answer : Except StoreError (Option Value)}
    (get : ((setup.stores.get tier).get key).run state.world = .ok answer world) :
    Stocked setup storable sound shelves held refused newest (state.inWorld world) := by
  apply stocked.inWorld
  · exact (faltering.steady.get tier key _ stocked.sound).of_ok get
  · exact (faltering.faithful.get _ _ _ _ _ get).1
  · exact fun place already => ((faltering.recalls place).get tier key _ already).of_ok get
  · exact (faltering.get _ _ _ _ _ stocked.sound get).1

/-- Where an entry's payload is not found, the store has refused something. -/
theorem refused_of_get (stocked : Stocked setup storable sound shelves held refused newest state)
    (faltering : setup.Faltering storable sound shelves held refused)
    (found : state.lookup key = some entry)
    (get : ((setup.stores.get entry.tier).get key).run state.world = .ok (.ok none) world) :
    refused state.world entry.tier := by
  apply Classical.byContradiction
  intro spared
  have missing := (faltering.get _ _ _ _ _ stocked.sound get).2 none rfl
  rcases stocked.sized key entry found with ⟨value, new, -⟩
  rw [stocked.exact _ spared, item?_shelf_of_lookup found, if_pos rfl, new] at missing
  cases missing

theorem refuse (stocked : Stocked setup storable sound shelves held refused newest state)
    (faltering : setup.Faltering storable sound shelves held refused)
    (refuses : Refuses setup key size value target state final) :
    Stocked setup storable sound shelves held refused newest final := by
  cases refuses with
  | because _ put =>
      apply stocked.inWorld
      · exact (faltering.steady.put target key value _ stocked.sound).of_ok put
      · exact faltering.faithful.put_failed _ _ _ _ _ _ put
      · exact fun place already => ((faltering.recalls place).put target key value _ already).of_ok put
      · exact faltering.put_failed _ _ _ _ _ _ stocked.sound put

theorem remove (stocked : Stocked setup storable sound shelves held refused newest state)
    (faltering : setup.Faltering storable sound shelves held refused)
    {answer : Except StoreError Bool} (found : state.lookup key = some entry)
    (deleted : ((setup.stores.get entry.tier).delete key).run state.world = .ok answer world) :
    Stocked setup storable sound shelves held refused newest ((state.forget key entry).inWorld world) where
  balanced := (stocked.balanced.forget found).inWorld _
  sound := (faltering.steady.delete entry.tier key _ stocked.sound).of_ok deleted
  sized := stocked.sized.forget key entry
  fresh := stocked.fresh.remove faltering.faithful entry deleted
  exact := by
    apply stocked.exact.forget stocked.sized found
    · exact fun place already => ((faltering.recalls place).delete entry.tier key _ already).of_ok deleted
    · exact fun place different => faltering.delete_other stocked.sound deleted different
    · exact faltering.delete_own stocked.sound deleted

/-- An entry may go alone where its payload is gone already. -/
theorem drop (stocked : Stocked setup storable sound shelves held refused newest state)
    (found : state.lookup key = some entry) (already : refused state.world entry.tier) :
    Stocked setup storable sound shelves held refused newest (state.forget key entry) where
  balanced := stocked.balanced.forget found
  sound := stocked.sound
  sized := stocked.sized.forget key entry
  fresh := stocked.fresh.forget key entry
  exact := stocked.exact.forget stocked.sized found (fun _ refuses => refuses) (fun _ _ => rfl)
    fun spared => absurd already spared

theorem moves (stocked : Stocked setup storable sound shelves held refused newest state)
    (faltering : setup.Faltering storable sound shelves held refused)
    (found : state.lookup key = some entry) (different : entry.tier ≠ target)
    (new : newest key = some value) (moves : Moves setup key entry value target state final) :
    Stocked setup storable sound shelves held refused newest final := by
  have balanced := moves.balanced stocked.balanced found different
  have fresh := Fresh.moves faltering.faithful stocked.fresh new moves
  rcases stocked.sized key entry found with ⟨known, same, able, size_eq⟩
  cases new.symm.trans same
  cases moves with
  | @followed written after answer space put deleted =>
      have isSound := (faltering.steady.put target key value _ stocked.sound).of_ok put
      have stays := (faltering.steady.delete entry.tier key _ isSound).of_ok deleted
      refine ⟨balanced, stays, stocked.sized.relocate found target, fresh, ?_⟩
      intro place spared
      have recalls (already : refused state.world place) : refused after place := by
        have there := ((faltering.recalls place).put target key value _ already).of_ok put
        exact ((faltering.recalls place).delete entry.tier key _ there).of_ok deleted
      have before := stocked.exact place fun already => spared (recalls already)
      obtain ⟨others, taken⟩ := faltering.put _ _ _ _ _ stocked.sound put
      change shelves after place = (state.relocate key entry target).shelf newest place
      rw [shelf_relocate stocked.sized found different new]
      by_cases own : place = entry.tier
      · subst own
        rw [faltering.delete_own isSound deleted spared, others _ different, before, Shelf.change_same,
          Shelf.change_other _ _ different]
      · rw [faltering.delete_other isSound deleted own, Shelf.change_other _ _ own]
        by_cases there : place = target
        · subst there
          have fits := fits_of_elsewhere found different space
          have room := stocked.balanced.shelf_put_le stocked.sized size_eq fits
          rw [taken able (before ▸ room), before, Shelf.change_same]
        · rw [others _ there, before, Shelf.change_other _ _ there]

theorem retreat (stocked : Stocked setup storable sound shelves held refused newest state)
    (faltering : setup.Faltering storable sound shelves held refused)
    (retreat : Retreat setup hottest kept state final) :
    Stocked setup storable sound shelves held refused newest final := by
  induction retreat with
  | stay => exact stocked
  | read _ get induction => exact (induction stocked).read faltering get
  | evict _ found _ _ deleted induction =>
      exact ((induction stocked).remove faltering found deleted).congr rfl rfl rfl
  | stuck _ _ _ _ _ get _ refuses induction inner =>
      exact (inner ((induction stocked).read faltering get)).refuse faltering refuses
  | demote _ found _ _ next get room moves induction inner =>
      have here := induction stocked
      have roomy := inner (here.read faltering get)
      have kept := room.lookup_of_mem (List.mem_append_right _ (List.mem_singleton.mpr rfl))
      have new := here.fresh.value_eq faltering.faithful found get
      exact (roomy.moves faltering (kept.trans found) (Tier.ne_of_colder next) new moves).congr rfl rfl rfl

theorem touch (stocked : Stocked setup storable sound shelves held refused newest state)
    (found : state.lookup key = some entry) :
    Stocked setup storable sound shelves held refused newest (touch setup state key entry) := by
  refine ⟨stocked.balanced.touch found, stocked.sound, stocked.sized.touch found, ?_, ?_⟩
  · intro asked other known
    by_cases same : asked = key
    · subst same
      cases lookup_touch.symm.trans known
      exact stocked.fresh asked entry found
    · exact stocked.fresh asked other ((lookup_touch_other same).symm.trans known)
  · intro tier spared
    rw [shelf_touch found]
    exact stocked.exact tier spared

end Stocked

/-! ## After each outcome -/

theorem Removes.stocked {removed : Bool} (removes : Removes setup key state removed final)
    (faltering : setup.Faltering storable sound shelves held refused)
    (stocked : Stocked setup storable sound shelves held refused newest state) :
    Stocked setup storable sound shelves held refused newest final := by
  cases removes with
  | missing => exact stocked
  | removed found deleted => exact stocked.remove faltering found deleted

theorem RemovesAll.stocked {keys : List String} (removes : RemovesAll setup keys state final)
    (faltering : setup.Faltering storable sound shelves held refused)
    (stocked : Stocked setup storable sound shelves held refused newest state) :
    Stocked setup storable sound shelves held refused newest final := by
  induction removes with
  | nil => exact stocked
  | cons first _ induction => exact induction (first.stocked faltering stocked)

theorem Cleans.stocked {answer : Nat} (cleans : Cleans setup state answer final)
    (faltering : setup.Faltering storable sound shelves held refused)
    (stocked : Stocked setup storable sound shelves held refused newest state) :
    Stocked setup storable sound shelves held refused newest final := by
  cases cleans with
  | cleaned removed => exact (removed.stocked faltering (stocked.congr rfl rfl rfl)).congr rfl rfl rfl

theorem Has.stocked {answer : Bool} (has : Has setup key state answer final)
    (faltering : setup.Faltering storable sound shelves held refused)
    (stocked : Stocked setup storable sound shelves held refused newest state) :
    Stocked setup storable sound shelves held refused newest final := by
  cases has with
  | missing => exact stocked
  | expired _ _ removed => exact (removed.stocked faltering (stocked.congr rfl rfl rfl)).congr rfl rfl rfl
  | present => exact stocked.congr rfl rfl rfl

theorem Rises.stocked (rises : Rises setup key entry value state final)
    (faltering : setup.Faltering storable sound shelves held refused)
    (stocked : Stocked setup storable sound shelves held refused newest state)
    (found : state.lookup key = some entry) (new : newest key = some value) :
    Stocked setup storable sound shelves held refused newest final := by
  cases rises with
  | stays room => exact stocked.retreat faltering room
  | refused _ room refuses => exact (stocked.retreat faltering room).refuse faltering refuses
  | rises hotter room moves =>
      have kept := room.lookup_of_mem (List.mem_singleton.mpr rfl)
      have different := Tier.ne_of_colder (Tier.hotter_eq_some_iff.mp hotter)
      have roomy := stocked.retreat faltering room
      exact (roomy.moves faltering (kept.trans found) different.symm new moves).congr rfl rfl rfl

theorem Reads.stocked {answer : Option Value} (reads : Reads setup key state answer final)
    (faltering : setup.Faltering storable sound shelves held refused)
    (stocked : Stocked setup storable sound shelves held refused newest state) :
    Stocked setup storable sound shelves held refused newest final := by
  have timed : Stocked setup storable sound shelves held refused newest state.timed :=
    stocked.congr rfl rfl rfl
  cases reads with
  | missing => exact timed.congr rfl rfl rfl
  | expired _ _ removed => exact (removed.stocked faltering timed).congr rfl rfl rfl
  | @stale entry world found _ get =>
      have already := stocked.refused_of_get faltering found get
      have recalled := ((faltering.recalls entry.tier).get entry.tier key _ already).of_ok get
      exact ((timed.read faltering get).drop found recalled).congr rfl rfl rfl
  | failed _ _ get removed =>
      exact (removed.stocked faltering (timed.read faltering get)).congr rfl rfl rfl
  | hit found _ get rises =>
      have new := stocked.fresh.value_eq faltering.faithful found get
      have read := timed.read faltering get
      exact rises.stocked faltering ((read.touch found).congr rfl rfl rfl) lookup_touch new

theorem Deletes.stocked {answer : Bool} (deletes : Deletes setup key state answer final)
    (faltering : setup.Faltering storable sound shelves held refused)
    (stocked : Stocked setup storable sound shelves held refused newest state) :
    Stocked setup storable sound shelves held refused
      (fun asked => if answer = true ∧ key = asked then none else newest asked) final := by
  have fresh := deletes.fresh faltering.faithful stocked.fresh
  cases deletes with
  | @deleted outcome removed removes =>
      have left : Stocked setup storable sound shelves held refused newest
          (removed.recorded "delete" outcome) :=
        (removes.stocked faltering stocked).congr rfl rfl rfl
      have same (asked : String) (entry : Entry)
          (found : (removed.recorded "delete" outcome).lookup asked = some entry) :
          (if answer = true ∧ key = asked then none else newest asked) = newest asked := by
        apply if_neg
        rintro ⟨-, rfl⟩
        cases removes.lookup.symm.trans found
      refine ⟨left.balanced, left.sound, left.sized.renewed same, fresh, fun tier spared => ?_⟩
      rw [shelf_renewed same]
      exact left.exact tier spared

/-- The new value takes the place of the old entry's, in the same tier or another. -/
theorem Replaces.exact (replaces : Replaces setup key tier state final)
    (faltering : setup.Faltering storable sound shelves held refused)
    (sized : Sized storable newest state) (isSound : sound state.world)
    (written : ∀ place, ¬refused state.world place →
      shelves state.world place = Shelf.change (state.shelf newest) tier (·.put key value) place) :
    Sized storable newest final ∧ sound final.world ∧ ∀ place, ¬refused final.world place →
      shelves final.world place = Shelf.change (final.shelf newest) tier (·.put key value) place := by
  cases replaces with
  | nothing => exact ⟨sized, isSound, written⟩
  | here found same =>
      refine ⟨sized.forget _ _, isSound, fun place spared => (written place spared).trans ?_⟩
      rw [shelf_forget sized found, same, Shelf.change_change]
      simp only [Shelf.put_remove]
  | @elsewhere old answer world found different deleted =>
      have stays := (faltering.steady.delete old.tier key _ isSound).of_ok deleted
      refine ⟨sized.forget key old, stays, fun place spared => ?_⟩
      have recalls (already : refused state.world place) : refused world place :=
        ((faltering.recalls place).delete old.tier key _ already).of_ok deleted
      have before := written place fun already => spared (recalls already)
      change shelves world place = Shelf.change ((state.forget key old).shelf newest) tier _ place
      rw [shelf_forget sized found, ← Shelf.change_comm _ _ _ different.symm]
      by_cases own : place = old.tier
      · subst own
        rw [faltering.delete_own isSound deleted spared, before, Shelf.change_same]
      · rw [faltering.delete_other isSound deleted own, before, Shelf.change_other _ _ own]

/-- A value that is taken is the newest one of its key. -/
theorem Writes.stocked {answer : Bool}
    (writes : Writes setup key value lifetime? state answer final)
    (faltering : setup.Faltering storable sound shelves held refused) (able : storable value)
    (stocked : Stocked setup storable sound shelves held refused newest state) :
    Stocked setup storable sound shelves held refused
      (fun asked => if answer = true ∧ key = asked then some value else newest asked) final := by
  have balanced := writes.balanced stocked.balanced
  have fresh := writes.fresh faltering.faithful stocked.fresh
  cases writes with
  | unserializable =>
      simp only [Bool.false_eq_true, false_and, if_false]
      exact stocked.congr rfl rfl rfl
  | tooLarge _ room =>
      simp only [Bool.false_eq_true, false_and, if_false]
      exact (stocked.retreat faltering room).congr rfl rfl rfl
  | refused _ _ room refuses =>
      simp only [Bool.false_eq_true, false_and, if_false]
      exact ((stocked.retreat faltering room).refuse faltering refuses).congr rfl rfl rfl
  | @written size tier roomy world replaced size_eq _ room fits put replaces =>
      have ready := stocked.retreat faltering room
      have isSound := (faltering.steady.put tier key value _ ready.sound).of_ok put
      obtain ⟨others, taken⟩ := faltering.put _ _ _ _ _ ready.sound put
      have written (place : Tier) (spared : ¬refused world place) : shelves world place =
          Shelf.change (roomy.shelf newest) tier (·.put key value) place := by
        have recalls (already : refused roomy.world place) : refused world place :=
          ((faltering.recalls place).put tier key value _ already).of_ok put
        have before := ready.exact place fun already => spared (recalls already)
        by_cases own : place = tier
        · subst own
          have space := ready.balanced.shelf_put_le ready.sized size_eq fits
          rw [taken able (before ▸ space), before, Shelf.change_same]
        · rw [others place own, before, Shelf.change_other _ _ own]
      rcases replaces.exact faltering ready.sized isSound written with ⟨sized, stays, exact⟩
      rw [← shelf_insert replaces.lookup sized size_eq] at exact
      simp only [true_and] at fresh ⊢
      exact ⟨balanced, stays, sized.insert able size_eq, fresh, exact⟩

theorem Empties.exact {tiers : List Tier} (empties : Empties setup tiers state final)
    (faltering : setup.Faltering storable sound shelves held refused) (isSound : sound state.world) :
    sound final.world ∧ (∀ tier, refused state.world tier → refused final.world tier) ∧
      ∀ tier, ¬refused final.world tier →
        shelves final.world tier = if tier ∈ tiers then .empty else shelves state.world tier := by
  induction empties with
  | nil => exact ⟨isSound, fun _ already => already, fun _ _ => rfl⟩
  | @cons first _ state _ world _ cleared _ induction =>
      have stays := (faltering.steady.clear first _ isSound).of_ok cleared
      rcases induction stays with ⟨isSoundToo, recalls, bare⟩
      refine ⟨isSoundToo, fun tier already => ?_, fun tier spared => (bare tier spared).trans ?_⟩
      · exact recalls tier (((faltering.recalls tier).clear first _ already).of_ok cleared)
      · change (if _ then _ else shelves world tier) = _
        rcases faltering.clear_cases isSound cleared with ⟨same, refuses⟩ | less
        · have own : tier ≠ first := by
            rintro rfl
            exact spared (recalls tier refuses)
          simp [own, same]
        · by_cases own : tier = first
          · subst own
            simp [less, Shelf.change_same]
          · simp [own, less, Shelf.change_other]

theorem Clears.stocked (clears : Clears setup state final)
    (faltering : setup.Faltering storable sound shelves held refused)
    (stocked : Stocked setup storable sound shelves held refused newest state) :
    Stocked setup storable sound shelves held refused (fun _ => none) final := by
  have balanced := clears.balanced stocked.balanced
  have fresh : Fresh held (fun _ => none) final := clears.fresh
  cases clears with
  | cleared empties =>
      rcases empties.exact faltering stocked.sound with ⟨stays, -, emptied⟩
      refine ⟨balanced, stays, fun key entry found => ?_, fresh, fun tier spared => ?_⟩
      · cases found
      · have every : tier ∈ Tier.all := by cases tier <;> decide
        refine (emptied tier spared).trans ?_
        rw [if_pos every]
        apply Shelf.ext
        · rfl
        · exact (balanced.bytes tier).symm

/-! ## Along a run -/

theorem stocked_of_outcome {event : CacheEvent} {past : List CacheEvent}
    (outcome : event.call.Outcome setup state event.answer final)
    (faltering : setup.Faltering storable sound shelves held refused)
    (offers : event.call.Offers storable)
    (stocked : Stocked setup storable sound shelves held refused (latest · past) state) :
    Stocked setup storable sound shelves held refused (latest · (past ++ [event])) final := by
  rcases event with ⟨call, answer⟩
  simp only [latest_append]
  cases call with
  | put key value lifetime? =>
      have written := Writes.stocked outcome faltering offers stocked
      cases answer with
      | true => simpa [CacheEvent.update] using written
      | false => simpa [CacheEvent.update] using written
  | get key => exact Reads.stocked outcome faltering stocked
  | delete key =>
      have deleted := Deletes.stocked outcome faltering stocked
      cases answer with
      | true => simpa [CacheEvent.update] using deleted
      | false => simpa [CacheEvent.update] using deleted
  | has key => exact Has.stocked outcome faltering stocked
  | clear => exact Clears.stocked outcome faltering stocked
  | cleanupExpired => exact Cleans.stocked outcome faltering stocked
  | reclaimExpired =>
      cases outcome with
      | reclaimed cleans => exact cleans.stocked faltering (stocked.congr rfl rfl rfl)

theorem Lives.stocked {past history : List CacheEvent} (lives : Lives setup state history final)
    (faltering : setup.Faltering storable sound shelves held refused)
    (offers : ∀ event ∈ history, event.call.Offers storable)
    (stocked : Stocked setup storable sound shelves held refused (latest · past) state) :
    Stocked setup storable sound shelves held refused (latest · (past ++ history)) final := by
  induction lives generalizing past with
  | rest => rwa [List.append_nil]
  | next event outcome _ induction =>
      have first := stocked_of_outcome outcome faltering (offers event List.mem_cons_self) stocked
      have onward := induction (fun later member => offers later (List.mem_cons_of_mem _ member)) first
      rwa [List.append_assoc] at onward

theorem Stocked.start (isSound : sound world)
    (bare : ∀ tier, ¬refused world tier → shelves world tier = .empty) :
    Stocked setup storable sound shelves held refused (latest · []) (.start setup world) := by
  refine ⟨.start world, isSound, fun key entry found => ?_, .start world, fun tier spared => ?_⟩
  · cases found
  · refine (bare tier spared).trans ?_
    apply Shelf.ext
    · rfl
    · exact ((Balanced.start world).bytes tier).symm

end CacheState

namespace TieredCache

open CacheState

variable {setup : CacheSetup World} {storable : Value → Prop} {sound : World → Prop}
  {shelves : World → Tier → Shelf} {held : Holding World} {refused : World → Tier → Prop}

/-- Wherever a run leads to, the stores that have refused nothing hold what they should. -/
theorem stocked_of_runAll {world : World} {calls : List CacheCall} {history : List CacheEvent}
    {final : CacheState World} (faltering : setup.Faltering storable sound shelves held refused)
    (isSound : sound world) (bare : ∀ tier, shelves world tier = .empty)
    (offers : ∀ call ∈ calls, call.Offers storable)
    (ended : runAll setup calls (.start setup world) = .ok history final) :
    Stocked setup storable sound shelves held refused (latest · history) final := by
  have lives := (lives_of_ok (.start world) ended).1
  have asked := calls_of_ok (.start world) ended
  refine lives.stocked faltering (fun event member => offers event.call ?_) (.start isSound fun tier _ => bare tier)
  rw [← asked]
  exact List.mem_map_of_mem member

end TieredCache

end TierVault
