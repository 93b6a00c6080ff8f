import TierVault.Proofs.Cache.Accounting
import TierVault.Proofs.Store.Sturdy

/-!
Over stores that do not fail, a tiered cache and its stores agree.

Each store holds the latest values of the entries of its tier, under their keys and with their sizes, and
nothing else. So every write that there is room for is taken, no store makes room on its own, and every entry
that is not expired can be read.
-/

namespace TierVault

variable {World : Type}

namespace CacheState

variable {setup : CacheSetup World} {storable : Value → Prop} {sound : World → Prop}
  {shelves : World → Tier → Shelf} {newest : String → Option Value}
  {state middle final : CacheState World} {key : String}
  {entry : Entry} {value : Value} {tier target hottest : Tier} {kept : List String} {size : Nat}
  {lifetime? : Option Nat}

/-- What the store of a tier should hold. -/
def shelf (newest : String → Option Value) (state : CacheState World) (tier : Tier) : Shelf where
  item? key := (state.lookup key).bind fun entry =>
    if entry.tier = tier then newest key else none
  bytes := (state.usage.get tier).bytes

/-- The newest value of every entry's key can be stored, and is of the entry's size. -/
def Sized (storable : Value → Prop) (newest : String → Option Value) (state : CacheState World) :
    Prop :=
  ∀ key entry, state.lookup key = some entry →
    ∃ value, newest key = some value ∧ storable value ∧ value.encodedSize = .ok entry.size

theorem Sized.forget (sized : Sized storable newest state) (key : String) (entry : Entry) :
    Sized storable newest (state.forget key entry) := by
  intro asked other found
  rw [lookup_forget] at found
  split at found
  · cases found
  · exact sized asked other found

theorem item?_shelf (asked : String) : (state.shelf newest tier).item? asked =
    (state.lookup asked).bind fun entry => if entry.tier = tier then newest asked else none := rfl

theorem item?_shelf_of_lookup (found : state.lookup key = some entry) :
    (state.shelf newest tier).item? key = if entry.tier = tier then newest key else none := by
  rw [item?_shelf, found]
  rfl

theorem item?_shelf_of_unknown (unknown : state.lookup key = none) :
    (state.shelf newest tier).item? key = none := by
  rw [item?_shelf, unknown]
  rfl

theorem bytesAt_shelf (sized : Sized storable newest state) :
    (state.shelf newest tier).bytesAt key = state.reclaimed key tier := by
  unfold Shelf.bytesAt reclaimed
  cases found : state.lookup key with
  | none => rw [item?_shelf_of_unknown found, Option.elim_none]
  | some entry =>
      rw [item?_shelf_of_lookup found]
      by_cases own : entry.tier = tier
      · rcases sized key entry found with ⟨value, new, -, size⟩
        simp only [own, if_true, new, Option.elim_some, Value.weight_eq size]
      · simp only [own, if_false, Option.elim_none]

/-- What leaves the books leaves the shelf. -/
theorem shelf_forget (sized : Sized storable newest state) (found : state.lookup key = some entry) :
    (state.forget key entry).shelf newest =
      Shelf.change (state.shelf newest) entry.tier (·.remove key) := by
  refine Shelf.eq_change ?_ ?_
  · apply Shelf.ext
    · funext asked
      change _ = if asked = key then none else _
      rw [item?_shelf, lookup_forget]
      split <;> rfl
    · change (((state.forget key entry).usage.get entry.tier).bytes) = _ - _
      rw [bytesAt_shelf sized, usage_forget, Entry.takeFrom, PerTier.get_set_same]
      simp only [reclaimed, found, if_true]
      rfl
  · intro place different
    apply Shelf.ext
    · funext asked
      rw [item?_shelf, lookup_forget]
      split
      · rename_i same
        rw [same, item?_shelf_of_lookup found, if_neg (Ne.symm different)]
        rfl
      · rfl
    · change ((state.forget key entry).usage.get place).bytes = (state.usage.get place).bytes
      rw [usage_forget, Entry.takeFrom, PerTier.get_set_other _ _ different]

theorem shelf_relocate (sized : Sized storable newest state) (found : state.lookup key = some entry)
    (different : entry.tier ≠ target) (new : newest key = some value) :
    (state.relocate key entry target).shelf newest =
      Shelf.change (Shelf.change (state.shelf newest) target (·.put key value)) entry.tier
        (·.remove key) := by
  rcases sized key entry found with ⟨known, same, -, size⟩
  cases new.symm.trans same
  rw [Shelf.change_comm _ _ _ different.symm]
  refine Shelf.eq_change ?_ ?_
  · rw [Shelf.change_other _ _ different.symm]
    apply Shelf.ext
    · funext asked
      change _ = if asked = key then some value else _
      rw [item?_shelf, lookup_relocate]
      split
      · rename_i same
        rw [same, Option.bind_some, if_pos rfl, new]
      · rfl
    · change ((state.relocate key entry target).usage.get target).bytes = _ - _ + _
      rw [bytesAt_shelf sized, usage_relocate, Entry.bytes_addTo]
      simp only [reclaimed, found, if_neg different, Entry.bytesIn, if_true, Entry.takeFrom,
        PerTier.get_set_other _ _ different.symm, Value.weight_eq size]
      rfl
  · intro place elsewhere
    rw [← shelf_forget sized found]
    apply Shelf.ext
    · funext asked
      rw [item?_shelf, item?_shelf, lookup_relocate, lookup_forget]
      split
      · rw [Option.bind_some, if_neg (Ne.symm elsewhere)]
        rfl
      · rfl
    · change ((state.relocate key entry target).usage.get place).bytes = _
      rw [usage_relocate, Entry.bytes_addTo, Entry.bytesIn, if_neg (Ne.symm elsewhere)]
      rfl

/-- The newest value of a key, once a value was put. -/
def renew (newest : String → Option Value) (key : String) (value : Value) :
    String → Option Value :=
  fun asked => if key = asked then some value else newest asked

theorem shelf_insert (unknown : state.lookup key = none) (sized : Sized storable newest state)
    (size_eq : value.encodedSize = .ok size) :
    (insert setup state key size tier lifetime?).shelf (renew newest key value) =
      Shelf.change (state.shelf newest) tier (·.put key value) := by
  refine Shelf.eq_change ?_ ?_
  · apply Shelf.ext
    · funext asked
      change _ = if asked = key then some value else _
      rw [item?_shelf, lookup_insert]
      split
      · rename_i same
        rw [Option.bind_some, Entry.tier_create, if_pos rfl, renew, if_pos same.symm]
      · rename_i other
        rw [item?_shelf, renew, if_neg (Ne.symm other)]
    · change ((insert setup state key size tier lifetime?).usage.get tier).bytes = _ - _ + _
      rw [bytesAt_shelf sized, insert, usage_enroll, Entry.bytes_addTo, Value.weight_eq size_eq]
      simp only [reclaimed, unknown, Entry.bytesIn, Entry.create, if_true]
      rfl
  · intro place elsewhere
    apply Shelf.ext
    · funext asked
      rw [item?_shelf, lookup_insert]
      split
      · rename_i same
        rw [Option.bind_some, Entry.tier_create, if_neg (Ne.symm elsewhere), same,
          item?_shelf_of_unknown unknown]
      · rename_i other
        rw [item?_shelf, renew, if_neg (Ne.symm other)]
    · change ((insert setup state key size tier lifetime?).usage.get place).bytes = _
      rw [insert, usage_enroll, Entry.bytes_addTo, Entry.bytesIn, Entry.tier_create,
        if_neg (Ne.symm elsewhere)]
      rfl

theorem Sized.relocate (sized : Sized storable newest state) (found : state.lookup key = some entry)
    (target : Tier) : Sized storable newest (state.relocate key entry target) := by
  intro asked other there
  rw [lookup_relocate] at there
  split at there
  · rename_i same
    cases there
    exact same ▸ sized key entry found
  · exact sized asked other there

theorem Sized.touch (sized : Sized storable newest state) (found : state.lookup key = some entry) :
    Sized storable newest (CacheState.touch setup state key entry) := by
  intro asked other known
  by_cases same : asked = key
  · subst same
    cases lookup_touch.symm.trans known
    exact sized asked entry found
  · exact sized asked other ((lookup_touch_other same).symm.trans known)

theorem shelf_touch (found : state.lookup key = some entry) :
    (CacheState.touch setup state key entry).shelf newest = state.shelf newest := by
  funext tier
  apply Shelf.ext
  · funext asked
    by_cases same : asked = key
    · subst same
      rw [item?_shelf_of_lookup found, item?_shelf_of_lookup lookup_touch]
      rfl
    · rw [item?_shelf, item?_shelf, lookup_touch_other same]
  · rfl

/-- Only the newest values of keys with entries matter. -/
theorem Sized.renewed {other : String → Option Value} (sized : Sized storable newest state)
    (same : ∀ key entry, state.lookup key = some entry → other key = newest key) :
    Sized storable other state := by
  intro key entry found
  rw [same key entry found]
  exact sized key entry found

theorem shelf_renewed {other : String → Option Value}
    (same : ∀ key entry, state.lookup key = some entry → other key = newest key) :
    state.shelf other = state.shelf newest := by
  funext tier
  apply Shelf.ext
  · funext asked
    rw [item?_shelf, item?_shelf]
    cases found : state.lookup asked with
    | none => rfl
    | some entry => rw [Option.bind_some, Option.bind_some, same asked entry found]
  · rfl

/-- What fits in place of the key's entry fits on the shelf. -/
theorem Balanced.shelf_put_le (balanced : state.Balanced setup) (sized : Sized storable newest state)
    (size_eq : value.encodedSize = .ok size) (fits : Fits setup state key tier size) :
    ((state.shelf newest tier).put key value).bytes ≤ setup.tiers.capacity tier := by
  change (state.usage.get tier).bytes - (state.shelf newest tier).bytesAt key + value.weight ≤ _
  have within := balanced.within tier
  have covered := balanced.reclaimed_le key tier
  unfold Fits at fits
  rw [bytesAt_shelf sized, Value.weight_eq size_eq]
  omega

/-! ## The agreement -/

structure Agrees (setup : CacheSetup World) (storable : Value → Prop) (sound : World → Prop)
    (shelves : World → Tier → Shelf) (newest : String → Option Value)
    (state : CacheState World) : Prop where
  balanced : state.Balanced setup
  sound : sound state.world
  sized : Sized storable newest state
  stocked : shelves state.world = state.shelf newest

namespace Agrees

theorem counted (agrees : Agrees setup storable sound shelves newest state)
    (change : Counters → Counters) : Agrees setup storable sound shelves newest (state.counted change) :=
  ⟨agrees.balanced.counted change, agrees.sound, agrees.sized, agrees.stocked⟩

theorem recorded (agrees : Agrees setup storable sound shelves newest state)
    (operation outcome : String) :
    Agrees setup storable sound shelves newest (state.recorded operation outcome) :=
  ⟨agrees.balanced.recorded operation outcome, agrees.sound, agrees.sized, agrees.stocked⟩

theorem timed (agrees : Agrees setup storable sound shelves newest state) :
    Agrees setup storable sound shelves newest state.timed :=
  ⟨agrees.balanced.timed, agrees.sound, agrees.sized, agrees.stocked⟩

/-- The value that is read is the newest one, and nothing changes. -/
theorem get (agrees : Agrees setup storable sound shelves newest state)
    (sturdy : setup.Sturdy storable sound shelves) {answer : Except StoreError (Option Value)}
    {world : World}
    (called : ((setup.stores.get tier).get key).run state.world = .ok answer world) :
    answer = .ok ((state.shelf newest tier).item? key) ∧
      Agrees setup storable sound shelves newest (state.inWorld world) := by
  rcases sturdy.get tier key state.world agrees.sound with ⟨after, ended, isSound, same⟩
  rw [called] at ended
  cases ended
  rw [agrees.stocked]
  exact ⟨rfl, agrees.balanced.inWorld _, isSound, agrees.sized, same.trans agrees.stocked⟩

theorem newest_of_get (agrees : Agrees setup storable sound shelves newest state)
    (sturdy : setup.Sturdy storable sound shelves) {answer : Except StoreError (Option Value)}
    {world : World} (found : state.lookup key = some entry)
    (called : ((setup.stores.get entry.tier).get key).run state.world = .ok answer world) :
    answer = .ok (newest key) := by
  rw [(agrees.get sturdy called).1, item?_shelf_of_lookup found, if_pos rfl]

theorem remove (agrees : Agrees setup storable sound shelves newest state)
    (sturdy : setup.Sturdy storable sound shelves) {answer : Except StoreError Bool} {world : World}
    (found : state.lookup key = some entry)
    (called : ((setup.stores.get entry.tier).delete key).run state.world = .ok answer world) :
    Agrees setup storable sound shelves newest ((state.forget key entry).inWorld world) := by
  rcases sturdy.delete entry.tier key state.world agrees.sound with
    ⟨told, after, ended, isSound, less⟩
  rw [called] at ended
  cases ended
  refine ⟨(agrees.balanced.forget found).inWorld _, isSound, agrees.sized.forget key entry, ?_⟩
  rw [agrees.stocked, ← shelf_forget agrees.sized found] at less
  exact less

/-- What fits is taken. -/
theorem put (agrees : Agrees setup storable sound shelves newest state)
    (sturdy : setup.Sturdy storable sound shelves) (able : storable value)
    (size_eq : value.encodedSize = .ok size) (fits : Fits setup state key tier size) :
    ∃ world, ((setup.stores.get tier).put key value).run state.world = .ok (.ok ()) world ∧
      sound world ∧ shelves world = Shelf.change (state.shelf newest) tier (·.put key value) := by
  rw [← agrees.stocked]
  refine sturdy.put tier key value size state.world agrees.sound able size_eq ?_
  rw [agrees.stocked]
  exact agrees.balanced.shelf_put_le agrees.sized size_eq fits

theorem not_refused (agrees : Agrees setup storable sound shelves newest state)
    (sturdy : setup.Sturdy storable sound shelves) (able : storable value)
    (size_eq : value.encodedSize = .ok size)
    (refuses : Refuses setup key size value tier state final) : False := by
  cases refuses with
  | because fits failed =>
      rcases agrees.put sturdy able size_eq fits with ⟨world, ended, -⟩
      rw [failed] at ended
      cases ended

theorem moves (agrees : Agrees setup storable sound shelves newest state)
    (sturdy : setup.Sturdy storable sound shelves) (found : state.lookup key = some entry)
    (different : entry.tier ≠ target) (new : newest key = some value)
    (moves : Moves setup key entry value target state final) :
    Agrees setup storable sound shelves newest final := by
  have balanced := moves.balanced agrees.balanced found different
  rcases agrees.sized key entry found with ⟨known, same, able, size_eq⟩
  cases new.symm.trans same
  cases moves with
  | followed space put deleted =>
      have fits := fits_of_elsewhere found different space
      rcases agrees.put sturdy able size_eq fits with ⟨written, ended, isSound, stocked⟩
      rw [put] at ended
      cases ended
      rcases sturdy.delete entry.tier key _ isSound with ⟨told, after, ended, stays, less⟩
      rw [deleted] at ended
      cases ended
      refine ⟨balanced, stays, agrees.sized.relocate found target, ?_⟩
      rw [stocked, ← shelf_relocate agrees.sized found different new] at less
      exact less

theorem retreat (agrees : Agrees setup storable sound shelves newest state)
    (sturdy : setup.Sturdy storable sound shelves) (retreat : Retreat setup hottest kept state final) :
    Agrees setup storable sound shelves newest final := by
  induction retreat with
  | stay => exact agrees
  | read _ get induction => exact ((induction agrees).get sturdy get).2
  | evict _ found _ _ deleted induction =>
      exact (((induction agrees).remove sturdy found deleted).counted _).recorded _ _
  | stuck _ found _ _ _ get _ refuses induction inner =>
      have here := induction agrees
      have new := here.newest_of_get sturdy found get
      rcases here.sized _ _ found with ⟨known, same, able, size_eq⟩
      rw [same] at new
      cases new
      exact ((inner (here.get sturdy get).2).not_refused sturdy able size_eq refuses).elim
  | demote _ found _ _ next get room moves induction inner =>
      have here := induction agrees
      have new := here.newest_of_get sturdy found get
      have roomy := inner (here.get sturdy get).2
      have kept := room.lookup_of_mem (List.mem_append_right _ (List.mem_singleton.mpr rfl))
      have moved := Agrees.moves roomy sturdy (kept.trans found) (Tier.ne_of_colder next)
        (Except.ok.inj new).symm moves
      exact (moved.counted _).recorded _ _

theorem renewed {other : String → Option Value}
    (agrees : Agrees setup storable sound shelves newest state)
    (same : ∀ key entry, state.lookup key = some entry → other key = newest key) :
    Agrees setup storable sound shelves other state :=
  ⟨agrees.balanced, agrees.sound, agrees.sized.renewed same, agrees.stocked.trans (shelf_renewed same).symm⟩

theorem touch (agrees : Agrees setup storable sound shelves newest state)
    (found : state.lookup key = some entry) :
    Agrees setup storable sound shelves newest (touch setup state key entry) :=
  ⟨agrees.balanced.touch found, agrees.sound, agrees.sized.touch found,
    agrees.stocked.trans (shelf_touch found).symm⟩

end Agrees

/-! ## After each outcome -/

theorem Removes.agrees {removed : Bool} (removes : Removes setup key state removed final)
    (sturdy : setup.Sturdy storable sound shelves)
    (agrees : Agrees setup storable sound shelves newest state) :
    Agrees setup storable sound shelves newest final := by
  cases removes with
  | missing => exact agrees
  | removed found deleted => exact agrees.remove sturdy found deleted

theorem RemovesAll.agrees {keys : List String} (removes : RemovesAll setup keys state final)
    (sturdy : setup.Sturdy storable sound shelves)
    (agrees : Agrees setup storable sound shelves newest state) :
    Agrees setup storable sound shelves newest final := by
  induction removes with
  | nil => exact agrees
  | cons first _ induction => exact induction (first.agrees sturdy agrees)

theorem Cleans.agrees {answer : Nat} (cleans : Cleans setup state answer final)
    (sturdy : setup.Sturdy storable sound shelves)
    (agrees : Agrees setup storable sound shelves newest state) :
    Agrees setup storable sound shelves newest final := by
  cases cleans with
  | cleaned removed => exact (removed.agrees sturdy agrees.timed).counted _

theorem Reclaims.agrees {answer : Nat} (reclaims : Reclaims setup state answer final)
    (sturdy : setup.Sturdy storable sound shelves)
    (agrees : Agrees setup storable sound shelves newest state) :
    Agrees setup storable sound shelves newest final := by
  cases reclaims with
  | reclaimed cleans => exact cleans.agrees sturdy agrees.timed

theorem Has.agrees {answer : Bool} (has : Has setup key state answer final)
    (sturdy : setup.Sturdy storable sound shelves)
    (agrees : Agrees setup storable sound shelves newest state) :
    Agrees setup storable sound shelves newest final := by
  cases has with
  | missing => exact agrees
  | expired _ _ removed => exact (removed.agrees sturdy agrees.timed).counted _
  | present => exact agrees.timed

/-- A key that is deleted has no newest value any more. -/
theorem Deletes.agrees {answer : Bool} (deletes : Deletes setup key state answer final)
    (sturdy : setup.Sturdy storable sound shelves)
    (agrees : Agrees setup storable sound shelves newest state) :
    Agrees setup storable sound shelves
      (fun asked => if answer = true ∧ key = asked then none else newest asked) final := by
  cases deletes with
  | deleted removes =>
      refine ((removes.agrees sturdy agrees).recorded _ _).renewed fun asked entry found => ?_
      have different : key ≠ asked := by
        intro same
        subst same
        cases removes.lookup.symm.trans found
      exact if_neg fun gone => different gone.2

theorem Rises.agrees (rises : Rises setup key entry value state final)
    (sturdy : setup.Sturdy storable sound shelves)
    (agrees : Agrees setup storable sound shelves newest state)
    (found : state.lookup key = some entry) (new : newest key = some value) :
    Agrees setup storable sound shelves newest final := by
  have kept {target roomy} (room : Retreat setup target [key] state roomy) :
      roomy.lookup key = some entry :=
    (room.lookup_of_mem (List.mem_singleton.mpr rfl)).trans found
  cases rises with
  | stays room => exact agrees.retreat sturdy room
  | refused _ room refuses =>
      have roomy := agrees.retreat sturdy room
      rcases roomy.sized key entry (kept room) with ⟨known, same, able, size_eq⟩
      cases new.symm.trans same
      exact (roomy.not_refused sturdy able size_eq refuses).elim
  | rises hotter room moves =>
      have roomy := agrees.retreat sturdy room
      have different := Tier.ne_of_colder (Tier.hotter_eq_some_iff.mp hotter)
      have moved := roomy.moves sturdy (kept room) different.symm new moves
      exact (moved.counted _).recorded _ _

/-- No read of a live entry comes back without a value. -/
theorem Reads.agrees {answer : Option Value} (reads : Reads setup key state answer final)
    (sturdy : setup.Sturdy storable sound shelves)
    (agrees : Agrees setup storable sound shelves newest state) :
    Agrees setup storable sound shelves newest final ∧
      ∀ entry, state.lookup key = some entry →
        entry.isExpired (setup.clock state.readings) = false → answer = newest key := by
  cases reads with
  | missing unknown =>
      refine ⟨(agrees.timed.counted _).recorded _ _, fun entry found => ?_⟩
      cases unknown.symm.trans found
  | expired found late removed =>
      refine ⟨(((removed.agrees sturdy agrees.timed).counted _).counted _).recorded _ _, ?_⟩
      intro entry same live
      cases found.symm.trans same
      cases late.symm.trans live
  | stale found _ get =>
      have new := agrees.newest_of_get sturdy found get
      rcases agrees.sized _ _ found with ⟨value, same, -⟩
      rw [same] at new
      cases new
  | failed found _ get _ => cases agrees.newest_of_get sturdy found get
  | hit found _ get rises =>
      have new := (Except.ok.inj (agrees.newest_of_get sturdy found get)).symm
      have read := (agrees.timed.get sturdy get).2
      have risen := rises.agrees sturdy (((read.touch found).counted _).recorded _ _) lookup_touch new
      exact ⟨risen, fun _ _ _ => new.symm⟩

/-- What is not expired is read, and nothing else. -/
theorem Reads.answer_eq {answer : Option Value} (reads : Reads setup key state answer final)
    (sturdy : setup.Sturdy storable sound shelves)
    (agrees : Agrees setup storable sound shelves newest state) :
    answer = (state.lookup key).bind fun entry =>
      if entry.isExpired (setup.clock state.readings) then none else newest key := by
  cases known : state.lookup key with
  | none =>
      cases reads with
      | missing => rfl
      | expired found | stale found | failed found | hit found => cases known.symm.trans found
  | some entry =>
      rw [Option.bind_some]
      split
      · rename_i late
        cases reads with
        | missing | expired | stale | failed => rfl
        | hit found live =>
            cases known.symm.trans found
            cases late.symm.trans live
      · rename_i live
        exact (reads.agrees sturdy agrees).2 entry known (Bool.eq_false_iff.mpr live)

/-- The new value takes the place of the old entry's, in the same tier or another. -/
theorem Replaces.stocked (replaces : Replaces setup key tier state final)
    (sturdy : setup.Sturdy storable sound shelves) (sized : Sized storable newest state)
    (isSound : sound state.world)
    (written : shelves state.world = Shelf.change (state.shelf newest) tier (·.put key value)) :
    sound final.world ∧ Sized storable newest final ∧
      shelves final.world = Shelf.change (final.shelf newest) tier (·.put key value) := by
  cases replaces with
  | nothing => exact ⟨isSound, sized, written⟩
  | here found same =>
      refine ⟨isSound, sized.forget _ _, written.trans ?_⟩
      rw [shelf_forget sized found, same, Shelf.change_change]
      simp only [Shelf.put_remove]
  | @elsewhere old _ _ found different deleted =>
      rcases sturdy.delete old.tier key _ isSound with ⟨told, after, ended, stays, less⟩
      rw [deleted] at ended
      cases ended
      refine ⟨stays, sized.forget key old, less.trans ?_⟩
      rw [written, Shelf.change_comm _ _ _ different.symm, ← shelf_forget sized found]
      rfl

theorem Sized.insert (sized : Sized storable newest state) (able : storable value)
    (size_eq : value.encodedSize = .ok size) :
    Sized storable (renew newest key value) (insert setup state key size tier lifetime?) := by
  intro asked other found
  rw [lookup_insert] at found
  split at found
  · rename_i same
    cases found
    exact ⟨value, if_pos same.symm, able, size_eq⟩
  · rename_i different
    rcases sized asked other found with ⟨known, new, known_able, known_size⟩
    exact ⟨known, (if_neg (Ne.symm different)).trans new, known_able, known_size⟩

/-- A value that is taken is the newest one of its key; one that is not changes nothing. -/
theorem Writes.agrees {answer : Bool} (writes : Writes setup key value lifetime? state answer final)
    (sturdy : setup.Sturdy storable sound shelves) (able : storable value)
    (agrees : Agrees setup storable sound shelves newest state) :
    Agrees setup storable sound shelves
      (fun asked => if answer = true ∧ key = asked then some value else newest asked) final := by
  have balanced := writes.balanced agrees.balanced
  cases writes with
  | unserializable => simpa using agrees.recorded _ _
  | tooLarge _ room => simpa [unwritten] using ((agrees.retreat sturdy room).counted _).recorded _ _
  | refused size_eq _ room refuses =>
      exact ((agrees.retreat sturdy room).not_refused sturdy able size_eq refuses).elim
  | @written _ _ roomy _ _ size_eq _ room fits put replaces =>
      have ready := agrees.retreat sturdy room
      rcases ready.put sturdy able size_eq fits with ⟨world, ended, isSound, written⟩
      rw [put] at ended
      cases ended
      rcases replaces.stocked sturdy ready.sized isSound written with ⟨stays, sized, stocked⟩
      rw [← shelf_insert replaces.lookup sized size_eq] at stocked
      simp only [true_and]
      exact ⟨balanced, stays, sized.insert able size_eq, stocked⟩

theorem Empties.stocked {tiers : List Tier} (empties : Empties setup tiers state final)
    (sturdy : setup.Sturdy storable sound shelves) (isSound : sound state.world) :
    sound final.world ∧ ∀ tier,
      shelves final.world tier = if tier ∈ tiers then .empty else shelves state.world tier := by
  induction empties with
  | nil => exact ⟨isSound, fun _ => rfl⟩
  | @cons first _ _ _ world _ cleared _ induction =>
      rcases sturdy.clear first _ isSound with ⟨after, ended, stays, less⟩
      rw [cleared] at ended
      cases ended
      rcases induction stays with ⟨sound, emptied⟩
      refine ⟨sound, fun tier => (emptied tier).trans ?_⟩
      change (if _ then _ else shelves world tier) = _
      rw [less]
      by_cases own : tier = first
      · subst own
        simp [Shelf.change_same]
      · simp [own, Shelf.change_other]

theorem Clears.agrees (clears : Clears setup state final)
    (sturdy : setup.Sturdy storable sound shelves)
    (agrees : Agrees setup storable sound shelves newest state) :
    Agrees setup storable sound shelves (fun _ => none) final := by
  have balanced := clears.balanced agrees.balanced
  cases clears with
  | cleared empties =>
      rcases empties.stocked sturdy agrees.sound with ⟨stays, emptied⟩
      refine ⟨balanced, stays, fun key entry found => ?_, ?_⟩
      · cases found
      · funext tier
        have every : tier ∈ Tier.all := by cases tier <;> decide
        refine (emptied tier).trans ?_
        rw [if_pos every]
        apply Shelf.ext
        · rfl
        · exact (balanced.bytes tier).symm

/-! ## Along a run -/

theorem agrees_of_outcome {event : CacheEvent} {past : List CacheEvent}
    (outcome : event.call.Outcome setup state event.answer final)
    (sturdy : setup.Sturdy storable sound shelves) (offers : event.call.Offers storable)
    (agrees : Agrees setup storable sound shelves (latest · past) state) :
    Agrees setup storable sound shelves (latest · (past ++ [event])) final := by
  rcases event with ⟨call, answer⟩
  simp only [latest_append]
  cases call with
  | put key value lifetime? =>
      have written := Writes.agrees outcome sturdy offers agrees
      cases answer with
      | true => simpa [CacheEvent.update] using written
      | false => simpa [CacheEvent.update] using written
  | get key => exact (Reads.agrees outcome sturdy agrees).1
  | delete key =>
      have deleted := Deletes.agrees outcome sturdy agrees
      cases answer with
      | true => simpa [CacheEvent.update] using deleted
      | false => simpa [CacheEvent.update] using deleted
  | has key => exact Has.agrees outcome sturdy agrees
  | clear => exact Clears.agrees outcome sturdy agrees
  | cleanupExpired => exact Cleans.agrees outcome sturdy agrees
  | reclaimExpired => exact Reclaims.agrees outcome sturdy agrees

theorem Lives.agrees {past history : List CacheEvent} (lives : Lives setup state history final)
    (sturdy : setup.Sturdy storable sound shelves)
    (offers : ∀ event ∈ history, event.call.Offers storable)
    (agrees : Agrees setup storable sound shelves (latest · past) state) :
    Agrees setup storable sound shelves (latest · (past ++ history)) final := by
  induction lives generalizing past with
  | rest => simpa using agrees
  | next event outcome _ induction =>
      have first := agrees_of_outcome outcome sturdy (offers event List.mem_cons_self) agrees
      have onward := induction (fun later member => offers later (List.mem_cons_of_mem _ member)) first
      rwa [List.append_assoc] at onward

theorem Agrees.start {world : World} (isSound : sound world)
    (bare : ∀ tier, shelves world tier = .empty) :
    Agrees setup storable sound shelves (latest · []) (.start setup world) := by
  refine ⟨.start world, isSound, fun key entry found => ?_, ?_⟩
  · cases found
  · funext tier
    refine (bare tier).trans ?_
    apply Shelf.ext
    · rfl
    · exact ((Balanced.start world).bytes tier).symm

end CacheState

/-- Reads, deletes and clears succeed, and writes answer. -/
theorem CacheSetup.Sturdy.steady {setup : CacheSetup World} {sound : World → Prop}
    {shelves : World → Tier → Shelf} (sturdy : setup.Sturdy storable sound shelves) :
    setup.Steady (fun _ => False) sound where
  get tier key world isSound := by
    rcases sturdy.get tier key world isSound with ⟨after, ended, stays, -⟩
    exact (Action.leads_of_eq ended).mpr stays
  put tier key value world isSound := by
    rcases sturdy.answers tier key value world isSound with ⟨answer, after, ended, stays⟩
    exact (Action.leads_of_eq ended).mpr stays
  delete tier key world isSound := by
    rcases sturdy.delete tier key world isSound with ⟨told, after, ended, stays, -⟩
    exact (Action.leads_of_eq ended).mpr stays
  clear tier world isSound := by
    rcases sturdy.clear tier world isSound with ⟨after, ended, stays, -⟩
    exact (Action.leads_of_eq ended).mpr stays

namespace TieredCache

open CacheState

variable {setup : CacheSetup World} {storable : Value → Prop} {sound : World → Prop}
  {shelves : World → Tier → Shelf}

/-- Cache and stores tell the same after a history of calls, and what is not expired can be read. -/
structure InAgreement (setup : CacheSetup World) (history : List CacheEvent)
    (state : CacheState World) : Prop where
  /-- Of an entry's key, the store of its tier holds the latest value, and no other holds any. -/
  present : ∀ key entry, state.lookup key = some entry →
    ∃ value, latest key history = some value ∧ value.encodedSize = .ok entry.size ∧
      ∀ tier, ∃ world, ((setup.stores.get tier).get key).run state.world =
        .ok (.ok (if entry.tier = tier then some value else none)) world
  absent : ∀ key, state.lookup key = none → ∀ tier, ∃ world,
    ((setup.stores.get tier).get key).run state.world = .ok (.ok none) world
  size : ∀ tier, ∃ world,
    (setup.stores.get tier).size.run state.world = .ok (.ok (state.usage.get tier).bytes) world
  hit : ∀ key entry, state.lookup key = some entry →
    entry.isExpired (setup.clock state.readings) = false →
      (∀ answer next, get setup key state = .ok answer next → answer = latest key history) ∧
      (state.total < Word.limit → ∃ next, get setup key state = .ok (latest key history) next)

theorem inAgreement_of_agrees {history : List CacheEvent} {state : CacheState World}
    (sturdy : setup.Sturdy storable sound shelves)
    (agrees : Agrees setup storable sound shelves (latest · history) state) :
    InAgreement setup history state where
  present key entry found := by
    rcases agrees.sized key entry found with ⟨value, new, -, size_eq⟩
    refine ⟨value, new, size_eq, fun tier => ?_⟩
    rcases sturdy.get tier key _ agrees.sound with ⟨world, ended, -⟩
    rw [agrees.stocked, item?_shelf_of_lookup found] at ended
    exact ⟨world, new ▸ ended⟩
  absent key unknown tier := by
    rcases sturdy.get tier key _ agrees.sound with ⟨world, ended, -⟩
    rw [agrees.stocked, item?_shelf_of_unknown unknown] at ended
    exact ⟨world, ended⟩
  size tier := by
    rcases sturdy.size tier _ agrees.sound with ⟨world, ended, -⟩
    rw [agrees.stocked] at ended
    exact ⟨world, ended⟩
  hit key entry found live := by
    have known {answer : Option Value} {next : CacheState World}
        (reads : Reads setup key state answer next) : answer = latest key history :=
      (reads.agrees sturdy agrees).2 entry found live
    constructor
    · intro answer next ended
      exact known (outcome_of_ok agrees.balanced.toTallied (.get key) ended)
    · intro fits
      have leads : Action.Leads _ (get setup key) state _ :=
        leads_read sturdy.steady ⟨agrees.balanced.toTallied, agrees.sound, fun _ => fits⟩
      rcases leads.ends (fun _ => id) with ⟨answer, next, ended, reads, -⟩
      exact ⟨next, known reads ▸ ended⟩

/-- In every run over stores that do not fail and begin empty, cache and stores agree. -/
theorem runAll_inAgreement (setup : CacheSetup World) (sturdy : setup.Sturdy storable sound shelves)
    (world : World) (isSound : sound world) (bare : ∀ tier, shelves world tier = .empty)
    (calls : List CacheCall) (offers : ∀ call ∈ calls, call.Offers storable)
    {history : List CacheEvent} {final : CacheState World}
    (ended : runAll setup calls (.start setup world) = .ok history final) :
    InAgreement setup history final := by
  have lives := (lives_of_ok (.start world) ended).1
  have asked := calls_of_ok (.start world) ended
  have offered (event : CacheEvent) (member : event ∈ history) : event.call.Offers storable := by
    refine offers event.call ?_
    rw [← asked]
    exact List.mem_map_of_mem member
  exact inAgreement_of_agrees sturdy (lives.agrees sturdy offered (.start isSound bare))

/-- Values that retreat for others, one that is written over in another tier, and one that is deleted. -/
theorem runAll_inAgreement_crowded :
    let setup := CacheSetup.inMemory { budgets := ⟨5, 5, 5, 5⟩ } none id
    let calls : List CacheCall :=
      [.put "left" .null none, .put "right" (.flag true) none, .put "left" (.flag true) none,
        .get "right", .delete "left", .get "left"]
    ∃ history final, runAll setup calls (.start setup (.const [])) = .ok history final ∧
      InAgreement setup history final := by
  intro setup calls
  have answers : setup.Answers :=
    CacheSetup.answers_of_stores (CacheSetup.inMemory_answers _ none id)
  rcases (runAll_accounted setup answers (.const []) calls).2.2
    (sumsFit_of_capacities answers (.start _) (by decide)) with ⟨history, final, ended⟩
  have sturdy := CacheSetup.inMemory_sturdy setup.tiers none id
  have isSound (tier : Tier) : MemoryStore.Sound ((PerTier.const []).get tier) := by
    cases tier <;> exact ⟨List.nodup_nil, nofun⟩
  have bare (tier : Tier) : MemoryStore.shelf ((PerTier.const []).get tier) = .empty := by
    cases tier <;> rfl
  have offers : ∀ call ∈ calls, call.Offers fun _ => True := by
    intro call _
    cases call <;> trivial
  exact ⟨history, final, ended, runAll_inAgreement setup sturdy _ isSound bare calls offers ended⟩

end TieredCache

end TierVault
