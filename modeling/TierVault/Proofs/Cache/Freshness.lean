import TierVault.Proofs.Cache.Runs
import TierVault.Proofs.Store.Faithful

/-!
A tiered cache never answers an old value.

Every call on a store may fail, and stores may lose payloads at any time. A delete that fails leaves a copy
behind in a tier that its key has left, and later writes, promotions and demotions of the key go past such
copies. The copy that counts is the one in the tier of the key's entry: if there still is one, then it is the
latest value that a write of the key took.
-/

namespace TierVault

variable {World : Type}

namespace CacheState

variable {setup : CacheSetup World} {held : Holding World} {newest : String → Option Value}
  {state middle final : CacheState World} {key : String} {entry : Entry} {value : Value}
  {tier target hottest : Tier} {kept : List String} {lifetime? : Option Nat}

/-- What is still there of an entry's payload is the newest value of its key. -/
def Fresh (held : Holding World) (newest : String → Option Value) (state : CacheState World) :
    Prop :=
  ∀ key entry, state.lookup key = some entry → ∃ value, newest key = some value ∧
    ∀ found, held state.world entry.tier key found → found = value

namespace Fresh

theorem start (world : World) : Fresh held newest (.start setup world) := by
  intro key entry found
  cases found

/-- Entries go, and payloads with or without them. -/
theorem lose {next : CacheState World} (fresh : Fresh held newest state)
    (loses : held.Loses state.world next.world)
    (fewer : ∀ key entry, next.lookup key = some entry → state.lookup key = some entry) :
    Fresh held newest next := by
  intro key entry found
  rcases fresh key entry (fewer key entry found) with ⟨value, new, only⟩
  refine ⟨value, new, fun payload there => ?_⟩
  exact only payload (loses entry.tier key payload there)

theorem inWorld {world : World} (fresh : Fresh held newest state)
    (loses : held.Loses state.world world) : Fresh held newest (state.inWorld world) :=
  fresh.lose loses fun _ _ found => found

theorem forget (fresh : Fresh held newest state) (key : String) (entry : Entry) :
    Fresh held newest (state.forget key entry) := by
  refine fresh.lose (fun _ _ _ there => there) ?_
  intro asked other found
  rw [lookup_forget] at found
  split at found
  · cases found
  · exact found

theorem remove (fresh : Fresh held newest state) (faithful : setup.Faithful held)
    (entry : Entry) {answer : Except StoreError Bool} {world : World}
    (deleted : ((setup.stores.get tier).delete key).run state.world = .ok answer world) :
    Fresh held newest ((state.forget key entry).inWorld world) :=
  (fresh.forget key entry).inWorld (faithful.delete _ _ _ _ _ deleted)

/-- The one payload that is put is the newest value of its key. -/
theorem moves (faithful : setup.Faithful held) (fresh : Fresh held newest state)
    (new : newest key = some value) (moves : Moves setup key entry value target state final) :
    Fresh held newest final := by
  cases moves with
  | followed fits put deleted =>
      have written := faithful.put _ _ _ _ _ put
      have loses := faithful.delete _ _ _ _ _ deleted
      intro asked other found
      rw [lookup_relocate] at found
      split at found
      · rename_i same
        subst same
        cases found
        exact ⟨value, new, fun payload there => written.1 payload (loses _ _ _ there)⟩
      · rename_i different
        rcases fresh asked other found with ⟨newer, isNew, only⟩
        refine ⟨newer, isNew, fun payload there => only payload ?_⟩
        exact written.2 _ _ _ (.inr different) (loses _ _ _ there)

theorem refused {size : Nat} (faithful : setup.Faithful held)
    (refuses : Refuses setup key size value target state final) (fresh : Fresh held newest state) :
    Fresh held newest final := by
  cases refuses with
  | because _ put => exact fresh.inWorld (faithful.put_failed _ _ _ _ _ _ put)

theorem value_eq (fresh : Fresh held newest state) (faithful : setup.Faithful held)
    (found : state.lookup key = some entry) {world : World}
    (get : ((setup.stores.get entry.tier).get key).run state.world =
      .ok (.ok (some value)) world) : newest key = some value := by
  rcases fresh key entry found with ⟨newer, new, only⟩
  rw [new, only value ((faithful.get _ _ _ _ _ get).2 value rfl)]

theorem retreat (faithful : setup.Faithful held) (retreat : Retreat setup hottest kept state final)
    (fresh : Fresh held newest state) : Fresh held newest final := by
  induction retreat with
  | stay => exact fresh
  | read _ get induction => exact (induction fresh).inWorld (faithful.get _ _ _ _ _ get).1
  | stuck _ _ _ _ _ get _ refuses induction inner =>
      have roomy := inner ((induction fresh).inWorld (faithful.get _ _ _ _ _ get).1)
      exact refused faithful refuses roomy
  | @evict _ _ _ _ _ entry _ _ _ _ _ _ deleted induction =>
      exact (induction fresh).remove faithful entry deleted
  | demote _ found _ _ _ get _ moved induction inner =>
      have here := induction fresh
      have roomy := inner (here.inWorld (faithful.get _ _ _ _ _ get).1)
      have followed := moves faithful roomy (here.value_eq faithful found get) moved
      exact followed

end Fresh

/-! ## After each outcome -/

theorem Removes.fresh {removed : Bool} (removes : Removes setup key state removed final)
    (faithful : setup.Faithful held) (fresh : Fresh held newest state) :
    Fresh held newest final := by
  cases removes with
  | missing => exact fresh
  | removed found deleted => exact fresh.remove faithful _ deleted

theorem RemovesAll.fresh {keys : List String} (removes : RemovesAll setup keys state final)
    (faithful : setup.Faithful held) (fresh : Fresh held newest state) :
    Fresh held newest final := by
  induction removes with
  | nil => exact fresh
  | cons first _ induction => exact induction (first.fresh faithful fresh)

theorem Rises.fresh (rises : Rises setup key entry value state final)
    (faithful : setup.Faithful held) (fresh : Fresh held newest state)
    (new : newest key = some value) : Fresh held newest final := by
  cases rises with
  | stays room => exact Fresh.retreat faithful room fresh
  | refused _ room refuses => exact Fresh.refused faithful refuses (Fresh.retreat faithful room fresh)
  | rises _ room moves =>
      have roomy := Fresh.retreat faithful room fresh
      have followed := Fresh.moves faithful roomy new moves
      exact followed

theorem Reads.fresh {answer : Option Value} (reads : Reads setup key state answer final)
    (faithful : setup.Faithful held) (fresh : Fresh held newest state) :
    Fresh held newest final := by
  cases reads with
  | missing => exact fresh
  | expired _ _ removed =>
      have timed : Fresh held newest state.timed := fresh
      exact removed.fresh faithful timed
  | @stale entry _ _ _ get =>
      exact (fresh.inWorld (faithful.get _ _ _ _ _ get).1).forget key entry
  | @failed _ _ world _ _ _ get removed =>
      have read : Fresh held newest (state.timed.inWorld world) :=
        fresh.inWorld (faithful.get _ _ _ _ _ get).1
      exact removed.fresh faithful read
  | @hit entry value world _ found _ get rises =>
      refine rises.fresh faithful ?_ (fresh.value_eq faithful found get)
      have read := fresh.inWorld (faithful.get _ _ _ _ _ get).1
      intro asked other there
      by_cases same : asked = key
      · subst same
        cases (Keyed.find?_put_same asked _ _).symm.trans there
        exact read asked entry found
      · exact read asked other ((Keyed.find?_put_other _ _ same).symm.trans there)

/-- A read answers the newest value or nothing. -/
theorem Reads.newest_eq (reads : Reads setup key state (some value) final)
    (faithful : setup.Faithful held) (fresh : Fresh held newest state) :
    newest key = some value := by
  cases reads with
  | hit found _ get => exact fresh.value_eq faithful found get

theorem Has.fresh {answer : Bool} (has : Has setup key state answer final)
    (faithful : setup.Faithful held) (fresh : Fresh held newest state) :
    Fresh held newest final := by
  have timed : Fresh held newest state.timed := fresh
  cases has with
  | missing => exact fresh
  | expired _ _ removed => exact removed.fresh faithful timed
  | present => exact timed

theorem Cleans.fresh {answer : Nat} (cleans : Cleans setup state answer final)
    (faithful : setup.Faithful held) (fresh : Fresh held newest state) :
    Fresh held newest final := by
  have timed : Fresh held newest state.timed := fresh
  cases cleans with
  | cleaned removed => exact removed.fresh faithful timed

theorem Replaces.loses (replaces : Replaces setup key tier state final)
    (faithful : setup.Faithful held) : held.Loses state.world final.world := by
  cases replaces with
  | nothing => exact fun _ _ _ there => there
  | here => exact fun _ _ _ there => there
  | elsewhere _ _ deleted => exact faithful.delete _ _ _ _ _ deleted

/-- A value that was taken is the newest one of its key. -/
theorem Writes.fresh {answer : Bool} (writes : Writes setup key value lifetime? state answer final)
    (faithful : setup.Faithful held) (fresh : Fresh held newest state) :
    Fresh held
      (fun asked => if answer = true ∧ key = asked then some value else newest asked) final := by
  cases writes with
  | unserializable =>
      intro asked entry found
      simpa using fresh asked entry found
  | tooLarge _ room =>
      intro asked entry found
      simpa [unwritten] using Fresh.retreat faithful room fresh asked entry found
  | refused _ _ room refuses =>
      have roomy := Fresh.refused faithful refuses (Fresh.retreat faithful room fresh)
      intro asked entry found
      simpa [unwritten] using roomy asked entry found
  | written _ _ room _ put replaces =>
      have roomy := Fresh.retreat faithful room fresh
      have written := faithful.put _ _ _ _ _ put
      have loses := replaces.loses faithful
      intro asked entry found
      rw [lookup_recorded, lookup_insert] at found
      split at found
      · rename_i same
        subst same
        cases found
        refine ⟨value, by simp, fun payload there => ?_⟩
        exact written.1 payload (loses _ _ _ there)
      · rename_i different
        rw [replaces.lookup_other different] at found
        rcases roomy asked entry found with ⟨newer, isNew, only⟩
        refine ⟨newer, by simpa [Ne.symm different] using isNew, fun payload there => ?_⟩
        exact only payload (written.2 _ _ _ (.inr different) (loses _ _ _ there))

theorem Deletes.fresh {answer : Bool} (deletes : Deletes setup key state answer final)
    (faithful : setup.Faithful held) (fresh : Fresh held newest state) :
    Fresh held (fun asked => if answer = true ∧ key = asked then none else newest asked) final := by
  cases deletes with
  | deleted removes =>
      have kept := removes.fresh faithful fresh
      intro asked entry found
      have different : key ≠ asked := by
        intro same
        subst same
        cases removes.lookup.symm.trans found
      simpa [different] using kept asked entry found

theorem Clears.fresh (clears : Clears setup state final) : Fresh held newest final := by
  cases clears with
  | cleared => exact nofun

/-! ## Along a run -/

theorem fresh_of_outcome {event : CacheEvent} {past : List CacheEvent}
    (outcome : event.call.Outcome setup state event.answer final) (faithful : setup.Faithful held)
    (fresh : Fresh held (latest · past) state) :
    Fresh held (latest · (past ++ [event])) final := by
  rcases event with ⟨call, answer⟩
  simp only [latest_append]
  cases call with
  | put key value lifetime? =>
      have written := Writes.fresh outcome faithful fresh
      cases answer with
      | true => simpa [CacheEvent.update] using written
      | false => simpa [CacheEvent.update] using written
  | get key => exact Reads.fresh outcome faithful fresh
  | delete key =>
      have deleted := Deletes.fresh outcome faithful fresh
      cases answer with
      | true => simpa [CacheEvent.update] using deleted
      | false => simpa [CacheEvent.update] using deleted
  | has key => exact Has.fresh outcome faithful fresh
  | clear => exact Clears.fresh outcome
  | cleanupExpired => exact Cleans.fresh outcome faithful fresh
  | reclaimExpired =>
      have timed : Fresh held (latest · past) state.timed := fresh
      cases outcome with
      | reclaimed cleans => exact cleans.fresh faithful timed

theorem Lives.fresh {past history : List CacheEvent} (lives : Lives setup state history final)
    (faithful : setup.Faithful held) (fresh : Fresh held (latest · past) state) :
    Fresh held (latest · (past ++ history)) final := by
  induction lives generalizing past with
  | rest => rwa [List.append_nil]
  | next event outcome _ induction =>
      have onward := induction (fresh_of_outcome outcome faithful fresh)
      rwa [List.append_assoc] at onward

theorem Lives.answers_latest {past before after history : List CacheEvent}
    (lives : Lives setup state history final) (faithful : setup.Faithful held)
    (fresh : Fresh held (latest · past) state)
    (split : history = before ++ ⟨.get key, some value⟩ :: after) :
    latest key (past ++ before) = some value := by
  induction lives generalizing past before with
  | rest => simp at split
  | @next _ _ _ later event outcome _ induction =>
      cases before with
      | nil =>
          cases split
          rw [List.append_nil]
          exact Reads.newest_eq outcome faithful fresh
      | cons first rest =>
          cases split
          have onward := induction (fresh_of_outcome outcome faithful fresh) rfl
          rwa [List.append_assoc] at onward

end CacheState

namespace TieredCache

/-- In every run, a value that is read is the latest one of its key that was written. -/
theorem get_eq_latest (setup : CacheSetup World) (held : Holding World)
    (faithful : setup.Faithful held) (world : World) (calls : List CacheCall)
    {history : List CacheEvent} {final : CacheState World}
    (ended : runAll setup calls (.start setup world) = .ok history final)
    {before after : List CacheEvent} {key : String} {value : Value}
    (split : history = before ++ ⟨.get key, some value⟩ :: after) :
    latest key before = some value := by
  have lives := (lives_of_ok (.start world) ended).1
  have fresh : CacheState.Fresh held (latest · []) (.start setup world) := .start world
  exact lives.answers_latest faithful fresh split

/-- The second value goes to the database, and the first stays in memory because it cannot be deleted. The read
answers the second. -/
theorem get_eq_latest_orphaned :
    let setup := CacheSetup.switched { budgets := ⟨4, 50, 50, 50⟩ } none id
    let calls : List CacheCall :=
      [.put "left" .null none, .put "left" (.flag true) none, .get "left"]
    ∃ before key value final,
      runAll setup calls (.start setup (.const ⟨[.delete], []⟩)) =
          .ok (before ++ [⟨.get key, some value⟩]) final ∧ latest key before = some value := by
  intro setup calls
  have faithful := CacheSetup.switched_faithful setup.tiers none id
  have answered : (match runAll setup calls (.start setup (.const ⟨[.delete], []⟩)) with
      | .ok history _ => (history.getLast?.bind CacheEvent.read?).isSome
      | .error _ _ => false) = true := by decide +kernel
  cases ended : runAll setup calls (.start setup (.const ⟨[.delete], []⟩)) with
  | error => simp [ended] at answered
  | ok history final =>
      rw [ended] at answered
      rcases Option.isSome_iff_exists.mp answered with ⟨value, last⟩
      rcases Option.bind_eq_some_iff.mp last with ⟨event, isLast, read⟩
      rcases List.getLast?_eq_some_iff.mp isLast with ⟨before, rfl⟩
      rcases CacheEvent.of_read? read with ⟨key, rfl⟩
      exact ⟨before, key, value, final, rfl, get_eq_latest setup _ faithful _ calls ended rfl⟩

end TieredCache

end TierVault
