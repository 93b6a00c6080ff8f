import TierVault.Proofs.Store.Success
import TierVault.Store.Disk.Sharing

/-!
A call that runs alone on a shared store.

Its sections, one after the other, are the call of the store: after each section the call goes on with what
it still has to do, and at its start that is the whole call.
-/

namespace TierVault

namespace CallPlace

open DiskStore StoreAction

variable {settings : DiskSettings} {write : DiskWrite} {error : StoreError}
  {Result : Type}

/-- A write that has failed removes its temporary file. -/
def giveUp (settings : DiskSettings) (write : DiskWrite) (error : StoreError) : DiskAction Result := do
  .attempt (onFiles (FileSystem.removeFile (draftFor settings write.key)))
  throw error

/-- The files of the keys that left go, and the call answers. -/
def clearUp (settings : DiskSettings) (answer : Except StoreError DiskAnswer) (files : List String) :
    DiskAction DiskAnswer := do
  files.forM (removeFileOf settings)
  .ofExcept id answer

/-- A write whose payload is in place goes on to the index. -/
def finish (settings : DiskSettings) (write : DiskWrite) (written : WrittenPayload) :
    DiskAction DiskAnswer := do
  let files ← commit write.key write.size write.victims written
  let persisted ← ExceptT.lift (persist settings).run
  clearUp settings (persisted.map fun _ => .stored) files

def moveIntoPlace (settings : DiskSettings) (write : DiskWrite) (written : WrittenPayload) :
    DiskAction WrittenPayload := do
  onFiles (FileSystem.rename (draftFor settings write.key) (nameFor settings write.key))
  return written

/-- A write does the rest of its payload, and goes on if that succeeds. -/
def finishAfter (settings : DiskSettings) (write : DiskWrite) (payload : DiskAction WrittenPayload) :
    DiskAction DiskAnswer := do
  finish settings write (← tryCatchThe StoreError payload (giveUp settings write))

/-- What a call still has to do. -/
def rest (settings : DiskSettings) : CallPlace → DiskAction DiskAnswer
  | starting (.get key) => .found <$> get settings key
  | starting (.put key value) => (fun _ => .stored) <$> put settings key value
  | starting (.delete key) => .deleted <$> delete settings key
  | looking key record => do
    let name := FileName.join settings.root record.file
    if !(← getThe DiskWorld).files.has name then
      changeRecords (Keyed.remove key)
      markDirty
      return .found none
    let value ← readPayload settings name record.format
    noteRead key record
    return .found (some value)
  | dropping key => do
    changeRecords (Keyed.remove key)
    markDirty
    return .found none
  | reading key record => do
    let value ← readPayload settings (FileName.join settings.root record.file) record.format
    noteRead key record
    return .found (some value)
  | counting key record value => do
    noteRead key record
    return .found (some value)
  | preparing write => do
    let written ← writePayload settings write.key write.value
    finish settings write written
  | drafting write => finishAfter settings write do
    let written ← writeDraft settings (draftFor settings write.key) write.value
    moveIntoPlace settings write written
  | filling write table => finishAfter settings write do
    let level := if settings.compress then some settings.compressor.level else none
    let file ← .ofExcept .columnar (Columnar.write table level)
    onFiles (FileSystem.writeNode (draftFor settings write.key) (.columnar file))
    moveIntoPlace settings write ⟨.columnar, settings.compress, file.length⟩
  | measuring write written | placing write written =>
    finishAfter settings write (moveIntoPlace settings write written)
  | abandoning write error => giveUp settings write error
  | committing write written => finish settings write written
  | removing file others answer => clearUp settings answer (file :: others)
  | done answer => .ofExcept id answer

theorem clearUp_nil (answer : Except StoreError DiskAnswer) :
    clearUp settings answer [] = .ofExcept id answer := by
  change (pure () : DiskAction Unit) >>= _ = _
  rw [pure_bind]

theorem clearUp_cons (answer : Except StoreError DiskAnswer) (file : String) (others : List String) :
    clearUp settings answer (file :: others) =
      removeFileOf settings file >>= fun _ => clearUp settings answer others := by
  change (removeFileOf settings file >>= fun _ => others.forM (removeFileOf settings)) >>= _ = _
  rw [bind_assoc]
  rfl

theorem rest_leaving (answer : Except StoreError DiskAnswer) (files : List String) :
    (leaving answer files).rest settings = clearUp settings answer files := by
  cases files with
  | nil => exact (clearUp_nil answer).symm
  | cons file others => rfl

theorem rest_answered (answer : DiskAnswer) :
    (done (.ok answer)).rest settings = pure answer := rfl

theorem throw_bind {Next : Type} (next : Result → DiskAction Next) :
    (throw error : DiskAction Result) >>= next = throw error := rfl

theorem giveUp_bind {Next : Type} (next : Result → DiskAction Next) :
    giveUp settings write error >>= next = giveUp settings write error := by
  unfold giveUp
  rw [bind_assoc]
  exact bind_congr fun _ => throw_bind next

/-- What is done in a guarded section is the beginning of what is guarded as a whole. -/
theorem guarded_bind_rest {Middle : Type} {action : DiskAction Middle} {next : Middle → CallPlace}
    {later : Middle → DiskAction WrittenPayload}
    (goesOn : ∀ middle, (next middle).rest settings = finishAfter settings write (later middle)) :
    guarded write (do return next (← action)) >>= rest settings =
      finishAfter settings write (action >>= later) := by
  funext world
  unfold finishAfter at goesOn ⊢
  simp only [guarded, bind, ExceptT.bind, ExceptT.mk, tryCatchThe, MonadExceptOf.tryCatch,
    ExceptT.tryCatch, EStateM.bind]
  cases ended : action world with
  | error fault world => rfl
  | ok answer middle =>
      cases answer with
      | error error => exact (congrFun (giveUp_bind (finish settings write)) middle).symm
      | ok result => exact congrFun (goesOn result) middle

/-- A section that writes the temporary file is followed by the look at it. -/
theorem guarded_draft_bind_rest (settings : DiskSettings) (write : DiskWrite)
    (draft : DiskAction WrittenPayload) :
    guarded write (do return measuring write (← draft)) >>= rest settings =
      finishAfter settings write (do moveIntoPlace settings write (← draft)) :=
  guarded_bind_rest fun _ => rfl

/-- After a section, what is left is what was left before it. -/
theorem advance_bind_rest (place : CallPlace) :
    place.advance settings >>= rest settings = place.rest settings := by
  cases place with
  | starting call =>
      cases call with
      | get key =>
          simp only [advance, rest, DiskStore.get, map_eq_pure_bind, bind_assoc]
          refine bind_congr fun records => ?_
          cases Keyed.find? key records with
          | none => simp only [pure_bind, rest_answered]
          | some record =>
              simp only [pure_bind, rest, bind_assoc]
              refine bind_congr fun world => ?_
              split <;> simp only [bind_assoc, pure_bind]
      | put key value =>
          simp only [advance, rest, DiskStore.put, map_eq_pure_bind, bind_assoc]
          refine bind_congr fun size => ?_
          by_cases large : settings.budget < size
          · simp only [large, if_true, throw_bind]
          · simp only [large, if_false, pure_bind, bind_assoc, rest]
            refine bind_congr fun records => bind_congr fun victims => bind_congr fun written => ?_
            refine bind_congr fun files => bind_congr fun persisted => bind_congr fun _ => ?_
            cases persisted <;> rfl
      | delete key =>
          simp only [advance, rest, DiskStore.delete, map_eq_pure_bind, bind_assoc]
          refine bind_congr fun records => ?_
          cases Keyed.find? key records with
          | none => simp only [pure_bind, rest_answered]
          | some record =>
              simp only [pure_bind, bind_assoc]
              refine bind_congr fun _ => bind_congr fun _ => bind_congr fun _ => ?_
              refine (clearUp_cons _ _ _).trans (bind_congr fun _ => ?_)
              exact clearUp_nil _
  | looking key record =>
      simp only [advance, bind_assoc]
      refine bind_congr fun world => ?_
      split <;> exact pure_bind _ _
  | dropping key =>
      simp only [advance, bind_assoc, pure_bind, rest_answered]
      rfl
  | reading key record =>
      simp only [advance, bind_assoc, pure_bind]
      rfl
  | counting key record value =>
      simp only [advance, bind_assoc, pure_bind, rest_answered]
      rfl
  | preparing write =>
      simp only [advance, bind_assoc, pure_bind, rest, writePayload, finishAfter]
      rfl
  | drafting write =>
      simp only [advance, rest, writeDraft]
      cases write.value.table?.filter fun table => settings.columnar && Columnar.supports table with
      | some table =>
          simp only [bind_assoc, pure_bind]
          exact guarded_bind_rest fun _ => rfl
      | none =>
          let draft : DiskAction WrittenPayload := do
            let encoded ← .ofExcept .codec (binaryContent settings write.value)
            onFiles (FileSystem.writeFile (draftFor settings write.key) encoded.1)
            return ⟨.binary, encoded.2, encoded.1.length⟩
          have whole := guarded_draft_bind_rest settings write draft
          simp only [draft, bind_assoc, pure_bind] at whole ⊢
          exact whole
  | filling write table =>
      let fill : DiskAction WrittenPayload := do
        let level := if settings.compress then some settings.compressor.level else none
        let file ← .ofExcept .columnar (Columnar.write table level)
        onFiles (FileSystem.writeNode (draftFor settings write.key) (.columnar file))
        return ⟨.columnar, settings.compress, file.length⟩
      have whole := guarded_draft_bind_rest settings write fill
      simp only [fill, bind_assoc, pure_bind] at whole
      exact whole
  | measuring write written => exact pure_bind _ _
  | placing write written => exact guarded_bind_rest fun _ => rfl
  | abandoning write error => exact giveUp_bind _
  | committing write written =>
      simp only [advance, bind_assoc, pure_bind, rest_leaving]
      rfl
  | removing file others answer =>
      simp only [advance, bind_assoc, pure_bind, rest_leaving]
      exact (clearUp_cons answer file others).symm
  | done answer => rfl

/-- A section takes its share of what is left. -/
theorem run_rest_of_advance {place : CallPlace} {next : Except StoreError CallPlace} {world after : DiskWorld}
    (ended : (place.advance settings).run world = .ok next after) :
    (place.rest settings).run world = ((landing next).rest settings).run after := by
  rw [← advance_bind_rest place]
  cases next with
  | ok next => exact run_bind_of_ok ended
  | error error => exact run_bind_of_failed ended

end CallPlace

namespace SharedDisk

open CallPlace

variable {settings : DiskSettings} {shared after final : SharedDisk} {call : Nat}

/-- What a step says of the section that it takes. -/
theorem step_eq_some (stepped : shared.step settings call = some after) :
    ∃ place next world, shared.calls[call]? = some place ∧ place.isDone = false ∧
      (∀ draft ∈ place.draft? settings, shared.world.files.has draft = true) ∧
      (place.advance settings).run shared.world = .ok next world ∧ (landing next).hasFailed = false ∧
      after = ⟨world, shared.calls.set call (landing next),
        place.events shared.world.book.index.records ++ shared.history⟩ := by
  unfold SharedDisk.step at stepped
  cases stands : shared.calls[call]? with
  | none =>
      rw [stands] at stepped
      cases stepped
  | some place =>
      rw [stands] at stepped
      simp only [Option.bind_eq_bind, Option.bind_some] at stepped
      split at stepped
      · cases stepped
      rename_i free
      obtain ⟨going, there⟩ := not_or.mp (free ∘ Bool.or_eq_true_iff.mpr)
      have sees (draft : String) (own : draft ∈ place.draft? settings) :
          shared.world.files.has draft = true := by
        rw [Option.mem_def.mp own] at there
        simpa using there
      cases ended : (place.advance settings).run shared.world with
      | error fault world =>
          rw [ended] at stepped
          cases stepped
      | ok next world =>
          rw [ended] at stepped
          cases spared : (landing next).hasFailed with
          | true =>
              simp only [spared, if_true] at stepped
              cases stepped
          | false =>
              simp only [spared] at stepped
              exact ⟨place, next, world, rfl, eq_false_of_ne_true going, sees, ended, spared,
                (Option.some.inj stepped).symm⟩

/-- A section that ends is a step, if the temporary file that it goes back to is there and no call on files fails. -/
theorem step_of_ends {place : CallPlace} {next : Except StoreError CallPlace} {world : DiskWorld}
    (stands : shared.calls[call]? = some place) (going : place.isDone = false)
    (sees : ∀ draft ∈ place.draft? settings, shared.world.files.has draft = true)
    (ended : (place.advance settings).run shared.world = .ok next world)
    (spared : (landing next).hasFailed = false) :
    shared.step settings call = some ⟨world, shared.calls.set call (landing next),
      place.events shared.world.book.index.records ++ shared.history⟩ := by
  have seen : (place.draft? settings).any (fun draft => !shared.world.files.has draft) = false := by
    cases own : place.draft? settings with
    | none => rfl
    | some draft => simp [sees draft own]
  unfold SharedDisk.step
  rw [stands]
  simp [going, seen, ended, spared]

theorem run_cons (move : Nat) (moves : List Nat) :
    shared.run settings (move :: moves) = (shared.step settings move).bind (·.run settings moves) := rfl

theorem run_append (first second : List Nat) :
    shared.run settings (first ++ second) = (shared.run settings first).bind (·.run settings second) :=
  List.foldlM_append ..

/-- A run that begins with a section of the call. -/
theorem run_of_ends {place : CallPlace} {next : Except StoreError CallPlace} {world : DiskWorld} {moves : List Nat}
    (stands : shared.calls[call]? = some place) (going : place.isDone = false)
    (sees : ∀ draft ∈ place.draft? settings, shared.world.files.has draft = true)
    (ended : (place.advance settings).run shared.world = .ok next world)
    (spared : (landing next).hasFailed = false) :
    shared.run settings (call :: moves) = SharedDisk.run settings ⟨world, shared.calls.set call (landing next),
      place.events shared.world.book.index.records ++ shared.history⟩ moves := by
  rw [run_cons, step_of_ends stands going sees ended spared]
  rfl

theorem rest_of_run {place : CallPlace} {moves : List Nat} (alone : shared.calls = [place])
    (ran : shared.run settings moves = some final) : ∃ last, final.calls = [last] ∧
      (place.rest settings).run shared.world = (last.rest settings).run final.world := by
  induction moves generalizing shared place with
  | nil =>
      cases ran
      exact ⟨place, alone, rfl⟩
  | cons move moves induction =>
      obtain ⟨middle, stepped, further⟩ := Option.bind_eq_some_iff.mp ran
      obtain ⟨own, next, world, stands, -, -, ended, -, rfl⟩ := step_eq_some stepped
      obtain ⟨rfl, rfl⟩ : move = 0 ∧ own = place := by
        rw [alone] at stands
        cases move with
        | zero => exact ⟨rfl, (Option.some.inj stands).symm⟩
        | succ move => cases stands
      rw [run_rest_of_advance ended]
      exact induction (by rw [alone]; rfl) further

/-- A call that is alone on the store does what the call of the store does. -/
theorem run_alone {world : DiskWorld} {call : DiskCall} {moves : List Nat}
    (ran : (start world [call]).run settings moves = some final) (returned : final.Returned) :
    ∃ answer, final.calls = [.done answer] ∧
      ((starting call).rest settings).run world = .ok answer final.world := by
  obtain ⟨last, calls, same⟩ := rest_of_run rfl ran
  have ended := returned last (calls ▸ List.mem_singleton_self last)
  cases last with
  | done answer =>
      refine ⟨answer, calls, same.trans ?_⟩
      cases answer <;> rfl
  | _ => cases ended

end SharedDisk

end TierVault
