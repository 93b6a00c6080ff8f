import TierVault.Proofs.Store.SharedCalls
import TierVault.Proofs.Store.SharedSteps
import TierVault.Zstandard.Codec

/-!
What is left when all calls on a shared disk store have returned.

A record is in the index if the last thing that happened to it was a commit. Its file holds what was
placed there last, unless it went since. A read answers the value of the record only where the two agree, and
nothing makes them agree when other calls of the key came in between.

Writes of one key use one temporary file. In a run in which every call on files succeeds, no two of them use
it at the same time: one of them would in the end find it moved away.
-/

namespace TierVault.SharedDisk

open FileSystem DiskStore StoreAction TierVault.Action CallPlace

variable {settings : DiskSettings} {opened : FileSystem} {home : Path} {keys : List String}
  {faults : Fault → Prop} {step rest call : Nat} {key : String} {shared after final : SharedDisk}
  {before : String → Option StoredValue} {place : CallPlace} {world : DiskWorld}
  {residents : List (Resident DiskRecord)} {map : RecentMap}

/-! ## Temporary files -/

/-- The call has begun the temporary file of the key and not moved it. -/
def Drafts (shared : SharedDisk) (call : Nat) (key : String) : Prop :=
  ∃ place, shared.calls[call]? = some place ∧ place.drafting? = some key

/-- There are more writes that count on the temporary file of the key than there are such files. -/
def Crowded (home : Path) (key : String) (shared : SharedDisk) : Prop :=
  ∃ call, shared.Drafts call key ∧ (shared.world.files.isThere (draftPath home key) = false ∨
    ∃ other, other ≠ call ∧ shared.Drafts other key)

/-- When all calls have returned, no file is counted on. -/
theorem Returned.not_crowded (returned : shared.Returned) : ¬Crowded home key shared := by
  rintro ⟨call, ⟨place, stands, drafting⟩, -⟩
  have ended := returned place (List.mem_of_getElem? stands)
  cases place with
  | done => cases drafting
  | _ => cases ended

section

variable {next : Except StoreError CallPlace} {left : DiskWorld} {history : List DiskEvent}

theorem drafts_set (stands : shared.calls[call]? = some place)
    (drafting : (landing next).drafting? = some key) :
    Drafts ⟨left, shared.calls.set call (landing next), history⟩ call key := by
  obtain ⟨bound, -⟩ := List.getElem?_eq_some_iff.mp stands
  exact ⟨landing next, List.getElem?_set_self bound, drafting⟩

theorem Drafts.set_other {other : Nat} (drafts : shared.Drafts other key) (different : other ≠ call) :
    Drafts ⟨left, shared.calls.set call (landing next), history⟩ other key := by
  obtain ⟨place, stands, drafting⟩ := drafts
  exact ⟨place, (List.getElem?_set_ne different.symm).trans stands, drafting⟩

/-- One file too few stays one too few: what a write begins, it counts on itself. -/
theorem Crowded.kept (crowded : Crowded home key shared) (stands : shared.calls[call]? = some place)
    (uses : UsesDraft home key shared.world.files left.files place (landing next)) :
    Crowded home key ⟨left, shared.calls.set call (landing next), history⟩ := by
  obtain ⟨first, drafts, lacks⟩ := crowded
  have own (same : first = call) : place.drafting? = some key := by
    obtain ⟨place, there, drafting⟩ := drafts
    rw [same] at there
    cases there.symm.trans stands
    exact drafting
  -- Beside the call that moves there is another, unless the file is missing.
  have another (there : first = call → shared.world.files.isThere (draftPath home key) = true) :
      ∃ other, other ≠ call ∧ shared.Drafts other key := by
    by_cases same : first = call
    · obtain missing | ⟨other, different, also⟩ := lacks
      · cases missing.symm.trans (there same)
      · exact ⟨other, same ▸ different, also⟩
    · exact ⟨first, same, drafts⟩
  cases uses with
  | spares goesOn same =>
      have still {other : Nat} (drafts : shared.Drafts other key) :
          Drafts ⟨left, shared.calls.set call (landing next), history⟩ other key := by
        by_cases equal : other = call
        · subst equal
          obtain ⟨held, there, drafting⟩ := drafts
          cases there.symm.trans stands
          exact drafts_set stands (goesOn drafting)
        · exact drafts.set_other equal
      refine ⟨first, still drafts, lacks.imp (fun missing => ?_) ?_⟩
      · rw [isThere, same]
        exact missing
      · rintro ⟨other, different, also⟩
        exact ⟨other, different, still also⟩
  | writes begins saw =>
      obtain ⟨other, different, also⟩ := another fun same => saw (own same)
      exact ⟨call, drafts_set stands begins, .inr ⟨other, different, also.set_other different⟩⟩
  | movesAway moves there gone =>
      obtain ⟨other, different, also⟩ := another fun _ => there
      exact ⟨other, also.set_other different, .inl gone⟩

end

/-! ## Stores that are as their history tells -/

/-- The store is as its history tells, but for files on which too many writes count. -/
structure Accords (settings : DiskSettings) (opened : FileSystem) (home : Path) (keys : List String)
    (faults : Fault → Prop) (before : String → Option StoredValue) (step rest : Nat)
    (shared : SharedDisk) : Prop where
  shelved : Shelved opened home shared.world.files
  bounded : BoundedBook faults step rest shared.world.book
  records : ∀ pair ∈ shared.world.book.index.records, pair.2.Lies keys home shared.world.files pair.1
  fits : ∀ place ∈ shared.calls, place.Fits settings keys step home shared.world.files
  indexed : ∀ key, (Keyed.find? key shared.world.book.index.records).map (·.format) =
    (recorded before key shared.history).map (·.format)
  drafts : ∀ key ∈ keys, ¬Crowded home key shared →
    ∀ place ∈ shared.calls, place.drafting? = some key → place.HoldsDraft settings home shared.world.files
  contains : ∀ key ∈ keys, ¬Crowded home key shared →
    Contains settings home shared.world.files key (filed before key shared.history)

/-- A section that succeeds keeps the store as its history tells. -/
theorem Accords.moves (ground : Ground settings opened home keys) (positive : 1 ≤ step)
    (accords : Accords settings opened home keys faults before step (rest + 1) shared)
    (stepped : shared.step settings call = some after) :
    Accords settings opened home keys faults before step rest after := by
  obtain ⟨place, next, left, stands, going, sees, ended, spared, rfl⟩ := step_eq_some stepped
  have among := List.mem_of_getElem? stands
  have fits := accords.fits place among
  have moves := advances ground positive accords.shelved accords.bounded going fits
  have moved := moves.moved next left ended spared
  have shelved := (moved.touches accords.shelved).shelved
  have stays := moved.directory accords.shelved
  have calm {key : String} (known : key ∈ keys) (calm : ¬Crowded home key
      ⟨left, shared.calls.set call (landing next),
        place.events shared.world.book.index.records ++ shared.history⟩) : ¬Crowded home key shared :=
    fun crowded => calm (crowded.kept stands (moved.usesDraft ground accords.shelved fits sees known))
  refine ⟨shelved, moved.bounded accords.bounded, moved.records accords.shelved fits accords.records,
    ?_, moved.indexed accords.indexed, ?_, ?_⟩
  · intro other member
    rcases List.mem_or_eq_of_mem_set member with before | rfl
    · exact (accords.fits other before).keeps stays
    · exact moved.fits accords.shelved accords.bounded accords.records fits
  · intro key known free other member drafting
    have holds := accords.drafts key known (calm known free)
    obtain ⟨number, there⟩ := List.mem_iff_getElem?.mp member
    by_cases same : number = call
    · subst same
      obtain ⟨bound, -⟩ := List.getElem?_eq_some_iff.mp stands
      cases there.symm.trans (List.getElem?_set_self bound)
      exact moved.holdsDraft drafting (holds place among)
    · have before := (List.getElem?_set_ne (Ne.symm same)).symm.trans there
      have drafts : Drafts ⟨left, shared.calls.set call (landing next),
          place.events shared.world.book.index.records ++ shared.history⟩ number key :=
        ⟨other, there, drafting⟩
      refine HoldsDraft.of_node? drafting ?_ (holds other (List.mem_of_getElem? before) drafting)
      cases moved.usesDraft ground accords.shelved fits sees known with
      | spares _ same => exact same
      | writes begins =>
          exact (free ⟨number, drafts, .inr ⟨call, Ne.symm same, drafts_set stands begins⟩⟩).elim
      | movesAway _ _ gone => exact (free ⟨number, drafts, .inl gone⟩).elim
  · intro key known free
    have free := calm known free
    exact moved.contains ground accords.shelved fits known
      (accords.drafts key known free place among) (accords.contains key known free)

theorem Accords.runs (ground : Ground settings opened home keys) (positive : 1 ≤ step) {moves : List Nat}
    (accords : Accords settings opened home keys faults before step (rest + moves.length) shared)
    (ran : shared.run settings moves = some final) :
    Accords settings opened home keys faults before step rest final := by
  induction moves generalizing shared with
  | nil =>
      cases ran
      exact accords
  | cons move moves induction =>
      obtain ⟨middle, stepped, further⟩ := Option.bind_eq_some_iff.mp ran
      exact induction (accords.moves ground positive stepped) further

/-! ## Where runs begin -/

/-- The value that the store holds under the key, with the format that its record tells. -/
def held (records : Keyed String DiskRecord) (map : RecentMap) (key : String) : Option StoredValue := do
  let record ← Keyed.find? key records
  let value ← Keyed.find? key map
  return ⟨value, record.format⟩

/-- The store stands for the map, and beside the files of its records there are no payload files. -/
structure Stocked (settings : DiskSettings) (opened : FileSystem) (home : Path) (keys : List String)
    (faults : Fault → Prop) (step rest : Nat) (world : DiskWorld) (map : RecentMap) : Prop where
  stands : ∃ residents, Stands settings opened home keys faults step rest residents world map
  bare : ∀ key ∈ keys, Keyed.find? key map = none → world.files.node? (payloadPath home key) = none

theorem stocked_of_vacant (vacant : Vacant opened settings.root home)
    (short : ¬faults .sumOverflow → rest * step < Word.limit) :
    Stocked settings opened home keys faults step rest ⟨⟨.empty, false, default⟩, opened⟩ [] :=
  ⟨⟨[], stands_of_vacant vacant short⟩, fun key _ _ => vacant.node? (shelfName key) [payloadName key]⟩

theorem accords_start (stocked : Stocked settings opened home keys faults step rest world map)
    {calls : List DiskCall}
    (permits : ∀ key value, DiskCall.put key value ∈ calls → Permits keys step (.put key value)) :
    Accords settings opened home keys faults (held world.book.index.records map) step rest
      (start world calls) := by
  obtain ⟨residents, stands⟩ := stocked.stands
  have begins (place : CallPlace) (member : place ∈ (start world calls).calls) :
      place.drafting? = none ∧ place.Fits settings keys step home world.files := by
    obtain ⟨call, among, rfl⟩ := List.mem_map.mp member
    cases call with
    | get | delete => exact ⟨rfl, trivial⟩
    | put key value => exact ⟨rfl, permits key value among⟩
  refine ⟨stands.shelved, stands.book, fun pair member => ?_, fun place member => (begins place member).2,
    fun key => ?_, fun key _ _ place member drafting => ?_, fun key known _ => ?_⟩
  · obtain ⟨known, file, directory⟩ := stands.file_of_mem member
    exact ⟨known, file, directory⟩
  · change _ = (held world.book.index.records map key).map (·.format)
    rw [held]
    rcases stands.mirrors.find? key with ⟨missing, -⟩ | ⟨record, value, found, stored, -⟩
    · change Option.map _ (Keyed.find? key world.book.index.records) = _
      rw [stands.ranks.find? key, missing]
      rfl
    · change Option.map _ (Keyed.find? key world.book.index.records) = _
      rw [stands.ranks.find? key, found, stored]
      rfl
  · cases (begins place member).1.symm.trans drafting
  · change Contains settings home world.files key (held world.book.index.records map key)
    rw [held, stands.ranks.find? key]
    rcases stands.mirrors.find? key with ⟨missing, unknown⟩ | ⟨record, value, found, stored, holds⟩
    · rw [missing]
      exact .nothing (stocked.bare key known unknown)
    · obtain ⟨node, lies, stored'⟩ := holds.stored
      rw [found, stored]
      exact .payload lies stored'

/-! ## What reads answer -/

/-- The answer of a read, from the value of the record and the value in the file. A record without a file is
dropped, and a file in another format than that of the record cannot be read. -/
inductive Reads : Option StoredValue → Option StoredValue → Except StoreError (Option Value) → Prop
  | unknown {filed? : Option StoredValue} : Reads none filed? (.ok none)
  | lost {recorded : StoredValue} : Reads (some recorded) none (.ok none)
  | found {recorded filed : StoredValue} : filed.format = recorded.format →
    Reads (some recorded) (some filed) (.ok (some filed.value))
  | unreadable {recorded filed : StoredValue} {error : StoreError} : filed.format ≠ recorded.format →
    Reads (some recorded) (some filed) (.error error)

section

theorem run_get_of_unknown (missing : Keyed.find? key world.book.index.records = none) :
    (DiskStore.get settings key).run world = .ok (.ok none) world := by
  rw [DiskStore.get, run_bind_of_ok run_records, missing]
  rfl

variable {record : DiskRecord} (found : Keyed.find? key world.book.index.records = some record)

include found

theorem run_get_of_lost (lost : world.files.has (FileName.join settings.root record.file) = false) :
    (DiskStore.get settings key).run world = .ok (.ok none)
      ⟨⟨⟨Keyed.remove key world.book.index.records, world.book.index.clock⟩, true,
        world.book.transfers⟩, world.files⟩ := by
  rw [DiskStore.get, run_bind_of_ok run_records, found]
  dsimp only
  rw [run_bind_of_ok run_getWorld, lost]
  rfl

theorem run_get_of_has (has : world.files.has (FileName.join settings.root record.file) = true) :
    (DiskStore.get settings key).run world = ExceptT.run (do
      let value ← readPayload settings (FileName.join settings.root record.file) record.format
      noteRead key record
      return some value) world := by
  rw [DiskStore.get, run_bind_of_ok run_records, found]
  dsimp only
  rw [run_bind_of_ok run_getWorld, has]
  rfl

end

/-- Nothing else than the index and the file of the key decides what a read answers. -/
theorem Accords.reads (ground : Ground settings opened home keys) (positive : 1 ≤ step)
    (accords : Accords settings opened home keys faults before step (rest + 1) shared)
    (known : key ∈ keys) (free : ¬Crowded home key shared) :
    Leads faults (DiskStore.get settings key).run shared.world fun answer _ =>
      Reads (recorded before key shared.history) (filed before key shared.history) answer := by
  have indexed := accords.indexed key
  have contains := accords.contains key known free
  generalize recorded before key shared.history = recorded? at indexed ⊢
  generalize filed before key shared.history = filed? at contains ⊢
  cases recorded? with
  | none => exact (leads_of_eq (run_get_of_unknown (Option.map_eq_none_iff.mp indexed))).mpr .unknown
  | some recorded =>
      obtain ⟨record, found, format⟩ := Option.map_eq_some_iff.mp indexed
      have among := Keyed.mem_of_find? found
      have lies : record.Lies keys home shared.world.files key := accords.records _ among
      have light : record.storedBytes ≤ step := (accords.bounded.records _ among).2
      have named : FileName.join settings.root record.file = nameFor settings key :=
        congrArg (FileName.join settings.root) lies.file
      have there := has_payload ground.vacant accords.shelved lies.directory
      rw [← named, isThere] at there
      cases contains with
      | nothing missing =>
          rw [missing] at there
          exact (leads_of_eq (run_get_of_lost found there)).mpr .lost
      | @payload filed node holds stored =>
          rw [holds] at there
          refine (leads_congr (run_get_of_has found there)).mpr ?_
          rw [named]
          by_cases same : filed.format = record.format
          · have reads : Succeeds faults (readPayload settings (nameFor settings key) record.format)
                shared.world fun result after => result = filed.value ∧
                  after = { shared.world with files := shared.world.files.counted } :=
              readPayload_succeeds ground.vacant accords.shelved lies.directory holds (same ▸ stored)
            have answers : Succeeds faults (readPayload settings (nameFor settings key) record.format >>=
                fun value => noteRead key record >>= fun _ => pure (some value)) shared.world
                fun answer _ => answer = some filed.value := by
              refine Succeeds.bind (reads.imp ?_)
              rintro value _ ⟨rfl, rfl⟩
              refine Succeeds.bind ((noteRead_renews accords.bounded positive light _).imp ?_)
              exact fun _ _ _ => succeeds_pure rfl
            refine answers.leads.imp ?_
            rintro _ _ - ⟨_, rfl, rfl⟩
            exact .found (same.trans format)
          · obtain ⟨error, fails⟩ := readPayload_of_other ground.vacant accords.shelved lies.directory
              holds stored same shared.world.book
            refine (leads_of_eq (run_bind_of_failed fails)).mpr (.unreadable ?_)
            exact fun equal => same (equal.trans format.symm)

/-! ## Calls that nothing disturbs -/

section

variable {value : Value} {size : Nat} {names : List String} {write : DiskWrite} {written : WrittenPayload}
  {record : DiskRecord} {answer : Except StoreError DiskAnswer}

theorem step_put (stands : shared.calls[call]? = some (starting (.put key value)))
    (sized : value.encodedSize = .ok size) (fits : size ≤ settings.budget)
    (told : victims settings.budget shared.world.book.index.records key size = .ok names) :
    shared.step settings call = some ⟨shared.world, shared.calls.set call (preparing ⟨key, value, size, names⟩),
      shared.history⟩ :=
  step_of_ends stands rfl nofun (ends_put sized fits told) rfl

variable (shared) (vacant : Vacant opened settings.root home) (shelved : Shelved opened home shared.world.files)

include vacant shelved

/-- A write that goes into no columnar file makes its directory, writes its temporary file, looks at it and moves it
into place. -/
theorem run_payload (stands : shared.calls[call]? = some (preparing write)) (fits : write.Fits keys step)
    (plain : ∀ table, ¬write.IsColumnar settings table) :
    ∃ compressed stored files, shared.run settings [call, call, call, call] = some ⟨⟨shared.world.book, files⟩,
        shared.calls.set call (committing write ⟨.binary, compressed, stored⟩),
        .placed write.key ⟨write.value, .binary⟩ :: shared.history⟩ ∧
      stored ≤ step ∧ Shelved opened home files ∧ files.isDirectory (shelfPath home write.key) = true := by
  obtain ⟨bound, -⟩ := List.getElem?_eq_some_iff.mp stands
  have here (place : CallPlace) : (shared.calls.set call place)[call]? = some place := List.getElem?_set_self bound
  obtain ⟨made, prepared, first, directory⟩ := ends_preparing vacant shelved write
  obtain ⟨compressed, stored, node, filled, drafted, light, second, there, -⟩ :=
    ends_drafting vacant first.shelved fits directory plain shared.world.book
  have directory := second.directory (shelfPath_ne home write.key _ _) directory
  have seen : filled.has (draftFor settings write.key) = true :=
    (has_draft vacant second.shelved directory).trans (isThere_of_node? there)
  obtain ⟨final, placed, third, -⟩ :=
    ends_placing vacant second.shelved directory there ⟨.binary, compressed, stored⟩ shared.world.book
  refine ⟨compressed, stored, final, ?_, light, third.shelved, third.directory ?_ directory⟩
  · refine Eq.trans (run_of_ends stands rfl nofun prepared rfl) ?_
    refine Eq.trans (run_of_ends (here _) rfl nofun drafted rfl) ?_
    rw [List.set_set]
    refine Eq.trans (run_of_ends (here _) rfl (fun draft own => Option.some.inj own ▸ seen) rfl rfl) ?_
    rw [List.set_set]
    refine Eq.trans (run_of_ends (here _) rfl nofun placed rfl) ?_
    rw [List.set_set]
    rfl
  · exact not_or.mpr ⟨shelfPath_ne home write.key _ _, shelfPath_ne home write.key _ _⟩

/-- The write is done: its record is in the index, and no other has left for it. -/
structure Commits (settings : DiskSettings) (opened : FileSystem) (home : Path) (faults : Fault → Prop)
    (step rest : Nat) (shared : SharedDisk) (call : Nat) (write : DiskWrite) (format : PayloadFormat)
    (after : SharedDisk) : Prop where
  calls : after.calls = shared.calls.set call (done (.ok .stored))
  history : after.history = .committed write.key ⟨write.value, format⟩ :: shared.history
  records : ∃ record : DiskRecord, record.file = fileFor write.key ∧ record.size = write.size ∧
    after.world.book.index.records = Keyed.put write.key record shared.world.book.index.records
  bounded : BoundedBook faults step rest after.world.book
  shelved : Shelved opened home after.world.files
  directory : ∀ key, shared.world.files.isDirectory (shelfPath home key) = true →
    after.world.files.isDirectory (shelfPath home key) = true

theorem step_committing (stands : shared.calls[call]? = some (committing write written)) (stays : write.victims = [])
    (bounded : BoundedBook faults step (rest + 1) shared.world.book) (quiet : ∀ fault, ¬faults fault)
    (positive : 1 ≤ step) (light : written.storedBytes ≤ step) :
    ∃ after, shared.step settings call = some after ∧
      Commits settings opened home faults step rest shared call write written.format after := by
  obtain ⟨next, after, ended, rfl, bounded, touches, record, file, size, -, records⟩ :=
    (ends_committing vacant shelved bounded positive light).ends quiet
  have nobody (records : Keyed String DiskRecord) :
      records.filter (fun pair => write.victims.contains pair.1) = [] := by
    simp [stays]
  have everybody (records : Keyed String DiskRecord) :
      records.filter (fun pair => !write.victims.contains pair.1) = records := by
    simp [stays]
  rw [nobody] at ended
  rw [everybody] at records
  have told : (committing write written).events shared.world.book.index.records =
      [.committed write.key ⟨write.value, written.format⟩] := by
    rw [events, stays, List.map_nil]
  refine ⟨_, step_of_ends stands rfl (fun _ draft => absurd draft (Option.not_mem_none _)) ended rfl, rfl, ?_,
    ⟨record, file, size, records⟩, bounded, touches.shelved, fun key =>
      touches.directory (shelfPath_ne_index home key)⟩
  rw [told]
  rfl

/-- A write of a value that goes into no columnar file, and for which nobody leaves, is done after six sections. -/
theorem run_put (stands : shared.calls[call]? = some (starting (.put key value)))
    (bounded : BoundedBook faults step (rest + 1) shared.world.book) (quiet : ∀ fault, ¬faults fault)
    (positive : 1 ≤ step) (permits : Permits keys step (.put key value)) (sized : value.encodedSize = .ok size)
    (fits : size ≤ settings.budget)
    (told : victims settings.budget shared.world.book.index.records key size = .ok [])
    (plain : ∀ table, ¬DiskWrite.IsColumnar settings ⟨key, value, size, []⟩ table) :
    ∃ after, shared.run settings (List.replicate 6 call) = some after ∧
      after.calls = shared.calls.set call (done (.ok .stored)) ∧
      after.history = .committed key ⟨value, .binary⟩ :: .placed key ⟨value, .binary⟩ :: shared.history ∧
      (∃ record : DiskRecord, record.file = fileFor key ∧
        after.world.book.index.records = Keyed.put key record shared.world.book.index.records) ∧
      BoundedBook faults step rest after.world.book ∧ Shelved opened home after.world.files ∧
      after.world.files.isDirectory (shelfPath home key) = true := by
  obtain ⟨bound, -⟩ := List.getElem?_eq_some_iff.mp stands
  have here (place : CallPlace) : (shared.calls.set call place)[call]? = some place := List.getElem?_set_self bound
  obtain ⟨encoded, encodes, -⟩ := Value.encode_of_encodedSize sized
  obtain ⟨compressed, stored, files, placed, light, shelved, directory⟩ :=
    run_payload ⟨shared.world, shared.calls.set call (preparing ⟨key, value, size, []⟩), shared.history⟩ vacant
      shelved (here _) ⟨permits, encoded, encodes⟩ plain
  rw [List.set_set] at placed
  let write : DiskWrite := ⟨key, value, size, []⟩
  let written : WrittenPayload := ⟨.binary, compressed, stored⟩
  obtain ⟨after, committed, commits⟩ := step_committing ⟨⟨shared.world.book, files⟩,
    shared.calls.set call (committing write written), _⟩ vacant shelved (here _) rfl bounded quiet positive light
  obtain ⟨record, file, -, records⟩ := commits.records
  refine ⟨after, ?_, ?_, commits.history, ⟨record, file, records⟩, commits.bounded, commits.shelved,
    commits.directory key directory⟩
  · change shared.run settings (call :: ([call, call, call, call] ++ [call])) = _
    rw [run_cons, step_put stands sized fits told, Option.bind_some, run_append, placed, Option.bind_some, run_cons,
      committed]
    rfl
  · rw [commits.calls, List.set_set]

theorem step_delete (stands : shared.calls[call]? = some (starting (.delete key)))
    (found : Keyed.find? key shared.world.book.index.records = some record) :
    ∃ after, shared.step settings call = some after ∧
      after.calls = shared.calls.set call (removing record.file [] (.ok (.deleted true))) ∧
      after.history = .withdrawn key :: shared.history ∧
      after.world.book = ⟨⟨Keyed.remove key shared.world.book.index.records, shared.world.book.index.clock⟩, false,
        shared.world.book.transfers⟩ ∧
      Shelved opened home after.world.files := by
  obtain ⟨files, ended, touches⟩ := ends_delete vacant shelved found
  refine ⟨_, step_of_ends stands rfl nofun ended rfl, rfl, ?_, rfl, touches.shelved⟩
  simp only [events, Keyed.has, found, Option.isSome_some, if_true, List.singleton_append]

theorem step_removing (directory : shared.world.files.isDirectory (shelfPath home key) = true)
    (stands : shared.calls[call]? = some (removing (fileFor key) [] answer))
    (spared : (done answer).hasFailed = false) :
    ∃ after, shared.step settings call = some after ∧ after.calls = shared.calls.set call (done answer) ∧
      after.history = .erased (fileFor key) :: shared.history := by
  obtain ⟨files, ended, -⟩ := ends_removing vacant shelved directory [] answer
  exact ⟨_, step_of_ends stands rfl nofun ended spared, rfl, rfl⟩

end

/-! ## When all calls have returned -/

/-- What is left of a key: whether it is indexed, whether it has a payload file, and what a read answers. -/
structure Leaves (settings : DiskSettings) (home : Path) (faults : Fault → Prop) (world : DiskWorld)
    (key : String) (recorded? filed? : Option StoredValue) : Prop where
  indexed : Keyed.has key world.book.index.records = recorded?.isSome
  there : world.files.isThere (payloadPath home key) = filed?.isSome
  reads : Leads faults (DiskStore.get settings key).run world fun answer _ =>
    Reads recorded? filed? answer

/-- The event is not one of the key. -/
def Spares (key : String) : DiskEvent → Prop
  | .placed other _ | .committed other _ | .withdrawn other => other ≠ key
  | .erased file => file ≠ fileFor key

section

variable {later between earlier history : List DiskEvent} {stored : StoredValue}

theorem recorded_append (spared : ∀ event ∈ later, Spares key event) :
    recorded before key (later ++ history) = recorded before key history := by
  induction later with
  | nil => rfl
  | cons event later induction =>
      have own := spared event List.mem_cons_self
      have rest := induction fun event member => spared event (List.mem_cons_of_mem _ member)
      cases event with
      | placed | erased => exact rest
      | committed other | withdrawn other => exact (if_neg own).trans rest

theorem filed_append (spared : ∀ event ∈ later, Spares key event) :
    filed before key (later ++ history) = filed before key history := by
  induction later with
  | nil => rfl
  | cons event later induction =>
      have own := spared event List.mem_cons_self
      have rest := induction fun event member => spared event (List.mem_cons_of_mem _ member)
      cases event with
      | committed | withdrawn => exact rest
      | placed other | erased file => exact (if_neg own).trans rest

/-- The last write of a key is found, unless something of another call on the key came after its payload was
placed. -/
theorem Leaves.finds (leaves : Leaves settings home faults world key
      (recorded before key (later ++ .committed key stored :: (between ++ .placed key stored :: earlier)))
      (filed before key (later ++ .committed key stored :: (between ++ .placed key stored :: earlier))))
    (after : ∀ event ∈ later, Spares key event) (meanwhile : ∀ event ∈ between, Spares key event) :
    Leads faults (DiskStore.get settings key).run world fun answer _ =>
      answer = .ok (some stored.value) := by
  have reads := leaves.reads
  rw [recorded_append after, filed_append after, recorded, if_pos rfl, filed, filed_append meanwhile, filed,
    if_pos rfl] at reads
  refine reads.imp fun answer final _ read => ?_
  cases read with
  | found => rfl
  | unreadable different => exact absurd rfl different

end

theorem Accords.leaves (ground : Ground settings opened home keys) (positive : 1 ≤ step)
    (accords : Accords settings opened home keys faults before step (rest + 1) final) (returned : final.Returned)
    (known : key ∈ keys) :
    Leaves settings home faults final.world key (recorded before key final.history)
      (filed before key final.history) := by
  have free : ¬Crowded home key final := returned.not_crowded
  refine ⟨?_, ?_, accords.reads ground positive known free⟩
  · have same := congrArg Option.isSome (accords.indexed key)
    rwa [Option.isSome_map, Option.isSome_map] at same
  · exact (accords.contains key known free).isThere

/-- When the calls on a shared store have all returned and no call on files has failed, the history tells
what is left of each key. -/
theorem leaves_recorded_filed (ground : Ground settings opened home keys) (positive : 1 ≤ step)
    {calls : List DiskCall} {moves : List Nat}
    (stocked : Stocked settings opened home keys faults step (moves.length + 1) world map)
    (permits : ∀ key value, DiskCall.put key value ∈ calls → Permits keys step (.put key value))
    (ran : (start world calls).run settings moves = some final) (returned : final.Returned)
    (known : key ∈ keys) :
    Leaves settings home faults final.world key
      (recorded (held world.book.index.records map) key final.history)
      (filed (held world.book.index.records map) key final.history) := by
  rw [Nat.add_comm] at stocked
  exact ((accords_start stocked permits).runs ground positive ran).leaves ground positive returned known

/-! ### A write that is overtaken -/

def plainFiles : DiskSettings := ⟨"disk", 1000, false, false, ⟨Zstandard.codec, 3, 100⟩⟩

/-- A store that was just opened. -/
def newStore : DiskWorld :=
  ⟨⟨.empty, false, default⟩, (FileSystem.start []).counted.place ["disk"] .directory⟩

example : (openIn plainFiles).run (.start []) = .ok (.ok newStore.book) newStore.files := by rfl

theorem newStore_vacant : Vacant newStore.files "disk" ["disk"] :=
  ⟨⟨by rfl, by rfl⟩, fun _ => rfl, by decide, _, rfl⟩

theorem newStore_stocked (settings : DiskSettings) (root : settings.root = "disk") (keys : List String)
    {rest : Nat} (few : rest * 100 < Word.limit) :
    Stocked settings newStore.files ["disk"] keys (fun _ => False) 100 rest newStore [] :=
  stocked_of_vacant (root ▸ newStore_vacant) fun _ => few

theorem newStore_bounded {rest : Nat} (few : rest * 100 < Word.limit) :
    BoundedBook (fun _ => False) 100 rest newStore.book := by
  obtain ⟨⟨residents, stands⟩, -⟩ := newStore_stocked plainFiles rfl [] few
  exact stands.book

def rewrites : List DiskCall := [.put "k" (.flag false), .delete "k", .put "k" (.flag true)]

/-- The delete stops before its last section, which follows when the second write has returned. -/
def overtaking : List Nat := [0, 0, 0, 0, 0, 0, 1, 2, 2, 2, 2, 2, 2, 1]

theorem rewrites_ground : Ground plainFiles newStore.files ["disk"] ["k"] :=
  ⟨newStore_vacant, by decide, fun left first right second _ =>
    (List.mem_singleton.mp first).trans (List.mem_singleton.mp second).symm⟩

theorem rewrites_permits (key : String) (value : Value) (member : DiskCall.put key value ∈ rewrites) :
    Permits ["k"] 100 (.put key value) := by
  simp only [rewrites, List.mem_cons, List.not_mem_nil, DiskCall.put.injEq, reduceCtorEq, false_or,
    or_false] at member
  rcases member with ⟨rfl, rfl⟩ | ⟨rfl, rfl⟩ <;>
    exact ⟨by decide, by decide, ⟨trivial, trivial⟩, trivial⟩

/-- The write is done, the delete has taken its record, the other write is done, and the delete takes the file. -/
theorem run_overtaking : ∃ final, (start newStore rewrites).run plainFiles overtaking = some final ∧
    final.Returned ∧ recorded (fun _ => none) "k" final.history = some ⟨.flag true, .binary⟩ ∧
      filed (fun _ => none) "k" final.history = none := by
  have vacant : Vacant newStore.files plainFiles.root ["disk"] := newStore_vacant
  have quiet (fault : Fault) : ¬False := id
  have permits := rewrites_permits "k"
  have bounded := newStore_bounded (by decide : 2 * 100 < _)
  have moves : overtaking = List.replicate 6 0 ++ 1 :: (List.replicate 6 2 ++ [1]) := rfl
  obtain ⟨first, wrote, firstCalls, firstEvents, ⟨record, file, records⟩, bounded, shelved, -⟩ :=
    run_put (start newStore rewrites) vacant (shelved_of_vacant vacant)
      (show (start newStore rewrites).calls[0]? = some (starting (.put "k" (.flag false))) from rfl) bounded quiet
      (by decide) (permits _ (by simp [rewrites])) rfl (by decide) (victims_of_room (by decide) (by decide)) nofun
  have found : Keyed.find? "k" first.world.book.index.records = some record := by
    rw [records]
    exact Keyed.find?_put_same ..
  obtain ⟨second, deleted, secondCalls, secondEvents, book, shelved⟩ := step_delete first vacant shelved
    (show first.calls[1]? = some (starting (.delete "k")) by rw [firstCalls]; rfl) found
  have bare : second.world.book.index.records = [] := by
    rw [book, records]
    rfl
  have bounded : BoundedBook (fun _ => False) 100 1 second.world.book := by
    rw [book]
    exact bounded.change false fun _ member => List.mem_of_mem_filter member
  rw [firstCalls, file] at secondCalls
  obtain ⟨third, rewrote, thirdCalls, thirdEvents, -, -, shelved, directory⟩ := run_put second vacant shelved
    (show second.calls[2]? = some (starting (.put "k" (.flag true))) by rw [secondCalls]; rfl) bounded quiet
    (by decide) (permits _ (by simp [rewrites])) rfl (by decide)
    (victims_of_room (by rw [bare]; decide) (by decide)) nofun
  rw [secondCalls] at thirdCalls
  obtain ⟨final, removed, finalCalls, finalEvents⟩ := step_removing third vacant shelved directory
    (show third.calls[1]? = some (removing (fileFor "k") [] (.ok (.deleted true))) by rw [thirdCalls]; rfl) rfl
  rw [thirdCalls] at finalCalls
  refine ⟨final, ?_, ?_, ?_, ?_⟩
  · rw [moves, run_append, wrote, Option.bind_some, run_cons, deleted, Option.bind_some, run_append, rewrote,
      Option.bind_some, run_cons, removed]
    rfl
  · rw [Returned, finalCalls]
    simp [start, rewrites, isDone]
  · rw [finalEvents, thirdEvents, recorded, recorded, if_pos rfl]
  · rw [finalEvents, filed, if_pos rfl]

/-- The second write is recorded, and its file is gone. -/
theorem leaves_recorded_filed_overtaken :
    ∃ final, (start newStore rewrites).run plainFiles overtaking = some final ∧ final.Returned ∧
      Leaves plainFiles ["disk"] (fun _ => False) final.world "k" (some ⟨.flag true, .binary⟩) none := by
  obtain ⟨final, ran, returned, record, file⟩ := run_overtaking
  have leaves := leaves_recorded_filed rewrites_ground (by decide) (newStore_stocked plainFiles rfl _ (by decide))
    rewrites_permits ran returned (List.mem_singleton_self "k")
  have before : held newStore.book.index.records [] = fun _ => none := rfl
  rw [before, record, file] at leaves
  exact ⟨final, ran, returned, leaves⟩

/-- The delete of the first value takes the file of the second. The second write was committed after every
delete and is indexed, and yet it is not found. -/
theorem overtaken_write_not_found :
    ∃ final, (start newStore rewrites).run plainFiles overtaking = some final ∧ final.Returned ∧
      (recorded (fun _ => none) "k" final.history matches some ⟨.flag true, .binary⟩) = true ∧
      Keyed.has "k" final.world.book.index.records = true ∧
      final.world.files.isThere (payloadPath ["disk"] "k") = false ∧
      ∃ after, (DiskStore.get plainFiles "k").run final.world = .ok (.ok none) after := by
  obtain ⟨final, ran, returned, record, file⟩ := run_overtaking
  have stocked := newStore_stocked plainFiles rfl ["k"] (by decide : (1 + overtaking.length) * 100 < _)
  have accords := (accords_start stocked rewrites_permits).runs rewrites_ground (by decide) ran
  have leaves := accords.leaves rewrites_ground (by decide) returned (List.mem_singleton_self "k")
  have same : held newStore.book.index.records [] = fun _ => none := rfl
  rw [same, record, file] at leaves
  refine ⟨final, ran, returned, ?_, leaves.indexed, leaves.there, ?_⟩
  · rw [record]
  · obtain ⟨answer, after, ended, reads⟩ := leaves.reads.ends fun _ => id
    cases reads
    exact ⟨after, ended⟩

end TierVault.SharedDisk
