import TierVault.Proofs.Store.DiskReading
import TierVault.Proofs.Store.RecentMap

/-!
What calls on a disk store do on a medium that may refuse any call on files.

A write reports an error before it has changed the index, or it has done all that it was to do and only the
index could not be written. A call leaves the store's directory there, whichever way it ends.
-/

namespace TierVault.DiskStore

open FileSystem StoreAction TierVault.Action

variable {faults : Fault → Prop} {settings : DiskSettings} {home path : Path} {key other : String}
  {record : DiskRecord} {node : Node} {value : Value} {world after : DiskWorld} {files : FileSystem}
  {changed : Path → Prop} {Result : Type}

/-! ## Places -/

/-- The place of the index, or of its temporary file. -/
def IndexPlace (home path : Path) : Prop := path = home ++ ["metadata.json.tmp"] ∨ path = home ++ ["metadata.json"]

/-- A place beside that of a key's payload: its directory, or its temporary file. -/
def BesidePayload (home : Path) (key : String) (path : Path) : Prop :=
  path = shelfPath home key ∨ path = draftPath home key

theorem not_indexPlace_payloadPath (home : Path) (key : String) : ¬IndexPlace home (payloadPath home key) := by
  rintro (same | same) <;> exact absurd (congrArg List.length (List.append_cancel_left same)) (by simp)

theorem not_indexPlace_shelfPath (home : Path) (key : String) : ¬IndexPlace home (shelfPath home key) := by
  have two := utf8Length_shelfName key
  rintro (same | same) <;>
    rw [(List.cons.inj (List.append_cancel_left same)).1] at two <;> exact absurd two (by decide)

theorem not_indexPlace_of_besidePayload (beside : BesidePayload home key path) : ¬IndexPlace home path := by
  rcases beside with rfl | rfl
  · exact not_indexPlace_shelfPath home key
  · rintro (same | same) <;> exact absurd (congrArg List.length (List.append_cancel_left same)) (by simp)

theorem not_besidePayload_payloadPath (home : Path) (key other : String) :
    ¬BesidePayload home key (payloadPath home other) := by
  rintro (same | same)
  · exact shelfPath_ne home key _ _ same.symm
  · exact payloadPath_ne_draftPath home other key same

/-! ## A store that stays in its place -/

/-- Changes leave the directory there, and the tree in order. -/
theorem Tended.alter (tended : Tended settings home world) {book : DiskBook}
    (alters : Alters changed world.files files)
    (filed : OwnFiles book.index.records) : Tended settings home ⟨book, files⟩ :=
  ⟨tended.holds.keeps alters.keeps, tended.short, alters.orderly tended.orderly, filed⟩

theorem Tended.recounts (tended : Tended settings home world) (recounts : Recounts world.files files) :
    Tended settings home ⟨world.book, files⟩ :=
  tended.alter (recounts.alters fun _ => False) tended.filed

/-- A directory that goes takes all that is in it along. -/
theorem Tended.cleared (tended : Tended settings home world) (level : ".." ∉ FileName.pieces settings.root)
    (name : String) : Tended settings home ⟨world.book, world.files.cleared (home ++ [name])⟩ :=
  ⟨tended.holds.cleared level name, tended.short, tended.orderly.cleared (by simp), tended.filed⟩

theorem Tended.names_draft (tended : Tended settings home world)
    (directory : world.files.isDirectory (shelfPath home key) = true) :
    Names world.files (draftFor settings key) (home ++ [shelfName key]) (draftName key) := by
  rw [draftFor_eq]
  exact tended.holds.names_below (plain_shelfName key) (plain_draftName key) directory
    (fits_below tended.short key (utf8ByteSize_draftName key))

theorem Tended.names_target (tended : Tended settings home world)
    (directory : world.files.isDirectory (shelfPath home key) = true) :
    Names world.files (nameFor settings key) (home ++ [shelfName key]) (payloadName key) := by
  rw [nameFor_eq]
  exact tended.holds.names_below (plain_shelfName key) (plain_payloadName key) directory
    (fits_below tended.short key (utf8ByteSize_payloadName key))

/-! ## The index file -/

/-- The index is written, or it is still marked to be written. -/
theorem leads_persist (tended : Tended settings home world) :
    Leads faults (persist settings).run world fun answer after =>
      Alters (IndexPlace home) world.files after.files ∧
        (answer = .ok () ∧ after.book = { world.book with dirty := false } ∨
          ∃ error, answer = .error error ∧ after.book = world.book) := by
  have short := tended.short
  have limit : nameLimit = 4096 := rfl
  have draftSize : "metadata.json.tmp".utf8ByteSize = 17 := by decide
  have size : "metadata.json".utf8ByteSize = 13 := by decide
  unfold persist
  refine leads_run_bind ((leads_of_eq (show (getThe DiskWorld : DiskAction DiskWorld).run world =
    .ok (.ok world) world from rfl)).mpr ?_)
  dsimp only
  cases dirty : world.book.dirty with
  | false =>
      refine ⟨.refl _ _, .inl ⟨rfl, ?_⟩⟩
      rw [← dirty]
  | true =>
      have draft : Names world.files settings.indexDraft home "metadata.json.tmp" :=
        tended.holds.names plain_indexDraftName (by omega)
      rcases draft.writeNode_leaves (.file world.book.index.text) with
        ⟨error, middle, refused, recounts⟩ | ⟨middle, wrote, alters, stands⟩
      · refine leads_run_bind ((leads_of_eq (run_onFiles_of_error refused)).mpr ?_)
        exact ⟨recounts.alters _, .inr ⟨_, rfl, rfl⟩⟩
      have before : Alters (IndexPlace home) world.files middle := alters.mono fun path => .inl
      have plain : middle.isDirectory (home ++ ["metadata.json.tmp"]) = false := by
        rw [isDirectory, stands]
        rfl
      have target : Names middle settings.indexFile home "metadata.json" :=
        (tended.holds.keeps alters.keeps).names plain_indexName (by omega)
      refine leads_run_bind ((leads_of_eq (run_onFiles wrote)).mpr ?_)
      rcases (draft.keeps alters.keeps).rename_leaves target plain with
        ⟨error, final, refused, recounts⟩ | ⟨final, moved, further, -⟩
      · refine leads_run_bind ((leads_of_eq (run_onFiles_of_error refused)).mpr ?_)
        exact ⟨before.trans (recounts.alters _), .inr ⟨_, rfl, rfl⟩⟩
      · refine leads_run_bind ((leads_of_eq (run_onFiles moved)).mpr ?_)
        exact ⟨before.trans further, .inl ⟨rfl, rfl⟩⟩

/-- The index could not be written to its file, and the error tells why. Before that and after it, only payloads
have been written or removed. -/
def Unsaved (settings : DiskSettings) (home : Path) (error : StoreError) (world after : DiskWorld) : Prop :=
  ∃ saving final, Alters (fun path => ¬IndexPlace home path) world.files saving.files ∧
    saving.book = after.book ∧ (persist settings).run saving = .ok (.error error) final ∧
      Alters (fun path => ¬IndexPlace home path) final.files after.files

theorem Unsaved.after_alters {error : StoreError} {middle : DiskWorld}
    (alters : Alters (fun path => ¬IndexPlace home path) world.files middle.files)
    (unsaved : Unsaved settings home error middle after) : Unsaved settings home error world after := by
  obtain ⟨saving, final, further, told⟩ := unsaved
  exact ⟨saving, final, alters.trans further, told⟩

/-! ## Payload files -/

theorem leads_ofExcept_run {Error : Type} {wrap : Error → StoreError} {computation : Except Error Result}
    {goal : Except StoreError Result → DiskWorld → Prop}
    (holds : goal (computation.mapError wrap) world) :
    Leads faults (StoreAction.ofExcept wrap computation : DiskAction Result).run world goal := by
  cases computation <;> exact holds

/-- What the temporary file holds, once it has been written, is what the value is stored as. -/
theorem leads_writeDraft (tended : Tended settings home world)
    (directory : world.files.isDirectory (shelfPath home key) = true) (value : Value) :
    Leads faults (writeDraft settings (draftFor settings key) value).run world fun answer after =>
      after.book = world.book ∧ Alters (· = draftPath home key) world.files after.files ∧
        ∀ written, answer = .ok written → ∃ node,
          after.files.node? (draftPath home key) = some node ∧ node.isDirectory = false ∧
            ∀ encoded, Storable value encoded → Stored settings written.format node value := by
  have names := tended.names_draft directory
  have lies : home ++ [shelfName key] ++ [draftName key] = draftPath home key := append_draftName home key
  unfold writeDraft
  cases chosen : value.table?.filter fun table => settings.columnar && Columnar.supports table with
  | none =>
      dsimp only
      refine leads_run_bind (leads_ofExcept_run ?_)
      cases computed : binaryContent settings value with
      | error error => exact ⟨rfl, .refl _ _, fun written ended => by cases ended⟩
      | ok content =>
          rcases names.writeNode_leaves (.file content.1) with
            ⟨error, after, refused, recounts⟩ | ⟨after, wrote, alters, stands⟩
          · refine leads_run_bind ((leads_of_eq (run_onFiles_of_error refused)).mpr ?_)
            exact ⟨rfl, recounts.alters _, fun written ended => by cases ended⟩
          · rw [lies] at alters stands
            refine leads_run_bind ((leads_of_eq (run_onFiles wrote)).mpr ?_)
            refine ⟨rfl, alters, fun written ended => ?_⟩
            cases ended
            refine ⟨_, stands, rfl, fun encoded storable => ?_⟩
            obtain ⟨kept, same, unpacked, -⟩ := binaryContent_eq settings storable.encodes
            cases same.symm.trans computed
            have decodes := Value.decode_encode storable.encodes storable.wellFormed []
            rw [List.append_nil] at decodes
            exact ⟨_, encoded, rfl, unpacked, decodes⟩
  | some table =>
      dsimp only
      rcases names.writeNode_leaves (.file []) with
        ⟨error, middle, refused, recounts⟩ | ⟨middle, began, first, -⟩
      · refine leads_run_bind ((leads_of_eq (run_onFiles_of_error refused)).mpr ?_)
        exact ⟨rfl, recounts.alters _, fun written ended => by cases ended⟩
      refine leads_run_bind ((leads_of_eq (run_onFiles began)).mpr ?_)
      rw [lies] at first
      refine leads_run_bind (leads_ofExcept_run ?_)
      cases computed : Columnar.write table
          (if settings.compress then some settings.compressor.level else none) with
      | error error => exact ⟨rfl, first, fun written ended => by cases ended⟩
      | ok file =>
          rcases (names.keeps first.keeps).writeNode_leaves (.columnar file) with
            ⟨error, after, refused, recounts⟩ | ⟨after, wrote, second, stands⟩
          · refine leads_run_bind ((leads_of_eq (run_onFiles_of_error refused)).mpr ?_)
            exact ⟨rfl, first.trans (recounts.alters _), fun written ended => by cases ended⟩
          · rw [lies] at second stands
            refine leads_run_bind ((leads_of_eq (run_onFiles wrote)).mpr ?_)
            refine ⟨rfl, first.trans second, fun written ended => ?_⟩
            cases ended
            refine ⟨_, stands, rfl, fun encoded storable => ?_⟩
            obtain ⟨content, -⟩ := Option.filter_eq_some_iff.mp chosen
            obtain rfl : value = .table table := by
              cases value <;> cases content
              rfl
            refine ⟨file, table, rfl, ?_, rfl⟩
            rw [Columnar.eq_of_write computed]
            exact Columnar.read_eq storable.regular

/-- The file of a name in the directory of payloads is removed, or nothing is. -/
theorem leads_removeFile (holds : Home world.files settings.root home) {name last : String}
    (plain : Plain last) (lies : name = FileName.join settings.root (shelfName key ++ "/" ++ last)) :
    Leads faults (onFiles (removeFile name)).run world fun _ after =>
      after.book = world.book ∧ Alters (· = home ++ [shelfName key, last]) world.files after.files := by
  rcases removeFile_leaves name world.files with
    ⟨error, after, refused, recounts⟩ | ⟨path, after, ended, found, alters⟩
  · exact (leads_of_eq (run_onFiles_of_error refused)).mpr ⟨rfl, recounts.alters _⟩
  · rw [lies] at found
    obtain ⟨rfl, -⟩ := holds.find_below (plain_shelfName key) plain found
    exact (leads_of_eq (run_onFiles ended)).mpr ⟨rfl, alters⟩

/-- A write that fails has its temporary file removed, if that can be done. -/
theorem leads_giveUp (holds : Home world.files settings.root home) (key : String) (error : StoreError) :
    Leads faults (do
      .attempt (onFiles (removeFile (draftFor settings key)))
      throw error : DiskAction Result).run world fun answer after =>
        answer = .error error ∧ after.book = world.book ∧
          Alters (· = draftPath home key) world.files after.files := by
  have lies := draftFor_eq settings key
  refine Succeeds.leads_bind (succeeds_attempt ((leads_removeFile holds (plain_draftName key) lies).imp ?_))
  rintro _ after - ⟨same, alters⟩
  exact ⟨rfl, same, alters⟩

/-- The payload of a key has been put in its place. -/
structure Placed (settings : DiskSettings) (home : Path) (key : String) (value : Value)
    (format : PayloadFormat) (before files : FileSystem) : Prop where
  alters : Alters (fun path => BesidePayload home key path ∨ path = payloadPath home key) before files
  stored : ∃ node, files.node? (payloadPath home key) = some node ∧
    ∀ encoded, Storable value encoded → Stored settings format node value

/-- A payload is put in its place, or all payloads are left as they were. -/
inductive PayloadEnds (settings : DiskSettings) (home : Path) (key : String) (value : Value)
    (world : DiskWorld) : Except StoreError WrittenPayload → DiskWorld → Prop
  | failed {files : FileSystem} (error : StoreError)
      (alters : Alters (BesidePayload home key) world.files files) :
      PayloadEnds settings home key value world (.error error) ⟨world.book, files⟩
  | written {files : FileSystem} (written : WrittenPayload)
      (placed : Placed settings home key value written.format world.files files) :
      PayloadEnds settings home key value world (.ok written) ⟨world.book, files⟩

theorem ends_of_writePayload (tended : Tended settings home world) {answer : Except StoreError WrittenPayload}
    (ended : (writePayload settings key value).run world = .ok answer after) :
    PayloadEnds settings home key value world answer after := by
  refine leads_any.mp ?_ answer after ended
  have two : (shelfName key).utf8ByteSize = 2 := utf8Length_shelfName key
  have short := tended.short
  have fits : settings.root.utf8ByteSize + 1 + (shelfName key).utf8ByteSize < nameLimit := by omega
  have made := tended.holds.alters_makeDirectories (plain_shelfName key) fits
  unfold writePayload
  rw [directoryFor_eq]
  cases ended : makeDirectories (FileName.join settings.root (shelfName key)) world.files with
  | error error middle =>
      rw [ended] at made
      refine leads_run_bind ((leads_of_eq (run_onFiles_of_error ended)).mpr ?_)
      exact .failed _ (made.mono fun path => .inl)
  | ok told middle =>
      rw [ended] at made
      have directory := tended.holds.isDirectory_of_makeDirectories (plain_shelfName key) fits ended
      have first : Alters (BesidePayload home key) world.files middle := made.mono fun path => .inl
      have begun : Tended settings home ⟨world.book, middle⟩ :=
        tended.alter first tended.filed
      refine leads_run_bind ((leads_of_eq (run_onFiles ended)).mpr (leads_tryCatch (leads_run_bind ?_)))
      refine (leads_writeDraft begun directory value).imp ?_
      rintro answer ⟨book, drawn⟩ - ⟨same, drafted, written⟩
      cases same
      have second : Alters (BesidePayload home key) world.files drawn :=
        first.trans (drafted.mono fun path => .inr)
      -- Whatever goes wrong from here on, the temporary file goes, and nothing else has changed.
      have givesUp (error : StoreError) {failed : FileSystem} (recounts : Recounts drawn failed) :
          Leads AnyFault (do
            .attempt (onFiles (removeFile (draftFor settings key)))
            throw error : DiskAction WrittenPayload).run ⟨world.book, failed⟩
            (PayloadEnds settings home key value world) := by
        have altered := second.trans (recounts.alters _)
        refine (leads_giveUp (tended.holds.keeps altered.keeps) key error).imp ?_
        rintro _ ⟨book, after⟩ - ⟨rfl, same, removed⟩
        cases same
        exact .failed error (altered.trans (removed.mono fun path => .inr))
      cases answer with
      | error error => exact givesUp error (.refl drawn)
      | ok payload =>
          obtain ⟨node, stands, plain, stored⟩ := written payload rfl
          have draft := (begun.names_draft directory).keeps drafted.keeps
          have target := (begun.names_target directory).keeps drafted.keeps
          have lies := append_draftName home key
          have plain_draft : drawn.isDirectory (home ++ [shelfName key] ++ [draftName key]) = false := by
            rw [lies, isDirectory, stands]
            exact plain
          rcases draft.rename_leaves target plain_draft with
            ⟨error, failed, refused, recounts⟩ | ⟨after, moved, third, there⟩
          · refine leads_run_bind ((leads_of_eq (run_onFiles_of_error refused)).mpr ?_)
            exact givesUp (.io error) recounts
          · rw [lies, append_payloadName] at third there
            refine leads_run_bind ((leads_of_eq (run_onFiles moved)).mpr ?_)
            refine .written payload ⟨?_, node, there.trans stands, stored⟩
            refine (second.mono fun path => .inl).trans (third.mono ?_)
            exact fun path either => either.imp_left .inr

/-! ## Writes -/

/-- Where any fault is expected, every count is bounded. -/
theorem boundedBook_any (book : DiskBook) (rest bytes : Nat) :
    ∃ step, 1 ≤ step ∧ bytes ≤ step ∧ BoundedBook AnyFault step rest book := by
  have any (step count : Nat) : Bounded AnyFault step rest count := absurd trivial
  refine ⟨1 + bytes + sumOf (book.index.records.map fun pair => pair.2.storedBytes), by omega, by omega, ?_⟩
  refine ⟨any _ _, any _ _, any _ _, any _ _, any _ _, fun pair member => ⟨any _ _, ?_⟩⟩
  have part := size_le_sumOf_of_mem (fun pair : String × DiskRecord => pair.2.storedBytes) member
  omega

/-- The file of a key is removed, if it can be. -/
theorem succeeds_removeFileOf (holds : Home world.files settings.root home) (key : String) :
    Succeeds faults (removeFileOf settings (fileFor key)) world fun _ after =>
      after.book = world.book ∧ Alters (· = payloadPath home key) world.files after.files := by
  have lies := nameFor_eq settings key
  exact succeeds_attempt (leads_removeFile holds (plain_payloadName key) lies)

theorem succeeds_removeFiles (holds : Home world.files settings.root home) (gone : List String) :
    Succeeds faults ((gone.map fileFor).forM (removeFileOf settings)) world fun _ after =>
      after.book = world.book ∧
        Alters (fun path => ∃ other ∈ gone, path = payloadPath home other) world.files after.files := by
  induction gone generalizing world with
  | nil => exact succeeds_pure ⟨rfl, .refl _ _⟩
  | cons key rest induction =>
      refine Succeeds.bind ((succeeds_removeFileOf holds key).imp ?_)
      rintro _ middle ⟨same, first⟩
      refine (induction (holds.keeps first.keeps)).imp ?_
      rintro _ after ⟨still, second⟩
      refine ⟨still.trans same, ?_⟩
      refine (first.mono fun path lies => ⟨key, List.mem_cons_self, lies⟩).trans (second.mono ?_)
      rintro path ⟨other, member, lies⟩
      exact ⟨other, List.mem_cons_of_mem _ member, lies⟩

/-- The index is written, and whether or not it could be, the files of the keys that left are removed. -/
theorem leads_saveRemoving (tended : Tended settings home world) (left : List String) :
    Leads faults (do
      let persisted ← ExceptT.lift (persist settings).run
      (left.map fileFor).forM (removeFileOf settings)
      .ofExcept id persisted : DiskAction Unit).run world fun answer after =>
        after.book.index = world.book.index ∧
          Alters (fun path => IndexPlace home path ∨ ∃ other ∈ left, path = payloadPath home other)
            world.files after.files ∧
          (answer = .ok () ∨ ∃ error, answer = .error error ∧ Unsaved settings home error world after) := by
  refine Succeeds.leads_bind (succeeds_lift ((leads_persist tended).imp ?_))
  rintro answer ⟨book, indexed⟩ saving ⟨persisted, how⟩
  have still : Home indexed settings.root home := tended.holds.keeps persisted.keeps
  refine Succeeds.leads_bind ((succeeds_removeFiles still left).imp ?_)
  rintro _ ⟨_, after⟩ ⟨rfl, removed⟩
  refine leads_ofExcept_run ?_
  have same : answer.mapError id = answer := by cases answer <;> rfl
  rw [same]
  have altered : Alters (fun path => IndexPlace home path ∨ ∃ other ∈ left, path = payloadPath home other)
      world.files after := (persisted.mono fun path => .inl).trans (removed.mono fun path => .inr)
  rcases how with ⟨rfl, rfl⟩ | ⟨error, rfl, rfl⟩
  · exact ⟨rfl, altered, .inl rfl⟩
  · refine ⟨rfl, altered, .inr ⟨error, rfl, _, _, .refl _ _, rfl, saving, removed.mono ?_⟩⟩
    rintro path ⟨other, -, rfl⟩
    exact not_indexPlace_payloadPath home other

/-- How a put ends: before it has changed the index, or when it has done all it was to do. Then it reports an
error if the index could not be written to its file. -/
inductive PutEnds (settings : DiskSettings) (home : Path) (key : String) (value : Value) (world : DiskWorld) :
    Except StoreError Unit → DiskWorld → Prop
  | failed {after : DiskWorld} (error : StoreError) (book : after.book = world.book)
      (alters : Alters (BesidePayload home key) world.files after.files) :
      PutEnds settings home key value world (.error error) after
  | done {answer : Except StoreError Unit} {after : DiskWorld} (record : DiskRecord) (gone : List String)
      (size : value.encodedSize = .ok record.size) (file : record.file = fileFor key)
      (chosen : victims settings.budget world.book.index.records key record.size = .ok gone)
      (records : after.book.index.records =
        Keyed.put key record (world.book.index.records.filter fun pair => !gone.contains pair.1))
      (alters : Alters (fun path => BesidePayload home key path ∨ IndexPlace home path ∨
        ∃ other ∈ key :: gone, path = payloadPath home other) world.files after.files)
      (stored : (∀ other ∈ gone, payloadPath home other ≠ payloadPath home key) →
        ∃ node, after.files.node? (payloadPath home key) = some node ∧
          ∀ encoded, Storable value encoded → Stored settings record.format node value)
      (saved : answer = .ok () ∨ ∃ error, answer = .error error ∧ Unsaved settings home error world after) :
      PutEnds settings home key value world answer after

theorem leads_put (tended : Tended settings home world) (key : String) (value : Value) :
    Leads AnyFault (put settings key value).run world (PutEnds settings home key value world) := by
  unfold put
  refine leads_run_bind (leads_ofExcept_run ?_)
  cases measured : value.encodedSize with
  | error error =>
      change PutEnds settings home key value world (.error (.codec error)) world
      exact .failed _ rfl (.refl _ _)
  | ok size =>
  dsimp only [Except.mapError]
  by_cases large : settings.budget < size
  · rw [if_pos large]
    exact (leads_of_eq (run_bind_of_failed (run_throw _ world))).mpr (.failed _ rfl (.refl _ _))
  rw [if_neg large]
  refine Succeeds.leads_bind (succeeds_records (Succeeds.leads_bind (succeeds_checked (fun _ _ => trivial) ?_)))
  intro gone chosen
  rw [ExceptT.run_bind, leads_bind, leads_any]
  intro answer placed ended
  cases ends_of_writePayload tended ended with
  | failed error alters => exact .failed error rfl alters
  | @written files written placed =>
  obtain ⟨step, some, light, bounded⟩ := boundedBook_any world.book 1 written.storedBytes
  refine Succeeds.leads_bind ((commit_succeeds bounded some light files).imp ?_)
  rintro _ ⟨book, drawn⟩ ⟨rfl, rfl, -, record, ⟨file, rfl, format, -⟩, index, -, -⟩
  have records : book.index.records = Keyed.put key record
      (world.book.index.records.filter fun pair => !gone.contains pair.1) := congrArg DiskIndex.records index
  have committed : Tended settings home ⟨book, drawn⟩ :=
    tended.alter placed.alters (records ▸ (tended.filed.filter _).put file)
  let left := Keyed.keys (world.book.index.records.filter fun pair => gone.contains pair.1)
  have among : ∀ other ∈ left, other ∈ gone := fun other member =>
    List.contains_iff_mem.mp (Keyed.mem_keys_filter_fst.mp member).2
  rw [(tended.filed.filter _).map_file]
  refine (leads_saveRemoving committed left).imp ?_
  rintro answer after - ⟨index_same, further, saved⟩
  refine .done record gone measured file chosen ?records ?alters ?stored ?saved
  case records => exact (congrArg DiskIndex.records index_same).trans records
  case alters =>
    refine (placed.alters.mono ?_).trans (further.mono ?_)
    · exact fun path either => either.imp_right fun own => .inr ⟨key, List.mem_cons_self, own⟩
    · rintro path (index | ⟨other, member, lies⟩)
      · exact .inr (.inl index)
      · exact .inr (.inr ⟨other, List.mem_cons_of_mem _ (among other member), lies⟩)
  case stored =>
    intro apart
    obtain ⟨node, stands, stored⟩ := placed.stored
    refine ⟨node, (further.others _ ?_).trans stands, fun encoded storable => format ▸ stored encoded storable⟩
    rintro (index | ⟨other, member, own⟩)
    · exact not_indexPlace_payloadPath home key index
    · exact apart other (among other member) own.symm
  case saved =>
    refine saved.imp_right ?_
    rintro ⟨error, same, unsaved⟩
    refine ⟨error, same, .after_alters (placed.alters.mono ?_) unsaved⟩
    rintro path (beside | rfl)
    · exact not_indexPlace_of_besidePayload beside
    · exact not_indexPlace_payloadPath home key

theorem PutEnds.tended {answer : Except StoreError Unit} (tended : Tended settings home world)
    (ends : PutEnds settings home key value world answer after) : Tended settings home after := by
  cases ends with
  | failed error book alters =>
      obtain ⟨_, files⟩ := after
      cases book
      exact tended.alter alters tended.filed
  | done record gone size file chosen records alters =>
      exact tended.alter alters (records ▸ (tended.filed.filter _).put file)

/-! ## Removals -/

/-- How a delete ends. An error is one of the index file, and then the record is gone, but not its file. -/
inductive DeleteEnds (settings : DiskSettings) (home : Path) (key : String) (world : DiskWorld) :
    Except StoreError Bool → DiskWorld → Prop
  | unknown (missing : Keyed.find? key world.book.index.records = none) :
      DeleteEnds settings home key world (.ok false) world
  | failed {after : DiskWorld} (error : StoreError)
      (index : after.book.index =
        { world.book.index with records := Keyed.remove key world.book.index.records })
      (transfers : after.book.transfers = world.book.transfers)
      (alters : Alters (IndexPlace home) world.files after.files)
      (unsaved : Unsaved settings home error world after) :
      DeleteEnds settings home key world (.error error) after
  | removed {after : DiskWorld}
      (records : after.book.index.records = Keyed.remove key world.book.index.records)
      (alters : Alters (fun path => IndexPlace home path ∨ path = payloadPath home key)
        world.files after.files) :
      DeleteEnds settings home key world (.ok true) after

theorem leads_delete (tended : Tended settings home world) (key : String) :
    Leads faults (delete settings key).run world (DeleteEnds settings home key world) := by
  unfold delete
  refine Succeeds.leads_bind (succeeds_records ?_)
  cases found : Keyed.find? key world.book.index.records with
  | none => exact .unknown found
  | some record =>
      dsimp only
      refine Succeeds.leads_bind (succeeds_changeBook (Succeeds.leads_bind (succeeds_changeBook ?_)))
      have changed : Tended settings home { world with book := { world.book with
          index := { world.book.index with records := Keyed.remove key world.book.index.records }
          dirty := true } } := ⟨tended.holds, tended.short, tended.orderly, tended.filed.filter _⟩
      refine leads_run_bind ((leads_persist changed).imp ?_)
      rintro answer ⟨saved, indexed⟩ ended ⟨persisted, ⟨rfl, rfl⟩ | ⟨error, rfl, rfl⟩⟩
      · rw [tended.filed _ (Keyed.mem_of_find? found)]
        have still : Home indexed settings.root home := tended.holds.keeps persisted.keeps
        refine Succeeds.leads_bind ((succeeds_removeFileOf still key).imp ?_)
        rintro _ ⟨book, after⟩ ⟨rfl, gone⟩
        exact .removed rfl ((persisted.mono fun path => .inl).trans (gone.mono fun path => .inr))
      · refine .failed error rfl rfl persisted ⟨_, _, ?_, ?_, ended, .refl _ _⟩
        · exact .refl _ _
        · rfl

theorem DeleteEnds.tended {answer : Except StoreError Bool} (tended : Tended settings home world)
    (ends : DeleteEnds settings home key world answer after) : Tended settings home after := by
  cases ends with
  | unknown missing => exact tended
  | failed error index transfers alters =>
      have records : after.book.index.records = Keyed.remove key world.book.index.records := by rw [index]
      exact tended.alter alters (records ▸ tended.filed.filter _)
  | removed records alters => exact tended.alter alters (records ▸ tended.filed.filter _)

/-! ## Reads -/

theorem leads_onFiles {proper : FileSystem → Prop} {action : FileAction Result}
    (maintains : Maintains proper action) (isProper : proper world.files) :
    Leads faults (onFiles action).run world fun _ after => after.book = world.book ∧ proper after.files := by
  have left := maintains world.files isProper
  cases ended : action world.files with
  | ok result final =>
      rw [ended] at left
      exact (leads_of_eq (run_onFiles ended)).mpr ⟨rfl, left⟩
  | error error final =>
      rw [ended] at left
      exact (leads_of_eq (run_onFiles_of_error ended)).mpr ⟨rfl, left⟩

/-- What is computed leaves the world. -/
theorem leads_ofExcept_bind {Error Next : Type} {wrap : Error → StoreError} {computation : Except Error Result}
    {next : Result → DiskAction Next} {sound : DiskWorld → Prop} (isSound : sound world)
    (further : ∀ result, Leads faults (next result).run world fun _ after => sound after) :
    Leads faults (StoreAction.ofExcept wrap computation >>= next).run world fun _ after => sound after := by
  refine leads_run_bind (leads_ofExcept_run ?_)
  cases computation with
  | error error => exact isSound
  | ok result => exact further result

/-- To read a payload is to look. -/
theorem leads_readPayload (settings : DiskSettings) (name : String) (format : PayloadFormat) :
    Leads faults (readPayload settings name format).run world fun _ after =>
      after.book = world.book ∧ Recounts world.files after.files := by
  have counted : ∀ files, Recounts world.files files → Recounts world.files files.counted :=
    fun files recounts => recounts.trans (recounts_counted files)
  cases format with
  | columnar =>
      refine leads_run_bind ((leads_onFiles (maintains_openNode counted name) (.refl _)).imp ?_)
      rintro (error | node) middle - looked
      · exact looked
      · refine leads_ofExcept_bind looked fun file => leads_ofExcept_bind looked fun table => ?_
        exact looked
  | binary =>
      refine leads_run_bind ((leads_onFiles (maintains_readFile counted name) (.refl _)).imp ?_)
      rintro (error | stored) middle - looked
      · exact looked
      · exact leads_ofExcept_bind looked fun content => leads_ofExcept_run looked

theorem leads_get_tended (tended : Tended settings home world) (key : String) :
    Leads AnyFault (get settings key).run world fun _ after => Tended settings home after := by
  unfold get
  refine Succeeds.leads_bind (succeeds_records ?_)
  cases found : Keyed.find? key world.book.index.records with
  | none => exact tended
  | some record =>
      dsimp only
      refine Succeeds.leads_bind (succeeds_getThe ?_)
      cases world.files.has (FileName.join settings.root record.file) with
      | false =>
          simp only [Bool.not_false, if_true]
          refine Succeeds.leads_bind (succeeds_changeBook (Succeeds.leads_bind (succeeds_changeBook ?_)))
          exact ⟨tended.holds, tended.short, tended.orderly, tended.filed.filter _⟩
      | true =>
          simp only [Bool.not_true, Bool.false_eq_true, if_false]
          refine leads_run_bind ((leads_readPayload settings _ record.format).imp ?_)
          rintro answer ⟨_, looked⟩ - ⟨rfl, recounts⟩
          have still : Tended settings home ⟨world.book, looked⟩ := tended.recounts recounts
          cases answer with
          | error error => exact still
          | ok value =>
              obtain ⟨step, some, -, bounded⟩ := boundedBook_any world.book 1 0
              refine Succeeds.leads_bind ((noteRead_succeeds bounded some found looked).imp ?_)
              rintro _ ⟨book, _⟩ ⟨rfl, -, used, ⟨file, -⟩, index, -⟩
              have own := file.trans (tended.filed _ (Keyed.mem_of_find? found))
              have records : book.index.records = _ := congrArg DiskIndex.records index
              exact ⟨still.holds, still.short, still.orderly, records ▸ tended.filed.put own⟩

/-! ## Clears -/

theorem leads_removeShelves (tended : Tended settings home world) (level : ".." ∉ FileName.pieces settings.root)
    {names : List String} (each : ∀ name ∈ names, Plain name ∧ utf8Length name = 2) :
    Leads faults ((names.map (FileName.join settings.root)).forM fun shelf =>
      onFiles (removeTree shelf)).run world fun _ after => Tended settings home after := by
  induction names generalizing world with
  | nil => exact tended
  | cons name rest induction =>
      obtain ⟨plain, two⟩ := each name List.mem_cons_self
      have short := tended.short
      have bytes : name.utf8ByteSize = 2 := two
      rcases (tended.holds.names plain (by omega)).removeTree_leaves with
        ⟨error, after, refused, recounts⟩ | ended
      · refine leads_run_bind ((leads_of_eq (run_onFiles_of_error refused)).mpr ?_)
        exact tended.recounts recounts
      · refine leads_run_bind ((leads_of_eq (run_onFiles ended)).mpr ?_)
        have counted := tended.recounts (recounts_counted world.files)
        exact induction (counted.cleared level name) fun other member => each other (List.mem_cons_of_mem _ member)

theorem leads_clear_tended (tended : Tended settings home world)
    (level : ".." ∉ FileName.pieces settings.root) :
    Leads faults (clear settings).run world fun _ after => Tended settings home after := by
  unfold clear
  refine Succeeds.leads_bind (succeeds_changeBook (Succeeds.leads_bind (succeeds_changeBook ?_)))
  have changed : Tended settings home { world with book := { world.book with
      index := { world.book.index with records := [] }, dirty := true } } :=
    ⟨tended.holds, tended.short, tended.orderly, fun pair member => by cases member⟩
  refine leads_run_bind ((leads_persist changed).imp ?_)
  rintro answer ⟨saved, indexed⟩ - ⟨persisted, how⟩
  have nothing : saved.index.records = [] := by rcases how with ⟨-, rfl⟩ | ⟨_, -, rfl⟩ <;> rfl
  have still : Tended settings home ⟨saved, indexed⟩ := by
    refine changed.alter persisted fun pair member => ?_
    rw [nothing] at member
    cases member
  cases answer with
  | error error => exact still
  | ok told =>
      rcases still.holds.list_leaves with ⟨error, after, refused, recounts⟩ | listed
      · refine leads_run_bind ((leads_of_eq (run_onFiles_of_error refused)).mpr ?_)
        exact still.recounts recounts
      · refine leads_run_bind ((leads_of_eq (run_onFiles listed)).mpr ?_)
        refine Succeeds.leads_bind (succeeds_getThe ?_)
        dsimp only
        rw [List.filter_map]
        refine leads_removeShelves (still.recounts (recounts_counted indexed)) level fun name member => ?_
        obtain ⟨among, two⟩ := List.mem_filter.mp (List.mem_of_mem_filter member)
        have there := isThere_of_mem_children (still.orderly.separate home) among
        exact ⟨still.orderly.plain home name there, eq_of_beq two⟩

/-! ## Runs -/

/-- A store that has been opened in an orderly tree is in its place, if its index tells its own files. -/
theorem tended_of_openIn {opened : FileSystem} {book : DiskBook} (named : settings.root ≠ "")
    (short : settings.root.utf8ByteSize + 74 < nameLimit) (orderly : files.Orderly)
    (ends : (openIn settings).run files = .ok (.ok book) opened)
    (filed : OwnFiles book.index.records) : ∃ home, Tended settings home ⟨book, opened⟩ := by
  obtain ⟨⟨⟩, made, ensured, ends⟩ := ended_of_bind ends
  obtain ⟨before, _, seen, ends⟩ := ended_of_bind ends
  cases seen
  have begun : made.Orderly := by
    have left := maintains_orderly_makeDirectories settings.root files orderly
    rwa [ended_of_onFiles ensured] at left
  have stays : Extends made opened ∧ opened.Orderly := by
    cases has : made.has settings.indexFile with
    | false =>
        simp only [has, Bool.false_eq_true, if_false] at ends
        cases ends
        exact ⟨.refl _ _, begun⟩
    | true =>
        simp only [has, if_true] at ends
        obtain ⟨read, left, called, ends⟩ := ended_of_bind ends
        obtain rfl : left = opened := by
          cases read <;> cases ends <;> rfl
        rw [left_of_attempted called]
        refine ⟨adds_readFile settings.indexFile made, ?_⟩
        exact maintains_readFile (fun files before => before.recounts (recounts_counted files)) _ made begun
  rcases home_of_makeDirectories (ended_of_onFiles ensured) with nameless | ⟨home, holds⟩
  · exact absurd nameless named
  · exact ⟨home, holds.keeps stays.1, short, stays.2, filed⟩

/-- Whatever the medium refuses, a call leaves the store in its place. -/
theorem leads_call_tended (tended : Tended settings home world) {call : StoreCall}
    (level : call = .clear → ".." ∉ FileName.pieces settings.root) :
    Leads AnyFault (call.run (store settings)).run world fun _ after => Tended settings home after := by
  cases call with
  | get key => exact leads_get_tended tended key
  | put key value => exact (leads_put tended key value).imp fun _ _ _ ends => ends.tended tended
  | delete key => exact (leads_delete tended key).imp fun _ _ _ ends => ends.tended tended
  | clear => exact (leads_clear_tended tended (level rfl)).imp fun _ _ _ still => still
  | has key => exact tended
  | entries => exact tended
  | size =>
      have summed : Succeeds AnyFault DiskStore.size world fun _ after => Tended settings home after :=
        Succeeds.bind (succeeds_records (succeeds_checked (fun _ _ => trivial) fun _ _ => tended))
      refine summed.leads.imp ?_
      rintro _ after - ⟨_, -, still⟩
      exact still

theorem leads_runAll_tended (tended : Tended settings home world) {calls : List StoreCall}
    (level : .clear ∈ calls → ".." ∉ FileName.pieces settings.root) :
    Leads AnyFault ((store settings).runAll calls) world fun _ after => Tended settings home after := by
  induction calls generalizing world with
  | nil => exact tended
  | cons call later induction =>
      unfold Store.runAll
      rw [leads_bind]
      have first := leads_call_tended tended fun same => level (List.mem_cons.mpr (.inl same.symm))
      refine first.imp fun answer middle _ still => ?_
      rw [leads_bind]
      exact (induction still fun among => level (List.mem_cons_of_mem _ among)).imp fun _ _ _ final => final

end TierVault.DiskStore
