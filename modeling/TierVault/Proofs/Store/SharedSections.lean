import TierVault.Proofs.Store.Disk
import TierVault.Proofs.Store.DiskSections
import TierVault.Store.Disk.Sharing

/-!
What each section of a call on a shared disk store does.

A section changes the index, or the files at a path or two, and where it leads depends on what other calls
left. What it does is told once, for all that is shown of runs.
-/

namespace TierVault

open FileSystem DiskStore StoreAction TierVault.Action

variable {settings : DiskSettings} {opened files after : FileSystem} {home : Path}
  {keys : List String} {faults : Fault → Prop} {step rest : Nat} {world : DiskWorld}
  {key : String} {record : DiskRecord} {write : DiskWrite} {book : DiskBook}

/-! ## What calls know -/

/-- The record is that of a known key, whose directory is there. -/
structure DiskRecord.Lies (keys : List String) (home : Path) (files : FileSystem) (key : String)
    (record : DiskRecord) : Prop where
  known : key ∈ keys
  file : record.file = fileFor key
  directory : files.isDirectory (shelfPath home key) = true

/-- The value can be written under a key that is known. -/
structure DiskWrite.Fits (keys : List String) (step : Nat) (write : DiskWrite) : Prop where
  permits : Permits keys step (.put write.key write.value)
  encodes : ∃ encoded, write.value.encode = .ok encoded

theorem DiskWrite.Fits.storable (fits : write.Fits keys step) :
    ∃ encoded, Storable write.value encoded := by
  obtain ⟨encoded, encodes⟩ := fits.encodes
  obtain ⟨-, -, wellFormed, regular⟩ := fits.permits
  exact ⟨encoded, encodes, wellFormed, regular⟩

/-- The table of a value goes into a columnar file. -/
def DiskWrite.IsColumnar (settings : DiskSettings) (write : DiskWrite) (table : Table) : Prop :=
  (write.value.table?.filter fun table => settings.columnar && Columnar.supports table) = some table

namespace CallPlace

/-- What a call knows is so. -/
def Fits (settings : DiskSettings) (keys : List String) (step : Nat) (home : Path)
    (files : FileSystem) : CallPlace → Prop
  | starting (.put key value) => Permits keys step (.put key value)
  | starting (.get _) | starting (.delete _) | dropping _ | done _ => True
  | looking key record | reading key record =>
    record.Lies keys home files key ∧ record.storedBytes ≤ step
  | counting _ record _ => record.storedBytes ≤ step
  | preparing write => write.Fits keys step
  | drafting write =>
    write.Fits keys step ∧ files.isDirectory (shelfPath home write.key) = true
  | filling write table =>
    write.Fits keys step ∧ files.isDirectory (shelfPath home write.key) = true ∧
      write.IsColumnar settings table
  | measuring write written | placing write written | committing write written =>
    write.Fits keys step ∧ files.isDirectory (shelfPath home write.key) = true ∧
      written.storedBytes ≤ step
  | abandoning .. => False
  | removing file others _ => ∀ name ∈ file :: others, ∃ key ∈ keys, name = fileFor key ∧
    files.isDirectory (shelfPath home key) = true

variable {place : CallPlace}

/-- Knowledge lasts as long as the directories. -/
theorem Fits.keeps (fits : place.Fits settings keys step home files)
    (keeps : ∀ key, files.isDirectory (shelfPath home key) = true →
      after.isDirectory (shelfPath home key) = true) :
    place.Fits settings keys step home after := by
  cases place with
  | starting call => cases call <;> exact fits
  | dropping | done | counting | preparing | abandoning => exact fits
  | looking key record | reading key record =>
      obtain ⟨⟨known, file, directory⟩, light⟩ := fits
      exact ⟨⟨known, file, keeps key directory⟩, light⟩
  | drafting write => exact ⟨fits.1, keeps _ fits.2⟩
  | filling write table | measuring write written | placing write written
  | committing write written => exact ⟨fits.1, keeps _ fits.2.1, fits.2.2⟩
  | removing file others answer =>
      intro name member
      obtain ⟨key, known, same, directory⟩ := fits name member
      exact ⟨key, known, same, keeps key directory⟩

/-- Sections that change nothing. -/
inductive Asks (world : DiskWorld) : CallPlace → Except StoreError CallPlace → Prop
  | missing {key : String} : Keyed.find? key world.book.index.records = none →
    Asks world (starting (.get key)) (.ok (done (.ok (.found none))))
  | found {key : String} {record : DiskRecord} :
    Keyed.find? key world.book.index.records = some record →
    Asks world (starting (.get key)) (.ok (looking key record))
  | seen {key : String} {record : DiskRecord} :
    Asks world (looking key record) (.ok (reading key record))
  | unseen {key : String} {record : DiskRecord} :
    Asks world (looking key record) (.ok (dropping key))
  | read {key : String} {record : DiskRecord} {value : Value} :
    Asks world (reading key record) (.ok (counting key record value))
  | unread {key : String} {record : DiskRecord} {error : StoreError} :
    Asks world (reading key record) (.error error)
  | chosen {key : String} {value : Value} {encoded : Bytes} {victims : List String} :
    value.encode = .ok encoded →
    Asks world (starting (.put key value)) (.ok (preparing ⟨key, value, encoded.length, victims⟩))
  | refused {key : String} {value : Value} {error : StoreError} :
    Asks world (starting (.put key value)) (.error error)
  | measured {write : DiskWrite} {written : WrittenPayload} :
    Asks world (measuring write written) (.ok (placing write written))
  | unknown {key : String} : Keyed.find? key world.book.index.records = none →
    Asks world (starting (.delete key)) (.ok (done (.ok (.deleted false))))

/-- The records tell the same of the files. -/
structure Renews (before after : Keyed String DiskRecord) : Prop where
  known : ∀ pair ∈ after, ∃ old ∈ before, old.1 = pair.1 ∧ old.2.file = pair.2.file
  formats : ∀ key, (Keyed.find? key after).map (·.format) = (Keyed.find? key before).map (·.format)

/-- What a section does in which no call on files fails. -/
inductive Moved (settings : DiskSettings) (opened : FileSystem) (home : Path) (keys : List String)
    (faults : Fault → Prop) (step rest : Nat) (world : DiskWorld) :
    CallPlace → Except StoreError CallPlace → DiskWorld → Prop
  | asked {place : CallPlace} {next : Except StoreError CallPlace} {after : FileSystem} :
    Asks world place next → Touches opened home (fun _ => False) world.files after →
    Moved settings opened home keys faults step rest world place next ⟨world.book, after⟩
  | dropped {key : String} :
    Moved settings opened home keys faults step rest world (dropping key) (.ok (done (.ok (.found none))))
      ⟨⟨⟨Keyed.remove key world.book.index.records, world.book.index.clock⟩, true,
        world.book.transfers⟩, world.files⟩
  | counted {key : String} {record : DiskRecord} {value : Value} {book : DiskBook} :
    Renews world.book.index.records book.index.records → BoundedBook faults step rest book →
    Moved settings opened home keys faults step rest world (counting key record value)
      (.ok (done (.ok (.found (some value))))) ⟨book, world.files⟩
  | prepared {write : DiskWrite} {after : FileSystem} :
    Touches opened home (· = shelfPath home write.key) world.files after →
    after.isDirectory (shelfPath home write.key) = true →
    Moved settings opened home keys faults step rest world (preparing write) (.ok (drafting write))
      ⟨world.book, after⟩
  | begun {write : DiskWrite} {table : Table} {after : FileSystem} :
    write.IsColumnar settings table →
    Touches opened home (· = draftPath home write.key) world.files after →
    after.isThere (draftPath home write.key) = true →
    Moved settings opened home keys faults step rest world (drafting write) (.ok (filling write table))
      ⟨world.book, after⟩
  | drafted {place : CallPlace} {write : DiskWrite} {written : WrittenPayload} {node : Node}
      {after : FileSystem} :
    place = drafting write ∨ (∃ table, place = filling write table) →
    Touches opened home (· = draftPath home write.key) world.files after →
    after.node? (draftPath home write.key) = some node →
    Stored settings written.format node write.value → written.storedBytes ≤ step →
    Moved settings opened home keys faults step rest world place (.ok (measuring write written))
      ⟨world.book, after⟩
  | placed {write : DiskWrite} {written : WrittenPayload} {node : Node} {after : FileSystem} :
    world.files.node? (draftPath home write.key) = some node →
    Touches opened home (fun path => path = draftPath home write.key ∨
      path = payloadPath home write.key) world.files after →
    after.node? (payloadPath home write.key) = some node →
    after.node? (draftPath home write.key) = none →
    Moved settings opened home keys faults step rest world (placing write written)
      (.ok (committing write written)) ⟨world.book, after⟩
  | committed {write : DiskWrite} {written : WrittenPayload} {record : DiskRecord} {book : DiskBook}
      {after : FileSystem} :
    record.file = fileFor write.key → record.format = written.format →
    book.index.records = Keyed.put write.key record (world.book.index.records.filter fun pair =>
      !write.victims.contains pair.1) →
    BoundedBook faults step rest book →
    Touches opened home (fun path => path = home ++ ["metadata.json.tmp"] ∨
      path = home ++ ["metadata.json"]) world.files after →
    Moved settings opened home keys faults step rest world (committing write written)
      (.ok (leaving (.ok .stored) ((world.book.index.records.filter fun pair =>
        write.victims.contains pair.1).map (·.2.file)))) ⟨book, after⟩
  | deleted {key : String} {record : DiskRecord} {after : FileSystem} :
    Keyed.find? key world.book.index.records = some record →
    Touches opened home (fun path => path = home ++ ["metadata.json.tmp"] ∨
      path = home ++ ["metadata.json"]) world.files after →
    Moved settings opened home keys faults step rest world (starting (.delete key))
      (.ok (removing record.file [] (.ok (.deleted true))))
      ⟨⟨⟨Keyed.remove key world.book.index.records, world.book.index.clock⟩, false,
        world.book.transfers⟩, after⟩
  | removed {key : String} {others : List String} {answer : Except StoreError DiskAnswer}
      {after : FileSystem} :
    key ∈ keys →
    Touches opened home (· = payloadPath home key) world.files after →
    after.node? (payloadPath home key) = none →
    Moved settings opened home keys faults step rest world (removing (fileFor key) others answer)
      (.ok (leaving answer others)) ⟨world.book, after⟩

/-! ## Sections -/

theorem run_records :
    (DiskStore.records : DiskAction _).run world = .ok (.ok world.book.index.records) world := rfl

theorem run_getWorld : (getThe DiskWorld : DiskAction DiskWorld).run world = .ok (.ok world) world := rfl

theorem run_ofExcept {Error Result : Type} (wrap : Error → StoreError) (result : Result) :
    (StoreAction.ofExcept wrap (.ok result) : DiskAction Result).run world = .ok (.ok result) world := rfl

theorem run_changeBook (change : DiskBook → DiskBook) :
    (changeBook change).run world = .ok (.ok ()) { world with book := change world.book } := rfl

theorem run_guarded_of_ok {action : DiskAction CallPlace} {next : CallPlace} {after : DiskWorld}
    (ended : action.run world = .ok (.ok next) after) :
    (guarded write action).run world = .ok (.ok next) after := by
  change EStateM.bind action.run _ world = _
  unfold EStateM.bind
  rw [ended]
  rfl

theorem run_guarded_of_failed {action : DiskAction CallPlace} {error : StoreError} {after : DiskWorld}
    (failed : action.run world = .ok (.error error) after) :
    (guarded write action).run world = .ok (.ok (abandoning write error)) after := by
  change EStateM.bind action.run _ world = _
  unfold EStateM.bind
  rw [failed]
  rfl

/-- Wherever the section ends, it does what is told of sections, unless a call on files fails. -/
structure Advances (settings : DiskSettings) (opened : FileSystem) (home : Path) (keys : List String)
    (faults : Fault → Prop) (step rest : Nat) (world : DiskWorld) (place : CallPlace) : Prop where
  moved : ∀ next after, (place.advance settings).run world = .ok next after →
    (landing next).hasFailed = false →
    Moved settings opened home keys faults step rest world place next after

theorem advances_of_eq {place : CallPlace} {next : Except StoreError CallPlace} {after : DiskWorld}
    (ended : (place.advance settings).run world = .ok next after)
    (moved : Moved settings opened home keys faults step rest world place next after) :
    Advances settings opened home keys faults step rest world place := by
  refine ⟨fun own final reached _ => ?_⟩
  cases ended.symm.trans reached
  exact moved

theorem advances_of_succeeds {place : CallPlace}
    (succeeds : Succeeds faults (place.advance settings) world fun next after =>
      Moved settings opened home keys faults step rest world place (.ok next) after) :
    Advances settings opened home keys faults step rest world place := by
  refine ⟨fun own final reached _ => ?_⟩
  obtain ⟨next, rfl, moved⟩ := succeeds.leads.of_ok reached
  exact moved

/-- A section that asks the index and is done with it. -/
theorem advances_asked {place : CallPlace} {next : Except StoreError CallPlace} (asks : Asks world place next)
    (shelved : Shelved opened home world.files)
    (ended : (place.advance settings).run world = .ok next world) :
    Advances settings opened home keys faults step rest world place :=
  advances_of_eq ended (.asked asks ⟨shelved, fun _ _ => rfl⟩)

theorem advances_get (shelved : Shelved opened home world.files) (key : String) :
    Advances settings opened home keys faults step rest world (starting (.get key)) := by
  cases found : Keyed.find? key world.book.index.records with
  | none =>
      refine advances_asked (.missing found) shelved ?_
      rw [advance, run_bind_of_ok run_records, found]
      rfl
  | some record =>
      refine advances_asked (.found found) shelved ?_
      rw [advance, run_bind_of_ok run_records, found]
      rfl

theorem advances_looking (shelved : Shelved opened home world.files) (key : String) (record : DiskRecord) :
    Advances settings opened home keys faults step rest world (looking key record) := by
  cases there : world.files.has (FileName.join settings.root record.file) with
  | true =>
      refine advances_asked .seen shelved ?_
      rw [advance, run_bind_of_ok run_getWorld, there]
      rfl
  | false =>
      refine advances_asked .unseen shelved ?_
      rw [advance, run_bind_of_ok run_getWorld, there]
      rfl

theorem advances_dropping (key : String) :
    Advances settings opened home keys faults step rest world (dropping key) := by
  have ended : ((dropping key).advance settings).run world = .ok (.ok (done (.ok (.found none))))
      ⟨⟨⟨Keyed.remove key world.book.index.records, world.book.index.clock⟩, true,
        world.book.transfers⟩, world.files⟩ := rfl
  exact advances_of_eq ended .dropped

theorem ends_put {value : Value} {size : Nat} {names : List String} (sized : value.encodedSize = .ok size)
    (fits : size ≤ settings.budget) (told : victims settings.budget world.book.index.records key size = .ok names) :
    ((starting (.put key value)).advance settings).run world =
      .ok (.ok (preparing ⟨key, value, size, names⟩)) world := by
  rw [advance, sized, run_bind_of_ok (run_ofExcept _ _)]
  simp only [Nat.not_lt.mpr fits, if_false]
  rw [run_bind_of_ok run_records, told]
  rfl

theorem advances_put (shelved : Shelved opened home world.files) (key : String) (value : Value) :
    Advances settings opened home keys faults step rest world (starting (.put key value)) := by
  have refused (error : StoreError) : Asks world (starting (.put key value)) (.error error) := .refused
  cases sized : value.encodedSize with
  | error error =>
      refine advances_asked (refused (.codec error)) shelved ?_
      rw [advance, sized]
      rfl
  | ok size =>
      by_cases large : settings.budget < size
      · refine advances_asked (refused (.tooLarge size settings.budget)) shelved ?_
        rw [advance, sized, run_bind_of_ok (run_ofExcept _ _)]
        simp only [large, if_true]
        rfl
      cases told : victims settings.budget world.book.index.records key size with
      | error fault =>
          have stopped : ((starting (.put key value)).advance settings).run world = .error fault world := by
            rw [advance, sized, run_bind_of_ok (run_ofExcept _ _)]
            simp only [large, if_false]
            rw [run_bind_of_ok run_records, told]
            rfl
          refine ⟨fun next after reached _ => ?_⟩
          cases stopped.symm.trans reached
      | ok victims =>
          have ended := ends_put sized (Nat.not_lt.mp large) told
          obtain ⟨encoded, encodes, rfl⟩ := Value.encode_of_encodedSize sized
          exact advances_asked (.chosen encodes) shelved ended

theorem ends_delete (vacant : Vacant opened settings.root home)
    (shelved : Shelved opened home world.files) (found : Keyed.find? key world.book.index.records = some record) :
    ∃ after, ((starting (.delete key)).advance settings).run world =
        .ok (.ok (removing record.file [] (.ok (.deleted true))))
          ⟨⟨⟨Keyed.remove key world.book.index.records, world.book.index.clock⟩, false,
            world.book.transfers⟩, after⟩ ∧
      Touches opened home (fun path => path = home ++ ["metadata.json.tmp"] ∨
        path = home ++ ["metadata.json"]) world.files after := by
  let book : DiskBook := ⟨⟨Keyed.remove key world.book.index.records, world.book.index.clock⟩, true,
    world.book.transfers⟩
  have dirty : book.dirty = true := rfl
  obtain ⟨after, persisted, touches, -⟩ := touches_persist vacant shelved dirty
  refine ⟨after, ?_, touches⟩
  rw [advance, run_bind_of_ok run_records, found]
  dsimp only
  rw [changeRecords, run_bind_of_ok (run_changeBook _), markDirty,
    run_bind_of_ok (run_changeBook _), run_bind_of_ok persisted]
  rfl

theorem advances_delete (vacant : Vacant opened settings.root home)
    (shelved : Shelved opened home world.files) (key : String) :
    Advances settings opened home keys faults step rest world (starting (.delete key)) := by
  cases found : Keyed.find? key world.book.index.records with
  | none =>
      refine advances_asked (.unknown found) shelved ?_
      rw [advance, run_bind_of_ok run_records, found]
      rfl
  | some record =>
      obtain ⟨after, ended, touches⟩ := ends_delete vacant shelved found
      exact advances_of_eq ended (.deleted found touches)

/-- A read changes nothing, whatever it finds. -/
theorem readPayload_leaves (quiet : world.files.Quiet) (settings : DiskSettings) (name : String)
    (format : PayloadFormat) : ∃ answer, (readPayload settings name format).run world =
      .ok answer ⟨world.book, world.files.counted⟩ := by
  cases format with
  | columnar =>
      rw [readPayload]
      rcases openNode_leaves quiet name with ⟨node, opens⟩ | ⟨error, fails⟩
      · rw [run_bind_of_ok (run_onFiles opens)]
        cases node.columnar? with
        | error error => exact ⟨_, rfl⟩
        | ok file =>
            rw [run_bind_of_ok (run_ofExcept _ _)]
            cases Columnar.read file <;> exact ⟨_, rfl⟩
      · exact ⟨_, run_bind_of_failed (run_onFiles_of_error fails)⟩
  | binary =>
      rw [readPayload]
      rcases readFile_leaves quiet name with ⟨stored, reads⟩ | ⟨error, fails⟩
      · rw [run_bind_of_ok (run_onFiles reads)]
        cases settings.compressor.decompressIfFrame stored with
        | error error => exact ⟨_, rfl⟩
        | ok content =>
            rw [run_bind_of_ok (run_ofExcept _ _)]
            cases Value.decode content <;> exact ⟨_, rfl⟩
      · exact ⟨_, run_bind_of_failed (run_onFiles_of_error fails)⟩

theorem advances_reading (vacant : Vacant opened settings.root home)
    (shelved : Shelved opened home world.files) (key : String) (record : DiskRecord) :
    Advances settings opened home keys faults step rest world (reading key record) := by
  obtain ⟨answer, left⟩ := readPayload_leaves (shelved.quiet vacant) settings
    (FileName.join settings.root record.file) record.format
  cases answer with
  | error error =>
      have ended : ((reading key record).advance settings).run world =
          .ok (.error error) ⟨world.book, world.files.counted⟩ := by
        rw [advance]
        exact run_bind_of_failed left
      exact advances_of_eq ended (.asked .unread (touches_counted shelved))
  | ok value =>
      have ended : ((reading key record).advance settings).run world =
          .ok (.ok (counting key record value)) ⟨world.book, world.files.counted⟩ := by
        rw [advance]
        exact run_bind_of_ok left
      exact advances_of_eq ended (.asked .read (touches_counted shelved))

theorem renews_put {records : Keyed String DiskRecord} {held used : DiskRecord}
    (found : Keyed.find? key records = some held) (file : used.file = held.file)
    (format : used.format = held.format) : Renews records (Keyed.put key used records) where
  known pair member := by
    rcases Keyed.mem_of_mem_put member with rfl | before
    · exact ⟨_, Keyed.mem_of_find? found, rfl, file.symm⟩
    · exact ⟨pair, before, rfl, rfl⟩
  formats asked := by
    by_cases same : asked = key
    · subst same
      rw [Keyed.find?_put_same, found, Option.map_some, Option.map_some, format]
    · rw [Keyed.find?_put_other _ _ same]

/-- A read is counted, whether or not the record is still there. -/
theorem noteRead_renews (bounded : BoundedBook faults step (rest + 1) book) (some : 1 ≤ step)
    (light : record.storedBytes ≤ step) (files : FileSystem) :
    Succeeds faults (noteRead key record) ⟨book, files⟩ fun _ after =>
      after.files = files ∧ Renews book.index.records after.book.index.records ∧
        BoundedBook faults step rest after.book := by
  have later := bounded.later
  have reads := bounded.reads.add some
  have bytesRead := bounded.bytesRead.add light
  unfold noteRead
  refine Succeeds.bind (nextTick_succeeds (bounded.clock.add some).fits fun _ => ?_)
  refine Succeeds.bind (succeeds_records ?_)
  cases found : Keyed.find? key book.index.records with
  | none =>
      simp only
      refine Succeeds.bind (succeeds_changeBook (Succeeds.bind (succeeds_getThe ?_)))
      refine Succeeds.bind (succeeds_sum reads.fits fun _ => ?_)
      refine Succeeds.bind (succeeds_sum bytesRead.fits fun _ => ?_)
      have same : Renews book.index.records book.index.records :=
        ⟨fun pair member => ⟨pair, member, rfl, rfl⟩, fun _ => rfl⟩
      refine succeeds_changeBook ⟨rfl, same, ?_⟩
      exact ⟨bounded.clock.add some, later.writes, reads, later.bytesWritten, bytesRead, later.records⟩
  | some held =>
      have own := bounded.records _ (Keyed.mem_of_find? found)
      have accesses := own.1.add some
      simp only
      refine Succeeds.bind (succeeds_changeBook (Succeeds.bind (succeeds_sum accesses.fits fun _ => ?_)))
      refine Succeeds.bind (succeeds_changeBook (Succeeds.bind (succeeds_changeBook ?_)))
      refine Succeeds.bind (succeeds_getThe ?_)
      refine Succeeds.bind (succeeds_sum reads.fits fun _ => ?_)
      refine Succeeds.bind (succeeds_sum bytesRead.fits fun _ => ?_)
      refine succeeds_changeBook ⟨rfl, ?_, ?_⟩
      · dsimp only
        rw [Keyed.put_put]
        exact renews_put found rfl rfl
      · refine ⟨bounded.clock.add some, later.writes, reads, later.bytesWritten, bytesRead, ?_⟩
        intro pair member
        rcases Keyed.mem_of_mem_put member with rfl | kept
        · exact ⟨accesses, own.2⟩
        · rcases Keyed.mem_of_mem_put kept with rfl | before
          · exact ⟨own.1.later, own.2⟩
          · exact later.records pair before

theorem advances_counting (bounded : BoundedBook faults step (rest + 1) world.book) (some : 1 ≤ step)
    (key : String) (light : record.storedBytes ≤ step) (value : Value) :
    Advances settings opened home keys faults step rest world (counting key record value) := by
  refine advances_of_succeeds (Succeeds.bind ((noteRead_renews bounded some light world.files).imp ?_))
  rintro _ ⟨after, files⟩ ⟨rfl, renews, bounded⟩
  exact succeeds_pure (.counted renews bounded)

theorem ends_preparing (vacant : Vacant opened settings.root home)
    (shelved : Shelved opened home world.files) (write : DiskWrite) :
    ∃ after, ((preparing write).advance settings).run world = .ok (.ok (drafting write)) ⟨world.book, after⟩ ∧
      Touches opened home (· = shelfPath home write.key) world.files after ∧
        after.isDirectory (shelfPath home write.key) = true := by
  obtain ⟨after, made, touches, directory⟩ := touches_makeDirectories vacant shelved write.key
  refine ⟨after, ?_, touches, directory⟩
  rw [advance]
  -- The name must not be computed.
  generalize directoryFor settings write.key = name at made ⊢
  rw [run_bind_of_ok (run_onFiles made)]
  rfl

theorem advances_preparing (vacant : Vacant opened settings.root home)
    (shelved : Shelved opened home world.files) (write : DiskWrite) :
    Advances settings opened home keys faults step rest world (preparing write) := by
  obtain ⟨after, ended, touches, directory⟩ := ends_preparing vacant shelved write
  exact advances_of_eq ended (.prepared touches directory)

/-- The temporary file of a value that goes into no columnar file. -/
theorem ends_drafting (vacant : Vacant opened settings.root home)
    (shelved : Shelved opened home files) (fits : write.Fits keys step)
    (directory : files.isDirectory (shelfPath home write.key) = true)
    (plain : ∀ table, ¬write.IsColumnar settings table) (book : DiskBook) :
    ∃ compressed stored node after, ((drafting write).advance settings).run ⟨book, files⟩ =
        .ok (.ok (measuring write ⟨.binary, compressed, stored⟩)) ⟨book, after⟩ ∧
      stored ≤ step ∧ Touches opened home (· = draftPath home write.key) files after ∧
        after.node? (draftPath home write.key) = some node ∧ Stored settings .binary node write.value := by
  obtain ⟨encoded, storable⟩ := fits.storable
  obtain ⟨-, light, -⟩ := fits.permits
  have decodes := Value.decode_encode storable.encodes storable.wellFormed []
  rw [List.append_nil] at decodes
  obtain ⟨kept, computed, unpacked, shorter⟩ := binaryContent_eq settings storable.encodes
  obtain ⟨after, began, touches, stands⟩ :=
    touches_writeDraft vacant shelved directory (.file kept.1) rfl
  have small : kept.1.length ≤ step := by
    refine (shorter.trans ?_).trans light
    rw [load, Value.weight_of_encode storable.encodes]
    exact Nat.le_add_right _ _
  refine ⟨kept.2, kept.1.length, _, after, run_guarded_of_ok ?_, small, touches, stands, kept.1, encoded, rfl,
    unpacked, decodes⟩
  simp only [Option.eq_none_iff_forall_ne_some.mpr plain]
  rw [computed, run_bind_of_ok (run_ofExcept _ _), writeFile, run_bind_of_ok (run_onFiles began)]
  rfl

theorem advances_drafting (vacant : Vacant opened settings.root home)
    (shelved : Shelved opened home world.files) (fits : write.Fits keys step)
    (directory : world.files.isDirectory (shelfPath home write.key) = true) :
    Advances settings opened home keys faults step rest world (drafting write) := by
  cases chosen : write.value.table?.filter fun table => settings.columnar && Columnar.supports table with
  | some table =>
      obtain ⟨after, began, touches, stands⟩ :=
        touches_writeDraft vacant shelved directory (.file []) rfl
      refine advances_of_eq (run_guarded_of_ok ?_) (.begun chosen touches (isThere_of_node? stands))
      simp only [chosen]
      rw [writeFile, run_bind_of_ok (run_onFiles began)]
      rfl
  | none =>
      have plain := Option.eq_none_iff_forall_ne_some.mp chosen
      obtain ⟨compressed, size, node, after, ended, small, touches, stands, stored⟩ :=
        ends_drafting vacant shelved fits directory plain world.book
      exact advances_of_eq ended (.drafted (.inl rfl) touches stands stored small)

theorem advances_filling (vacant : Vacant opened settings.root home)
    (level : Columnar.isLevel settings.compressor.level = true) (shelved : Shelved opened home world.files)
    (fits : write.Fits keys step) (directory : world.files.isDirectory (shelfPath home write.key) = true)
    {table : Table} (chosen : write.IsColumnar settings table) :
    Advances settings opened home keys faults step rest world (filling write table) := by
  obtain ⟨-, light, -, regular⟩ := fits.permits
  obtain ⟨content, supported⟩ := Option.filter_eq_some_iff.mp chosen
  have same : write.value = .table table := by
    cases held : write.value <;> rw [held] at content <;> cases content
    rfl
  rw [same] at light regular
  have known : Option.any (!Columnar.isLevel ·)
      (if settings.compress then some settings.compressor.level else none) = false := by
    cases settings.compress <;> simp [level]
  have computed := Columnar.write_eq regular (Bool.and_eq_true_iff.mp supported).2 known
  obtain ⟨after, filled, touches, stands⟩ :=
    touches_writeDraft vacant shelved directory (.columnar ⟨table.columns⟩) rfl
  have stored : Stored settings .columnar (.columnar ⟨table.columns⟩) write.value :=
    ⟨_, table, rfl, Columnar.read_eq regular, same⟩
  have ended : ((filling write table).advance settings).run world =
      .ok (.ok (measuring write ⟨.columnar, settings.compress,
        (Columnar.File.mk table.columns).length⟩)) ⟨world.book, after⟩ := by
    refine run_guarded_of_ok ?_
    dsimp only
    rw [computed, run_bind_of_ok (run_ofExcept _ _), run_bind_of_ok (run_onFiles filled)]
    rfl
  exact advances_of_eq ended (.drafted (.inr ⟨table, rfl⟩) touches stands stored
    ((Nat.le_add_left _ _).trans light))

theorem ends_placing (vacant : Vacant opened settings.root home)
    (shelved : Shelved opened home files)
    (directory : files.isDirectory (shelfPath home write.key) = true) {node : Node}
    (stands : files.node? (draftPath home write.key) = some node) (written : WrittenPayload) (book : DiskBook) :
    ∃ after, ((placing write written).advance settings).run ⟨book, files⟩ =
        .ok (.ok (committing write written)) ⟨book, after⟩ ∧
      Touches opened home (fun path => path = draftPath home write.key ∨ path = payloadPath home write.key)
        files after ∧
      after.node? (payloadPath home write.key) = some node ∧ after.node? (draftPath home write.key) = none := by
  have plain : node.isDirectory = false := by
    have free : files.isDirectory (draftPath home write.key) = false := shelved.plain nofun
    rw [isDirectory, stands] at free
    exact free
  obtain ⟨after, moved, told⟩ := touches_placePayload vacant shelved directory stands plain
  refine ⟨after, run_guarded_of_ok ?_, told⟩
  rw [run_bind_of_ok (run_onFiles moved)]
  rfl

theorem advances_placing (vacant : Vacant opened settings.root home)
    (shelved : Shelved opened home world.files)
    (directory : world.files.isDirectory (shelfPath home write.key) = true) (written : WrittenPayload) :
    Advances settings opened home keys faults step rest world (placing write written) := by
  cases stands : world.files.node? (draftPath home write.key) with
  | none =>
      have failed := rename_of_missing vacant shelved directory stands
      have lost : ((placing write written).advance settings).run world =
          .ok (.ok (abandoning write (.io .notFound))) ⟨world.book, world.files.counted⟩ :=
        run_guarded_of_failed (run_bind_of_failed (run_onFiles_of_error failed))
      refine ⟨fun next after reached going => ?_⟩
      cases lost.symm.trans reached
      cases going
  | some node =>
      obtain ⟨after, ended, touches, there, gone⟩ := ends_placing vacant shelved directory stands written world.book
      exact advances_of_eq ended (.placed stands touches there gone)

/-- The record of a write comes into the index, and the index is written. -/
theorem ends_committing (vacant : Vacant opened settings.root home)
    (shelved : Shelved opened home world.files)
    (bounded : BoundedBook faults step (rest + 1) world.book) (some : 1 ≤ step) {written : WrittenPayload}
    (light : written.storedBytes ≤ step) :
    Succeeds faults ((committing write written).advance settings) world fun next after =>
      next = leaving (.ok .stored) ((world.book.index.records.filter fun pair =>
        write.victims.contains pair.1).map (·.2.file)) ∧
      BoundedBook faults step rest after.book ∧
      Touches opened home (fun path => path = home ++ ["metadata.json.tmp"] ∨
        path = home ++ ["metadata.json"]) world.files after.files ∧
      ∃ record : DiskRecord, record.file = fileFor write.key ∧ record.size = write.size ∧
        record.format = written.format ∧ after.book.index.records = Keyed.put write.key record
          (world.book.index.records.filter fun pair => !write.victims.contains pair.1) := by
  refine Succeeds.bind ((commit_succeeds bounded some light world.files).imp ?_)
  rintro files ⟨book, left⟩ ⟨rfl, rfl, bounded, record, ⟨file, size, format, -⟩, index, dirty, -⟩
  obtain ⟨after, persisted, touches, -⟩ := touches_persist vacant shelved dirty
  refine Succeeds.bind (Succeeds.lift (succeeds_of_eq persisted (succeeds_pure ⟨rfl, ?_, touches, record, file, size,
    format, congrArg DiskIndex.records index⟩)))
  exact bounded.change false fun _ among => among

theorem advances_committing (vacant : Vacant opened settings.root home)
    (shelved : Shelved opened home world.files)
    (bounded : BoundedBook faults step (rest + 1) world.book) (some : 1 ≤ step) {written : WrittenPayload}
    (light : written.storedBytes ≤ step) :
    Advances settings opened home keys faults step rest world (committing write written) := by
  refine advances_of_succeeds ((ends_committing vacant shelved bounded some light).imp ?_)
  rintro next ⟨book, after⟩ ⟨rfl, bounded, touches, record, file, -, format, index⟩
  exact .committed file format index bounded touches

theorem ends_removing (vacant : Vacant opened settings.root home)
    (shelved : Shelved opened home world.files) (directory : world.files.isDirectory (shelfPath home key) = true)
    (others : List String) (answer : Except StoreError DiskAnswer) :
    ∃ after, ((removing (fileFor key) others answer).advance settings).run world =
        .ok (.ok (leaving answer others)) ⟨world.book, after⟩ ∧
      Touches opened home (· = payloadPath home key) world.files after ∧
        after.node? (payloadPath home key) = none := by
  obtain ⟨after, removed, told⟩ := touches_removeFile vacant shelved directory world.book
  refine ⟨after, ?_, told⟩
  rw [advance, run_bind_of_ok removed]
  rfl

theorem advances_removing (vacant : Vacant opened settings.root home)
    (shelved : Shelved opened home world.files) (known : key ∈ keys)
    (directory : world.files.isDirectory (shelfPath home key) = true)
    (others : List String) (answer : Except StoreError DiskAnswer) :
    Advances settings opened home keys faults step rest world (removing (fileFor key) others answer) := by
  obtain ⟨after, ended, touches, gone⟩ := ends_removing vacant shelved directory others answer
  exact advances_of_eq ended (.removed known touches gone)

theorem advances (ground : Ground settings opened home keys) (some : 1 ≤ step)
    (shelved : Shelved opened home world.files)
    (bounded : BoundedBook faults step (rest + 1) world.book)
    {place : CallPlace} (going : place.isDone = false)
    (fits : place.Fits settings keys step home world.files) :
    Advances settings opened home keys faults step rest world place := by
  have vacant := ground.vacant
  cases place with
  | starting call =>
      cases call with
      | get key => exact advances_get shelved key
      | put key value => exact advances_put shelved key value
      | delete key => exact advances_delete vacant shelved key
  | looking key record => exact advances_looking shelved key record
  | dropping key => exact advances_dropping key
  | reading key record => exact advances_reading vacant shelved key record
  | counting key record value => exact advances_counting bounded some key fits value
  | preparing write => exact advances_preparing vacant shelved write
  | drafting write => exact advances_drafting vacant shelved fits.1 fits.2
  | filling write table => exact advances_filling vacant ground.level shelved fits.1 fits.2.1 fits.2.2
  | measuring write written =>
      refine advances_asked .measured shelved ?_
      rw [advance]
      rfl
  | placing write written => exact advances_placing vacant shelved fits.2.1 written
  | abandoning write error => exact fits.elim
  | committing write written => exact advances_committing vacant shelved bounded some fits.2.2
  | removing file others answer =>
      obtain ⟨key, known, rfl, directory⟩ := fits file List.mem_cons_self
      exact advances_removing vacant shelved known directory others answer
  | done answer => cases going

end CallPlace

end TierVault
