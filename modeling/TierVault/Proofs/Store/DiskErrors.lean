import TierVault.Proofs.Store.DiskRecords
import TierVault.Proofs.Store.DiskTending
import TierVault.Zstandard.Codec

/-!
What a write to a disk store that reports an error has left.

A write that fails before it has changed the index, at whichever step, has changed nothing that can be asked
for. A write whose index cannot be written to its file has changed the index, and the payloads, and reports an
error all the same.
-/

namespace TierVault

open FileSystem StoreAction TierVault.Action

/-- The store lists its keys, tells its size and finds values in one world as in the other. -/
structure Store.Alike {World : Type} (store : Store World) (world after : World) : Prop where
  entries : EStateM.run' store.entries.run after = EStateM.run' store.entries.run world
  size : EStateM.run' store.size.run after = EStateM.run' store.size.run world
  get : ∀ key, EStateM.run' (store.get key).run after = EStateM.run' (store.get key).run world

namespace DiskStore

variable {settings : DiskSettings} {home : Path} {key other : String} {record : DiskRecord} {value : Value}
  {world after : DiskWorld} {error : StoreError} {gone : List String} {changed : Path → Prop}

/-! ## Writes that have not changed the index -/

theorem countable_congr (index : after.book.index.clock = world.book.index.clock)
    (transfers : after.book.transfers = world.book.transfers)
    (records : Keyed.find? key after.book.index.records = Keyed.find? key world.book.index.records) :
    Countable after.book key ↔ Countable world.book key := by
  unfold Countable
  rw [index, transfers, records]

/-- Where the index and all payloads are as they were, so is all that can be asked for. -/
theorem alike_of_payloads (tended : Tended settings home world) (still : Tended settings home after)
    (book : after.book = world.book)
    (payloads : ∀ key, after.files.node? (payloadPath home key) = world.files.node? (payloadPath home key)) :
    (store settings).Alike world.calmed after.calmed := by
  have same : after.calmed.book = world.calmed.book := book
  constructor
  case entries =>
    change EStateM.run' (DiskStore.entries).run after.calmed = EStateM.run' (DiskStore.entries).run world.calmed
    have told (world : DiskWorld) : EStateM.run' (DiskStore.entries).run world =
        some (.ok ((DiskIndex.oldestFirst world.book.index.records).map fun pair => (pair.1, pair.2.size))) := rfl
    rw [told, told, same]
  case size =>
    change EStateM.run' (DiskStore.size).run after.calmed = EStateM.run' (DiskStore.size).run world.calmed
    have told (world : DiskWorld) : EStateM.run' (DiskStore.size).run world =
        (Word.total (world.book.index.records.map fun pair => pair.2.size)).toOption.map .ok := by
      change EStateM.run' (StoreAction.checked (Word.total _) : DiskAction Nat).run world = _
      cases Word.total (world.book.index.records.map fun pair => pair.2.size) <;> rfl
    rw [told, told, same]
  case get =>
    intro key
    refine run'_get_congr tended.calmed (quiet_calmed _) still.calmed (quiet_calmed _) ?_ ?_
    · exact reading_congr (by rw [same]) (payloads key)
    · rw [same]

/-! ## Writes that have -/

theorem fileFor_eq_of_payloadPath_eq (same : payloadPath home key = payloadPath home other) :
    fileFor key = fileFor other := by
  have shelves := (List.cons.inj (List.append_cancel_left same)).1
  rw [fileFor_eq, fileFor_eq, shelves, payloadName_eq_of_path_eq same]

/-- The write has put the value and dropped the keys that had to leave, as if it had been well, and its index
could not be written. -/
structure PutUnsaved (settings : DiskSettings) (home : Path) (key : String) (value : Value) (error : StoreError)
    (world after : DiskWorld) (record : DiskRecord) (gone : List String) : Prop where
  unsaved : Unsaved settings home error world after
  size : value.encodedSize = .ok record.size
  chosen : victims settings.budget world.book.index.records key record.size = .ok gone
  records : after.book.index.records =
    Keyed.put key record (world.book.index.records.filter fun pair => !gone.contains pair.1)
  own : (∀ other ∈ gone, fileFor other ≠ fileFor key) → ∀ answer,
    EStateM.run' (get settings key).run after.calmed = some answer → answer = .ok (some value)
  left : ∀ other ∈ gone, EStateM.run' (get settings other).run after.calmed = some (.ok none)
  others : ∀ other, (∀ changed ∈ key :: gone, fileFor changed ≠ fileFor other) → ∀ before answer,
    EStateM.run' (get settings other).run world.calmed = some before →
      EStateM.run' (get settings other).run after.calmed = some answer → answer = before

/-- The delete has dropped the key, and its index could not be written. -/
structure DeleteUnsaved (settings : DiskSettings) (home : Path) (key : String) (error : StoreError)
    (world after : DiskWorld) : Prop where
  unsaved : Unsaved settings home error world after
  records : after.book.index.records = Keyed.remove key world.book.index.records
  own : EStateM.run' (get settings key).run after.calmed = some (.ok none)
  others : ∀ other, other ≠ key → EStateM.run' (get settings other).run after.calmed =
    EStateM.run' (get settings other).run world.calmed

theorem run'_get_of_unknown (unknown : Keyed.find? key world.book.index.records = none) :
    EStateM.run' (get settings key).run world = some (.ok none) := by
  have asked : (records).run world = .ok (.ok world.book.index.records) world := rfl
  unfold EStateM.run' EStateM.run get
  rw [run_bind_of_ok asked, unknown]
  rfl

theorem DeleteEnds.unsaved (tended : Tended settings home world)
    (ends : DeleteEnds settings home key world (.error error) after) :
    DeleteUnsaved settings home key error world after := by
  have still := ends.tended tended
  cases ends with
  | failed _ index transfers alters unsaved =>
      have records : after.book.index.records = Keyed.remove key world.book.index.records := by rw [index]
      have clock : after.book.index.clock = world.book.index.clock := by rw [index]
      refine ⟨unsaved, records, run'_get_of_unknown ?_, fun other different => ?_⟩
      · exact records ▸ Keyed.find?_remove_same key _
      · have found : Keyed.find? other after.book.index.records =
            Keyed.find? other world.book.index.records := by
          rw [records, Keyed.find?_remove_other _ different]
        refine run'_get_congr tended.calmed (quiet_calmed _) still.calmed (quiet_calmed _) ?_ ?_
        · exact reading_congr found (alters.others _ (not_indexPlace_payloadPath home other))
        · exact countable_congr clock transfers found

theorem PutEnds.alike_or_unsaved (tended : Tended settings home world) (wellFormed : value.WellFormed)
    (regular : value.RegularTables) (ends : PutEnds settings home key value world (.error error) after) :
    (store settings).Alike world.calmed after.calmed ∨
      ∃ record gone, PutUnsaved settings home key value error world after record gone := by
  have still := ends.tended tended
  cases ends with
  | failed _ book alters =>
      refine .inl (alike_of_payloads tended still book fun other => ?_)
      exact alters.others _ (not_besidePayload_payloadPath home key other)
  | done record gone size file chosen records alters stored saved =>
      refine .inr ⟨record, gone, ?unsaved, size, chosen, records, ?own, ?left, ?others⟩
      case unsaved =>
        rcases saved with impossible | ⟨_, same, unsaved⟩
        · cases impossible
        · cases same
          exact unsaved
      case own =>
        intro apart answer told
        obtain ⟨encoded, encodes⟩ : ∃ encoded, value.encode = .ok encoded := by
          rw [Value.encodedSize_eq] at size
          cases encodes : value.encode with
          | error failure =>
              rw [encodes] at size
              cases size
          | ok encoded => exact ⟨encoded, rfl⟩
        obtain ⟨node, stands, holds⟩ := stored fun other member same =>
          apart other member (fileFor_eq_of_payloadPath_eq same)
        have found : Keyed.find? key after.book.index.records = some record := by
          rw [records, Keyed.find?_put_same]
        have own := reading_of_stored found stands (holds encoded ⟨encodes, wellFormed, regular⟩)
        exact ((run'_get_iff still.calmed (quiet_calmed _) answer).mp told).1.trans own
      case left =>
        intro other leaves
        apply run'_get_of_unknown
        have different := (other_of_mem_victims chosen leaves).1
        have unknown : Keyed.find? other after.book.index.records = none := by
          rw [records, Keyed.find?_put_other _ _ different, Keyed.find?_filter_fst fun name => !gone.contains name]
          simp [leaves]
        exact unknown
      case others =>
        intro other apart before answer first second
        have different : other ≠ key := fun same => apart key List.mem_cons_self (congrArg fileFor same.symm)
        have stays : other ∉ gone := fun leaves => apart other (List.mem_cons_of_mem _ leaves) rfl
        have found : Keyed.find? other after.book.index.records =
            Keyed.find? other world.book.index.records := by
          rw [records, Keyed.find?_put_other _ _ different, Keyed.find?_filter_fst fun name => !gone.contains name]
          simp [stays]
        have payload : after.files.node? (payloadPath home other) = world.files.node? (payloadPath home other) := by
          apply alters.others
          rintro (beside | index | ⟨changed, member, same⟩)
          · exact not_besidePayload_payloadPath home key other beside
          · exact not_indexPlace_payloadPath home other index
          · exact apart changed member (fileFor_eq_of_payloadPath_eq same.symm)
        have early := ((run'_get_iff tended.calmed (quiet_calmed _) before).mp first).1
        have late := ((run'_get_iff still.calmed (quiet_calmed _) answer).mp second).1
        rw [early, late]
        exact reading_congr found payload

/-- Whatever was done with the store, and whatever its medium refuses: a put that reports an error has left all as it
was, unless only its index could not be written, and a delete reports an error only then. Then the change of the
index has been made all the same. -/
theorem errors_leave {calls : List StoreCall} {events : List StoreEvent} {opened : DiskWorld}
    (tended : Tended settings home opened) (level : .clear ∈ calls → ".." ∉ FileName.pieces settings.root)
    (ran : (store settings).runAll calls opened = .ok events world) (key : String) :
    (∀ value error after, value.WellFormed → value.RegularTables →
      (put settings key value).run world = .ok (.error error) after →
        (store settings).Alike world.calmed after.calmed ∨
          ∃ record gone, PutUnsaved settings home key value error world after record gone) ∧
    ∀ error after, (delete settings key).run world = .ok (.error error) after →
      DeleteUnsaved settings home key error world after := by
  have still : Tended settings home world := (leads_runAll_tended tended level).of_ok ran
  constructor
  · intro value error after wellFormed regular failed
    exact ((leads_put still key value).of_ok failed).alike_or_unsaved still wellFormed regular
  · intro error after failed
    have leads : Leads AnyFault (delete settings key).run world _ := leads_delete still key
    exact (leads.of_ok failed).unsaved still

/-! ### An index whose place is taken -/

/-- The medium refuses nothing, but a directory stands in the place of the index. Of the other things in the store's
directory, the directories of payloads are the only directories. -/
structure Barred (home : Path) (files : FileSystem) : Prop where
  quiet : files.Quiet
  taken : files.isDirectory (home ++ ["metadata.json"]) = true
  draft : files.isDirectory (home ++ ["metadata.json.tmp"]) = false
  shelves : ∀ key, files.isThere (shelfPath home key) = true → files.isDirectory (shelfPath home key) = true
  plain : ∀ shelf name, files.isDirectory (home ++ [shelf, name]) = false

namespace Barred

variable {faults : Fault → Prop} {files : FileSystem} {path : Path} {node : Node}

theorem counted (barred : Barred home files) : Barred home files.counted :=
  ⟨barred.quiet, barred.taken, barred.draft, barred.shelves, barred.plain⟩

/-- Other paths than those of directories are free to be used. -/
theorem of_others {after : FileSystem} (barred : Barred home files) (refuses : after.refuses = files.refuses)
    (others : ∀ other, other ≠ path → after.node? other = files.node? other)
    (free : after.isDirectory path = false) (index : path ≠ home ++ ["metadata.json"])
    (shelves : ∀ key, path ≠ shelfPath home key) : Barred home after := by
  have same {other : Path} (apart : other ≠ path) : after.isDirectory other = files.isDirectory other := by
    rw [isDirectory, others other apart]
    rfl
  have stays {other : Path} (plain : files.isDirectory other = false) : after.isDirectory other = false := by
    by_cases own : other = path
    · rw [own, free]
    · rw [same own, plain]
  refine ⟨fun number => refuses ▸ barred.quiet number, (same index.symm).trans barred.taken, stays barred.draft,
    fun key there => ?_, fun shelf name => stays (barred.plain shelf name)⟩
  have apart := (shelves key).symm
  rw [isThere, others _ apart] at there
  exact (same apart).trans (barred.shelves key there)

theorem place_indexDraft (barred : Barred home files) (plain : node.isDirectory = false) :
    Barred home (files.place (home ++ ["metadata.json.tmp"]) node) := by
  refine barred.of_others rfl (fun other => node?_place_other files node) ?_ (by simp) fun key same => ?_
  · rw [isDirectory, node?_place_same files node (by simp)]
    exact plain
  · exact not_indexPlace_shelfPath home key (.inl same.symm)

theorem place_below (barred : Barred home files) (shelf name : String) (plain : node.isDirectory = false) :
    Barred home (files.place (home ++ [shelf, name]) node) := by
  refine barred.of_others rfl (fun other => node?_place_other files node) ?_ (by simp) fun key => ?_
  · rw [isDirectory, node?_place_same files node (by simp)]
    exact plain
  · exact (shelfPath_ne home key shelf name).symm

theorem discard_below (barred : Barred home files) (shelf name : String) :
    Barred home (files.discard (home ++ [shelf, name])) := by
  refine barred.of_others rfl (fun other => node?_discard_other files) ?_ (by simp) fun key => ?_
  · rw [isDirectory, node?_discard_same files (by simp)]
    rfl
  · exact (shelfPath_ne home key shelf name).symm

theorem place_shelf (barred : Barred home files) (key : String) :
    Barred home (files.place (shelfPath home key) .directory) := by
  have same {other : Path} (apart : other ≠ shelfPath home key) :
      (files.place (shelfPath home key) .directory).isDirectory other = files.isDirectory other := by
    rw [isDirectory, node?_place_other files .directory apart]
    rfl
  have index : ¬IndexPlace home (shelfPath home key) := not_indexPlace_shelfPath home key
  refine ⟨barred.quiet, (same fun own => index (.inr own.symm)).trans barred.taken,
    (same fun own => index (.inl own.symm)).trans barred.draft, fun other there => ?_,
    fun shelf name => (same (shelfPath_ne home key shelf name).symm).trans (barred.plain shelf name)⟩
  by_cases own : shelfPath home other = shelfPath home key
  · rw [own, isDirectory, node?_place_same files .directory (by simp [shelfPath])]
    rfl
  · rw [isThere, node?_place_other files .directory own] at there
    exact (same own).trans (barred.shelves other there)

theorem run_makeDirectories (barred : Barred home world.files) (tended : Tended settings home world) (key : String) :
    ∃ after, makeDirectories (directoryFor settings key) world.files = .ok () after ∧ Barred home after ∧
      Tended settings home ⟨world.book, after⟩ ∧ after.isDirectory (shelfPath home key) = true := by
  rw [directoryFor_eq]
  have two : (shelfName key).utf8ByteSize = 2 := utf8Length_shelfName key
  have short := tended.short
  have fits : settings.root.utf8ByteSize + 1 + (shelfName key).utf8ByteSize < nameLimit := by omega
  have names := tended.holds.names (plain_shelfName key) fits
  have made := names.makeDirectories_eq barred.quiet (barred.shelves key)
  have alters := tended.holds.alters_makeDirectories (plain_shelfName key) fits
  have directory := tended.holds.isDirectory_of_makeDirectories (plain_shelfName key) fits made
  rw [made] at alters
  refine ⟨_, made, ?_, tended.alter alters tended.filed, directory⟩
  split
  · exact barred.counted
  · exact barred.counted.place_shelf key

section

variable (barred : Barred home world.files) (tended : Tended settings home world)
  (directory : world.files.isDirectory (shelfPath home key) = true)

include barred tended directory

theorem run_writeNode (node : Node) (plain : node.isDirectory = false) :
    ∃ after, writeNode (draftFor settings key) node world.files = .ok () after ∧ Barred home after ∧
      Tended settings home ⟨world.book, after⟩ ∧ after.isDirectory (shelfPath home key) = true ∧
        after.node? (draftPath home key) = some node := by
  have names := tended.names_draft directory
  have free := barred.plain (shelfName key) (draftName key)
  rw [← append_pair] at free
  have lies := append_draftName home key
  have wrote := names.writeNode_eq barred.quiet free node
  have alters := (recounts_counted world.files).alters (· = draftPath home key)
  have placed := alters_place names.counted.isDirectory names.plain free node
  rw [lies] at wrote placed
  exact ⟨_, wrote, barred.counted.place_below _ _ plain, tended.alter (alters.trans placed) tended.filed,
    placed.directory _ directory, node?_place_same _ node (by simp [draftPath])⟩

theorem run_rename (stands : world.files.node? (draftPath home key) = some node) :
    ∃ after, rename (draftFor settings key) (nameFor settings key) world.files = .ok () after ∧
      Barred home after := by
  have plain : node.isDirectory = false := by
    have free : world.files.isDirectory (draftPath home key) = false := barred.plain _ _
    rwa [isDirectory, stands] at free
  have free := barred.plain (shelfName key) (payloadName key)
  rw [← append_pair] at free
  rw [← append_draftName] at stands
  have moved := (tended.names_draft directory).rename_eq (tended.names_target directory) barred.quiet stands free
  rw [append_draftName, append_payloadName] at moved
  exact ⟨_, moved, (barred.counted.discard_below _ _).place_below _ _ plain⟩

end

/-- A payload is written where the index cannot be. -/
theorem succeeds_writePayload (barred : Barred home world.files) (tended : Tended settings home world)
    (binary : settings.columnar = false) {encoded : Bytes} (encodes : value.encode = .ok encoded) (key : String) :
    Succeeds faults (writePayload settings key value) world fun written after =>
      after.book = world.book ∧ written.storedBytes ≤ encoded.length ∧ Barred home after.files := by
  have plain : (value.table?.filter fun table => settings.columnar && Columnar.supports table) = none := by
    simp [binary]
  obtain ⟨kept, computed, -, shorter⟩ := binaryContent_eq settings encodes
  obtain ⟨middle, made, first, tended, directory⟩ := barred.run_makeDirectories tended key
  obtain ⟨drawn, wrote, second, tended, directory, stands⟩ := first.run_writeNode tended directory (.file kept.1) rfl
  obtain ⟨after, moved, third⟩ := second.run_rename tended directory stands
  unfold writePayload writeDraft
  refine Succeeds.bind (succeeds_onFiles made (Succeeds.tryCatch (Succeeds.bind ?_)))
  rw [plain]
  refine Succeeds.bind (succeeds_ofExcept computed (Succeeds.bind (succeeds_onFiles wrote (succeeds_pure ?_))))
  exact Succeeds.bind (succeeds_onFiles moved (succeeds_pure ⟨rfl, shorter, third⟩))

/-- The index is left as it was where it cannot be written. -/
theorem run_persist (tended : Tended settings home world) (barred : Barred home world.files)
    (dirty : world.book.dirty = true) :
    ∃ after, (persist settings).run world = .ok (.error (.io .isADirectory)) ⟨world.book, after⟩ ∧
      Barred home after := by
  have short := tended.short
  have limit : nameLimit = 4096 := rfl
  have draftSize : "metadata.json.tmp".utf8ByteSize = 17 := by decide
  have size : "metadata.json".utf8ByteSize = 13 := by decide
  let index : Node := .file world.book.index.text
  have draft : Names world.files settings.indexDraft home "metadata.json.tmp" :=
    tended.holds.names plain_indexDraftName (by omega)
  have target : Names world.files settings.indexFile home "metadata.json" :=
    tended.holds.names plain_indexName (by omega)
  have wrote : writeFile settings.indexDraft world.book.index.text world.files = _ :=
    draft.writeNode_eq barred.quiet barred.draft index
  have keeps := keeps_place world.files.counted index barred.draft
  have left := barred.counted.place_indexDraft (show index.isDirectory = false from rfl)
  have refused := (draft.counted.keeps keeps).rename_eq_of_taken (target.counted.keeps keeps) left.quiet
    (node?_place_same _ index (by simp)) left.taken
  refine ⟨_, ?_, left.counted⟩
  unfold persist
  rw [run_bind_of_ok (show (getThe DiskWorld : DiskAction DiskWorld).run world = .ok (.ok world) world from rfl)]
  simp only [dirty, Bool.not_true, Bool.false_eq_true, if_false]
  rw [run_bind_of_ok (run_onFiles wrote)]
  exact run_bind_of_failed (run_onFiles_of_error refused)

end Barred

/-- A put does all it is to do where the index cannot be written, and reports an error. -/
theorem run_put_barred {step rest : Nat} {encoded : Bytes} (key : String) (barred : Barred home world.files)
    (tended : Tended settings home world) (binary : settings.columnar = false)
    (bounded : BoundedBook (fun _ => False) step (rest + 1) world.book) (some : 1 ≤ step)
    (encodes : value.encode = .ok encoded) (light : encoded.length ≤ step) (fits : encoded.length ≤ settings.budget)
    (told : victims settings.budget world.book.index.records key encoded.length = .ok []) :
    ∃ after, (put settings key value).run world = .ok (.error (.io .isADirectory)) after ∧
      Tended settings home after ∧ Barred home after.files ∧ BoundedBook (fun _ => False) step rest after.book ∧
        ∃ record : DiskRecord, record.size = encoded.length ∧
          after.book.index.records = Keyed.put key record world.book.index.records := by
  suffices leads : Leads (fun _ => False) (put settings key value).run world fun answer after =>
      answer = .error (.io .isADirectory) ∧ Barred home after.files ∧
        BoundedBook (fun _ => False) step rest after.book ∧ ∃ record : DiskRecord, record.size = encoded.length ∧
          after.book.index.records = Keyed.put key record world.book.index.records by
    obtain ⟨_, after, ended, rfl, left⟩ := leads.ends fun _ => id
    exact ⟨after, ended, ((leads_put tended key value).of_ok ended).tended tended, left⟩
  obtain ⟨written, ⟨_, files⟩, ended, rfl, small, left⟩ :=
    (barred.succeeds_writePayload tended binary encodes key).ends fun _ => id
  have still : Tended settings home ⟨world.book, files⟩ := by
    cases ends_of_writePayload tended ended with
    | written _ placed => exact tended.alter placed.alters tended.filed
  unfold put
  -- The names of files must not be computed.
  generalize writePayload settings key value = payload at ended ⊢
  refine Succeeds.leads_bind (succeeds_ofExcept (Value.encodedSize_of_encode encodes) ?_)
  rw [if_neg (Nat.not_lt.mpr fits)]
  refine Succeeds.leads_bind (succeeds_records (Succeeds.leads_bind (succeeds_checked ?_ ?_)))
  · intro fault failed
    cases told.symm.trans failed
  intro names chosen
  cases told.symm.trans chosen
  refine Succeeds.leads_bind (succeeds_of_eq ended ?_)
  refine Succeeds.leads_bind ((commit_succeeds bounded some (small.trans light) files).imp ?_)
  rintro _ ⟨book, drawn⟩ ⟨rfl, rfl, later, record, ⟨file, size, -⟩, index, dirty, -⟩
  have records : book.index.records = Keyed.put key record world.book.index.records := by
    simpa using congrArg DiskIndex.records index
  have committed : Tended settings home ⟨book, drawn⟩ :=
    ⟨still.holds, still.short, still.orderly, records ▸ tended.filed.put file⟩
  obtain ⟨after, refused, final⟩ := left.run_persist committed dirty
  refine Succeeds.leads_bind (succeeds_lift ((leads_of_eq refused).mpr ?_))
  have nobody : (world.book.index.records.filter fun pair => ([] : List String).contains pair.1) = [] := by
    simp
  rw [nobody]
  exact ⟨rfl, final, later, record, size, records⟩

/-- A delete drops the key where the index cannot be written, and reports an error. -/
theorem run_delete_barred (barred : Barred home world.files) (tended : Tended settings home world)
    (found : Keyed.find? key world.book.index.records = some record) :
    ∃ after, (delete settings key).run world = .ok (.error (.io .isADirectory)) after ∧
      after.book.index.records = Keyed.remove key world.book.index.records := by
  suffices leads : Leads (fun _ => False) (delete settings key).run world fun answer after =>
      answer = .error (.io .isADirectory) ∧
        after.book.index.records = Keyed.remove key world.book.index.records by
    obtain ⟨_, after, ended, rfl, left⟩ := leads.ends fun _ => id
    exact ⟨after, ended, left⟩
  unfold delete
  refine Succeeds.leads_bind (succeeds_records ?_)
  rw [found]
  refine Succeeds.leads_bind (succeeds_changeBook (Succeeds.leads_bind (succeeds_changeBook ?_)))
  have changed : Tended settings home { world with book := { world.book with
      index := { world.book.index with records := Keyed.remove key world.book.index.records }
      dirty := true } } := ⟨tended.holds, tended.short, tended.orderly, tended.filed.filter _⟩
  obtain ⟨after, refused, -⟩ := barred.run_persist changed rfl
  exact (leads_of_eq (run_bind_of_failed refused)).mpr ⟨rfl, rfl⟩

theorem length_records_of_alike (alike : (store settings).Alike world.calmed after.calmed) :
    after.book.index.records.length = world.book.index.records.length := by
  have told := alike.entries
  change some (Except.ok ((DiskIndex.oldestFirst after.book.index.records).map _)) =
    some (Except.ok ((DiskIndex.oldestFirst world.book.index.records).map _)) at told
  have same := congrArg List.length (Except.ok.inj (Option.some.inj told))
  rwa [List.length_map, List.length_map, DiskIndex.oldestFirst, DiskIndex.oldestFirst, List.length_mergeSort,
    List.length_mergeSort] at same

/-- The store as a call leaves it. -/
def leftIn {Result : Type} : EStateM.Result Fault DiskWorld Result → DiskWorld
  | .ok _ after => after
  | .error _ after => after

/-- The error that a call reports, and how many keys are known then. -/
def reported {Result : Type} (call : DiskAction Result) (world : DiskWorld) : Option (StoreError × Nat) :=
  match call.run world with
  | .ok (.error error) after => some (error, after.book.index.records.length)
  | _ => none

theorem ended_of_reported {Result : Type} {call : DiskAction Result} {count : Nat}
    (told : reported call world = some (error, count)) :
    call.run world = .ok (.error error) (leftIn (call.run world)) ∧
      (leftIn (call.run world)).book.index.records.length = count := by
  unfold reported at told
  split at told
  · rename_i after ended
    cases told
    rw [ended]
    exact ⟨rfl, rfl⟩
  · cases told

theorem runAll_singleton {call : StoreCall} {answer : Except StoreError call.Answer}
    (ended : (call.run (store settings)).run world = .ok answer after) :
    (store settings).runAll [call] world = .ok [⟨call, answer⟩] after := by
  simp only [Store.runAll, bind, EStateM.bind, ended]
  rfl

def smallDisk : DiskSettings := ⟨"disk", 100, false, false, ⟨Zstandard.codec, 3, 100⟩⟩

/-- There is a directory in the place of the index. -/
def barredDisk : DiskWorld :=
  ⟨⟨.empty, false, default⟩,
    ((FileSystem.start []).place ["disk"] .directory).place ["disk", "metadata.json"] .directory⟩

def brokenDisk : DiskWorld := leftIn ((put smallDisk "a" (.integer 1)).run barredDisk)

theorem tended_barredDisk : Tended smallDisk ["disk"] barredDisk := by
  have plain : Plain "disk" := ⟨by decide, by decide, by decide, by decide, by decide⟩
  have empty : (FileSystem.start []).Orderly := orderly_of_empty rfl
  have first : ((FileSystem.start []).place ([] ++ ["disk"]) .directory).Orderly :=
    empty.place rfl plain rfl .directory
  have second : (((FileSystem.start []).place ["disk"] .directory).place (["disk"] ++ ["metadata.json"])
      .directory).Orderly := first.place rfl plain_indexName rfl .directory
  exact ⟨⟨rfl, rfl⟩, by decide, second, fun pair member => by cases member⟩

theorem barred_barredDisk : Barred ["disk"] barredDisk.files := by
  have bare {path : Path} (inside : path ≠ []) (root : path ≠ ["disk"]) (index : path ≠ ["disk", "metadata.json"]) :
      barredDisk.files.node? path = none := by
    rw [barredDisk, node?_place_other _ _ index, node?_place_other _ _ root]
    have empty : (FileSystem.start []).nodes = .empty := rfl
    rw [node?, if_neg inside, empty, PathTree.find?, PathTree.walk_empty]
    rfl
  refine ⟨fun _ => rfl, rfl, rfl, fun key there => ?_, fun shelf name => ?_⟩
  · have free := bare (by simp [shelfPath]) (by simp [shelfPath])
      fun same => not_indexPlace_shelfPath ["disk"] key (.inr same)
    rw [isThere, free] at there
    cases there
  · exact isDirectory_of_none (bare (by simp) (by simp) (by simp))

theorem reported_of_ended {Result : Type} {call : DiskAction Result}
    (ended : call.run world = .ok (.error error) after) :
    reported call world = some (error, after.book.index.records.length) := by
  rw [reported, ended]

theorem reported_barred : reported (put smallDisk "a" (.integer 1)) barredDisk = some (.io .isADirectory, 1) ∧
    reported (put smallDisk "b" (.integer 2)) brokenDisk = some (.io .isADirectory, 2) ∧
    reported (delete smallDisk "a") brokenDisk = some (.io .isADirectory, 0) := by
  have encoded (number : Int64) : ∃ encoded, (Value.integer number).encode = .ok encoded ∧ encoded.length = 12 :=
    Value.encode_of_encodedSize rfl
  obtain ⟨one, oneEncodes, oneLength⟩ := encoded 1
  obtain ⟨two, twoEncodes, twoLength⟩ := encoded 2
  have bounded : BoundedBook (fun _ => False) 100 2 barredDisk.book :=
    ⟨fun _ => by decide, fun _ => by decide, fun _ => by decide, fun _ => by decide, fun _ => by decide, nofun⟩
  obtain ⟨first, began, tended, barred, bounded, record, size, records⟩ :=
    run_put_barred "a" barred_barredDisk tended_barredDisk rfl bounded (by decide) oneEncodes (by omega)
      (by rw [oneLength]; decide) (victims_of_room (by rw [oneLength]; decide) (by decide))
  have broken : brokenDisk = first := by
    rw [brokenDisk, began, leftIn]
  have bare : barredDisk.book.index.records = [] := rfl
  rw [bare] at records
  have weighs : Keyed.weigh DiskRecord.size first.book.index.records = 12 := by
    rw [records]
    exact size.trans oneLength
  obtain ⟨second, placed, -, -, -, other, -, secondRecords⟩ :=
    run_put_barred "b" barred tended rfl bounded (by decide) twoEncodes (by omega) (by rw [twoLength]; decide)
      (victims_of_room (by rw [weighs, twoLength]; decide) (by decide))
  have found : Keyed.find? "a" first.book.index.records = some record := by
    rw [records]
    exact Keyed.find?_put_same ..
  obtain ⟨third, removed, thirdRecords⟩ := run_delete_barred barred tended found
  rw [broken, reported_of_ended began, reported_of_ended placed, reported_of_ended removed, thirdRecords,
    secondRecords, records]
  exact ⟨rfl, rfl, rfl⟩

theorem ended_brokenDisk :
    (put smallDisk "a" (.integer 1)).run barredDisk = .ok (.error (.io .isADirectory)) brokenDisk ∧
      brokenDisk.book.index.records.length = 1 := by
  unfold brokenDisk
  exact ended_of_reported reported_barred.1

theorem errors_leave_barred :
    (∃ after record gone,
      (put smallDisk "b" (.integer 2)).run brokenDisk = .ok (.error (.io .isADirectory)) after ∧
        PutUnsaved smallDisk ["disk"] "b" (.integer 2) (.io .isADirectory) brokenDisk after record gone) ∧
    ∃ after, (delete smallDisk "a").run brokenDisk = .ok (.error (.io .isADirectory)) after ∧
      DeleteUnsaved smallDisk ["disk"] "a" (.io .isADirectory) brokenDisk after := by
  obtain ⟨-, ofPut, ofDelete⟩ := reported_barred
  obtain ⟨began, one⟩ := ended_brokenDisk
  obtain ⟨placed, two⟩ := ended_of_reported ofPut
  obtain ⟨removed, -⟩ := ended_of_reported ofDelete
  have ran : (store smallDisk).runAll [.put "a" (.integer 1)] barredDisk =
      .ok [⟨.put "a" (.integer 1), .error (.io .isADirectory)⟩] brokenDisk := runAll_singleton began
  have level : StoreCall.clear ∈ [StoreCall.put "a" (.integer 1)] → ".." ∉ FileName.pieces smallDisk.root :=
    fun _ => by decide
  obtain ⟨leave, -⟩ := errors_leave tended_barredDisk level ran "b"
  obtain ⟨-, unsaved⟩ := errors_leave tended_barredDisk level ran "a"
  refine ⟨?_, _, removed, unsaved _ _ removed⟩
  rcases leave (.integer 2) _ _ ⟨trivial, trivial⟩ trivial placed with alike | ⟨record, gone, unsaved⟩
  · have same := length_records_of_alike alike
    rw [two] at same
    cases same.trans one
  · exact ⟨_, record, gone, placed, unsaved⟩

/-- A put and a delete report an error, and another number of keys is listed than before. -/
theorem errors_change_listing :
    (∃ after, (put smallDisk "b" (.integer 2)).run brokenDisk = .ok (.error (.io .isADirectory)) after ∧
      ¬(store smallDisk).Alike brokenDisk.calmed after.calmed) ∧
    ∃ after, (delete smallDisk "a").run brokenDisk = .ok (.error (.io .isADirectory)) after ∧
      ¬(store smallDisk).Alike brokenDisk.calmed after.calmed := by
  obtain ⟨-, ofPut, ofDelete⟩ := reported_barred
  obtain ⟨-, one⟩ := ended_brokenDisk
  obtain ⟨placed, two⟩ := ended_of_reported ofPut
  obtain ⟨removed, none⟩ := ended_of_reported ofDelete
  refine ⟨⟨_, placed, fun alike => ?_⟩, _, removed, fun alike => ?_⟩
  · have same := length_records_of_alike alike
    rw [two] at same
    cases same.trans one
  · have same := length_records_of_alike alike
    rw [none] at same
    cases same.trans one

end DiskStore

end TierVault
