import TierVault.Proofs.Store.DiskBook
import TierVault.Proofs.Store.DiskFiles
import TierVault.Proofs.Store.Payload
import TierVault.Proofs.Store.Success
import TierVault.Proofs.Value.RoundTrip

/-!
What each step of a disk store does to the files.

Nothing in a directory of the store stands in the way of a step, so no step fails. A step leaves all payload
files alone but those that it is about.
-/

namespace TierVault.DiskStore

open FileSystem StoreAction TierVault.Action

variable {faults : Fault → Prop} {settings : DiskSettings} {opened files middle final : FileSystem}
  {home : Path} {key name last : String} {value : Value} {node : Node} {world : DiskWorld}
  {Result : Type} {result : Result}

/-- Paths of payload files, and of temporary ones, with one of the names. -/
def Payloads (home : Path) (names : String → Prop) (path : Path) : Prop :=
  ∃ shelf name, path = home ++ [shelf, name] ∧ names name

theorem Payloads.imp {names others : String → Prop} {path : Path} (payload : Payloads home names path)
    (implies : ∀ name, names name → others name) : Payloads home others path := by
  obtain ⟨shelf, name, lies, named⟩ := payload
  exact ⟨shelf, name, lies, implies name named⟩

theorem append_pair (home : Path) (shelf name : String) :
    home ++ [shelf] ++ [name] = home ++ [shelf, name] := List.append_assoc ..

/-! ## Calls on files -/

theorem run_onFiles {action : FileAction Result} (ended : action world.files = .ok result final) :
    (onFiles action).run world = .ok (.ok result) { world with files := final } := by
  simp only [onFiles, StoreAction.within, StoreAction.onFiles, ExceptT.run, ended]

theorem run_onFiles_of_error {action : FileAction Result} {error : IoError}
    (failed : action world.files = .error error final) :
    (onFiles action).run world = .ok (.error (.io error)) { world with files := final } := by
  simp only [onFiles, StoreAction.within, StoreAction.onFiles, ExceptT.run, failed]

theorem succeeds_onFiles {action : FileAction Result} {after : Result → DiskWorld → Prop}
    (ended : action world.files = .ok result final) (holds : after result { world with files := final }) :
    Succeeds faults (onFiles action) world after :=
  succeeds_of_eq (run_onFiles ended) holds

section

variable {above beyond : Path} {other end_ first second : String} {rest more : List String}

theorem shelved_writeNode (shelved : Shelved opened home files) (quiet : files.Quiet)
    (names : Names files name above last) (lies : above ++ [last] = home ++ first :: rest)
    (wide : rest = [] → utf8Length first ≠ 2) (node : Node) (plain : node.isDirectory = false) :
    ∃ after, writeNode name node files = .ok () after ∧ Shelved opened home after ∧
      Keeps (· ≠ home ++ first :: rest) files after ∧
        after.node? (home ++ first :: rest) = some node := by
  have free := shelved.plain wide
  have ended := names.writeNode_eq quiet (lies ▸ free) node
  rw [lies] at ended
  refine ⟨_, ended, shelved.counted.place wide plain, ?_, ?_⟩
  · exact (extends_counted files).weaken.trans (keeps_place _ node free)
  · exact node?_place_same _ node (by simp)

theorem shelved_rename (shelved : Shelved opened home files) (quiet : files.Quiet)
    (names : Names files name above last) (lies : above ++ [last] = home ++ first :: rest)
    (wide : rest = [] → utf8Length first ≠ 2)
    (target : Names files other beyond end_) (there : beyond ++ [end_] = home ++ second :: more)
    (wide' : more = [] → utf8Length second ≠ 2) (stands : files.node? (home ++ first :: rest) = some node)
    (plain : node.isDirectory = false) :
    ∃ after, rename name other files = .ok () after ∧ Shelved opened home after ∧
      Keeps (fun path => path ≠ home ++ first :: rest ∧ path ≠ home ++ second :: more) files after ∧
        after.node? (home ++ second :: more) = some node := by
  have ended := names.rename_eq target quiet (lies ▸ stands) (there ▸ shelved.plain wide')
  rw [lies, there] at ended
  have left := shelved.counted.discard wide
  refine ⟨_, ended, left.place wide' plain, ?_, ?_⟩
  · have gone := keeps_discard files.counted (shelved.counted.plain wide)
    have placed := keeps_place _ node (left.plain wide')
    exact (extends_counted files).weaken.trans
      ((gone.mono fun _ apart => apart.1).trans (placed.mono fun _ apart => apart.2))
  · exact node?_place_same _ node (by simp)

end

/-! ## The index file -/

theorem plain_indexName : Plain "metadata.json" := ⟨by decide, by decide, by decide, by decide, by decide⟩

theorem plain_indexDraftName : Plain "metadata.json.tmp" :=
  ⟨by decide, by decide, by decide, by decide, by decide⟩

/-- The index file tells the index. Without one the index is empty. -/
def Filed (home : Path) (index : DiskIndex) (files : FileSystem) : Prop :=
  files.node? (home ++ ["metadata.json"]) = some (.file index.text) ∨
    files.node? (home ++ ["metadata.json"]) = none ∧ index = .empty

/-- What the index file does not tell is marked to be written. -/
def Saved (home : Path) (world : DiskWorld) : Prop :=
  world.book.dirty = true ∨ Filed home world.book.index world.files

theorem Filed.of_node? {index : DiskIndex} (filed : Filed home index files)
    (same : final.node? (home ++ ["metadata.json"]) = files.node? (home ++ ["metadata.json"])) :
    Filed home index final := by
  unfold Filed
  rw [same]
  exact filed

theorem persist_succeeds (vacant : Vacant opened settings.root home)
    (shelved : Shelved opened home files) {book : DiskBook} (saved : Saved home ⟨book, files⟩) :
    Succeeds faults (persist settings) ⟨book, files⟩ fun _ after =>
      after.book = ⟨book.index, false, book.transfers⟩ ∧ Filed home book.index after.files ∧
        Shelved opened home after.files ∧ Keeps (Payloads home fun _ => True) files after.files := by
  have apart (last : String) (path : Path) (payload : Payloads home (fun _ => True) path) :
      path ≠ home ++ [last] := by
    obtain ⟨shelf, name, rfl, -⟩ := payload
    intro same
    cases List.append_cancel_left same
  unfold persist
  refine Succeeds.bind (succeeds_getThe ?_)
  dsimp only
  cases dirty : book.dirty with
  | false =>
      have filed : Filed home book.index files :=
        saved.resolve_left fun changed => Bool.noConfusion (dirty.symm.trans changed)
      exact succeeds_pure ⟨dirty ▸ rfl, filed, shelved, .refl _ _⟩
  | true =>
      have short := vacant.short
      have limit : nameLimit = 4096 := rfl
      have draftSize : "metadata.json.tmp".utf8ByteSize = 17 := by decide
      have size : "metadata.json".utf8ByteSize = 13 := by decide
      have draft := (shelved.holds vacant).names plain_indexDraftName (by omega)
      obtain ⟨middle, written, shelved', keeps, stands⟩ := shelved_writeNode shelved
        (shelved.quiet vacant) draft rfl (fun _ => by decide) (.file book.index.text) rfl
      refine Succeeds.bind (succeeds_onFiles written ?_)
      have target := (shelved'.holds vacant).names plain_indexName (by omega)
      obtain ⟨final, moved, shelved'', keeps', there⟩ := shelved_rename shelved' (shelved'.quiet vacant)
        (draft.keeps keeps) rfl (fun _ => by decide) target rfl (fun _ => by decide) stands rfl
      refine Succeeds.bind (succeeds_onFiles moved (succeeds_changeBook ?_))
      refine ⟨rfl, .inl there, shelved'', ?_⟩
      exact (keeps.mono (apart _)).trans
        (keeps'.mono fun path payload => ⟨apart _ path payload, apart _ path payload⟩)

/-! ## Payload files -/

/-- In that format the file holds the value. -/
def Stored (settings : DiskSettings) (format : PayloadFormat) (node : Node) (value : Value) : Prop :=
  match format with
  | .binary => ∃ content encoded, node = .file content ∧
      settings.compressor.decompressIfFrame content = .ok encoded ∧ Value.decode encoded = .ok value
  | .columnar => ∃ file table, node = .columnar file ∧ Columnar.read file = .ok table ∧
      value = .table table

theorem Stored.plain {format : PayloadFormat} (stored : Stored settings format node value) :
    node.isDirectory = false := by
  cases format with
  | binary =>
      obtain ⟨content, encoded, rfl, -⟩ := stored
      rfl
  | columnar =>
      obtain ⟨file, table, rfl, -⟩ := stored
      rfl

/-- Only tables are put in columns. -/
theorem Stored.format_of_none {format : PayloadFormat} (stored : Stored settings format node value)
    (other : value.table? = none) : format = .binary := by
  cases format with
  | binary => rfl
  | columnar =>
      obtain ⟨file, table, -, -, rfl⟩ := stored
      cases other

/-- Bytes that a value takes at most, in whichever format. -/
def load (value : Value) : Nat :=
  value.weight + (value.table?.map fun table => (Columnar.File.mk table.columns).length).getD 0

/-- The value can be written and read: it has an encoding, and its tables are tables. -/
structure Storable (value : Value) (encoded : Bytes) : Prop where
  encodes : value.encode = .ok encoded
  wellFormed : value.WellFormed
  regular : value.RegularTables

/-- There is room for the names in the directories of payload files. -/
theorem fits_below (short : settings.root.utf8ByteSize + 74 < nameLimit) (key : String)
    (small : last.utf8ByteSize ≤ 70) :
    settings.root.utf8ByteSize + 1 + (shelfName key ++ "/" ++ last).utf8ByteSize < nameLimit := by
  have two : (shelfName key).utf8ByteSize = 2 := utf8Length_shelfName key
  have slash : "/".utf8ByteSize = 1 := by decide
  rw [String.utf8ByteSize_append, String.utf8ByteSize_append]
  omega

/-- A name in the directory of a key's payload file. -/
theorem names_payload (vacant : Vacant opened settings.root home)
    (shelved : Shelved opened home files)
    (directory : files.isDirectory (home ++ [shelfName key]) = true) (plain : Plain last)
    (small : last.utf8ByteSize ≤ 70) :
    Names files (FileName.join settings.root (shelfName key ++ "/" ++ last))
      (home ++ [shelfName key]) last :=
  (shelved.holds vacant).names_below (plain_shelfName key) plain directory
    (fits_below vacant.short key small)

theorem names_draft (vacant : Vacant opened settings.root home)
    (shelved : Shelved opened home files)
    (directory : files.isDirectory (home ++ [shelfName key]) = true) :
    Names files (draftFor settings key) (home ++ [shelfName key]) (draftName key) := by
  rw [draftFor_eq]
  exact names_payload vacant shelved directory (plain_draftName key) (utf8ByteSize_draftName key)

theorem names_target (vacant : Vacant opened settings.root home)
    (shelved : Shelved opened home files)
    (directory : files.isDirectory (home ++ [shelfName key]) = true) :
    Names files (nameFor settings key) (home ++ [shelfName key]) (payloadName key) := by
  rw [nameFor_eq]
  exact names_payload vacant shelved directory (plain_payloadName key) (utf8ByteSize_payloadName key)

/-- The bytes that are kept for an encoding, and whether they are a frame. -/
theorem binaryContent_eq (settings : DiskSettings) {encoded : Bytes}
    (encodes : value.encode = .ok encoded) :
    ∃ kept, binaryContent settings value = .ok kept ∧
      settings.compressor.decompressIfFrame kept.1 = .ok encoded ∧ kept.1.length ≤ encoded.length := by
  cases compress : settings.compress with
  | true =>
      refine ⟨settings.compressor.compressIfShorter encoded, ?_,
        Compressor.decompressIfFrame_compressIfShorter encodes⟩
      rw [binaryContent, encodes, compress]
      rfl
  | false =>
      refine ⟨(encoded, false), ?_, Compressor.decompressIfFrame_raw encodes, Nat.le_refl _⟩
      rw [binaryContent, encodes, compress]
      rfl

theorem writeDraft_succeeds (vacant : Vacant opened settings.root home)
    (level : Columnar.isLevel settings.compressor.level = true)
    (shelved : Shelved opened home world.files)
    (directory : world.files.isDirectory (home ++ [shelfName key]) = true) {encoded : Bytes}
    (storable : Storable value encoded) :
    Succeeds faults (writeDraft settings (draftFor settings key) value) world fun written after =>
      after.book = world.book ∧ Shelved opened home after.files ∧
        Keeps (· ≠ home ++ [shelfName key, draftName key]) world.files after.files ∧
          written.storedBytes ≤ load value ∧
            ∃ node, after.files.node? (home ++ [shelfName key, draftName key]) = some node ∧
              Stored settings written.format node value := by
  have names := names_draft vacant shelved directory
  have lies := append_pair home (shelfName key) (draftName key)
  unfold writeDraft
  cases chosen : value.table?.filter fun table => settings.columnar && Columnar.supports table with
  | none =>
      have decodes := Value.decode_encode storable.encodes storable.wellFormed []
      rw [List.append_nil] at decodes
      obtain ⟨kept, computed, unpacked, shorter⟩ := binaryContent_eq settings storable.encodes
      refine Succeeds.bind (succeeds_ofExcept computed ?_)
      obtain ⟨after, written, shelved', keeps, stands⟩ := shelved_writeNode shelved
        (shelved.quiet vacant) names lies nofun (.file kept.1) rfl
      refine Succeeds.bind (succeeds_onFiles written (succeeds_pure ?_))
      refine ⟨rfl, shelved', keeps, ?_, _, stands, kept.1, encoded, rfl, unpacked, decodes⟩
      rw [load, Value.weight_of_encode storable.encodes]
      exact Nat.le_add_right_of_le shorter
  | some table =>
      obtain ⟨content, supported⟩ := Option.filter_eq_some_iff.mp chosen
      obtain rfl : value = .table table := by
        cases value <;> cases content
        rfl
      have known : Option.any (!Columnar.isLevel ·)
          (if settings.compress then some settings.compressor.level else none) = false := by
        cases settings.compress <;> simp [level]
      have computed := Columnar.write_eq storable.regular (Bool.and_eq_true_iff.mp supported).2 known
      obtain ⟨middle, began, shelved', keeps, -⟩ := shelved_writeNode shelved
        (shelved.quiet vacant) names lies nofun (.file []) rfl
      refine Succeeds.bind (succeeds_onFiles began ?_)
      refine Succeeds.bind (succeeds_ofExcept computed ?_)
      obtain ⟨after, written, shelved'', keeps', stands⟩ := shelved_writeNode shelved'
        (shelved'.quiet vacant) (names.keeps keeps) lies nofun (.columnar ⟨table.columns⟩) rfl
      refine Succeeds.bind (succeeds_onFiles written (succeeds_pure ?_))
      refine ⟨rfl, shelved'', keeps.trans keeps', Nat.le_add_left _ _, _, stands, _, table, rfl, ?_, rfl⟩
      exact Columnar.read_eq storable.regular

/-- The directory of a key's payload file is there or is made. -/
theorem shelved_makeDirectories (vacant : Vacant opened settings.root home)
    (shelved : Shelved opened home files) (key : String) :
    ∃ after, makeDirectories (FileName.join settings.root (shelfName key)) files = .ok () after ∧
      Shelved opened home after ∧ Extends files after ∧
        after.isDirectory (home ++ [shelfName key]) = true := by
  have short := vacant.short
  have two : (shelfName key).utf8ByteSize = 2 := utf8Length_shelfName key
  have names := (shelved.holds vacant).names (plain_shelfName key) (by omega)
  have proper := shelved.shelves _ (utf8Length_shelfName key)
  have ended := names.makeDirectories_eq (shelved.quiet vacant) fun there => (proper there).1
  cases there : files.isThere (home ++ [shelfName key]) with
  | true =>
      rw [there, if_pos rfl] at ended
      exact ⟨_, ended, shelved.counted, extends_counted files, (proper there).1⟩
  | false =>
      rw [there, if_neg Bool.false_ne_true] at ended
      refine ⟨_, ended, shelved.counted.place_shelf ⟨key, rfl⟩ there,
        (extends_counted files).trans (extends_place _ there), ?_⟩
      rw [isDirectory, node?_place_same _ _ (by simp)]
      rfl

/-- Names of files that have nothing to do with the key. -/
def Unrelated (key name : String) : Prop := name ≠ payloadName key ∧ name ≠ draftName key

theorem ne_of_unrelated {path : Path} (payload : Payloads home (Unrelated key) path) :
    path ≠ home ++ [shelfName key, draftName key] ∧
      path ≠ home ++ [shelfName key, payloadName key] := by
  obtain ⟨shelf, name, rfl, unlike⟩ := payload
  constructor
  · intro same
    exact unlike.2 (List.cons.inj (List.cons.inj (List.append_cancel_left same)).2).1
  · intro same
    exact unlike.1 (List.cons.inj (List.cons.inj (List.append_cancel_left same)).2).1

/-- The payload file of the key holds the value, and those of other names are left alone. -/
theorem writePayload_succeeds (vacant : Vacant opened settings.root home)
    (level : Columnar.isLevel settings.compressor.level = true)
    (shelved : Shelved opened home world.files) {encoded : Bytes}
    (storable : Storable value encoded) :
    Succeeds faults (writePayload settings key value) world fun written after =>
      after.book = world.book ∧ Shelved opened home after.files ∧
        Keeps (Payloads home (Unrelated key)) world.files after.files ∧
          after.files.isDirectory (home ++ [shelfName key]) = true ∧ written.storedBytes ≤ load value ∧
            ∃ node, after.files.node? (home ++ [shelfName key, payloadName key]) = some node ∧
              Stored settings written.format node value := by
  obtain ⟨middle, made, prepared, extend, directory⟩ := shelved_makeDirectories vacant shelved key
  unfold writePayload
  rw [directoryFor_eq]
  refine Succeeds.bind (succeeds_onFiles made ?_)
  refine Succeeds.tryCatch (Succeeds.bind ?_)
  refine (writeDraft_succeeds vacant level prepared directory storable).imp ?_
  rintro written ⟨book, files⟩ ⟨rfl, drafted, keeps, light, node, stands, stored⟩
  have still := keeps.directory _ directory
  obtain ⟨final, ended, moved, keeps', there⟩ := shelved_rename drafted (drafted.quiet vacant)
    (names_draft vacant drafted still) (append_pair home (shelfName key) (draftName key)) nofun
    (names_target vacant drafted still) (append_pair home (shelfName key) (payloadName key)) nofun
    stands stored.plain
  refine Succeeds.bind (succeeds_onFiles ended (succeeds_pure ?_))
  refine ⟨rfl, moved, ?_, keeps'.directory _ still, light, node, there, stored⟩
  have first := keeps.mono fun path payload => (ne_of_unrelated payload).1
  exact extend.weaken.trans (first.trans (keeps'.mono fun path => ne_of_unrelated))

theorem readPayload_succeeds (vacant : Vacant opened settings.root home)
    (shelved : Shelved opened home world.files)
    (directory : world.files.isDirectory (home ++ [shelfName key]) = true)
    (stands : world.files.node? (home ++ [shelfName key, payloadName key]) = some node)
    {format : PayloadFormat} (stored : Stored settings format node value) :
    Succeeds faults (readPayload settings (nameFor settings key) format) world fun result after =>
      result = value ∧ after = { world with files := world.files.counted } := by
  have names := names_target vacant shelved directory
  rw [← append_pair] at stands
  unfold readPayload
  cases format with
  | columnar =>
      obtain ⟨file, table, rfl, read, rfl⟩ := stored
      have opens := names.openNode_eq (shelved.quiet vacant) stands
      refine Succeeds.bind (succeeds_onFiles opens ?_)
      refine Succeeds.bind (succeeds_ofExcept rfl (Succeeds.bind (succeeds_ofExcept read ?_)))
      exact succeeds_pure ⟨rfl, rfl⟩
  | binary =>
      obtain ⟨content, encoded, rfl, unpacked, decodes⟩ := stored
      have reads := names.readFile_eq (shelved.quiet vacant) stands
      refine Succeeds.bind (succeeds_onFiles reads (Succeeds.bind (succeeds_ofExcept unpacked ?_)))
      exact succeeds_ofExcept decodes ⟨rfl, rfl⟩

/-- The file of the key is gone, and those of other names are left alone. -/
theorem removeFileOf_succeeds (vacant : Vacant opened settings.root home)
    (shelved : Shelved opened home files)
    (directory : files.isDirectory (home ++ [shelfName key]) = true) (book : DiskBook) :
    Succeeds faults (removeFileOf settings (fileFor key)) ⟨book, files⟩ fun _ after =>
      after.book = book ∧ Shelved opened home after.files ∧
        (∀ last, after.files.node? (home ++ [last]) = files.node? (home ++ [last])) ∧
          Keeps (Payloads home fun name => name ≠ payloadName key) files after.files := by
  have names := names_target vacant shelved directory
  have quiet := shelved.quiet vacant
  have lies := append_pair home (shelfName key) (payloadName key)
  have plain : files.isDirectory (home ++ [shelfName key] ++ [payloadName key]) = false :=
    lies ▸ shelved.plain nofun
  have apart (path : Path) (payload : Payloads home (fun name => name ≠ payloadName key) path) :
      path ≠ home ++ [shelfName key, payloadName key] := by
    obtain ⟨shelf, name, rfl, unlike⟩ := payload
    exact fun same => unlike (List.cons.inj (List.cons.inj (List.append_cancel_left same)).2).1
  have above (last : String) : home ++ [last] ≠ home ++ [shelfName key, payloadName key] := by
    intro same
    cases List.append_cancel_left same
  refine succeeds_attempt ?_
  cases there : files.isThere (home ++ [shelfName key] ++ [payloadName key]) with
  | true =>
      have ended := names.removeFile_eq quiet there plain
      rw [lies] at ended plain
      refine (leads_of_eq (run_onFiles ended)).mpr ⟨rfl, shelved.counted.discard nofun,
        fun last => node?_discard_other files.counted (above last), ?_⟩
      have keeps := (keeps_discard files.counted plain).mono apart
      exact (extends_counted files).weaken.trans keeps
  | false =>
      have failed := names.removeFile_eq_of_missing quiet there
      exact (leads_of_eq (run_onFiles_of_error failed)).mpr
        ⟨rfl, shelved.counted, fun _ => rfl, (extends_counted files).weaken⟩

/-- The files of several keys are gone, and those of other names are left alone. -/
theorem removeFiles_succeeds (vacant : Vacant opened settings.root home) {gone : List String}
    (shelved : Shelved opened home files)
    (directories : ∀ key ∈ gone, files.isDirectory (home ++ [shelfName key]) = true)
    (book : DiskBook) :
    Succeeds faults ((gone.map fileFor).forM (removeFileOf settings)) ⟨book, files⟩ fun _ after =>
      after.book = book ∧ Shelved opened home after.files ∧
        (∀ last, after.files.node? (home ++ [last]) = files.node? (home ++ [last])) ∧
          Keeps (Payloads home fun name => ∀ key ∈ gone, name ≠ payloadName key)
            files after.files := by
  induction gone generalizing files with
  | nil => exact succeeds_pure ⟨rfl, shelved, fun _ => rfl, .refl _ _⟩
  | cons key rest induction =>
      have first := directories key List.mem_cons_self
      refine Succeeds.bind ((removeFileOf_succeeds vacant shelved first book).imp ?_)
      rintro _ ⟨_, middle⟩ ⟨rfl, shelved, same, keeps⟩
      refine (induction shelved fun other member =>
        keeps.directory _ (directories other (List.mem_cons_of_mem _ member))).imp ?_
      rintro _ after ⟨unchanged, shelved, still, later⟩
      refine ⟨unchanged, shelved, fun last => (still last).trans (same last), Keeps.trans (keeps.mono ?_) (later.mono ?_)⟩
      · exact fun _ payload => payload.imp fun _ spared => spared key List.mem_cons_self
      · exact fun _ payload => payload.imp fun _ spared other member =>
          spared other (List.mem_cons_of_mem _ member)

/-! ## Directories of payload files -/

/-- The index file is in no directory of payload files. -/
theorem not_prefix_indexFile {shelf : String} (short : utf8Length shelf = 2) :
    ¬home ++ [shelf] <+: home ++ ["metadata.json"] := by
  rw [List.prefix_append_right_inj]
  rintro ⟨rest, same⟩
  rw [(List.cons.inj same).1] at short
  exact absurd short (by decide)

/-- Whatever is in them, directories of payload files can be removed, and nothing else goes. -/
theorem removeShelves_succeeds (vacant : Vacant opened settings.root home)
    (shelved : Shelved opened home files) {names : List String} (nodup : names.Nodup)
    (each : ∀ name ∈ names, utf8Length name = 2 ∧ files.isThere (home ++ [name]) = true)
    (book : DiskBook) :
    Succeeds faults ((names.map (FileName.join settings.root)).forM fun shelf =>
      onFiles (removeTree shelf)) ⟨book, files⟩ fun _ after =>
        after.book = book ∧ Shelved opened home after.files ∧
          (∀ path, (∀ name ∈ names, ¬home ++ [name] <+: path) →
            after.files.node? path = files.node? path) ∧
          ∀ name ∈ names, ∀ path, home ++ [name] <+: path → after.files.node? path = none := by
  induction names generalizing files with
  | nil => exact succeeds_pure ⟨rfl, shelved, fun _ _ => rfl, nofun⟩
  | cons name names induction =>
      obtain ⟨fresh, apart⟩ := List.nodup_cons.mp nodup
      obtain ⟨short, there⟩ := each name List.mem_cons_self
      obtain ⟨directory, key, rfl⟩ := shelved.shelves name short there
      have room := vacant.short
      have two : (shelfName key).utf8ByteSize = 2 := short
      have named := (shelved.holds vacant).names (plain_shelfName key) (by omega)
      have ended := named.removeTree_eq (shelved.quiet vacant) directory
      have beside {other : String} (different : shelfName key ≠ other) :
          ¬home ++ [shelfName key] <+: home ++ [other] := by
        rw [List.prefix_append_right_inj]
        rintro ⟨rest, same⟩
        exact different (List.cons.inj same).1
      refine Succeeds.bind (succeeds_onFiles ended ?_)
      refine (induction (shelved.counted.cleared vacant (shelfName key)) apart ?_).imp ?_
      · intro other member
        obtain ⟨small, stands⟩ := each other (List.mem_cons_of_mem _ member)
        refine ⟨small, ?_⟩
        rw [isThere, node?_cleared_apart files.counted (beside fun same => fresh (same ▸ member))]
        exact stands
      · rintro _ after ⟨unchanged, shelved, still, gone⟩
        refine ⟨unchanged, shelved, fun path spared => ?_, fun other member path below => ?_⟩
        · refine (still path fun other member => spared other (List.mem_cons_of_mem _ member)).trans ?_
          exact node?_cleared_apart files.counted (spared _ List.mem_cons_self)
        · rcases List.mem_cons.mp member with rfl | later
          · by_cases twice : ∃ own ∈ names, home ++ [own] <+: path
            · obtain ⟨own, among, under⟩ := twice
              exact gone own among path under
            · refine (still path fun own among under => twice ⟨own, among, under⟩).trans ?_
              exact node?_cleared_below files.counted (by simp) below
          · exact gone other later path below

/-- The directory of a payload file is listed as such. -/
theorem mem_shelves (vacant : Vacant opened settings.root home) (shelved : Shelved opened home files)
    (directory : files.isDirectory (home ++ [shelfName key]) = true) :
    shelfName key ∈ ((files.children home).filter isShelfName).filter
      ((fun shelf => (files.named? shelf).any Node.isDirectory) ∘ FileName.join settings.root) := by
  have short := vacant.short
  have two : (shelfName key).utf8ByteSize = 2 := utf8Length_shelfName key
  have names := (shelved.holds vacant).names (plain_shelfName key) (by omega)
  have there := isThere_of_isDirectory directory
  refine List.mem_filter.mpr ⟨List.mem_filter.mpr ⟨mem_children_of_isThere there, beq_iff_eq.mpr two⟩, ?_⟩
  rw [Function.comp_apply, named?, names.find there]
  exact directory

/-- All directories of payload files go, and everything else stays. -/
theorem clearShelves_succeeds (vacant : Vacant opened settings.root home)
    (shelved : Shelved opened home files) (book : DiskBook) :
    Succeeds faults (do
      let names ← onFiles (list settings.root)
      let files := (← getThe DiskWorld).files
      let shelves := (names.filter isShelfName).map (FileName.join settings.root)
      (shelves.filter fun shelf => (files.named? shelf).any Node.isDirectory).forM fun shelf =>
        onFiles (removeTree shelf)) ⟨book, files⟩ fun _ after =>
      after.book = book ∧ Shelved opened home after.files ∧
        (∀ path, after.files.isThere path = true → after.files.node? path = files.node? path) ∧
        after.files.node? (home ++ ["metadata.json"]) = files.node? (home ++ ["metadata.json"]) ∧
        ∀ key last, files.isDirectory (home ++ [shelfName key]) = true →
          after.files.node? (home ++ [shelfName key, last]) = none := by
  have listed := (shelved.holds vacant).list_eq (shelved.quiet vacant)
  refine Succeeds.bind (succeeds_onFiles listed (Succeeds.bind (succeeds_getThe ?_)))
  dsimp only
  rw [List.filter_map]
  have each : ∀ name ∈ ((files.children home).filter isShelfName).filter
      ((fun shelf => (files.counted.named? shelf).any Node.isDirectory) ∘ FileName.join settings.root),
      utf8Length name = 2 ∧ files.counted.isThere (home ++ [name]) = true := by
    intro name member
    obtain ⟨among, short⟩ := List.mem_filter.mp (List.mem_of_mem_filter member)
    exact ⟨eq_of_beq short, isThere_of_mem_children (shelved.separate []) among⟩
  have nodup := ((shelved.separate []).names_nodup.filter isShelfName).filter
    ((fun shelf => (files.counted.named? shelf).any Node.isDirectory) ∘ FileName.join settings.root)
  refine (removeShelves_succeeds vacant shelved.counted nodup each book).imp ?_
  rintro _ after ⟨unchanged, still, spared, gone⟩
  refine ⟨unchanged, still, fun path there => ?_, ?_, fun key last directory => ?_⟩
  · refine spared path fun name member below => ?_
    rw [isThere, gone name member path below] at there
    cases there
  · exact spared _ fun name member => not_prefix_indexFile (each name member).1
  · refine gone _ (mem_shelves vacant shelved.counted directory) _ ?_
    rw [← append_pair]
    exact List.prefix_append _ _

end TierVault.DiskStore
