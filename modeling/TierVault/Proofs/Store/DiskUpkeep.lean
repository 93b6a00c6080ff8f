import TierVault.Proofs.Store.Agreement
import TierVault.Proofs.Store.DiskTending

/-!
What the calls of a disk store keep up between its index and the files below its directory.

Each record has a file of its own, and tells its length and its format. Beside these files there is only that of
the index: a write that fails takes its temporary file away, and a key that leaves takes its payload file along.
This is so after every call, whatever it answered. Reads change no key, so the index file lists the keys of the
index even when its records are no longer what they are in the file.
-/

namespace TierVault

open FileSystem StoreAction TierVault.Action

/-- The format of a payload file, as what is in it shows it. -/
def Node.format? : Node → Option PayloadFormat
  | .file _ => some .binary
  | .columnar _ => some .columnar
  | _ => none

/-- A file of that length and that format. -/
structure Node.Measures (node : Node) (length : Nat) (format : PayloadFormat) : Prop where
  length : node.length? = some length
  format : node.format? = some format

theorem Node.Measures.plain {node : Node} {length : Nat} {format : PayloadFormat}
    (measures : node.Measures length format) : node.isDirectory = false := by
  cases node with
  | directory => cases measures.length
  | _ => rfl

/-- The call has changed the store, and told so: a put or a clear was answered, or a delete has removed
something. -/
def StoreEvent.changed : StoreEvent → Bool
  | ⟨.put .., .ok _⟩ | ⟨.clear, .ok _⟩ | ⟨.delete _, .ok true⟩ => true
  | _ => false

namespace DiskStore

variable {faults : Fault → Prop} {settings : DiskSettings} {opened files after : FileSystem}
  {home path : Path} {known keys : List String} {step rest : Nat} {key : String} {value : Value}
  {world : DiskWorld} {book : DiskBook} {records : Keyed String DiskRecord}
  {pair : String × DiskRecord} {changed kind more : Path → Prop}

/-! ## Plain files -/

/-- The plain files below the directory are of one kind, or that of the index. -/
def Only (home : Path) (kind : Path → Prop) (files : FileSystem) : Prop :=
  ∀ name rest, files.isThere (home ++ name :: rest) = true →
    files.isDirectory (home ++ name :: rest) = true ∨ home ++ name :: rest = home ++ ["metadata.json"] ∨
      kind (home ++ name :: rest)

/-- Files that were there are of the new kind unless they changed, and those that changed are, or are gone. -/
theorem Only.alter (only : Only home kind files)
    (others : ∀ path, ¬changed path → after.node? path = files.node? path)
    (spared : ∀ path, ¬changed path → kind path → more path)
    (now : ∀ path, changed path → after.isDirectory path = true ∨ after.node? path = none ∨
      path = home ++ ["metadata.json"] ∨ more path) : Only home more after := by
  intro name rest there
  by_cases own : changed (home ++ name :: rest)
  · rcases now _ own with directory | gone | kept
    · exact .inl directory
    · rw [isThere, gone] at there
      cases there
    · exact .inr kept
  · have same := others _ own
    rw [isThere, same] at there
    rw [isDirectory, same]
    exact (only name rest there).imp_right (.imp_right (spared _ own))

/-- The place of a payload file of one of the keys. -/
def Belongs (home : Path) (keys : List String) (path : Path) : Prop :=
  ∃ key ∈ keys, path = payloadPath home key

/-! ## Records and their files -/

/-- The record has the file of its key, and tells its length and its format. -/
structure Described (home : Path) (files : FileSystem) (pair : String × DiskRecord) : Prop where
  file : pair.2.file = fileFor pair.1
  directory : files.isDirectory (shelfPath home pair.1) = true
  payload : ∃ node, files.node? (payloadPath home pair.1) = some node ∧
    node.Measures pair.2.storedBytes pair.2.format

theorem Described.alter (described : Described home files pair)
    (others : ∀ path, ¬changed path → after.node? path = files.node? path)
    (spared : ¬changed (payloadPath home pair.1))
    (directory : changed (shelfPath home pair.1) → after.isDirectory (shelfPath home pair.1) = true) :
    Described home after pair where
  file := described.file
  directory := by
    by_cases own : changed (shelfPath home pair.1)
    · exact directory own
    · rw [isDirectory, others _ own]
      exact described.directory
  payload := by
    rw [others _ spared]
    exact described.payload

/-- Each record has a file of its own, and there are no other files. -/
structure Matches (home : Path) (records : Keyed String DiskRecord) (files : FileSystem) : Prop where
  distinct : Keyed.Distinct records
  described : ∀ pair ∈ records, Described home files pair
  only : Only home (Belongs home (Keyed.keys records)) files

theorem Matches.own (matched : Matches home records files) : OwnFiles records :=
  fun pair member => (matched.described pair member).file

theorem Matches.directory (matched : Matches home records files) (member : key ∈ Keyed.keys records) :
    files.isDirectory (shelfPath home key) = true := by
  obtain ⟨pair, there, rfl⟩ := List.mem_map.mp member
  exact (matched.described pair there).directory

/-- What changes are directories, temporary files that are gone, and the index file. -/
theorem Matches.alter (matched : Matches home records files)
    (others : ∀ path, ¬changed path → after.node? path = files.node? path)
    (spared : ∀ key, ¬changed (payloadPath home key))
    (directory : ∀ key, changed (shelfPath home key) → after.isDirectory (shelfPath home key) = true)
    (now : ∀ path, changed path → after.isDirectory path = true ∨ after.node? path = none ∨
      path = home ++ ["metadata.json"]) : Matches home records after where
  distinct := matched.distinct
  described pair member := (matched.described pair member).alter others (spared _) (directory _)
  only := matched.only.alter others (fun _ _ belongs => belongs)
    fun path own => (now path own).imp_right (.imp_right .inl)

/-- The index file lists the keys. -/
def Lists (home : Path) (keys : List String) (files : FileSystem) : Prop :=
  ∃ index, Filed home index files ∧ Keyed.keys index.records = keys ∧ index.Words

theorem Lists.of_node? (lists : Lists home keys files)
    (same : after.node? (home ++ ["metadata.json"]) = files.node? (home ++ ["metadata.json"])) :
    Lists home keys after := by
  obtain ⟨index, filed, told⟩ := lists
  exact ⟨index, filed.of_node? same, told⟩

/-- Index and files tell the same, and the counts stay words through so many more calls. -/
structure Upkept (opened : FileSystem) (home : Path) (known : List String) (faults : Fault → Prop)
    (step rest : Nat) (world : DiskWorld) : Prop where
  shelved : Shelved opened home world.files
  matched : Matches home world.book.index.records world.files
  lists : Lists home (Keyed.keys world.book.index.records) world.files
  words : world.book.index.Words
  known : ∀ key ∈ Keyed.keys world.book.index.records, key ∈ known
  book : BoundedBook faults step rest world.book
  sizes : Bounded faults step rest (Keyed.weigh DiskRecord.size world.book.index.records)

theorem Upkept.later (upkept : Upkept opened home known faults step (rest + 1) world) :
    Upkept opened home known faults step rest world :=
  { upkept with book := upkept.book.later, sizes := upkept.sizes.later }

/-- Only files changed, and not that of the index. -/
theorem Upkept.alter (upkept : Upkept opened home known faults step rest world)
    (touches : Touches opened home changed world.files after) (index : ¬changed (home ++ ["metadata.json"]))
    (matched : Matches home world.book.index.records after) :
    Upkept opened home known faults step rest ⟨world.book, after⟩ :=
  { upkept with
    shelved := touches.shelved
    matched := matched
    lists := upkept.lists.of_node? (touches.others _ index) }

/-- Fewer records, and the index is saved. -/
theorem Upkept.shrink (upkept : Upkept opened home known faults step (rest + 1) world)
    {fewer : Keyed String DiskRecord} (sublist : fewer.Sublist world.book.index.records)
    (shelved : Shelved opened home after) (matched : Matches home fewer after)
    (saved : after.node? (home ++ ["metadata.json"]) =
      some (.file { world.book.index with records := fewer }.text)) :
    Upkept opened home known faults step rest
      ⟨⟨{ world.book.index with records := fewer }, false, world.book.transfers⟩, after⟩ where
  shelved := shelved
  matched := matched
  lists := ⟨_, .inl saved, rfl, upkept.words.fewer sublist.subset⟩
  words := upkept.words.fewer sublist.subset
  known key member := upkept.known key ((sublist.map Prod.fst).subset member)
  book := upkept.book.later.change false fun _ member => sublist.subset member
  sizes := upkept.sizes.later.of_le (sumOf_sublist (sublist.map _))

/-- A record comes, victims of its write leave, and the index is saved. -/
theorem Upkept.admit (upkept : Upkept opened home known faults step (rest + 1) world) {record : DiskRecord}
    {gone : List String} (member : key ∈ known) (small : record.size ≤ step)
    (told : book.index.records =
      Keyed.put key record (world.book.index.records.filter fun pair => !gone.contains pair.1))
    (bounded : BoundedBook faults step rest book) (words : book.index.Words)
    (shelved : Shelved opened home after) (matched : Matches home book.index.records after)
    (saved : after.node? (home ++ ["metadata.json"]) = some (.file book.index.text)) :
    Upkept opened home known faults step rest ⟨⟨book.index, false, book.transfers⟩, after⟩ where
  shelved := shelved
  matched := matched
  lists := ⟨_, .inl saved, rfl, words⟩
  words := words
  known other there := by
    rw [told, Keyed.mem_keys_put] at there
    exact there.elim (fun same => same ▸ member) fun before =>
      upkept.known other ((List.filter_sublist.map Prod.fst).subset before)
  book := bounded.change false fun _ among => among
  sizes := by
    have fewer : Keyed.weigh DiskRecord.size (world.book.index.records.filter fun pair =>
        !gone.contains pair.1) ≤ Keyed.weigh DiskRecord.size world.book.index.records :=
      sumOf_sublist (List.filter_sublist.map _)
    refine (upkept.sizes.add small).of_le ?_
    change Keyed.weigh DiskRecord.size book.index.records ≤ _
    rw [told]
    exact (Keyed.weigh_put_le ..).trans (Nat.add_le_add_right fewer _)

/-! ## Payloads -/

section Payloads

variable (vacant : Vacant opened settings.root home) (shelved : Shelved opened home world.files)
  {encoded : Bytes} (encodes : value.encode = .ok encoded)

include vacant shelved encodes

/-- What was written tells the length and the format of the temporary file. -/
theorem leads_measuredDraft (directory : world.files.isDirectory (shelfPath home key) = true) :
    Leads faults (writeDraft settings (draftFor settings key) value).run world fun answer after =>
      after.book = world.book ∧ Touches opened home (· = draftPath home key) world.files after.files ∧
        ∀ written, answer = .ok written → written.storedBytes ≤ load value ∧ ∃ node,
          after.files.node? (draftPath home key) = some node ∧
            node.Measures written.storedBytes written.format := by
  unfold writeDraft
  cases chosen : value.table?.filter fun table => settings.columnar && Columnar.supports table with
  | none =>
      obtain ⟨kept, computed, -, shorter⟩ := binaryContent_eq settings encodes
      obtain ⟨after, wrote, touches, stands⟩ :=
        touches_writeDraft vacant shelved directory (.file kept.1) rfl
      refine Succeeds.leads_bind (succeeds_ofExcept computed ?_)
      refine leads_run_bind ((leads_of_eq (run_onFiles wrote)).mpr ⟨rfl, touches, fun written ended => ?_⟩)
      cases ended
      refine ⟨?_, _, stands, rfl, rfl⟩
      rw [load, Value.weight_of_encode encodes]
      exact Nat.le_add_right_of_le shorter
  | some table =>
      obtain ⟨content, -⟩ := Option.filter_eq_some_iff.mp chosen
      obtain ⟨middle, began, first, -⟩ := touches_writeDraft vacant shelved directory (.file []) rfl
      refine leads_run_bind ((leads_of_eq (run_onFiles began)).mpr (leads_run_bind (leads_ofExcept_run ?_)))
      cases computed : Columnar.write table
          (if settings.compress then some settings.compressor.level else none) with
      | error error =>
          refine ⟨rfl, first, fun written ended => ?_⟩
          cases ended
      | ok file =>
          have still := first.directory (shelfPath_ne home key _ _) directory
          obtain ⟨after, wrote, second, stands⟩ :=
            touches_writeDraft vacant first.shelved still (.columnar file) rfl
          refine leads_run_bind ((leads_of_eq (run_onFiles wrote)).mpr ?_)
          refine ⟨rfl, first.trans second, fun written ended => ?_⟩
          cases ended
          refine ⟨?_, _, stands, rfl, rfl⟩
          rw [load, content, Columnar.eq_of_write computed]
          exact Nat.le_add_left _ _

end Payloads

/-- A payload is in its place, or all payloads are as they were. The temporary file is gone in both cases. -/
inductive PayloadSettles (opened : FileSystem) (home : Path) (key : String) (value : Value)
    (files : FileSystem) : Except StoreError WrittenPayload → FileSystem → Prop
  | failed {after : FileSystem} (error : StoreError)
      (touches : Touches opened home (BesidePayload home key) files after)
      (directory : after.isDirectory (shelfPath home key) = true)
      (noDraft : after.node? (draftPath home key) = none) :
      PayloadSettles opened home key value files (.error error) after
  | written {after : FileSystem} (written : WrittenPayload) (node : Node)
      (touches : Touches opened home (fun path => BesidePayload home key path ∨ path = payloadPath home key)
        files after)
      (directory : after.isDirectory (shelfPath home key) = true)
      (noDraft : after.node? (draftPath home key) = none)
      (stands : after.node? (payloadPath home key) = some node)
      (measures : node.Measures written.storedBytes written.format)
      (light : written.storedBytes ≤ load value) :
      PayloadSettles opened home key value files (.ok written) after

theorem run_writePayload (vacant : Vacant opened settings.root home)
    (shelved : Shelved opened home world.files) (key : String) {encoded : Bytes}
    (encodes : value.encode = .ok encoded) :
    ∃ answer after, (writePayload settings key value).run world = .ok answer after ∧
      after.book = world.book ∧ PayloadSettles opened home key value world.files answer after.files := by
  have prepared := touches_makeDirectories vacant shelved key
  unfold writePayload
  -- The name must not be computed.
  generalize directoryFor settings key = name at prepared ⊢
  obtain ⟨middle, made, first, directory⟩ := prepared
  refine Leads.ends ?_ fun _ => id
  refine leads_run_bind ((leads_of_eq (run_onFiles made)).mpr (leads_tryCatch (leads_run_bind ?_)))
  refine (leads_measuredDraft vacant first.shelved encodes directory).imp ?_
  rintro answer ⟨_, drawn⟩ - ⟨rfl, drafted, written⟩
  have second : Touches opened home (BesidePayload home key) world.files drawn :=
    (first.mono fun path => .inl).trans (drafted.mono fun path => .inr)
  have still := drafted.directory (shelfPath_ne home key _ _) directory
  cases answer with
  | error error =>
      obtain ⟨after, removed, third, gone⟩ := touches_removeDraft vacant drafted.shelved still world.book
      refine leads_run_bind ((leads_of_eq removed).mpr ⟨rfl, .failed error ?_ ?_ gone⟩)
      · exact second.trans (third.mono fun path => .inr)
      · exact third.directory (shelfPath_ne home key _ _) still
  | ok payload =>
      obtain ⟨light, node, stands, measures⟩ := written payload rfl
      obtain ⟨after, moved, third, there, gone⟩ :=
        touches_placePayload vacant drafted.shelved still stands measures.plain
      refine leads_run_bind ((leads_of_eq (run_onFiles moved)).mpr ⟨rfl, ?_⟩)
      refine .written payload node ?_ ?_ gone there measures light
      · exact (second.mono fun path => .inl).trans (third.mono fun path => .imp_left .inr)
      · refine third.directory ?_ still
        rintro (same | same) <;> exact shelfPath_ne home key _ _ same

/-- The payload files of keys whose directories are there are gone, and no others. -/
theorem touches_removeFiles (vacant : Vacant opened settings.root home)
    (shelved : Shelved opened home files) {gone : List String}
    (directories : ∀ key ∈ gone, files.isDirectory (shelfPath home key) = true) (book : DiskBook) :
    ∃ after, ((gone.map fileFor).forM (removeFileOf settings)).run ⟨book, files⟩ =
        .ok (.ok ()) ⟨book, after⟩ ∧
      Touches opened home (Belongs home gone) files after ∧
        ∀ path, Belongs home gone path → after.node? path = none := by
  induction gone generalizing files with
  | nil => exact ⟨files, rfl, .refl _ shelved, fun path ⟨_, member, _⟩ => nomatch member⟩
  | cons key later induction =>
      obtain ⟨middle, removed, first, missing⟩ :=
        touches_removeFile vacant shelved (directories key List.mem_cons_self) book
      obtain ⟨after, ended, second, absent⟩ := induction first.shelved fun other member =>
        first.directory (shelfPath_ne home other _ _) (directories other (List.mem_cons_of_mem _ member))
      refine ⟨after, ?_, (first.mono ?_).trans (second.mono ?_), ?_⟩
      · exact (run_bind_of_ok removed).trans ended
      · exact fun path own => ⟨key, List.mem_cons_self, own⟩
      · exact fun path ⟨other, member, own⟩ => ⟨other, List.mem_cons_of_mem _ member, own⟩
      · rintro path ⟨other, member, rfl⟩
        by_cases twice : Belongs home later (payloadPath home other)
        · exact absent _ twice
        · rw [second.others _ twice]
          rcases List.mem_cons.mp member with rfl | among
          · exact missing
          · exact absurd ⟨other, among, rfl⟩ twice

/-! ## Changes of the records -/

section Changes

variable (apart : ∀ left ∈ known, ∀ right ∈ known, payloadName left = payloadName right → left = right)
  (matched : Matches home records files) (knows : ∀ key ∈ Keyed.keys records, key ∈ known)

include apart matched knows

/-- Records leave together with their files. -/
theorem Matches.fewer (keep : String → Bool) {gone : List String}
    (leaves : ∀ key, key ∈ gone ↔ key ∈ Keyed.keys records ∧ keep key = false)
    (touches : Touches opened home (Belongs home gone) files after)
    (absent : ∀ path, Belongs home gone path → after.node? path = none) :
    Matches home (records.filter fun pair => keep pair.1) after where
  distinct := (List.filter_sublist.map Prod.fst).nodup matched.distinct
  described pair member := by
    obtain ⟨there, kept⟩ := List.mem_filter.mp member
    refine (matched.described pair there).alter touches.others ?_ ?_
    · rintro ⟨other, left, same⟩
      obtain ⟨before, dropped⟩ := (leaves other).mp left
      have own := apart _ (knows _ (List.mem_map_of_mem there)) _ (knows _ before)
        (payloadName_eq_of_path_eq same)
      rw [own, dropped] at kept
      cases kept
    · rintro ⟨other, -, same⟩
      exact absurd same (shelfPath_ne home pair.1 _ _)
  only := by
    refine matched.only.alter touches.others ?_ fun path own => .inr (.inl (absent path own))
    rintro path spared ⟨key, member, rfl⟩
    refine ⟨key, Keyed.mem_keys_filter_fst.mpr ⟨member, ?_⟩, rfl⟩
    refine Bool.not_eq_false _ ▸ fun dropped => spared ⟨key, (leaves key).mpr ⟨member, dropped⟩, rfl⟩

/-- A record comes together with its file. -/
theorem Matches.put {record : DiskRecord} {node : Node} (member : key ∈ known)
    (touches : Touches opened home (fun path => BesidePayload home key path ∨ path = payloadPath home key)
      files after)
    (directory : after.isDirectory (shelfPath home key) = true)
    (noDraft : after.node? (draftPath home key) = none)
    (stands : after.node? (payloadPath home key) = some node) (file : record.file = fileFor key)
    (measures : node.Measures record.storedBytes record.format) :
    Matches home (Keyed.put key record records) after where
  distinct := matched.distinct.put key record
  described pair there := by
    by_cases own : pair.1 = key
    · have same := (matched.distinct.put key record).find?_of_mem there
      rw [own, Keyed.find?_put_same] at same
      obtain ⟨_, held⟩ := pair
      cases own
      cases same
      exact ⟨file, directory, node, stands, measures⟩
    · have before := (Keyed.mem_of_mem_put there).resolve_left fun same => own (congrArg Prod.fst same)
      refine (matched.described pair before).alter touches.others ?_ ?_
      · rintro (beside | same)
        · exact not_besidePayload_payloadPath home key pair.1 beside
        · exact own (apart _ (knows _ (List.mem_map_of_mem before)) _ member (payloadName_eq_of_path_eq same))
      · rintro ((same | same) | same)
        · rw [same]
          exact directory
        · exact absurd same (shelfPath_ne home pair.1 _ _)
        · exact absurd same (shelfPath_ne home pair.1 _ _)
  only := by
    refine matched.only.alter touches.others ?_ ?_
    · rintro path - ⟨other, there, rfl⟩
      exact ⟨other, Keyed.mem_keys_put.mpr (.inr there), rfl⟩
    · rintro path ((rfl | rfl) | rfl)
      · exact .inl directory
      · exact .inr (.inl noDraft)
      · exact .inr (.inr (.inr ⟨key, Keyed.mem_keys_put.mpr (.inl rfl), rfl⟩))

omit matched in
/-- The record that came stays, and the victims of its write leave with their files. -/
theorem Matches.evict {record : DiskRecord} (member : key ∈ known) {gone : List String} (stays : key ∉ gone)
    (entered : Matches home (Keyed.put key record records) files)
    (touches : Touches opened home
      (Belongs home (Keyed.keys (records.filter fun pair => gone.contains pair.1))) files after)
    (absent : ∀ path, Belongs home (Keyed.keys (records.filter fun pair => gone.contains pair.1)) path →
      after.node? path = none) :
    Matches home (Keyed.put key record (records.filter fun pair => !gone.contains pair.1)) after := by
  have kept : (!gone.contains key) = true := by
    rw [Bool.not_eq_true', Bool.eq_false_iff]
    exact fun leaves => stays (List.contains_iff_mem.mp leaves)
  rw [← Keyed.filter_put (fun own => !gone.contains own) kept]
  refine entered.fewer apart (fun other there => ?_) (fun own => !gone.contains own) (fun other => ?_)
    touches absent
  · exact (Keyed.mem_keys_put.mp there).elim (fun same => same ▸ member) (knows other)
  · rw [Keyed.mem_keys_filter_fst, Keyed.mem_keys_put, Bool.not_eq_false']
    refine and_congr_left fun leaves => (or_iff_right ?_).symm
    rintro rfl
    exact stays (List.contains_iff_mem.mp leaves)

omit apart knows in
/-- The record tells the same of its file. -/
theorem Matches.renew {record used : DiskRecord} (found : Keyed.find? key records = some record)
    (file : used.file = record.file) (format : used.format = record.format)
    (stored : used.storedBytes = record.storedBytes) : Matches home (Keyed.put key used records) files where
  distinct := matched.distinct.put key used
  described pair member := by
    rcases Keyed.mem_of_mem_put member with rfl | before
    · have own := matched.described _ (Keyed.mem_of_find? found)
      exact ⟨file.trans own.file, own.directory, by simpa only [format, stored] using own.payload⟩
    · exact matched.described pair before
  only := by
    rw [Keyed.keys_put_of_find? found]
    exact matched.only

end Changes

/-! ## Calls -/

/-- A write that failed has left nothing but the directory. -/
theorem Matches.abandoned (matched : Matches home records files)
    (touches : Touches opened home (BesidePayload home key) files after)
    (directory : after.isDirectory (shelfPath home key) = true)
    (noDraft : after.node? (draftPath home key) = none) : Matches home records after := by
  refine matched.alter touches.others ?_ ?_ ?_
  · exact fun other => not_besidePayload_payloadPath home key other
  · rintro other (same | same)
    · rw [same]
      exact directory
    · exact absurd same (shelfPath_ne home other _ _)
  · rintro path (rfl | rfl)
    · exact .inl directory
    · exact .inr (.inl noDraft)

/-- What leaves no trace but directories and the index file leaves index and files as they match. -/
theorem Matches.persisted (matched : Matches home records files)
    (touches : Touches opened home (fun path => path = home ++ ["metadata.json.tmp"] ∨
      path = home ++ ["metadata.json"]) files after)
    (noDraft : after.node? (home ++ ["metadata.json.tmp"]) = none) : Matches home records after := by
  refine matched.alter touches.others (not_indexPlace_payloadPath home) ?_ ?_
  · exact fun key own => absurd own (not_indexPlace_shelfPath home key)
  · rintro path (rfl | rfl)
    · exact .inr (.inl noDraft)
    · exact .inr (.inr rfl)

/-- The file of the index is there. -/
def IndexThere (home : Path) (files : FileSystem) : Prop := files.isThere (home ++ ["metadata.json"]) = true

section Steps

variable (vacant : Vacant opened settings.root home)
  (apart : ∀ left ∈ known, ∀ right ∈ known, payloadName left = payloadName right → left = right)

include vacant apart

/-- With its payload in place, the write's record comes into the index, and its victims leave with their files. -/
theorem leads_commit_upkept (now : opened.seconds < Word.limit) (some : 1 ≤ step)
    (upkept : Upkept opened home known faults step (rest + 1) world) (member : key ∈ known) {size : Nat}
    {gone : List String} (chosen : victims settings.budget world.book.index.records key size = .ok gone)
    (small : size ≤ step) {written : WrittenPayload} {node : Node}
    (touches : Touches opened home (fun path => BesidePayload home key path ∨ path = payloadPath home key)
      world.files files)
    (directory : files.isDirectory (shelfPath home key) = true)
    (noDraft : files.node? (draftPath home key) = none)
    (stands : files.node? (payloadPath home key) = .some node)
    (measures : node.Measures written.storedBytes written.format) (light : written.storedBytes ≤ step) :
    Succeeds faults (do
      let left ← commit key size gone written
      let persisted ← ExceptT.lift (persist settings).run
      left.forM (removeFileOf settings)
      .ofExcept id persisted : DiskAction Unit) ⟨world.book, files⟩ fun _ after =>
        Upkept opened home known faults step rest after ∧ IndexThere home after.files := by
  refine Succeeds.bind ((commit_succeeds upkept.book some light files).imp ?_)
  rintro _ ⟨book, _⟩ ⟨rfl, rfl, bounded, record, ⟨file, rfl, format, stored, -⟩, index, dirty, words⟩
  obtain ⟨indexed, persisted, second, text, settled⟩ := touches_persist vacant touches.shelved dirty
  refine Succeeds.bind (Succeeds.lift (succeeds_of_eq persisted ?_))
  have entered : Matches home (Keyed.put key record world.book.index.records) indexed :=
    (upkept.matched.put apart upkept.known member touches directory noDraft stands file
      (by rwa [stored, format])).persisted second settled
  obtain ⟨after, removed, third, absent⟩ := touches_removeFiles vacant second.shelved (fun other leaving =>
    entered.directory (Keyed.mem_keys_put.mpr (.inr (Keyed.mem_keys_filter_fst.mp leaving).1)))
    ⟨book.index, false, book.transfers⟩
  have told : book.index.records = Keyed.put key record (world.book.index.records.filter fun pair =>
    !gone.contains pair.1) := congrArg DiskIndex.records index
  have remaining : Matches home book.index.records after :=
    told ▸ entered.evict apart upkept.known member (fun leaves => (other_of_mem_victims chosen leaves).1 rfl)
      third absent
  have saved := (third.others _ fun ⟨other, _, same⟩ =>
    not_indexPlace_payloadPath home other (.inr same.symm)).trans text
  rw [(upkept.matched.own.filter _).map_file]
  refine Succeeds.bind (succeeds_of_eq removed (succeeds_ofExcept rfl ⟨?_, isThere_of_node? saved⟩))
  have fits := words (lt_of_victims chosen) (touches.shelved.seconds ▸ now) upkept.words
  exact upkept.admit member small told bounded fits third.shelved remaining saved

/-- A write that fails before its record is committed leaves no trace. -/
theorem leads_put_upkept (now : opened.seconds < Word.limit) (some : 1 ≤ step)
    (upkept : Upkept opened home known faults step (rest + 1) world) (member : key ∈ known)
    (light : load value ≤ step) :
    Leads faults (put settings key value).run world fun answer after =>
      Upkept opened home known faults step rest after ∧
        (IndexThere home world.files ∨ answer = .ok () → IndexThere home after.files) := by
  unfold put
  refine leads_run_bind (leads_ofExcept_run ?_)
  cases sized : value.encodedSize with
  | error error => exact ⟨upkept.later, fun either => either.resolve_right nofun⟩
  | ok size =>
  obtain ⟨encoded, encodes, rfl⟩ := Value.encode_of_encodedSize sized
  dsimp only [Except.mapError]
  by_cases large : settings.budget < encoded.length
  · rw [if_pos large]
    refine (leads_of_eq (run_bind_of_failed (run_throw _ world))).mpr ?_
    exact ⟨upkept.later, fun either => either.resolve_right nofun⟩
  rw [if_neg large]
  have small : encoded.length ≤ step :=
    Value.weight_of_encode encodes ▸ Nat.le_trans (Nat.le_add_right _ _) light
  refine Succeeds.leads_bind (succeeds_records ?_)
  refine Succeeds.leads_bind (succeeds_checked ?_ ?_)
  · intro fault failed
    obtain ⟨rfl, exceeded⟩ := error_of_victims failed
    refine Classical.byContradiction fun unexpected => ?_
    exact absurd ((upkept.sizes.add small).fits unexpected) (Nat.not_lt.mpr exceeded)
  intro gone chosen
  have wrote := run_writePayload vacant upkept.shelved key encodes
  generalize writePayload settings key value = action at wrote ⊢
  obtain ⟨answer, ⟨_, drawn⟩, ended, rfl, settles⟩ := wrote
  rw [ExceptT.run_bind, leads_bind, leads_of_eq ended]
  cases settles with
  | failed error touches directory noDraft =>
      have index : ¬BesidePayload home key (home ++ ["metadata.json"]) :=
        fun beside => not_indexPlace_of_besidePayload beside (.inr rfl)
      have matched := upkept.matched.abandoned touches directory noDraft
      refine ⟨upkept.later.alter touches index matched, fun either => ?_⟩
      have before : IndexThere home world.files := either.resolve_right nofun
      exact (congrArg Option.isSome (touches.others _ index)).trans before
  | written written node touches directory noDraft stands measures lightly =>
      refine (leads_commit_upkept vacant apart now some upkept member chosen small touches directory noDraft
        stands measures (lightly.trans light)).leads.imp ?_
      rintro answer after - ⟨_, -, still, there⟩
      exact ⟨still, fun _ => there⟩

theorem delete_upkept (upkept : Upkept opened home known faults step (rest + 1) world) (key : String) :
    Succeeds faults (delete settings key) world fun answer after =>
      Upkept opened home known faults step rest after ∧
        (IndexThere home world.files ∨ answer = true → IndexThere home after.files) := by
  unfold delete
  refine Succeeds.bind (succeeds_records ?_)
  cases found : Keyed.find? key world.book.index.records with
  | none => exact succeeds_pure ⟨upkept.later, fun either => either.resolve_right nofun⟩
  | some record =>
      have there := Keyed.mem_of_find? found
      have described := upkept.matched.described _ there
      have dirty : DiskBook.dirty ⟨{ world.book.index with
        records := Keyed.remove key world.book.index.records }, true, world.book.transfers⟩ = true := rfl
      obtain ⟨indexed, persisted, first, told, settled⟩ := touches_persist vacant upkept.shelved dirty
      have still := (upkept.matched.persisted first settled).described _ there
      obtain ⟨after, removed, second, gone⟩ := touches_removeFile vacant first.shelved still.directory
        ⟨{ world.book.index with records := Keyed.remove key world.book.index.records }, false,
          world.book.transfers⟩
      refine Succeeds.bind (succeeds_changeBook (Succeeds.bind (succeeds_changeBook ?_)))
      refine Succeeds.bind (succeeds_of_eq persisted ?_)
      rw [described.file]
      have remaining : Matches home (Keyed.remove key world.book.index.records) after := by
        have single {path : Path} : Belongs home [key] path ↔ path = payloadPath home key := by
          simp [Belongs]
        have member : key ∈ Keyed.keys world.book.index.records := List.mem_map_of_mem there
        refine (upkept.matched.persisted first settled).fewer apart upkept.known (fun own => own ≠ key)
          (fun own => ?_) (second.mono fun path => single.mpr) fun path own => single.mp own ▸ gone
        rw [List.mem_singleton, decide_eq_false_iff_not, not_not, iff_and_self]
        exact fun same => same ▸ member
      have saved := (second.others _ fun same => not_indexPlace_payloadPath home key (.inr same.symm)).trans told
      refine Succeeds.bind (succeeds_of_eq removed (succeeds_pure ⟨?_, fun _ => isThere_of_node? saved⟩))
      exact upkept.shrink List.filter_sublist second.shelved remaining saved

omit apart in
theorem clear_upkept (upkept : Upkept opened home known faults step (rest + 1) world) :
    Succeeds faults (clear settings) world fun _ after =>
      Upkept opened home known faults step rest after ∧ IndexThere home after.files := by
  have dirty : DiskBook.dirty ⟨{ world.book.index with records := [] }, true, world.book.transfers⟩ = true :=
    rfl
  obtain ⟨indexed, persisted, first, told, settled⟩ := touches_persist vacant upkept.shelved dirty
  have before := upkept.matched.persisted first settled
  unfold clear
  refine Succeeds.bind (succeeds_changeBook (Succeeds.bind (succeeds_changeBook ?_)))
  refine Succeeds.bind (succeeds_of_eq persisted ?_)
  refine (clearShelves_succeeds vacant first.shelved _).imp ?_
  rintro _ ⟨_, after⟩ ⟨rfl, shelved, same, kept, gone⟩
  have saved := kept.trans told
  refine ⟨upkept.shrink (List.nil_sublist _) shelved ⟨List.nodup_nil, nofun, ?_⟩ saved,
    isThere_of_node? saved⟩
  intro name inner there
  have stands := same _ there
  have once : indexed.isThere (home ++ name :: inner) = true := by
    rwa [isThere, stands] at there
  rw [isDirectory, stands]
  refine (before.only name inner once).imp_right (.imp_right ?_)
  rintro ⟨key, member, lies⟩
  obtain ⟨pair, among, rfl⟩ := List.mem_map.mp member
  have absent := gone pair.1 (payloadName pair.1) (before.described pair among).directory
  rw [lies, isThere, payloadPath, absent] at there
  cases there

omit apart in
theorem leads_get_upkept (some : 1 ≤ step)
    (upkept : Upkept opened home known faults step (rest + 1) world) (key : String) :
    Leads faults (get settings key).run world fun _ after =>
      Upkept opened home known faults step rest after ∧
        (IndexThere home world.files → IndexThere home after.files) := by
  unfold get
  refine Succeeds.leads_bind (succeeds_records ?_)
  cases found : Keyed.find? key world.book.index.records with
  | none => exact ⟨upkept.later, id⟩
  | some record =>
      have described := upkept.matched.described _ (Keyed.mem_of_find? found)
      obtain ⟨node, stands, -⟩ := described.payload
      have has : world.files.has (FileName.join settings.root record.file) = true := by
        rw [described.file]
        exact (has_payload vacant upkept.shelved described.directory).trans (isThere_of_node? stands)
      refine Succeeds.leads_bind (succeeds_getThe ?_)
      simp only [has, Bool.not_true, Bool.false_eq_true, if_false]
      refine leads_run_bind ((leads_readPayload settings _ record.format).imp ?_)
      rintro answer ⟨_, looked⟩ - ⟨rfl, recounts⟩
      have touches : Touches opened home (fun _ => False) world.files looked :=
        .of_recounts _ upkept.shelved recounts
      have index : IndexThere home world.files → IndexThere home looked :=
        (congrArg Option.isSome (touches.others _ id)).trans
      have matched : Matches home world.book.index.records looked :=
        upkept.matched.alter touches.others (fun _ => id) (fun _ => False.elim) fun _ => False.elim
      have still := upkept.alter touches id matched
      cases answer with
      | error error => exact ⟨still.later, index⟩
      | ok value =>
          refine Succeeds.leads_bind ((noteRead_succeeds still.book some found looked).imp ?_)
          rintro _ ⟨book, _⟩ ⟨rfl, bounded, used, ⟨file, size, format, stored, -⟩, told, -, words⟩
          have same : book.index.records = Keyed.put key used world.book.index.records :=
            congrArg DiskIndex.records told
          have keys : Keyed.keys book.index.records = Keyed.keys world.book.index.records :=
            same ▸ Keyed.keys_put_of_find? found
          refine ⟨⟨still.shelved, same ▸ matched.renew found file format stored, ?_, words still.words, ?_,
            bounded, ?_⟩, index⟩
          · exact keys ▸ still.lists
          · exact keys ▸ still.known
          · have weight := Keyed.weigh_put_of_find? DiskRecord.size used found
            rw [size] at weight
            change Bounded faults step rest (Keyed.weigh DiskRecord.size book.index.records)
            rw [same, Nat.add_right_cancel weight]
            exact still.later.sizes

/-- Whatever is called, index and files go on to tell the same. -/
theorem leads_call_upkept (now : opened.seconds < Word.limit) (some : 1 ≤ step)
    (upkept : Upkept opened home known faults step (rest + 1) world) {call : StoreCall}
    (knows : ∀ key ∈ call.written?, key ∈ known) (light : call.load ≤ step) :
    Leads faults (call.run (store settings)).run world fun answer after =>
      Upkept opened home known faults step rest after ∧
        (IndexThere home world.files ∨ StoreEvent.changed ⟨call, answer⟩ = true →
          IndexThere home after.files) := by
  cases call with
  | get key =>
      refine (leads_get_upkept vacant some upkept key).imp ?_
      rintro answer after - ⟨still, there⟩
      exact ⟨still, fun either => there (either.resolve_right Bool.false_ne_true)⟩
  | put key value =>
      refine (leads_put_upkept vacant apart now some upkept (knows key rfl) light).imp ?_
      rintro answer after - ⟨still, there⟩
      refine ⟨still, fun either => there (either.imp_right fun changed => ?_)⟩
      cases answer with
      | ok => rfl
      | error error => cases changed
  | delete key =>
      refine (delete_upkept vacant apart upkept key).leads.imp ?_
      rintro _ after - ⟨was, rfl, still, there⟩
      refine ⟨still, fun either => there (either.imp_right fun changed => ?_)⟩
      cases was with
      | true => rfl
      | false => cases changed
  | clear =>
      refine (clear_upkept vacant upkept).leads.imp ?_
      rintro _ after - ⟨_, rfl, still, there⟩
      exact ⟨still, fun _ => there⟩
  | has key => exact ⟨upkept.later, fun either => either.resolve_right Bool.false_ne_true⟩
  | entries => exact ⟨upkept.later, fun either => either.resolve_right Bool.false_ne_true⟩
  | size =>
      have summed : Succeeds faults DiskStore.size world fun _ after => after = world := by
        refine Succeeds.bind (succeeds_records (succeeds_checked (fun fault failed => ?_) fun _ _ => rfl))
        obtain ⟨rfl, large⟩ := Word.total_error failed
        exact Classical.byContradiction fun unexpected =>
          absurd (upkept.sizes.fits unexpected) (Nat.not_lt.mpr large)
      refine summed.leads.imp ?_
      rintro _ after - ⟨_, rfl, rfl⟩
      exact ⟨upkept.later, fun either => either.resolve_right Bool.false_ne_true⟩

theorem leads_runAll_upkept (now : opened.seconds < Word.limit) (some : 1 ≤ step) {calls : List StoreCall}
    (upkept : Upkept opened home known faults step calls.length world)
    (knows : ∀ call ∈ calls, ∀ key ∈ call.written?, key ∈ known) (light : ∀ call ∈ calls, call.load ≤ step) :
    Leads faults ((store settings).runAll calls) world fun history final =>
      Upkept opened home known faults step 0 final ∧
        (IndexThere home world.files ∨ (∃ event ∈ history, event.changed = true) →
          IndexThere home final.files) := by
  induction calls generalizing world with
  | nil =>
      refine ⟨upkept, fun either => either.resolve_right ?_⟩
      rintro ⟨event, member, -⟩
      exact List.not_mem_nil member
  | cons call later induction =>
      unfold Store.runAll
      rw [leads_bind]
      refine (leads_call_upkept vacant apart now some upkept (knows call List.mem_cons_self)
        (light call List.mem_cons_self)).imp ?_
      rintro answer middle - ⟨still, there⟩
      rw [leads_bind]
      refine (induction still (fun other member => knows other (List.mem_cons_of_mem _ member))
        fun other member => light other (List.mem_cons_of_mem _ member)).imp ?_
      rintro history final - ⟨ended, stays⟩
      refine ⟨ended, fun either => stays ?_⟩
      rcases either with before | ⟨event, member, changed⟩
      · exact .inl (there (.inl before))
      · rcases List.mem_cons.mp member with rfl | among
        · exact .inl (there (.inr changed))
        · exact .inr ⟨event, among, changed⟩

end Steps

theorem upkept_of_vacant (vacant : Vacant opened settings.root home)
    (short : ¬faults .sumOverflow → rest * step < Word.limit) :
    Upkept opened home known faults step rest ⟨⟨.empty, false, default⟩, opened⟩ := by
  have none : Bounded faults step rest 0 := fun unexpected => by
    rw [Nat.zero_add]
    exact short unexpected
  have words : DiskIndex.empty.Words := ⟨(by decide : 0 < _), nofun⟩
  refine ⟨shelved_of_vacant vacant, ⟨List.nodup_nil, nofun, ?_⟩, ⟨.empty, .inr ⟨vacant.node? _ _, rfl⟩, rfl,
    words⟩, words, nofun, ⟨none, none, none, none, none, nofun⟩, none⟩
  intro name inner there
  rw [isThere, vacant.node? name inner] at there
  cases there

end DiskStore

end TierVault
