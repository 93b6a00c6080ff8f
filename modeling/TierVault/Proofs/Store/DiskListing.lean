import TierVault.Proofs.Store.DiskUpkeep

/-!
The files below the directory of a disk store are those that its index names.

What the calls keep up is told here by what is there to be read: the files below the directory, their lengths as the
disk usage counts them, and the keys that the index file lists.
-/

namespace TierVault

open FileSystem StoreAction TierVault.Action

namespace DiskStore

variable {faults : Fault → Prop} {settings : DiskSettings} {opened files : FileSystem} {home path : Path}
  {known keys : List String} {step rest : Nat} {world : DiskWorld} {records : Keyed String DiskRecord}

/-! ## What is there to be read -/

/-- The plain files below the directory of the store, with what is in them, but for that of the index. -/
def payloadFiles (settings : DiskSettings) (files : FileSystem) : Keyed Path Node :=
  match files.find settings.root with
  | .error _ => []
  | .ok root => (files.below root).filter fun entry =>
      !entry.2.isDirectory && entry.1 != root ++ ["metadata.json"]

/-- The keys that the index file lists. A file that is not there lists none. -/
def listedKeys (settings : DiskSettings) (files : FileSystem) : Option (List String) :=
  (files.named? settings.indexFile).elim (some []) fun node =>
    node.content?.bind fun content => (DiskIndex.parse content).toOption.map fun index =>
      Keyed.keys index.records

/-- After these calls, the index and the files below the directory tell the same. -/
structure Accords (settings : DiskSettings) (history : List StoreEvent) (world : DiskWorld) : Prop where
  /-- A key has one record, and the record has the file of the key. -/
  distinct : Keyed.Distinct world.book.index.records
  own : OwnFiles world.book.index.records
  apart : (world.book.index.records.map fun pair => pair.2.file).Nodup
  /-- The files of the records are all files that there are, and the records tell their lengths and formats. -/
  payloads : ∃ listed, listed.Perm (payloadFiles settings world.files) ∧
    List.Forall₂ (fun pair entry =>
      world.files.find (FileName.join settings.root pair.2.file) = .ok entry.1 ∧
        entry.2.Measures pair.2.storedBytes pair.2.format) world.book.index.records listed
  usage : diskUsage settings world.files = Keyed.weigh DiskRecord.storedBytes world.book.index.records
  lists : listedKeys settings world.files = some (Keyed.keys world.book.index.records)
  saved : (∃ event ∈ history, event.changed = true) → world.files.has settings.indexFile = true

/-- The place of the record's file, with what is in it. -/
def payloadEntry (home : Path) (files : FileSystem) (pair : String × DiskRecord) : Path × Node :=
  (payloadPath home pair.1, (files.node? (payloadPath home pair.1)).getD .directory)

theorem Described.entry {pair : String × DiskRecord} (described : Described home files pair) :
    files.node? (payloadEntry home files pair).1 = some (payloadEntry home files pair).2 ∧
      (payloadEntry home files pair).2.Measures pair.2.storedBytes pair.2.format := by
  obtain ⟨node, stands, measures⟩ := described.payload
  simp only [payloadEntry, stands, Option.getD_some]
  exact ⟨trivial, measures⟩

section

variable (vacant : Vacant opened settings.root home) (shelved : Shelved opened home files)
  (matched : Matches home records files)

include vacant shelved matched

theorem mem_payloadFiles {node : Node} : (path, node) ∈ payloadFiles settings files ↔
    files.node? path = some node ∧ Belongs home (Keyed.keys records) path := by
  rw [payloadFiles, (shelved.holds vacant).find]
  simp only [List.mem_filter, mem_below shelved.separate, Bool.and_eq_true, Bool.not_eq_true', bne_iff_ne]
  constructor
  · rintro ⟨⟨name, inner, rfl, stands⟩, plain, other⟩
    refine ⟨stands, ((matched.only name inner (isThere_of_node? stands)).resolve_left ?_).resolve_left other⟩
    rw [isDirectory, stands]
    exact Bool.eq_false_iff.mp plain
  · rintro ⟨stands, key, member, rfl⟩
    obtain ⟨pair, among, rfl⟩ := List.mem_map.mp member
    obtain ⟨own, there, measures⟩ := (matched.described pair among).payload
    cases stands.symm.trans there
    refine ⟨⟨_, _, rfl, stands⟩, measures.plain, fun same => ?_⟩
    exact not_indexPlace_payloadPath home pair.1 (.inr same)

/-- They are the files that the disk usage counts. -/
theorem diskUsage_eq : diskUsage settings files =
    sumOf ((payloadFiles settings files).map fun entry => entry.2.length?.getD 0) := by
  have listed {path : Path} {node : Node} : (path, node) ∈ payloadFiles settings files ↔ _ :=
    mem_payloadFiles vacant shelved matched
  rw [payloadFiles, (shelved.holds vacant).find] at listed ⊢
  rw [diskUsage, (shelved.holds vacant).find]
  dsimp only at listed ⊢
  congr 2
  refine List.filter_congr fun entry member => ?_
  obtain ⟨path, node⟩ := entry
  obtain ⟨name, inner, rfl, stands⟩ := (mem_below shelved.separate).mp member
  rcases matched.only name inner (isThere_of_node? stands) with directory | index | belongs
  · obtain ⟨rfl, -⟩ := shelved.directory name inner directory
    rw [isDirectory, stands, Option.any_some] at directory
    simp [directory]
  · simp [index]
  · rw [(List.mem_filter.mp (listed.mpr ⟨stands, belongs⟩)).2]
    obtain ⟨key, -, lies⟩ := belongs
    simp [lies, payloadPath]

theorem find_payload {pair : String × DiskRecord} (member : pair ∈ records) :
    files.find (FileName.join settings.root pair.2.file) = .ok (payloadPath home pair.1) := by
  have described := matched.described pair member
  obtain ⟨node, stands, -⟩ := described.payload
  have names := names_target vacant shelved described.directory
  rw [described.file, ← append_payloadName]
  exact names.find (isThere_of_node? (append_payloadName home pair.1 ▸ stands))

/-- Each payload file is that of a record. -/
theorem payloadEntries_perm (distinct : (records.map fun pair => payloadPath home pair.1).Nodup) :
    (records.map (payloadEntry home files)).Perm (payloadFiles settings files) := by
  refine (List.perm_ext_iff_of_nodup ?_ ?_).mpr fun file => ?_
  · refine List.Nodup.of_map Prod.fst ?_
    rw [List.map_map]
    exact distinct
  · rw [payloadFiles, (shelved.holds vacant).find]
    exact ((nodup_below shelved.separate).of_map _).filter _
  · obtain ⟨path, node⟩ := file
    rw [mem_payloadFiles vacant shelved matched, List.mem_map]
    constructor
    · rintro ⟨pair, member, told⟩
      have stands := (matched.described pair member).entry.1
      rw [told] at stands
      exact ⟨stands, pair.1, List.mem_map_of_mem member, (congrArg Prod.fst told).symm⟩
    · rintro ⟨stands, key, member, rfl⟩
      obtain ⟨pair, among, rfl⟩ := List.mem_map.mp member
      exact ⟨pair, among, by simp [payloadEntry, stands]⟩

end

/-- The index file can be found by its name where it is there. -/
theorem find_indexFile (vacant : Vacant opened settings.root home) (shelved : Shelved opened home files) :
    files.find settings.indexFile =
      if files.isThere (home ++ ["metadata.json"]) then .ok (home ++ ["metadata.json"]) else .error .notFound := by
  have short := vacant.short
  have size : "metadata.json".utf8ByteSize = 13 := by decide
  have names := (shelved.holds vacant).names plain_indexName (by omega)
  cases there : files.isThere (home ++ ["metadata.json"]) with
  | true => exact names.find there
  | false => exact names.find_of_missing there

theorem listedKeys_eq (vacant : Vacant opened settings.root home) (shelved : Shelved opened home files)
    (distinct : keys.Nodup) (lists : Lists home keys files) : listedKeys settings files = some keys := by
  obtain ⟨index, filed, rfl, words⟩ := lists
  rw [listedKeys, named?, find_indexFile vacant shelved, isThere]
  rcases filed with stands | ⟨missing, rfl⟩
  · rw [stands]
    change ((files.node? (home ++ ["metadata.json"])).elim _ _) = _
    rw [stands]
    change (DiskIndex.parse index.text).toOption.map _ = _
    rw [DiskIndex.parse_text distinct words]
    rfl
  · rw [missing]
    rfl

/-- A name that tells the payload files of two keys apart is given to one record only. -/
theorem Upkept.nodup_map
    (apart : ∀ left ∈ known, ∀ right ∈ known, payloadName left = payloadName right → left = right)
    (upkept : Upkept opened home known faults step rest world) {Name : Type} (name : String → Name)
    (told : ∀ left right, name left = name right → payloadName left = payloadName right) :
    (world.book.index.records.map fun pair => name pair.1).Nodup := by
  have keys := upkept.matched.distinct.map_on fun left first right second same =>
    apart left (upkept.known left first) right (upkept.known right second) (told left right same)
  rwa [Keyed.keys, List.map_map] at keys

/-- Where index and files are kept up, they tell the same. -/
theorem Upkept.accords (vacant : Vacant opened settings.root home)
    (apart : ∀ left ∈ known, ∀ right ∈ known, payloadName left = payloadName right → left = right)
    (upkept : Upkept opened home known faults step rest world) {history : List StoreEvent}
    (saved : (∃ event ∈ history, event.changed = true) → IndexThere home world.files) :
    Accords settings history world := by
  have matched := upkept.matched
  have own := matched.own
  have same := payloadEntries_perm vacant upkept.shelved matched
    (upkept.nodup_map apart (payloadPath home) fun _ _ => payloadName_eq_of_path_eq)
  refine ⟨matched.distinct, own, ?_, ⟨_, same, ?_⟩, ?_,
    listedKeys_eq vacant upkept.shelved matched.distinct upkept.lists, fun changed => ?_⟩
  · rw [own.map_file, Keyed.keys, List.map_map]
    exact upkept.nodup_map apart fileFor fun _ _ => payloadName_eq_of_fileFor_eq
  · rw [List.forall₂_map_right_iff]
    exact List.forall₂_same.mpr fun pair member =>
      ⟨find_payload vacant upkept.shelved matched member, (matched.described pair member).entry.2⟩
  · rw [diskUsage_eq vacant upkept.shelved matched, ← sumOf_perm (same.map _), List.map_map]
    refine congrArg sumOf (List.map_congr_left fun pair member => ?_)
    rw [Function.comp_apply, (matched.described pair member).entry.2.length]
    rfl
  · rw [FileSystem.has, find_indexFile vacant upkept.shelved, saved changed]
    rfl

/-- After every run, be it of calls that answer or of calls that report errors, the index and the files below the
directory tell the same. The store may stop only at a count that is no word, and in a run whose counts stay
words it does not. -/
theorem files_follow_index {calls : List StoreCall} (fresh : Fresh settings world)
    (now : world.files.seconds < Word.limit) (apart : DigestsApart calls) :
    Leads (· = .sumOverflow) ((store settings).runAll calls) world (Accords settings) ∧
      (calls.length * stepOf calls < Word.limit → ∃ history final,
        (store settings).runAll calls world = .ok history final ∧ Accords settings history final) := by
  obtain ⟨⟨files, ends⟩, home, vacant⟩ := fresh
  obtain ⟨book, opened⟩ := world
  obtain ⟨rfl, -⟩ := left_of_openIn vacant (.refl _ _) ends
  have separate (left : String) (first : left ∈ calls.filterMap StoreCall.written?) (right : String)
      (second : right ∈ calls.filterMap StoreCall.written?) (same : payloadName left = payloadName right) :
      left = right := apart left first right second (digest_eq_of_payloadName_eq same)
  have accords {faults : Fault → Prop} (short : ¬faults .sumOverflow → calls.length * stepOf calls < Word.limit) :
      Leads faults ((store settings).runAll calls) ⟨⟨.empty, false, default⟩, opened⟩ (Accords settings) := by
    refine (leads_runAll_upkept vacant separate now (Nat.le_add_right 1 _) (upkept_of_vacant vacant short)
      (fun call member key own => List.mem_filterMap.mpr ⟨call, member, own⟩)
      fun call member => load_le_stepOf member).imp ?_
    rintro history final - ⟨still, there⟩
    exact still.accords vacant separate fun changed => there (.inr changed)
  exact ⟨accords fun unexpected => absurd rfl unexpected, fun short => (accords fun _ => short).ends fun _ => id⟩

/-- What was a table in a columnar file is put again as bytes. -/
theorem files_follow_index_rewritten :
    let disk : DiskSettings := ⟨"disk", 53, true, true, ⟨Zstandard.codec, 3, 100⟩⟩
    let table : Value := .table ⟨[⟨"n", .integers [1, 4]⟩]⟩
    let calls : List StoreCall := [.put "left" table, .get "left", .put "left" (.flag true), .delete "right"]
    ∃ world history final, Fresh disk world ∧ world.files.seconds < Word.limit ∧ DigestsApart calls ∧
      (store disk).runAll calls world = .ok history final ∧ Accords disk history final ∧
        final.book.index.records.map (fun pair => (pair.1, pair.2.format)) = [("left", .binary)] := by
  intro disk table calls
  obtain ⟨world, fresh, now⟩ : ∃ world, Fresh disk world ∧ world.files.seconds < Word.limit :=
    ⟨_, fresh_start rfl, by decide⟩
  have apart : DigestsApart calls := digestsApart_of_two (by decide)
  have short : calls.length * stepOf calls < Word.limit := by decide
  obtain ⟨history, final, ended, accords⟩ := (files_follow_index fresh now apart).2 short
  refine ⟨world, history, final, fresh, now, apart, ended, accords, ?_⟩
  have regular : Table.Regular ⟨[⟨"n", .integers [1, 4]⟩]⟩ := by
    unfold Table.Regular
    decide
  have storables : AllStorable calls := by
    intro call member
    simp only [calls, List.mem_cons, List.not_mem_nil, or_false] at member
    rcases member with rfl | rfl | rfl | rfl
    · exact ⟨⟨trivial, Table.countable_of_fits (by decide)⟩, regular⟩
    · trivial
    · exact ⟨⟨trivial, trivial⟩, trivial⟩
    · trivial
  -- The map is left with the second value of the key, which is no table.
  have leaves : RecentMap.leftBy disk.budget [] calls = [("left", .flag true)] := by rfl
  have level : Columnar.isLevel disk.compressor.level = true := by decide
  have leads : Leads (fun _ => False) ((store disk).runAll calls) _ _ :=
    leads_runAll_stands fresh level storables apart fun _ => short
  obtain ⟨-, home, residents, stands⟩ := leads.of_ok ended
  rw [leaves] at stands
  obtain ⟨⟩ | ⟨⟨record, rfl, holds⟩, ⟨⟩⟩ := stands.mirrors
  obtain ⟨node, -, stored⟩ := holds.stored
  rw [← List.singleton_perm.mp stands.ranks.records]
  exact congrArg (fun format => [("left", format)]) (stored.format_of_none rfl)

end DiskStore

end TierVault
