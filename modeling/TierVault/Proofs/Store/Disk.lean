import TierVault.Proofs.Store.DiskRecords
import TierVault.Proofs.Store.DiskSteps
import TierVault.Proofs.Store.RecentMap

/-!
A store in the files of a directory is the map that it is meant to be.

The records in the order of their last use stand for the map, and their files hold the values. Each call does to
them what the map does.
-/

namespace TierVault.DiskStore

open FileSystem StoreAction RecencyList TierVault.Action

variable {faults : Fault → Prop} {settings : DiskSettings} {opened files after : FileSystem}
  {home : Path} {keys : List String} {step rest : Nat} {key : String} {value : Value}
  {record : DiskRecord} {world : DiskWorld} {residents : List (Resident DiskRecord)}
  {map : RecentMap} {names : String → Prop}

/-! ## What the files hold -/

/-- The file of the record holds the value. -/
structure Holds (settings : DiskSettings) (home : Path) (files : FileSystem) (key : String)
    (record : DiskRecord) (value : Value) : Prop where
  file : record.file = fileFor key
  directory : files.isDirectory (home ++ [shelfName key]) = true
  stored : ∃ node, files.node? (home ++ [shelfName key, payloadName key]) = some node ∧
    Stored settings record.format node value

theorem Holds.keeps (holds : Holds settings home files key record value)
    (keeps : Keeps (Payloads home names) files after) (spared : names (payloadName key)) :
    Holds settings home after key record value := by
  obtain ⟨node, stands, stored⟩ := holds.stored
  refine ⟨holds.file, keeps.directory _ holds.directory, node, ?_, stored⟩
  exact keeps.node _ node ⟨_, _, rfl, spared⟩ stands

/-- A record that tells the same of the file. -/
theorem Holds.renew (holds : Holds settings home files key record value) {used : DiskRecord}
    (file : used.file = record.file) (format : used.format = record.format) :
    Holds settings home files key used value :=
  ⟨file.trans holds.file, holds.directory, format ▸ holds.stored⟩

/-- A fresh directory, and keys whose files have different names. -/
structure Ground (settings : DiskSettings) (opened : FileSystem) (home : Path) (keys : List String) :
    Prop where
  vacant : Vacant opened settings.root home
  level : Columnar.isLevel settings.compressor.level = true
  apart : ∀ left ∈ keys, ∀ right ∈ keys, payloadName left = payloadName right → left = right

/-- The records stand for the map, and the counts stay words through so many more calls. -/
structure Stands (settings : DiskSettings) (opened : FileSystem) (home : Path) (keys : List String)
    (faults : Fault → Prop) (step rest : Nat) (residents : List (Resident DiskRecord))
    (world : DiskWorld) (map : RecentMap) : Prop where
  shelved : Shelved opened home world.files
  ranks : Ranks residents world.book.index
  mirrors : Mirrors (Holds settings home world.files) residents map
  known : ∀ resident ∈ residents, resident.key ∈ keys
  book : BoundedBook faults step rest world.book
  sizes : Bounded faults step rest (total residents)
  saved : Saved home world
  words : opened.seconds < Word.limit → world.book.index.Words

theorem Stands.later (stands : Stands settings opened home keys faults step (rest + 1) residents world map) :
    Stands settings opened home keys faults step rest residents world map :=
  { stands with book := stands.book.later, sizes := stands.sizes.later }

/-- The file of a record that is held can be found. -/
theorem Holds.has (holds : Holds settings home files key record value)
    (vacant : Vacant opened settings.root home) (shelved : Shelved opened home files) :
    files.has (FileName.join settings.root record.file) = true := by
  obtain ⟨node, stands, -⟩ := holds.stored
  rw [← append_pair] at stands
  have found := (names_target vacant shelved holds.directory).find (isThere_of_node? stands)
  rw [holds.file]
  change (files.find (nameFor settings key)).isOk = true
  rw [found]
  rfl

/-- Residents go on to stand for the map while their files are spared. -/
theorem mirrors_keeps (mirrors : Mirrors (Holds settings home files) residents map)
    (keeps : Keeps (Payloads home names) files after)
    (spared : ∀ resident ∈ residents, names (payloadName resident.key)) :
    Mirrors (Holds settings home after) residents map :=
  mirrors.imp fun resident member _ holds => holds.keeps keeps (spared resident member)

/-! ## Reads -/

theorem get_of_none (stands : Stands settings opened home keys faults step rest residents world map)
    (missing : RecencyList.find? key residents = none) {after : Option Value → DiskWorld → Prop}
    (holds : after none world) : Succeeds faults (get settings key) world after := by
  have unknown := stands.ranks.find? key
  rw [missing] at unknown
  unfold get
  refine Succeeds.bind (succeeds_records ?_)
  rw [unknown]
  exact succeeds_pure holds

theorem get_of_some (vacant : Vacant opened settings.root home) (some : 1 ≤ step)
    (stands : Stands settings opened home keys faults step (rest + 1) residents world map)
    (found : RecencyList.find? key residents = Option.some ⟨key, value.weight, record⟩)
    (holds : Holds settings home world.files key record value) :
    Succeeds faults (get settings key) world fun answer after => answer = Option.some value ∧
      ∃ residents, Stands settings opened home keys faults step rest residents after
        (Keyed.remove key map ++ [(key, value)]) := by
  have known : Keyed.find? key world.book.index.records = Option.some record := by
    rw [stands.ranks.find? key, found]
    rfl
  obtain ⟨node, lies, stored⟩ := holds.stored
  unfold get
  refine Succeeds.bind (succeeds_records ?_)
  rw [known]
  refine Succeeds.bind (succeeds_getThe ?_)
  simp only [holds.has vacant stands.shelved, Bool.not_true, Bool.false_eq_true, if_false]
  rw [holds.file]
  change Succeeds faults (readPayload settings (nameFor settings key) record.format >>= _) world _
  refine Succeeds.bind ((readPayload_succeeds vacant stands.shelved holds.directory lies
    stored).imp ?_)
  rintro answer _ ⟨same, rfl⟩
  obtain rfl := same.symm
  refine Succeeds.bind ((noteRead_succeeds stands.book some known world.files.counted).imp ?_)
  rintro _ ⟨book, files⟩ ⟨files_same, bounded, used, ⟨file, size, format, -, now⟩, index, dirty, words⟩
  obtain rfl : files = world.files.counted := files_same
  obtain ⟨member, -⟩ := find?_some found
  have own : used.size = value.weight := size.trans (stands.ranks.sizes _ member).symm
  have key_known : key ∈ keys := stands.known _ member
  have kept : Keeps (Payloads home fun _ => True) world.files world.files.counted :=
    (extends_counted world.files).weaken
  have spared := mirrors_keeps stands.mirrors kept fun _ _ => trivial
  have same := stands.ranks.distinct.total_remove found
  refine succeeds_pure ⟨rfl, RecencyList.remove key residents ++ [⟨key, used.size, used⟩], ?_⟩
  constructor
  · exact stands.shelved.counted
  · exact index ▸ stands.ranks.renew now
  · rw [own]
    exact (spared.remove key).append ((holds.keeps kept trivial).renew file format)
  · intro resident there
    rcases List.mem_append.mp there with kept | last
    · exact stands.known resident (mem_remove.mp kept).1
    · rw [List.mem_singleton.mp last]
      exact key_known
  · exact bounded
  · rw [total_append, own, same]
    exact stands.later.sizes
  · exact .inl dirty
  · exact fun now => words (stands.words now)

/-! ## Writes -/

/-- Every record has the file of its key, in a directory that is there. -/
theorem Stands.file_of_mem
    (stands : Stands settings opened home keys faults step rest residents world map)
    {pair : String × DiskRecord} (member : pair ∈ world.book.index.records) :
    pair.1 ∈ keys ∧ pair.2.file = fileFor pair.1 ∧
      world.files.isDirectory (home ++ [shelfName pair.1]) = true := by
  obtain ⟨resident, known, rfl⟩ := List.mem_map.mp (stands.ranks.records.mem_iff.mpr member)
  obtain ⟨value, holds⟩ := stands.mirrors.of_mem known
  exact ⟨stands.known resident known, holds.file, holds.directory⟩

/-- The new file holds the value, and beside it only those files went whose keys left. -/
theorem Stands.put (ground : Ground settings opened home keys)
    (stands : Stands settings opened home keys faults step (rest + 1) residents world map)
    (known : key ∈ keys) (light : value.weight ≤ step) {gone : List String}
    (leavers : ∀ other ∈ gone, other ∈ keys ∧
      other ∈ Ranks.leavers settings.budget value.weight key residents)
    (book : DiskBook) (shelved : Shelved opened home after)
    (keeps : Keeps (Payloads home fun name =>
      Unrelated key name ∧ ∀ other ∈ gone, name ≠ payloadName other) world.files after)
    (holds : Holds settings home after key record value) (size : record.size = value.weight)
    (now : record.accessedAt = world.book.index.clock + 1)
    (index : book.index = ⟨Keyed.put key record (world.book.index.records.filter fun pair =>
      !(Ranks.leavers settings.budget value.weight key residents).contains pair.1),
      world.book.index.clock + 1⟩)
    (bounded : BoundedBook faults step rest book) (saved : Saved home ⟨book, after⟩)
    (words : opened.seconds < Word.limit → book.index.Words) :
    ∃ residents, Stands settings opened home keys faults step rest residents ⟨book, after⟩
      (RecentMap.fitting settings.budget value.weight (Keyed.remove key map) ++ [(key, value)]) := by
  rw [← size] at leavers index
  have suffix := makeRoom_suffix settings.budget record.size (RecencyList.remove key residents)
  have spared : ∀ resident ∈ makeRoom settings.budget record.size (RecencyList.remove key residents),
      Unrelated key (payloadName resident.key) ∧
        ∀ other ∈ gone, payloadName resident.key ≠ payloadName other := by
    intro resident stays
    obtain ⟨member, different⟩ := mem_remove.mp (suffix.subset stays)
    have own := stands.known resident member
    refine ⟨⟨fun same => different (ground.apart _ own _ known same), payloadName_ne_draftName _ _⟩, ?_⟩
    intro other left same
    obtain ⟨there, leaves⟩ := leavers other left
    obtain rfl := ground.apart _ own _ there same
    exact stands.ranks.not_mem_leavers stays leaves
  have kept := mirrors_keeps ((stands.mirrors.remove key).makeRoom settings.budget record.size) keeps spared
  refine ⟨RecencyList.put settings.budget ⟨key, record.size, record⟩ residents, shelved, ?_, ?_, ?_,
    bounded, ?_, saved, words⟩
  · rw [index]
    exact stands.ranks.commit now settings.budget key
  · rw [RecencyList.put, size]
    rw [size] at kept
    exact kept.append holds
  · intro resident among
    rcases mem_put among with rfl | ⟨member, -⟩
    · exact known
    · exact stands.known resident member
  · have fewer : total (makeRoom settings.budget record.size (RecencyList.remove key residents)) ≤
        total residents :=
      sumOf_sublist ((suffix.sublist.trans List.filter_sublist).map Resident.size)
    rw [RecencyList.put, total_append]
    exact (stands.sizes.add (size.trans_le light)).of_le (Nat.add_le_add_right fewer _)

theorem put_succeeds (ground : Ground settings opened home keys) (some : 1 ≤ step)
    (stands : Stands settings opened home keys faults step (rest + 1) residents world map)
    (member : key ∈ keys) (light : load value ≤ step) {encoded : Bytes}
    (storable : Storable value encoded) (small : encoded.length ≤ settings.budget) :
    Succeeds faults (DiskStore.put settings key value) world fun _ after =>
      ∃ residents, Stands settings opened home keys faults step rest residents after
        (RecentMap.fitting settings.budget value.weight (Keyed.remove key map) ++ [(key, value)]) := by
  have weight := Value.weight_of_encode storable.encodes
  have weight_light : value.weight ≤ step := Nat.le_trans (Nat.le_add_right _ _) light
  unfold DiskStore.put
  refine Succeeds.bind (succeeds_ofExcept (Value.encodedSize_of_encode storable.encodes) ?_)
  simp only [Nat.not_lt.mpr small, if_false]
  refine Succeeds.bind (succeeds_records ?_)
  rw [← weight]
  have victims := stands.ranks.victims_cases settings.budget value.weight key
  refine Succeeds.bind (succeeds_checked ?_ ?_)
  · intro fault failed
    refine Classical.byContradiction fun unexpected => ?_
    rcases victims with told | ⟨stopped, large⟩
    · cases told.symm.trans failed
    · cases stopped.symm.trans failed
      have fits := (stands.sizes.add weight_light).fits unexpected
      omega
  intro leavers told
  have size_fits := lt_of_victims told
  obtain rfl : leavers = Ranks.leavers settings.budget value.weight key residents := by
    rcases victims with chosen | ⟨stopped, -⟩
    · exact Except.ok.inj (told.symm.trans chosen)
    · cases stopped.symm.trans told
  refine Succeeds.bind ((writePayload_succeeds ground.vacant ground.level stands.shelved
    storable).imp ?_)
  rintro written ⟨_, drawn⟩ ⟨rfl, shelved, keeps, directory, stored_light, node, lies, stored⟩
  refine Succeeds.bind ((commit_succeeds stands.book some (Nat.le_trans stored_light light)
    drawn).imp ?_)
  rintro files ⟨book, drawn⟩
    ⟨rfl, rfl, bounded, record, ⟨file, size, format, -, now⟩, index, dirty, words⟩
  have seconds : drawn.seconds = opened.seconds := shelved.seconds
  refine Succeeds.bind (Succeeds.lift ((persist_succeeds ground.vacant shelved (.inl dirty)).imp ?_))
  rintro _ ⟨_, indexed⟩ ⟨rfl, filed, shelved, persisted⟩
  -- The files of the keys that left go last.
  let left := world.book.index.records.filter fun pair =>
    (Ranks.leavers settings.budget value.weight key residents).contains pair.1
  have among : ∀ other ∈ left.map Prod.fst, other ∈ keys ∧
      other ∈ Ranks.leavers settings.budget value.weight key residents ∧
        indexed.isDirectory (home ++ [shelfName other]) = true := by
    intro other inside
    obtain ⟨pair, member, rfl⟩ := List.mem_map.mp inside
    obtain ⟨before, leaves⟩ := List.mem_filter.mp member
    obtain ⟨known, -, there⟩ := stands.file_of_mem before
    exact ⟨known, List.contains_iff_mem.mp leaves, persisted.directory _ (keeps.directory _ there)⟩
  have named : left.map (·.2.file) = (left.map Prod.fst).map fileFor := by
    rw [List.map_map]
    exact List.map_congr_left fun pair member =>
      (stands.file_of_mem (List.mem_of_mem_filter member)).2.1
  change Succeeds faults ((left.map (·.2.file)).forM (removeFileOf settings) >>= _) _ _
  rw [named]
  refine Succeeds.bind ((removeFiles_succeeds ground.vacant shelved
    (fun other inside => (among other inside).2.2) _).imp ?_)
  rintro _ ⟨_, files⟩ ⟨rfl, shelved, spared, removed⟩
  refine succeeds_ofExcept rfl ?_
  have apart : ∀ other ∈ left.map Prod.fst, payloadName key ≠ payloadName other := by
    intro other inside same
    obtain ⟨known, leaves, -⟩ := among other inside
    exact stands.ranks.ne_of_mem_leavers leaves (ground.apart _ member _ known same).symm
  have holds : Holds settings home drawn key record value :=
    ⟨file, directory, node, lies, format ▸ stored⟩
  refine stands.put ground member weight_light
    (fun other inside => ⟨(among other inside).1, (among other inside).2.1⟩) _ shelved ?_ ?_ size now index
    ?_ (.inr (filed.of_node? (spared _))) fun early => words size_fits (seconds ▸ early) (stands.words early)
  · refine (keeps.mono ?_).trans ((persisted.mono ?_).trans (removed.mono ?_))
    · exact fun _ payload => payload.imp fun _ both => both.1
    · exact fun _ payload => payload.imp fun _ _ => trivial
    · exact fun _ payload => payload.imp fun _ both => both.2
  · exact (holds.keeps persisted trivial).keeps removed apart
  · exact bounded.change false fun _ among => among

/-! ## Removals -/

/-- Fewer residents, and no files went but those of others. -/
theorem Stands.fewer (stands : Stands settings opened home keys faults step (rest + 1) residents world map)
    {kept : List (Resident DiskRecord)} (sublist : kept.Sublist residents)
    {records : Keyed String DiskRecord} (same : (kept.map pairOf).Perm records)
    (filed : Filed home { world.book.index with records } after)
    (shelved : Shelved opened home after) {fewer : RecentMap}
    (mirrors : Mirrors (Holds settings home after) kept fewer) :
    Stands settings opened home keys faults step rest kept
      ⟨⟨{ world.book.index with records }, false, world.book.transfers⟩, after⟩ fewer where
  shelved := shelved
  ranks := stands.ranks.of_sublist sublist same
  mirrors := mirrors
  known resident member := stands.known resident (sublist.subset member)
  book := stands.book.later.change false fun _ member =>
    stands.ranks.records.subset ((sublist.map pairOf).subset (same.mem_iff.mpr member))
  sizes := stands.sizes.later.of_le (sumOf_sublist (sublist.map Resident.size))
  saved := .inr filed
  words early := (stands.words early).fewer fun _ member =>
    stands.ranks.records.subset ((sublist.map pairOf).subset (same.mem_iff.mpr member))

theorem delete_succeeds (ground : Ground settings opened home keys)
    (stands : Stands settings opened home keys faults step (rest + 1) residents world map)
    (key : String) :
    Succeeds faults (delete settings key) world fun answer after => answer = Keyed.has key map ∧
      ∃ residents, Stands settings opened home keys faults step rest residents after
        (Keyed.remove key map) := by
  have recorded := stands.ranks.find? key
  unfold delete
  refine Succeeds.bind (succeeds_records ?_)
  rcases stands.mirrors.find? key with ⟨missing, unknown⟩ | ⟨record, value, found, known, holds⟩
  · rw [recorded, missing, Keyed.has, unknown, Keyed.remove_of_find?_eq_none unknown]
    exact succeeds_pure ⟨rfl, residents, stands.later⟩
  · rw [recorded, found, Keyed.has, known]
    obtain ⟨member, -⟩ := find?_some found
    have own : key ∈ keys := stands.known _ member
    refine Succeeds.bind (succeeds_changeBook (Succeeds.bind (succeeds_changeBook ?_)))
    refine Succeeds.bind ((persist_succeeds ground.vacant stands.shelved (.inl rfl)).imp ?_)
    rintro _ ⟨_, indexed⟩ ⟨rfl, filed, shelved, persisted⟩
    change Succeeds faults (removeFileOf settings record.file >>= _) _ _
    rw [holds.file]
    have there := persisted.directory _ holds.directory
    refine Succeeds.bind ((removeFileOf_succeeds ground.vacant shelved there _).imp ?_)
    rintro _ ⟨_, files⟩ ⟨rfl, shelved, spared, removed⟩
    refine succeeds_pure ⟨rfl, RecencyList.remove key residents, ?_⟩
    refine stands.fewer List.filter_sublist (stands.ranks.remove key).records
      (filed.of_node? (spared _)) shelved ?_
    refine mirrors_keeps (stands.mirrors.remove key) ((persisted.mono ?_).trans removed) ?_
    · exact fun _ payload => payload.imp fun _ _ => trivial
    · intro resident kept same
      obtain ⟨among, different⟩ := mem_remove.mp kept
      exact different (ground.apart _ (stands.known _ among) _ own same)

theorem clear_succeeds (ground : Ground settings opened home keys)
    (stands : Stands settings opened home keys faults step (rest + 1) residents world map) :
    Succeeds faults (clear settings) world fun _ after =>
      ∃ residents, Stands settings opened home keys faults step rest residents after [] := by
  unfold clear
  refine Succeeds.bind (succeeds_changeBook (Succeeds.bind (succeeds_changeBook ?_)))
  refine Succeeds.bind ((persist_succeeds ground.vacant stands.shelved (.inl rfl)).imp ?_)
  rintro _ ⟨_, indexed⟩ ⟨rfl, filed, shelved, -⟩
  refine (clearShelves_succeeds ground.vacant shelved _).imp ?_
  rintro _ ⟨_, files⟩ ⟨rfl, shelved, -, kept, -⟩
  exact ⟨[], stands.fewer (List.nil_sublist _) .nil (filed.of_node? kept) shelved .nil⟩

/-! ## All calls -/

theorem size_succeeds (stands : Stands settings opened home keys faults step rest residents world map) :
    Succeeds faults size world fun answer after => answer = RecentMap.bytes map ∧ after = world := by
  have same := stands.ranks.sizes_total.trans stands.mirrors.total
  unfold size
  refine Succeeds.bind (succeeds_records (succeeds_checked ?_ ?_))
  · intro fault failed
    obtain ⟨rfl, large⟩ := Word.total_error failed
    refine Classical.byContradiction fun unexpected => ?_
    have fits := stands.sizes.fits unexpected
    exact absurd fits (Nat.not_lt.mpr (large.trans_eq stands.ranks.sizes_total))
  · intro total summed
    exact ⟨(Word.total_ok_eq summed).trans same, rfl⟩

/-- Keys that are put are known, and the values are not large and can be written and read. -/
def Permits (keys : List String) (step : Nat) : StoreCall → Prop
  | .put key value => key ∈ keys ∧ load value ≤ step ∧ value.WellFormed ∧ value.RegularTables
  | _ => True

/-- Each read is answered as the map answers it. -/
theorem Stands.leads_read (vacant : Vacant opened settings.root home) (some : 1 ≤ step)
    (stands : Stands settings opened home keys faults step (rest + 1) residents world map)
    {call : StoreCall} (read : call.IsRead) :
    Leads faults (call.run (store settings)).run world fun answer after =>
      answer = (RecentMap.step settings.budget map call).1 ∧
        ∃ residents, Stands settings opened home keys faults step rest residents after
          (RecentMap.step settings.budget map call).2 := by
  cases call with
  | get key =>
      rcases stands.mirrors.find? key with ⟨missing, unknown⟩ | ⟨record, value, found, known, holds⟩
      · rw [RecentMap.step_get_of_none unknown]
        exact (get_of_none stands missing ⟨rfl, residents, stands.later⟩).answers
      · rw [RecentMap.step_get_of_some known]
        exact (get_of_some vacant some stands found holds).answers
  | has key =>
      have same := (stands.ranks.has key).trans (stands.mirrors.has key)
      exact ⟨congrArg Except.ok same, residents, stands.later⟩
  | size =>
      refine ((size_succeeds stands).imp ?_).answers
      rintro _ _ ⟨same, rfl⟩
      exact ⟨same, residents, stands.later⟩
  | entries =>
      have same := stands.ranks.listing.trans stands.mirrors.listing
      exact ⟨congrArg Except.ok same, residents, stands.later⟩
  | put | delete | clear => exact read.elim

/-- Each call does what the map does. -/
theorem Stands.leads_call (ground : Ground settings opened home keys) (some : 1 ≤ step)
    (stands : Stands settings opened home keys faults step (rest + 1) residents world map)
    {call : StoreCall} (permits : Permits keys step call) :
    Leads faults (call.run (store settings)).run world fun answer after =>
      answer = (RecentMap.step settings.budget map call).1 ∧
        ∃ residents, Stands settings opened home keys faults step rest residents after
          (RecentMap.step settings.budget map call).2 := by
  cases call with
  | put key value =>
      obtain ⟨member, light, wellFormed, regular⟩ := permits
      cases sized : value.encodedSize with
      | error error =>
          rw [RecentMap.step_put_of_error sized]
          change Leads _ (DiskStore.put settings key value).run _ _
          unfold DiskStore.put
          rw [sized]
          exact ⟨rfl, residents, stands.later⟩
      | ok size =>
          obtain ⟨encoded, encodes, rfl⟩ := Value.encode_of_encodedSize sized
          by_cases large : settings.budget < encoded.length
          · rw [RecentMap.step_put_of_lt sized large]
            change Leads _ (DiskStore.put settings key value).run _ _
            unfold DiskStore.put
            rw [sized]
            change Leads _ (ExceptT.run (if settings.budget < encoded.length then _ else _ : DiskAction Unit)) _ _
            rw [if_pos large]
            exact ⟨rfl, residents, stands.later⟩
          · have small := Nat.not_lt.mp large
            rw [RecentMap.step_put_of_le sized small, ← Value.weight_of_encode encodes]
            refine ((put_succeeds ground some stands member light ⟨encodes, wellFormed, regular⟩
              small).imp ?_).answers
            exact fun _ _ served => ⟨rfl, served⟩
  | delete key => exact (delete_succeeds ground stands key).answers
  | clear =>
      refine ((clear_succeeds ground stands).imp ?_).answers
      exact fun _ _ served => ⟨rfl, served⟩
  | get | has | size | entries => exact stands.leads_read ground.vacant some trivial

/-- The store stands for the map, and will do so through the calls that are still to come. -/
structure Serves (settings : DiskSettings) (opened : FileSystem) (home : Path) (keys : List String)
    (faults : Fault → Prop) (step : Nat) (later : List StoreCall) (world : DiskWorld)
    (map : RecentMap) : Prop where
  stands : ∃ residents, Stands settings opened home keys faults step later.length residents world map
  permits : ∀ call ∈ later, Permits keys step call

theorem refines (ground : Ground settings opened home keys) (some : 1 ≤ step) :
    (store settings).Refines settings.budget faults (Serves settings opened home keys faults step) := by
  rintro call later world map ⟨⟨residents, stands⟩, permits⟩
  apply (stands.leads_call ground some (permits call List.mem_cons_self)).imp
  rintro answer after - ⟨same, served⟩
  exact ⟨same, served, fun call member => permits call (List.mem_cons_of_mem _ member)⟩

/-! ## A fresh directory -/

/-- In a directory with nothing in it there is no index to be read, so opening makes the directory and does nothing
else. Later the tree may have grown elsewhere. -/
theorem left_of_openIn (vacant : Vacant after settings.root home) (kept : Extends opened after)
    {book : DiskBook} (ends : (openIn settings).run files = .ok (.ok book) opened) :
    book = ⟨.empty, false, default⟩ ∧ makeDirectories settings.root files = .ok () opened := by
  have room := vacant.short
  have size : "metadata.json".utf8ByteSize = 13 := by decide
  have absent : after.isThere (home ++ ["metadata.json"]) = false := by
    rw [isThere, vacant.node? "metadata.json" []]
    rfl
  have missing := (vacant.holds.names plain_indexName (by omega)).find_of_missing absent
  obtain ⟨⟨⟩, made, ensured, ends⟩ := ended_of_bind ends
  obtain ⟨before, _, seen, ends⟩ := ended_of_bind ends
  cases seen
  cases has : made.has settings.indexFile with
  | false =>
      simp only [has, Bool.false_eq_true, if_false] at ends
      cases ends
      exact ⟨rfl, ended_of_onFiles ensured⟩
  | true =>
      simp only [has, if_true] at ends
      obtain ⟨read, left, called, ends⟩ := ended_of_bind ends
      obtain rfl : left = opened := by
        cases read <;> cases ends <;> rfl
      have stays : Extends made left := by
        rw [left_of_attempted called]
        exact adds_readFile settings.indexFile made
      have found : ∃ path, made.find settings.indexFile = .ok path := by
        unfold FileSystem.has at has
        cases found : made.find settings.indexFile with
        | ok path => exact ⟨path, rfl⟩
        | error error =>
            rw [found] at has
            cases has
      obtain ⟨path, found⟩ := found
      cases missing.symm.trans ((stays.trans kept).find found trivial).1

/-- The store of a directory with nothing in it stands for the empty map. -/
theorem stands_of_vacant (vacant : Vacant opened settings.root home)
    (short : ¬faults .sumOverflow → rest * step < Word.limit) :
    Stands settings opened home keys faults step rest [] ⟨⟨.empty, false, default⟩, opened⟩ [] := by
  have none : Bounded faults step rest 0 := fun unexpected => by
    rw [Nat.zero_add]
    exact short unexpected
  have bare := vacant.node? "metadata.json" []
  refine ⟨shelved_of_vacant vacant, .empty, .nil, nofun, ?_, none, .inr (.inr ⟨bare, rfl⟩),
    fun _ => ⟨(by decide : 0 < _), nofun⟩⟩
  exact ⟨none, none, none, none, none, nofun⟩

/-- The store was just opened in a directory with nothing in it, on a medium that refuses nothing. -/
structure Fresh (settings : DiskSettings) (world : DiskWorld) : Prop where
  opened : ∃ files, (openIn settings).run files = .ok (.ok world.book) world.files
  vacant : ∃ home, Vacant world.files settings.root home

/-- A fresh store stands for the empty map. -/
theorem serves_of_fresh {calls : List StoreCall}
    (ground : Ground settings opened home keys) {book : DiskBook}
    (ends : (openIn settings).run files = .ok (.ok book) opened)
    (permits : ∀ call ∈ calls, Permits keys step call)
    (short : ¬faults .sumOverflow → calls.length * step < Word.limit) :
    Serves settings opened home keys faults step calls ⟨book, opened⟩ [] := by
  obtain ⟨rfl, -⟩ := left_of_openIn ground.vacant (.refl _ _) ends
  exact ⟨⟨[], stands_of_vacant ground.vacant short⟩, permits⟩

end TierVault.DiskStore
