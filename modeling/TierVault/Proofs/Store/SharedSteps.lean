import TierVault.Proofs.Store.SharedSections

/-!
What a section of a call leaves as it was.

The index tells of what was recorded and the file of a key holds what was placed there, as long as each write
moves its own payload. So much depends on the temporary file alone.
-/

namespace TierVault

open FileSystem DiskStore SharedDisk TierVault.Action

variable {settings : DiskSettings} {opened : FileSystem} {home : Path} {keys : List String}
  {faults : Fault → Prop} {step rest : Nat} {key : String}

/-! ## Histories -/

theorem Keyed.find?_filter_keys {Key Item : Type} [DecidableEq Key] (keep : Key → Bool) (key : Key)
    (items : Keyed Key Item) :
    find? key (items.filter fun pair => keep pair.1) = if keep key then find? key items else none := by
  induction items with
  | nil => simp
  | cons head rest induction =>
      obtain ⟨other, item⟩ := head
      by_cases same : other = key
      · subst same
        cases kept : keep other <;> simp [find?, kept, induction]
      · cases kept : keep other <;> simp [find?, kept, same, induction]

namespace SharedDisk

variable {before : String → Option StoredValue} {history : List DiskEvent} {names : List String}

theorem recorded_withdrawn (before : String → Option StoredValue) (key : String)
    (history : List DiskEvent) (names : List String) :
    recorded before key (names.map .withdrawn ++ history) =
      if names.contains key then none else recorded before key history := by
  induction names with
  | nil => rfl
  | cons name rest induction =>
      by_cases same : name = key
      · simp [recorded, same]
      · simp [recorded, same, Ne.symm same, induction]

theorem filed_withdrawn (before : String → Option StoredValue) (key : String)
    (history : List DiskEvent) (names : List String) :
    filed before key (names.map .withdrawn ++ history) = filed before key history := by
  induction names with
  | nil => rfl
  | cons name rest induction => exact induction

end SharedDisk

/-! ## Temporary files -/

namespace CallPlace

/-- The key of a write that has begun its temporary file and not moved it. -/
def drafting? : CallPlace → Option String
  | filling write _ | measuring write _ | placing write _ => some write.key
  | _ => none

/-- The temporary file holds what the write is about to move. -/
def HoldsDraft (settings : DiskSettings) (home : Path) (files : FileSystem) : CallPlace → Prop
  | measuring write written | placing write written =>
    ∃ node, files.node? (draftPath home write.key) = some node ∧
      Stored settings written.format node write.value
  | _ => True

variable {world after : DiskWorld} {place : CallPlace} {next : Except StoreError CallPlace}

theorem HoldsDraft.of_node? {files final : FileSystem} (drafting : place.drafting? = some key)
    (same : final.node? (draftPath home key) = files.node? (draftPath home key))
    (holds : place.HoldsDraft settings home files) : place.HoldsDraft settings home final := by
  cases place with
  | measuring write written | placing write written =>
      obtain rfl := Option.some.inj drafting
      obtain ⟨node, stands, stored⟩ := holds
      exact ⟨node, same.trans stands, stored⟩
  | _ => trivial

/-- The file of the key holds the value, or there is no file where there is none. -/
inductive Contains (settings : DiskSettings) (home : Path) (files : FileSystem) (key : String) :
    Option StoredValue → Prop
  | nothing : files.node? (payloadPath home key) = none → Contains settings home files key none
  | payload {stored : StoredValue} {node : Node} : files.node? (payloadPath home key) = some node →
    Stored settings stored.format node stored.value → Contains settings home files key (some stored)

theorem Contains.of_node? {files final : FileSystem} {stored? : Option StoredValue}
    (contains : Contains settings home files key stored?)
    (same : final.node? (payloadPath home key) = files.node? (payloadPath home key)) :
    Contains settings home final key stored? := by
  cases contains with
  | nothing missing => exact .nothing (same.trans missing)
  | payload stands stored => exact .payload (same.trans stands) stored

theorem Contains.isThere {files : FileSystem} {stored? : Option StoredValue}
    (contains : Contains settings home files key stored?) :
    files.isThere (payloadPath home key) = stored?.isSome := by
  cases contains with
  | nothing missing => rw [FileSystem.isThere, missing]; rfl
  | payload stands => rw [FileSystem.isThere, stands]; rfl

/-- What a section does with the temporary file of a key. -/
inductive UsesDraft (home : Path) (key : String) (files after : FileSystem) (place next : CallPlace) : Prop
  | spares : (place.drafting? = some key → next.drafting? = some key) →
    after.node? (draftPath home key) = files.node? (draftPath home key) →
    UsesDraft home key files after place next
  /-- The call counts on the file that is then there, and if it did before, the file was there. -/
  | writes : next.drafting? = some key →
    (place.drafting? = some key → files.isThere (draftPath home key) = true) →
    UsesDraft home key files after place next
  | movesAway : place.drafting? = some key → files.isThere (draftPath home key) = true →
    after.isThere (draftPath home key) = false → UsesDraft home key files after place next

/-- A call that did not count on the file. -/
theorem counts_of_idle {place : CallPlace} {property : Prop} (idle : place.drafting? = none) :
    place.drafting? = some key → property :=
  fun counts => absurd (idle.symm.trans counts) (Option.some_ne_none key).symm

/-- Paths at which the section may change something. -/
def Touched (home : Path) (keys : List String) : CallPlace → Path → Prop
  | preparing write, path => path = shelfPath home write.key
  | drafting write, path | filling write _, path => path = draftPath home write.key
  | placing write _, path => path = draftPath home write.key ∨ path = payloadPath home write.key
  | committing .., path | starting (.delete _), path =>
    path = home ++ ["metadata.json.tmp"] ∨ path = home ++ ["metadata.json"]
  | removing file .., path => ∃ key ∈ keys, file = fileFor key ∧ path = payloadPath home key
  | _, _ => False

theorem shelfPath_ne_index (home : Path) (key : String) :
    ¬(shelfPath home key = home ++ ["metadata.json.tmp"] ∨
      shelfPath home key = home ++ ["metadata.json"]) := by
  have two := utf8Length_shelfName key
  rintro (same | same) <;> rw [List.singleton_inj.mp (List.append_cancel_left same)] at two <;>
    exact absurd two (by decide)

/-! ## What a section keeps -/

theorem fits_leaving {files : FileSystem} {names : List String} {answer : Except StoreError DiskAnswer}
    (each : ∀ name ∈ names, ∃ key ∈ keys, name = fileFor key ∧
      files.isDirectory (shelfPath home key) = true) :
    (leaving answer names).Fits settings keys step home files := by
  cases names with
  | nil => trivial
  | cons name names => exact each

theorem payloadPath_ne_index (home : Path) (shelf name : String) :
    ¬(home ++ [shelf, name] = home ++ ["metadata.json.tmp"] ∨
      home ++ [shelf, name] = home ++ ["metadata.json"]) := by
  rintro (same | same) <;> exact absurd (congrArg List.length (List.append_cancel_left same)) (by simp)

theorem holdsDraft_leaving {files : FileSystem} (answer : Except StoreError DiskAnswer)
    (names : List String) : (leaving answer names).HoldsDraft settings home files := by
  cases names <;> trivial

section

variable (moved : Moved settings opened home keys faults step rest world place next after)

include moved

theorem Moved.touches (shelved : Shelved opened home world.files) :
    Touches opened home (place.Touched home keys) world.files after.files := by
  cases moved with
  | asked asks touches => exact ⟨touches.shelved, fun path _ => touches.others path id⟩
  | dropped | counted => exact ⟨shelved, fun _ _ => rfl⟩
  | prepared touches | begun chosen touches | placed was touches
  | committed file format index bounded touches | deleted found touches => exact touches
  | drafted begins touches =>
      rcases begins with rfl | ⟨table, rfl⟩ <;> exact touches
  | removed known touches =>
      refine ⟨touches.shelved, fun path spared => touches.others path fun same => spared ?_⟩
      exact ⟨_, known, rfl, same⟩

/-- Directories that were made stay. -/
theorem Moved.directory (shelved : Shelved opened home world.files) (key : String)
    (directory : world.files.isDirectory (shelfPath home key) = true) :
    after.files.isDirectory (shelfPath home key) = true := by
  by_cases touched : place.Touched home keys (shelfPath home key)
  · cases moved with
    | @prepared write files made there =>
        change shelfPath home key = shelfPath home write.key at touched
        rw [touched]
        exact there
    | asked asks touches => exact touches.directory id directory
    | dropped | counted => exact touched.elim
    | begun => exact absurd touched (shelfPath_ne home key _ _)
    | drafted begins =>
        rcases begins with rfl | ⟨table, rfl⟩ <;> exact absurd touched (shelfPath_ne home key _ _)
    | placed => exact (touched.elim (shelfPath_ne home key _ _) (shelfPath_ne home key _ _)).elim
    | committed | deleted => exact (shelfPath_ne_index home key touched).elim
    | removed known =>
        obtain ⟨other, -, -, same⟩ := touched
        exact absurd same (shelfPath_ne home key _ _)
  · exact (moved.touches shelved).directory touched directory

/-- All records lie in files of known keys. -/
theorem Moved.records (shelved : Shelved opened home world.files)
    (fits : place.Fits settings keys step home world.files)
    (records : ∀ pair ∈ world.book.index.records, pair.2.Lies keys home world.files pair.1) :
    ∀ pair ∈ after.book.index.records, pair.2.Lies keys home after.files pair.1 := by
  have stays := moved.directory shelved
  have still (pair) (member : pair ∈ world.book.index.records) :
      pair.2.Lies keys home after.files pair.1 :=
    have lies := records pair member
    ⟨lies.known, lies.file, stays _ lies.directory⟩
  cases moved with
  | asked | prepared | begun | drafted | placed | removed => exact still
  | dropped | deleted => exact fun pair member => still pair (List.mem_of_mem_filter member)
  | counted renews =>
      intro pair member
      obtain ⟨old, before, same, file⟩ := renews.known pair member
      have lies := still old before
      exact same ▸ ⟨lies.known, file ▸ lies.file, lies.directory⟩
  | committed file format index =>
      obtain ⟨⟨⟨known, -⟩, -⟩, directory, -⟩ := fits
      intro pair member
      rw [index] at member
      rcases Keyed.mem_of_mem_put member with rfl | kept
      · exact ⟨known, file, stays _ directory⟩
      · exact still pair (List.mem_of_mem_filter kept)

theorem Moved.bounded (bounded : BoundedBook faults step (rest + 1) world.book) :
    BoundedBook faults step rest after.book := by
  cases moved with
  | asked | prepared | begun | drafted | placed | removed => exact bounded.later
  | dropped => exact bounded.later.change true fun _ member => List.mem_of_mem_filter member
  | deleted => exact bounded.later.change false fun _ member => List.mem_of_mem_filter member
  | counted renews bounded | committed file format index bounded => exact bounded

/-- What a call knows after its section is so. -/
theorem Moved.fits (shelved : Shelved opened home world.files)
    (bounded : BoundedBook faults step (rest + 1) world.book)
    (records : ∀ pair ∈ world.book.index.records, pair.2.Lies keys home world.files pair.1)
    (fits : place.Fits settings keys step home world.files) :
    (landing next).Fits settings keys step home after.files := by
  have stays := moved.directory shelved
  have lasts := fits.keeps stays
  cases moved with
  | asked asks =>
      cases asks with
      | missing | unseen | unread | refused | unknown => trivial
      | found found =>
          have among := Keyed.mem_of_find? found
          have known := records _ among
          exact ⟨⟨known.known, known.file, stays _ known.directory⟩, (bounded.records _ among).2⟩
      | seen | measured => exact lasts
      | read => exact lasts.2
      | chosen encodes => exact ⟨lasts, _, encodes⟩
  | dropped | counted => trivial
  | prepared touches directory => exact ⟨lasts, directory⟩
  | begun chosen => exact ⟨lasts.1, lasts.2, chosen⟩
  | drafted begins touches stands stored light =>
      rcases begins with rfl | ⟨table, rfl⟩
      · exact ⟨lasts.1, lasts.2, light⟩
      · exact ⟨lasts.1, lasts.2.1, light⟩
  | placed => exact lasts
  | committed =>
      refine fits_leaving fun name member => ?_
      obtain ⟨pair, among, rfl⟩ := List.mem_map.mp member
      have known := records pair (List.mem_of_mem_filter among)
      exact ⟨pair.1, known.known, known.file, stays _ known.directory⟩
  | deleted found =>
      intro name member
      obtain rfl := List.mem_singleton.mp member
      have known := records _ (Keyed.mem_of_find? found)
      exact ⟨_, known.known, known.file, stays _ known.directory⟩
  | removed known => exact fits_leaving fun name member => lasts name (List.mem_cons_of_mem _ member)

/-- The index goes on to tell the format of what is recorded. -/
theorem Moved.indexed {before : String → Option StoredValue} {history : List DiskEvent}
    (indexed : ∀ key, (Keyed.find? key world.book.index.records).map (·.format) =
      (recorded before key history).map (·.format)) (asked : String) :
    (Keyed.find? asked after.book.index.records).map (·.format) =
      (recorded before asked (place.events world.book.index.records ++ history)).map (·.format) := by
  cases moved with
  | asked asks =>
      cases asks with
      | unknown missing =>
          simp only [events, Keyed.has, missing]
          exact indexed asked
      | _ => exact indexed asked
  | prepared | begun | placed | removed => exact indexed asked
  | drafted begins =>
      rcases begins with rfl | ⟨table, rfl⟩ <;> exact indexed asked
  | counted renews => exact (renews.formats asked).trans (indexed asked)
  | @dropped key =>
      by_cases same : asked = key
      · subst same
        simp [events, recorded]
      · simpa [events, recorded, same, Ne.symm same] using indexed asked
  | @deleted key record files found =>
      by_cases same : asked = key
      · subst same
        simp [events, recorded, Keyed.has, found]
      · simpa [events, recorded, Keyed.has, found, same, Ne.symm same] using indexed asked
  | @committed write written record book files file format index =>
      rw [index]
      by_cases same : asked = write.key
      · subst same
        simp [events, recorded, format]
      · rw [Keyed.find?_put_other _ _ same, Keyed.find?_filter_keys fun key => !write.victims.contains key]
        simp only [events, List.cons_append, recorded, Ne.symm same, if_false, recorded_withdrawn]
        cases write.victims.contains asked with
        | true => rfl
        | false => exact indexed asked

theorem Moved.holdsDraft (drafting : (landing next).drafting? = some key)
    (holds : place.drafting? = some key → place.HoldsDraft settings home world.files) :
    (landing next).HoldsDraft settings home after.files := by
  cases moved with
  | asked asks touches =>
      cases asks with
      | measured =>
          obtain ⟨node, stands, stored⟩ := holds drafting
          exact ⟨node, (touches.others _ id).trans stands, stored⟩
      | _ => trivial
  | dropped | counted | prepared | begun | placed | deleted => trivial
  | drafted begins touches stands stored => exact ⟨_, stands, stored⟩
  | committed | removed => exact holdsDraft_leaving _ _

theorem Moved.usesDraft (ground : Ground settings opened home keys)
    (shelved : Shelved opened home world.files) (fits : place.Fits settings keys step home world.files)
    (sees : ∀ draft ∈ place.draft? settings, world.files.has draft = true) (known : key ∈ keys) :
    UsesDraft home key world.files after.files place (landing next) := by
  have others := (moved.touches shelved).others (draftPath home key)
  have own {write : DiskWrite} (fits : write.Fits keys step)
      (same : draftPath home key = draftPath home write.key) : write.key = key :=
    ground.apart _ fits.permits.1 _ known (payloadName_eq_of_draftPath_eq same).symm
  cases moved with
  | asked asks touches =>
      refine .spares ?_ (touches.others _ id)
      cases asks <;> exact id
  | dropped | counted => exact .spares (counts_of_idle rfl) rfl
  | prepared => exact .spares (counts_of_idle rfl) (others (shelfPath_ne home _ _ _).symm)
  | @begun write table =>
      by_cases same : draftPath home key = draftPath home write.key
      · exact .writes (congrArg some (own fits.1 same)) (counts_of_idle rfl)
      · exact .spares (counts_of_idle rfl) (others same)
  | @drafted _ write written _ _ begins =>
      rcases begins with rfl | ⟨table, rfl⟩
      · by_cases same : draftPath home key = draftPath home write.key
        · exact .writes (congrArg some (own fits.1 same)) (counts_of_idle rfl)
        · exact .spares (counts_of_idle rfl) (others same)
      · by_cases same : draftPath home key = draftPath home write.key
        · refine .writes (congrArg some (own fits.1 same)) fun _ => ?_
          rw [same, ← has_draft ground.vacant shelved fits.2.1]
          exact sees _ rfl
        · exact .spares id (others same)
  | @placed write written node files stands touches there gone =>
      by_cases same : draftPath home key = draftPath home write.key
      · refine .movesAway (congrArg some (own fits.1 same)) ?_ ?_
        · rw [same, isThere, stands]
          rfl
        · rw [same, isThere, gone]
          rfl
      · refine .spares (fun drafting => ?_) (others ?_)
        · rw [Option.some.inj drafting] at same
          exact absurd rfl same
        · exact not_or.mpr ⟨same, (payloadPath_ne_draftPath home _ _).symm⟩
  | committed | deleted => exact .spares (counts_of_idle rfl) (others (payloadPath_ne_index home _ _))
  | removed =>
      refine .spares (counts_of_idle rfl) (others ?_)
      rintro ⟨other, -, -, same⟩
      exact payloadPath_ne_draftPath home _ _ same.symm

/-- The file of a key holds what was placed there last, if it is the own payload of each write that is
placed. -/
theorem Moved.contains {before : String → Option StoredValue} {history : List DiskEvent}
    (ground : Ground settings opened home keys) (shelved : Shelved opened home world.files)
    (fits : place.Fits settings keys step home world.files) (known : key ∈ keys)
    (holds : place.drafting? = some key → place.HoldsDraft settings home world.files)
    (contains : Contains settings home world.files key (filed before key history)) :
    Contains settings home after.files key
      (filed before key (place.events world.book.index.records ++ history)) := by
  have others := (moved.touches shelved).others (payloadPath home key)
  have kept (spared : ¬place.Touched home keys (payloadPath home key)) :
      Contains settings home after.files key (filed before key history) :=
    contains.of_node? (others spared)
  cases moved with
  | asked asks touches =>
      have still := contains.of_node? (touches.others _ id)
      cases asks with
      | unknown missing =>
          simp only [events, Keyed.has, missing]
          exact still
      | _ => exact still
  | dropped | counted => exact contains
  | prepared => exact kept (shelfPath_ne home _ _ _).symm
  | begun => exact kept (payloadPath_ne_draftPath home _ _)
  | drafted begins =>
      rcases begins with rfl | ⟨table, rfl⟩ <;> exact kept (payloadPath_ne_draftPath home _ _)
  | @placed write written node files stands touches there gone =>
      by_cases same : write.key = key
      · subst same
        obtain ⟨held, drafted, stored⟩ := holds rfl
        cases drafted.symm.trans stands
        simp only [events, List.singleton_append, filed, if_true]
        exact .payload there stored
      · simp only [events, List.singleton_append, filed, same, if_false]
        refine kept (not_or.mpr ⟨payloadPath_ne_draftPath home _ _, fun path => same ?_⟩)
        exact ground.apart _ fits.1.permits.1 _ known (payloadName_eq_of_path_eq path).symm
  | @committed write written =>
      have unchanged : filed before key
          ((committing write written).events world.book.index.records ++ history) =
          filed before key history := filed_withdrawn before key history write.victims
      rw [unchanged]
      exact kept (payloadPath_ne_index home _ _)
  | deleted found =>
      simp only [events, Keyed.has, found, Option.isSome_some, if_true, List.singleton_append, filed]
      exact kept (payloadPath_ne_index home _ _)
  | @removed other others answer files among touches gone =>
      by_cases same : other = key
      · subst same
        simp only [events, List.singleton_append, filed, if_true]
        exact .nothing gone
      · have different : fileFor other ≠ fileFor key :=
          fun equal => same (ground.apart _ among _ known (payloadName_eq_of_fileFor_eq equal))
        simp only [events, List.singleton_append, filed, different, if_false]
        refine contains.of_node? (touches.others _ fun path => same ?_)
        exact ground.apart _ among _ known (payloadName_eq_of_path_eq path).symm

end

end CallPlace

end TierVault
