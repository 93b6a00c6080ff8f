import TierVault.Proofs.Store.Disk

/-!
A store in the files of a directory, while things change elsewhere, and when it is closed and opened again.

The store depends on the tree below its directory, and on nothing else. What it does to the files can be
told from the files that it finds, as if they had just been opened: with nothing in its own directory.

Closing writes the index to its file, if it has not been written since it changed. Opening reads it back and
finds the file of every record, so that the store stands for the map that it stood for.
-/

/-! # Changes elsewhere -/

namespace TierVault

variable {root : String} {base files after : FileSystem} {home path other : Path}

namespace FileSystem

/-! ## Seen from a place -/

theorem node?_of_walk (same : after.nodes.walk home = files.nodes.walk home) (rest : List String) :
    after.node? (home ++ rest) = files.node? (home ++ rest) := by
  unfold node? PathTree.find?
  rw [PathTree.walk_append, PathTree.walk_append, same]

theorem isDirectory_of_walk (same : after.nodes.walk home = files.nodes.walk home) (rest : List String) :
    after.isDirectory (home ++ rest) = files.isDirectory (home ++ rest) := by
  rw [isDirectory, isDirectory, node?_of_walk same]

theorem isThere_of_walk (same : after.nodes.walk home = files.nodes.walk home) (rest : List String) :
    after.isThere (home ++ rest) = files.isThere (home ++ rest) := by
  rw [isThere, isThere, node?_of_walk same]

/-! ## Without what is in a directory -/

/-- The tree without what stands below a path. -/
def emptied (files : FileSystem) (path : Path) : FileSystem :=
  { files with nodes := files.nodes.change (fun tree => .bare tree.item?) path }

theorem walk_emptied_same (files : FileSystem) (home : Path) :
    (files.emptied home).nodes.walk home = .bare (files.nodes.walk home).item? :=
  PathTree.walk_change_same _ home files.nodes

theorem walk_emptied_apart (below : ¬home <+: other) (above : ¬other <+: home) :
    (files.emptied home).nodes.walk other = files.nodes.walk other :=
  PathTree.walk_change_apart _ below above files.nodes

theorem node?_emptied_below (files : FileSystem) (home : Path) (name : String) (rest : List String) :
    (files.emptied home).node? (home ++ name :: rest) = none := by
  rw [node?, if_neg (by simp)]
  change ((files.emptied home).nodes.walk _).item? = none
  rw [PathTree.walk_append, walk_emptied_same]
  exact congrArg PathTree.item? (PathTree.walk_empty rest)

/-- A path is strictly below another one, or it is not. -/
theorem below_or_not (home path : Path) :
    (∃ name rest, path = home ++ name :: rest) ∨ path = home ∨ ¬home <+: path := by
  by_cases front : home <+: path
  · obtain ⟨rest, rfl⟩ := front
    cases rest with
    | nil => exact .inr (.inl (List.append_nil home))
    | cons name rest => exact .inl ⟨name, rest, rfl⟩
  · exact .inr (.inr front)

theorem node?_emptied (outside : ∀ name rest, path ≠ home ++ name :: rest) :
    (files.emptied home).node? path = files.node? path := by
  rcases below_or_not home path with ⟨name, rest, inside⟩ | rfl | apart
  · exact absurd inside (outside name rest)
  · unfold node?
    split
    · rfl
    · exact (congrArg PathTree.item? (walk_emptied_same files path)).trans rfl
  · unfold node?
    split
    · rfl
    · exact PathTree.find?_change_apart _ apart files.nodes

/-- Directories that are left are directories. -/
theorem keeps_emptied (files : FileSystem) (home : Path) :
    Keeps (fun _ => False) (files.emptied home) files where
  workingDirectory := rfl
  refuses := rfl
  directory path there := by
    have outside : ∀ name rest, path ≠ home ++ name :: rest := by
      rintro name rest rfl
      rw [isDirectory, node?_emptied_below] at there
      cases there
    rwa [isDirectory, node?_emptied outside] at there
  node _ _ impossible := impossible.elim

/-- Where nothing was in the directory before, all directories from before are left. -/
theorem Vacant.keeps_emptied (vacant : Vacant base root home) (keeps : Keeps (fun _ => False) base files) :
    Keeps (fun _ => False) base (files.emptied home) where
  workingDirectory := keeps.workingDirectory
  refuses := keeps.refuses
  directory path there := by
    have outside : ∀ name rest, path ≠ home ++ name :: rest := by
      rintro name rest rfl
      rw [isDirectory, vacant.node? name rest] at there
      cases there
    rw [isDirectory, node?_emptied outside]
    exact keeps.directory path there
  node _ _ impossible := impossible.elim

theorem Vacant.emptied (vacant : Vacant base root home) (keeps : Keeps (fun _ => False) base files) :
    Vacant (files.emptied home) root home :=
  have kept := vacant.keeps_emptied keeps
  ⟨vacant.holds.keeps kept, kept.quiet vacant.quiet, vacant.short, _, walk_emptied_same files home⟩

end FileSystem

namespace DiskStore

open FileSystem TierVault.Action

variable {opened : FileSystem} {faults : Fault → Prop} {settings : DiskSettings} {keys : List String}
  {step rest : Nat} {residents : List (Resident DiskRecord)} {book : DiskBook} {map : RecentMap}

/-! ## The store -/

theorem Shelved.of_walk (shelved : Shelved opened home files)
    (same : after.nodes.walk home = files.nodes.walk home) : Shelved (after.emptied home) home after where
  keeps := keeps_emptied after home
  separate := same ▸ shelved.separate
  shelves name short there := by
    rw [isThere_of_walk same] at there
    rw [isDirectory_of_walk same]
    exact shelved.shelves name short there
  directory name rest there := by
    rw [isDirectory_of_walk same] at there
    exact shelved.directory name rest there
  elsewhere _ below above := (walk_emptied_apart below above).symm
  seconds := rfl

theorem Holds.of_walk {key : String} {record : DiskRecord} {value : Value}
    (holds : Holds settings home files key record value)
    (same : after.nodes.walk home = files.nodes.walk home) : Holds settings home after key record value where
  file := holds.file
  directory := (isDirectory_of_walk same _).trans holds.directory
  stored := by
    rw [node?_of_walk same]
    exact holds.stored

/-- A store goes on to stand for its map while its directory is left alone. -/
theorem Stands.of_walk
    (stands : Stands settings opened home keys faults step rest residents ⟨book, files⟩ map)
    (same : after.nodes.walk home = files.nodes.walk home) (seconds : after.seconds = files.seconds) :
    Stands settings (after.emptied home) home keys faults step rest residents ⟨book, after⟩ map where
  shelved := stands.shelved.of_walk same
  ranks := stands.ranks
  mirrors := stands.mirrors.imp fun _ _ _ holds => holds.of_walk same
  known := stands.known
  book := stands.book
  sizes := stands.sizes
  saved := stands.saved.imp_right fun filed => filed.of_node? (node?_of_walk same _)
  words early := stands.words ((seconds.trans stands.shelved.seconds).symm.trans_lt early)

/-- Where a stop is expected at a count that is no word, a run may be of any length. -/
theorem Stands.of_overflows {world : DiskWorld}
    (stands : Stands settings opened home keys faults step rest residents world map)
    (overflows : faults .sumOverflow) (more : Nat) :
    Stands settings opened home keys faults step more residents world map :=
  have any (count : Nat) : Bounded faults step more count := fun checked => absurd overflows checked
  { stands with
    book := ⟨any _, any _, any _, any _, any _, fun pair member =>
      ⟨any _, (stands.book.records pair member).2⟩⟩
    sizes := any _ }

/-! ## Calls -/

/-- The store stands for the map, whatever is elsewhere in the tree. It stops at a count that is no word. -/
def StandsIn (settings : DiskSettings) (home : Path) (keys : List String) (step : Nat) (world : DiskWorld)
    (map : RecentMap) : Prop :=
  ∃ residents, Stands settings (world.files.emptied home) home keys (· = .sumOverflow) step 0 residents
    world map

theorem StandsIn.of_walk (stands : StandsIn settings home keys step ⟨book, files⟩ map)
    (same : after.nodes.walk home = files.nodes.walk home) (seconds : after.seconds = files.seconds) :
    StandsIn settings home keys step ⟨book, after⟩ map := by
  obtain ⟨residents, stands⟩ := stands
  exact ⟨residents, stands.of_walk same seconds⟩

theorem standsIn_of_vacant (vacant : Vacant files settings.root home) :
    StandsIn settings home keys step ⟨⟨.empty, false, default⟩, files⟩ [] := by
  have stands : Stands settings files home keys (· = .sumOverflow) step 0 []
      ⟨⟨.empty, false, default⟩, files⟩ [] :=
    stands_of_vacant vacant fun unexpected => absurd rfl unexpected
  exact ⟨[], stands.of_walk rfl rfl⟩

theorem StandsIn.recounts (stands : StandsIn settings home keys step ⟨book, files⟩ map)
    (recounts : Recounts files after) : StandsIn settings home keys step ⟨book, after⟩ map := by
  obtain ⟨calls, rfl⟩ := recounts
  exact stands.of_walk rfl rfl

theorem Ground.emptied (ground : Ground settings base home keys)
    (keeps : Keeps (fun _ => False) base files) : Ground settings (files.emptied home) home keys :=
  ⟨ground.vacant.emptied keeps, ground.level, ground.apart⟩

/-- Files change in the directory and nowhere else, and no directory goes that was there from the beginning. -/
structure Confined (base : FileSystem) (home : Path) (files after : FileSystem) : Prop where
  keeps : Keeps (fun _ => False) base after
  elsewhere : ∀ other, ¬home <+: other → ¬other <+: home →
    after.nodes.walk other = files.nodes.walk other
  seconds : after.seconds = files.seconds

theorem Shelved.confined (shelved : Shelved (files.emptied home) home after)
    (vacant : Vacant base root home) (keeps : Keeps (fun _ => False) base files) :
    Confined base home files after where
  keeps := (vacant.keeps_emptied keeps).trans shelved.keeps
  elsewhere other below above :=
    (shelved.elsewhere other below above).trans (walk_emptied_apart below above)
  seconds := shelved.seconds

/-- Each call does what the map does, and changes nothing elsewhere. -/
theorem leads_call (ground : Ground settings base home keys) (some : 1 ≤ step)
    (keeps : Keeps (fun _ => False) base files)
    (stands : StandsIn settings home keys step ⟨book, files⟩ map) {call : StoreCall}
    (permits : Permits keys step call) :
    Leads (· = .sumOverflow) (call.run (store settings)).run ⟨book, files⟩ fun answer after =>
      answer = (RecentMap.step settings.budget map call).1 ∧
        StandsIn settings home keys step after (RecentMap.step settings.budget map call).2 ∧
          Confined base home files after.files := by
  obtain ⟨residents, stands⟩ := stands
  apply ((stands.of_overflows rfl 1).leads_call (ground.emptied keeps) some permits).imp
  rintro answer ⟨after_book, after⟩ - ⟨same, residents, onward⟩
  exact ⟨same, ⟨residents, onward.of_walk rfl rfl⟩, onward.shelved.confined ground.vacant keeps⟩

end DiskStore

end TierVault

/-! # Closing and opening -/

namespace TierVault.DiskStore

open FileSystem StoreAction TierVault.Action

variable {faults expected : Fault → Prop} {settings : DiskSettings} {opened files after : FileSystem}
  {home : Path} {keys : List String} {step rest : Nat} {residents : List (Resident DiskRecord)}
  {book : DiskBook} {map : RecentMap}

/-! ## Closing -/

theorem close_succeeds (vacant : Vacant opened settings.root home)
    (stands : Stands settings opened home keys faults step rest residents ⟨book, files⟩ map) :
    Succeeds expected (close settings) ⟨book, files⟩ fun _ final =>
      final.book.index = book.index ∧ Filed home book.index final.files ∧
        Stands settings opened home keys faults step rest residents final map := by
  refine succeeds_attempt ((persist_succeeds vacant stands.shelved stands.saved).leads.imp ?_)
  rintro answer ⟨_, final⟩ - ⟨-, -, rfl, filed, shelved, persisted⟩
  refine ⟨rfl, filed, shelved, stands.ranks, ?_, stands.known, ?_, stands.sizes, .inr filed, stands.words⟩
  · exact mirrors_keeps stands.mirrors persisted fun _ _ => trivial
  · exact stands.book.change false fun _ member => member

/-! ## Opening -/

/-- What the index file tells is read back. Without one the index is empty. -/
theorem readIndex_succeeds {index : DiskIndex} {Result : Type}
    {next : DiskIndex → StoreAction FileSystem Result} {goal : Result → FileSystem → Prop}
    (quiet : files.Quiet) (names : Names files settings.indexFile home "metadata.json")
    (filed : Filed home index files) (distinct : Keyed.Distinct index.records) (words : index.Words)
    (further : ∀ after, Recounts files after → Succeeds expected (next index) after goal) :
    Succeeds expected (do
      let index : DiskIndex ←
        if files.has settings.indexFile then do
          match ← ExceptT.lift (StoreAction.onFiles (FileSystem.readFile settings.indexFile)).run with
          | .ok text => pure ((DiskIndex.parse text).toOption.getD .empty)
          | .error _ => pure .empty
        else pure .empty
      next index) files goal := by
  rcases filed with stands | ⟨missing, rfl⟩
  · have there : files.has settings.indexFile = true := by
      rw [FileSystem.has, names.find (isThere_of_node? stands)]
      rfl
    rw [if_pos there]
    refine Succeeds.bind (Succeeds.lift (succeeds_onFiles_of_eq (names.readFile_eq quiet stands) ?_))
    dsimp only
    rw [DiskIndex.parse_text distinct words]
    exact further _ ⟨_, rfl⟩
  · have absent : files.isThere (home ++ ["metadata.json"]) = false := by
      rw [isThere, missing]
      rfl
    have gone : ¬files.has settings.indexFile = true := by
      rw [FileSystem.has, names.find_of_missing absent]
      exact Bool.false_ne_true
    rw [if_neg gone]
    exact further _ ⟨_, rfl⟩

theorem Stands.allFound (vacant : Vacant opened settings.root home)
    (stands : Stands settings opened home keys faults step rest residents ⟨book, files⟩ map) :
    book.index.records.filter (fun (_, record) =>
      files.counted.has (FileName.join settings.root record.file)) = book.index.records := by
  refine List.filter_eq_self.mpr fun pair member => ?_
  obtain ⟨resident, known, rfl⟩ := List.mem_map.mp (stands.ranks.records.mem_iff.mpr member)
  obtain ⟨value, holds⟩ := stands.mirrors.of_mem known
  have keeps : Keeps (Payloads home fun _ => True) files files.counted := (extends_counted files).weaken
  exact (holds.keeps keeps trivial).has vacant stands.shelved.counted

/-- The index is read back, and all files of its records are found. -/
theorem openIn_succeeds (vacant : Vacant opened settings.root home)
    (stands : Stands settings opened home keys faults step rest residents ⟨book, files⟩ map)
    (filed : Filed home book.index files) (early : opened.seconds < Word.limit) :
    Succeeds expected (openIn settings) files fun reopened after =>
      reopened = ⟨book.index, false, default⟩ ∧ Recounts files after := by
  have shelved := stands.shelved
  have quiet := shelved.quiet vacant
  have holds := shelved.holds vacant
  have short := vacant.short
  have size : "metadata.json".utf8ByteSize = 13 := by decide
  have limit : nameLimit = 4096 := rfl
  have names := (holds.names plain_indexName (by omega)).counted
  unfold openIn
  refine Succeeds.bind (succeeds_onFiles_of_eq (holds.makeDirectories_eq quiet) ?_)
  refine Succeeds.bind (succeeds_getThe ?_)
  refine readIndex_succeeds (shelved.counted.quiet vacant) names filed stands.ranks.keys_distinct
    (stands.words early) ?_
  rintro final ⟨calls, rfl⟩
  simp only [stands.allFound vacant, Nat.lt_irrefl, decide_false]
  exact succeeds_pure ⟨rfl, _, rfl⟩

/-- Opened again, the store stands for its map. Its totals begin at zero. -/
theorem Stands.reopened
    (stands : Stands settings opened home keys faults step rest residents ⟨book, files⟩ map)
    (filed : Filed home book.index files) (recounts : Recounts files after) :
    Stands settings opened home keys faults step rest residents
      ⟨⟨book.index, false, default⟩, after⟩ map := by
  have shelved := stands.shelved.recounts recounts
  have keeps := recounts.extends
  obtain ⟨calls, rfl⟩ := recounts
  have none : Bounded faults step rest 0 := stands.book.clock.of_le (Nat.zero_le _)
  refine ⟨shelved, stands.ranks, ?_, stands.known, ?_, stands.sizes, .inr filed, stands.words⟩
  · have kept : Keeps (Payloads home fun _ => True) files { files with calls } := keeps.weaken
    exact mirrors_keeps stands.mirrors kept fun _ _ => trivial
  · exact ⟨stands.book.clock, none, none, none, none, stands.book.records⟩

/-! ## With other things in the tree -/

variable {base : FileSystem}

/-- A store that is closed has its index in the file. -/
theorem StandsIn.closed (ground : Ground settings base home keys) (keeps : Keeps (fun _ => False) base files)
    (stands : StandsIn settings home keys step ⟨book, files⟩ map) : ∃ after,
      (close settings).run ⟨book, files⟩ = .ok (.ok ()) after ∧ StandsIn settings home keys step after map ∧
        Filed home after.book.index after.files ∧ Confined base home files after.files := by
  obtain ⟨residents, stands⟩ := stands
  have closing : Succeeds (fun _ => False) (close settings) _ _ := close_succeeds (ground.emptied keeps).vacant stands
  obtain ⟨answer, ⟨closed, after⟩, ended, ⟨⟨⟩, rfl, same, filed, still⟩⟩ := closing.leads.ends fun _ => id
  refine ⟨_, ended, ⟨residents, still.of_walk rfl rfl⟩, ?_, still.shelved.confined ground.vacant keeps⟩
  exact same ▸ filed

/-- A store whose index is in the file is opened again as it was. -/
theorem StandsIn.reopened (ground : Ground settings base home keys)
    (keeps : Keeps (fun _ => False) base files)
    (stands : StandsIn settings home keys step ⟨book, files⟩ map) (filed : Filed home book.index files)
    (early : files.seconds < Word.limit) : ∃ opened after,
      (openIn settings).run files = .ok (.ok opened) after ∧ Recounts files after ∧
        StandsIn settings home keys step ⟨opened, after⟩ map := by
  obtain ⟨residents, stands⟩ := stands
  have opening : Succeeds (fun _ => False) (openIn settings) _ _ :=
    openIn_succeeds (ground.emptied keeps).vacant stands filed early
  obtain ⟨answer, after, ended, ⟨_, rfl, rfl, recounts⟩⟩ := opening.leads.ends fun _ => id
  refine ⟨_, after, ended, recounts, residents, (stands.reopened filed recounts).of_walk rfl rfl⟩

end TierVault.DiskStore
