import TierVault.Proofs.Store.DiskSteps

/-!
What single calls on files do to the payload files of a disk store.

Each call changes what stands at one path or two, and nothing else. Whether a temporary file is there when it
is moved depends on what other calls did before.
-/

namespace TierVault

open FileSystem

namespace FileSystem

variable {name other last final : String} {files : FileSystem} {above beyond : Path}

theorem Names.rename_eq_of_missing (names : Names files name above last) (quiet : files.Quiet)
    (missing : files.isThere (above ++ [last]) = false) :
    rename name other files = .error .notFound files.counted := by
  have absent : files.counted.isThere (above ++ [last]) = false := missing
  simp only [rename, bind, EStateM.bind, call_of_quiet quiet, get_eq,
    names.counted.find_of_missing absent, ofExcept]
  rfl

/-- Looking at what a name names changes nothing. -/
theorem openNode_leaves (quiet : files.Quiet) (name : String) :
    (∃ node, openNode name files = .ok node files.counted) ∨
      ∃ error, openNode name files = .error error files.counted := by
  simp only [openNode, bind, EStateM.bind, call_of_quiet quiet, get_eq]
  cases files.counted.find name with
  | error error => exact .inr ⟨error, rfl⟩
  | ok path =>
      dsimp only [ofExcept, pure, EStateM.pure]
      cases files.counted.node? path with
      | none => exact .inr ⟨_, rfl⟩
      | some node => exact .inl ⟨node, rfl⟩

theorem readFile_leaves (quiet : files.Quiet) (name : String) :
    (∃ content, readFile name files = .ok content files.counted) ∨
      ∃ error, readFile name files = .error error files.counted := by
  simp only [readFile, bind, EStateM.bind]
  rcases openNode_leaves quiet name with ⟨node, opens⟩ | ⟨error, fails⟩
  · rw [opens]
    dsimp only
    cases node.content? with
    | none => exact .inr ⟨_, rfl⟩
    | some content => exact .inl ⟨content, rfl⟩
  · rw [fails]
    exact .inr ⟨error, rfl⟩

end FileSystem

namespace DiskStore

open StoreAction TierVault.Action

variable {faults : Fault → Prop} {settings : DiskSettings} {opened files middle after : FileSystem}
  {home path : Path} {key other name : String} {node : Node} {world : DiskWorld}
  {changed : Path → Prop}

/-! ## Paths -/

def shelfPath (home : Path) (key : String) : Path := home ++ [shelfName key]

def payloadPath (home : Path) (key : String) : Path := home ++ [shelfName key, payloadName key]

def draftPath (home : Path) (key : String) : Path := home ++ [shelfName key, draftName key]

theorem payloadName_eq_of_draftName_eq (same : draftName key = draftName other) :
    payloadName key = payloadName other := by
  have letters := congrArg String.toList same
  rw [draftName, draftName, String.toList_append, String.toList_append] at letters
  rw [payloadName, payloadName, String.toList_inj.mp (List.append_cancel_right letters)]

theorem payloadName_eq_of_path_eq (same : payloadPath home key = payloadPath home other) :
    payloadName key = payloadName other :=
  (List.cons.inj (List.cons.inj (List.append_cancel_left same)).2).1

theorem payloadName_eq_of_draftPath_eq (same : draftPath home key = draftPath home other) :
    payloadName key = payloadName other :=
  payloadName_eq_of_draftName_eq (List.cons.inj (List.cons.inj (List.append_cancel_left same)).2).1

theorem fileFor_eq (key : String) : fileFor key = shelfName key ++ ("/" ++ payloadName key) := by
  rw [fileFor, shelfName, payloadName, String.append_assoc, String.append_assoc]

theorem payloadName_eq_of_fileFor_eq (same : fileFor key = fileFor other) :
    payloadName key = payloadName other := by
  rw [fileFor_eq, fileFor_eq] at same
  have letters := congrArg String.toList same
  simp only [String.toList_append] at letters
  have front := (length_shelfName key).trans (length_shelfName other).symm
  exact String.toList_inj.mp (List.append_cancel_left (List.append_inj letters front).2)

theorem payloadPath_ne_draftPath (home : Path) (key other : String) :
    payloadPath home key ≠ draftPath home other :=
  fun same => payloadName_ne_draftName key other
    (List.cons.inj (List.cons.inj (List.append_cancel_left same)).2).1

theorem shelfPath_ne (home : Path) (key shelf name : String) :
    shelfPath home key ≠ home ++ [shelf, name] := by
  intro same
  exact absurd (congrArg List.length (List.append_cancel_left same)) (by simp)

theorem append_draftName (home : Path) (key : String) :
    home ++ [shelfName key] ++ [draftName key] = draftPath home key := append_pair ..

theorem append_payloadName (home : Path) (key : String) :
    home ++ [shelfName key] ++ [payloadName key] = payloadPath home key := append_pair ..

/-! ## Changes at some paths -/

/-- The files are those of a store, and what stands at other paths than the changed ones is as it was. -/
structure Touches (opened : FileSystem) (home : Path) (changed : Path → Prop)
    (files after : FileSystem) : Prop where
  shelved : Shelved opened home after
  others : ∀ path, ¬changed path → after.node? path = files.node? path

theorem Touches.directory (touches : Touches opened home changed files after) (spared : ¬changed path)
    (directory : files.isDirectory path = true) : after.isDirectory path = true := by
  rw [isDirectory, touches.others path spared]
  exact directory

theorem Touches.refl (changed : Path → Prop) (shelved : Shelved opened home files) :
    Touches opened home changed files files := ⟨shelved, fun _ _ => rfl⟩

theorem Touches.trans (first : Touches opened home changed files middle)
    (second : Touches opened home changed middle after) : Touches opened home changed files after :=
  ⟨second.shelved, fun path spared => (second.others path spared).trans (first.others path spared)⟩

theorem Touches.mono {more : Path → Prop} (touches : Touches opened home changed files after)
    (among : ∀ path, changed path → more path) : Touches opened home more files after :=
  ⟨touches.shelved, fun path spared => touches.others path fun own => spared (among path own)⟩

theorem Touches.of_recounts (changed : Path → Prop) (shelved : Shelved opened home files)
    (recounts : Recounts files after) : Touches opened home changed files after :=
  ⟨shelved.recounts recounts, fun path _ => recounts.node? path⟩

theorem touches_counted (shelved : Shelved opened home files) :
    Touches opened home (fun _ => False) files files.counted :=
  .of_recounts _ shelved (recounts_counted files)

/-! ## Calls on files -/

/-- A call whose error is passed over. -/
theorem run_attempt {action : DiskAction Unit} {answer : Except StoreError Unit} {final : DiskWorld}
    (ended : action.run world = .ok answer final) :
    (StoreAction.attempt action).run world = .ok (.ok ()) final := by
  unfold StoreAction.attempt
  rw [ExceptT.run_bind, ExceptT.run_lift]
  change EStateM.bind (EStateM.map _ action.run) _ world = _
  unfold EStateM.bind EStateM.map
  rw [ended]
  rfl

section

variable {above beyond : Path} {last end_ first second : String} {rest further : List String}

theorem touches_writeNode (shelved : Shelved opened home files) (quiet : files.Quiet)
    (names : Names files name above last) (lies : above ++ [last] = home ++ first :: rest)
    (wide : rest = [] → utf8Length first ≠ 2) (node : Node) (plain : node.isDirectory = false) :
    ∃ after, writeNode name node files = .ok () after ∧
      Touches opened home (· = home ++ first :: rest) files after ∧
        after.node? (home ++ first :: rest) = some node := by
  have ended := names.writeNode_eq quiet (lies ▸ shelved.plain wide) node
  rw [lies] at ended
  refine ⟨_, ended, ⟨shelved.counted.place wide plain, fun path spared => ?_⟩, ?_⟩
  · exact node?_place_other files.counted node spared
  · exact node?_place_same _ node (by simp)

theorem touches_rename (shelved : Shelved opened home files) (quiet : files.Quiet)
    (names : Names files name above last) (lies : above ++ [last] = home ++ first :: rest)
    (wide : rest = [] → utf8Length first ≠ 2)
    (target : Names files other beyond end_) (there : beyond ++ [end_] = home ++ second :: further)
    (wide' : further = [] → utf8Length second ≠ 2)
    (apart : home ++ first :: rest ≠ home ++ second :: further)
    (stands : files.node? (home ++ first :: rest) = some node) (plain : node.isDirectory = false) :
    ∃ after, rename name other files = .ok () after ∧
      Touches opened home
        (fun path => path = home ++ first :: rest ∨ path = home ++ second :: further) files after ∧
      after.node? (home ++ second :: further) = some node ∧
        after.node? (home ++ first :: rest) = none := by
  have ended := names.rename_eq target quiet (lies ▸ stands) (there ▸ shelved.plain wide')
  rw [lies, there] at ended
  have left := shelved.counted.discard wide
  refine ⟨_, ended, ⟨left.place wide' plain, fun path spared => ?_⟩, ?_, ?_⟩
  · rw [node?_place_other _ node (spared ∘ .inr), node?_discard_other _ (spared ∘ .inl)]
    rfl
  · exact node?_place_same _ node (by simp)
  · rw [node?_place_other _ node apart]
    exact node?_discard_same _ (by simp)

end

/-- Where there is no file, none is removed. -/
theorem touches_attempt_remove (shelved : Shelved opened home files) (quiet : files.Quiet)
    {above : Path} {last first : String} {rest : List String} (names : Names files name above last)
    (lies : above ++ [last] = home ++ first :: rest) (wide : rest = [] → utf8Length first ≠ 2)
    (book : DiskBook) :
    ∃ after, (StoreAction.attempt (onFiles (removeFile name))).run ⟨book, files⟩ =
        .ok (.ok ()) ⟨book, after⟩ ∧
      Touches opened home (· = home ++ first :: rest) files after ∧
        after.node? (home ++ first :: rest) = none := by
  have plain := shelved.plain wide
  cases there : files.isThere (home ++ first :: rest) with
  | true =>
      have ended := names.removeFile_eq quiet (lies ▸ there) (lies ▸ plain)
      rw [lies] at ended
      refine ⟨_, run_attempt (run_onFiles ended),
        ⟨shelved.counted.discard wide, fun path spared => ?_⟩, ?_⟩
      · exact node?_discard_other files.counted spared
      · exact node?_discard_same _ (by simp)
  | false =>
      have failed := names.removeFile_eq_of_missing quiet (lies ▸ there)
      refine ⟨_, run_attempt (run_onFiles_of_error failed), ⟨shelved.counted, fun _ _ => rfl⟩, ?_⟩
      exact Option.not_isSome_iff_eq_none.mp (Bool.not_eq_true _ ▸ there)

/-- The changed index is written to its file. -/
theorem touches_persist (vacant : Vacant opened settings.root home)
    (shelved : Shelved opened home files) {book : DiskBook} (dirty : book.dirty = true) :
    ∃ after, (persist settings).run ⟨book, files⟩ =
        .ok (.ok ()) ⟨⟨book.index, false, book.transfers⟩, after⟩ ∧
      Touches opened home (fun path => path = home ++ ["metadata.json.tmp"] ∨
        path = home ++ ["metadata.json"]) files after ∧
      after.node? (home ++ ["metadata.json"]) = some (.file book.index.text) ∧
        after.node? (home ++ ["metadata.json.tmp"]) = none := by
  have short := vacant.short
  have limit : nameLimit = 4096 := rfl
  have draftSize : "metadata.json.tmp".utf8ByteSize = 17 := by decide
  have size : "metadata.json".utf8ByteSize = 13 := by decide
  have draft := (shelved.holds vacant).names plain_indexDraftName (by omega)
  obtain ⟨middle, written, first, stands⟩ := touches_writeNode shelved (shelved.quiet vacant) draft rfl
    (fun _ => by decide) (.file book.index.text) rfl
  have quiet := first.shelved.quiet vacant
  have source := (first.shelved.holds vacant).names plain_indexDraftName (by omega)
  have target := (first.shelved.holds vacant).names plain_indexName (by omega)
  obtain ⟨final, moved, second, told⟩ := touches_rename first.shelved quiet source rfl
    (fun _ => by decide) target rfl (fun _ => by decide) (by simp) stands rfl
  refine ⟨final, ?_, ⟨second.shelved, fun path spared => ?_⟩, told⟩
  · unfold persist
    rw [run_bind_of_ok (show (getThe DiskWorld : DiskAction DiskWorld).run _ = .ok (.ok _) _ from rfl)]
    simp only [dirty, Bool.not_true, Bool.false_eq_true, if_false]
    rw [run_bind_of_ok (run_onFiles written), run_bind_of_ok (run_onFiles moved)]
    rfl
  · exact (second.others path spared).trans (first.others path (spared ∘ .inl))

section

variable (vacant : Vacant opened settings.root home) (shelved : Shelved opened home files)
  (directory : files.isDirectory (shelfPath home key) = true)

include vacant shelved directory

/-- Whether the temporary file is there can be told by its name. -/
theorem has_draft : files.has (draftFor settings key) = files.isThere (draftPath home key) := by
  have names := names_draft vacant shelved directory
  rw [← append_draftName, FileSystem.has]
  cases there : files.isThere (home ++ [shelfName key] ++ [draftName key]) with
  | true =>
      rw [names.find there]
      rfl
  | false =>
      rw [names.find_of_missing there]
      rfl

theorem has_payload : files.has (nameFor settings key) = files.isThere (payloadPath home key) := by
  have names := names_target vacant shelved directory
  rw [← append_payloadName, FileSystem.has]
  cases there : files.isThere (home ++ [shelfName key] ++ [payloadName key]) with
  | true =>
      rw [names.find there]
      rfl
  | false =>
      rw [names.find_of_missing there]
      rfl

/-- A payload cannot be read in a format that it was not written in. -/
theorem readPayload_of_other {format other : PayloadFormat} {value : Value}
    (stands : files.node? (payloadPath home key) = some node) (stored : Stored settings other node value)
    (different : other ≠ format) (book : DiskBook) :
    ∃ error, (readPayload settings (nameFor settings key) format).run ⟨book, files⟩ =
      .ok (.error error) ⟨book, files.counted⟩ := by
  rw [← append_payloadName] at stands
  have opens := (names_target vacant shelved directory).openNode_eq (shelved.quiet vacant) stands
  cases format with
  | columnar =>
      cases other with
      | columnar => exact absurd rfl different
      | binary =>
          obtain ⟨content, encoded, rfl, -⟩ := stored
          rw [readPayload, run_bind_of_ok (run_onFiles opens)]
          exact ⟨_, rfl⟩
  | binary =>
      cases other with
      | binary => exact absurd rfl different
      | columnar =>
          obtain ⟨file, table, rfl, -⟩ := stored
          have reads : readFile (nameFor settings key) files =
              .ok (Columnar.magic ++ [0xFF]) files.counted := by
            simp only [readFile, bind, EStateM.bind, opens]
            rfl
          have plain : settings.compressor.decompressIfFrame (Columnar.magic ++ [0xFF]) =
              .ok (Columnar.magic ++ [0xFF]) := rfl
          rw [readPayload, run_bind_of_ok (run_onFiles reads), plain]
          exact ⟨_, rfl⟩

theorem touches_writeDraft (node : Node) (plain : node.isDirectory = false) :
    ∃ after, writeNode (draftFor settings key) node files = .ok () after ∧
      Touches opened home (· = draftPath home key) files after ∧
        after.node? (draftPath home key) = some node :=
  touches_writeNode shelved (shelved.quiet vacant) (names_draft vacant shelved directory)
    (append_draftName home key) nofun node plain

theorem touches_placePayload (stands : files.node? (draftPath home key) = some node)
    (plain : node.isDirectory = false) :
    ∃ after, rename (draftFor settings key) (nameFor settings key) files = .ok () after ∧
      Touches opened home (fun path => path = draftPath home key ∨ path = payloadPath home key)
        files after ∧
      after.node? (payloadPath home key) = some node ∧ after.node? (draftPath home key) = none :=
  touches_rename shelved (shelved.quiet vacant) (names_draft vacant shelved directory)
    (append_draftName home key) nofun (names_target vacant shelved directory)
    (append_payloadName home key) nofun (payloadPath_ne_draftPath home key key).symm stands plain

/-- A temporary file that another call has moved away cannot be moved. -/
theorem rename_of_missing (missing : files.node? (draftPath home key) = none) :
    rename (draftFor settings key) (nameFor settings key) files = .error .notFound files.counted := by
  refine (names_draft vacant shelved directory).rename_eq_of_missing (shelved.quiet vacant) ?_
  rw [append_draftName, isThere, missing]
  rfl

theorem touches_removeFile (book : DiskBook) :
    ∃ after, (removeFileOf settings (fileFor key)).run ⟨book, files⟩ = .ok (.ok ()) ⟨book, after⟩ ∧
      Touches opened home (· = payloadPath home key) files after ∧
        after.node? (payloadPath home key) = none :=
  touches_attempt_remove shelved (shelved.quiet vacant) (names_target vacant shelved directory)
    (append_payloadName home key) nofun book

theorem touches_removeDraft (book : DiskBook) :
    ∃ after, (StoreAction.attempt (onFiles (removeFile (draftFor settings key)))).run ⟨book, files⟩ =
        .ok (.ok ()) ⟨book, after⟩ ∧
      Touches opened home (· = draftPath home key) files after ∧
        after.node? (draftPath home key) = none :=
  touches_attempt_remove shelved (shelved.quiet vacant) (names_draft vacant shelved directory)
    (append_draftName home key) nofun book

end

theorem touches_makeDirectories (vacant : Vacant opened settings.root home)
    (shelved : Shelved opened home files) (key : String) :
    ∃ after, makeDirectories (directoryFor settings key) files = .ok () after ∧
      Touches opened home (· = shelfPath home key) files after ∧
        after.isDirectory (shelfPath home key) = true := by
  rw [directoryFor_eq]
  have short := vacant.short
  have two : (shelfName key).utf8ByteSize = 2 := utf8Length_shelfName key
  have names := (shelved.holds vacant).names (plain_shelfName key) (by omega)
  have proper := shelved.shelves _ (utf8Length_shelfName key)
  have ended := names.makeDirectories_eq (shelved.quiet vacant) fun there => (proper there).1
  cases there : files.isThere (home ++ [shelfName key]) with
  | true =>
      rw [there, if_pos rfl] at ended
      exact ⟨_, ended, ⟨shelved.counted, fun _ _ => rfl⟩, (proper there).1⟩
  | false =>
      rw [there, if_neg Bool.false_ne_true] at ended
      refine ⟨_, ended, ⟨shelved.counted.place_shelf ⟨key, rfl⟩ there, fun path spared => ?_⟩, ?_⟩
      · exact node?_place_other files.counted .directory spared
      · rw [isDirectory, shelfPath, node?_place_same _ _ (by simp)]
        rfl

end DiskStore

end TierVault
