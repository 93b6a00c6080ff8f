import TierVault.Proofs.FileSystem.Orderly

/-!
What calls on files change on a medium that may refuse any of them.

A call may fail at any of its steps, and with any error. Whichever way it ends, it has changed nothing but what
it was to change, and no directory is gone. So a name in a home still leads to where it led.
-/

namespace TierVault.FileSystem

open FileName

variable {root name other last final shelf : String} {files middle after : FileSystem}
  {home path above beyond : Path} {node : Node} {changed : Path → Prop}

/-- What stands at other paths than the changed ones is as it was, no directory is gone, and an orderly tree is one
still. -/
structure Alters (changed : Path → Prop) (files after : FileSystem) : Prop where
  workingDirectory : after.workingDirectory = files.workingDirectory
  refuses : after.refuses = files.refuses
  directory : ∀ path, files.isDirectory path = true → after.isDirectory path = true
  others : ∀ path, ¬changed path → after.node? path = files.node? path
  orderly : files.Orderly → after.Orderly

namespace Alters

theorem refl (changed : Path → Prop) (files : FileSystem) : Alters changed files files :=
  ⟨rfl, rfl, fun _ there => there, fun _ _ => rfl, id⟩

theorem trans (first : Alters changed files middle) (second : Alters changed middle after) :
    Alters changed files after where
  workingDirectory := second.workingDirectory.trans first.workingDirectory
  refuses := second.refuses.trans first.refuses
  directory path there := second.directory path (first.directory path there)
  others path spared := (second.others path spared).trans (first.others path spared)
  orderly := second.orderly ∘ first.orderly

theorem mono {more : Path → Prop} (alters : Alters changed files after)
    (among : ∀ path, changed path → more path) : Alters more files after :=
  ⟨alters.workingDirectory, alters.refuses, alters.directory,
    fun path spared => alters.others path fun own => spared (among path own), alters.orderly⟩

theorem keeps (alters : Alters changed files after) : Keeps (fun path => ¬changed path) files after :=
  ⟨alters.workingDirectory, alters.refuses, alters.directory,
    fun path _ spared there => (alters.others path spared).trans there⟩

end Alters

theorem Recounts.alters (recounts : Recounts files after) (changed : Path → Prop) :
    Alters changed files after := by
  have orderly := fun before : files.Orderly => before.recounts recounts
  obtain ⟨calls, rfl⟩ := recounts
  exact ⟨rfl, rfl, fun _ there => there, fun _ _ => rfl, orderly⟩

theorem alters_place (directory : files.isDirectory above = true) (named : Plain last)
    (plain : files.isDirectory (above ++ [last]) = false) (node : Node) :
    Alters (· = above ++ [last]) files (files.place (above ++ [last]) node) :=
  have keeps := keeps_place files node plain
  ⟨keeps.workingDirectory, keeps.refuses, keeps.directory, fun _ => node?_place_other files node,
    fun orderly => orderly.place directory named plain node⟩

theorem alters_discard (files : FileSystem) (plain : files.isDirectory path = false) :
    Alters (· = path) files (files.discard path) :=
  have keeps := keeps_discard files plain
  ⟨keeps.workingDirectory, keeps.refuses, keeps.directory, fun _ => node?_discard_other files,
    fun orderly => orderly.discard plain⟩

/-! ## Files -/

/-- A write fails, or the node stands where the name leads. -/
theorem Names.writeNode_leaves (names : Names files name above last) (node : Node) :
    (∃ error after, writeNode name node files = .error error after ∧ Recounts files after) ∨
      ∃ after, writeNode name node files = .ok () after ∧ Alters (· = above ++ [last]) files after ∧
        after.node? (above ++ [last]) = some node := by
  have counted := recounts_counted files
  simp only [writeNode, bind, EStateM.bind, get_eq]
  rcases call_cases files with ⟨error, refused⟩ | called
  · simp only [refused]
    exact .inl ⟨error, _, rfl, counted⟩
  simp only [called, names.counted.newFile, ofExcept, pure, EStateM.pure]
  cases plain : files.counted.isDirectory (above ++ [last]) with
  | true => exact .inl ⟨.isADirectory, _, rfl, counted⟩
  | false =>
      have placed := alters_place names.counted.isDirectory names.plain plain node
      refine .inr ⟨_, rfl, (counted.alters _).trans placed, ?_⟩
      exact node?_place_same files.counted node (by simp)

/-- A file stays where it is, or is moved. -/
theorem Names.rename_leaves (names : Names files name above last) (target : Names files other beyond final)
    (plain : files.isDirectory (above ++ [last]) = false) :
    (∃ error after, rename name other files = .error error after ∧ Recounts files after) ∨
      ∃ after, rename name other files = .ok () after ∧
        Alters (fun path => path = above ++ [last] ∨ path = beyond ++ [final]) files after ∧
          after.node? (beyond ++ [final]) = files.node? (above ++ [last]) := by
  have counted := recounts_counted files
  simp only [rename, bind, EStateM.bind, get_eq]
  rcases call_cases files with ⟨error, refused⟩ | called
  · simp only [refused]
    exact .inl ⟨error, _, rfl, counted⟩
  simp only [called]
  cases stands : files.counted.node? (above ++ [last]) with
  | none =>
      have absent : files.counted.isThere (above ++ [last]) = false := by
        rw [isThere, stands]
        rfl
      simp only [names.counted.find_of_missing absent, ofExcept]
      exact .inl ⟨.notFound, _, rfl, counted⟩
  | some node =>
      simp only [names.counted.find (isThere_of_node? stands), target.counted.newFile, ofExcept, pure,
        EStateM.pure, stands]
      cases taken : files.counted.isDirectory (beyond ++ [final]) with
      | true => exact .inl ⟨.isADirectory, _, rfl, counted⟩
      | false =>
          have gone : Alters (· = above ++ [last]) files.counted (files.counted.discard (above ++ [last])) :=
            alters_discard files.counted plain
          have free : (files.counted.discard (above ++ [last])).isDirectory (beyond ++ [final]) = false := by
            by_cases same : beyond ++ [final] = above ++ [last]
            · rw [FileSystem.isDirectory, same, node?_discard_same _ (by simp)]
              rfl
            · rw [FileSystem.isDirectory, node?_discard_other _ same]
              exact taken
          have directory := gone.directory beyond target.counted.isDirectory
          have placed := alters_place directory target.plain free node
          refine .inr ⟨_, rfl, (counted.alters _).trans ?_, ?_⟩
          · exact (gone.mono fun _ => .inl).trans (placed.mono fun _ => .inr)
          · exact (node?_place_same _ node (by simp)).trans stands.symm

/-- Nothing is removed, or what stood where the name leads. -/
theorem removeFile_leaves (name : String) (files : FileSystem) :
    (∃ error after, removeFile name files = .error error after ∧ Recounts files after) ∨
      ∃ path after, removeFile name files = .ok () after ∧ files.find name = .ok path ∧
        Alters (· = path) files after := by
  have counted := recounts_counted files
  simp only [removeFile, bind, EStateM.bind, get_eq]
  rcases call_cases files with ⟨error, refused⟩ | called
  · simp only [refused]
    exact .inl ⟨error, _, rfl, counted⟩
  cases found : files.counted.find name with
  | error error =>
      simp only [called, found, ofExcept]
      exact .inl ⟨error, _, rfl, counted⟩
  | ok path =>
      cases plain : files.counted.isDirectory path with
      | true =>
          simp only [called, found, ofExcept, pure, EStateM.pure, plain]
          exact .inl ⟨.isADirectory, _, rfl, counted⟩
      | false =>
          simp only [called, found, ofExcept, pure, EStateM.pure, plain]
          have gone := alters_discard files.counted plain
          exact .inr ⟨path, _, rfl, find_of_counted found, (counted.alters _).trans gone⟩

/-! ## Directories -/

/-- What the name of a directory begins with leads to a directory. -/
theorem directory_of_prefix {front own : List String} (begins : own <+: front) (some : own ≠ [])
    (led : files.follow (files.origin front) front = .ok home) (proper : files.isDirectory home = true) :
    ∃ path, files.follow (files.origin own) own = .ok path ∧ files.isDirectory path = true := by
  obtain ⟨rest, rfl⟩ := begins
  have origin : files.origin (own ++ rest) = files.origin own := by
    obtain ⟨first, others, rfl⟩ := List.exists_cons_of_ne_nil some
    rfl
  rw [follow_append, origin] at led
  cases began : files.follow (files.origin own) own with
  | error error =>
      rw [began] at led
      cases led
  | ok path =>
      rw [began] at led
      exact ⟨path, rfl, isDirectory_of_follow led proper⟩

/-- A directory in a home is all that is made. -/
theorem Home.alters_makeDirectories (holds : Home files root home) (plain : Plain last)
    (fits : root.utf8ByteSize + 1 + last.utf8ByteSize < nameLimit) :
    Alters (· = home ++ [last]) files (leftBy (makeDirectories (join root last) files)) := by
  apply maintains_makeDirectories ?_ files (.refl _ files)
  intro pieces split own member
  have whole := holds.piecesOf_join plain.relative plain.noNull plain.ne_empty fits
  rw [plain.pieces] at whole
  cases split.symm.trans whole
  apply maintains_makeDirectoryAt
  · exact fun middle altered => altered.trans ((recounts_counted middle).alters _)
  intro middle path altered placed free
  have still := holds.keeps altered.keeps
  rcases List.mem_cons.mp member with rfl | above
  · obtain ⟨_, again, made, -⟩ := (still.names plain fits).newPath .alreadyExists
    cases again.symm.trans split
    cases made.symm.trans placed
    exact altered.trans (alters_place still.isDirectory plain (isDirectory_of_free free) .directory)
  · obtain ⟨begins, some⟩ := prefix_of_mem_ancestors above
    have short := begins.trans (parent_concat_begins plain.busy (frontOf root))
    have led := still.follow []
    rw [List.append_nil] at led
    obtain ⟨_, leads, proper⟩ := directory_of_prefix short some led still.isDirectory
    rcases newPath_of_follow leads proper with refused | ⟨_, other, there⟩
    · cases refused.symm.trans placed
    · cases other.symm.trans placed
      cases there.symm.trans free

theorem Home.isDirectory_of_makeDirectories (holds : Home files root home) (plain : Plain last)
    (fits : root.utf8ByteSize + 1 + last.utf8ByteSize < nameLimit)
    (ended : makeDirectories (join root last) files = .ok () after) :
    after.isDirectory (home ++ [last]) = true := by
  have alters := holds.alters_makeDirectories plain fits
  rw [ended] at alters
  have still := holds.keeps alters.keeps
  rcases home_of_makeDirectories ended with empty | ⟨own, made⟩
  · obtain ⟨_, split, -⟩ := (still.names plain fits).follow
    exact absurd empty (noNull_of_ok split).2
  · cases (Seat.named still).home_eq plain made
    exact made.isDirectory

/-! ## Listing and removing directories -/

theorem Home.list_leaves (holds : Home files root home) :
    (∃ error after, list root files = .error error after ∧ Recounts files after) ∨
      list root files = .ok (files.children home) files.counted := by
  obtain ⟨found, directory⟩ := holds.keeps (extends_counted files)
  simp only [list, bind, EStateM.bind, get_eq]
  rcases call_cases files with ⟨error, refused⟩ | called
  · simp only [refused]
    exact .inl ⟨error, _, rfl, recounts_counted files⟩
  · simp only [called, found, ofExcept, pure, EStateM.pure, directory]
    exact .inr rfl

/-- Nothing is removed, or what stood where the name leads, with all that was in it. -/
theorem Names.removeTree_leaves (names : Names files name above last) :
    (∃ error after, removeTree name files = .error error after ∧ Recounts files after) ∨
      removeTree name files = .ok () (files.counted.cleared (above ++ [last])) := by
  have counted := recounts_counted files
  simp only [removeTree, bind, EStateM.bind, get_eq]
  rcases call_cases files with ⟨error, refused⟩ | called
  · simp only [refused]
    exact .inl ⟨error, _, rfl, counted⟩
  simp only [called]
  cases there : files.counted.isThere (above ++ [last]) with
  | false =>
      simp only [names.counted.find_of_missing there, ofExcept]
      exact .inl ⟨.notFound, _, rfl, counted⟩
  | true =>
      simp only [names.counted.find there, ofExcept, pure, EStateM.pure]
      cases files.counted.isDirectory (above ++ [last]) with
      | false => exact .inl ⟨.notADirectory, _, rfl, counted⟩
      | true => exact .inr rfl

/-- Pieces that do not lead up pass nothing but what is above where they lead. -/
theorem follow_of_level {pieces : List String} {start : Path} (level : ".." ∉ pieces)
    (led : files.follow start pieces = .ok path)
    (stays : ∀ above, above <+: path → files.isDirectory above = true → after.isDirectory above = true) :
    start <+: path ∧ after.follow start pieces = .ok path := by
  induction pieces generalizing start with
  | nil =>
      rw [follow_nil] at led
      cases led
      exact ⟨List.prefix_refl _, follow_nil after _⟩
  | cons piece pieces induction =>
      obtain ⟨different, later⟩ := not_or.mp (mt List.mem_cons.mpr level)
      rw [follow_cons] at led
      cases directory : files.isDirectory start with
      | false =>
          rw [directory] at led
          cases led
      | true =>
          rw [directory, if_neg (Ne.symm different)] at led
          rw [follow_cons, if_neg (Ne.symm different)]
          cases idle : isIdle piece with
          | true =>
              rw [idle] at led
              obtain ⟨begins, still⟩ := induction later led
              rw [stays start begins directory]
              exact ⟨begins, still⟩
          | false =>
              rw [idle] at led
              by_cases long : pieceLimit < piece.utf8ByteSize
              · rw [if_pos long] at led
                cases led
              · rw [if_neg long] at led ⊢
                obtain ⟨begins, still⟩ := induction later led
                have above := (List.prefix_append start [piece]).trans begins
                rw [stays start above directory]
                exact ⟨above, still⟩

/-- A home stays when a directory in it goes, unless its own name leads through that directory. -/
theorem Home.cleared (holds : Home files root home) (level : ".." ∉ FileName.pieces root) (name : String) :
    Home (files.cleared (home ++ [name])) root home := by
  obtain ⟨pieces, split, led, -⟩ := find_eq_ok_iff.mp holds.find
  have stays (above : Path) (begins : above <+: home) (directory : files.isDirectory above = true) :
      (files.cleared (home ++ [name])).isDirectory above = true := by
    have apart : ¬home ++ [name] <+: above := by
      intro below
      have long := (below.trans begins).length_le
      rw [List.length_append, List.length_singleton] at long
      omega
    rw [FileSystem.isDirectory, node?_cleared_apart files apart]
    exact directory
  have whole := pieces_of_ok split
  obtain ⟨-, still⟩ := follow_of_level (whole ▸ level) led stays
  have directory := stays home (List.prefix_refl home) holds.isDirectory
  exact ⟨find_eq_ok_iff.mpr ⟨pieces, split, still, isThere_of_isDirectory directory⟩, directory⟩

/-! ## Things in a directory of a home -/

section

variable (holds : Home files root home) (shelf_plain : Plain shelf) (plain : Plain last)
  (fits : root.utf8ByteSize + 1 + (shelf ++ "/" ++ last).utf8ByteSize < nameLimit)

include holds shelf_plain plain

theorem Home.find_below (found : files.find (join root (shelf ++ "/" ++ last)) = .ok path) :
    path = home ++ [shelf, last] ∧ files.isDirectory (home ++ [shelf]) = true := by
  obtain ⟨pieces, split, led, -⟩ := find_eq_ok_iff.mp found
  have same : pieces = frontOf root ++ [shelf] ++ [last] := by
    rw [pieces_of_ok split, FileName.pieces_join (shelf_plain.relative_append last),
      FileName.pieces_append_slash, shelf_plain.pieces, plain.pieces, List.append_assoc]
  subst same
  obtain ⟨directory, began, proper, -, rfl⟩ := (follow_last ⟨plain.busy, plain.down⟩ _).mp led
  obtain ⟨_, start, -, -, rfl⟩ := (follow_last ⟨shelf_plain.busy, shelf_plain.down⟩ _).mp began
  rw [List.append_assoc] at start
  cases start.symm.trans (holds.follow _)
  exact ⟨List.append_assoc .., proper⟩

include fits

/-- Where nothing stands without its directory, a name tells what stands below a home. -/
theorem Home.named?_below (proper : files.isThere (home ++ [shelf, last]) = true →
      files.isDirectory (home ++ [shelf]) = true) :
    files.named? (join root (shelf ++ "/" ++ last)) = files.node? (home ++ [shelf, last]) := by
  have whole : home ++ [shelf] ++ [last] = home ++ [shelf, last] := List.append_assoc ..
  cases stands : files.node? (home ++ [shelf, last]) with
  | some node =>
      have there := isThere_of_node? stands
      have names := holds.names_below shelf_plain plain (proper there) fits
      rw [← whole] at there stands
      rw [named?, names.find there]
      exact stands
  | none =>
      rw [named?]
      cases found : files.find (join root (shelf ++ "/" ++ last)) with
      | error error => rfl
      | ok path =>
          obtain ⟨rfl, -⟩ := holds.find_below shelf_plain plain found
          exact stands

end

end TierVault.FileSystem
