import TierVault.Proofs.FileSystem.Names

/-!
What calls on files do on a medium that refuses nothing.

A call by a name that names a thing does what it says, at the path that the name leads to.
-/

namespace TierVault.FileSystem

open FileName

variable {root name other last final : String} {files after : FileSystem} {home path above beyond : Path}
  {node : Node} {content : Bytes}

theorem Names.counted (names : Names files name above last) : Names files.counted name above last :=
  names.keeps (extends_counted files)

theorem isThere_of_node? (stands : files.node? path = some node) : files.isThere path = true := by
  rw [isThere, stands]
  rfl

theorem Names.writeNode_eq (names : Names files name above last) (quiet : files.Quiet)
    (plain : files.isDirectory (above ++ [last]) = false) (node : Node) :
    writeNode name node files = .ok () (files.counted.place (above ++ [last]) node) := by
  have still : files.counted.isDirectory (above ++ [last]) = false := plain
  simp only [writeNode, bind, EStateM.bind, call_of_quiet quiet, get_eq, names.counted.newFile,
    ofExcept, pure, EStateM.pure, still]
  rfl

/-- A write does nothing but to put the node where the name leads. -/
theorem writeNode_of_quiet (quiet : files.Quiet) (name : String) (node : Node) :
    (∃ error, writeNode name node files = .error error files.counted) ∨
      ∃ path, files.counted.newFile name = .ok path ∧ files.counted.isDirectory path = false ∧
        writeNode name node files = .ok () (files.counted.place path node) := by
  simp only [writeNode, bind, EStateM.bind, get_eq, call_of_quiet quiet]
  cases placed : files.counted.newFile name with
  | error error => exact .inl ⟨error, rfl⟩
  | ok path =>
      cases plain : files.counted.isDirectory path with
      | true =>
          simp only [ofExcept, pure, EStateM.pure, plain]
          exact .inl ⟨.isADirectory, rfl⟩
      | false =>
          simp only [ofExcept, pure, EStateM.pure, plain]
          exact .inr ⟨path, rfl, plain, rfl⟩

theorem Names.rename_eq (names : Names files name above last) (target : Names files other beyond final)
    (quiet : files.Quiet) (stands : files.node? (above ++ [last]) = some node)
    (plain : files.isDirectory (beyond ++ [final]) = false) :
    rename name other files =
      .ok () ((files.counted.discard (above ++ [last])).place (beyond ++ [final]) node) := by
  have still : files.counted.isDirectory (beyond ++ [final]) = false := plain
  have held : files.counted.node? (above ++ [last]) = some node := stands
  simp only [rename, bind, EStateM.bind, call_of_quiet quiet, get_eq,
    names.counted.find (isThere_of_node? held), target.counted.newFile, ofExcept, pure,
    EStateM.pure, held, still]
  rfl

/-- Nothing is moved onto a directory. -/
theorem Names.rename_eq_of_taken (names : Names files name above last) (target : Names files other beyond final)
    (quiet : files.Quiet) (stands : files.node? (above ++ [last]) = some node)
    (taken : files.isDirectory (beyond ++ [final]) = true) :
    rename name other files = .error .isADirectory files.counted := by
  have still : files.counted.isDirectory (beyond ++ [final]) = true := taken
  have held : files.counted.node? (above ++ [last]) = some node := stands
  simp only [rename, bind, EStateM.bind, call_of_quiet quiet, get_eq,
    names.counted.find (isThere_of_node? held), target.counted.newFile, ofExcept, pure,
    EStateM.pure, held, still]
  rfl

theorem Names.removeFile_eq (names : Names files name above last) (quiet : files.Quiet)
    (there : files.isThere (above ++ [last]) = true)
    (plain : files.isDirectory (above ++ [last]) = false) :
    removeFile name files = .ok () (files.counted.discard (above ++ [last])) := by
  have still : files.counted.isDirectory (above ++ [last]) = false := plain
  simp only [removeFile, bind, EStateM.bind, call_of_quiet quiet, get_eq,
    names.counted.find there, ofExcept, pure, EStateM.pure, still]
  rfl

theorem Names.removeFile_eq_of_missing (names : Names files name above last) (quiet : files.Quiet)
    (missing : files.isThere (above ++ [last]) = false) :
    removeFile name files = .error .notFound files.counted := by
  have absent : files.counted.isThere (above ++ [last]) = false := missing
  simp only [removeFile, bind, EStateM.bind, call_of_quiet quiet, get_eq,
    names.counted.find_of_missing absent, ofExcept]
  rfl

theorem Names.openNode_eq (names : Names files name above last) (quiet : files.Quiet)
    (stands : files.node? (above ++ [last]) = some node) :
    openNode name files = .ok node files.counted := by
  have held : files.counted.node? (above ++ [last]) = some node := stands
  simp only [openNode, bind, EStateM.bind, call_of_quiet quiet, get_eq,
    names.counted.find (isThere_of_node? held), ofExcept, pure, EStateM.pure, held]

theorem Names.readFile_eq (names : Names files name above last) (quiet : files.Quiet)
    (stands : files.node? (above ++ [last]) = some (.file content)) :
    readFile name files = .ok content files.counted := by
  simp only [readFile, bind, EStateM.bind, names.openNode_eq quiet stands, Node.content?]
  rfl

/-- Reading changes nothing. -/
theorem recounts_readFile (quiet : files.Quiet) (name : String) :
    Recounts files (leftBy (readFile name files)) := by
  simp only [readFile, openNode, bind, EStateM.bind, get_eq, call_of_quiet quiet]
  cases files.counted.find name with
  | error error => exact recounts_counted files
  | ok path =>
      simp only [ofExcept, pure, EStateM.pure]
      cases files.counted.node? path with
      | none => exact recounts_counted files
      | some node =>
          simp only [EStateM.pure]
          cases node.content? with
          | none => exact recounts_counted files
          | some content => exact recounts_counted files

theorem makeDirectoryAt_eq {pieces : List String} (quiet : files.Quiet)
    (placed : files.counted.newPath .alreadyExists pieces = .ok path) :
    makeDirectoryAt pieces files = if files.isThere path then .error .alreadyExists files.counted
      else .ok () (files.counted.place path .directory) := by
  have same : files.counted.isThere path = files.isThere path := rfl
  simp only [makeDirectoryAt, bind, EStateM.bind, call_of_quiet quiet, get_eq, placed, ofExcept,
    pure, EStateM.pure, same]
  cases files.isThere path <;> rfl

theorem Names.leadsToDirectory (names : Names files name above last) {pieces : List String}
    (split : piecesOf name = .ok pieces) (directory : files.isDirectory (above ++ [last]) = true) :
    files.leadsToDirectory pieces = true := by
  obtain ⟨own, checked, led, -⟩ :=
    find_eq_ok_iff.mp (names.find (isThere_of_isDirectory directory))
  cases checked.symm.trans split
  rw [FileSystem.leadsToDirectory, led]
  exact directory

theorem makeDirectories_of_ensured {after : FileSystem} {pieces : List String}
    (named : ¬name.isEmpty = true) (split : piecesOf name = .ok pieces)
    (ensured : ensureDirectoryAt pieces files = .ok () after) :
    makeDirectories name files = .ok () after := by
  unfold makeDirectories
  rw [if_neg named]
  simp only [split, ofExcept, pure_bind]
  unfold ensureDirectories
  change EStateM.tryCatch _ _ files = _
  unfold EStateM.tryCatch
  rw [ensured]

/-- A directory is made, unless it is there. -/
theorem Names.makeDirectories_eq (names : Names files name above last) (quiet : files.Quiet)
    (proper : files.isThere (above ++ [last]) = true → files.isDirectory (above ++ [last]) = true) :
    makeDirectories name files = .ok () (if files.isThere (above ++ [last]) then files.counted
      else files.counted.place (above ++ [last]) .directory) := by
  obtain ⟨pieces, split, placed, -⟩ := names.counted.newPath .alreadyExists
  have named : ¬name.isEmpty = true :=
    fun empty => (noNull_of_ok split).2 (String.isEmpty_iff.mp empty)
  have made := makeDirectoryAt_eq quiet placed
  have ensured : ensureDirectoryAt pieces files = .ok () (if files.isThere (above ++ [last])
      then files.counted else files.counted.place (above ++ [last]) .directory) := by
    unfold ensureDirectoryAt
    change EStateM.tryCatch _ _ files = _
    unfold EStateM.tryCatch
    cases there : files.isThere (above ++ [last]) with
    | false =>
        rw [made, there]
        rfl
    | true =>
        rw [made, there]
        have leads := names.counted.leadsToDirectory split (proper there)
        change (if decide (IoError.alreadyExists ≠ .alreadyExists) ||
            !files.counted.leadsToDirectory pieces then
              (throw .alreadyExists : FileAction Unit) else pure ()) files.counted = _
        rw [leads]
        rfl
  exact makeDirectories_of_ensured named split ensured

/-! ## A home -/

theorem Home.list_eq (holds : Home files root home) (quiet : files.Quiet) :
    list root files = .ok (files.children home) files.counted := by
  obtain ⟨found, directory⟩ := holds.keeps (extends_counted files)
  simp only [list, bind, EStateM.bind, call_of_quiet quiet, get_eq, found, ofExcept, pure,
    EStateM.pure, directory]
  rfl

/-- Pieces that lead nowhere lead nowhere. -/
theorem eq_of_follow_idle {pieces : List String} {start : Path}
    (idle : ∀ piece ∈ pieces, isIdle piece = true) (led : files.follow start pieces = .ok path) :
    path = start := by
  induction pieces with
  | nil =>
      rw [follow_nil] at led
      exact (Except.ok.inj led).symm
  | cons piece pieces induction =>
      rw [follow_cons, if_pos (idle piece List.mem_cons_self)] at led
      split at led
      · cases led
      · exact induction (fun other member => idle other (List.mem_cons_of_mem _ member)) led

/-- What pieces lead to a directory from is one. -/
theorem isDirectory_of_follow {pieces : List String} {start : Path}
    (led : files.follow start pieces = .ok path) (directory : files.isDirectory path = true) :
    files.isDirectory start = true := by
  cases pieces with
  | nil =>
      rw [follow_nil] at led
      cases led
      exact directory
  | cons piece pieces =>
      rw [follow_cons] at led
      cases there : files.isDirectory start with
      | true => rfl
      | false =>
          rw [there] at led
          cases led

/-- Slashes at the end are set aside before a new thing gets its path. -/
theorem pieces_of_dropWhile {pieces before : List String}
    (ends : pieces.reverse.dropWhile (· = "") = last :: before) : last ≠ "" ∧
      ∃ blanks, pieces = before.reverse ++ last :: blanks ∧ ∀ piece ∈ blanks, isIdle piece = true := by
  have whole := List.takeWhile_append_dropWhile (p := (· = "")) (l := pieces.reverse)
  have first := List.head?_dropWhile_not (· = "") pieces.reverse
  rw [ends] at whole first
  refine ⟨by simpa using first, (pieces.reverse.takeWhile (· = "")).reverse, ?_, fun piece member => ?_⟩
  · have turned := congrArg List.reverse whole
    rw [List.reverse_reverse, List.reverse_append, List.reverse_cons, List.append_assoc] at turned
    exact turned.symm
  · have all := List.all_takeWhile (p := (· = "")) (l := pieces.reverse)
    have blank := List.all_eq_true.mp all piece (List.mem_reverse.mp member)
    rw [of_decide_eq_true blank]
    rfl

/-- There is no room for a new directory where pieces lead to one. -/
theorem newPath_of_follow {pieces : List String}
    (led : files.follow (files.origin pieces) pieces = .ok home)
    (directory : files.isDirectory home = true) :
    files.newPath .alreadyExists pieces = .error .alreadyExists ∨
      ∃ path, files.newPath .alreadyExists pieces = .ok path ∧ files.isThere path = true := by
  unfold newPath
  cases ends : pieces.reverse.dropWhile (· = "") with
  | nil => exact .inl rfl
  | cons last before =>
      obtain ⟨some, blanks, whole, idle⟩ := pieces_of_dropWhile ends
      have led : files.follow (files.origin pieces) (before.reverse ++ last :: blanks) = .ok home :=
        whole ▸ led
      rw [follow_append] at led
      dsimp only
      cases began : files.follow (files.origin pieces) before.reverse with
      | error error =>
          rw [began] at led
          cases led
      | ok above =>
          simp only [began, Except.bind, follow_cons, bind] at led ⊢
          cases proper : files.isDirectory above with
          | false =>
              rw [proper] at led
              cases led
          | true =>
              simp only [proper, Bool.not_true, Bool.false_eq_true, if_false] at led ⊢
              by_cases dots : last = "." ∨ last = ".."
              · have taken : (decide (last = ".") || decide (last = "..")) = true := by
                  rcases dots with rfl | rfl <;> rfl
                rw [if_pos taken]
                exact .inl rfl
              · obtain ⟨dot, up⟩ := not_or.mp dots
                have busy : isIdle last = false := by simp [isIdle, some, dot]
                simp only [busy, up, dot, decide_false, Bool.or_self, Bool.false_eq_true, if_false] at led ⊢
                split at led
                · cases led
                · rename_i short
                  have same := eq_of_follow_idle idle led
                  rw [if_neg short]
                  exact .inr ⟨_, rfl, same ▸ isThere_of_isDirectory directory⟩

theorem follow_idle {pieces : List String} (idle : ∀ piece ∈ pieces, isIdle piece = true)
    (directory : files.isDirectory path = true) : files.follow path pieces = .ok path := by
  induction pieces with
  | nil => exact follow_nil files path
  | cons piece pieces induction =>
      rw [follow_cons, directory, if_pos (idle piece List.mem_cons_self)]
      exact induction fun other member => idle other (List.mem_cons_of_mem _ member)

/-- Once there is a directory at a new path, the pieces lead to it. -/
theorem follow_of_newPath {pieces : List String} {taken : IoError} {kept : Path → Prop}
    (placed : files.newPath taken pieces = .ok path) (keeps : Keeps kept files after)
    (directory : after.isDirectory path = true) :
    after.follow (files.origin pieces) pieces = .ok path := by
  unfold newPath at placed
  cases ends : pieces.reverse.dropWhile (· = "") with
  | nil =>
      rw [ends] at placed
      cases placed
  | cons last before =>
      obtain ⟨some, blanks, whole, idle⟩ := pieces_of_dropWhile ends
      rw [ends] at placed
      cases began : files.follow (files.origin pieces) before.reverse with
      | error error =>
          simp only [began, bind, Except.bind] at placed
          cases placed
      | ok above =>
          simp only [began, bind, Except.bind] at placed
          split at placed
          · cases placed
          · rename_i proper
            split at placed
            · cases placed
            · rename_i named
              split at placed
              · cases placed
              · rename_i short
                cases placed
                obtain ⟨dot, up⟩ : last ≠ "." ∧ last ≠ ".." := by simpa using named
                have busy : isIdle last = false := by simp [isIdle, some, dot]
                have there : after.isDirectory above = true := keeps.directory above (by simpa using proper)
                suffices onward : after.follow (files.origin pieces) (before.reverse ++ last :: blanks) =
                    .ok (above ++ [last]) by
                  rwa [← whole] at onward
                rw [follow_append, keeps.follow began]
                simp only [Except.bind, follow_cons, there, Bool.not_true, Bool.false_eq_true, if_false,
                  busy, up, if_neg short]
                exact follow_idle idle directory

/-- Where a directory was asked for, pieces lead to one. -/
theorem leadsToDirectory_of_ensured {pieces : List String}
    (ended : ensureDirectoryAt pieces files = .ok () after) : after.leadsToDirectory pieces = true := by
  unfold ensureDirectoryAt at ended
  change EStateM.tryCatch _ _ files = _ at ended
  unfold EStateM.tryCatch at ended
  cases made : makeDirectoryAt pieces files with
  | error error middle =>
      rw [made] at ended
      change (if decide (error ≠ .alreadyExists) || !middle.leadsToDirectory pieces then
        (throw error : FileAction Unit) else pure ()) middle = _ at ended
      split at ended
      · cases ended
      · rename_i leads
        cases ended
        simpa using (not_or.mp (mt Bool.or_eq_true_iff.mpr leads)).2
  | ok told middle =>
      rw [made] at ended
      cases ended
      obtain ⟨_, called, -, made⟩ := parts_of_bind made
      obtain ⟨_, _, seen, made⟩ := parts_of_bind made
      cases seen
      obtain ⟨path, _, located, made⟩ := parts_of_bind made
      cases placed : called.newPath .alreadyExists pieces with
      | error error =>
          rw [placed] at located
          cases located
      | ok own =>
          rw [placed] at located
          cases located
          cases there : called.isThere path with
          | true =>
              rw [there] at made
              cases made
          | false =>
              rw [there] at made
              cases made
              have directory : (called.place path .directory).isDirectory path = true := by
                by_cases inside : path = []
                · rw [inside]
                  rfl
                · rw [isDirectory, node?_place_same called _ inside]
                  rfl
              have led := follow_of_newPath placed (extends_place called there) directory
              change ((called.place path .directory).follow (called.origin pieces) pieces).toOption.any _ = _
              rw [led]
              exact directory

/-- A directory that was made is one that its name leads to. -/
theorem home_of_makeDirectories (ended : makeDirectories name files = .ok () after) :
    name = "" ∨ ∃ home, Home after name home := by
  unfold makeDirectories at ended
  by_cases empty : name.isEmpty = true
  · exact .inl (String.isEmpty_iff.mp empty)
  rw [if_neg empty] at ended
  obtain ⟨pieces, began, located, ended⟩ := parts_of_bind ended
  have split : piecesOf name = .ok pieces := by
    cases told : piecesOf name with
    | error error =>
        rw [told] at located
        cases located
    | ok own =>
        rw [told] at located
        cases located
        rfl
  have ensured : ∃ middle, ensureDirectoryAt pieces middle = .ok () after := by
    unfold ensureDirectories at ended
    change EStateM.tryCatch _ _ began = _ at ended
    unfold EStateM.tryCatch at ended
    cases made : ensureDirectoryAt pieces began with
    | ok told middle =>
        rw [made] at ended
        cases ended
        exact ⟨began, made⟩
    | error error middle =>
        rw [made] at ended
        dsimp only at ended
        split at ended
        · cases ended
        · obtain ⟨_, next, -, ended⟩ := parts_of_bind ended
          exact ⟨next, ended⟩
  obtain ⟨middle, ensured⟩ := ensured
  obtain ⟨home, led, directory⟩ :=
    Option.any_eq_true _ _ |>.mp (leadsToDirectory_of_ensured ensured)
  refine .inr ⟨home, ?_, directory⟩
  have followed : after.follow (after.origin pieces) pieces = .ok home := by
    cases told : after.follow (after.origin pieces) pieces with
    | error error =>
        rw [told] at led
        cases led
    | ok own =>
        rw [told] at led
        cases led
        rfl
  exact find_eq_ok_iff.mpr ⟨pieces, split, followed, isThere_of_isDirectory directory⟩

/-- A directory that is there is not made. -/
theorem Home.makeDirectories_eq (holds : Home files root home) (quiet : files.Quiet) :
    makeDirectories root files = .ok () files.counted := by
  obtain ⟨pieces, split, led, -⟩ := find_eq_ok_iff.mp (holds.keeps (extends_counted files)).find
  have named : ¬root.isEmpty = true :=
    fun empty => (noNull_of_ok split).2 (String.isEmpty_iff.mp empty)
  have leads : files.counted.leadsToDirectory pieces = true := by
    rw [leadsToDirectory, led]
    exact holds.isDirectory
  have taken : makeDirectoryAt pieces files = .error .alreadyExists files.counted := by
    rcases newPath_of_follow led holds.isDirectory with refused | ⟨path, placed, there⟩
    · simp only [makeDirectoryAt, bind, EStateM.bind, call_of_quiet quiet, get_eq, refused, ofExcept]
      rfl
    · have same : files.isThere path = true := there
      rw [makeDirectoryAt_eq quiet placed, same]
      rfl
  have ensured : ensureDirectoryAt pieces files = .ok () files.counted := by
    unfold ensureDirectoryAt
    change EStateM.tryCatch _ _ files = _
    unfold EStateM.tryCatch
    rw [taken]
    change (if decide (IoError.alreadyExists ≠ .alreadyExists) ||
        !files.counted.leadsToDirectory pieces then
          (throw .alreadyExists : FileAction Unit) else pure ()) files.counted = _
    rw [leads]
    rfl
  exact makeDirectories_of_ensured named split ensured

/-- A directory that is there is not made, and the nameless one never is. -/
theorem Seat.makeDirectories_eq {directory : String} (seat : Seat files directory above)
    (quiet : files.Quiet) :
    ∃ after, makeDirectories directory files = .ok () after ∧ Recounts files after := by
  rcases seat with ⟨nameless, -, -⟩ | ⟨home⟩
  · subst nameless
    exact ⟨files, rfl, .refl files⟩
  · exact ⟨_, home.makeDirectories_eq quiet, recounts_counted files⟩

/-- A directory that is made in another one is all that comes into the tree. -/
theorem Seat.left_of_makeDirectories {directory : String} {above home : Path} {later : FileSystem}
    (seat : Seat files directory above) (plain : Plain last) (quiet : files.Quiet)
    (ended : makeDirectories (join directory last) files = .ok () after) (kept : Extends after later)
    (holds : Home later (join directory last) home) :
    home = above ++ [last] ∧ ∀ other, other ≠ home → after.node? other = files.node? other := by
  have whole := (extends_of_makeDirectories ended).trans kept
  have lies := (seat.keeps whole).home_eq plain holds
  subst lies
  refine ⟨rfl, fun other different => ?_⟩
  obtain ⟨pieces, split, -, -⟩ := find_eq_ok_iff.mp holds.find
  have proper (there : files.isThere (above ++ [last]) = true) :
      files.isDirectory (above ++ [last]) = true := by
    obtain ⟨node, stands⟩ := Option.isSome_iff_exists.mp there
    have directory := holds.isDirectory
    rw [FileSystem.isDirectory, whole.node _ node trivial stands] at directory
    rwa [FileSystem.isDirectory, stands]
  have made := (seat.names plain split).makeDirectories_eq quiet proper
  cases there : files.isThere (above ++ [last]) with
  | true =>
      rw [there, if_pos rfl] at made
      cases made.symm.trans ended
      rfl
  | false =>
      rw [there, if_neg Bool.false_ne_true] at made
      cases made.symm.trans ended
      exact node?_place_other files.counted _ different

/-- The tree without what stands at a path and below. -/
def cleared (files : FileSystem) (path : Path) : FileSystem :=
  { files with nodes := files.nodes.cut path }

theorem Names.removeTree_eq (names : Names files name above last) (quiet : files.Quiet)
    (directory : files.isDirectory (above ++ [last]) = true) :
    removeTree name files = .ok () (files.counted.cleared (above ++ [last])) := by
  have still : files.counted.isDirectory (above ++ [last]) = true := directory
  simp only [removeTree, bind, EStateM.bind, call_of_quiet quiet, get_eq,
    names.counted.find (isThere_of_isDirectory still), ofExcept, pure, EStateM.pure, still]
  rfl

end TierVault.FileSystem
