import TierVault.Proofs.FileSystem.Calls
import TierVault.Store.Database.Connection

/-!
Where an opened database lies, and what the next opening finds.

An opening that may write leaves a database behind, and nothing beside it that would have to be undone or taken
over. While this is so, and the directories on the way to the database stay, the next opening finds the database
and changes nothing.
-/

namespace TierVault.Connection

/-! # Places -/

section

variable {Result Next : Type} {files after : FileSystem} {name : String} {connection : Connection}
  {path : Path}

/-- What an opening gives, if it does not fail, is one of those. -/
def Gives (expected : Result → Prop) (opening : Opening Result) : Prop :=
  ∀ files result after, opening files = .ok result after → expected result

variable {expected : Result → Prop} {wanted : Next → Prop} {opening other : Opening Result}

theorem gives_pure {result : Result} (holds : expected result) :
    Gives expected (pure result : Opening Result) := by
  intro files given after ended
  cases ended
  exact holds

theorem gives_computed (computation : Except DatabaseError Result) :
    (∀ result, computation = .ok result → expected result) →
      Gives expected (match computation with
        | .ok result => (pure result : Opening Result)
        | .error error => throw error) := by
  intro holds files given after ended
  cases computation with
  | ok result =>
      cases ended
      exact holds _ rfl
  | error error => cases ended

theorem gives_any (opening : Opening Result) : Gives (fun _ => True) opening :=
  fun _ _ _ _ => trivial

theorem Gives.bind (gives : Gives expected opening) {next : Result → Opening Next}
    (further : ∀ result, expected result → Gives wanted (next result)) :
    Gives wanted (opening >>= next) := by
  intro files given after ended
  change EStateM.bind opening next files = _ at ended
  unfold EStateM.bind at ended
  cases called : opening files with
  | error error final =>
      rw [called] at ended
      cases ended
  | ok result final =>
      rw [called] at ended
      exact further result (gives files result final called) final given after ended

theorem Gives.ite {condition : Prop} [Decidable condition] (yes : Gives expected opening)
    (no : Gives expected other) : Gives expected (if condition then opening else other) := by
  split
  · exact yes
  · exact no

theorem pathOf_ne_nil (found : pathOf files name = .ok path) : path ≠ [] := by
  rintro rfl
  unfold pathOf at found
  cases led : (if FileName.isAbsolute name then [] else files.workingDirectory).foldlM (extend files) [] with
  | error error =>
      simp only [led, bind, Except.bind] at found
      cases found
  | ok start =>
      cases ended : (FileName.pieces name).foldlM (extend files) start with
      | error error =>
          simp only [led, ended, bind, Except.bind] at found
          cases found
      | ok path =>
          simp only [led, ended, bind, Except.bind] at found
          split at found
          · cases found
          · rename_i proper
            cases found
            exact proper rfl

/-- No database lies at the root. -/
theorem place_of_openNamed (opened : openNamed name files = .ok connection after) :
    connection.place? ≠ some [] := by
  let proper (connection : Connection) : Prop := connection.place? ≠ some []
  refine (?_ : Gives proper (openNamed name)) files connection after opened
  unfold openNamed
  refine (gives_any _).bind fun name _ => ?_
  cases name.file? with
  | none =>
      have unfiled : Gives proper (pure ⟨none, true, []⟩) := gives_pure (Option.some_ne_none _).symm
      exact Gives.ite ((gives_any _).bind fun _ _ => unfiled) unfiled
  | some file =>
      refine (gives_any get).bind fun files _ => ?_
      refine (gives_computed _ fun path => pathOf_ne_nil).bind fun path inside => ?_
      have lies (writable : Bool) : Gives proper (pure ⟨some path, writable, []⟩) :=
        gives_pure fun same => inside (Option.some.inj same)
      -- Whatever is tidied up before, an opening that goes on to its end gives the path.
      repeat' first
        | exact lies _
        | refine Gives.ite ?_ ?_
        | refine (gives_any _).bind fun _ _ => ?_
        | split

end

/-! # Opening again -/

section

open FileSystem

variable {Result Next : Type} {files after : FileSystem} {name : String} {connection : Connection}
  {path : Path} {node : Node} {rows : Rows} {log : LogState}

/-! ## Companions -/

/-- There is no journal that has to be undone. -/
def Undone (files : FileSystem) (path : Path) : Prop :=
  ∀ journal, companion? files (companion path journalEnding) = some journal →
    journal.isDirectory = false ∧ isHot journal = false

/-- Nothing beside the database has to be undone or taken over. -/
structure Tidy (files : FileSystem) (path : Path) : Prop where
  journal : Undone files path
  log : companion? files (companion path logEnding) = none

theorem companion_ne {ending other : String} (different : ending ≠ other) (path : Path) :
    companion path ending ≠ companion path other := by
  intro same
  have names := List.singleton_inj.mp (List.append_cancel_left same)
  exact different (String.append_right_inj _ |>.mp names)

theorem companion_ne_path {ending : String} (some : ending ≠ "") (inside : path ≠ []) :
    companion path ending ≠ path := by
  intro same
  obtain ⟨above, last, rfl⟩ := (List.eq_nil_or_concat path).resolve_left inside
  simp only [List.concat_eq_append, companion, List.dropLast_concat, List.getLast?_concat, Option.getD_some,
    List.append_cancel_left_eq, List.cons.injEq, and_true] at same
  exact some (String.append_eq_left_iff.mp same)

theorem companion?_of_node? {ending : String}
    (same : after.node? (companion path ending) = files.node? (companion path ending)) :
    companion? after (companion path ending) = companion? files (companion path ending) := by
  rw [companion?, companion?, same]

theorem Undone.of_node? (undone : Undone files path)
    (same : after.node? (companion path journalEnding) = files.node? (companion path journalEnding)) :
    Undone after path := by
  intro journal there
  rw [companion?_of_node? same] at there
  exact undone journal there

theorem Tidy.of_node? (tidy : Tidy files path) (same : ∀ ending, ending ≠ "" →
      after.node? (companion path ending) = files.node? (companion path ending)) : Tidy after path :=
  ⟨tidy.journal.of_node? (same _ (by decide)),
    (companion?_of_node? (same _ (by decide))).trans tidy.log⟩

theorem companion?_discard (files : FileSystem) (path : Path) (ending : String) :
    companion? (files.discard (companion path ending)) (companion path ending) = none := by
  have inside : companion path ending ≠ [] := by simp [companion]
  rw [companion?, node?_discard_same files inside]
  rfl

theorem undone_discard (files : FileSystem) (path : Path) :
    Undone (files.discard (companion path journalEnding)) path := by
  intro journal there
  rw [companion?_discard] at there
  cases there

theorem discardFile_eq {place : Path} (plain : files.isDirectory place = false) :
    discardFile place files = .ok () (files.discard place) := by
  change EStateM.Result.ok () (if files.isDirectory place then files else files.discard place) = _
  rw [plain]
  rfl

/-- What counts as there and is no directory stands at a path that is none. -/
theorem plain_of_companion? {place : Path} (there : companion? files place = some node)
    (plain : node.isDirectory = false) : files.isDirectory place = false := by
  have stands := (Option.filter_eq_some_iff.mp there).1
  rw [isDirectory, stands]
  exact plain

/-! ## Settling -/

theorem undone_of_settleJournal (full : isEmptyNode node = false)
    (ended : settleJournal path node files = .ok () after) : Undone after path := by
  unfold settleJournal at ended
  obtain ⟨_, _, seen, ended⟩ := parts_of_bind ended
  cases seen
  cases there : companion? files (companion path journalEnding) with
  | none =>
      simp only [there] at ended
      cases ended
      intro journal same
      cases there.symm.trans same
  | some journal =>
      simp only [there, full, Bool.false_eq_true, if_false] at ended
      cases directory : journal.isDirectory with
      | true =>
          rw [directory, if_pos rfl] at ended
          cases ended
      | false =>
          rw [directory, if_neg Bool.false_ne_true] at ended
          cases hot : isHot journal with
          | true =>
              rw [hot, if_pos rfl, discardFile_eq (plain_of_companion? there directory)] at ended
              cases ended
              exact undone_discard files path
          | false =>
              rw [hot, if_neg Bool.false_ne_true] at ended
              cases ended
              intro other same
              cases there.symm.trans same
              exact ⟨directory, hot⟩

/-- The log went, and no journal came that has to be undone. -/
structure Unlogged (files after : FileSystem) (path : Path) : Prop where
  gone : companion? after (companion path logEnding) = none
  undone : Undone files path → Undone after path

theorem unlogged_discard (files : FileSystem) (path : Path) :
    Unlogged files (files.discard (companion path logEnding)) path :=
  ⟨companion?_discard files path _, fun undone =>
    undone.of_node? (node?_discard_other files (companion_ne (by decide) path))⟩

theorem Unlogged.discardIndex (unlogged : Unlogged files after path) :
    Unlogged files (after.discard (companion path logIndexEnding)) path where
  gone := by
    rw [companion?_of_node? (node?_discard_other after (companion_ne (by decide) path))]
    exact unlogged.gone
  undone undone :=
    (unlogged.undone undone).of_node? (node?_discard_other after (companion_ne (by decide) path))

/-- Unless the log was kept, it is gone, and nothing else went but its index. -/
theorem settleLog_cases (used : log ≠ .kept)
    (ended : settleLog path node files = .ok log after) :
    Unlogged files after path ∧ (isEmptyNode node = true → log = .absent) := by
  unfold settleLog at ended
  obtain ⟨_, _, seen, ended⟩ := parts_of_bind ended
  cases seen
  cases there : companion? files (companion path logEnding) with
  | none =>
      simp only [there] at ended
      cases ended
      exact ⟨⟨there, id⟩, fun _ => rfl⟩
  | some found =>
      simp only [there] at ended
      cases directory : found.isDirectory with
      | true =>
          rw [directory, if_pos rfl] at ended
          cases ended
      | false =>
          have discarded := discardFile_eq (plain_of_companion? there directory)
          rw [directory, if_neg Bool.false_ne_true] at ended
          cases empty : isEmptyNode node with
          | true =>
              rw [empty, if_pos rfl] at ended
              obtain ⟨_, _, gone, ended⟩ := parts_of_bind ended
              cases gone.symm.trans discarded
              cases ended
              exact ⟨unlogged_discard files path, fun _ => rfl⟩
          | false =>
              rw [empty, if_neg Bool.false_ne_true] at ended
              obtain ⟨_, _, seen, ended⟩ := parts_of_bind ended
              cases seen
              cases blocked : files.isDirectory (companion path logIndexEnding) with
              | true =>
                  rw [blocked, if_pos rfl] at ended
                  split at ended
                  · cases ended
                  · cases ended
                    exact absurd rfl used
              | false =>
                  rw [blocked, if_neg Bool.false_ne_true] at ended
                  have free : (files.discard (companion path logEnding)).isDirectory
                      (companion path logIndexEnding) = false := by
                    rw [isDirectory, node?_discard_other files (companion_ne (by decide) path)]
                    exact blocked
                  obtain ⟨_, _, gone, ended⟩ := parts_of_bind ended
                  cases gone.symm.trans discarded
                  obtain ⟨_, _, gone, ended⟩ := parts_of_bind ended
                  cases gone.symm.trans (discardFile_eq free)
                  cases ended
                  exact ⟨(unlogged_discard files path).discardIndex, fun impossible => by cases impossible⟩

/-- A database that gets its tables has no companions that count. -/
theorem tidy_of_makeTables {writable : Bool} (inside : path ≠ [])
    (plain : files.isDirectory path = false)
    (settled : companion? files (companion path logEnding) = none)
    (undone : log ≠ .absent → Undone files path)
    (ended : makeTables path writable log files = .ok () after) :
    Tidy after path ∧ after.node? path = some (.database []) ∧ Keeps (fun _ => False) files after := by
  have journal_apart : companion path journalEnding ≠ path := companion_ne_path (by decide) inside
  have log_apart : companion path logEnding ≠ path := companion_ne_path (by decide) inside
  have placed {middle : FileSystem} (log_same : middle.node? (companion path logEnding) =
      files.node? (companion path logEnding)) (undone : Undone middle path)
      (keeps : Keeps (fun _ => False) files middle) (plain : middle.isDirectory path = false)
      (ended : (modify fun files => files.place path (.database []) : Opening Unit) middle =
        .ok () after) :
      Tidy after path ∧ after.node? path = some (.database []) ∧ Keeps (fun _ => False) files after := by
    cases ended
    refine ⟨⟨undone.of_node? (node?_place_other middle _ journal_apart), ?_⟩,
      node?_place_same middle _ inside, keeps.trans ((keeps_place middle _ plain).mono nofun)⟩
    rw [companion?_of_node? (node?_place_other middle _ log_apart), companion?_of_node? log_same, settled]
  unfold makeTables at ended
  cases writable with
  | false =>
      cases ended
  | true =>
      simp only [Bool.not_true, Bool.false_eq_true, if_false] at ended
      by_cases absent : log = .absent
      · rw [if_pos absent] at ended
        obtain ⟨_, _, seen, ended⟩ := parts_of_bind ended
        cases seen
        cases directory : files.isDirectory (companion path journalEnding) with
        | true =>
            rw [directory, if_pos rfl] at ended
            cases ended
        | false =>
            rw [directory, if_neg Bool.false_ne_true] at ended
            obtain ⟨_, _, gone, ended⟩ := parts_of_bind ended
            cases gone.symm.trans (discardFile_eq directory)
            refine placed (node?_discard_other files ?_) (undone_discard files path)
              ((keeps_discard files directory).mono nofun) ?_ ended
            · exact companion_ne (by decide) path
            · rw [isDirectory, node?_discard_other files journal_apart.symm]
              exact plain
      · rw [if_neg absent] at ended
        exact placed rfl (undone absent) (.refl _ _) plain ended

/-! ## What steps leave alone -/

/-- No directory is lost in an opening or in a step of it, and what stands at the path stays. -/
def Spares (path : Path) (opening : Opening Result) : Prop :=
  ∀ files result after, opening files = .ok result after →
    after.node? path = files.node? path ∧ Keeps (fun _ => False) files after

theorem spares_pure (result : Result) : Spares path (pure result : Opening Result) := by
  intro files given after ended
  cases ended
  exact ⟨rfl, .refl _ _⟩

theorem spares_throw (error : DatabaseError) : Spares path (throw error : Opening Result) :=
  fun _ _ _ ended => by cases ended

theorem spares_get : Spares path (get : Opening FileSystem) := by
  intro files given after ended
  cases ended
  exact ⟨rfl, .refl _ _⟩

theorem Spares.bind {opening : Opening Result} {next : Result → Opening Next}
    (first : Spares path opening) (further : ∀ result, Spares path (next result)) :
    Spares path (opening >>= next) := by
  intro files given after ended
  obtain ⟨result, middle, began, ended⟩ := parts_of_bind ended
  obtain ⟨same, keeps⟩ := first files result middle began
  obtain ⟨still, onward⟩ := further result middle given after ended
  exact ⟨still.trans same, keeps.trans onward⟩

theorem Spares.ite {condition : Prop} [Decidable condition] {opening other : Opening Result}
    (yes : Spares path opening) (no : Spares path other) :
    Spares path (if condition then opening else other) := by
  split
  · exact yes
  · exact no

theorem spares_discardFile {place : Path} (apart : place ≠ path) : Spares path (discardFile place) := by
  intro files given after ended
  cases ended
  change FileSystem.node? (if files.isDirectory place then files else files.discard place) path = _ ∧
    Keeps _ files (if files.isDirectory place then files else files.discard place)
  split
  · exact ⟨rfl, .refl _ _⟩
  · rename_i plain
    have keeps := keeps_discard files (Bool.eq_false_iff.mpr plain)
    exact ⟨node?_discard_other files apart.symm, keeps.mono nofun⟩

theorem spares_settleJournal (inside : path ≠ []) (node : Node) : Spares path (settleJournal path node) := by
  have discards := spares_discardFile (companion_ne_path (by decide : journalEnding ≠ "") inside)
  refine spares_get.bind fun files => ?_
  split
  · exact spares_pure ()
  · exact .ite discards (.ite (spares_throw _) (.ite discards (spares_pure ())))

theorem spares_settleLog (inside : path ≠ []) (node : Node) : Spares path (settleLog path node) := by
  have log := spares_discardFile (companion_ne_path (by decide : logEnding ≠ "") inside)
  have index := spares_discardFile (companion_ne_path (by decide : logIndexEnding ≠ "") inside)
  refine spares_get.bind fun files => ?_
  dsimp only
  split
  · exact spares_pure _
  · refine .ite ((spares_throw _).bind fun _ => ?_) ?_ <;>
      refine Spares.ite (log.bind fun _ => spares_pure _) (spares_get.bind fun files => ?_) <;>
      refine Spares.ite (.ite ((spares_throw _).bind fun _ => ?_) ?_) (log.bind fun _ => index.bind fun _ => ?_) <;>
      exact spares_pure _

/-! ## A whole opening -/

theorem isEmptyNode_database (rows : Rows) : isEmptyNode (.database rows) = false := by
  unfold isEmptyNode Node.length? Node.pageLength
  simp only [Option.any_some]
  exact decide_eq_false (by omega)

/-- What is opened is no directory, and it stands at the path. -/
theorem node?_of_openFile {access : DatabaseAccess} (inside : path ≠ [])
    (ended : openFile path access files = .ok node after) :
    after.node? path = some node ∧ node.isDirectory = false ∧ Keeps (fun _ => False) files after := by
  unfold openFile at ended
  obtain ⟨_, _, seen, ended⟩ := parts_of_bind ended
  cases seen
  cases stands : files.node? path with
  | some own =>
      rw [stands] at ended
      cases own <;> cases ended <;> exact ⟨stands, rfl, .refl _ _⟩
  | none =>
      simp only [stands] at ended
      split at ended
      · cases ended
      · cases ended
        have plain : files.isDirectory path = false := by
          rw [isDirectory, stands]
          rfl
        exact ⟨node?_place_same files _ inside, rfl, (keeps_place files _ plain).mono fun _ => False.elim⟩

/-- An opening that may write leaves a database behind that is tidy. -/
theorem left_of_openNamed (plain : DatabaseName.parse name = .ok ⟨some name, .create, false⟩)
    (ended : openNamed name files = .ok connection after) (writable : connection.writable = true) :
    ∃ path rows, connection.place? = some path ∧ pathOf files name = .ok path ∧ Tidy after path ∧
      after.node? path = some (.database rows) ∧ Keeps (fun _ => False) files after := by
  unfold openNamed at ended
  rw [plain] at ended
  obtain ⟨parsed, _, seen, ended⟩ := parts_of_bind ended
  cases seen
  obtain ⟨_, _, seen, ended⟩ := parts_of_bind ended
  cases seen
  obtain ⟨path, begun, located, ended⟩ := parts_of_bind ended
  obtain ⟨found, rfl⟩ : pathOf files name = .ok path ∧ files = begun := by
    revert located
    cases pathOf files name <;> intro located <;> cases located
    exact ⟨rfl, rfl⟩
  have inside := pathOf_ne_nil found
  obtain ⟨node, made, opened, ended⟩ := parts_of_bind ended
  obtain ⟨⟨⟩, undone, journal, ended⟩ := parts_of_bind ended
  obtain ⟨log, settled, logged, ended⟩ := parts_of_bind ended
  obtain ⟨there, proper, made_keeps⟩ := node?_of_openFile inside opened
  obtain ⟨same, undone_keeps⟩ := spares_settleJournal inside node _ _ _ journal
  obtain ⟨still, settled_keeps⟩ := spares_settleLog inside node _ _ _ logged
  have stands : settled.node? path = some node := still.trans (same.trans there)
  have keeps := (made_keeps.trans undone_keeps).trans settled_keeps
  have undone (full : isEmptyNode node = false) : Undone undone path := undone_of_settleJournal full journal
  cases node with
  | database rows =>
      cases ended
      have used : log ≠ .kept := by simpa using writable
      obtain ⟨unlogged, -⟩ := settleLog_cases used logged
      exact ⟨path, rows, rfl, found, ⟨unlogged.undone (undone (isEmptyNode_database rows)), unlogged.gone⟩,
        stands, keeps⟩
  | directory | file | zeros | columnar =>
      dsimp only at ended
      obtain ⟨⟨⟩, final, tables, kept⟩ : ∃ told final,
          makeTables path (decide (log ≠ .kept)) log settled = .ok told final ∧
            (pure ⟨some path, decide (log ≠ .kept), []⟩ : Opening Connection) final = .ok connection after := by
        split at ended
        · generalize DatabaseHeader.defect? _ = defect? at ended
          cases defect? with
          | none => exact parts_of_bind ended
          | some defect =>
              cases ended
        · exact parts_of_bind ended
      cases kept
      obtain ⟨unlogged, absent⟩ := settleLog_cases (of_decide_eq_true writable) logged
      have settles : log ≠ .absent → Undone settled path := fun present =>
        unlogged.undone (undone (Bool.eq_false_iff.mpr fun empty => present (absent empty)))
      have plain : settled.isDirectory path = false := by
        rw [isDirectory, stands]
        exact proper
      obtain ⟨tidy, placed, onward⟩ := tidy_of_makeTables inside plain unlogged.gone settles tables
      exact ⟨path, [], rfl, found, tidy, placed, keeps.trans onward⟩

theorem openFile_eq (stands : files.node? path = some (.database rows)) (access : DatabaseAccess) :
    openFile path access files = .ok (.database rows) files := by
  simp only [openFile, bind, EStateM.bind, get_eq, stands]
  rfl

/-- A tidy database is opened as it stands. -/
theorem openNamed_eq (plain : DatabaseName.parse name = .ok ⟨some name, .create, false⟩)
    (found : pathOf files name = .ok path) (stands : files.node? path = some (.database rows))
    (tidy : Tidy files path) : openNamed name files = .ok ⟨some path, true, []⟩ files := by
  have journal : settleJournal path (.database rows) files = .ok () files := by
    simp only [settleJournal, bind, EStateM.bind, get_eq]
    cases there : companion? files (companion path journalEnding) with
    | none => rfl
    | some journal =>
        obtain ⟨plain, cold⟩ := tidy.journal journal there
        simp only [isEmptyNode_database, plain, cold]
        rfl
  have log : settleLog path (.database rows) files = .ok .absent files := by
    simp only [settleLog, bind, EStateM.bind, get_eq, tidy.log]
    rfl
  simp only [openNamed, plain, bind, EStateM.bind, get_eq, found, pure, EStateM.pure, openFile_eq stands,
    journal, log, Bool.not_false, if_true, Bool.false_eq_true, if_false]
  rfl

end

end TierVault.Connection
