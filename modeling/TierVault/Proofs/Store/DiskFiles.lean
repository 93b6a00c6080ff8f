import TierVault.Proofs.FileSystem.Orderly
import TierVault.Proofs.Store.PayloadNames

/-!
The files of a directory that is used as a store, and nothing else.

The directory holds the index and its temporary file beside directories of payload files. A thing with a name
of two bytes is such a directory, and there are no other directories below.
-/

namespace TierVault

open FileSystem

variable {root name last : String} {files after : FileSystem} {home path other : Path} {node : Node}
  {rest : List String}

/-- A directory with nothing in it, on a medium that refuses nothing, and room for the names of payloads. -/
structure FileSystem.Vacant (files : FileSystem) (root : String) (home : Path) : Prop where
  holds : Home files root home
  quiet : files.Quiet
  short : root.utf8ByteSize + 74 < nameLimit
  bare : ∃ item?, files.nodes.walk home = .bare item?

theorem FileSystem.Vacant.node? (vacant : Vacant files root home) (name : String) (rest : List String) :
    files.node? (home ++ name :: rest) = none := by
  obtain ⟨item?, bare⟩ := vacant.bare
  rw [FileSystem.node?, if_neg (by simp)]
  change (files.nodes.walk (home ++ name :: rest)).item? = none
  rw [PathTree.walk_append, bare]
  exact congrArg PathTree.item? (PathTree.walk_empty rest)

/-! ## The layout -/

namespace DiskStore

variable {opened : FileSystem} {key : String}

/-- Since the directory was opened, nothing but directories of payload files and plain files came into it. -/
structure Shelved (opened : FileSystem) (home : Path) (files : FileSystem) : Prop where
  keeps : Keeps (fun _ => False) opened files
  separate : ∀ path, ((files.nodes.walk home).walk path).Separate
  shelves : ∀ name, utf8Length name = 2 → files.isThere (home ++ [name]) = true →
    files.isDirectory (home ++ [name]) = true ∧ ∃ key, name = shelfName key
  directory : ∀ name rest, files.isDirectory (home ++ name :: rest) = true →
    rest = [] ∧ utf8Length name = 2
  /-- Elsewhere nothing changed. -/
  elsewhere : ∀ other, ¬home <+: other → ¬other <+: home →
    files.nodes.walk other = opened.nodes.walk other
  seconds : files.seconds = opened.seconds

theorem shelved_of_vacant (vacant : Vacant opened root home) : Shelved opened home opened where
  keeps := .refl _ _
  separate := by
    obtain ⟨item?, bare⟩ := vacant.bare
    rw [bare]
    exact PathTree.separate_walk_bare item?
  shelves name _ there := by
    rw [isThere, vacant.node? name []] at there
    cases there
  directory name rest directory := by
    rw [isDirectory_of_none (vacant.node? name rest)] at directory
    cases directory
  elsewhere _ _ _ := rfl
  seconds := rfl

/-- A change inside a place is not seen from elsewhere. -/
theorem walk_change_inside {tree : PathTree Node} (how : PathTree Node → PathTree Node) (name : String)
    (rest : List String) (below : ¬home <+: other) (above : ¬other <+: home) :
    (tree.change how (home ++ name :: rest)).walk other = tree.walk other := by
  refine PathTree.walk_change_apart how ?_ ?_ tree
  · exact fun front => below ((List.prefix_append home _).trans front)
  · intro front
    exact (List.prefix_or_prefix_of_prefix front (List.prefix_append home _)).elim above below

namespace Shelved

theorem quiet (shelved : Shelved opened home files) (vacant : Vacant opened root home) : files.Quiet :=
  shelved.keeps.quiet vacant.quiet

theorem holds (shelved : Shelved opened home files) (vacant : Vacant opened root home) :
    Home files root home :=
  vacant.holds.keeps shelved.keeps

theorem recounts (shelved : Shelved opened home files) (recounts : Recounts files after) :
    Shelved opened home after := by
  have keeps := recounts.extends
  obtain ⟨calls, rfl⟩ := recounts
  exact ⟨shelved.keeps.trans keeps.weaken, shelved.separate, shelved.shelves, shelved.directory,
    shelved.elsewhere, shelved.seconds⟩

theorem counted (shelved : Shelved opened home files) : Shelved opened home files.counted :=
  shelved.recounts (recounts_counted files)

/-- Anything else is no directory. -/
theorem plain (shelved : Shelved opened home files) (wide : rest = [] → utf8Length name ≠ 2) :
    files.isDirectory (home ++ name :: rest) = false := by
  refine Bool.eq_false_iff.mpr fun directory => ?_
  obtain ⟨last, short⟩ := shelved.directory name rest directory
  exact wide last short

/-- A change at one path below that makes and takes no directory. -/
theorem change (shelved : Shelved opened home files) {after : FileSystem}
    (wide : rest = [] → utf8Length name ≠ 2)
    (keeps : Keeps (fun _ => False) files after) {item? : Option Node}
    (nodes : after.nodes = files.nodes.change (PathTree.setItem item?) (home ++ name :: rest))
    (others : ∀ other, other ≠ home ++ name :: rest → after.node? other = files.node? other)
    (plain : after.isDirectory (home ++ name :: rest) = false)
    (seconds : after.seconds = files.seconds) : Shelved opened home after := by
  have same (other : Path) (directory : after.isDirectory other = true) :
      files.isDirectory other = true := by
    have different : other ≠ home ++ name :: rest := by
      rintro rfl
      cases directory.symm.trans plain
    rwa [isDirectory, others other different] at directory
  refine ⟨shelved.keeps.trans keeps, ?_, ?_,
    fun own inner there => shelved.directory own inner (same _ there), fun other below above => ?_,
    seconds.trans shelved.seconds⟩
  · rw [nodes, PathTree.walk_change_append]
    exact fun path => PathTree.separate_walk_change _ path shelved.separate
      fun tree => PathTree.separate_walk_setItem item?
  · intro own short there
    have different : home ++ [own] ≠ home ++ name :: rest := by
      intro equal
      cases List.append_cancel_left equal
      exact wide rfl short
    rw [isThere, others _ different] at there
    rw [isDirectory, others _ different]
    exact shelved.shelves own short there
  · rw [nodes, walk_change_inside _ name rest below above]
    exact shelved.elsewhere other below above

theorem place (shelved : Shelved opened home files) (wide : rest = [] → utf8Length name ≠ 2)
    (plain : node.isDirectory = false) :
    Shelved opened home (files.place (home ++ name :: rest) node) := by
  have keeps := keeps_place files node (shelved.plain wide)
  have inside : home ++ name :: rest ≠ [] := by simp
  refine shelved.change wide (keeps.mono fun _ impossible => impossible.elim) rfl
    (fun other different => node?_place_other files node different) ?_ rfl
  rw [isDirectory, node?_place_same files node inside]
  exact plain

theorem discard (shelved : Shelved opened home files) (wide : rest = [] → utf8Length name ≠ 2) :
    Shelved opened home (files.discard (home ++ name :: rest)) := by
  have keeps := keeps_discard files (shelved.plain wide)
  have inside : home ++ name :: rest ≠ [] := by simp
  exact shelved.change wide (keeps.mono fun _ impossible => impossible.elim) rfl
    (fun other different => node?_discard_other files different)
    (isDirectory_of_none (node?_discard_same files inside)) rfl

/-- A new directory for payload files. -/
theorem place_shelf (shelved : Shelved opened home files) (named : ∃ key, name = shelfName key)
    (free : files.isThere (home ++ [name]) = false) :
    Shelved opened home (files.place (home ++ [name]) .directory) := by
  have inside : home ++ [name] ≠ [] := by simp
  have stands := node?_place_same files .directory inside
  refine ⟨shelved.keeps.trans (extends_place files free).weaken, ?_, ?_, ?_,
    fun other below above => ?_, shelved.seconds⟩
  · intro path
    change (((files.nodes.change _ (home ++ [name])).walk home).walk path).Separate
    rw [PathTree.walk_change_append]
    exact PathTree.separate_walk_change _ path shelved.separate
      fun tree => PathTree.separate_walk_setItem _
  · intro own short there
    by_cases same : own = name
    · subst same
      rw [isDirectory, stands]
      exact ⟨rfl, named⟩
    · have different : home ++ [own] ≠ home ++ [name] :=
        fun equal => same (List.singleton_inj.mp (List.append_cancel_left equal))
      rw [isThere, node?_place_other files _ different] at there
      rw [isDirectory, node?_place_other files _ different]
      exact shelved.shelves own short there
  · intro own inner directory
    by_cases same : own :: inner = [name]
    · cases same
      obtain ⟨key, rfl⟩ := named
      exact ⟨rfl, utf8Length_shelfName key⟩
    · have different : home ++ own :: inner ≠ home ++ [name] :=
        fun equal => same (List.append_cancel_left equal)
      rw [isDirectory, node?_place_other files _ different] at directory
      exact shelved.directory own inner directory
  · exact (walk_change_inside _ name [] below above).trans (shelved.elsewhere other below above)

/-- A directory of payload files goes, with all that is in it. -/
theorem cleared (shelved : Shelved opened home files) (vacant : Vacant opened root home)
    (name : String) : Shelved opened home (files.cleared (home ++ [name])) := by
  have inside : home ++ [name] ≠ [] := by simp
  have gone {other : Path} (below : home ++ [name] <+: other) :
      (files.cleared (home ++ [name])).node? other = none := node?_cleared_below files inside below
  refine ⟨⟨shelved.keeps.workingDirectory, shelved.keeps.refuses, ?_, nofun⟩, ?_, ?_, ?_,
    fun other below above => ?_, shelved.seconds⟩
  · intro other there
    -- The directories from before stand at other places than those that came.
    have apart : ¬home ++ [name] <+: other := by
      rintro ⟨inner, rfl⟩
      rw [List.append_assoc, List.singleton_append,
        isDirectory_of_none (vacant.node? name inner)] at there
      cases there
    rw [isDirectory, node?_cleared_apart files apart]
    exact shelved.keeps.directory other there
  · intro path
    change (((files.nodes.change _ (home ++ [name])).walk home).walk path).Separate
    rw [PathTree.walk_change_append]
    exact PathTree.separate_walk_change _ path shelved.separate
      fun tree _ => PathTree.separate_walk_empty
  · intro own short there
    by_cases below : home ++ [name] <+: home ++ [own]
    · rw [isThere, gone below] at there
      cases there
    · rw [isThere, node?_cleared_apart files below] at there
      rw [isDirectory, node?_cleared_apart files below]
      exact shelved.shelves own short there
  · intro own inner directory
    by_cases below : home ++ [name] <+: home ++ own :: inner
    · rw [isDirectory_of_none (gone below)] at directory
      cases directory
    · rw [isDirectory, node?_cleared_apart files below] at directory
      exact shelved.directory own inner directory
  · exact (walk_change_inside _ name [] below above).trans (shelved.elsewhere other below above)

end Shelved

end DiskStore

end TierVault
