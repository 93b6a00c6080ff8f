import TierVault.Proofs.FileSystem.Calls
import TierVault.Proofs.Memory.Manager

/-!
Spill files stand right in the spill directory.

On a medium that refuses nothing, a write puts one file there and a removal takes one away. Neither changes what
stands at the place of another spill, whether that is a file or nothing.
-/

namespace TierVault

open FileSystem

variable {setup : MemorySetup} {files before middle after : FileSystem} {changed : Nat → Prop}
  {name : String} {number : Nat} {value : Value} {home : Path}

namespace MemorySetup

/-- The bytes that a value is spilled as. -/
def frame (setup : MemorySetup) (value : Value) : Bytes :=
  match value.encode with
  | .ok encoded => setup.compressor.compress encoded
  | .error _ => []

/-- Where the file of a spill stands in the directory. -/
def place (setup : MemorySetup) (home : Path) (name : String) (number : Nat) : Path :=
  home ++ [SpillFile.nameFor name (setup.identifier number)]

/-- The spill directory is there, and the name of the spill's file leads right into it. -/
structure Lies (setup : MemorySetup) (files : FileSystem) (name : String) (number : Nat)
    (home : Path) : Prop where
  seat : Seat files setup.directory home
  names : Names files (setup.spillPath name number) home
    (SpillFile.nameFor name (setup.identifier number))

theorem Lies.keeps {kept : Path → Prop} (lies : setup.Lies before name number home)
    (keeps : Keeps kept before after) : setup.Lies after name number home :=
  ⟨lies.seat.keeps keeps, lies.names.keeps keeps⟩

/-- Spills of different numbers have different places. -/
theorem place_ne (identifies : Identifies setup.identifier) {other : Nat} (different : other ≠ number)
    (above home : Path) (title name : String) :
    setup.place above title other ≠ setup.place home name number := by
  intro same
  have last := List.singleton_inj.mp (List.append_inj_right' same rfl)
  exact different (SpillFile.number_eq_of_nameFor_eq identifies last)

/-! ## What is left alone -/

/-- What stands at the places of spills stays, except of those that were changed. -/
structure Leaves (setup : MemorySetup) (changed : Nat → Prop) (before after : FileSystem) : Prop where
  refuses : after.refuses = before.refuses
  lies : ∀ name number home, setup.Lies before name number home → setup.Lies after name number home
  node? : ∀ name number home, setup.Lies before name number home → ¬changed number →
    after.node? (setup.place home name number) = before.node? (setup.place home name number)

theorem Leaves.trans (first : setup.Leaves changed before middle)
    (second : setup.Leaves changed middle after) : setup.Leaves changed before after where
  refuses := second.refuses.trans first.refuses
  lies name number home lies := second.lies name number home (first.lies name number home lies)
  node? name number home lies same :=
    (second.node? name number home (first.lies name number home lies) same).trans
      (first.node? name number home lies same)

theorem Leaves.quiet (leaves : setup.Leaves changed before after) (quiet : before.Quiet) :
    after.Quiet := by
  intro number
  rw [leaves.refuses]
  exact quiet number

theorem leaves_of_recounts (recounts : Recounts before after) : setup.Leaves changed before after where
  refuses := recounts.extends.refuses
  lies _ _ _ lies := lies.keeps recounts.extends
  node? _ _ _ _ _ := recounts.node? _

/-- A change at the place of one spill. -/
theorem leaves_of_keeps (identifies : Identifies setup.identifier)
    (keeps : Keeps (· ≠ setup.place home name number) before after)
    (same : ∀ path, path ≠ setup.place home name number → after.node? path = before.node? path) :
    setup.Leaves (· = number) before after where
  refuses := keeps.refuses
  lies _ _ _ lies := lies.keeps keeps
  node? _ _ _ _ different := same _ (place_ne identifies different _ _ _ _)

/-- The spill directory is there, or there are no places yet. -/
theorem leaves_of_made (quiet : before.Quiet) (made : makeDirectories setup.directory before =
    .ok () after) : setup.Leaves changed before after := by
  have recounts {home : Path} (seat : Seat before setup.directory home) : Recounts before after := by
    rcases seat.makeDirectories_eq quiet with ⟨own, ended, recounts⟩
    cases made.symm.trans ended
    exact recounts
  refine ⟨(extends_of_makeDirectories made).refuses, ?_, ?_⟩
  · intro name number home lies
    exact lies.keeps (recounts lies.seat).extends
  · intro name number home lies _
    exact (recounts lies.seat).node? _

theorem leaves_of_not_made (quiet : before.Quiet) {error : IoError}
    (failed : makeDirectories setup.directory before = .error error after) :
    setup.Leaves changed before after := by
  have never {home : Path} (seat : Seat before setup.directory home) : False := by
    rcases seat.makeDirectories_eq quiet with ⟨own, ended, -⟩
    cases failed.symm.trans ended
  have adds := adds_makeDirectories setup.directory before
  rw [failed] at adds
  refine ⟨adds.refuses, ?_, ?_⟩
  · intro name number home lies
    exact (never lies.seat).elim
  · intro name number home lies
    exact (never lies.seat).elim

/-! ## Calls -/

/-- A spill file was written: it stands in the spill directory, and holds the value's bytes. -/
structure Written (setup : MemorySetup) (name : String) (number : Nat) (value : Value)
    (before : FileSystem) (size : Nat) (after : FileSystem) : Prop where
  encodes : ∃ encoded, value.encode = .ok encoded
  size : size = (setup.frame value).length
  stands : ∃ home, setup.Lies after name number home ∧
    after.node? (setup.place home name number) = some (.file (setup.frame value))
  leaves : setup.Leaves (· = number) before after

/-- A write puts the file into the spill directory, or changes nothing there. -/
theorem write_cases (identifies : Identifies setup.identifier) (quiet : files.Quiet) (name : String)
    (number : Nat) (value : Value) :
    (∃ error after, SpillFile.write setup.compressor setup.directory
        (SpillFile.nameFor name (setup.identifier number)) value files = .error error after ∧
      setup.Leaves (fun _ => False) files after) ∨
    ∃ size after, SpillFile.write setup.compressor setup.directory
        (SpillFile.nameFor name (setup.identifier number)) value files = .ok size after ∧
      setup.Written name number value files size after := by
  cases encodes : value.encode with
  | error error =>
      refine .inl ⟨.codec error, files, ?_, leaves_of_recounts (.refl files)⟩
      unfold SpillFile.write
      rw [encodes]
      rfl
  | ok encoded =>
      have frame : setup.compressor.compress encoded = setup.frame value := by
        rw [MemorySetup.frame, encodes]
      rw [SpillFile.write_eq encodes, frame]
      simp only [bind, EStateM.bind, SpillAction.onFiles]
      cases made : makeDirectories setup.directory files with
      | error error middle => exact .inl ⟨.io error, middle, rfl, leaves_of_not_made quiet made⟩
      | ok _ middle =>
          have begun {changed : Nat → Prop} : setup.Leaves changed files middle.counted :=
            (leaves_of_made quiet made).trans (leaves_of_recounts (recounts_counted middle))
          have quietly := (extends_of_makeDirectories made).quiet quiet
          simp only [writeFile]
          rcases writeNode_of_quiet quietly (setup.spillPath name number)
              (.file (setup.frame value)) with ⟨error, failed⟩ | ⟨path, placed, free, ended⟩
          · rw [spillPath] at failed
            rw [failed]
            exact .inl ⟨.io error, middle.counted, rfl, begun⟩
          · rw [spillPath] at placed ended
            rw [ended]
            have ready : setup.directory = "" ∨ ∃ home, Home middle.counted setup.directory home := by
              rcases home_of_makeDirectories made with nameless | ⟨home, holds⟩
              · exact .inl nameless
              · exact .inr ⟨home, holds.keeps (extends_counted middle)⟩
            rcases SpillFile.namesThing identifies setup.directory name number with ⟨-, -, busy, down⟩
            rcases names_of_newFile ready (SpillFile.no_slash identifies name number) busy down placed with
              ⟨home, seat, names, rfl⟩
            have keeps := keeps_place middle.counted (.file (setup.frame value)) free
            have lies : setup.Lies middle.counted name number home := ⟨seat, names⟩
            refine .inr ⟨_, _, rfl, ⟨encoded, encodes⟩, rfl, ⟨home, lies.keeps keeps, ?_⟩, ?_⟩
            · exact node?_place_same _ _ (by simp)
            · apply begun.trans
              apply leaves_of_keeps identifies keeps
              intro other different
              exact node?_place_other _ _ different

/-- The file of a spill is removed from its place. -/
theorem Lies.removeFile_eq (identifies : Identifies setup.identifier) (quiet : files.Quiet)
    (lies : setup.Lies files name number home) {content : Bytes}
    (stands : files.node? (setup.place home name number) = some (.file content)) :
    ∃ after, removeFile (setup.spillPath name number) files = .ok () after ∧
      after.node? (setup.place home name number) = none ∧ setup.Leaves (· = number) files after := by
  have plain : files.isDirectory (setup.place home name number) = false := by
    rw [isDirectory, stands]
    rfl
  refine ⟨_, lies.names.removeFile_eq quiet (isThere_of_node? stands) plain, ?_, ?_⟩
  · exact node?_discard_same _ (by simp)
  · have count : setup.Leaves (· = number) files files.counted :=
      leaves_of_recounts (recounts_counted files)
    apply count.trans
    apply leaves_of_keeps identifies (keeps_discard files.counted plain)
    intro other different
    exact node?_discard_other _ different

/-- Where nothing stands, nothing is removed. -/
theorem Lies.removeFile_eq_of_missing (quiet : files.Quiet) (lies : setup.Lies files name number home)
    (missing : files.node? (setup.place home name number) = none) :
    removeFile (setup.spillPath name number) files = .error .notFound files.counted := by
  apply lies.names.removeFile_eq_of_missing quiet
  change (files.node? (setup.place home name number)).isSome = false
  rw [missing]
  rfl

/-- The file's name finds what stands at its place. -/
theorem Lies.has_eq (lies : setup.Lies files name number home) :
    files.has (setup.spillPath name number) = files.isThere (setup.place home name number) := by
  unfold has
  cases there : files.isThere (setup.place home name number) with
  | true =>
      rw [lies.names.find there]
      rfl
  | false =>
      rw [lies.names.find_of_missing there]
      rfl

/-- A file that holds the bytes of a value can be read as this value. -/
theorem Lies.holds (lies : setup.Lies files name number home)
    (stands : files.node? (setup.place home name number) = some (.file (setup.frame value)))
    (genuine : value.Genuine) (encodes : ∃ encoded, value.encode = .ok encoded) :
    SpillFile.Holds setup.compressor files (setup.spillPath name number) value := by
  rcases encodes with ⟨encoded, encodes⟩
  refine ⟨setup.frame value, encoded, ?_, ?_, ?_⟩
  · rw [content?, named?, lies.names.find (isThere_of_node? stands)]
    simp only [Except.toOption, Option.bind_some]
    change (files.node? (setup.place home name number)).bind Node.content? = _
    rw [stands]
    rfl
  · rw [frame, encodes]
    exact setup.compressor.decompress_compress encoded
  · exact SpillFile.decode_of_genuine genuine encodes

end MemorySetup

/-- Reading a spill changes nothing, whether or not it can be read. -/
theorem SpillFile.recounts_read (compressor : Compressor) (quiet : files.Quiet) (file : String) :
    Recounts files (leftBy (SpillFile.read compressor file files)) := by
  have reads := recounts_readFile quiet file
  simp only [SpillFile.read, bind, EStateM.bind, SpillAction.onFiles]
  cases told : readFile file files with
  | error error after =>
      rw [told] at reads
      exact reads
  | ok content after =>
      rw [told] at reads
      simp only []
      cases compressor.decompress content with
      | error error => exact reads
      | ok encoded =>
          simp only [SpillAction.ofExcept, pure, EStateM.pure]
          cases Value.decode encoded with
          | error error => exact reads
          | ok value => exact reads

end TierVault
