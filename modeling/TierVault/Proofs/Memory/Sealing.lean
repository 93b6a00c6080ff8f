import TierVault.Proofs.Memory.Latest

/-!
Files that hold what they were written with, or nothing.

The name of a spill file is written to once. From then on, whatever else is spilled, swept or lost, a file of that
name holds the bytes of its value; and as long as the spill has its one owner, its record is kept. So what is
loaded is the value, or an error.
-/

namespace TierVault

/-! # Sealed files -/

namespace FileSystem

variable {files after : FileSystem} {last other name : String} {bytes content : Bytes} {path : Path}
  {node : Node} {Failure Result : Type} {proper : FileSystem → Prop}

/-- Wherever a file of that name stands, it holds those bytes. -/
def Sealed (last : String) (bytes : Bytes) (files : FileSystem) : Prop :=
  ∀ directory node content, files.node? (directory ++ [last]) = some node →
    node.content? = some content → content = bytes

/-- Nothing stands now but what stood before, and directories. -/
def Loses (before after : FileSystem) : Prop :=
  ∀ path node content, after.node? path = some node → node.content? = some content →
    before.node? path = some node

theorem Sealed.loses (isSealed : Sealed last bytes files) (loses : Loses files after) :
    Sealed last bytes after :=
  fun directory node content stands holds =>
    isSealed directory node content (loses _ node content stands holds) holds

theorem Sealed.counted (isSealed : Sealed last bytes files) : Sealed last bytes files.counted :=
  isSealed

theorem node?_place_cases {asked : Path} {new : Node}
    (stands : (files.place path new).node? asked = some node) :
    node = new ∨ files.node? asked = some node := by
  by_cases same : asked = path
  · subst same
    by_cases root : asked = []
    · subst root
      exact .inr stands
    · rw [node?_place_same files new root] at stands
      exact .inl (Option.some.inj stands).symm
  · rw [node?_place_other files new same] at stands
    exact .inr stands

theorem loses_place_directory (files : FileSystem) (path : Path) :
    Loses files (files.place path .directory) := by
  intro asked node content stands holds
  rcases node?_place_cases stands with rfl | before
  · cases holds
  · exact before

theorem loses_discard (files : FileSystem) (path : Path) : Loses files (files.discard path) := by
  intro asked node content stands holds
  by_cases same : asked = path
  · subst same
    by_cases root : asked = []
    · subst root
      exact stands
    · rw [node?_discard_same files root] at stands
      cases stands
  · rwa [node?_discard_other files same] at stands

/-- A file of another name may hold anything. -/
theorem Sealed.place (isSealed : Sealed last bytes files) {directory : Path}
    (fits : other = last → ∀ content, node.content? = some content → content = bytes) :
    Sealed last bytes (files.place (directory ++ [other]) node) := by
  intro above found content stands holds
  by_cases same : above ++ [last] = directory ++ [other]
  · have own : other = last := (List.singleton_inj.mp (List.append_inj_right' same rfl)).symm
    rcases node?_place_cases stands with rfl | before
    · exact fits own content holds
    · exact isSealed above found content before holds
  · rw [node?_place_other files node same] at stands
    exact isSealed above found content stands holds

/-- No file has that name, in any directory. -/
def Unused (last : String) (files : FileSystem) : Prop :=
  ∀ directory node, files.node? (directory ++ [last]) = some node → node.content? = none

theorem Unused.isSealed (unused : Unused last files) (bytes : Bytes) : Sealed last bytes files := by
  intro directory node content stands holds
  cases (unused directory node stands).symm.trans holds

/-! ## Calls -/

theorem newFile_last (names : NamesThing name last) (placed : files.newFile name = .ok path) :
    ∃ directory, path = directory ++ [last] := by
  obtain ⟨pieces, checked, led⟩ := newFile_follow names placed
  obtain ⟨front, split, named⟩ := names
  cases (pieces_of_ok checked).trans split
  obtain ⟨directory, -, -, -, same⟩ := (follow_last named front).mp led
  exact ⟨directory, same⟩

section

variable (counted : ∀ files, proper files → proper files.counted)

include counted

theorem maintains_writeNode (placed : ∀ files path, proper files →
    files.newFile name = .ok path → proper (files.place path node)) :
    Maintains proper (writeNode name node) := by
  refine (maintains_call counted).bind fun _ files isProper => ?_
  cases wanted : files.newFile name with
  | error error =>
      simp only [bind, EStateM.bind, get_eq, wanted]
      exact isProper
  | ok path =>
      cases plain : files.isDirectory path with
      | true =>
          simp only [bind, EStateM.bind, get_eq, wanted, ofExcept, pure, EStateM.pure, plain, if_true]
          exact isProper
      | false =>
          simp only [bind, EStateM.bind, get_eq, wanted, ofExcept, pure, EStateM.pure, plain,
            Bool.false_eq_true, if_false]
          exact placed files path isProper wanted

theorem maintains_removeFile (discarded : ∀ files path, proper files → proper (files.discard path)) :
    Maintains proper (removeFile name) := by
  refine (maintains_call counted).bind fun _ files isProper => ?_
  cases found : files.find name with
  | error error =>
      simp only [bind, EStateM.bind, get_eq, found]
      exact isProper
  | ok path =>
      cases plain : files.isDirectory path with
      | true =>
          simp only [bind, EStateM.bind, get_eq, found, ofExcept, pure, EStateM.pure, plain, if_true]
          exact isProper
      | false =>
          simp only [bind, EStateM.bind, get_eq, found, ofExcept, pure, EStateM.pure, plain,
            Bool.false_eq_true, if_false]
          exact discarded files path isProper

end

theorem maintains_sealed_removeFile (name : String) :
    Maintains (Sealed last bytes) (removeFile name) :=
  maintains_removeFile (fun _ => Sealed.counted) fun files path isSealed =>
    isSealed.loses (loses_discard files path)

theorem maintains_sealed_makeDirectories (name : String) :
    Maintains (Sealed last bytes) (makeDirectories name) := by
  refine maintains_makeDirectories fun _ _ _ _ => maintains_makeDirectoryAt (fun _ => Sealed.counted) ?_
  intro files path isSealed _ _
  exact isSealed.loses (loses_place_directory files path)

theorem maintains_sealed_writeFile (names : NamesThing name other)
    (fits : other = last → content = bytes) :
    Maintains (Sealed last bytes) (writeFile name content) := by
  refine maintains_writeNode (fun _ => Sealed.counted) ?_
  intro files path isSealed placed
  obtain ⟨directory, rfl⟩ := newFile_last names placed
  apply isSealed.place
  rintro own _ ⟨⟩
  exact fits own

/-- What is read is what stands there. -/
theorem stands_of_readFile (read : readFile name files = .ok content after) :
    ∃ path node, files.find name = .ok path ∧ files.node? path = some node ∧
      node.content? = some content := by
  simp only [readFile, openNode, bind, EStateM.bind, get_eq] at read
  rcases call_cases files with ⟨error, refused⟩ | called
  · rw [refused] at read
    cases read
  simp only [called] at read
  cases found : files.counted.find name with
  | error error =>
      rw [found] at read
      cases read
  | ok path =>
      simp only [found, ofExcept, pure, EStateM.pure] at read
      cases stands : files.counted.node? path with
      | none =>
          rw [stands] at read
          cases read
      | some node =>
          simp only [stands, EStateM.pure] at read
          cases holds : node.content? with
          | none =>
              rw [holds] at read
              cases read
          | some told =>
              rw [holds] at read
              cases read
              exact ⟨path, node, find_of_counted found, stands, holds⟩

theorem Sealed.eq_of_read (isSealed : Sealed last bytes files) (names : NamesThing name last)
    (read : readFile name files = .ok content after) : content = bytes := by
  obtain ⟨path, node, found, stands, holds⟩ := stands_of_readFile read
  obtain ⟨directory, rfl⟩ := find_last names found
  exact isSealed directory node content stands holds

theorem content?_eq_none (files : FileSystem) (nothing : ∀ path node, files.find name = .ok path →
    files.node? path = some node → node.content? = none) : files.content? name = none := by
  unfold content? named?
  cases found : files.find name with
  | error error => rfl
  | ok path =>
      cases stands : files.node? path with
      | none => simp [Except.toOption, stands]
      | some node => simp [Except.toOption, stands, nothing path node found stands]

/-- A removal that the medium lets pass leaves no file of that name. -/
theorem content?_removeFile (granted : files.refuses files.calls = none) (name : String) :
    (leftBy (removeFile name files)).content? name = none := by
  have called : call files = .ok () files.counted := by
    unfold call
    rw [granted]
    rfl
  simp only [removeFile, bind, EStateM.bind, get_eq, called]
  cases found : files.counted.find name with
  | error error =>
      refine content?_eq_none files.counted fun path node led => ?_
      cases found.symm.trans led
  | ok path =>
      simp only [ofExcept, pure, EStateM.pure]
      cases plain : files.counted.isDirectory path with
      | true =>
          refine content?_eq_none files.counted fun other node led stands => ?_
          cases found.symm.trans led
          rw [isDirectory, stands] at plain
          cases node <;> first | rfl | cases plain
      | false =>
          refine content?_eq_none (files.counted.discard path) fun other node led stands => ?_
          have inside : path ≠ [] := by
            rintro rfl
            cases plain
          obtain ⟨pieces, split, start, -⟩ := find_eq_ok_iff.mp found
          obtain ⟨_, again, ends, -⟩ := find_eq_ok_iff.mp led
          cases split.symm.trans again
          have leads := (keeps_discard files.counted plain).follow start
          cases leads.symm.trans ends
          rw [node?_discard_same files.counted inside] at stands
          cases stands

end FileSystem

/-! # Spill files -/

namespace SpillFile

open FileSystem

variable {Result Failure : Type} {proper : FileSystem → Prop} {last directory file : String} {bytes : Bytes}
  {value : Value}

theorem maintains_onFiles {action : FileAction Result} (maintains : Maintains proper action) :
    Maintains proper (SpillAction.onFiles action) := by
  intro files isProper
  have here := maintains files isProper
  unfold SpillAction.onFiles
  cases called : action files with
  | ok result final =>
      rw [called] at here
      exact here
  | error error final =>
      rw [called] at here
      exact here

theorem maintains_ofExcept (wrap : Failure → SpillError) (computation : Except Failure Result) :
    Maintains proper (SpillAction.ofExcept wrap computation) := by
  cases computation with
  | ok result => exact maintains_pure result
  | error error => exact maintains_throw _

theorem maintains_sealed_write (compressor : Compressor) (value : Value)
    (names : NamesThing (FileName.join directory file) file)
    (fits : file = last → ∀ encoded, value.encode = .ok encoded → compressor.compress encoded = bytes) :
    Maintains (Sealed last bytes) (write compressor directory file value) := by
  cases encodes : value.encode with
  | error error =>
      intro files isSealed
      unfold write
      rw [encodes]
      exact isSealed
  | ok encoded =>
      rw [write_eq encodes]
      refine (maintains_onFiles (maintains_sealed_makeDirectories directory)).bind fun _ => ?_
      refine (maintains_onFiles (maintains_sealed_writeFile names ?_)).bind fun _ => maintains_pure _
      intro own
      exact fits own encoded encodes

theorem maintains_sealed_read (compressor : Compressor) (name : String) :
    Maintains (Sealed last bytes) (read compressor name) := by
  refine (maintains_onFiles (maintains_readFile (fun _ => Sealed.counted) name)).bind fun frame => ?_
  exact (maintains_ofExcept _ _).bind fun encoded => maintains_ofExcept _ _

/-- What is read from a sealed file is the value that its bytes stand for. -/
theorem eq_of_read {compressor : Compressor} {name : String} {files after : FileSystem}
    {encoded : Bytes} {found : Value} (isSealed : Sealed last (compressor.compress encoded) files)
    (names : NamesThing name last) (genuine : value.Genuine) (encodes : value.encode = .ok encoded)
    (ended : read compressor name files = .ok found after) : found = value := by
  obtain ⟨frame, middle, called, ended⟩ := parts_of_bind ended
  have held : frame = compressor.compress encoded := by
    unfold SpillAction.onFiles at called
    cases reads : readFile name files with
    | error error final =>
        rw [reads] at called
        cases called
    | ok content final =>
        rw [reads] at called
        cases called
        exact isSealed.eq_of_read names reads
  subst held
  rw [Compressor.decompress_compress] at ended
  obtain ⟨unpacked, _, same, ended⟩ := parts_of_bind ended
  cases same
  rw [decode_of_genuine genuine encodes] at ended
  cases ended
  rfl

end SpillFile

/-! # Spills with one owner -/

open TierVault.Action

variable {setup : MemorySetup} {title name : String} {number : Nat} {bytes : Bytes} {value : Value}
  {memory : ManagedMemory} {faults : Fault → Prop}

namespace MemorySetup

/-- The last part of the name of a spill's file. -/
def spillFile (setup : MemorySetup) (title : String) (number : Nat) : String :=
  SpillFile.nameFor title (setup.identifier number)

end MemorySetup

/-- The spill is on record with its one owner, and its file holds those bytes or nothing. -/
structure ManagedMemory.Guarded (setup : MemorySetup) (title : String) (number : Nat) (bytes : Bytes)
    (memory : ManagedMemory) : Prop where
  recorded : ∃ spill, Keyed.find? number memory.manager.spills = some spill ∧ spill.owners = 1 ∧
    spill.path = setup.spillPath title number
  below : number < memory.manager.nextSpill
  isSealed : memory.files.Sealed (setup.spillFile title number) bytes

/-- What is done with spills, by whoever owns them. -/
inductive SpillCall
  | spill (name : String) (value : Value)
  | share (number : Nat)
  | release (number : Nat)
  | load (number : Nat)
  | loadNamed (name : String)
  | sweep

namespace SpillCall

def perform (setup : MemorySetup) : SpillCall → MemoryAction Unit
  | spill name value => do let _ ← MemoryManager.spill setup name value
  | share number => do let _ ← MemoryManager.share number
  | release number => MemoryManager.release number
  | load number => do let _ ← MemoryManager.load setup number
  | loadNamed name => do let _ ← MemoryManager.loadNamed setup name
  | sweep => do let _ ← MemoryManager.sweep

/-- The call does not change how many owners the spill has. -/
def Spares (number : Nat) : SpillCall → Prop
  | share other | release other => other ≠ number
  | spill .. | load _ | loadNamed _ | sweep => True

end SpillCall

namespace MemoryManager

open ManagedMemory FileSystem

/-! ## What each call leaves -/

theorem removeFile_sealed {last : String} (isSealed : memory.files.Sealed last bytes) (path : String) :
    Leads faults (removeFile path) memory fun _ final =>
      final.manager = memory.manager ∧ final.files.Sealed last bytes := by
  have stays := maintains_sealed_removeFile path memory.files isSealed
  simp only [Leads, removeFile]
  cases called : FileSystem.removeFile path memory.files with
  | ok result files =>
      rw [called] at stays
      exact ⟨rfl, stays⟩
  | error error files =>
      rw [called] at stays
      exact ⟨rfl, stays⟩

theorem removeFile_granted (memory : ManagedMemory) (path : String) :
    Leads faults (removeFile path) memory fun _ final =>
      memory.files.refuses memory.files.calls = none → final.files.content? path = none := by
  have gone (granted : memory.files.refuses memory.files.calls = none) := content?_removeFile granted path
  simp only [Leads, removeFile]
  cases called : FileSystem.removeFile path memory.files with
  | ok result files =>
      rw [called] at gone
      exact gone
  | error error files =>
      rw [called] at gone
      exact gone

theorem load_sealed {last : String} (isSealed : memory.files.Sealed last bytes) (other : Nat) :
    Leads faults (load setup other) memory fun _ final =>
      final.manager = memory.manager ∧ final.files.Sealed last bytes := by
  simp only [load, leads_bind, leads_get]
  cases Keyed.find? other memory.manager.spills with
  | none => exact ⟨rfl, isSealed⟩
  | some spill =>
      have stays := SpillFile.maintains_sealed_read setup.compressor spill.path memory.files isSealed
      simp only []
      cases called : SpillFile.read setup.compressor spill.path memory.files with
      | ok result files =>
          rw [called] at stays
          exact ⟨rfl, stays⟩
      | error error files =>
          rw [called] at stays
          exact ⟨rfl, stays⟩

end MemoryManager

namespace ManagedMemory.Guarded

open MemoryManager FileSystem

variable (guarded : Guarded setup title number bytes memory)

include guarded

theorem of_same {final : ManagedMemory} (manager : final.manager = memory.manager)
    (isSealed : final.files.Sealed (setup.spillFile title number) bytes) :
    Guarded setup title number bytes final :=
  ⟨manager ▸ guarded.recorded, manager ▸ guarded.below, isSealed⟩

/-- The record of another spill is no matter. -/
theorem putOther {other : Nat} (different : number ≠ other) (spill : Spill) :
    Guarded setup title number bytes (memory.withSpills (Keyed.put other spill memory.manager.spills)) := by
  obtain ⟨own, found, owners⟩ := guarded.recorded
  exact ⟨⟨own, (Keyed.find?_put_other _ _ different).trans found, owners⟩, guarded.below, guarded.isSealed⟩

theorem leads_share {other : Nat} (different : other ≠ number) :
    Leads AnyFault (share other) memory fun _ final => Guarded setup title number bytes final := by
  simp only [share, leads_bind, leads_get]
  cases Keyed.find? other memory.manager.spills with
  | none => exact guarded
  | some spill =>
      simp only []
      split
      · exact guarded.putOther different.symm _
      · exact guarded

theorem leads_release {other : Nat} (different : other ≠ number) :
    Leads AnyFault (release other) memory fun _ final => Guarded setup title number bytes final := by
  simp only [release, leads_bind, leads_get]
  cases Keyed.find? other memory.manager.spills with
  | none => exact guarded
  | some spill =>
      have changed := guarded.putOther different.symm { spill with owners := spill.owners - 1 }
      simp only []
      split
      · simp only [update, leads_bind, leads_modify]
        split
        · rw [leads_bind]
          apply (removeFile_sealed changed.isSealed spill.path).imp
          rintro _ final - ⟨manager, isSealed⟩
          exact changed.of_same manager isSealed
        · exact changed
      · exact guarded

theorem leads_load (other : Nat) :
    Leads faults (load setup other) memory fun _ final => Guarded setup title number bytes final := by
  apply (load_sealed guarded.isSealed other).imp
  rintro _ final - ⟨manager, isSealed⟩
  exact guarded.of_same manager isSealed

theorem leads_loadNamed (name : String) :
    Leads AnyFault (loadNamed setup name) memory fun _ final =>
      Guarded setup title number bytes final := by
  simp only [loadNamed, leads_bind, leads_get]
  split
  · split
    · simp only [leads_bind, leads_pure]
      exact guarded.leads_load _
    · exact guarded
  · exact guarded

/-- What has an owner is not swept. -/
theorem leads_sweep (distinct : Keyed.Distinct memory.manager.spills) :
    Leads AnyFault sweep memory fun _ final => Guarded setup title number bytes final := by
  obtain ⟨own, found, owners, path⟩ := guarded.recorded
  let alive := memory.manager.spills.filter fun pair => pair.2.isAlive
  have stays : Guarded setup title number bytes (memory.withSpills alive) := by
    have owned : own.isAlive = true := by simp [Spill.isAlive, owners]
    have member : (number, own) ∈ alive := List.mem_filter.mpr ⟨Keyed.mem_of_find? found, owned⟩
    have apart : Keyed.Distinct alive := (List.filter_sublist.map Prod.fst).nodup distinct
    exact ⟨⟨own, apart.find?_of_mem member, owners, path⟩, guarded.below, guarded.isSealed⟩
  simp only [sweep, update, leads_bind, leads_get, leads_modify, leads_pure]
  apply leads_mapM ?_ stays
  rintro ⟨other, spill⟩ _ middle guarded
  simp only [leads_bind, leads_pure]
  apply (removeFile_sealed guarded.isSealed spill.path).imp
  rintro _ final - ⟨manager, isSealed⟩
  exact guarded.of_same manager isSealed

theorem leads_spill (identifies : Identifies setup.identifier) (name : String) (value : Value) :
    Leads AnyFault (spill setup name value) memory fun _ final =>
      Guarded setup title number bytes final := by
  have different : number ≠ memory.manager.nextSpill := Nat.ne_of_lt guarded.below
  have stays := SpillFile.maintains_sealed_write setup.compressor value
    (SpillFile.namesThing identifies setup.directory name memory.manager.nextSpill)
    (fun own => absurd (SpillFile.number_eq_of_nameFor_eq identifies own) different.symm)
    memory.files guarded.isSealed
  simp only [spill, update, leads_bind, leads_get, leads_modify]
  cases called : SpillFile.write setup.compressor setup.directory
      (SpillFile.nameFor name (setup.identifier memory.manager.nextSpill)) value memory.files with
  | error error files =>
      rw [called] at stays
      exact ⟨guarded.recorded, Nat.lt_succ_of_lt guarded.below, stays⟩
  | ok size files =>
      rw [called] at stays
      obtain ⟨own, found, owners⟩ := guarded.recorded
      simp only [leads_bind, leads_set, leads_pure, leads_readClock, leads_modify]
      exact ⟨⟨own, (Keyed.find?_put_other _ _ different).trans found, owners⟩,
        Nat.lt_succ_of_lt guarded.below, stays⟩

/-- Every call that does not concern its owners leaves the spill guarded. -/
theorem leads_perform (identifies : Identifies setup.identifier)
    (distinct : Keyed.Distinct memory.manager.spills) {call : SpillCall} (spares : call.Spares number) :
    Leads AnyFault (call.perform setup) memory fun _ final =>
      Guarded setup title number bytes final := by
  cases call with
  | spill name value => exact leads_bind _ _ _ _ |>.mpr (guarded.leads_spill identifies name value)
  | share other => exact leads_bind _ _ _ _ |>.mpr (guarded.leads_share spares)
  | release other => exact guarded.leads_release spares
  | load other => exact leads_bind _ _ _ _ |>.mpr (guarded.leads_load other)
  | loadNamed name => exact leads_bind _ _ _ _ |>.mpr (guarded.leads_loadNamed name)
  | sweep => exact leads_bind _ _ _ _ |>.mpr (guarded.leads_sweep distinct)

/-! ## The value -/

/-- What is loaded is the value. -/
theorem load_eq (identifies : Identifies setup.identifier) {encoded : Bytes} (genuine : value.Genuine)
    (encodes : value.encode = .ok encoded) (own : bytes = setup.compressor.compress encoded) :
    Leads faults (load setup number) memory fun answer _ => ∀ found, answer = .ok found → found = value := by
  obtain ⟨spill, recorded, -, path⟩ := guarded.recorded
  have isSealed := guarded.isSealed
  rw [own] at isSealed
  have names := SpillFile.namesThing identifies setup.directory title number
  simp only [load, leads_bind, leads_get, recorded, path]
  cases called : SpillFile.read setup.compressor (setup.spillPath title number) memory.files with
  | ok found files =>
      rintro _ ⟨⟩
      exact SpillFile.eq_of_read isSealed names genuine encodes called
  | error error files =>
      rintro found impossible
      cases impossible

/-- The owner takes the file along, if the medium lets the removal pass. -/
theorem leads_release_own :
    Leads faults (release number) memory fun _ final =>
      memory.files.refuses memory.files.calls = none →
        final.files.content? (setup.spillPath title number) = none := by
  obtain ⟨spill, recorded, owners, path⟩ := guarded.recorded
  have alive : spill.isAlive = true := by simp [Spill.isAlive, owners]
  simp only [release, leads_bind, leads_get, recorded, alive, if_true, update, leads_modify, owners, path]
  simp only [Spill.isAlive, Nat.sub_self, Nat.lt_irrefl, decide_false, Bool.not_false, if_true, leads_bind,
    leads_pure]
  exact removeFile_granted (memory.withSpills _) _

end ManagedMemory.Guarded

namespace MemoryManager

open ManagedMemory FileSystem

/-- A value that is spilled under a name that no file has is guarded from then on. -/
theorem guarded_of_spill (identifies : Identifies setup.identifier)
    (unused : memory.files.Unused (setup.spillFile title memory.manager.nextSpill)) (value : Value) :
    Leads faults (spill setup title value) memory fun answer final => ∀ number, answer = some number →
      ∃ encoded, value.encode = .ok encoded ∧
        Guarded setup title number (setup.compressor.compress encoded) final := by
  simp only [spill, update, leads_bind, leads_get, leads_modify]
  cases encodes : value.encode with
  | error error =>
      have failed : SpillFile.write setup.compressor setup.directory
          (SpillFile.nameFor title (setup.identifier memory.manager.nextSpill)) value memory.files =
            .error (.codec error) memory.files := by
        unfold SpillFile.write
        rw [encodes]
        rfl
      simp only [failed, leads_bind, leads_set, leads_pure]
      rintro _ ⟨⟩
  | ok encoded =>
      have stays := SpillFile.maintains_sealed_write setup.compressor value
        (SpillFile.namesThing identifies setup.directory title memory.manager.nextSpill)
        (fun _ other same => congrArg _ (Except.ok.inj (same.symm.trans encodes)))
        memory.files (unused.isSealed (setup.compressor.compress encoded))
      cases called : SpillFile.write setup.compressor setup.directory
          (SpillFile.nameFor title (setup.identifier memory.manager.nextSpill)) value memory.files with
      | error error files =>
          simp only [leads_bind, leads_set, leads_pure]
          rintro _ ⟨⟩
      | ok size files =>
          rw [called] at stays
          simp only [leads_bind, leads_set, leads_pure, leads_readClock, leads_modify]
          rintro _ ⟨⟩
          refine ⟨encoded, rfl, ⟨_, Keyed.find?_put_same _ _ _, rfl, ?_⟩, Nat.lt_succ_self _, stays⟩
          rw [MemorySetup.spillPath]

/-! ## Spill files and nothing else -/

theorem share_spares (tidy : Tidy setup memory.manager.spills memory.manager.nextSpill) (other : Nat)
    (freed : Nat → Prop) :
    Leads faults (share other) memory fun _ final => Spares setup freed memory final := by
  simp only [share, leads_bind, leads_get]
  cases found : Keyed.find? other memory.manager.spills with
  | none => exact .refl tidy freed
  | some spill =>
      simp only []
      split
      · refine ⟨tidy.put (tidy.below other spill found) (tidy.placed other spill found), .nothing _,
          Nat.le_refl _, ?_⟩
        rintro asked value - ⟨held, there, alive, content⟩
        by_cases own : asked = other
        · subst own
          cases found.symm.trans there
          exact ⟨_, Keyed.find?_put_same _ _ _, decide_eq_true (Nat.succ_pos _), content⟩
        · exact ⟨held, (Keyed.find?_put_other _ _ own).trans there, alive, content⟩
      · exact .refl tidy freed

/-- Every call works on spill files only, and keeps the records in order. -/
theorem SpillCall.leads_perform (identifies : Identifies setup.identifier)
    (tidy : Tidy setup memory.manager.spills memory.manager.nextSpill) (call : SpillCall) :
    Leads AnyFault (call.perform setup) memory fun _ final =>
      Tidy setup final.manager.spills final.manager.nextSpill ∧
        setup.Touches memory.files final.files := by
  cases call with
  | spill name value =>
      simp only [SpillCall.perform, leads_bind, leads_pure]
      apply (spill_spares identifies tidy name value fun _ => False).imp
      rintro _ _ - ⟨spares, -⟩
      exact ⟨spares.tidy, spares.touches⟩
  | share other =>
      simp only [SpillCall.perform, leads_bind, leads_pure]
      apply (share_spares tidy other fun _ => False).imp
      rintro _ _ - spares
      exact ⟨spares.tidy, spares.touches⟩
  | release other =>
      apply (release_spares identifies tidy other).imp
      rintro _ _ - spares
      exact ⟨spares.tidy, spares.touches⟩
  | load other =>
      simp only [SpillCall.perform, leads_bind, leads_pure]
      apply (load_spares tidy other fun _ => False).imp
      rintro _ _ - ⟨spares, -⟩
      exact ⟨spares.tidy, spares.touches⟩
  | loadNamed name =>
      simp only [SpillCall.perform, loadNamed, leads_bind, leads_pure, leads_get]
      split
      · split
        · simp only [leads_bind, leads_pure]
          apply (load_spares tidy _ fun _ => False).imp
          rintro _ _ - ⟨spares, -⟩
          exact ⟨spares.tidy, spares.touches⟩
        · exact ⟨tidy, .nothing _⟩
      · exact ⟨tidy, .nothing _⟩
  | sweep =>
      simp only [SpillCall.perform, leads_bind, leads_pure]
      apply (sweep_spares identifies tidy fun _ => False).imp
      rintro _ _ - spares
      exact ⟨spares.tidy, spares.touches⟩

end MemoryManager

end TierVault
