import TierVault.Proofs.Memory.SpillDirectory

/-!
Handles of spilled values, over all that a memory manager does.

A caller that spills a value gets a handle. Handles are cloned and dropped, and how many there are is told by these
calls alone. The files, the records and the report of the manager follow them: what is done in between, in any
order, takes nothing from a handle that is alive and leaves nothing of one that is not.
-/

namespace TierVault

open TierVault.Action

/-! ## Runs -/

/-- What the callers of a manager have of one spill. -/
structure SpillHandle where
  name : String
  value : Value
  /-- How many clones of it are alive. -/
  clones : Nat

namespace SpillHandle

def isAlive (handle : SpillHandle) : Bool := 0 < handle.clones

/-- The length of the file that was written. -/
def size (setup : MemorySetup) (handle : SpillHandle) : Nat := (setup.frame handle.value).length

/-- A handle that is alive gets more clones or fewer. -/
def recount (number : Nat) (change : Nat → Nat) (handles : Keyed Nat SpillHandle) :
    Keyed Nat SpillHandle :=
  match Keyed.find? number handles with
  | some handle =>
    if handle.isAlive then Keyed.put number { handle with clones := change handle.clones } handles
    else handles
  | none => handles

end SpillHandle

/-- A managed memory, with the handles of all that was spilled in it. -/
structure HandledMemory where
  memory : ManagedMemory
  handles : Keyed Nat SpillHandle

namespace HandledMemory

def start (setup : MemorySetup) (files : FileSystem) : HandledMemory :=
  ⟨⟨.start setup, files⟩, []⟩

def within {Result : Type} (action : MemoryAction Result) : Action HandledMemory Result := fun held =>
  match action held.memory with
  | .ok result memory => .ok result { held with memory }
  | .error fault memory => .error fault { held with memory }

def changeHandles (change : Keyed Nat SpillHandle → Keyed Nat SpillHandle) :
    Action HandledMemory Unit :=
  modify fun held => { held with handles := change held.handles }

end HandledMemory

open HandledMemory

inductive HandleCall
  | spill (name : String) (value : Value)
  | clone (number : Nat)
  | drop (number : Nat)
  | load (number : Nat)
  | loadNamed (name : String)

def HandleCall.perform (setup : MemorySetup) : HandleCall → Action HandledMemory Unit
  | .spill name value => do
    match ← within (MemoryManager.spill setup name value) with
    | some number => changeHandles (Keyed.put number ⟨name, value, 1⟩)
    | none => return ()
  | .clone number => do
    let _ ← within (MemoryManager.share number)
    changeHandles (SpillHandle.recount number (· + 1))
  | .drop number => do
    within (MemoryManager.release number)
    changeHandles (SpillHandle.recount number (· - 1))
  | .load number => do
    let _ ← within (MemoryManager.load setup number)
  | .loadNamed name => do
    let _ ← within (MemoryManager.loadNamed setup name)

/-- What a reclaimer does in a pass. It may work on handles as every other caller. -/
structure ReclaimerTurn where
  calls : List HandleCall
  /-- The bytes that it tells it freed. -/
  freed : Nat

def ReclaimerTurn.perform (setup : MemorySetup) (turn : ReclaimerTurn) :
    Action HandledMemory Nat := do
  turn.calls.forM (HandleCall.perform setup)
  return turn.freed

/-- A step of a run: a call on handles, a pass with what the reclaimers do in it, or the end. Nothing keeps
callers from going on after the end. -/
inductive ManagerCall
  | handle (call : HandleCall)
  | reclaimIfNeeded (forced : Bool) (turns : List ReclaimerTurn)
  | optimize (turns : List ReclaimerTurn)
  | shutdown

def ManagerCall.perform (setup : MemorySetup) : ManagerCall → Action HandledMemory Unit
  | .handle call => call.perform setup
  | .reclaimIfNeeded forced turns => do
    let _ ← MemoryManager.reclaimIfNeeded within setup (turns.map (ReclaimerTurn.perform setup)) forced
  | .optimize turns => do
    let _ ← MemoryManager.optimize within setup (turns.map (ReclaimerTurn.perform setup))
  | .shutdown => do
    let _ ← within MemoryManager.sweep

namespace HandledMemory

def runAll (setup : MemorySetup) (calls : List ManagerCall) : Action HandledMemory Unit :=
  calls.forM (ManagerCall.perform setup)

/-! ## What follows the handles -/

variable {setup : MemorySetup} {files : FileSystem} {held : HandledMemory} {memory : ManagedMemory}
  {number : Nat} {handle : SpillHandle} {spill : Spill} {Result Next : Type}

/-- The file stands in the spill directory as long as a clone of the handle is alive. -/
structure Filed (setup : MemorySetup) (files : FileSystem) (number : Nat) (handle : SpillHandle) :
    Prop where
  encodes : ∃ encoded, handle.value.encode = .ok encoded
  stands : ∃ home, setup.Lies files handle.name number home ∧
    files.node? (setup.place home handle.name number) =
      if handle.isAlive then some (.file (setup.frame handle.value)) else none

/-- The record tells of the handle. -/
structure Recorded (setup : MemorySetup) (number : Nat) (handle : SpillHandle) (spill : Spill) :
    Prop where
  name : spill.name = handle.name
  path : spill.path = setup.spillPath handle.name number
  size : spill.size = handle.size setup
  owners : spill.owners = handle.clones

/-- There are records of handles only, and only those of dead handles may be gone. -/
inductive Matches (setup : MemorySetup) (number : Nat) : Option SpillHandle → Option Spill → Prop
  | recorded {handle : SpillHandle} {spill : Spill} (recorded : Recorded setup number handle spill) :
      Matches setup number (some handle) (some spill)
  | swept {handle : SpillHandle} (dead : handle.isAlive = false) : Matches setup number (some handle) none
  | unknown : Matches setup number none none

/-- The files and the records follow the handles. -/
structure Follows (setup : MemorySetup) (held : HandledMemory) : Prop where
  quiet : held.memory.files.Quiet
  distinct : Keyed.Distinct held.handles
  alsoDistinct : Keyed.Distinct held.memory.manager.spills
  below : ∀ number handle, Keyed.find? number held.handles = some handle →
    number < held.memory.manager.nextSpill
  filed : ∀ number handle, Keyed.find? number held.handles = some handle →
    Filed setup held.memory.files number handle
  agrees : ∀ number, Matches setup number (Keyed.find? number held.handles)
    (Keyed.find? number held.memory.manager.spills)

theorem follows_start (setup : MemorySetup) (quiet : files.Quiet) :
    Follows setup (start setup files) where
  quiet := quiet
  distinct := List.nodup_nil
  alsoDistinct := List.nodup_nil
  below number handle found := by cases found
  filed number handle found := by cases found
  agrees number := .unknown

theorem Recorded.isAlive (recorded : Recorded setup number handle spill) :
    spill.isAlive = handle.isAlive := by
  rw [Spill.isAlive, recorded.owners]
  rfl

theorem Filed.leaves {changed : Nat → Prop} {before after : FileSystem}
    (filed : Filed setup before number handle) (leaves : setup.Leaves changed before after)
    (same : ¬changed number) : Filed setup after number handle := by
  rcases filed.stands with ⟨home, lies, stands⟩
  refine ⟨filed.encodes, home, leaves.lies _ _ _ lies, ?_⟩
  exact (leaves.node? _ _ _ lies same).trans stands

/-- The file is there exactly as long as a clone of the handle is alive. -/
theorem Filed.has_eq (filed : Filed setup files number handle) :
    files.has (setup.spillPath handle.name number) = handle.isAlive := by
  rcases filed.stands with ⟨home, lies, stands⟩
  rw [lies.has_eq, FileSystem.isThere, stands]
  cases handle.isAlive <;> rfl

theorem Follows.leaves (follows : Follows setup held)
    (leaves : setup.Leaves (fun _ => False) held.memory.files memory.files)
    (spills : memory.manager.spills = held.memory.manager.spills)
    (later : held.memory.manager.nextSpill ≤ memory.manager.nextSpill) :
    Follows setup { held with memory } where
  quiet := leaves.quiet follows.quiet
  distinct := follows.distinct
  alsoDistinct := spills ▸ follows.alsoDistinct
  below number handle found := Nat.lt_of_lt_of_le (follows.below number handle found) later
  filed number handle found := (follows.filed number handle found).leaves leaves id
  agrees number := by
    rw [spills]
    exact follows.agrees number

/-- A handle and its record change together. -/
theorem Follows.put (follows : Follows setup held)
    (leaves : setup.Leaves (· = number) held.memory.files memory.files)
    (spills : memory.manager.spills = Keyed.put number spill held.memory.manager.spills)
    (later : held.memory.manager.nextSpill ≤ memory.manager.nextSpill)
    (below : number < memory.manager.nextSpill) (filed : Filed setup memory.files number handle)
    (recorded : Recorded setup number handle spill) :
    Follows setup ⟨memory, Keyed.put number handle held.handles⟩ := by
  refine ⟨leaves.quiet follows.quiet, follows.distinct.put _ _, ?_, ?_, ?_, ?_⟩
  · rw [spills]
    exact follows.alsoDistinct.put _ _
  · intro other found among
    by_cases own : other = number
    · exact own ▸ below
    · rw [Keyed.find?_put_other _ _ own] at among
      exact Nat.lt_of_lt_of_le (follows.below other found among) later
  · intro other found among
    by_cases own : other = number
    · subst own
      cases (Keyed.find?_put_same _ _ _).symm.trans among
      exact filed
    · rw [Keyed.find?_put_other _ _ own] at among
      exact (follows.filed other found among).leaves leaves own
  · intro other
    rw [spills]
    by_cases own : other = number
    · rw [own, Keyed.find?_put_same, Keyed.find?_put_same]
      exact .recorded recorded
    · rw [Keyed.find?_put_other _ _ own, Keyed.find?_put_other _ _ own]
      exact follows.agrees other

/-- Of a handle that is alive there is a record, and of one that is not there is none that is. -/
theorem Follows.alive_or_dead (follows : Follows setup held) (number : Nat) :
    (∃ handle spill, Keyed.find? number held.handles = some handle ∧ handle.isAlive = true ∧
      Keyed.find? number held.memory.manager.spills = some spill ∧
        Recorded setup number handle spill) ∨
    (∀ handle, Keyed.find? number held.handles = some handle → handle.isAlive = false) ∧
      ∀ spill, Keyed.find? number held.memory.manager.spills = some spill →
        spill.isAlive = false := by
  have agrees := follows.agrees number
  generalize Keyed.find? number held.handles = handle? at agrees ⊢
  generalize Keyed.find? number held.memory.manager.spills = spill? at agrees ⊢
  cases agrees with
  | @recorded handle spill recorded =>
      cases alive : handle.isAlive with
      | true => exact .inl ⟨handle, spill, rfl, alive, rfl, recorded⟩
      | false =>
          refine .inr ⟨?_, ?_⟩
          · intro other same
            cases same
            exact alive
          · intro other same
            cases same
            exact recorded.isAlive.trans alive
  | swept dead =>
      refine .inr ⟨?_, nofun⟩
      intro other same
      cases same
      exact dead
  | unknown => exact .inr ⟨nofun, nofun⟩

theorem recount_of_alive {change : Nat → Nat} {handles : Keyed Nat SpillHandle}
    (found : Keyed.find? number handles = some handle) (alive : handle.isAlive = true) :
    SpillHandle.recount number change handles =
      Keyed.put number { handle with clones := change handle.clones } handles := by
  unfold SpillHandle.recount
  rw [found]
  exact if_pos alive

theorem recount_of_dead {change : Nat → Nat} {handles : Keyed Nat SpillHandle}
    (dead : ∀ handle, Keyed.find? number handles = some handle → handle.isAlive = false) :
    SpillHandle.recount number change handles = handles := by
  unfold SpillHandle.recount
  cases found : Keyed.find? number handles with
  | none => rfl
  | some handle => exact if_neg (by simp [dead handle found])

/-! ## Calls on one spill -/

section Exact

variable {path : String} {error : IoError}

theorem removeFile_of_ok (memory : ManagedMemory)
    (removed : FileSystem.removeFile path memory.files = .ok () files) :
    MemoryManager.removeFile path memory = .ok true (memory.withFiles files) := by
  unfold MemoryManager.removeFile
  rw [removed]
  rfl

theorem removeFile_of_error (memory : ManagedMemory)
    (failed : FileSystem.removeFile path memory.files = .error error files) :
    MemoryManager.removeFile path memory = .ok false (memory.withFiles files) := by
  unfold MemoryManager.removeFile
  rw [failed]
  rfl

theorem leads_share_of_alive {faults : Fault → Prop} {after : Bool → ManagedMemory → Prop}
    (stored : Keyed.find? number memory.manager.spills = some spill) (alive : spill.isAlive = true) :
    Leads faults (MemoryManager.share number) memory after ↔
      after true (memory.withSpills
        (Keyed.put number { spill with owners := spill.owners + 1 } memory.manager.spills)) := by
  simp only [MemoryManager.share, leads_bind, leads_get, stored, alive, if_true, MemoryManager.update,
    leads_modify, leads_pure]
  rfl

theorem leads_share_of_dead {faults : Fault → Prop} {after : Bool → ManagedMemory → Prop}
    (dead : ∀ spill, Keyed.find? number memory.manager.spills = some spill → spill.isAlive = false) :
    Leads faults (MemoryManager.share number) memory after ↔ after false memory := by
  simp only [MemoryManager.share, leads_bind, leads_get]
  cases stored : Keyed.find? number memory.manager.spills with
  | none => exact Iff.rfl
  | some spill => simp only [dead spill stored, Bool.false_eq_true, if_false, leads_pure]

/-- An owner that is not the last one leaves the file. -/
theorem leads_release_of_shared {faults : Fault → Prop} {after : Unit → ManagedMemory → Prop}
    (stored : Keyed.find? number memory.manager.spills = some spill) (shared : 1 < spill.owners) :
    Leads faults (MemoryManager.release number) memory after ↔
      after () (memory.withSpills
        (Keyed.put number { spill with owners := spill.owners - 1 } memory.manager.spills)) := by
  have alive : spill.isAlive = true := decide_eq_true (Nat.lt_of_succ_lt shared)
  have stays : Spill.isAlive { spill with owners := spill.owners - 1 } = true :=
    decide_eq_true (Nat.sub_pos_of_lt shared)
  simp only [MemoryManager.release, leads_bind, leads_get, stored, alive, if_true, MemoryManager.update,
    leads_modify, stays, Bool.not_true, Bool.false_eq_true, if_false, leads_pure]
  rfl

/-- The last owner takes the file along. -/
theorem leads_release_of_last {faults : Fault → Prop} {after : Unit → ManagedMemory → Prop}
    (stored : Keyed.find? number memory.manager.spills = some spill) (last : spill.owners = 1)
    (removed : FileSystem.removeFile spill.path memory.files = .ok () files) :
    Leads faults (MemoryManager.release number) memory after ↔
      after () ((memory.withSpills
        (Keyed.put number { spill with owners := 0 } memory.manager.spills)).withFiles files) := by
  have alive : spill.isAlive = true := by
    rw [Spill.isAlive, last]
    rfl
  have ends : Spill.isAlive { spill with owners := 0 } = false := rfl
  have removes := removeFile_of_ok
    (memory.withSpills (Keyed.put number { spill with owners := 0 } memory.manager.spills)) removed
  simp only [MemoryManager.release, leads_bind, leads_get, stored, alive, if_true, MemoryManager.update,
    leads_modify, last, Nat.sub_self, ends, Bool.not_false, leads_pure]
  exact leads_of_eq removes

theorem leads_release_of_dead {faults : Fault → Prop} {after : Unit → ManagedMemory → Prop}
    (dead : ∀ spill, Keyed.find? number memory.manager.spills = some spill → spill.isAlive = false) :
    Leads faults (MemoryManager.release number) memory after ↔ after () memory := by
  simp only [MemoryManager.release, leads_bind, leads_get]
  cases stored : Keyed.find? number memory.manager.spills with
  | none => exact Iff.rfl
  | some spill => simp only [dead spill stored, Bool.false_eq_true, if_false, leads_pure]

end Exact

/-! ## Steps -/

theorem leads_within {faults : Fault → Prop} {action : MemoryAction Result}
    {after : Result → HandledMemory → Prop} :
    Leads faults (within action) held after ↔
      Leads faults action held.memory fun result memory => after result { held with memory } := by
  unfold Leads within
  cases action held.memory <;> rfl

@[simp] theorem leads_changeHandles {faults : Fault → Prop}
    (change : Keyed Nat SpillHandle → Keyed Nat SpillHandle)
    (after : Unit → HandledMemory → Prop) :
    Leads faults (changeHandles change) held after ↔
      after () { held with handles := change held.handles } := Iff.rfl

/-! ## What the handles are followed by -/

/-- An action that only reads files. -/
theorem heeds_within {action : MemoryAction Result}
    (reads : ∀ memory : ManagedMemory, memory.files.Quiet → Leads AnyFault action memory fun _ final =>
      memory.files.Recounts final.files ∧ final.manager.spills = memory.manager.spills ∧
        final.manager.nextSpill = memory.manager.nextSpill) : Heeds (Follows setup) (within action) := by
  intro held follows
  rw [leads_within]
  apply (reads held.memory follows.quiet).imp
  rintro _ memory - ⟨recounts, spills, next⟩
  exact follows.leaves (MemorySetup.leaves_of_recounts recounts) spills (Nat.le_of_eq next.symm)

theorem heeds_idle {action : MemoryAction Result} (idle : MemoryManager.Idle action) :
    Heeds (Follows setup) (within action) := by
  apply heeds_within
  intro memory _
  apply (idle memory).imp
  rintro _ final - ⟨files, spills, next, -⟩
  exact ⟨files ▸ .refl _, spills, next⟩

theorem reads_load (number : Nat) (memory : ManagedMemory) (quiet : memory.files.Quiet) :
    Leads AnyFault (MemoryManager.load setup number) memory fun _ final =>
      memory.files.Recounts final.files ∧ final.manager.spills = memory.manager.spills ∧
        final.manager.nextSpill = memory.manager.nextSpill := by
  simp only [MemoryManager.load, leads_bind, leads_get]
  cases Keyed.find? number memory.manager.spills with
  | none => exact ⟨.refl _, rfl, rfl⟩
  | some spill =>
      have recounts := SpillFile.recounts_read setup.compressor quiet spill.path
      simp only []
      cases ended : SpillFile.read setup.compressor spill.path memory.files with
      | ok value files =>
          rw [ended] at recounts
          exact ⟨recounts, rfl, rfl⟩
      | error error files =>
          rw [ended] at recounts
          exact ⟨recounts, rfl, rfl⟩

theorem heeds_load (number : Nat) : Heeds (Follows setup) (within (MemoryManager.load setup number)) :=
  heeds_within (reads_load number)

theorem heeds_loadNamed (name : String) :
    Heeds (Follows setup) (within (MemoryManager.loadNamed setup name)) := by
  apply heeds_within
  intro memory quiet
  simp only [MemoryManager.loadNamed, leads_bind, leads_get]
  split
  · split
    · simp only [leads_bind, leads_pure]
      exact reads_load _ memory quiet
    · exact ⟨.refl _, rfl, rfl⟩
  · exact ⟨.refl _, rfl, rfl⟩

/-- The records of handles that are alive stay, and so do all files. -/
theorem Follows.leads_sweep {faults : Fault → Prop} (follows : Follows setup held) :
    Leads faults MemoryManager.sweep held.memory fun _ final =>
      held.memory.files.Recounts final.files ∧
        final.manager.spills = held.memory.manager.spills.filter (fun pair => pair.2.isAlive) ∧
          final.manager.nextSpill = held.memory.manager.nextSpill := by
  simp only [MemoryManager.sweep, MemoryManager.update, leads_bind, leads_get, leads_modify, leads_pure]
  apply leads_mapM _ ⟨.refl _, rfl, rfl⟩
  rintro ⟨number, spill⟩ member middle ⟨recounts, kept⟩
  obtain ⟨among, dead⟩ := List.mem_filter.mp member
  have found := follows.alsoDistinct.find?_of_mem among
  -- The file went with the last clone of the handle, so there is nothing left to remove.
  have removed : FileSystem.removeFile spill.path middle.files =
      .error .notFound middle.files.counted := by
    have agrees := follows.agrees number
    rw [found] at agrees
    generalize told : Keyed.find? number held.handles = handle? at agrees
    cases agrees with
    | @recorded handle _ recorded =>
        rcases (follows.filed number handle told).stands with ⟨home, lies, stands⟩
        have gone : spill.isAlive = false := by simpa using dead
        rw [← recorded.isAlive, gone] at stands
        rw [recorded.path]
        apply (lies.keeps recounts.extends).removeFile_eq_of_missing (recounts.extends.quiet follows.quiet)
        exact (recounts.node? _).trans stands
  rw [leads_bind, leads_of_eq (removeFile_of_error _ removed)]
  exact ⟨recounts.trans (FileSystem.recounts_counted _), kept⟩

theorem heeds_sweep : Heeds (Follows setup) (within MemoryManager.sweep) := by
  intro held follows
  rw [leads_within]
  apply follows.leads_sweep.imp
  rintro _ memory - ⟨recounts, spills, next⟩
  have leaves : setup.Leaves (fun _ => False) held.memory.files memory.files :=
    MemorySetup.leaves_of_recounts recounts
  refine ⟨leaves.quiet follows.quiet, follows.distinct, ?_, ?_, ?_, ?_⟩
  · rw [spills]
    exact (List.filter_sublist.map Prod.fst).nodup follows.alsoDistinct
  · rw [next]
    exact follows.below
  · intro number handle found
    exact (follows.filed number handle found).leaves leaves id
  · intro number
    have agrees := follows.agrees number
    rw [spills, follows.alsoDistinct.find?_filter Spill.isAlive]
    generalize Keyed.find? number held.handles = handle? at agrees ⊢
    generalize Keyed.find? number held.memory.manager.spills = spill? at agrees ⊢
    cases agrees with
    | @recorded handle spill recorded =>
        cases alive : spill.isAlive with
        | true =>
            rw [Option.filter, if_pos alive]
            exact .recorded recorded
        | false =>
            rw [Option.filter, if_neg (by simp [alive])]
            exact .swept (recorded.isAlive.symm.trans alive)
    | swept dead => exact .swept dead
    | unknown => exact .unknown

theorem heeds_clone (number : Nat) : Heeds (Follows setup) (HandleCall.perform setup (.clone number)) := by
  intro held follows
  simp only [HandleCall.perform, leads_bind, leads_within, leads_changeHandles]
  rcases follows.alive_or_dead number with
    ⟨handle, spill, found, alive, stored, recorded⟩ | ⟨dead, gone⟩
  · rw [leads_share_of_alive stored (recorded.isAlive.trans alive), recount_of_alive found alive]
    have filed := follows.filed number handle found
    rcases filed.stands with ⟨home, lies, stands⟩
    rw [alive] at stands
    refine follows.put ?_ rfl (Nat.le_refl _) (follows.below number handle found) ?_ ?_
    · exact MemorySetup.leaves_of_recounts (.refl _)
    · exact ⟨filed.encodes, home, lies, stands⟩
    · exact ⟨recorded.name, recorded.path, recorded.size, congrArg (· + 1) recorded.owners⟩
  · rw [leads_share_of_dead gone, recount_of_dead dead]
    exact follows

section Identified

variable (identifies : Identifies setup.identifier)

include identifies

theorem heeds_drop (number : Nat) : Heeds (Follows setup) (HandleCall.perform setup (.drop number)) := by
  intro held follows
  simp only [HandleCall.perform, leads_bind, leads_within, leads_changeHandles]
  rcases follows.alive_or_dead number with
    ⟨handle, spill, found, alive, stored, recorded⟩ | ⟨dead, gone⟩
  · rw [recount_of_alive found alive]
    have below := follows.below number handle found
    have filed := follows.filed number handle found
    rcases filed.stands with ⟨home, lies, stands⟩
    rw [alive] at stands
    by_cases shared : 1 < handle.clones
    · rw [leads_release_of_shared stored (recorded.owners ▸ shared)]
      refine follows.put ?_ rfl (Nat.le_refl _) below ?_ ?_
      · exact MemorySetup.leaves_of_recounts (.refl _)
      · have stays : SpillHandle.isAlive { handle with clones := handle.clones - 1 } = true :=
          decide_eq_true (Nat.sub_pos_of_lt shared)
        refine ⟨filed.encodes, home, lies, ?_⟩
        rw [stays]
        exact stands
      · exact ⟨recorded.name, recorded.path, recorded.size, congrArg (· - 1) recorded.owners⟩
    · have last : handle.clones = 1 := Nat.le_antisymm (Nat.not_lt.mp shared) (of_decide_eq_true alive)
      rcases lies.removeFile_eq identifies follows.quiet stands with ⟨after, removed, empty, leaves⟩
      rw [← recorded.path] at removed
      rw [leads_release_of_last stored (recorded.owners.trans last) removed, last]
      refine follows.put leaves rfl (Nat.le_refl _) below ?_ ?_
      · exact ⟨filed.encodes, home, leaves.lies _ _ _ lies, empty⟩
      · exact ⟨recorded.name, recorded.path, recorded.size, rfl⟩
  · rw [leads_release_of_dead gone, recount_of_dead dead]
    exact follows

theorem heeds_spill (name : String) (value : Value) :
    Heeds (Follows setup) (HandleCall.perform setup (.spill name value)) := by
  intro held follows
  simp only [HandleCall.perform, leads_bind, leads_within, MemoryManager.spill, MemoryManager.update,
    leads_get, leads_modify]
  rcases MemorySetup.write_cases identifies follows.quiet name held.memory.manager.nextSpill value with
    ⟨error, after, failed, leaves⟩ | ⟨size, after, ended, written⟩
  · simp only [failed, leads_bind, leads_set, leads_pure]
    exact follows.leaves leaves rfl (Nat.le_succ _)
  · simp only [ended, leads_bind, leads_set, leads_pure, MemoryManager.leads_readClock, leads_modify,
      leads_changeHandles]
    refine follows.put written.leaves rfl (Nat.le_succ _) (Nat.lt_succ_self _) ?_ ?_
    · rcases written.stands with ⟨home, lies, stands⟩
      exact ⟨written.encodes, home, lies, stands⟩
    · refine ⟨rfl, ?_, written.size, rfl⟩
      rw [MemorySetup.spillPath]

/-- A call on handles is heeded. -/
theorem heeds_handleCall (call : HandleCall) : Heeds (Follows setup) (call.perform setup) := by
  cases call with
  | spill name value => exact heeds_spill identifies name value
  | clone number => exact heeds_clone number
  | drop number => exact heeds_drop identifies number
  | load number =>
      apply Heeds.bind (heeds_load number)
      intro _
      exact heeds_pure ()
  | loadNamed name =>
      apply Heeds.bind (heeds_loadNamed name)
      intro _
      exact heeds_pure ()

end Identified

end HandledMemory

end TierVault
