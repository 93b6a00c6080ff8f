import TierVault.Memory.Manager
import TierVault.Proofs.Action
import TierVault.Proofs.Keyed
import TierVault.Proofs.Memory.SpillFile

/-!
What a memory manager leaves alone.

It works on spill files only. A spill that has an owner goes on to hold its value, whatever is spilled, swept or
released beside it: the number of a spill tells its file from all others.
-/

namespace TierVault

open TierVault.Action

variable {setup : MemorySetup} {Result Next : Type}

/-! ## Spill files and their changes -/

namespace MemorySetup

/-- The name of the file of a spill. -/
def spillPath (setup : MemorySetup) (name : String) (number : Nat) : String :=
  FileName.join setup.directory (SpillFile.nameFor name (setup.identifier number))

/-- Spill files were written, read and removed. -/
inductive Touches (setup : MemorySetup) : FileSystem → FileSystem → Prop
  | nothing (files : FileSystem) : Touches setup files files
  | written {before middle} (touches : Touches setup before middle) (name : String) (number : Nat)
      (value : Value) :
      Touches setup before
        (FileSystem.leftBy
          (SpillFile.write setup.compressor setup.directory
            (SpillFile.nameFor name (setup.identifier number)) value middle))
  | read {before middle} (touches : Touches setup before middle) (name : String) (number : Nat) :
      Touches setup before
        (FileSystem.leftBy
          (SpillFile.read setup.compressor (setup.spillPath name number) middle))
  | removed {before middle} (touches : Touches setup before middle) (name : String)
      (number : Nat) :
      Touches setup before
        (FileSystem.leftBy (FileSystem.removeFile (setup.spillPath name number) middle))

theorem Touches.trans {before middle after : FileSystem} (first : setup.Touches before middle)
    (second : setup.Touches middle after) : setup.Touches before after := by
  induction second with
  | nothing => exact first
  | written _ name number value induction => exact .written induction name number value
  | read _ name number induction => exact .read induction name number
  | removed _ name number induction => exact .removed induction name number

theorem Touches.quiet {before after : FileSystem} (touches : setup.Touches before after)
    (identifies : Identifies setup.identifier) (quiet : before.Quiet) : after.Quiet := by
  suffices same : after.refuses = before.refuses by
    intro number
    rw [same]
    exact quiet number
  induction touches with
  | nothing => rfl
  | @written middle _ name number value induction =>
      have named := SpillFile.namesThing identifies setup.directory name number
      have spares := (SpillFile.write_spec named setup.compressor value middle).1
      exact spares.refuses.trans induction
  | @read middle _ name number induction =>
      have adds := SpillFile.adds_read setup.compressor (setup.spillPath name number) middle
      exact adds.refuses.trans induction
  | @removed middle _ name number induction =>
      have named := SpillFile.namesThing identifies setup.directory name number
      have spares := FileSystem.sparesOthers_removeFile named middle
      exact spares.refuses.trans induction

end MemorySetup

/-! ## Changes of the managed memory -/

namespace ManagedMemory

/-- Spills have distinct numbers below the next one, and each lies in the file of its number. -/
structure Tidy (setup : MemorySetup) (spills : Keyed Nat Spill) (nextSpill : Nat) : Prop where
  distinct : Keyed.Distinct spills
  below : ∀ number spill, Keyed.find? number spills = some spill → number < nextSpill
  placed : ∀ number spill, Keyed.find? number spills = some spill →
    spill.path = setup.spillPath spill.name number

variable {spills : Keyed Nat Spill} {nextSpill : Nat}

theorem Tidy.put (tidy : Tidy setup spills nextSpill) {number : Nat} {spill : Spill}
    (below : number < nextSpill) (placed : spill.path = setup.spillPath spill.name number) :
    Tidy setup (Keyed.put number spill spills) nextSpill := by
  refine ⟨tidy.distinct.put _ _, ?_, ?_⟩
  · intro other held found
    by_cases own : other = number
    · exact own ▸ below
    · exact tidy.below other held ((Keyed.find?_put_other _ _ own).symm.trans found)
  · intro other held found
    by_cases own : other = number
    · subst own
      cases (Keyed.find?_put_same _ _ _).symm.trans found
      exact placed
    · exact tidy.placed other held ((Keyed.find?_put_other _ _ own).symm.trans found)

theorem Tidy.later (tidy : Tidy setup spills nextSpill) : Tidy setup spills (nextSpill + 1) := by
  refine ⟨tidy.distinct, ?_, tidy.placed⟩
  intro number spill found
  exact Nat.lt_succ_of_lt (tidy.below number spill found)

/-- The spill of that number has an owner, and its file holds the value. -/
def Holds (setup : MemorySetup) (memory : ManagedMemory) (number : Nat) (value : Value) : Prop :=
  ∃ spill, Keyed.find? number memory.manager.spills = some spill ∧ spill.isAlive = true ∧
    SpillFile.Holds setup.compressor memory.files spill.path value

/-- Only spill files were touched, and all spills but those that were freed hold what they held. -/
structure Spares (setup : MemorySetup) (freed : Nat → Prop) (before after : ManagedMemory) :
    Prop where
  tidy : Tidy setup after.manager.spills after.manager.nextSpill
  touches : setup.Touches before.files after.files
  later : before.manager.nextSpill ≤ after.manager.nextSpill
  holds : ∀ number value, ¬freed number → Holds setup before number value →
    Holds setup after number value

def withFiles (memory : ManagedMemory) (files : FileSystem) : ManagedMemory :=
  { memory with files }

def withSpills (memory : ManagedMemory) (spills : Keyed Nat Spill) : ManagedMemory :=
  { memory with manager := { memory.manager with spills } }

variable {before middle after : ManagedMemory} {freed : Nat → Prop}

theorem Spares.refl (tidy : Tidy setup before.manager.spills before.manager.nextSpill)
    (freed : Nat → Prop) : Spares setup freed before before :=
  ⟨tidy, .nothing _, Nat.le_refl _, fun _ _ _ holds => holds⟩

theorem Spares.trans (first : Spares setup freed before middle)
    (second : Spares setup freed middle after) : Spares setup freed before after where
  tidy := second.tidy
  touches := first.touches.trans second.touches
  later := Nat.le_trans first.later second.later
  holds number value spared holds :=
    second.holds number value spared (first.holds number value spared holds)

end ManagedMemory

namespace MemoryManager

open ManagedMemory

variable {memory : ManagedMemory}

/-! ## Actions that work on no spill -/

/-- The action changes neither the spills nor the files. It may read the clock. -/
def Idle (action : MemoryAction Result) : Prop :=
  ∀ memory, Leads AnyFault action memory fun _ final =>
    final.files = memory.files ∧ final.manager.spills = memory.manager.spills ∧
      final.manager.nextSpill = memory.manager.nextSpill ∧
        memory.manager.readings ≤ final.manager.readings

theorem idle_pure (result : Result) : Idle (pure result) := fun _ => ⟨rfl, rfl, rfl, Nat.le_refl _⟩

theorem idle_get : Idle (get : MemoryAction ManagedMemory) :=
  fun _ => ⟨rfl, rfl, rfl, Nat.le_refl _⟩

theorem idle_ofExcept (computation : Except Fault Result) :
    Idle (Action.ofExcept computation) := by
  intro memory
  apply leads_any_ofExcept
  intro result _
  exact ⟨rfl, rfl, rfl, Nat.le_refl _⟩

theorem idle_readClock : Idle (readClock setup) := fun _ => ⟨rfl, rfl, rfl, Nat.le_succ _⟩

theorem idle_statistics : Idle (statistics setup) := fun _ => ⟨rfl, rfl, rfl, Nat.le_refl _⟩

theorem idle_update {change : MemoryManager → MemoryManager}
    (spills : ∀ manager, (change manager).spills = manager.spills)
    (nextSpill : ∀ manager, (change manager).nextSpill = manager.nextSpill)
    (readings : ∀ manager, (change manager).readings = manager.readings) : Idle (update change) :=
  fun memory => ⟨rfl, spills memory.manager, nextSpill memory.manager,
    Nat.le_of_eq (readings memory.manager).symm⟩

theorem Idle.bind {action : MemoryAction Result} {next : Result → MemoryAction Next}
    (first : Idle action) (further : ∀ result, Idle (next result)) : Idle (action >>= next) := by
  intro memory
  rw [leads_bind]
  apply (first memory).imp
  rintro result middle - ⟨files, spills, nextSpill, readings⟩
  apply (further result middle).imp
  rintro _ final - ⟨filesLater, spillsLater, nextSpillLater, readingsLater⟩
  exact ⟨filesLater.trans files, spillsLater.trans spills, nextSpillLater.trans nextSpill,
    Nat.le_trans readings readingsLater⟩

theorem idle_checkPressure : Idle (checkPressure setup) := by
  apply Idle.bind idle_statistics
  intro current
  refine Idle.bind (idle_update (fun _ => rfl) (fun _ => rfl) fun _ => rfl) fun _ => ?_
  exact idle_pure _

theorem idle_shouldSpill (value : Value) : Idle (shouldSpill setup value) := by
  unfold shouldSpill
  simp only []
  split
  · exact idle_pure false
  · apply Idle.bind (idle_ofExcept _)
    intro large
    split
    · exact idle_pure true
    · apply Idle.bind idle_checkPressure
      intro current
      exact idle_pure _

theorem idle_dueReason (forced : Bool) : Idle (dueReason setup forced) := by
  apply Idle.bind idle_checkPressure
  intro current
  apply Idle.bind idle_readClock
  intro now
  apply Idle.bind idle_get
  intro memory
  exact idle_pure _

theorem idle_noteReclaim (reason : ReclaimReason) (freed : Nat) :
    Idle (noteReclaim setup reason freed) := by
  refine Idle.bind (idle_update (fun _ => rfl) (fun _ => rfl) fun _ => rfl) fun _ => ?_
  apply Idle.bind idle_readClock
  intro now
  refine Idle.bind (idle_update (fun _ => rfl) (fun _ => rfl) fun _ => rfl) fun _ => ?_
  apply Idle.bind idle_get
  intro memory
  apply Idle.bind (idle_ofExcept _)
  intro reclaimed
  exact idle_update (fun _ => rfl) (fun _ => rfl) fun _ => rfl

/-- Where the spills and the files are the same, nothing is freed. -/
theorem spares_of_same {after : ManagedMemory}
    (tidy : Tidy setup memory.manager.spills memory.manager.nextSpill)
    (files : after.files = memory.files) (spills : after.manager.spills = memory.manager.spills)
    (nextSpill : after.manager.nextSpill = memory.manager.nextSpill) (freed : Nat → Prop) :
    Spares setup freed memory after := by
  refine ⟨?_, ?_, Nat.le_of_eq nextSpill.symm, ?_⟩
  · rw [spills, nextSpill]
    exact tidy
  · rw [files]
    exact .nothing _
  · intro number value _ holds
    unfold Holds
    rwa [files, spills]

theorem Idle.spares {action : MemoryAction Result} (idle : Idle action)
    (tidy : Tidy setup memory.manager.spills memory.manager.nextSpill) (freed : Nat → Prop) :
    Leads AnyFault action memory fun _ final => Spares setup freed memory final := by
  apply (idle memory).imp
  rintro _ final - ⟨files, spills, nextSpill, -⟩
  exact spares_of_same tidy files spills nextSpill freed

/-! ## Actions that work on spills -/

@[simp] theorem leads_readClock {faults : Fault → Prop}
    (after : Nat → ManagedMemory → Prop) :
    Leads faults (readClock setup) memory after ↔
      after (setup.clock memory.manager.readings)
        { memory with
          manager := { memory.manager with readings := memory.manager.readings + 1 } } := Iff.rfl

section Spills

variable (identifies : Identifies setup.identifier)

include identifies

/-- A change to the file of one spill spares the others'. -/
theorem holds_of_sparesOthers {spills : Keyed Nat Spill} {nextSpill number other : Nat}
    {files after : FileSystem} {name : String} {spill : Spill} {value : Value}
    (tidy : Tidy setup spills nextSpill)
    (spares : FileSystem.SparesOthers (SpillFile.nameFor name (setup.identifier number)) files after)
    (found : Keyed.find? other spills = some spill) (different : other ≠ number)
    (holds : SpillFile.Holds setup.compressor files spill.path value) :
    SpillFile.Holds setup.compressor after spill.path value := by
  rw [tidy.placed other spill found] at holds ⊢
  apply holds.spares spares (SpillFile.namesThing identifies setup.directory spill.name other)
  intro same
  exact different (SpillFile.number_eq_of_nameFor_eq identifies same)

variable (tidy : Tidy setup memory.manager.spills memory.manager.nextSpill)

include tidy

/-- The file of a spill is removed that holds nothing, or is to hold nothing. -/
theorem removeFile_spares (freed : Nat → Prop) (name : String) {number : Nat}
    (gone : ∀ value, ¬freed number → ¬Holds setup memory number value) :
    Leads AnyFault (removeFile (setup.spillPath name number)) memory fun _ final =>
      final.manager = memory.manager ∧ Spares setup freed memory final := by
  have named := SpillFile.namesThing identifies setup.directory name number
  have spares := FileSystem.sparesOthers_removeFile named memory.files
  have removed : Spares setup freed memory (memory.withFiles (FileSystem.leftBy
      (FileSystem.removeFile (setup.spillPath name number) memory.files))) := by
    refine ⟨tidy, .removed (.nothing _) name number, Nat.le_refl _, ?_⟩
    intro other value spared holds
    have different : other ≠ number := by
      rintro rfl
      exact gone value spared holds
    obtain ⟨spill, found, alive, content⟩ := holds
    have stays := holds_of_sparesOthers identifies tidy spares found different content
    exact ⟨spill, found, alive, stays⟩
  simp only [Leads, removeFile]
  cases ended : FileSystem.removeFile (setup.spillPath name number) memory.files with
  | ok result files =>
      rw [ended] at removed
      exact ⟨rfl, removed⟩
  | error error files =>
      rw [ended] at removed
      exact ⟨rfl, removed⟩

/-- A spill that is released frees no other. -/
theorem release_spares (number : Nat) :
    Leads AnyFault (release number) memory fun _ final =>
      Spares setup (· = number) memory final := by
  simp only [release, leads_bind, leads_get]
  cases found : Keyed.find? number memory.manager.spills with
  | none => exact .refl tidy _
  | some spill =>
      have placed := tidy.placed number spill found
      have fewer (owners : Nat) : Spares setup (· = number) memory
          (memory.withSpills (Keyed.put number { spill with owners } memory.manager.spills)) := by
        refine ⟨tidy.put (tidy.below number spill found) placed, .nothing _, Nat.le_refl _, ?_⟩
        rintro other value spared ⟨held, there, alive, content⟩
        exact ⟨held, (Keyed.find?_put_other _ _ spared).trans there, alive, content⟩
      simp only []
      split
      · have removes := removeFile_spares identifies (fewer (spill.owners - 1)).tidy (· = number)
          spill.name fun _ kept => absurd rfl kept
        rw [← placed] at removes
        simp only [update, leads_bind, leads_modify]
        split
        · rw [leads_bind]
          apply removes.imp
          rintro _ final - ⟨-, removed⟩
          exact (fewer _).trans removed
        · exact fewer _
      · exact .refl tidy _

/-- What has an owner is not swept. -/
theorem sweep_spares (freed : Nat → Prop) :
    Leads AnyFault sweep memory fun _ final => Spares setup freed memory final := by
  let alive := memory.manager.spills.filter fun pair => pair.2.isAlive
  have distinct : Keyed.Distinct alive :=
    (List.filter_sublist.map Prod.fst).nodup tidy.distinct
  have known {number : Nat} {spill : Spill} (found : Keyed.find? number alive = some spill) :
      Keyed.find? number memory.manager.spills = some spill :=
    tidy.distinct.find?_of_mem (List.mem_filter.mp (Keyed.mem_of_find? found)).1
  have fewer : Spares setup freed memory (memory.withSpills alive) := by
    refine ⟨⟨distinct, ?_, ?_⟩, .nothing _, Nat.le_refl _, ?_⟩
    · intro number spill found
      exact tidy.below number spill (known found)
    · intro number spill found
      exact tidy.placed number spill (known found)
    · rintro number value - ⟨spill, found, owned, content⟩
      have member : (number, spill) ∈ alive :=
        List.mem_filter.mpr ⟨Keyed.mem_of_find? found, owned⟩
      exact ⟨spill, distinct.find?_of_mem member, owned, content⟩
  simp only [sweep, update, leads_bind, leads_get, leads_modify, leads_pure]
  -- Every round leaves the spills that are alive, so the dead ones stand for no value.
  let swept (middle : ManagedMemory) : Prop :=
    middle.manager.spills = alive ∧ Spares setup freed memory middle
  have begun : swept (memory.withSpills alive) := ⟨rfl, fewer⟩
  apply (leads_mapM ?_ begun).imp
  · rintro _ final - ⟨-, spares⟩
    exact spares
  · rintro ⟨number, spill⟩ member middle ⟨same, spares⟩
    obtain ⟨there, dead⟩ := List.mem_filter.mp member
    have found := tidy.distinct.find?_of_mem there
    simp only [leads_bind, leads_pure, tidy.placed number spill found]
    apply (removeFile_spares identifies spares.tidy freed spill.name ?_).imp
    · rintro _ final - ⟨kept, removed⟩
      exact ⟨(congrArg MemoryManager.spills kept).trans same, spares.trans removed⟩
    · rintro value - ⟨held, there, owned, -⟩
      rw [same] at there
      cases found.symm.trans (known there)
      simp [owned] at dead

/-- A file was written for the next number; the spills of the others are the same. -/
theorem spares_of_written {after : ManagedMemory} {name : String} {freed : Nat → Prop}
    (others : FileSystem.SparesOthers
      (SpillFile.nameFor name (setup.identifier memory.manager.nextSpill)) memory.files after.files)
    (touches : setup.Touches memory.files after.files)
    (next : after.manager.nextSpill = memory.manager.nextSpill + 1)
    (placed : Tidy setup after.manager.spills after.manager.nextSpill)
    (kept : ∀ number, number ≠ memory.manager.nextSpill →
      Keyed.find? number after.manager.spills = Keyed.find? number memory.manager.spills) :
    Spares setup freed memory after := by
  refine ⟨placed, touches, ?_, ?_⟩
  · rw [next]
    exact Nat.le_succ _
  · rintro number value - ⟨spill, found, alive, content⟩
    have different := Nat.ne_of_lt (tidy.below number spill found)
    have stays := holds_of_sparesOthers identifies tidy others found different content
    exact ⟨spill, (kept number different).trans found, alive, stays⟩

/-- A value that was spilled lies in the file of its number, which is new. -/
theorem spill_spares (name : String) (value : Value) (freed : Nat → Prop) :
    Leads AnyFault (spill setup name value) memory fun answer final =>
      Spares setup freed memory final ∧ ∀ number, answer = some number →
        memory.manager.nextSpill ≤ number ∧ number < final.manager.nextSpill ∧
          (value.Genuine → Holds setup final number value) := by
  have named := SpillFile.namesThing identifies setup.directory name memory.manager.nextSpill
  rcases SpillFile.write_spec named setup.compressor value memory.files with ⟨others, holds⟩
  have touches : setup.Touches memory.files _ :=
    .written (.nothing _) name memory.manager.nextSpill value
  simp only [spill, update, leads_bind, leads_get, leads_modify]
  cases ended : SpillFile.write setup.compressor setup.directory
      (SpillFile.nameFor name (setup.identifier memory.manager.nextSpill)) value memory.files with
  | error error files =>
      rw [ended] at others touches
      simp only [leads_bind, leads_set, leads_pure]
      refine ⟨spares_of_written identifies tidy others touches rfl tidy.later ?_, ?_⟩
      · intro number _
        rfl
      · intro number impossible
        cases impossible
  | ok size files =>
      have written := holds size files ended
      rw [ended] at others touches
      simp only [leads_bind, leads_set, leads_pure, leads_readClock, leads_modify]
      refine ⟨spares_of_written identifies tidy others touches rfl ?_ ?_, ?_⟩
      · refine tidy.later.put (Nat.lt_succ_self _) ?_
        rw [MemorySetup.spillPath]
      · intro number different
        exact Keyed.find?_put_other _ _ different
      · rintro number same
        cases same
        refine ⟨Nat.le_refl _, Nat.lt_succ_self _, fun genuine => ?_⟩
        refine ⟨_, Keyed.find?_put_same _ _ _, rfl, ?_⟩
        dsimp only
        exact written genuine

omit identifies in
/-- A spill that holds a value can be read. -/
theorem load_spares {faults : Fault → Prop} (number : Nat) (freed : Nat → Prop) :
    Leads faults (load setup number) memory fun answer final =>
      Spares setup freed memory final ∧ ∀ value, memory.files.Quiet →
        Holds setup memory number value → answer = .ok value := by
  simp only [load, leads_bind, leads_get]
  cases found : Keyed.find? number memory.manager.spills with
  | none =>
      refine ⟨.refl tidy freed, ?_⟩
      rintro value - ⟨spill, there, -⟩
      cases found.symm.trans there
  | some spill =>
      have spares : Spares setup freed memory (memory.withFiles (FileSystem.leftBy
          (SpillFile.read setup.compressor spill.path memory.files))) := by
        have adds := SpillFile.adds_read setup.compressor spill.path memory.files
        refine ⟨tidy, ?_, Nat.le_refl _, ?_⟩
        · rw [tidy.placed number spill found]
          exact .read (.nothing _) spill.name number
        · rintro other value - ⟨held, there, alive, content⟩
          exact ⟨held, there, alive, content.more adds⟩
      have answers (value : Value) (quiet : memory.files.Quiet)
          (holds : Holds setup memory number value) :
          SpillFile.read setup.compressor spill.path memory.files =
            .ok value memory.files.counted := by
        obtain ⟨held, there, -, content⟩ := holds
        cases found.symm.trans there
        exact SpillFile.read_of_holds quiet content
      simp only []
      cases ended : SpillFile.read setup.compressor spill.path memory.files with
      | ok read files =>
          rw [ended] at spares
          refine ⟨spares, fun value quiet holds => ?_⟩
          cases ended.symm.trans (answers value quiet holds)
          rfl
      | error error files =>
          rw [ended] at spares
          refine ⟨spares, fun value quiet holds => ?_⟩
          cases ended.symm.trans (answers value quiet holds)

end Spills

end MemoryManager

end TierVault
