import TierVault.Memory.Report
import TierVault.Proofs.Memory.Handles

/-!
What a memory manager owes the handles of its spills, after every run.

Reclaim passes, optimizations and the shutdown sweep, and reclaimers may spill, clone and drop in the midst of a
pass. The files and the records follow the handles throughout, so that afterwards every clone that is alive can be
relied on.
-/

namespace TierVault.HandledMemory

open TierVault.Action

variable {setup : MemorySetup} {files : FileSystem} {held : HandledMemory} {number : Nat}
  {handle : SpillHandle}

/-! ## Passes -/

/-- An invariant that every call on handles keeps, every sweep, and everything that works on no spill. -/
structure Kept (setup : MemorySetup) (invariant : HandledMemory → Prop) : Prop where
  handle : ∀ call : HandleCall, Heeds invariant (call.perform setup)
  sweep : Heeds invariant (within MemoryManager.sweep)
  idle : ∀ {Result : Type} {action : MemoryAction Result}, MemoryManager.Idle action →
    Heeds invariant (within action)

namespace Kept

variable {invariant : HandledMemory → Prop} (kept : Kept setup invariant)

include kept

theorem turn (turn : ReclaimerTurn) : Heeds invariant (turn.perform setup) := by
  apply Heeds.bind (heeds_forM _ kept.handle)
  intro _
  exact heeds_pure turn.freed

theorem turns (turns : List ReclaimerTurn) (freed : Nat) :
    Heeds invariant ((turns.map (ReclaimerTurn.perform setup)).foldlM (fun freed reclaimer => do
      let released ← reclaimer
      Action.ofExcept (Word.sum freed released)) freed) := by
  induction turns generalizing freed with
  | nil => exact heeds_pure freed
  | cons turn later induction =>
      rw [List.map_cons, List.foldlM_cons]
      apply Heeds.bind
      · apply Heeds.bind (kept.turn turn)
        intro released
        exact heeds_ofExcept _
      · intro freed
        exact induction freed

theorem reclaim (turns : List ReclaimerTurn) (reason : ReclaimReason) :
    Heeds invariant (MemoryManager.reclaim within setup (turns.map (ReclaimerTurn.perform setup))
      reason) := by
  apply Heeds.bind kept.sweep
  intro swept
  apply Heeds.bind (kept.turns turns _)
  intro freed
  apply Heeds.bind (kept.idle (MemoryManager.idle_noteReclaim reason freed))
  intro _
  exact heeds_pure freed

theorem reclaimIfNeeded (forced : Bool) (turns : List ReclaimerTurn) :
    Heeds invariant (MemoryManager.reclaimIfNeeded within setup
      (turns.map (ReclaimerTurn.perform setup)) forced) := by
  apply Heeds.bind (kept.idle (MemoryManager.idle_dueReason forced))
  intro reason?
  cases reason? with
  | none => exact heeds_pure false
  | some reason =>
      apply Heeds.bind (kept.reclaim turns reason)
      intro _
      apply Heeds.bind (kept.idle MemoryManager.idle_statistics)
      intro _
      exact heeds_pure true

theorem optimize (turns : List ReclaimerTurn) :
    Heeds invariant (MemoryManager.optimize within setup
      (turns.map (ReclaimerTurn.perform setup))) := by
  apply Heeds.bind (kept.idle MemoryManager.idle_statistics)
  intro before
  apply Heeds.bind kept.sweep
  intro swept
  apply Heeds.bind (kept.reclaim turns .forced)
  intro reclaimed
  apply Heeds.bind (kept.idle MemoryManager.idle_statistics)
  intro after
  exact heeds_pure _

theorem managerCall (call : ManagerCall) : Heeds invariant (call.perform setup) := by
  cases call with
  | handle call => exact kept.handle call
  | reclaimIfNeeded forced turns =>
      apply Heeds.bind (kept.reclaimIfNeeded forced turns)
      intro _
      exact heeds_pure ()
  | optimize turns =>
      apply Heeds.bind (kept.optimize turns)
      intro _
      exact heeds_pure ()
  | shutdown =>
      apply Heeds.bind kept.sweep
      intro _
      exact heeds_pure ()

/-- What holds at the start holds after every run. -/
theorem of_runAll {calls : List ManagerCall} (begins : invariant (start setup files))
    (ran : runAll setup calls (start setup files) = .ok () held) : invariant held := by
  have heeds : Heeds invariant (runAll setup calls) := heeds_forM calls kept.managerCall
  exact (heeds _ begins).of_ok ran

end Kept

theorem follows_of_runAll (identifies : Identifies setup.identifier) (quiet : files.Quiet)
    {calls : List ManagerCall} (ran : runAll setup calls (start setup files) = .ok () held) :
    Follows setup held :=
  Kept.of_runAll ⟨heeds_handleCall identifies, heeds_sweep, heeds_idle⟩ (follows_start setup quiet) ran

/-! ## What a handle is good for -/

/-- There is no record without a handle. -/
theorem Follows.handled {spill : Spill} (follows : Follows setup held)
    (stored : Keyed.find? number held.memory.manager.spills = some spill) :
    ∃ handle, Keyed.find? number held.handles = some handle ∧ Recorded setup number handle spill := by
  have agrees := follows.agrees number
  rw [stored] at agrees
  generalize Keyed.find? number held.handles = handle? at agrees
  cases agrees with
  | recorded recorded => exact ⟨_, rfl, recorded⟩

theorem Follows.tidy (follows : Follows setup held) :
    ManagedMemory.Tidy setup held.memory.manager.spills held.memory.manager.nextSpill := by
  refine ⟨follows.alsoDistinct, ?_, ?_⟩
  · intro number spill stored
    rcases follows.handled stored with ⟨handle, found, -⟩
    exact follows.below number handle found
  · intro number spill stored
    rcases follows.handled stored with ⟨handle, -, recorded⟩
    rw [recorded.path, recorded.name]

theorem Follows.record (follows : Follows setup held)
    (found : Keyed.find? number held.handles = some handle) (alive : handle.isAlive = true) :
    ∃ spill, Recorded setup number handle spill ∧
      Keyed.find? number held.memory.manager.spills = some spill := by
  rcases follows.alive_or_dead number with ⟨own, spill, told, -, stored, recorded⟩ | ⟨dead, -⟩
  · cases found.symm.trans told
    exact ⟨spill, recorded, stored⟩
  · cases alive.symm.trans (dead handle found)

theorem Follows.load_eq (follows : Follows setup held)
    (found : Keyed.find? number held.handles = some handle) (alive : handle.isAlive = true)
    (genuine : handle.value.Genuine) :
    ∃ final, MemoryManager.load setup number held.memory = .ok (.ok handle.value) final := by
  rcases follows.record found alive with ⟨spill, recorded, stored⟩
  have filed := follows.filed number handle found
  rcases filed.stands with ⟨home, lies, stands⟩
  rw [alive] at stands
  have holds : ManagedMemory.Holds setup held.memory number handle.value := by
    refine ⟨spill, stored, recorded.isAlive.trans alive, ?_⟩
    rw [recorded.path]
    exact lies.holds stands genuine filed.encodes
  have loads : Leads (fun _ => False) (MemoryManager.load setup number) held.memory _ :=
    MemoryManager.load_spares follows.tidy number (fun _ => False)
  rcases loads.ends (fun _ => id) with ⟨answer, final, ended, -, answers⟩
  cases answers handle.value follows.quiet holds
  exact ⟨final, ended⟩

theorem Follows.spillBytes (follows : Follows setup held) : held.memory.manager.spillBytes =
    sumOf (((held.handles.map Prod.snd).filter SpillHandle.isAlive).map (SpillHandle.size setup)) := by
  rw [MemoryManager.spillBytes, MemoryManager.aliveSpills, Keyed.sumOf_filter, Keyed.sumOf_filter]
  apply Keyed.weigh_eq_of_find? follows.alsoDistinct follows.distinct
  intro number
  have agrees := follows.agrees number
  generalize Keyed.find? number held.handles = handle? at agrees ⊢
  generalize Keyed.find? number held.memory.manager.spills = spill? at agrees ⊢
  cases agrees with
  | recorded recorded => simp only [Option.elim_some, recorded.isAlive, recorded.size]
  | swept dead => simp [dead]
  | unknown => rfl

/-- The manager stands by the handles. -/
structure StandsBy (setup : MemorySetup) (held : HandledMemory) : Prop where
  /-- The file stands right in the spill directory, and it is there exactly as long as a clone is alive. -/
  files : ∀ number handle, Keyed.find? number held.handles = some handle →
    ∃ home, FileSystem.Seat held.memory.files setup.directory home ∧
      held.memory.files.isThere (home ++ [SpillFile.nameFor handle.name (setup.identifier number)]) =
        handle.isAlive ∧
      held.memory.files.has (setup.spillPath handle.name number) = handle.isAlive
  /-- What was spilled is loaded. -/
  loads : ∀ number handle, Keyed.find? number held.handles = some handle → handle.isAlive = true →
    handle.value.Genuine → ∃ final,
      MemoryManager.load setup number held.memory = .ok (.ok handle.value) final
  /-- There is a record, and a sweep takes neither it nor a file. -/
  sweeps : ∃ told final, MemoryManager.sweep held.memory = .ok told final ∧
    (∀ path, final.files.node? path = held.memory.files.node? path) ∧
      ∀ number handle, Keyed.find? number held.handles = some handle → handle.isAlive = true →
        ∃ spill, Recorded setup number handle spill ∧
          Keyed.find? number held.memory.manager.spills = some spill ∧
            Keyed.find? number final.manager.spills = some spill
  /-- The report adds up the files of the handles that are alive. -/
  reports : ∃ report final, MemoryReport.take setup held.memory = .ok report final ∧
    report.spillBytes =
      sumOf (((held.handles.map Prod.snd).filter SpillHandle.isAlive).map (SpillHandle.size setup))

/-- After every run on a medium that refuses nothing, the manager stands by the handles. -/
theorem runAll_stands_by (setup : MemorySetup) (identifies : Identifies setup.identifier)
    (files : FileSystem) (quiet : files.Quiet) (calls : List ManagerCall) {held : HandledMemory}
    (ran : runAll setup calls (start setup files) = .ok () held) : StandsBy setup held := by
  have follows := follows_of_runAll identifies quiet ran
  refine ⟨?_, ?_, ?_, ?_⟩
  · intro number handle found
    rcases (follows.filed number handle found).stands with ⟨home, lies, stands⟩
    have there : held.memory.files.isThere (setup.place home handle.name number) = handle.isAlive := by
      rw [FileSystem.isThere, stands]
      cases handle.isAlive <;> rfl
    exact ⟨home, lies.seat, there, lies.has_eq.trans there⟩
  · intro number handle found alive genuine
    exact follows.load_eq found alive genuine
  · have leads : Leads (fun _ => False) MemoryManager.sweep held.memory _ := follows.leads_sweep
    rcases leads.ends (fun _ => id) with ⟨told, final, ended, recounts, spills, -⟩
    refine ⟨told, final, ended, recounts.node?, ?_⟩
    intro number handle found alive
    rcases follows.record found alive with ⟨spill, recorded, stored⟩
    refine ⟨spill, recorded, stored, ?_⟩
    rw [spills, follows.alsoDistinct.find?_filter Spill.isAlive, stored]
    exact if_pos (recorded.isAlive.trans alive)
  · exact ⟨_, _, rfl, follows.spillBytes⟩

/-- Frames with nothing but the magic number before their content. -/
def bareFrames : FrameCodec where
  pack _ content := frameMagic ++ content
  unpack stored := .ok (stored.drop frameMagic.length)
  unpack_pack _ _ := rfl
  magic_pack _ _ := List.prefix_append _ _

/-- Spill files in a directory that is made with the first of them. -/
def besideWork : MemorySetup where
  config := {}
  directory := "spill"
  compressor := ⟨bareFrames, 3, 0⟩
  probe _ := default
  clock := id
  identifier := unary

/-- Two spills of one name. The first one is cloned and dropped once, the second one is swept, and a reclaimer
spills a third value. -/
def sharedSpills : List ManagerCall :=
  [.handle (.spill "a/b" (.flag true)), .handle (.spill "a/b" (.flag false)), .handle (.clone 0),
    .handle (.drop 0), .handle (.drop 1), .reclaimIfNeeded true [⟨[.spill "" (.flag true)], 8⟩]]

theorem leads_shared : Leads (fun _ => False) (runAll besideWork sharedSpills)
    (start besideWork (.start ["work"])) fun _ held =>
      held.handles.map (fun pair => (pair.1, pair.2.clones)) = [(0, 1), (1, 0), (2, 1)] ∧
        held.memory.files.children ["work", "spill"] = ["a_b_.spill", "value_xx.spill"] := by
  decide +kernel

theorem runAll_stands_by_shared :
    ∃ held, runAll besideWork sharedSpills (start besideWork (.start ["work"])) = .ok () held ∧
      held.handles.map (fun pair => (pair.1, pair.2.clones)) = [(0, 1), (1, 0), (2, 1)] ∧
        held.memory.files.children ["work", "spill"] = ["a_b_.spill", "value_xx.spill"] ∧
          StandsBy besideWork held := by
  rcases leads_shared.ends (fun _ => id) with ⟨_, held, ran, clones, present⟩
  have identifies : Identifies besideWork.identifier := identifies_unary
  have quiet : (FileSystem.start ["work"]).Quiet := fun _ => rfl
  exact ⟨held, ran, clones, present,
    runAll_stands_by besideWork identifies (.start ["work"]) quiet sharedSpills ran⟩

end TierVault.HandledMemory
