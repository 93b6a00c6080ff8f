import Mathlib.Data.List.Induction
import TierVault.Proofs.Memory.Lifecycle

/-!
Which spill is loaded for a name.

Records stand in the order in which the values were spilled, and no one is older than one before it. A record
outlives the handle until the next sweep. So the last record of a name decides what is loaded for it, and if its
handle is gone, nothing is, although an earlier spill of the name may still be alive.
-/

namespace TierVault

open TierVault.Action

variable {setup : MemorySetup} {Result : Type}

/-! ## Numbers and times of records -/

namespace MemoryManager

/-- The number and the time of each record. -/
def stamps (spills : Keyed Nat Spill) : List (Nat × Nat) :=
  spills.map fun (number, spill) => (number, spill.createdAt)

/-- Records stand in the order of their numbers, and none is older than one before it. No later reading of the
clock is before them. -/
structure Chronological (setup : MemorySetup) (manager : MemoryManager) : Prop where
  ordered : (stamps manager.spills).Pairwise fun early late => early.1 < late.1 ∧ early.2 ≤ late.2
  below : ∀ stamp ∈ stamps manager.spills, stamp.1 < manager.nextSpill
  past : ∀ stamp ∈ stamps manager.spills, ∀ reading, manager.readings ≤ reading →
    stamp.2 ≤ setup.clock reading

variable {before after : MemoryManager} {spills : Keyed Nat Spill} {number : Nat} {record other : Spill}

theorem stamps_put (found : Keyed.find? number spills = some record)
    (same : other.createdAt = record.createdAt) :
    stamps (Keyed.put number other spills) = stamps spills := by
  induction spills with
  | nil => cases found
  | cons head rest induction =>
      obtain ⟨first, held⟩ := head
      by_cases equal : first = number
      · simp only [Keyed.find?, equal, if_true] at found
        cases found
        simp [Keyed.put, stamps, equal, same]
      · simp only [Keyed.find?, equal, if_false] at found
        simpa [Keyed.put, stamps, equal] using induction found

theorem keys_eq_stamps (spills : Keyed Nat Spill) : Keyed.keys spills = (stamps spills).map Prod.fst := by
  simp [Keyed.keys, stamps]

namespace Chronological

theorem start (setup : MemorySetup) : Chronological setup (.start setup) :=
  ⟨.nil, nofun, nofun⟩

/-- Records may have gone. -/
theorem fewer (chronological : Chronological setup before)
    (sublist : (stamps after.spills).Sublist (stamps before.spills))
    (next : before.nextSpill ≤ after.nextSpill) (readings : before.readings ≤ after.readings) :
    Chronological setup after where
  ordered := chronological.ordered.sublist sublist
  below stamp member := Nat.lt_of_lt_of_le (chronological.below stamp (sublist.subset member)) next
  past stamp member reading later :=
    chronological.past stamp (sublist.subset member) reading (Nat.le_trans readings later)

/-- A record that is made now is the last one. -/
theorem more (forward : ∀ first second, first ≤ second → setup.clock first ≤ setup.clock second)
    (chronological : Chronological setup before)
    (added : stamps after.spills =
      stamps before.spills ++ [(before.nextSpill, setup.clock before.readings)])
    (next : after.nextSpill = before.nextSpill + 1)
    (readings : after.readings = before.readings + 1) : Chronological setup after := by
  refine ⟨?_, ?_, ?_⟩
  · rw [added, List.pairwise_append]
    refine ⟨chronological.ordered, List.pairwise_singleton _ _, ?_⟩
    intro stamp member last isLast
    cases List.mem_singleton.mp isLast
    exact ⟨chronological.below stamp member, chronological.past stamp member _ (Nat.le_refl _)⟩
  · rw [added, next]
    intro stamp member
    rcases List.mem_append.mp member with early | last
    · exact Nat.lt_succ_of_lt (chronological.below stamp early)
    · cases List.mem_singleton.mp last
      exact Nat.lt_succ_self _
  · rw [added, readings]
    intro stamp member reading later
    rcases List.mem_append.mp member with early | last
    · exact chronological.past stamp early reading (Nat.le_of_succ_le later)
    · cases List.mem_singleton.mp last
      exact forward _ _ (Nat.le_of_succ_le later)

theorem unknown (chronological : Chronological setup before) :
    Keyed.find? before.nextSpill before.spills = none := by
  rw [Keyed.find?_eq_none_iff, keys_eq_stamps]
  intro member
  obtain ⟨stamp, among, same⟩ := List.mem_map.mp member
  exact Nat.lt_irrefl _ (same ▸ chronological.below stamp among)

end Chronological

/-! ## What keeps the records -/

/-- The action leaves every record, as far as its number and its time go. -/
def KeepsRecords (action : MemoryAction Result) : Prop :=
  ∀ memory, Leads AnyFault action memory fun _ final =>
    stamps final.manager.spills = stamps memory.manager.spills ∧
      memory.manager.nextSpill ≤ final.manager.nextSpill ∧
        memory.manager.readings ≤ final.manager.readings

theorem Idle.keepsRecords {action : MemoryAction Result} (idle : Idle action) : KeepsRecords action := by
  intro memory
  apply (idle memory).imp
  rintro _ final - ⟨-, spills, next, readings⟩
  exact ⟨congrArg stamps spills, Nat.le_of_eq next.symm, readings⟩

theorem leads_removeFile {faults : Fault → Prop} (path : String) (memory : ManagedMemory) :
    Leads faults (removeFile path) memory fun _ final => final.manager = memory.manager := by
  simp only [Leads, removeFile]
  cases FileSystem.removeFile path memory.files <;> exact rfl

theorem keepsRecords_share (number : Nat) : KeepsRecords (share number) := by
  intro memory
  simp only [share, leads_bind, leads_get]
  cases found : Keyed.find? number memory.manager.spills with
  | none => exact ⟨rfl, Nat.le_refl _, Nat.le_refl _⟩
  | some spill =>
      simp only []
      split
      · exact ⟨stamps_put found rfl, Nat.le_refl _, Nat.le_refl _⟩
      · exact ⟨rfl, Nat.le_refl _, Nat.le_refl _⟩

theorem keepsRecords_release (number : Nat) : KeepsRecords (release number) := by
  intro memory
  simp only [release, leads_bind, leads_get]
  cases found : Keyed.find? number memory.manager.spills with
  | none => exact ⟨rfl, Nat.le_refl _, Nat.le_refl _⟩
  | some spill =>
      simp only []
      split
      · simp only [update, leads_bind, leads_modify]
        split
        · rw [leads_bind]
          apply (leads_removeFile spill.path _).imp
          rintro _ final - same
          rw [leads_pure, same]
          exact ⟨stamps_put found rfl, Nat.le_refl _, Nat.le_refl _⟩
        · exact ⟨stamps_put found rfl, Nat.le_refl _, Nat.le_refl _⟩
      · exact ⟨rfl, Nat.le_refl _, Nat.le_refl _⟩

theorem keepsRecords_load (number : Nat) : KeepsRecords (load setup number) := by
  intro memory
  simp only [load, leads_bind, leads_get]
  cases Keyed.find? number memory.manager.spills with
  | none => exact ⟨rfl, Nat.le_refl _, Nat.le_refl _⟩
  | some spill =>
      simp only []
      cases SpillFile.read setup.compressor spill.path memory.files <;>
        exact ⟨rfl, Nat.le_refl _, Nat.le_refl _⟩

theorem keepsRecords_loadNamed (name : String) : KeepsRecords (loadNamed setup name) := by
  intro memory
  simp only [loadNamed, leads_bind, leads_get]
  split
  · split
    · simp only [leads_bind, leads_pure]
      exact keepsRecords_load _ memory
    · exact ⟨rfl, Nat.le_refl _, Nat.le_refl _⟩
  · exact ⟨rfl, Nat.le_refl _, Nat.le_refl _⟩

/-- The records without an owner go, and nothing else changes in the books. -/
theorem leads_sweep_manager {faults : Fault → Prop} (memory : ManagedMemory) :
    Leads faults sweep memory fun _ final => final.manager =
      { memory.manager with spills := memory.manager.spills.filter fun pair => pair.2.isAlive } := by
  simp only [sweep, update, leads_bind, leads_get, leads_modify, leads_pure]
  let swept (middle : ManagedMemory) : Prop := middle.manager =
    { memory.manager with spills := memory.manager.spills.filter fun pair => pair.2.isAlive }
  have begun : swept (memory.withSpills (memory.manager.spills.filter fun pair => pair.2.isAlive)) := rfl
  apply leads_mapM ?_ begun
  rintro ⟨number, spill⟩ _ middle same
  simp only [leads_bind, leads_pure]
  apply (leads_removeFile spill.path middle).imp
  intro _ final _ unchanged
  exact unchanged.trans same

/-- A value that is spilled is recorded last, or not at all. -/
theorem leads_spill_stamps {faults : Fault → Prop} (name : String) (value : Value)
    {memory : ManagedMemory} (chronological : Chronological setup memory.manager) :
    Leads faults (spill setup name value) memory fun answer final =>
      final.manager.nextSpill = memory.manager.nextSpill + 1 ∧
        match answer with
        | none => final.manager.spills = memory.manager.spills ∧
          final.manager.readings = memory.manager.readings
        | some number => number = memory.manager.nextSpill ∧
          stamps final.manager.spills = stamps memory.manager.spills ++
            [(number, setup.clock memory.manager.readings)] ∧
          final.manager.readings = memory.manager.readings + 1 := by
  simp only [spill, update, leads_bind, leads_get, leads_modify]
  cases SpillFile.write setup.compressor setup.directory
      (SpillFile.nameFor name (setup.identifier memory.manager.nextSpill)) value memory.files with
  | error error files => exact ⟨rfl, rfl, rfl⟩
  | ok size files =>
      simp only [leads_bind, leads_set, leads_pure, leads_readClock, leads_modify, true_and, and_true]
      rw [Keyed.put_of_find?_eq_none chronological.unknown, stamps, List.map_append]
      rfl

/-! ## The last record of a name -/

/-- Where no record is older than one before it, the last one of the name is taken. -/
theorem latest?_eq_getLast? (name : String)
    (ordered : spills.Pairwise fun early late => early.2.createdAt ≤ late.2.createdAt) :
    latest? name spills = (spills.filter fun (_, spill) => spill.name = name).getLast? := by
  have among := ordered.filter fun (_, spill) => spill.name = name
  unfold latest?
  generalize spills.filter (fun (_, spill) => spill.name = name) = records at among ⊢
  induction records using List.reverseRecOn with
  | nil => rfl
  | append_singleton early last induction =>
      obtain ⟨before, -, latest⟩ := List.pairwise_append.mp among
      rw [List.foldl_append, induction before, List.getLast?_concat]
      cases taken : early.getLast? with
      | none => rfl
      | some best =>
          have older := latest best (List.mem_of_getLast? taken) last (List.mem_singleton.mpr rfl)
          exact if_pos older

end MemoryManager

namespace HandledMemory

open MemoryManager

variable {files : FileSystem} {held : HandledMemory} {number : Nat} {handle : SpillHandle}

/-! ## Along a run -/

/-- The records stand in the order in which the values were spilled. -/
def InOrder (setup : MemorySetup) (held : HandledMemory) : Prop :=
  Chronological setup held.memory.manager

/-- Besides, everything that has a handle has a record. -/
def AllRecorded (setup : MemorySetup) (held : HandledMemory) : Prop :=
  InOrder setup held ∧ ∀ number ∈ Keyed.keys held.handles, number ∈ Keyed.keys held.memory.manager.spills

/-- What depends only on the numbers and times of the records, and on which numbers have handles. -/
structure OfRecords (setup : MemorySetup) (invariant : HandledMemory → Prop) : Prop where
  same : ∀ held memory, invariant held →
    stamps memory.manager.spills = stamps held.memory.manager.spills →
    held.memory.manager.nextSpill ≤ memory.manager.nextSpill →
    held.memory.manager.readings ≤ memory.manager.readings → invariant { held with memory }
  recount : ∀ held handles, invariant held → Keyed.keys handles = Keyed.keys held.handles →
    invariant { held with handles }
  spill : ∀ name value, Heeds invariant (HandleCall.perform setup (.spill name value))

theorem keys_recount (number : Nat) (change : Nat → Nat) (handles : Keyed Nat SpillHandle) :
    Keyed.keys (SpillHandle.recount number change handles) = Keyed.keys handles := by
  unfold SpillHandle.recount
  cases found : Keyed.find? number handles with
  | none => rfl
  | some handle =>
      simp only []
      split
      · exact Keyed.keys_put_of_find? found
      · rfl

namespace OfRecords

variable {invariant : HandledMemory → Prop} (ofRecords : OfRecords setup invariant)

include ofRecords

theorem within {action : MemoryAction Result} (keeps : KeepsRecords action) :
    Heeds invariant (within action) := by
  intro held holds
  rw [leads_within]
  apply (keeps held.memory).imp
  rintro _ final - ⟨stamps, next, readings⟩
  exact ofRecords.same held final holds stamps next readings

theorem handleCall (call : HandleCall) : Heeds invariant (call.perform setup) := by
  have recounts (number : Nat) (change : Nat → Nat) :
      Heeds invariant (changeHandles (SpillHandle.recount number change)) :=
    fun held holds => ofRecords.recount held _ holds (keys_recount number change held.handles)
  cases call with
  | spill name value => exact ofRecords.spill name value
  | clone number => exact (ofRecords.within (keepsRecords_share number)).bind fun _ => recounts number _
  | drop number => exact (ofRecords.within (keepsRecords_release number)).bind fun _ => recounts number _
  | load number => exact (ofRecords.within (keepsRecords_load number)).bind fun _ => heeds_pure ()
  | loadNamed name => exact (ofRecords.within (keepsRecords_loadNamed name)).bind fun _ => heeds_pure ()

end OfRecords

section Forward

variable (forward : ∀ first second, first ≤ second → setup.clock first ≤ setup.clock second)

include forward

theorem ofRecords_inOrder : OfRecords setup (InOrder setup) where
  same held memory ordered stamps next readings :=
    ordered.fewer (stamps ▸ List.Sublist.refl _) next readings
  recount held handles ordered _ := ordered
  spill name value held ordered := by
    simp only [HandleCall.perform, leads_bind, leads_within]
    apply (leads_spill_stamps name value ordered).imp
    rintro answer final - ⟨next, recorded⟩
    cases answer with
    | none =>
        obtain ⟨spills, readings⟩ := recorded
        have later : held.memory.manager.nextSpill ≤ final.manager.nextSpill := next ▸ Nat.le_succ _
        exact ordered.fewer (spills ▸ List.Sublist.refl _) later (Nat.le_of_eq readings.symm)
    | some number =>
        obtain ⟨rfl, added, readings⟩ := recorded
        exact ordered.more forward added next readings

theorem ofRecords_allRecorded : OfRecords setup (AllRecorded setup) where
  same held memory recorded same next readings := by
    refine ⟨(ofRecords_inOrder forward).same held memory recorded.1 same next readings, ?_⟩
    intro number member
    have there := recorded.2 number member
    rw [keys_eq_stamps] at there ⊢
    exact same ▸ there
  recount held handles recorded same := ⟨recorded.1, fun number member => recorded.2 number (same ▸ member)⟩
  spill name value held recorded := by
    have ordered := (ofRecords_inOrder forward).spill name value held recorded.1
    refine (ordered.and ?_)
    simp only [HandleCall.perform, leads_bind, leads_within]
    apply (leads_spill_stamps name value recorded.1).imp
    rintro answer final - ⟨-, added⟩
    cases answer with
    | none => exact fun number member => added.1 ▸ recorded.2 number member
    | some fresh =>
        intro number member
        obtain ⟨pair, among, rfl⟩ := List.mem_map.mp member
        rw [keys_eq_stamps, added.2.1, List.map_append, ← keys_eq_stamps]
        rcases Keyed.mem_of_mem_put among with rfl | there
        · exact List.mem_append_right _ (List.mem_singleton.mpr rfl)
        · exact List.mem_append_left _ (recorded.2 _ (List.mem_map_of_mem there))

theorem inOrder_of_runAll {calls : List ManagerCall}
    (ran : runAll setup calls (start setup files) = .ok () held) : InOrder setup held := by
  have ofRecords := ofRecords_inOrder forward
  have sweeps : Heeds (InOrder setup) (within MemoryManager.sweep) := by
    intro held ordered
    rw [leads_within]
    apply (leads_sweep_manager held.memory).imp
    intro _ final _ swept
    unfold InOrder
    rw [swept]
    exact ordered.fewer (List.filter_sublist.map _) (Nat.le_refl _) (Nat.le_refl _)
  have kept : Kept setup (InOrder setup) :=
    ⟨ofRecords.handleCall, sweeps, fun idle => ofRecords.within idle.keepsRecords⟩
  exact kept.of_runAll (.start setup) ran

/-- Where no pass has run, nothing was swept. -/
theorem allRecorded_of_runAll {calls : List ManagerCall}
    (handles : ∀ call ∈ calls, ∃ own, call = .handle own)
    (ran : runAll setup calls (start setup files) = .ok () held) : AllRecorded setup held := by
  have ofRecords := ofRecords_allRecorded forward
  have leads : Leads AnyFault (runAll setup calls) (start setup files) fun _ held =>
      (∀ call ∈ ([] : List ManagerCall), ∃ own, call = .handle own) ∧ AllRecorded setup held := by
    have begins : AllRecorded setup (start setup files) := ⟨Chronological.start setup, nofun⟩
    refine leads_forM (fun (left : List ManagerCall) held =>
      (∀ call ∈ left, ∃ own, call = .handle own) ∧ AllRecorded setup held) ?_ ⟨handles, begins⟩
    rintro call rest held ⟨own, recorded⟩
    obtain ⟨call, rfl⟩ := own call List.mem_cons_self
    apply (ofRecords.handleCall call held recorded).imp
    intro _ final _ still
    exact ⟨fun later member => own later (List.mem_cons_of_mem _ member), still⟩
  exact (leads.of_ok ran).2

end Forward

/-! ## What is loaded -/

/-- Of the handles of a name that still have a record, the one whose value was spilled last. -/
structure Newest (name : String) (held : HandledMemory) (number : Nat) (handle : SpillHandle) :
    Prop where
  found : Keyed.find? number held.handles = some handle
  named : handle.name = name
  recorded : number ∈ Keyed.keys held.memory.manager.spills
  last : ∀ other rival, Keyed.find? other held.handles = some rival → rival.name = name →
    other ∈ Keyed.keys held.memory.manager.spills → other ≤ number

theorem newest_of_latest? (follows : Follows setup held) (inOrder : InOrder setup held)
    (name : String) :
    match latest? name held.memory.manager.spills with
    | some (number, spill) => ∃ handle, Newest name held number handle ∧
        Recorded setup number handle spill
    | none => ∀ number handle, ¬Newest name held number handle := by
  have ordered := List.pairwise_map.mp inOrder.ordered
  -- A recorded handle of the name is among the records that the latest is taken from.
  have among {number : Nat} {handle : SpillHandle}
      (found : Keyed.find? number held.handles = some handle) (named : handle.name = name)
      (recorded : number ∈ Keyed.keys held.memory.manager.spills) :
      ∃ spill, (number, spill) ∈
        held.memory.manager.spills.filter fun (_, spill) => spill.name = name := by
    obtain ⟨⟨_, spill⟩, member, rfl⟩ := List.mem_map.mp recorded
    obtain ⟨own, same, told⟩ := follows.handled (follows.alsoDistinct.find?_of_mem member)
    cases found.symm.trans same
    exact ⟨spill, List.mem_filter.mpr ⟨member, decide_eq_true (told.name.trans named)⟩⟩
  rw [latest?_eq_getLast? name (ordered.imp fun both => both.2)]
  cases taken : (held.memory.manager.spills.filter fun (_, spill) => spill.name = name).getLast? with
  | none =>
      intro number handle newest
      obtain ⟨spill, member⟩ := among newest.found newest.named newest.recorded
      rw [List.getLast?_eq_none_iff.mp taken] at member
      cases member
  | some pair =>
      obtain ⟨number, spill⟩ := pair
      obtain ⟨member, same⟩ := List.mem_filter.mp (List.mem_of_getLast? taken)
      obtain ⟨handle, found, recorded⟩ := follows.handled (follows.alsoDistinct.find?_of_mem member)
      refine ⟨handle, ⟨found, ?_, List.mem_map_of_mem member, ?_⟩, recorded⟩
      · exact recorded.name.symm.trans (of_decide_eq_true same)
      · intro other rival told named listed
        obtain ⟨earlier, there⟩ := among told named listed
        obtain ⟨early, split⟩ := List.getLast?_eq_some_iff.mp taken
        have sorted := ordered.filter fun (_, spill) => spill.name = name
        rw [split] at there sorted
        rcases List.mem_append.mp there with before | last
        · exact Nat.le_of_lt ((List.pairwise_append.mp sorted).2.2 _ before _ (List.mem_singleton.mpr rfl)).1
        · cases List.mem_singleton.mp last
          exact Nat.le_refl _

/-- What is loaded for a name: the value of the newest handle that has a record, as long as that handle is
alive. It is then the latest spilled of all that are alive. -/
structure LoadsNewest (name : String) (held : HandledMemory) (answer : Option Value) : Prop where
  newest : ∀ number handle, Newest name held number handle →
    answer = if handle.isAlive then some handle.value else none
  unknown : (∀ number handle, ¬Newest name held number handle) → answer = none
  latest : ∀ value, answer = some value → ∃ number handle,
    Keyed.find? number held.handles = some handle ∧ handle.name = name ∧ handle.isAlive = true ∧
      handle.value = value ∧ ∀ other rival, Keyed.find? other held.handles = some rival →
        rival.name = name → rival.isAlive = true → other ≤ number

theorem Newest.latest (follows : Follows setup held) {name : String}
    (newest : Newest name held number handle) {other : Nat} {rival : SpillHandle}
    (found : Keyed.find? other held.handles = some rival) (named : rival.name = name)
    (alive : rival.isAlive = true) : other ≤ number := by
  obtain ⟨spill, -, stored⟩ := follows.record found alive
  exact newest.last other rival found named (List.mem_map_of_mem (Keyed.mem_of_find? stored))

theorem Newest.unique {name : String} {other : Nat} {rival : SpillHandle}
    (newest : Newest name held number handle) (also : Newest name held other rival) :
    rival = handle := by
  have same : other = number := Nat.le_antisymm
    (newest.last other rival also.found also.named also.recorded)
    (also.last number handle newest.found newest.named newest.recorded)
  subst same
  exact Option.some.inj (also.found.symm.trans newest.found)

theorem loadNamed_of_newest (follows : Follows setup held) (inOrder : InOrder setup held)
    (genuine : ∀ number handle, Keyed.find? number held.handles = some handle → handle.value.Genuine)
    (name : String) : ∃ answer final,
      MemoryManager.loadNamed setup name held.memory = .ok answer final ∧ LoadsNewest name held answer := by
  have taken := newest_of_latest? follows inOrder name
  suffices leads : Leads (fun _ => False) (MemoryManager.loadNamed setup name) held.memory
      fun answer _ => LoadsNewest name held answer by
    exact leads.ends fun _ => id
  simp only [MemoryManager.loadNamed, leads_bind, leads_get]
  cases last : latest? name held.memory.manager.spills with
  | none =>
      rw [last] at taken
      refine ⟨fun number handle newest => absurd newest (taken number handle), fun _ => rfl, ?_⟩
      intro value same
      cases same
  | some pair =>
      obtain ⟨number, spill⟩ := pair
      rw [last] at taken
      obtain ⟨handle, newest, recorded⟩ := taken
      have known : ¬∀ number handle, ¬Newest name held number handle :=
        fun none => none number handle newest
      simp only [recorded.isAlive]
      cases alive : handle.isAlive with
      | false =>
          refine ⟨fun other rival also => ?_, fun _ => rfl, fun value same => ?_⟩
          · rw [newest.unique also, alive]
            rfl
          · cases same
      | true =>
          obtain ⟨final, loaded⟩ := follows.load_eq newest.found alive (genuine number handle newest.found)
          simp only [if_true, leads_bind, leads_pure, leads_of_eq loaded]
          refine ⟨fun other rival also => ?_, fun none => absurd none known, fun value same => ?_⟩
          · rw [newest.unique also, alive]
            rfl
          · refine ⟨number, handle, newest.found, newest.named, alive, Option.some.inj same, ?_⟩
            exact fun other rival => newest.latest follows

/-- After every run on a medium that refuses nothing, what is loaded for a name is the value of its newest
handle among those that have a record, as long as that is alive, and nothing otherwise. Every handle that is
alive has a record, and where no pass ran every handle has: then the latest spill of the name decides. -/
theorem loadNamed_of_runAll (setup : MemorySetup) (identifies : Identifies setup.identifier)
    (forward : ∀ first second, first ≤ second → setup.clock first ≤ setup.clock second)
    (files : FileSystem) (quiet : files.Quiet) (calls : List ManagerCall) {held : HandledMemory}
    (ran : runAll setup calls (start setup files) = .ok () held)
    (genuine : ∀ number handle, Keyed.find? number held.handles = some handle → handle.value.Genuine)
    (name : String) :
    (∃ answer final, MemoryManager.loadNamed setup name held.memory = .ok answer final ∧
      LoadsNewest name held answer) ∧
    (∀ number handle, Keyed.find? number held.handles = some handle → handle.isAlive = true →
      number ∈ Keyed.keys held.memory.manager.spills) ∧
    ((∀ call ∈ calls, ∃ own, call = .handle own) → ∀ number ∈ Keyed.keys held.handles,
      number ∈ Keyed.keys held.memory.manager.spills) := by
  have follows := follows_of_runAll identifies quiet ran
  have inOrder := inOrder_of_runAll forward ran
  refine ⟨loadNamed_of_newest follows inOrder genuine name, ?_, ?_⟩
  · intro number handle found alive
    obtain ⟨spill, -, stored⟩ := follows.record found alive
    exact List.mem_map_of_mem (Keyed.mem_of_find? stored)
  · exact fun handles => (allRecorded_of_runAll forward handles ran).2

/-- Two spills of one name, of which the later one is let go, and a third of another name. -/
def overtaken : List ManagerCall :=
  [.handle (.spill "a" (.flag true)), .handle (.spill "a" (.flag false)), .handle (.spill "b" (.flag false)),
    .handle (.drop 1)]

theorem leads_overtaken : Leads (fun _ => False) (runAll besideWork overtaken)
    (start besideWork (.start ["work"])) fun _ held =>
      held.handles.map (fun pair => (pair.1, pair.2.name, pair.2.clones)) =
          [(0, "a", 1), (1, "a", 0), (2, "b", 1)] ∧
        (held.handles.all fun pair => pair.2.value matches .flag _) = true ∧
        Leads (fun _ => False) (MemoryManager.loadNamed besideWork "b") held.memory (fun answer _ =>
          answer.isSome = true) ∧
        Leads (fun _ => False) (MemoryManager.loadNamed besideWork "a") held.memory (fun answer _ =>
          answer.isNone = true) := by
  decide +kernel

/-- Nothing is loaded for the name, though its first spill is alive. -/
theorem loadNamed_misses_live : ∃ held handle final,
    runAll besideWork overtaken (start besideWork (.start ["work"])) = .ok () held ∧
      Keyed.find? 0 held.handles = some handle ∧ handle.name = "a" ∧ handle.isAlive = true ∧
        MemoryManager.loadNamed besideWork "a" held.memory = .ok none final := by
  rcases leads_overtaken.ends (fun _ => id) with ⟨_, held, ran, handles, -, -, leads⟩
  rcases leads.ends (fun _ => id) with ⟨answer, final, ended, nothing⟩
  cases Option.isNone_iff_eq_none.mp nothing
  obtain ⟨first, rest, same, told, -⟩ := List.map_eq_cons_iff.mp handles
  obtain ⟨number, handle⟩ := first
  obtain ⟨rfl, named, clones⟩ : number = 0 ∧ handle.name = "a" ∧ handle.clones = 1 := by simpa using told
  have found : Keyed.find? 0 held.handles = some handle := by rw [same]; rfl
  have alive : handle.isAlive = true := by
    rw [SpillHandle.isAlive, clones]
    rfl
  exact ⟨held, handle, final, ran, found, named, alive, ended⟩

/-- What stands alone under its name is loaded. -/
theorem loadNamed_of_runAll_overtaken : ∃ held value final,
    runAll besideWork overtaken (start besideWork (.start ["work"])) = .ok () held ∧
      MemoryManager.loadNamed besideWork "b" held.memory = .ok (some value) final ∧
        LoadsNewest "b" held (some value) ∧
          ∀ number ∈ Keyed.keys held.handles, number ∈ Keyed.keys held.memory.manager.spills := by
  rcases leads_overtaken.ends (fun _ => id) with ⟨_, held, ran, -, flags, leads, -⟩
  rcases leads.ends (fun _ => id) with ⟨answer, final, ended, something⟩
  obtain ⟨value, rfl⟩ := Option.isSome_iff_exists.mp something
  have identifies : Identifies besideWork.identifier := identifies_unary
  have quiet : (FileSystem.start ["work"]).Quiet := fun _ => rfl
  have genuine (number : Nat) (handle : SpillHandle) (found : Keyed.find? number held.handles = some handle) :
      handle.value.Genuine := by
    have flag := List.all_eq_true.mp flags _ (Keyed.mem_of_find? found)
    cases same : handle.value with
    | flag truth => exact .flag truth
    | _ => simp [same] at flag
  obtain ⟨⟨told, after, again, loads⟩, -, recorded⟩ :=
    loadNamed_of_runAll besideWork identifies (fun _ _ early => early) (.start ["work"]) quiet overtaken ran
      genuine "b"
  cases ended.symm.trans again
  refine ⟨held, value, final, ran, ended, loads, recorded ?_⟩
  simp [overtaken]

end HandledMemory

end TierVault
