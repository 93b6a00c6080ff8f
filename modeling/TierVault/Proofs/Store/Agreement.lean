import TierVault.Proofs.Store.Database
import TierVault.Proofs.Store.Disk
import TierVault.Zstandard.Codec

/-!
Stores of all three kinds give the same answers.

A store in memory, one in a database and one in the files of a directory that have one budget and start out
empty all do what the map does. Only the counts that go with files can grow too large, in a run that writes
about as many bytes as a word counts.
-/

namespace TierVault

open TierVault.Action

/-! ## What a run writes -/

namespace StoreCall

/-- The key that is written, if one is. -/
def written? : StoreCall → Option String
  | put key _ => some key
  | _ => none

/-- The bytes that a call may write. -/
def load : StoreCall → Nat
  | put _ value => DiskStore.load value
  | _ => 0

end StoreCall

/-- What one of the calls adds to a count at most: one, and all bytes that are ever written. -/
def stepOf (calls : List StoreCall) : Nat := 1 + sumOf (calls.map StoreCall.load)

variable {budget : Nat} {calls : List StoreCall} {settings : DiskSettings} {world : DiskWorld}

theorem load_le_stepOf {call : StoreCall} (member : call ∈ calls) : call.load ≤ stepOf calls := by
  have part := size_le_sumOf_of_mem StoreCall.load member
  exact Nat.le_add_left_of_le part

/-- All values that are put are those of a running program, with regular tables. -/
abbrev AllStorable (calls : List StoreCall) : Prop :=
  ∀ call ∈ calls, call.Offers fun value => value.WellFormed ∧ value.RegularTables

/-- No two keys that are written have one digest, by which their files are named. -/
def DigestsApart (calls : List StoreCall) : Prop :=
  ∀ left ∈ calls.filterMap StoreCall.written?, ∀ right ∈ calls.filterMap StoreCall.written?,
    Sha256.digest (Utf8.encode left) = Sha256.digest (Utf8.encode right) → left = right

theorem DiskStore.permits_of_allStorable (storables : AllStorable calls) :
    ∀ call ∈ calls, Permits (calls.filterMap StoreCall.written?) (stepOf calls) call := by
  intro call member
  have offers := storables call member
  cases call with
  | put key value =>
      obtain ⟨wellFormed, regular⟩ := offers
      exact ⟨List.mem_filterMap.mpr ⟨_, member, rfl⟩, load_le_stepOf member, wellFormed, regular⟩
  | _ => trivial

section

variable {faults : Fault → Prop} (fresh : DiskStore.Fresh settings world)
  (level : Columnar.isLevel settings.compressor.level = true) (storables : AllStorable calls)
  (apart : DigestsApart calls) (short : ¬faults .sumOverflow → calls.length * stepOf calls < Word.limit)

include fresh level storables apart short

/-- A fresh store of files does what the map does, as long as its counts are words, and its files hold what the
map then has. -/
theorem DiskStore.leads_runAll_stands :
    Leads faults ((store settings).runAll calls) world fun history final =>
      history = RecentMap.runAll settings.budget [] calls ∧ ∃ home residents,
        Stands settings world.files home (calls.filterMap StoreCall.written?) faults (stepOf calls) 0 residents
          final (RecentMap.leftBy settings.budget [] calls) := by
  obtain ⟨files, ends⟩ := fresh.opened
  obtain ⟨home, vacant⟩ := fresh.vacant
  have ground : Ground settings world.files home (calls.filterMap StoreCall.written?) :=
    ⟨vacant, level, fun left first right second same =>
      apart left first right second (digest_eq_of_payloadName_eq same)⟩
  have serves := serves_of_fresh ground ends (permits_of_allStorable storables) short
  refine ((refines ground (Nat.le_add_right 1 _)).leads_runAll_leftBy calls serves).imp ?_
  rintro history final - ⟨answered, ⟨residents, stands⟩, -⟩
  exact ⟨answered, home, residents, stands⟩

theorem DiskStore.leads_runAll :
    Leads faults ((store settings).runAll calls) world fun history _ =>
      history = RecentMap.runAll settings.budget [] calls :=
  (leads_runAll_stands fresh level storables apart short).imp fun _ _ _ => And.left

end

/-! ## Agreement -/

/-- A run that writes under two keys at most. -/
theorem digestsApart_of_two
    (written : ∀ key ∈ calls.filterMap StoreCall.written?, key = "left" ∨ key = "right") :
    DigestsApart calls := by
  have different : Sha256.digest (Utf8.encode "left") ≠ Sha256.digest (Utf8.encode "right") := by
    rw [Sha256.digest_of_single (by decide), Sha256.digest_of_single (by decide)]
    decide +kernel
  intro left first right second same
  rcases written left first with rfl | rfl <;> rcases written right second with rfl | rfl
  · rfl
  · exact absurd same different
  · exact absurd same.symm different
  · rfl

/-- Opened in a tree with nothing in it, a store is fresh. -/
theorem DiskStore.fresh_start (named : settings.root = "disk") : Fresh settings
    ⟨⟨.empty, false, default⟩, (FileSystem.start []).counted.place ["disk"] .directory⟩ := by
  have opens : (DiskStore.openIn ⟨"disk", 0, false, false, ⟨Zstandard.codec, 3, 0⟩⟩).run (.start []) =
      .ok (.ok ⟨.empty, false, default⟩) ((FileSystem.start []).counted.place ["disk"] .directory) := by rfl
  have found : ((FileSystem.start []).counted.place ["disk"] .directory).find "disk" = .ok ["disk"] := by rfl
  have short : "disk".utf8ByteSize + 74 < FileSystem.nameLimit := by decide
  -- Nothing but the root matters for how a store is opened.
  obtain ⟨_, budget, columnar, compress, compressor⟩ := settings
  cases named
  exact ⟨⟨_, opens⟩, ["disk"], ⟨found, rfl⟩, fun _ => rfl, short, _, rfl⟩

end TierVault
