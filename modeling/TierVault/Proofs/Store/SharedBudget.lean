import TierVault.Proofs.Store.DiskWeights
import TierVault.Proofs.Store.SharedDisk

/-!
How many bytes a shared disk store comes to hold.

A write chooses its victims in its first section and takes them out of the index in the section that commits
it. The choice makes room among the records of that time. What other calls commit in between comes on top of
the budget.
-/

namespace TierVault

open DiskStore SharedDisk CallPlace TierVault.Action

variable {settings : DiskSettings} {records after : Keyed String DiskRecord} {budget incoming : Nat}
  {key : String} {names : List String}

/-! ## The choice -/

theorem bytesOf_mono {keep more : String → Bool} (implies : ∀ key, keep key = true → more key = true)
    (records : Keyed String DiskRecord) : bytesOf keep records ≤ bytesOf more records := by
  refine sumOf_map_le fun pair _ => ?_
  dsimp only
  split
  · rename_i kept
    rw [if_pos (implies pair.1 kept)]
  · exact Nat.zero_le _

/-- Who leaves makes room, if there is room at all. -/
theorem bytesOf_leaving (small : incoming ≤ budget) (records : Keyed String DiskRecord) :
    bytesOf (fun key => !(DiskStore.leaving budget incoming (bytesOf (fun _ => true) records) records).contains key)
      records + incoming ≤ budget := by
  induction records with
  | nil => simpa using small
  | cons head rest induction =>
      obtain ⟨key, record⟩ := head
      rw [DiskStore.leaving]
      split
      · rename_i enough
        simpa using enough
      · have less : bytesOf (fun _ => true) ((key, record) :: rest) - record.size =
            bytesOf (fun _ => true) rest := by
          rw [bytesOf_cons, if_pos rfl]
          omega
        rw [less]
        refine Nat.le_trans (Nat.add_le_add_right ?_ _) induction
        rw [bytesOf_cons, if_neg (by simp), Nat.zero_add]
        refine bytesOf_mono (fun other spared => ?_) rest
        simp only [List.contains_cons, Bool.not_or, Bool.and_eq_true] at spared
        exact spared.2

theorem bytesOf_perm {left right : Keyed String DiskRecord} (perm : left.Perm right)
    (keep : String → Bool) : bytesOf keep left = bytesOf keep right :=
  sumOf_perm (perm.map _)

theorem eq_leaving_of_victims (chosen : victims budget records key incoming = .ok names) :
    names = DiskStore.leaving budget incoming (bytesOf (fun _ => true) (Keyed.remove key records))
      (DiskIndex.oldestFirst (Keyed.remove key records)) := by
  unfold victims at chosen
  dsimp only at chosen
  cases total : Word.total ((Keyed.remove key records).map fun pair => pair.2.size) with
  | error fault =>
      rw [total] at chosen
      cases chosen
  | ok used =>
      rw [total] at chosen
      cases sum : Word.sum used incoming with
      | error fault =>
          change (Word.sum used incoming >>= _) = _ at chosen
          rw [sum] at chosen
          cases chosen
      | ok whole =>
          change (Word.sum used incoming >>= _) = _ at chosen
          rw [sum] at chosen
          cases chosen
          rw [Word.total_ok_eq total]
          rfl

/-- Without the victims and the key's own record there is room for the value. -/
theorem bytesOf_victims (chosen : victims budget records key incoming = .ok names)
    (small : incoming ≤ budget) :
    bytesOf (fun other => !names.contains other && decide (other ≠ key)) records + incoming ≤ budget := by
  have perm : (DiskIndex.oldestFirst (Keyed.remove key records)).Perm (Keyed.remove key records) :=
    List.mergeSort_perm _ _
  have room := bytesOf_leaving small (DiskIndex.oldestFirst (Keyed.remove key records))
  rw [bytesOf_perm perm fun _ => true, ← eq_leaving_of_victims chosen, bytesOf_perm perm] at room
  unfold Keyed.remove at room
  rwa [bytesOf_filter (fun other => !names.contains other) fun other => decide (other ≠ key)] at room

/-! ## What the others bring -/

/-- The bytes that the events brought into the index under the keys that are told. -/
def broughtBytes (keep : String → Bool) (events : List DiskEvent) : Nat :=
  sumOf (events.map fun
    | .committed key stored => if keep key then stored.value.weight else 0
    | _ => 0)

theorem broughtBytes_append (keep : String → Bool) (late early : List DiskEvent) :
    broughtBytes keep (late ++ early) = broughtBytes keep late + broughtBytes keep early := by
  unfold broughtBytes
  rw [List.map_append, sumOf_append]

/-- The write leaves the record of the key in the index. -/
def DiskWrite.spares (write : DiskWrite) (key : String) : Bool :=
  !write.victims.contains key && decide (key ≠ write.key)

namespace CallPlace

variable {place next : CallPlace}

theorem Turns.distinct (turns : Turns settings records place next after)
    (distinct : Keyed.Distinct records) : Keyed.Distinct after := by
  cases turns with
  | goesOn _ lighter => exact lighter.distinct distinct
  | chooses => exact distinct
  | commits _ _ lighter =>
      exact lighter.distinct (((Lightens.of_sublist List.filter_sublist).distinct distinct).put _ _)

/-- Only a commit brings bytes, and its event tells how many. -/
theorem Turns.bytes_le (turns : Turns settings records place next after)
    (sized : ∀ write ∈ place.write?, write.value.encodedSize = .ok write.size) (keep : String → Bool) :
    bytesOf keep after ≤ bytesOf keep records + broughtBytes keep (place.events records) := by
  cases turns with
  | goesOn _ lighter => exact Nat.le_trans (lighter.bytes keep) (Nat.le_add_right _ _)
  | chooses => exact Nat.le_add_right _ _
  | @commits write written next record after _ size lighter =>
      have weight := Value.weight_eq (sized write rfl)
      have put := bytesOf_put_le keep write.key record
        (records.filter fun pair => !write.victims.contains pair.1)
      have fewer : bytesOf keep (records.filter fun pair => !write.victims.contains pair.1) ≤
        bytesOf keep records := bytesOf_sublist List.filter_sublist
      have lighter := lighter.bytes keep
      have own : (if keep write.key then record.size else 0) ≤
          broughtBytes keep ((committing write written).events records) := by
        rw [size, ← weight]
        exact Nat.le_add_right _ _
      omega

end CallPlace

namespace SharedDisk

variable {begun shared final : SharedDisk} {world : DiskWorld} {calls : List DiskCall}
  {moves : List Nat} {call : Nat} {write : DiskWrite} {late : List DiskEvent}

/-- The write was chosen after some of the moves, and there is room for it but for what came late. -/
structure Chosen (settings : DiskSettings) (begun : SharedDisk) (moves : List Nat) (shared : SharedDisk)
    (call : Nat) (write : DiskWrite) (late : List DiskEvent) : Prop where
  sized : write.value.encodedSize = .ok write.size
  since : ∃ earlier later past, moves = earlier ++ call :: later ∧
    begun.run settings earlier = some past ∧
    past.calls[call]? = some (.starting (.put write.key write.value)) ∧
    shared.history = late ++ past.history
  room : bytesOf write.spares shared.world.book.index.records + write.size ≤
    settings.budget + broughtBytes write.spares late

/-- No two records are of one key, and every write that is on its way was chosen. -/
structure Tracked (settings : DiskSettings) (begun : SharedDisk) (moves : List Nat) (shared : SharedDisk) :
    Prop where
  distinct : Keyed.Distinct shared.world.book.index.records
  chosen : ∀ call place write, shared.calls[call]? = some place → place.write? = some write →
    ∃ late, Chosen settings begun moves shared call write late

theorem tracked_start (distinct : Keyed.Distinct world.book.index.records) (calls : List DiskCall) :
    Tracked settings (start world calls) [] (start world calls) := by
  refine ⟨distinct, fun call place write stands carries => ?_⟩
  obtain ⟨asked, _, rfl⟩ := List.mem_map.mp (List.mem_of_getElem? stands)
  cases carries

/-- What stays of a chosen write when a section is taken. -/
theorem Chosen.later {move : Nat} {events : List DiskEvent}
    (chosen : Chosen settings begun moves shared call write late)
    (history : final.history = events ++ shared.history)
    (bytes : bytesOf write.spares final.world.book.index.records ≤
      bytesOf write.spares shared.world.book.index.records + broughtBytes write.spares events) :
    Chosen settings begun (moves ++ [move]) final call write (events ++ late) := by
  refine ⟨chosen.sized, ?_, ?_⟩
  · obtain ⟨earlier, later, past, rfl, ran, asks, since⟩ := chosen.since
    refine ⟨earlier, later ++ [move], past, ?_, ran, asks, ?_⟩
    · rw [List.append_assoc, List.cons_append]
    · rw [history, since, List.append_assoc]
  · have room := chosen.room
    rw [broughtBytes_append]
    omega

theorem Tracked.step {move : Nat} (tracked : Tracked settings begun moves shared)
    (ran : begun.run settings moves = some shared) (stepped : shared.step settings move = some final) :
    Tracked settings begun (moves ++ [move]) final := by
  obtain ⟨place, next, world, stands, -, -, ended, -, rfl⟩ := step_eq_some stepped
  have turn := (turns settings shared.world place).of_ok ended
  have sized (write : DiskWrite) (carries : write ∈ place.write?) :
      write.value.encodedSize = .ok write.size := by
    obtain ⟨_, chosen⟩ := tracked.chosen move place write stands carries
    exact chosen.sized
  refine ⟨turn.distinct tracked.distinct, fun call other write among carries => ?_⟩
  by_cases own : call = move
  · subst own
    have here := (List.getElem?_eq_some_iff.mp stands).1
    rw [List.getElem?_set_self here] at among
    generalize landing next = goes at turn among
    generalize left : world.book.index.records = after at turn
    cases among
    cases turn with
    | goesOn same lighter =>
        obtain ⟨late, chosen⟩ := tracked.chosen call place write stands (same write carries)
        refine ⟨_, chosen.later rfl (Nat.le_trans ?_ (Nat.le_add_right _ _))⟩
        exact left ▸ lighter.bytes write.spares
    | commits gone => cases gone.symm.trans carries
    | chooses encodes small told =>
        cases carries
        refine ⟨[], encodes, ⟨moves, [], shared, rfl, ran, stands, rfl⟩, ?_⟩
        rw [left]
        exact bytesOf_victims told small
  · rw [List.getElem?_set_ne (Ne.symm own)] at among
    obtain ⟨late, chosen⟩ := tracked.chosen call other write among carries
    exact ⟨_, chosen.later rfl (turn.bytes_le sized write.spares)⟩

theorem tracked_of_run (distinct : Keyed.Distinct world.book.index.records) {calls : List DiskCall}
    (ran : (start world calls).run settings moves = some shared) :
    Tracked settings (start world calls) moves shared := by
  induction moves using List.reverseRecOn generalizing shared with
  | nil =>
      cases ran
      exact tracked_start distinct calls
  | append_singleton moves move induction =>
      rw [run_append] at ran
      obtain ⟨middle, before, last⟩ := Option.bind_eq_some_iff.mp ran
      obtain ⟨after, stepped, same⟩ := Option.bind_eq_some_iff.mp last
      cases same
      exact (induction before).step before stepped

/-- After every commit, the index holds no more bytes than the budget and what other calls committed since
the write chose its victims. -/
theorem committed_within_budget (settings : DiskSettings) (world : DiskWorld) (calls : List DiskCall)
    (moves : List Nat) (distinct : Keyed.Distinct world.book.index.records) {written : WrittenPayload}
    (ran : (start world calls).run settings moves = some shared)
    (stands : shared.calls[call]? = some (.committing write written))
    (commits : shared.step settings call = some final) :
    ∃ earlier later past late, moves = earlier ++ call :: later ∧
      (start world calls).run settings earlier = some past ∧
      past.calls[call]? = some (.starting (.put write.key write.value)) ∧
      shared.history = late ++ past.history ∧
      final.world.book.index.bytes ≤ settings.budget + broughtBytes write.spares late := by
  have tracked := tracked_of_run distinct ran
  obtain ⟨late, chosen⟩ := tracked.chosen call _ write stands rfl
  obtain ⟨earlier, later, past, split, began, asks, since⟩ := chosen.since
  refine ⟨earlier, later, past, late, split, began, asks, since, ?_⟩
  obtain ⟨place, next, world, same, -, -, ended, -, rfl⟩ := step_eq_some commits
  cases stands.symm.trans same
  obtain ⟨-, record, size, lighter⟩ := (committing_turns settings _ write written).of_ok ended
  have kept : Keyed.Distinct (shared.world.book.index.records.filter fun pair =>
      !write.victims.contains pair.1) := (Lightens.of_sublist List.filter_sublist).distinct tracked.distinct
  have put := bytesOf_put kept write.key record
  rw [bytesOf_filter (fun key => decide (key ≠ write.key)) fun key => !write.victims.contains key] at put
  have lighter := lighter.bytes fun _ => true
  have room := chosen.room
  have same : (fun key => decide (key ≠ write.key) && !write.victims.contains key) = write.spares := by
    funext key
    exact Bool.and_comm _ _
  have whole : world.book.index.bytes = bytesOf (fun _ => true) world.book.index.records := rfl
  rw [whole]
  rw [same] at put
  omega

/-! ### Two writes that do not see each other -/

/-- There is room for one of the values. -/
def tight : DiskSettings := { plainFiles with budget := 5 }

def pairOfWrites : List DiskCall := [.put "left" (.flag false), .put "right" (.flag true)]

/-- Both choose before either commits. -/
def besides : List Nat := [0, 1, 0, 0, 0, 0, 0, 1, 1, 1, 1]

theorem ends_besides : ∃ shared write written final,
    (start newStore pairOfWrites).run tight besides = some shared ∧
      shared.calls[1]? = some (.committing write written) ∧ shared.step tight 1 = some final ∧
      final.calls.all isDone = true ∧ final.world.book.index.bytes = 10 := by
  have vacant : newStore.files.Vacant tight.root ["disk"] := newStore_vacant
  have quiet (fault : Fault) : ¬False := id
  have bounded := newStore_bounded (by decide : 2 * 100 < _)
  let left : DiskWrite := ⟨"left", .flag false, 5, []⟩
  let right : DiskWrite := ⟨"right", .flag true, 5, []⟩
  have leftFits : left.Fits ["left", "right"] 100 := ⟨⟨by decide, by decide, ⟨trivial, trivial⟩, trivial⟩, _, rfl⟩
  have rightFits : right.Fits ["left", "right"] 100 := ⟨⟨by decide, by decide, ⟨trivial, trivial⟩, trivial⟩, _, rfl⟩
  have nobody (key : String) : victims tight.budget newStore.book.index.records key 5 = .ok [] :=
    victims_of_room (by decide) (by decide)
  have moves : besides = 0 :: 1 :: ([0, 0, 0, 0] ++ 0 :: [1, 1, 1, 1]) := rfl
  have chosen : (start newStore pairOfWrites).step tight 0 =
      some ⟨newStore, [preparing left, starting (.put "right" (.flag true))], []⟩ :=
    step_put rfl rfl (by decide) (nobody "left")
  have chosenToo : SharedDisk.step tight ⟨newStore, [preparing left, starting (.put "right" (.flag true))], []⟩ 1 =
      some ⟨newStore, [preparing left, preparing right], []⟩ :=
    step_put rfl rfl (by decide) (nobody "right")
  obtain ⟨compressed, stored, files, placed, light, shelved, -⟩ :=
    run_payload ⟨newStore, [preparing left, preparing right], []⟩ vacant (shelved_of_vacant vacant)
      (show [preparing left, preparing right][0]? = _ from rfl) leftFits nofun
  obtain ⟨middle, committed, commits⟩ := step_committing
    ⟨⟨newStore.book, files⟩, [committing left ⟨.binary, compressed, stored⟩, preparing right],
      [.placed "left" ⟨.flag false, .binary⟩]⟩ vacant shelved
    (show [committing left ⟨.binary, compressed, stored⟩, preparing right][0]? = _ from rfl) rfl bounded quiet
    (by decide) light
  have stands : middle.calls[1]? = some (preparing right) := by
    rw [commits.calls]
    rfl
  obtain ⟨compressedToo, storedToo, filesToo, placedToo, lightToo, shelvedToo, -⟩ :=
    run_payload middle vacant commits.shelved stands rightFits nofun
  obtain ⟨bound, -⟩ := List.getElem?_eq_some_iff.mp stands
  obtain ⟨final, committedToo, commitsToo⟩ := step_committing
    ⟨⟨middle.world.book, filesToo⟩, middle.calls.set 1 (committing right ⟨.binary, compressedToo, storedToo⟩),
      .placed "right" ⟨.flag true, .binary⟩ :: middle.history⟩ vacant shelvedToo
    (List.getElem?_set_self bound) rfl commits.bounded quiet (by decide) lightToo
  refine ⟨_, right, ⟨.binary, compressedToo, storedToo⟩, final, ?_, List.getElem?_set_self bound, committedToo, ?_, ?_⟩
  · rw [moves, run_cons, chosen, Option.bind_some, run_cons, chosenToo, Option.bind_some, run_append, placed,
      Option.bind_some]
    refine Eq.trans (congrArg (Option.bind · _) committed) ?_
    exact placedToo
  · rw [commitsToo.calls, commits.calls]
    rfl
  · obtain ⟨record, -, size, records⟩ := commits.records
    obtain ⟨recordToo, -, sizeToo, recordsToo⟩ := commitsToo.records
    rw [DiskIndex.bytes, recordsToo, records]
    change sumOf [record.size, recordToo.size] = 10
    rw [size, sizeToo]
    rfl

/-- The write that commits last leaves the other one's value in the index, which came after its choice. -/
theorem committed_within_budget_besides : ∃ shared write written final,
    (start newStore pairOfWrites).run tight besides = some shared ∧
      shared.calls[1]? = some (.committing write written) ∧ shared.step tight 1 = some final ∧
      ∃ earlier later past late, besides = earlier ++ 1 :: later ∧
        (start newStore pairOfWrites).run tight earlier = some past ∧
        past.calls[1]? = some (.starting (.put write.key write.value)) ∧
        shared.history = late ++ past.history ∧
        final.world.book.index.bytes ≤ tight.budget + broughtBytes write.spares late := by
  obtain ⟨shared, write, written, final, ran, stands, commits, -⟩ := ends_besides
  refine ⟨shared, write, written, final, ran, stands, commits, ?_⟩
  exact committed_within_budget tight newStore pairOfWrites besides List.nodup_nil ran stands commits

/-- The store was just opened, and is empty. When both writes have returned, it holds more than its budget. -/
theorem exceeds_budget :
    (openIn tight).run (.start []) = .ok (.ok newStore.book) newStore.files ∧
      newStore.book.index.bytes ≤ tight.budget ∧ ∃ shared write written final,
        (start newStore pairOfWrites).run tight besides = some shared ∧
          shared.calls[1]? = some (.committing write written) ∧ shared.step tight 1 = some final ∧
          final.Returned ∧ tight.budget < final.world.book.index.bytes := by
  obtain ⟨shared, write, written, final, ran, stands, commits, returned, bytes⟩ := ends_besides
  have within : newStore.book.index.bytes ≤ tight.budget := Nat.zero_le _
  refine ⟨rfl, within, shared, write, written, final, ran, stands, commits, ?_, ?_⟩
  · exact List.all_eq_true.mp returned
  · rw [bytes]
    decide

end SharedDisk

end TierVault
