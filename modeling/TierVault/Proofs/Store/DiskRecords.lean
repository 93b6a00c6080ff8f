import Mathlib.Data.List.Nodup
import TierVault.Proofs.Keyed
import TierVault.Proofs.RecencyList
import TierVault.Proofs.Sums
import TierVault.Store.Disk

/-!
The index of a directory as a list by recency.

The records stand in no order, but no two were used at one time. Sorted by their last use they are a list by
recency, and what is done to the index is done to that list.
-/

namespace TierVault

open RecencyList

variable {residents : List (Resident DiskRecord)} {index : DiskIndex} {key : String}
  {record : DiskRecord} {budget incoming : Nat}

/-- A resident as it stands in an index. -/
def pairOf (resident : Resident DiskRecord) : String × DiskRecord := (resident.key, resident.item)

/-- The residents are the records of the index in the order of their last use. -/
structure Ranks (residents : List (Resident DiskRecord)) (index : DiskIndex) : Prop where
  records : (residents.map pairOf).Perm index.records
  distinct : Distinct residents
  sizes : ∀ resident ∈ residents, resident.size = resident.item.size
  ordered : residents.Pairwise fun earlier later => earlier.item.accessedAt < later.item.accessedAt
  past : ∀ resident ∈ residents, resident.item.accessedAt ≤ index.clock

namespace Ranks

theorem empty : Ranks [] .empty := ⟨.nil, List.nodup_nil, nofun, .nil, nofun⟩

theorem keys_distinct (ranks : Ranks residents index) : Keyed.Distinct index.records := by
  have keys := (ranks.records.map Prod.fst).nodup_iff.mp
  rw [List.map_map] at keys
  exact keys ranks.distinct

theorem find? (ranks : Ranks residents index) (key : String) :
    Keyed.find? key index.records = (RecencyList.find? key residents).map Resident.item := by
  cases found : RecencyList.find? key residents with
  | some resident =>
      obtain ⟨member, rfl⟩ := find?_some found
      exact ranks.keys_distinct.find?_of_mem
        (ranks.records.subset (List.mem_map_of_mem (f := pairOf) member))
  | none =>
      refine Keyed.find?_eq_none_iff.mpr fun member => ?_
      obtain ⟨pair, there, rfl⟩ := List.mem_map.mp member
      obtain ⟨resident, known, rfl⟩ := List.mem_map.mp (ranks.records.mem_iff.mpr there)
      have other := List.find?_eq_none.mp found resident known
      simp [pairOf] at other

/-- Sorted by their last use the records are the residents. -/
theorem oldestFirst (ranks : Ranks residents index) :
    DiskIndex.oldestFirst index.records = residents.map pairOf := by
  have apart : (residents.map fun resident => resident.item.accessedAt).Nodup :=
    List.pairwise_map.mpr (ranks.ordered.imp Nat.ne_of_lt)
  have sorted : (DiskIndex.oldestFirst index.records).Pairwise fun left right =>
      left.2.accessedAt ≤ right.2.accessedAt := by
    refine (List.pairwise_mergeSort ?_ ?_ index.records).imp of_decide_eq_true
    · intro first second third
      simpa using Nat.le_trans
    · intro first second
      simpa using Nat.le_total _ _
  have ranked : (residents.map pairOf).Pairwise fun left right =>
      left.2.accessedAt ≤ right.2.accessedAt :=
    List.pairwise_map.mpr (ranks.ordered.imp Nat.le_of_lt)
  have same : (DiskIndex.oldestFirst index.records).Perm (residents.map pairOf) :=
    (List.mergeSort_perm _ _).trans ranks.records.symm
  refine List.Perm.eq_of_pairwise ?_ sorted ranked same
  intro left right first second below above
  obtain ⟨earlier, known, rfl⟩ := List.mem_map.mp (same.subset first)
  obtain ⟨later, there, rfl⟩ := List.mem_map.mp second
  have equal := List.inj_on_of_nodup_map apart known there (Nat.le_antisymm below above)
  rw [equal]

theorem has (ranks : Ranks residents index) (key : String) :
    Keyed.has key index.records = RecencyList.has key residents := by
  rw [Keyed.has, ranks.find? key, Option.isSome_map]
  rfl

theorem listing (ranks : Ranks residents index) :
    (DiskIndex.oldestFirst index.records).map (fun (key, record) => (key, record.size)) =
      RecencyList.listing residents := by
  rw [ranks.oldestFirst, List.map_map]
  refine List.map_congr_left fun resident member => ?_
  exact congrArg (resident.key, ·) (ranks.sizes resident member).symm

theorem sizes_total (ranks : Ranks residents index) :
    sumOf (index.records.map fun (_, record) => record.size) = total residents := by
  have same := sumOf_perm (ranks.records.map fun pair => pair.2.size)
  rw [List.map_map] at same
  refine same.symm.trans (congrArg sumOf (List.map_congr_left fun resident member => ?_))
  exact (ranks.sizes resident member).symm

theorem of_sublist {kept : List (Resident DiskRecord)} {records : Keyed String DiskRecord}
    (ranks : Ranks residents index) (sublist : kept.Sublist residents)
    (same : (kept.map pairOf).Perm records) : Ranks kept { index with records } where
  records := same
  distinct := (sublist.map Resident.key).nodup ranks.distinct
  sizes resident member := ranks.sizes resident (sublist.subset member)
  ordered := ranks.ordered.sublist sublist
  past resident member := ranks.past resident (sublist.subset member)

theorem map_remove (key : String) (residents : List (Resident DiskRecord)) :
    Keyed.remove key (residents.map pairOf) = (RecencyList.remove key residents).map pairOf := by
  unfold Keyed.remove RecencyList.remove
  rw [List.filter_map]
  refine congrArg (List.map pairOf) (List.filter_congr fun resident _ => ?_)
  by_cases same : resident.key = key <;> simp [pairOf, same]

theorem remove (ranks : Ranks residents index) (key : String) :
    Ranks (RecencyList.remove key residents)
      { index with records := Keyed.remove key index.records } := by
  refine ranks.of_sublist List.filter_sublist ?_
  rw [← map_remove]
  exact ranks.records.filter _

/-- What is used now stands last. -/
theorem append (ranks : Ranks residents index) (missing : ∀ other ∈ residents, other.key ≠ key)
    (now : record.accessedAt = index.clock + 1) {records : Keyed String DiskRecord}
    (same : records.Perm (index.records ++ [(key, record)])) :
    Ranks (residents ++ [⟨key, record.size, record⟩]) ⟨records, index.clock + 1⟩ := by
  have last {property : Resident DiskRecord → Prop}
      (old : ∀ resident ∈ residents, property resident) (new : property ⟨key, record.size, record⟩) :
      ∀ resident ∈ residents ++ [⟨key, record.size, record⟩], property resident := by
    intro resident member
    rcases List.mem_append.mp member with there | single
    · exact old resident there
    · exact (List.mem_singleton.mp single) ▸ new
  constructor
  · rw [List.map_append]
    exact (ranks.records.append_right _).trans same.symm
  · exact ranks.distinct.append missing
  · exact last ranks.sizes rfl
  · refine List.pairwise_append.mpr ⟨ranks.ordered, List.pairwise_singleton _ _, ?_⟩
    intro resident member new single
    rw [List.mem_singleton.mp single]
    exact now ▸ Nat.lt_succ_of_le (ranks.past resident member)
  · exact last (fun resident member => Nat.le_succ_of_le (ranks.past resident member)) (Nat.le_of_eq now)

theorem put_perm {records : Keyed String DiskRecord} (distinct : Keyed.Distinct records)
    (key : String) (record : DiskRecord) :
    (Keyed.put key record records).Perm (Keyed.remove key records ++ [(key, record)]) := by
  induction records with
  | nil => exact .refl _
  | cons head rest induction =>
      obtain ⟨other, held⟩ := head
      obtain ⟨fresh, apart⟩ := List.nodup_cons.mp distinct
      by_cases same : other = key
      · subst same
        have kept : Keyed.remove other ((other, held) :: rest) = rest := by
          refine (List.filter_cons_of_neg (by simp)).trans ?_
          exact Keyed.remove_of_find?_eq_none (Keyed.find?_eq_none_iff.mpr fresh)
        rw [kept, Keyed.put, if_pos rfl]
        exact (List.perm_append_singleton (other, record) rest).symm
      · have kept : Keyed.remove key ((other, held) :: rest) =
            (other, held) :: Keyed.remove key rest := List.filter_cons_of_pos (by simpa using same)
        rw [kept, Keyed.put, if_neg same]
        exact (induction apart).cons _

/-- A record that is used now stands last. -/
theorem renew (ranks : Ranks residents index) (now : record.accessedAt = index.clock + 1) :
    Ranks (RecencyList.remove key residents ++ [⟨key, record.size, record⟩])
      ⟨Keyed.put key record index.records, index.clock + 1⟩ :=
  (ranks.remove key).append (fun _ member => (mem_remove.mp member).2) now
    (put_perm ranks.keys_distinct key record)

end Ranks

/-! ## Making room -/

namespace DiskStore

/-- The keys that leave are those of the residents for which there is no room. -/
theorem leaving_append (sizes : ∀ resident ∈ residents, resident.size = resident.item.size) :
    leaving budget incoming (total residents) (residents.map pairOf) ++
      (makeRoom budget incoming residents).map Resident.key = residents.map Resident.key := by
  induction residents with
  | nil => rfl
  | cons resident rest induction =>
      have later := induction fun other member => sizes other (List.mem_cons_of_mem _ member)
      have own := sizes resident List.mem_cons_self
      have less : total (resident :: rest) - resident.item.size = total rest := by
        rw [← own]
        exact Nat.add_sub_cancel_left ..
      rw [List.map_cons, pairOf, leaving, makeRoom]
      split
      · rfl
      · rw [less, List.cons_append, later]
        rfl

theorem mem_keys_of_mem_leaving {used : Nat} {records : Keyed String DiskRecord} {name : String}
    (leaves : name ∈ leaving budget incoming used records) : name ∈ Keyed.keys records := by
  induction records generalizing used with
  | nil => cases leaves
  | cons head rest induction =>
      obtain ⟨first, record⟩ := head
      rw [leaving] at leaves
      split at leaves
      · cases leaves
      · rcases List.mem_cons.mp leaves with rfl | later
        · exact List.mem_cons_self
        · exact List.mem_cons_of_mem _ (induction later)

/-- Other keys leave, of those that are there. -/
theorem other_of_mem_victims {records : Keyed String DiskRecord} {names : List String} {name : String}
    (told : victims budget records key incoming = .ok names) (leaves : name ∈ names) :
    name ≠ key ∧ name ∈ Keyed.keys records := by
  unfold victims at told
  simp only [bind, Except.bind] at told
  split at told
  · cases told
  · split at told
    · cases told
    · cases told
      obtain ⟨pair, member, rfl⟩ := List.mem_map.mp (mem_keys_of_mem_leaving leaves)
      have there := (List.mergeSort_perm _ _).subset member
      obtain ⟨before, other⟩ := List.mem_filter.mp there
      exact ⟨of_decide_eq_true other, List.mem_map_of_mem before⟩

/-- Keys are told only if the incoming bytes are a word. -/
theorem lt_of_victims {records : Keyed String DiskRecord} {names : List String}
    (told : victims budget records key incoming = .ok names) : incoming < Word.limit := by
  unfold victims at told
  simp only [bind, Except.bind] at told
  split at told
  · cases told
  · split at told
    · cases told
    · rename_i summed
      exact Nat.lt_of_le_of_lt (Nat.le_add_left _ _) (Word.sum_ok_lt summed)

/-- Keys are told, unless the sizes do not fit a word. -/
theorem error_of_victims {records : Keyed String DiskRecord} {fault : Fault}
    (failed : victims budget records key incoming = .error fault) :
    fault = .sumOverflow ∧ Word.limit ≤ Keyed.weigh DiskRecord.size records + incoming := by
  have fewer : Keyed.weigh DiskRecord.size (Keyed.remove key records) ≤
      Keyed.weigh DiskRecord.size records := sumOf_sublist (List.filter_sublist.map _)
  unfold victims at failed
  simp only [bind, Except.bind] at failed
  split at failed
  · rename_i totals
    cases failed
    obtain ⟨rfl, large⟩ := Word.total_error totals
    exact ⟨rfl, Nat.le_trans (Nat.le_trans large fewer) (Nat.le_add_right _ _)⟩
  · rename_i totals
    obtain rfl := Word.total_ok_eq totals
    split at failed
    · rename_i summed
      cases failed
      obtain ⟨rfl, large⟩ := Word.sum_error summed
      exact ⟨rfl, Nat.le_trans large (Nat.add_le_add_right fewer _)⟩
    · cases failed

/-- Nobody leaves for a value that there is room for. -/
theorem victims_of_room {records : Keyed String DiskRecord}
    (room : Keyed.weigh DiskRecord.size records + incoming ≤ budget) (word : budget < Word.limit) :
    victims budget records key incoming = .ok [] := by
  cases told : victims budget records key incoming with
  | error fault =>
      have large := (error_of_victims told).2
      omega
  | ok names =>
      have fewer : Keyed.weigh DiskRecord.size (Keyed.remove key records) ≤
          Keyed.weigh DiskRecord.size records := sumOf_sublist (List.filter_sublist.map _)
      unfold victims at told
      simp only [bind, Except.bind] at told
      split at told
      · cases told
      rename_i used totals
      split at told
      · cases told
      obtain rfl := Word.total_ok_eq totals
      have enough : sumOf ((Keyed.remove key records).map fun pair => pair.2.size) + incoming ≤ budget :=
        Nat.le_trans (Nat.add_le_add_right fewer _) room
      cases told
      cases DiskIndex.oldestFirst (Keyed.remove key records) with
      | nil => rfl
      | cons first rest => rw [leaving, if_pos enough]

end DiskStore

namespace Ranks

open DiskStore

/-- The keys that a value of `incoming` bytes drives out. -/
def leavers (budget incoming : Nat) (key : String) (residents : List (Resident DiskRecord)) :
    List String :=
  leaving budget incoming (total (RecencyList.remove key residents))
    ((RecencyList.remove key residents).map pairOf)

/-- The victims are told, unless the sizes do not fit a word. -/
theorem victims_cases (ranks : Ranks residents index) (budget incoming : Nat) (key : String) :
    victims budget index.records key incoming = .ok (leavers budget incoming key residents) ∨
      victims budget index.records key incoming = .error .sumOverflow ∧
        Word.limit ≤ total residents + incoming := by
  have others := ranks.remove key
  have fewer : total (RecencyList.remove key residents) ≤ total residents :=
    sumOf_sublist (List.filter_sublist.map Resident.size)
  have same : sumOf ((Keyed.remove key index.records).map fun (_, record) => record.size) =
      total (RecencyList.remove key residents) := others.sizes_total
  unfold victims leavers
  simp only [bind, Except.bind]
  cases totals : Word.total ((Keyed.remove key index.records).map fun (_, record) => record.size) with
  | error fault =>
      obtain ⟨rfl, large⟩ := Word.total_error totals
      exact .inr ⟨rfl, by omega⟩
  | ok used =>
      have whole := (Word.total_ok_eq totals).trans same
      dsimp only
      cases summed : Word.sum used incoming with
      | error fault =>
          obtain ⟨rfl, large⟩ := Word.sum_error summed
          exact .inr ⟨rfl, by omega⟩
      | ok all =>
          rw [others.oldestFirst, whole]
          exact .inl rfl

theorem leavers_append (ranks : Ranks residents index) (budget incoming : Nat) (key : String) :
    leavers budget incoming key residents ++
      (makeRoom budget incoming (RecencyList.remove key residents)).map Resident.key =
        (RecencyList.remove key residents).map Resident.key :=
  leaving_append (ranks.remove key).sizes

/-- Others leave, not the key itself. -/
theorem ne_of_mem_leavers (ranks : Ranks residents index) {name : String}
    (leaves : name ∈ leavers budget incoming key residents) : name ≠ key := by
  have among := List.mem_append_left
    ((makeRoom budget incoming (RecencyList.remove key residents)).map Resident.key) leaves
  rw [ranks.leavers_append] at among
  obtain ⟨resident, member, rfl⟩ := List.mem_map.mp among
  exact (mem_remove.mp member).2

/-- Those that leave are not among those that stay. -/
theorem not_mem_leavers (ranks : Ranks residents index) {resident : Resident DiskRecord}
    (stays : resident ∈ makeRoom budget incoming (RecencyList.remove key residents)) :
    resident.key ∉ leavers budget incoming key residents := by
  have nodup := (ranks.remove key).distinct
  unfold Distinct at nodup
  rw [← ranks.leavers_append budget incoming key] at nodup
  intro leaves
  exact (List.nodup_append.mp nodup).2.2 _ leaves _ (List.mem_map_of_mem stays) rfl

/-- Without those that leave, the others are those for which there is room. -/
theorem filter_leavers (ranks : Ranks residents index) (budget incoming : Nat) (key : String) :
    (RecencyList.remove key residents).filter (fun resident =>
      !(leavers budget incoming key residents).contains resident.key) =
        makeRoom budget incoming (RecencyList.remove key residents) := by
  obtain ⟨dropped, whole⟩ := makeRoom_suffix budget incoming (RecencyList.remove key residents)
  have names : leavers budget incoming key residents = dropped.map Resident.key := by
    have keys := ranks.leavers_append budget incoming key
    rw [← congrArg (List.map Resident.key) whole, List.map_append] at keys
    exact List.append_cancel_right keys
  rw [← congrArg (List.filter _) whole, List.filter_append]
  have gone : dropped.filter (fun resident =>
      !(leavers budget incoming key residents).contains resident.key) = [] := by
    refine List.filter_eq_nil_iff.mpr fun resident member => ?_
    rw [names, List.contains_iff_mem.mpr (List.mem_map_of_mem member)]
    decide
  have kept : (makeRoom budget incoming (RecencyList.remove key residents)).filter (fun resident =>
      !(leavers budget incoming key residents).contains resident.key) =
        makeRoom budget incoming (RecencyList.remove key residents) := by
    refine List.filter_eq_self.mpr fun resident member => ?_
    have stays := ranks.not_mem_leavers member
    simpa using stays
  rw [gone, kept, List.nil_append]

/-- What is put stands last, and only those stay for which there is room. -/
theorem commit (ranks : Ranks residents index) (now : record.accessedAt = index.clock + 1)
    (budget : Nat) (key : String) :
    Ranks (RecencyList.put budget ⟨key, record.size, record⟩ residents)
      ⟨Keyed.put key record (index.records.filter fun pair =>
        !(leavers budget record.size key residents).contains pair.1), index.clock + 1⟩ := by
  let stays : String → Bool := fun own => !(leavers budget record.size key residents).contains own
  have others := ranks.remove key
  have sublist := (makeRoom_suffix budget record.size (RecencyList.remove key residents)).sublist
  have distinct : Keyed.Distinct (index.records.filter fun pair => stays pair.1) :=
    (List.filter_sublist.map Prod.fst).nodup ranks.keys_distinct
  have same : ((makeRoom budget record.size (RecencyList.remove key residents)).map pairOf).Perm
      (Keyed.remove key (index.records.filter fun pair => stays pair.1)) := by
    have swapped : Keyed.remove key (index.records.filter fun pair => stays pair.1) =
        (Keyed.remove key index.records).filter fun pair => stays pair.1 := List.filter_comm ..
    have filtered := others.records.filter fun pair => stays pair.1
    rw [List.filter_map] at filtered
    rw [swapped, ← ranks.filter_leavers]
    exact filtered
  refine (others.of_sublist sublist same).append ?_ now (put_perm distinct key record)
  exact fun other member => (mem_remove.mp (sublist.subset member)).2

end Ranks

end TierVault
