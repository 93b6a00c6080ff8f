import TierVault.RecencyList
import TierVault.Proofs.Sums

/-!
What stays in a list by recency, under its key and with its size.

In a list whose keys are distinct, what is removed counts once, and a use changes the order alone.
-/

namespace TierVault.RecencyList

variable {Item : Type} {key asked : String} {resident other : Resident Item}
  {residents : List (Resident Item)} {budget incoming : Nat}

theorem find?_some (found : find? key residents = some resident) :
    resident ∈ residents ∧ resident.key = key := by
  refine ⟨List.mem_of_find?_eq_some found, ?_⟩
  have own := List.find?_some found
  exact eq_of_beq own

theorem mem_remove : resident ∈ remove key residents ↔ resident ∈ residents ∧ resident.key ≠ key := by
  simp [remove]

theorem mem_use_id : resident ∈ use key id residents ↔ resident ∈ residents ∧
    (resident.key = key → find? key residents = some resident) := by
  unfold use
  cases found : find? key residents with
  | none =>
      refine ⟨fun member => ⟨member, fun own => ?_⟩, fun both => both.1⟩
      have missing := List.find?_eq_none.mp found resident member
      simp [own] at missing
  | some first =>
      rcases find?_some found with ⟨present, own⟩
      simp only [id, List.mem_append, mem_remove, List.mem_singleton]
      constructor
      · rintro (⟨member, different⟩ | rfl)
        · exact ⟨member, fun same => absurd same different⟩
        · exact ⟨present, fun _ => rfl⟩
      · rintro ⟨member, only⟩
        by_cases same : resident.key = key
        · cases only same
          exact .inr rfl
        · exact .inl ⟨member, same⟩

theorem makeRoom_suffix (budget incoming : Nat) (residents : List (Resident Item)) :
    makeRoom budget incoming residents <:+ residents := by
  induction residents with
  | nil => exact List.suffix_refl _
  | cons first rest induction =>
      unfold makeRoom
      split
      · exact List.suffix_refl _
      · exact induction.trans (List.suffix_cons first rest)

theorem makeRoom_of_fits (fits : total residents + incoming ≤ budget) :
    makeRoom budget incoming residents = residents := by
  cases residents with
  | nil => rfl
  | cons first rest => rw [makeRoom, if_pos fits]

theorem mem_put (member : other ∈ put budget resident residents) :
    other = resident ∨ (other ∈ residents ∧ other.key ≠ resident.key) := by
  unfold put at member
  rcases List.mem_append.mp member with kept | new
  · exact .inr (mem_remove.mp ((makeRoom_suffix _ _ _).subset kept))
  · exact .inl (List.mem_singleton.mp new)

theorem find?_remove : find? asked (remove key residents) =
    if asked = key then none else find? asked residents := by
  unfold find? remove
  rw [List.find?_filter]
  split
  · rename_i same
    refine List.find?_eq_none.mpr fun resident _ => ?_
    simp [same]
  · rename_i different
    congr 1
    funext resident
    by_cases own : resident.key = asked
    · simp [own, different]
    · simp [own]

theorem find?_remove_append (own : resident.key = key) :
    find? asked (remove key residents ++ [resident]) =
      if asked = key then some resident else find? asked residents := by
  have removed : (remove key residents).find? (·.key == asked) = _ := find?_remove
  unfold find?
  rw [List.find?_append, removed]
  split
  · rename_i same
    simp [own, same]
  · rename_i different
    have other : (resident.key == asked) = false := by simp [own, Ne.symm different]
    rw [List.find?_cons_of_neg (by simp [other]), List.find?_nil, Option.or_none]
    rfl

theorem remove_of_find?_eq_none (missing : find? key residents = none) :
    remove key residents = residents := by
  refine List.filter_eq_self.mpr fun resident member => ?_
  have other := List.find?_eq_none.mp missing resident member
  simpa using other

theorem find?_use_id : find? asked (use key id residents) = find? asked residents := by
  unfold use
  cases found : find? key residents with
  | none => rfl
  | some first =>
      refine (find?_remove_append (find?_some found).2).trans ?_
      split
      · rename_i same
        rw [same, found]
      · rfl

/-! ## Distinct keys -/

/-- Every key stands once. -/
def Distinct (residents : List (Resident Item)) : Prop := (residents.map Resident.key).Nodup

theorem Distinct.find?_of_mem (distinct : Distinct residents) (member : resident ∈ residents) :
    find? resident.key residents = some resident := by
  unfold find?
  induction residents with
  | nil => cases member
  | cons first rest induction =>
      obtain ⟨unlike, distinct⟩ := List.nodup_cons.mp distinct
      rcases List.mem_cons.mp member with rfl | later
      · rw [List.find?_cons_of_pos (by simp)]
      · have different : first.key ≠ resident.key := fun same => unlike (same ▸ List.mem_map_of_mem later)
        rw [List.find?_cons_of_neg (by simpa using different)]
        exact induction distinct later

theorem Distinct.remove (distinct : Distinct residents) (key : String) :
    Distinct (remove key residents) :=
  (List.filter_sublist.map Resident.key).nodup distinct

theorem Distinct.append (distinct : Distinct residents)
    (fresh : ∀ other ∈ residents, other.key ≠ resident.key) : Distinct (residents ++ [resident]) := by
  unfold Distinct
  rw [List.map_append, List.nodup_append]
  refine ⟨distinct, List.pairwise_singleton _ _, ?_⟩
  intro known member last isLast
  rcases List.mem_map.mp member with ⟨other, there, rfl⟩
  rw [List.map_singleton, List.mem_singleton] at isLast
  rw [isLast]
  exact fresh other there

theorem Distinct.put (distinct : Distinct residents) (budget : Nat) (resident : Resident Item) :
    Distinct (put budget resident residents) := by
  have kept := makeRoom_suffix budget resident.size (RecencyList.remove resident.key residents)
  refine Distinct.append ((kept.sublist.map Resident.key).nodup (distinct.remove _)) ?_
  intro other member
  exact (mem_remove.mp (kept.subset member)).2

theorem Distinct.use_id (distinct : Distinct residents) (key : String) :
    Distinct (use key id residents) := by
  unfold use
  cases found : find? key residents with
  | none => exact distinct
  | some first =>
      refine (distinct.remove key).append fun other member => ?_
      exact (find?_some found).2 ▸ (mem_remove.mp member).2

theorem total_append (residents : List (Resident Item)) (resident : Resident Item) :
    total (residents ++ [resident]) = total residents + resident.size := by
  simp [total, sumOf_append]

theorem Distinct.total_remove (distinct : Distinct residents)
    (found : find? key residents = some resident) :
    total (RecencyList.remove key residents) + resident.size = total residents := by
  induction residents with
  | nil => cases found
  | cons first rest induction =>
      have parts := List.nodup_cons.mp distinct
      by_cases own : first.key = key
      · have missing : find? key rest = none := by
          refine List.find?_eq_none.mpr fun other member same => parts.1 ?_
          rw [own, ← eq_of_beq same]
          exact List.mem_map_of_mem member
        have removed : RecencyList.remove key (first :: rest) = rest := by
          rw [RecencyList.remove, List.filter_cons_of_neg (by simp [own])]
          exact remove_of_find?_eq_none missing
        rw [find?, List.find?_cons_of_pos (by simp [own])] at found
        cases found
        rw [removed]
        exact Nat.add_comm _ _
      · rw [find?, List.find?_cons_of_neg (by simp [own])] at found
        have later := induction parts.2 found
        have kept : RecencyList.remove key (first :: rest) =
            first :: RecencyList.remove key rest := List.filter_cons_of_pos (by simp [own])
        rw [kept]
        change first.size + total (RecencyList.remove key rest) + _ = first.size + total rest
        omega

theorem Distinct.total_use_id (distinct : Distinct residents) (key : String) :
    total (use key id residents) = total residents := by
  unfold use
  cases found : find? key residents with
  | none => rfl
  | some first => exact (total_append _ _).trans (distinct.total_remove found)

end TierVault.RecencyList
