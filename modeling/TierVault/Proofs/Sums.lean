import TierVault.Fault
import TierVault.Sums

/-!
Sums of lists, and sums that are words.
-/

namespace TierVault

theorem sumOf_perm {left right : List Nat} (perm : left.Perm right) : sumOf left = sumOf right := by
  induction perm with
  | nil => rfl
  | cons number _ induction => rw [sumOf_cons, sumOf_cons, induction]
  | swap first second rest =>
      simp only [sumOf_cons]
      omega
  | trans _ _ first second => exact first.trans second

theorem sumOf_sublist {few many : List Nat} (sublist : few.Sublist many) :
    sumOf few ≤ sumOf many := by
  induction sublist with
  | slnil => exact Nat.le_refl _
  | cons number _ induction =>
      rw [sumOf_cons]
      omega
  | cons_cons number _ induction =>
      rw [sumOf_cons, sumOf_cons]
      omega

theorem sumOf_map_le {Item : Type} {small large : Item → Nat} {items : List Item}
    (below : ∀ item ∈ items, small item ≤ large item) :
    sumOf (items.map small) ≤ sumOf (items.map large) := by
  induction items with
  | nil => exact Nat.le_refl _
  | cons item rest induction =>
      have parts := List.forall_mem_cons.mp below
      exact Nat.add_le_add parts.1 (induction parts.2)

namespace Word

theorem sum_ok_eq {left right result : Nat} (summed : sum left right = .ok result) :
    result = left + right := by
  unfold sum at summed
  split at summed
  · cases summed
    rfl
  · cases summed

theorem sum_ok_lt {left right result : Nat} (summed : sum left right = .ok result) :
    left + right < limit := by
  unfold sum at summed
  split at summed
  · assumption
  · cases summed

theorem sum_error {left right : Nat} {fault : Fault} (failed : sum left right = .error fault) :
    fault = .sumOverflow ∧ limit ≤ left + right := by
  unfold sum at failed
  split at failed
  · cases failed
  · cases failed
    exact ⟨rfl, by omega⟩

theorem foldlM_sum_ok_eq {start result : Nat} {list : List Nat}
    (summed : list.foldlM sum start = .ok result) : result = start + sumOf list := by
  induction list generalizing start with
  | nil =>
      cases summed
      rfl
  | cons number rest induction =>
      rw [List.foldlM_cons] at summed
      cases first : sum start number with
      | error fault =>
          rw [first] at summed
          cases summed
      | ok next =>
          rw [first] at summed
          rw [induction summed, sum_ok_eq first, sumOf_cons, Nat.add_assoc]

theorem foldlM_sum_error {start : Nat} {list : List Nat} {fault : Fault}
    (failed : list.foldlM sum start = .error fault) :
    fault = .sumOverflow ∧ limit ≤ start + sumOf list := by
  induction list generalizing start with
  | nil => cases failed
  | cons number rest induction =>
      rw [List.foldlM_cons] at failed
      rw [sumOf_cons]
      cases first : sum start number with
      | error other =>
          rw [first] at failed
          cases failed
          obtain ⟨same, large⟩ := sum_error first
          exact ⟨same, by omega⟩
      | ok next =>
          rw [first] at failed
          obtain ⟨same, large⟩ := induction failed
          rw [sum_ok_eq first] at large
          exact ⟨same, by omega⟩

theorem total_ok_eq {result : Nat} {list : List Nat} (summed : total list = .ok result) :
    result = sumOf list := by
  rw [foldlM_sum_ok_eq summed, Nat.zero_add]

theorem total_error {list : List Nat} {fault : Fault} (failed : total list = .error fault) :
    fault = .sumOverflow ∧ limit ≤ sumOf list := by
  have large := foldlM_sum_error failed
  rwa [Nat.zero_add] at large

theorem foldlM_sum_ok_lt {start result : Nat} {list : List Nat} (small : start < limit)
    (summed : list.foldlM sum start = .ok result) : result < limit := by
  induction list generalizing start with
  | nil =>
      cases summed
      exact small
  | cons number rest induction =>
      rw [List.foldlM_cons] at summed
      cases first : sum start number with
      | error fault =>
          rw [first] at summed
          cases summed
      | ok next =>
          rw [first] at summed
          exact induction (sum_ok_eq first ▸ sum_ok_lt first) summed

/-- Numbers are added up exactly if their sum is a word. -/
theorem total_eq (list : List Nat) :
    total list = if sumOf list < limit then .ok (sumOf list) else .error .sumOverflow := by
  cases summed : total list with
  | ok result =>
      have small := foldlM_sum_ok_lt (Nat.two_pow_pos 64) summed
      rw [total_ok_eq summed] at small ⊢
      rw [if_pos small]
  | error fault =>
      obtain ⟨rfl, large⟩ := total_error summed
      rw [if_neg (Nat.not_lt.mpr large)]

end Word

end TierVault
