import TierVault.Eviction
import TierVault.Proofs.Sums

/-!
Who is asked to leave a tier: entries of that tier which are not protected, each of them once.
-/

namespace TierVault

namespace Eviction

variable {needed freed : Nat} {list taken : List Candidate} {entries : List Entry} {tier : Tier}
  {protectedKeys : List String}

/-- Either enough is freed, or the first is taken and then some of the others. -/
theorem takeUntilFreed_cons {candidate : Candidate} {rest : List Candidate}
    (took : takeUntilFreed needed freed (candidate :: rest) = .ok taken) :
    (needed ≤ freed ∧ taken = []) ∨ (freed < needed ∧ ∃ others,
      takeUntilFreed needed (freed + candidate.size) rest = .ok others ∧ taken = candidate :: others) := by
  unfold takeUntilFreed at took
  split at took
  · rename_i enough
    cases took
    exact .inl ⟨enough, rfl⟩
  · rename_i lacking
    cases summed : Word.sum freed candidate.size with
    | error fault => simp [summed, bind, Except.bind] at took
    | ok more =>
        cases later : takeUntilFreed needed more rest with
        | error fault => simp [summed, later, bind, Except.bind] at took
        | ok others =>
            simp only [summed, later, bind, Except.bind, pure, Except.pure] at took
            cases took
            cases Word.sum_ok_eq summed
            exact .inr ⟨Nat.lt_of_not_le lacking, others, later, rfl⟩

theorem takeUntilFreed_begins (took : takeUntilFreed needed freed list = .ok taken) :
    taken <+: list := by
  induction list generalizing freed taken with
  | nil =>
      cases took
      exact List.nil_prefix
  | cons candidate rest induction =>
      obtain ⟨-, rfl⟩ | ⟨-, others, later, rfl⟩ := takeUntilFreed_cons took
      · exact List.nil_prefix
      · exact List.cons_prefix_cons.mpr ⟨rfl, induction later⟩

theorem takeUntilFreed_error {fault : Fault}
    (failed : takeUntilFreed needed freed list = .error fault) :
    fault = .sumOverflow ∧ Word.limit ≤ freed + sumOf (list.map Candidate.size) := by
  induction list generalizing freed with
  | nil => cases failed
  | cons candidate rest induction =>
      rw [List.map_cons, sumOf_cons]
      unfold takeUntilFreed at failed
      split at failed
      · cases failed
      · cases summed : Word.sum freed candidate.size with
        | error other =>
            simp only [summed, bind, Except.bind] at failed
            cases failed
            obtain ⟨same, large⟩ := Word.sum_error summed
            exact ⟨same, by omega⟩
        | ok more =>
            cases later : takeUntilFreed needed more rest with
            | ok others => simp [summed, later, bind, Except.bind, pure, Except.pure] at failed
            | error other =>
                simp only [summed, later, bind, Except.bind] at failed
                cases failed
                obtain ⟨same, large⟩ := induction later
                rw [Word.sum_ok_eq summed] at large
                exact ⟨same, by omega⟩

/-- The taken candidates free what is needed, or there are no others. -/
theorem takeUntilFreed_frees (took : takeUntilFreed needed freed list = .ok taken) :
    needed ≤ freed + sumOf (taken.map Candidate.size) ∨ taken = list := by
  induction list generalizing freed taken with
  | nil =>
      cases took
      exact .inr rfl
  | cons candidate rest induction =>
      obtain ⟨enough, rfl⟩ | ⟨-, others, later, rfl⟩ := takeUntilFreed_cons took
      · exact .inl (Nat.le_trans enough (Nat.le_add_right _ _))
      · rw [List.map_cons, sumOf_cons, ← Nat.add_assoc, List.cons.injEq]
        exact (induction later).imp id fun all => ⟨rfl, all⟩

/-- Fewer of the taken candidates do not free what is needed. -/
theorem takeUntilFreed_shortest {few : List Candidate} (took : takeUntilFreed needed freed list = .ok taken)
    (fewer : few <+: taken) (proper : few ≠ taken) :
    freed + sumOf (few.map Candidate.size) < needed := by
  induction list generalizing freed taken few with
  | nil =>
      cases took
      exact absurd (List.prefix_nil.mp fewer) proper
  | cons candidate rest induction =>
      obtain ⟨-, rfl⟩ | ⟨lacking, others, later, rfl⟩ := takeUntilFreed_cons took
      · exact absurd (List.prefix_nil.mp fewer) proper
      · cases few with
        | nil => exact lacking
        | cons first few =>
            obtain ⟨rfl, begins⟩ := List.cons_prefix_cons.mp fewer
            rw [List.map_cons, sumOf_cons, ← Nat.add_assoc]
            exact induction later begins fun same => proper (same ▸ rfl)

/-- The size of an entry that may be asked to leave the tier. -/
def freeIn (tier : Tier) (protectedKeys : List String) (entry : Entry) : Nat :=
  if entry.tier = tier ∧ entry.key ∉ protectedKeys then entry.size else 0

theorem sizes_candidates (entries : List Entry) (tier : Tier) (protectedKeys : List String) :
    sumOf ((candidates entries tier protectedKeys).map Candidate.size) =
      sumOf (entries.map (freeIn tier protectedKeys)) := by
  unfold candidates
  induction entries with
  | nil => rfl
  | cons entry rest induction =>
      by_cases free : entry.tier = tier ∧ entry.key ∉ protectedKeys
      · simpa [freeIn, free, Candidate.ofEntry] using induction
      · rw [List.map_cons, sumOf_cons, freeIn, if_neg free, Nat.zero_add, ← induction,
          List.filter_cons_of_neg (by simpa using free)]

theorem sizes_candidates_le (entries : List Entry) (tier : Tier) (protectedKeys : List String) :
    sumOf ((candidates entries tier protectedKeys).map Candidate.size) ≤
      sumOf (entries.map Entry.size) := by
  unfold candidates
  rw [List.map_map]
  exact sumOf_sublist (List.filter_sublist.map Entry.size)

theorem victims_error {fault : Fault}
    (failed : victims entries tier needed protectedKeys = .error fault) :
    fault = .sumOverflow ∧ Word.limit ≤ sumOf (entries.map Entry.size) := by
  obtain ⟨same, large⟩ := takeUntilFreed_error failed
  have sizes := sumOf_perm
    ((oldestFirst_perm (candidates entries tier protectedKeys)).map Candidate.size)
  have below := sizes_candidates_le entries tier protectedKeys
  exact ⟨same, by omega⟩

/-- The victims free what is needed, or all that the tier can free. -/
theorem victims_free (took : victims entries tier needed protectedKeys = .ok taken) :
    needed ≤ sumOf (taken.map Candidate.size) ∨
      sumOf (taken.map Candidate.size) =
        sumOf ((candidates entries tier protectedKeys).map Candidate.size) := by
  rcases takeUntilFreed_frees took with enough | all
  · rw [Nat.zero_add] at enough
    exact .inl enough
  · rw [all]
    exact .inr (sumOf_perm ((oldestFirst_perm _).map Candidate.size))

theorem victims_nothing : victims entries tier 0 protectedKeys = .ok [] := by
  unfold victims
  cases oldestFirst (candidates entries tier protectedKeys) <;> rfl

theorem mem_candidates {candidate : Candidate} : candidate ∈ candidates entries tier protectedKeys ↔
    ∃ entry ∈ entries, entry.tier = tier ∧ entry.key ∉ protectedKeys ∧ candidate = .ofEntry entry := by
  simp only [candidates, List.mem_map, List.mem_filter, Bool.and_eq_true, beq_iff_eq, Bool.not_eq_true',
    List.contains_eq_mem, decide_eq_false_iff_not, and_assoc, eq_comm (a := candidate)]

theorem mem_victims {victim : Candidate}
    (took : victims entries tier needed protectedKeys = .ok taken) (member : victim ∈ taken) :
    ∃ entry ∈ entries, entry.tier = tier ∧ entry.key ∉ protectedKeys ∧
      victim = .ofEntry entry := by
  have listed := (takeUntilFreed_begins took).sublist.subset member
  exact mem_candidates.mp ((oldestFirst_perm _).mem_iff.mp listed)

theorem nodup_candidates (distinct : (entries.map Entry.key).Nodup) :
    ((candidates entries tier protectedKeys).map Candidate.key).Nodup := by
  unfold candidates
  rw [List.map_map]
  exact (List.filter_sublist.map Entry.key).nodup distinct

theorem nodup_victims (took : victims entries tier needed protectedKeys = .ok taken)
    (distinct : (entries.map Entry.key).Nodup) : (taken.map Candidate.key).Nodup := by
  refine ((takeUntilFreed_begins took).sublist.map Candidate.key).nodup ?_
  exact (((oldestFirst_perm _).map Candidate.key).nodup_iff).mpr (nodup_candidates distinct)

end Eviction

end TierVault
