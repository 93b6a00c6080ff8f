import Mathlib.Data.List.Nodup
import Mathlib.Data.List.Perm.Basic
import TierVault.Proofs.Eviction
import TierVault.Proofs.Heap

/-!
In which order entries are asked to leave a tier, and how many of them.

Candidates leave a heap by age, so those that free enough are the oldest ones, and no fewer would do. Two
candidates of one age come in an order that depends on how the entries are listed; where there are none such, the
listing does not matter.
-/

namespace TierVault

/-! ## Order of use -/

namespace Recency

/-- `left` is older than `right`. -/
def Before (left right : Recency) : Prop :=
  left.lastAccess ≤ right.lastAccess ∧ left.tick < right.tick

instance (left right : Recency) : Decidable (left.Before right) :=
  inferInstanceAs (Decidable (_ ∧ _))

theorem notAfter_iff {left right : Recency} : left.notAfter right = true ↔
    left.lastAccess < right.lastAccess ∨
      left.lastAccess = right.lastAccess ∧ left.tick ≤ right.tick := by
  simp [notAfter]

theorem Before.notAfter {left right : Recency} (before : Before left right) :
    left.notAfter right = true := by
  obtain ⟨access, tick⟩ := before
  rw [notAfter_iff]
  omega

theorem eq_of_notAfter {left right : Recency} (one : left.notAfter right = true)
    (other : right.notAfter left = true) : left = right := by
  obtain ⟨leftAccess, leftTick⟩ := left
  obtain ⟨rightAccess, rightTick⟩ := right
  simp only [notAfter_iff] at one other
  rw [Recency.mk.injEq]
  omega

theorem isLE_compare (left right : Recency) : (compare left right).isLE = left.notAfter right := by
  rw [Bool.eq_iff_iff, notAfter_iff, compare, Ordering.isLE_then_iff_or, Nat.compare_eq_lt, Nat.compare_eq_eq,
    Nat.isLE_compare]

end Recency

namespace Eviction

variable {needed : Nat} {list : List Candidate} {entries others : List Entry} {tier : Tier}
  {protectedKeys : List String}

/-- The older of two candidates is at least as great as the other one. -/
theorem isLE_priority (left right : Candidate) :
    (left.priority right).isLE = right.recency.notAfter left.recency :=
  Recency.isLE_compare right.recency left.recency

theorem ranking_priority : Heap.Ranking fun left right : Candidate => (left.priority right).isLE where
  total left right := by
    simp only [isLE_priority, Recency.notAfter_iff]
    omega
  trans {first second third} := by
    simp only [isLE_priority, Recency.notAfter_iff]
    omega

/-- A heap hands candidates out by age, so there is nothing left to sort. -/
theorem oldestFirst_eq_release (candidates : List Candidate) : oldestFirst candidates =
    Heap.release (fun left right => (left.priority right).isLE) candidates := by
  refine List.mergeSort_of_pairwise ((Heap.release_pairwise ranking_priority candidates).imp ?_)
  intro earlier later least
  rwa [isLE_priority] at least

theorem oldestFirst_pairwise (candidates : List Candidate) :
    (oldestFirst candidates).Pairwise fun left right => left.recency.notAfter right.recency = true := by
  rw [oldestFirst_eq_release]
  refine (Heap.release_pairwise ranking_priority candidates).imp fun {earlier later} least => ?_
  rwa [isLE_priority] at least

/-- Candidates that are sorted by age, and of which no two are equally old, are taken in that order, however they
are listed. -/
theorem oldestFirst_of_sorted {candidates sorted : List Candidate}
    (byAge : sorted.Pairwise fun left right => left.recency.notAfter right.recency = true)
    (distinct : (sorted.map Candidate.recency).Nodup) (same : candidates.Perm sorted) :
    oldestFirst candidates = sorted := by
  have perm := (oldestFirst_perm candidates).trans same
  refine perm.eq_of_pairwise ?_ (oldestFirst_pairwise candidates) byAge
  intro left right among member one other
  exact List.inj_on_of_nodup_map distinct (perm.subset among) member (Recency.eq_of_notAfter one other)

/-- Where no two candidates are equally old, the order in which they are listed does not matter. -/
theorem oldestFirst_perm_eq {candidates listed : List Candidate} (distinct : (candidates.map Candidate.recency).Nodup)
    (same : listed.Perm candidates) : oldestFirst listed = oldestFirst candidates := by
  have perm := oldestFirst_perm candidates
  exact oldestFirst_of_sorted (oldestFirst_pairwise candidates)
    ((perm.map Candidate.recency).nodup_iff.mpr distinct) (same.trans perm.symm)

/-- Each candidate was used after all those ahead of it. -/
abbrev ByAge (candidates : List Candidate) : Prop :=
  candidates.Pairwise fun left right => left.recency.Before right.recency

/-- Candidates that can be put in order are taken in that order, however they are listed. -/
theorem oldestFirst_of_perm {candidates ordered : List Candidate} (byAge : ByAge ordered)
    (same : candidates.Perm ordered) : oldestFirst candidates = ordered := by
  refine oldestFirst_of_sorted (byAge.imp Recency.Before.notAfter) ?_ same
  refine List.pairwise_map.mpr (byAge.imp fun before same => ?_)
  exact Nat.ne_of_lt before.2 (congrArg Recency.tick same)

/-- The evictor takes candidates that are in order as they are. -/
theorem oldestFirst_of_byAge {candidates : List Candidate} (ordered : ByAge candidates) :
    oldestFirst candidates = candidates :=
  oldestFirst_of_perm ordered (.refl candidates)

/-! ## Victims -/

/-- Of the entries that may be asked to leave the tier, the oldest leave: as few as free what is needed, or all of
them where that is not enough. -/
structure Oldest (entries : List Entry) (tier : Tier) (needed : Nat) (protectedKeys : List String)
    (leaving staying : List Entry) : Prop where
  all : (leaving ++ staying).Perm
    (entries.filter fun entry => entry.tier = tier ∧ entry.key ∉ protectedKeys)
  byAge : leaving.Pairwise fun one other => one.recency.notAfter other.recency = true
  oldest : ∀ one ∈ leaving, ∀ other ∈ staying, one.recency.notAfter other.recency = true
  enough : needed ≤ sumOf (leaving.map Entry.size) ∨ staying = []
  shortest : leaving ≠ [] → sumOf (leaving.dropLast.map Entry.size) < needed

theorem candidates_eq (entries : List Entry) (tier : Tier) (protectedKeys : List String) :
    candidates entries tier protectedKeys =
      (entries.filter fun entry => entry.tier = tier ∧ entry.key ∉ protectedKeys).map Candidate.ofEntry := by
  refine congrArg (List.map Candidate.ofEntry) (List.filter_congr fun entry _ => ?_)
  rw [Bool.eq_iff_iff]
  simp

/-- The candidates by age are the entries by age. -/
theorem exists_aged (entries : List Entry) (tier : Tier) (protectedKeys : List String) :
    ∃ aged : List Entry,
      aged.Perm (entries.filter fun entry => entry.tier = tier ∧ entry.key ∉ protectedKeys) ∧
        oldestFirst (candidates entries tier protectedKeys) = aged.map Candidate.ofEntry ∧
          aged.Pairwise fun one other => one.recency.notAfter other.recency = true := by
  have perm := oldestFirst_perm (candidates entries tier protectedKeys)
  have sorted := oldestFirst_pairwise (candidates entries tier protectedKeys)
  generalize oldestFirst (candidates entries tier protectedKeys) = ordered at perm sorted ⊢
  rw [candidates_eq] at perm
  obtain ⟨aged, rfl, same⟩ : Relation.Comp (· = List.map Candidate.ofEntry ·) List.Perm ordered
      (entries.filter fun entry => entry.tier = tier ∧ entry.key ∉ protectedKeys) := by
    rwa [List.eq_map_comp_perm]
  exact ⟨aged, same, rfl, List.pairwise_map.mp sorted⟩

theorem sizes_ofEntry (list : List Entry) :
    sumOf ((list.map Candidate.ofEntry).map Candidate.size) = sumOf (list.map Entry.size) := by
  rw [List.map_map]
  rfl

/-- Victims that are told are the oldest, and no more of them than are needed. -/
theorem oldest_of_victims {taken : List Candidate}
    (took : victims entries tier needed protectedKeys = .ok taken) :
    ∃ leaving staying, taken = leaving.map Candidate.ofEntry ∧
      Oldest entries tier needed protectedKeys leaving staying := by
  obtain ⟨aged, perm, sorted, byAge⟩ := exists_aged entries tier protectedKeys
  unfold victims at took
  rw [sorted] at took
  obtain ⟨others, whole⟩ := takeUntilFreed_begins took
  obtain ⟨leaving, staying, rfl, rfl, rfl⟩ := List.map_eq_append_iff.mp whole.symm
  obtain ⟨young, -, apart⟩ := List.pairwise_append.mp byAge
  refine ⟨leaving, staying, rfl, perm, young, apart, ?_, fun some => ?_⟩
  · refine (takeUntilFreed_frees took).imp (fun enough => ?_) fun all => ?_
    · rwa [Nat.zero_add, sizes_ofEntry] at enough
    · rwa [List.map_append, List.self_eq_append_right, List.map_eq_nil_iff] at all
  · have fewer := takeUntilFreed_shortest took (List.dropLast_prefix _) fun same => ?_
    · rwa [Nat.zero_add, ← List.map_dropLast, sizes_ofEntry] at fewer
    · have shorter := congrArg List.length same
      rw [List.length_dropLast, List.length_map] at shorter
      have := List.length_pos_iff.mpr some
      omega

/-- As long as the sizes can be added up, a tier names its oldest entries as victims, and no more of them than are
needed. Where no two of those that may leave are equally old, they are the same for every listing of the entries. -/
theorem victims_oldest (tier : Tier) (needed : Nat) (protectedKeys : List String)
    (fits : sumOf (entries.map Entry.size) < Word.limit) :
    ∃ leaving staying, victims entries tier needed protectedKeys = .ok (leaving.map Candidate.ofEntry) ∧
      Oldest entries tier needed protectedKeys leaving staying ∧
        (((leaving ++ staying).map Entry.recency).Nodup → ∀ listed, listed.Perm entries →
          victims listed tier needed protectedKeys = .ok (leaving.map Candidate.ofEntry)) := by
  cases took : victims entries tier needed protectedKeys with
  | error fault => exact absurd (victims_error took).2 (Nat.not_le.mpr fits)
  | ok taken =>
      obtain ⟨leaving, staying, rfl, leave⟩ := oldest_of_victims took
      refine ⟨leaving, staying, rfl, leave, fun distinct listed same => ?_⟩
      have apart : ((candidates entries tier protectedKeys).map Candidate.recency).Nodup := by
        rw [candidates_eq, List.map_map]
        exact (leave.all.map Entry.recency).nodup_iff.mp distinct
      have ordered : oldestFirst (candidates listed tier protectedKeys) =
          oldestFirst (candidates entries tier protectedKeys) :=
        oldestFirst_perm_eq apart ((same.filter _).map Candidate.ofEntry)
      rwa [victims, ordered]

/-- Two of the entries were used at one reading of the clock. -/
def tied : List Entry :=
  [.create "c" 40 .memory none 3 7, .create "p" 10 .memory none 1 2, .create "s" 50 .sqlite none 0 1,
    .create "b" 30 .memory none 2 7, .create "a" 20 .memory none 5 4, .create "d" 60 .memory none 4 9]

theorem victims_oldest_tied :
    sumOf (tied.map Entry.size) < Word.limit ∧
      ∃ leaving staying, victims tied .memory 60 ["p"] = .ok (leaving.map Candidate.ofEntry) ∧
        leaving.map Entry.key = ["a", "b", "c"] ∧ Oldest tied .memory 60 ["p"] leaving staying ∧
          ((leaving ++ staying).map Entry.recency).Nodup ∧
            victims tied.reverse .memory 60 ["p"] = .ok (leaving.map Candidate.ofEntry) := by
  have fits : sumOf (tied.map Entry.size) < Word.limit := by decide
  obtain ⟨leaving, staying, took, oldest, same⟩ := victims_oldest .memory 60 ["p"] fits
  have chosen : victims tied .memory 60 ["p"] =
      .ok [⟨"a", 20, 4, 5⟩, ⟨"b", 30, 7, 2⟩, ⟨"c", 40, 7, 3⟩] := by
    rw [victims, oldestFirst_eq_release]
    decide +kernel
  have distinct : ((leaving ++ staying).map Entry.recency).Nodup :=
    (oldest.all.map Entry.recency).nodup_iff.mpr (by decide)
  refine ⟨fits, leaving, staying, took, ?_, oldest, distinct, same distinct _ (List.reverse_perm _)⟩
  have keys : leaving.map Entry.key = (leaving.map Candidate.ofEntry).map Candidate.key := by
    rw [List.map_map]
    rfl
  rw [keys, Except.ok.inj (took.symm.trans chosen)]
  rfl

end Eviction

end TierVault
