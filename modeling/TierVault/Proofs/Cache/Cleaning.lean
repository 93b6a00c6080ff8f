import Mathlib.Algebra.GroupWithZero.Nat
import TierVault.Proofs.Cache.Accounting

/-!
What is left when the expired entries are removed.

Removing the expired entries leaves exactly the others. It looks at the clock once; a reclaim looks at it once
before, to add up the bytes that it tells. What expires between the two is removed, but not told.
-/

namespace TierVault

variable {World : Type}

theorem Entry.isExpired_mono {entry : Entry} {now later : Nat} (forward : now ≤ later)
    (expired : entry.isExpired now = true) : entry.isExpired later = true := by
  unfold isExpired at expired ⊢
  split at expired
  · have old := of_decide_eq_true expired
    exact decide_eq_true (Nat.le_trans old (Nat.sub_le_sub_right forward _))
  · cases expired

namespace CacheState

variable {setup : CacheSetup World} {state final : CacheState World} {key : String}

/-! ## The entries that stay -/

theorem Removes.entries {removed : Bool} (removes : Removes setup key state removed final) :
    final.entries = Keyed.remove key state.entries := by
  cases removes with
  | missing unknown => exact (Keyed.remove_of_find?_eq_none unknown).symm
  | removed => rfl

theorem RemovesAll.entries {keys : List String} (removes : RemovesAll setup keys state final) :
    final.entries = state.entries.filter fun pair => pair.1 ∉ keys := by
  induction removes with
  | nil => exact (List.filter_eq_self.mpr fun _ _ => rfl).symm
  | cons first _ induction =>
      rw [induction, first.entries, Keyed.remove, List.filter_filter]
      refine List.filter_congr fun pair _ => ?_
      simp [Bool.and_comm]

/-- Among distinct keys, a key is one of the expired ones exactly if its own entry is expired. -/
theorem mem_expiredKeys (distinct : Keyed.Distinct state.entries) {pair : String × Entry}
    (member : pair ∈ state.entries) (now : Nat) :
    pair.1 ∈ state.expiredKeys now ↔ pair.2.isExpired now = true := by
  unfold expiredKeys
  constructor
  · intro among
    obtain ⟨other, isExpired, same⟩ := List.mem_map.mp among
    obtain ⟨there, late⟩ := List.mem_filter.mp isExpired
    have mine : Keyed.find? pair.1 state.entries = some pair.2 := distinct.find?_of_mem member
    have others : Keyed.find? other.1 state.entries = some other.2 := distinct.find?_of_mem there
    rw [same, mine] at others
    rwa [Option.some.inj others]
  · intro late
    exact List.mem_map.mpr ⟨pair, List.mem_filter.mpr ⟨member, late⟩, rfl⟩

/-- A cleanup leaves exactly the entries that are not expired when it looks at the clock. -/
theorem Cleans.entries {count : Nat} (cleans : Cleans setup state count final) (start : state.Tallied setup) :
    final.entries = state.entries.filter fun pair => !pair.2.isExpired (setup.clock state.readings) := by
  cases cleans with
  | @cleaned middle removed =>
      have kept : middle.entries = state.entries.filter fun pair =>
          pair.1 ∉ state.expiredKeys (setup.clock state.readings) := removed.entries
      refine kept.trans (List.filter_congr fun pair member => ?_)
      have expired := mem_expiredKeys start.distinct member (setup.clock state.readings)
      cases late : pair.2.isExpired (setup.clock state.readings) <;> simp [expired, late]

/-! ## Bytes -/

/-- What the cache tells of all its tiers together. -/
def used (state : CacheState World) : Nat :=
  sumOf (Tier.all.map fun tier => ((CacheStatistics.ofState state).usage.get tier).bytes)

/-- The bytes of the entries for which `which` holds. -/
def bytesWhere (state : CacheState World) (which : Entry → Bool) : Nat :=
  sumOf ((state.entryList.filter which).map Entry.size)

theorem bytesWhere_eq_weigh (which : Entry → Bool) : state.bytesWhere which =
    Keyed.weigh (fun entry => if which entry then entry.size else 0) state.entries :=
  Keyed.sumOf_filter which Entry.size state.entries

theorem Tallied.used_eq_total (tallied : state.Tallied setup) : state.used = state.total :=
  tallied.total_eq_sum.symm

/-- Nothing weighs nothing but where there is nothing of any weight. -/
theorem bytesWhere_eq_zero_iff (which : Entry → Bool) : state.bytesWhere which = 0 ↔
    ∀ entry ∈ state.entryList, which entry = true → entry.size = 0 := by
  unfold bytesWhere
  induction state.entryList with
  | nil => simp
  | cons entry rest induction =>
      cases holds : which entry <;> simp [holds, induction]

/-- The bytes of all entries: those that were expired, those that came to be so, and those that are not. -/
theorem total_eq_of_expired (state : CacheState World) {now later : Nat} (forward : now ≤ later) : state.total =
    state.bytesWhere (·.isExpired now) +
      state.bytesWhere (fun entry => !entry.isExpired now && entry.isExpired later) +
      Keyed.weigh Entry.size (state.entries.filter fun pair => !pair.2.isExpired later) := by
  rw [total_eq, bytesWhere_eq_weigh, bytesWhere_eq_weigh]
  induction state.entries with
  | nil => rfl
  | cons head rest induction =>
      obtain ⟨key, entry⟩ := head
      simp only [Keyed.weigh_cons, induction]
      cases late : entry.isExpired later with
      | true => cases early : entry.isExpired now <;> simp [late] <;> omega
      | false =>
          have early : entry.isExpired now = false := by
            cases early : entry.isExpired now with
            | false => rfl
            | true => cases (Entry.isExpired_mono forward early).symm.trans late
          simp [late, early]
          omega

/-- What a reclaim tells and what it leaves, with what expired too late to be told, is what was there. -/
theorem Reclaims.used_eq {told : Nat} (reclaims : Reclaims setup state told final) (start : state.Tallied setup)
    (forward : setup.clock state.readings ≤ setup.clock (state.readings + 1)) :
    told = state.bytesWhere (·.isExpired (setup.clock state.readings)) ∧
      told + state.bytesWhere (fun entry => !entry.isExpired (setup.clock state.readings) &&
        entry.isExpired (setup.clock (state.readings + 1))) + final.used = state.used := by
  have after := (reclaims.restrained start).tallied
  cases reclaims with
  | reclaimed cleans =>
      have left : final.entries = state.entries.filter fun pair =>
          !pair.2.isExpired (setup.clock (state.readings + 1)) := cleans.entries start.timed
      have parts := total_eq_of_expired state forward
      refine ⟨rfl, ?_⟩
      rw [after.used_eq_total, start.used_eq_total, parts, total_eq, left]
      rfl

end CacheState

namespace TieredCache

open TierVault.Action CacheState

variable {faults : Fault → Prop} {setup : CacheSetup World} {sound : World → Prop} {state : CacheState World}

/-! ## Removing ends

Nothing is counted in, so that no sum of the books can be too large, whatever is in them. -/

theorem leads_removeEntry_of_tallied (steady : setup.Steady faults sound) (tallied : state.Tallied setup)
    (isSound : sound state.world) (key : String) :
    Leads faults (removeEntry setup key) state fun _ final =>
      final.Tallied setup ∧ sound final.world := by
  refine leads_removeEntry steady isSound (fun _ => tallied.covers) (fun _ => ⟨tallied, isSound⟩) ?_
  exact fun entry answer world found _ stays => ⟨(tallied.forget found).inWorld world, stays⟩

theorem leads_cleanupExpired_of_tallied (steady : setup.Steady faults sound) (tallied : state.Tallied setup)
    (isSound : sound state.world) :
    Leads faults (cleanupExpired setup) state fun _ final => final.Tallied setup ∧ sound final.world := by
  simp only [cleanupExpired, leads_bind, leads_readClock, leads_get, leads_countExpired, leads_pure]
  refine (leads_forM (fun _ middle => middle.Tallied setup ∧ sound middle.world) ?_
    ⟨tallied.timed, isSound⟩).imp ?_
  · rintro ⟨key, entry⟩ rest middle ⟨books, stays⟩
    simp only [leads_bind, leads_pure]
    exact leads_removeEntry_of_tallied steady books stays key
  · rintro _ final - ⟨books, stays⟩
    exact ⟨books.counted _, stays⟩

theorem cleanupExpired_ends (answers : setup.Answers) (tallied : state.Tallied setup) :
    ∃ count final, cleanupExpired setup state = .ok count final := by
  obtain ⟨count, final, ended, -⟩ := (leads_cleanupExpired_of_tallied answers tallied trivial).ends fun _ => id
  exact ⟨count, final, ended⟩

/-! ## What a reclaim tells -/

/-- A reclaim adds up before it removes anything, and stops exactly if the sum is no word. -/
theorem reclaimExpired_ends (answers : setup.Answers) (tallied : state.Tallied setup) :
    if state.bytesWhere (·.isExpired (setup.clock state.readings)) < Word.limit
      then ∃ told final, reclaimExpired setup state = .ok told final
      else ∃ final, reclaimExpired setup state = .error .sumOverflow final := by
  have summed : Word.total
      ((state.timed.entryList.filter (·.isExpired (setup.clock state.readings))).map Entry.size) =
        if state.bytesWhere (·.isExpired (setup.clock state.readings)) < Word.limit
          then .ok (state.bytesWhere (·.isExpired (setup.clock state.readings)))
          else .error .sumOverflow := Word.total_eq _
  split
  · rename_i small
    rw [if_pos small] at summed
    have leads : Leads (fun _ => False) (reclaimExpired setup) state fun _ _ => True := by
      simp only [reclaimExpired, leads_bind, leads_readClock, leads_get, summed, leads_ofExcept_ok]
      exact (leads_cleanupExpired_of_tallied answers tallied.timed trivial).imp fun _ _ _ _ => trivial
    obtain ⟨told, final, ended, -⟩ := leads.ends fun _ => id
    exact ⟨told, final, ended⟩
  · rename_i large
    rw [if_neg large] at summed
    have leads : Leads (· = .sumOverflow) (reclaimExpired setup) state fun _ _ => False := by
      simp only [reclaimExpired, leads_bind, leads_readClock, leads_get, summed]
      refine leads_ofExcept _ _ _ (fun fault failed => (Except.error.inj failed).symm) fun told ended => ?_
      cases ended
    cases ended : reclaimExpired setup state with
    | ok told final => exact (leads.of_ok ended).elim
    | error fault final => exact ⟨final, leads.of_error ended ▸ rfl⟩

/-- In every state whose books tally, a reclaim tells the bytes of the entries that are expired when it first looks
at the clock. What its tiers hold less after it are these and the bytes of the entries that expire until it looks
again; so the number is the bytes it freed exactly if what expires between has no bytes. Where the stores answer,
it ends exactly if the number is a word. -/
theorem reclaimExpired_told (setup : CacheSetup World) (tallied : state.Tallied setup)
    (forward : setup.clock state.readings ≤ setup.clock (state.readings + 1)) :
    (∀ told final, reclaimExpired setup state = .ok told final →
      told = state.bytesWhere (·.isExpired (setup.clock state.readings)) ∧
      told + state.bytesWhere (fun entry => !entry.isExpired (setup.clock state.readings) &&
        entry.isExpired (setup.clock (state.readings + 1))) + final.used = state.used ∧
      (told = state.used - final.used ↔
        ∀ entry ∈ state.entryList, entry.isExpired (setup.clock (state.readings + 1)) = true →
          entry.isExpired (setup.clock state.readings) = true ∨ entry.size = 0)) ∧
    (setup.Answers →
      if state.bytesWhere (·.isExpired (setup.clock state.readings)) < Word.limit
        then ∃ told final, reclaimExpired setup state = .ok told final
        else ∃ final, reclaimExpired setup state = .error .sumOverflow final) := by
  refine ⟨fun told final ended => ?_, fun answers => reclaimExpired_ends answers tallied⟩
  have reclaims : Reclaims setup state told final := outcome_of_ok tallied .reclaimExpired ended
  obtain ⟨sum, parts⟩ := reclaims.used_eq tallied forward
  refine ⟨sum, parts, ?_⟩
  have exact_iff : told = state.used - final.used ↔ state.bytesWhere (fun entry =>
      !entry.isExpired (setup.clock state.readings) && entry.isExpired (setup.clock (state.readings + 1))) = 0 := by
    omega
  rw [exact_iff, bytesWhere_eq_zero_iff]
  refine forall_congr' fun entry => imp_congr_right fun _ => ?_
  cases entry.isExpired (setup.clock state.readings) <;> simp

/-- Stores in memory, and a clock that counts how often it is read. -/
def counting : CacheSetup (PerTier (Switched MemoryWorld)) :=
  .switched { budgets := ⟨50, 50, 2 ^ 63, 2 ^ 63⟩ } none id

theorem leads_counting_expiring : Leads (fun _ => False)
    (runAll counting [.put "left" .null (some 0), .put "right" .null (some 2)])
    (.start counting (.const ⟨[], []⟩)) fun _ state =>
      state.bytesWhere (·.isExpired (counting.clock state.readings)) = 4 ∧
      state.bytesWhere (fun entry => !entry.isExpired (counting.clock state.readings) &&
        entry.isExpired (counting.clock (state.readings + 1))) = 4 := by
  decide +kernel

/-- One of two entries is expired when the reclaim begins, and the other when it looks at the clock again. -/
theorem reclaimExpired_told_partly :
    ∃ history state told final,
      runAll counting [.put "left" .null (some 0), .put "right" .null (some 2)]
        (.start counting (.const ⟨[], []⟩)) = .ok history state ∧
      reclaimExpired counting state = .ok told final ∧ told = 4 ∧ told + 4 + final.used = state.used := by
  obtain ⟨history, state, reached, expired, expiring⟩ := leads_counting_expiring.ends fun _ => id
  have tallied := (lives_of_ok (.start _) reached).2.tallied
  have answers : counting.Answers := CacheSetup.answers_of_stores (CacheSetup.switched_answers _ none id)
  obtain ⟨tells, ends⟩ := reclaimExpired_told counting tallied (Nat.le_succ _)
  have small := ends answers
  rw [expired, if_pos (by decide)] at small
  obtain ⟨told, final, ended⟩ := small
  obtain ⟨sum, parts, -⟩ := tells told final ended
  rw [expiring] at parts
  exact ⟨history, state, told, final, reached, ended, sum.trans expired, parts⟩

theorem leads_counting_late : Leads (fun _ => False)
    (runAll counting [.put "left" .null (some 2)]) (.start counting (.const ⟨[], []⟩)) fun _ state =>
      Leads (fun _ => False) (reclaimExpired counting) state fun told final =>
        told = 0 ∧ state.used - final.used = 4 := by
  decide +kernel

/-- Two entries, each within the capacity of its tier, whose bytes together are no word. -/
def overfull : CacheState (PerTier (Switched MemoryWorld)) :=
  ((CacheState.start counting (.const ⟨[], []⟩)).enroll "left"
    (.create "left" (2 ^ 63) .columnar (some 0) 1 0)).enroll "right"
    (.create "right" (2 ^ 63) .compressed (some 0) 2 0)

theorem overfull_balanced : overfull.Balanced counting := by
  constructor
  · unfold overfull
    refine Tallied.enroll (Tallied.enroll (.start _) ?_ ?_) ?_ ?_ <;> rfl
  · intro tier
    cases tier with
    | memory | sqlite => exact Nat.zero_le _
    | columnar | compressed => exact Nat.le_refl (2 ^ 63)

/-- What a reclaim tells need not be what it frees, and it need not tell anything. One entry expires between the
two looks at the clock, so that its 4 bytes are freed and 0 are told; and the bytes of two tiers, each within its
capacity, are no word together, so that the reclaim stops. -/
theorem reclaimExpired_untold :
    (∀ first second, first ≤ second → counting.clock first ≤ counting.clock second) ∧
    (∃ history state final,
      runAll counting [.put "left" .null (some 2)] (.start counting (.const ⟨[], []⟩)) = .ok history state ∧
      state.Balanced counting ∧ reclaimExpired counting state = .ok 0 final ∧ state.used - final.used = 4) ∧
    overfull.Balanced counting ∧ ∃ final, reclaimExpired counting overfull = .error .sumOverflow final := by
  refine ⟨fun _ _ => id, ?_, overfull_balanced, ?_⟩
  · obtain ⟨history, state, reached, reclaims⟩ := leads_counting_late.ends fun _ => id
    obtain ⟨told, final, ended, rfl, freed⟩ := reclaims.ends fun _ => id
    exact ⟨history, state, final, reached, (lives_of_ok (.start _) reached).2.balanced (.start _), ended, freed⟩
  · have answers : counting.Answers := CacheSetup.answers_of_stores (CacheSetup.switched_answers _ none id)
    have ends := reclaimExpired_ends answers overfull_balanced.toTallied
    rwa [if_neg (by decide)] at ends

end TieredCache

end TierVault
