import TierVault.Proofs.Cache.Runs

/-!
When making room in a tier fails, whatever the stores answer.

Room is made for the value of one key, whose entry stays where it is. Every other entry leaves the tier when it is
asked to: where it does not come through to the next tier it is evicted. So there is room in the end, unless the
entry of the key is in the way. A put that is not taken therefore found no tier large enough, and changed
nothing, or made room for a value that the store of the tier then refused.
-/

namespace TierVault

variable {World : Type}

namespace CacheState

variable {setup : CacheSetup World} {state final : CacheState World} {key : String} {entry : Entry}
  {value : Value} {tier hottest : Tier} {kept : List String} {size : Nat}

/-! ## What may leave -/

/-- No kept key but this one has an entry in the tier or a colder one. -/
def Alone (key : String) (kept : List String) (tier : Tier) (state : CacheState World) : Prop :=
  ∀ other ∈ kept, other ≠ key → ∀ entry, state.lookup other = some entry →
    entry.tier.level < tier.level

theorem alone_own (key : String) (tier : Tier) (state : CacheState World) :
    Alone key [key] tier state := by
  intro other member different
  exact absurd (List.mem_singleton.mp member) different

theorem Retreat.reclaimed_of_mem (retreat : Retreat setup hottest kept state final)
    (member : key ∈ kept) : final.reclaimed key = state.reclaimed key := by
  funext tier
  unfold reclaimed
  rw [retreat.lookup_of_mem member]

theorem Retreat.alone (retreat : Retreat setup hottest kept state final)
    (alone : Alone key kept tier state) : Alone key kept tier final := by
  intro other member different entry found
  rw [retreat.lookup_of_mem member] at found
  exact alone other member different entry found

/-- All that does not leave a tier is the entry of the key. -/
theorem Balanced.bytes_le_candidates (balanced : state.Balanced setup)
    (alone : Alone key kept tier state) :
    (state.usage.get tier).bytes ≤ state.reclaimed key tier +
      sumOf ((Eviction.candidates state.entryList tier kept).map Candidate.size) := by
  have others : Keyed.weigh (Entry.bytesIn tier) (Keyed.remove key state.entries) ≤
      Keyed.weigh (Eviction.freeIn tier kept) (Keyed.remove key state.entries) := by
    refine sumOf_map_le fun pair member => ?_
    obtain ⟨there, different⟩ := List.mem_filter.mp member
    have found := balanced.distinct.find?_of_mem there
    unfold Entry.bytesIn Eviction.freeIn
    split
    · rename_i here
      have free : pair.2.key ∉ kept := by
        rw [balanced.named pair.1 pair.2 found]
        intro member
        have above := alone pair.1 member (of_decide_eq_true different) pair.2 found
        rw [here] at above
        omega
      exact Nat.le_of_eq (if_pos ⟨here, free⟩).symm
    · exact Nat.zero_le _
  have fewer : Keyed.weigh (Eviction.freeIn tier kept) (Keyed.remove key state.entries) ≤
      Keyed.weigh (Eviction.freeIn tier kept) state.entries :=
    sumOf_sublist (List.filter_sublist.map _)
  have sizes : sumOf ((Eviction.candidates state.entryList tier kept).map Candidate.size) =
      Keyed.weigh (Eviction.freeIn tier kept) state.entries := by
    rw [Eviction.sizes_candidates, entryList, List.map_map]
    rfl
  have removed : (state.usage.get tier).bytes =
      Keyed.weigh (Entry.bytesIn tier) (Keyed.remove key state.entries) +
        state.reclaimed key tier := by
    rw [balanced.bytes]
    unfold reclaimed
    cases found : state.lookup key with
    | none => rw [Keyed.remove_of_find?_eq_none found, Nat.add_zero]
    | some entry => exact (Keyed.weigh_remove (Entry.bytesIn tier) balanced.distinct found).symm
  omega

/-- What leaves the tier that room is made in leaves its bytes. -/
theorem Retreat.bytes_add_le (retreat : Retreat setup entry.tier kept state final)
    (start : state.Tallied setup) (found : state.lookup key = some entry)
    (vacated : ∀ held, final.lookup key = some held → held.tier ≠ entry.tier) :
    (final.usage.get entry.tier).bytes + entry.size ≤ (state.usage.get entry.tier).bytes := by
  have tallied := retreat.tallied start
  have fewer : Keyed.weigh (Entry.bytesIn entry.tier) final.entries ≤
      Keyed.weigh (Entry.bytesIn entry.tier) (Keyed.remove key state.entries) := by
    apply Keyed.weigh_le_of_find? tallied.distinct (start.distinct.remove key)
    intro asked
    cases known : Keyed.find? asked final.entries with
    | none => exact Nat.zero_le _
    | some held =>
        by_cases here : held.tier = entry.tier
        · have another : asked ≠ key := fun same => vacated held (same ▸ known) here
          have before := retreat.lookup_of_final known (Nat.le_of_eq (congrArg Tier.level here))
          rw [Keyed.find?_remove_other _ another]
          change _ ≤ (state.lookup asked).elim 0 _
          exact Nat.le_of_eq (congrArg (Option.elim · 0 _) before.symm)
        · rw [Option.elim_some, Entry.bytesIn_other here]
          exact Nat.zero_le _
  have split := Keyed.weigh_remove (Entry.bytesIn entry.tier) start.distinct found
  rw [Entry.bytesIn_own] at split
  rw [tallied.bytes, start.bytes]
  omega

/-- What a put comes to that was not taken, after the value was encoded in `size` bytes. -/
inductive Rejects (setup : CacheSetup World) (key : String) (value : Value) (size : Nat)
    (tiers : List Tier) (state : CacheState World) : CacheState World → Prop
  /-- No tier is large enough. -/
  | tooLarge (small : ∀ tier ∈ tiers, setup.tiers.capacity tier < size) :
      Rejects setup key value size tiers state (state.unwritten "too_large")
  /-- There was room in a tier, but its store did not take the value. -/
  | failed {tier roomy final} (member : tier ∈ tiers) (fitting : size ≤ setup.tiers.capacity tier)
      (room : Retreat setup tier [key] state roomy)
      (refuses : Refuses setup key size value tier roomy final) :
      Rejects setup key value size tiers state (final.unwritten "error")

end CacheState

namespace TieredCache

open TierVault.Action CacheState

variable {setup : CacheSetup World} {state : CacheState World} {key : String} {value : Value} {tier : Tier}
  {kept : List String} {needed size : Nat} {lifetime? : Option Nat}

/-- Room is made, unless the entry of the key is in the way. -/
theorem leads_makeRoom_squeezed (balanced : state.Balanced setup) (alone : Alone key kept tier state) :
    Leads AnyFault (makeRoom setup tier needed kept) state fun fits _ =>
      fits = false → setup.tiers.capacity tier < state.reclaimed key tier + needed := by
  have steady : setup.Steady AnyFault fun _ => True := steady_of_any
  have capacity := balanced.capacity tier
  rw [makeRoom_eq]
  simp only [leads_bind, leads_get]
  split
  · intro _
    omega
  split
  · intro fails
    cases fails
  rename_i lacking
  simp only [leads_bind, leads_get]
  apply leads_any_ofExcept
  intro victims took
  -- What the victims left in the tier weigh is counted in the tier until they leave.
  refine (leads_forM
    (fun left middle => Retreat setup tier kept state middle ∧ Awaiting tier kept left middle ∧
      (middle.usage.get tier).bytes + sumOf (victims.map Candidate.size) ≤
        (state.usage.get tier).bytes + sumOf (left.map Candidate.size))
    ?_ ⟨.stay state, awaiting_of_victims balanced.toTallied took, Nat.le_refl _⟩).imp ?_
  · rintro victim rest middle ⟨retreat, awaiting, counted⟩
    have first := List.mem_cons_self (a := victim) (l := rest)
    obtain ⟨entry, found, rfl, leaves⟩ := awaiting.present victim first
    have tallied := retreat.tallied balanced.toTallied
    refine (leads_vacate steady (fun next _ => makesRoom steady next) (orderly_of_any tallied) found
      (awaiting.free victim first)).imp ?_
    rintro _ final - ⟨further, -, spared, vacated⟩
    have less := further.bytes_add_le tallied found vacated
    refine ⟨retreat.trans further, awaiting.rest spared, ?_⟩
    rw [List.map_cons, sumOf_cons] at counted
    omega
  · rintro _ final - ⟨retreat, -, freed⟩
    apply leads_any_ofExcept
    intro bytes summed fails
    cases Word.sum_ok_eq summed
    have enough := Eviction.victims_free took
    have all := balanced.bytes_le_candidates alone
    have within := balanced.within tier
    have unchanged := (retreat.tallied balanced.toTallied).capacity tier
    have excess := of_decide_eq_false fails
    unfold TierUsage.available at lacking enough
    rw [List.map_nil, sumOf_nil] at freed
    omega

/-- Room is always made in place of the key's entry, for a value that the tier can hold. -/
theorem leads_makeRoom_of_fitting (balanced : state.Balanced setup)
    (fitting : size ≤ setup.tiers.capacity tier) :
    Leads AnyFault (makeRoom setup tier (size - state.reclaimed key tier) [key]) state
      fun fits _ => fits = true := by
  refine (leads_makeRoom_squeezed balanced (alone_own key tier state)).imp ?_
  intro fits _ _ squeezed
  cases fits with
  | true => rfl
  | false =>
      have excess := squeezed rfl
      have held := balanced.reclaimed_le key tier
      have within := balanced.within tier
      omega

theorem leads_place_rejects (balanced : state.Balanced setup) (tiers : List Tier) :
    Leads AnyFault (place setup key value size lifetime? tiers) state fun answer final =>
      answer = false → Rejects setup key value size tiers state final := by
  have steady : setup.Steady AnyFault fun _ => True := steady_of_any
  have orderly := orderly_of_any balanced.toTallied
  induction tiers with
  | nil => exact fun _ => .tooLarge (List.forall_mem_nil _)
  | cons tier colder induction =>
      rw [place]
      split
      · rename_i small
        apply induction.imp
        intro answer final _ rejects refused
        cases rejects refused with
        | tooLarge others => exact .tooLarge (List.forall_mem_cons.mpr ⟨small, others⟩)
        | failed member fitting room refuses =>
            exact .failed (List.mem_cons_of_mem _ member) fitting room refuses
      · rename_i large
        have fitting : size ≤ setup.tiers.capacity tier := Nat.not_lt.mp large
        simp only [leads_bind, leads_reclaimable]
        refine Leads.imp (Leads.and (leads_makeRoom_of_fitting balanced fitting)
          (makesRoom steady tier (size - state.reclaimed key tier) [key] state orderly
            fun checked => absurd trivial checked)) ?_
        rintro _ roomy - ⟨rfl, retreat, tidy, space⟩
        have fits : Fits setup roomy key tier size := by
          unfold Fits
          rw [retreat.reclaimed_of_mem (List.mem_singleton.mpr rfl)]
          exact space rfl
        simp only [Bool.not_true, Bool.false_eq_true, if_false, leads_bind]
        apply leads_onStore (steady.put _ _ _) tidy.sound
        intro answer written put _
        rcases answer with error | _
        · intro _
          exact .failed List.mem_cons_self fitting retreat (.because fits put)
        · simp only [leads_bind, leads_record, leads_pure]
          apply (leads_replaceEntry steady (tidy.inWorld trivial)).imp
          intro _ replaced _ _
          apply leads_insertEntry (fun checked => absurd trivial checked)
          intro refused
          cases refused

end TieredCache

end TierVault
