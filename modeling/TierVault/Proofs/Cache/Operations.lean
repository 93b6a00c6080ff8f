import TierVault.Proofs.Cache.Outcomes

/-!
Where the operations of a tiered cache lead: to their outcomes, whatever the stores answer.
-/

namespace TierVault.TieredCache

open TierVault.Action CacheState

variable {World : Type} {faults : Fault → Prop} {setup : CacheSetup World} {sound : World → Prop}
  {state : CacheState World} {key : String} {entry : Entry} {value : Value} {tier : Tier}
  {lifetime? : Option Nat}

@[simp] theorem leads_countExpired (amount : Nat) (after : Unit → CacheState World → Prop) :
    Leads faults (countExpired amount) state after ↔ after () (state.expired amount) := Iff.rfl

/-! ## Removing -/

theorem leads_removes (steady : setup.Steady faults sound)
    (orderly : state.Orderly setup faults sound) :
    Leads faults (removeEntry setup key) state fun removed final =>
      Removes setup key state removed final ∧ final.Orderly setup faults sound := by
  refine leads_removeEntry steady orderly.sound (fun _ => orderly.tallied.covers) ?_ ?_
  · exact fun unknown => ⟨.missing unknown, orderly⟩
  · intro entry answer world found deleted stays
    have removes := Removes.removed found deleted
    exact ⟨removes, orderly.of_total_le ((removes.restrained orderly.tallied).tallied) stays
      (removes.total_le orderly.tallied)⟩

theorem leads_delete (steady : setup.Steady faults sound)
    (orderly : state.Orderly setup faults sound) :
    Leads faults (delete setup key) state fun removed final =>
      Deletes setup key state removed final ∧ final.Orderly setup faults sound := by
  simp only [delete, leads_bind, leads_record, leads_pure]
  refine (leads_removes steady orderly).imp ?_
  rintro removed middle - ⟨removes, tidy⟩
  exact ⟨.deleted removes, tidy.recorded _ _⟩

theorem leads_removesAll (steady : setup.Steady faults sound) (items : Keyed String Entry)
    (orderly : state.Orderly setup faults sound) :
    Leads faults
      (items.forM fun (key, _) => do
        let _ ← removeEntry setup key)
      state fun _ final =>
        RemovesAll setup (items.map Prod.fst) state final ∧ final.Orderly setup faults sound := by
  induction items generalizing state with
  | nil => exact ⟨.nil state, orderly⟩
  | cons item rest induction =>
      obtain ⟨key, entry⟩ := item
      change Leads faults
        ((removeEntry setup key >>= fun _ => pure ()) >>= fun _ => rest.forM _) state _
      simp only [leads_bind, leads_pure]
      refine (leads_removes steady orderly).imp ?_
      rintro removed middle - ⟨removes, tidy⟩
      refine (induction tidy).imp ?_
      rintro _ final - ⟨others, done⟩
      exact ⟨.cons removes others, done⟩

theorem leads_cleanupExpired (steady : setup.Steady faults sound)
    (orderly : state.Orderly setup faults sound) :
    Leads faults (cleanupExpired setup) state fun answer final =>
      Cleans setup state answer final ∧ final.Orderly setup faults sound := by
  simp only [cleanupExpired, leads_bind, leads_readClock, leads_get, leads_countExpired, leads_pure]
  refine (leads_removesAll steady _ orderly.timed).imp ?_
  rintro _ final - ⟨removes, tidy⟩
  have cleans := Cleans.cleaned removes
  simp only [expiredKeys, List.length_map] at cleans
  exact ⟨cleans, tidy.counted _⟩

theorem leads_reclaimExpired (steady : setup.Steady faults sound)
    (orderly : state.Orderly setup faults sound) :
    Leads faults (reclaimExpired setup) state fun answer final =>
      Reclaims setup state answer final ∧ final.Orderly setup faults sound := by
  simp only [reclaimExpired, leads_bind, leads_readClock, leads_get]
  have below := sumOf_sublist ((List.filter_sublist
    (p := fun entry : Entry => entry.isExpired (setup.clock state.readings))
    (l := state.entryList)).map Entry.size)
  refine leads_ofExcept _ _ _ (fun fault failed => ?_) ?_
  · obtain ⟨rfl, large⟩ := Word.total_error failed
    exact orderly.overflows (Nat.le_trans large below)
  · intro bytes summed
    cases Word.total_ok_eq summed
    refine (leads_cleanupExpired steady orderly.timed).imp ?_
    rintro count final - ⟨cleans, tidy⟩
    exact ⟨.reclaimed cleans, tidy⟩

theorem leads_has (steady : setup.Steady faults sound) (orderly : state.Orderly setup faults sound) :
    Leads faults (has setup key) state fun answer final =>
      Has setup key state answer final ∧ final.Orderly setup faults sound := by
  simp only [has, leads_bind, leads_lookup]
  cases found : state.lookup key with
  | none => exact ⟨.missing found, orderly⟩
  | some entry =>
      simp only [leads_bind, leads_readClock]
      cases late : entry.isExpired (setup.clock state.readings) with
      | false => exact ⟨.present found late, orderly.timed⟩
      | true =>
          simp only [if_true, leads_bind, leads_countExpired, leads_pure]
          refine (leads_removes steady orderly.timed).imp ?_
          rintro removed final - ⟨removes, tidy⟩
          refine ⟨.expired found late ?_, tidy.counted _⟩
          exact removes.of_lookup found

/-! ## Reading -/

theorem leads_promote {target : Tier} (steady : setup.Steady faults sound)
    (orderly : state.Orderly setup faults sound) (found : state.lookup key = some entry)
    (hotter : entry.tier.hotter? = some target) :
    Leads faults (promote setup key entry.tier target value) state fun _ final =>
      Rises setup key entry value state final ∧ final.Orderly setup faults sound := by
  have different := (Tier.ne_of_colder (Tier.hotter_eq_some_iff.mp hotter)).symm
  simp only [promote, leads_bind, leads_lookup, found]
  refine (makesRoom steady target entry.size [key] state orderly fun checked => ?_).imp ?_
  · have below := orderly.tallied.bytes_add_le_total found different
    exact Nat.lt_of_le_of_lt below (orderly.fits checked)
  rintro fits roomy - ⟨retreat, tidy, space⟩
  have present := (retreat.lookup_of_mem (List.mem_singleton.mpr rfl)).trans found
  cases fits with
  | false => exact ⟨.stays retreat, tidy⟩
  | true =>
      simp only [Bool.not_true, Bool.false_eq_true, if_false, leads_bind]
      refine leads_onStore (steady.put _ _ _) tidy.sound ?_
      intro answer written put stays
      rcases answer with error | _
      · have fits := fits_of_elsewhere present different (space rfl)
        exact ⟨.refused hotter retreat (.because fits put), tidy.inWorld stays⟩
      · simp only [leads_bind, leads_count, leads_record]
        refine leads_moveEntry steady stays present different
          (tidy.tallied.covers present) (fun checked => ?_) ?_
        · have below := tidy.tallied.bytes_add_le_total present different
          exact Nat.lt_of_le_of_lt below (tidy.fits checked)
        · intro answer gone deleted stays
          have rises := Rises.rises hotter retreat (.followed (space rfl) put deleted)
          exact ⟨rises, orderly.of_total_le (rises.restrained orderly.tallied found).tallied stays
            (rises.total_le orderly.tallied found)⟩

@[simp] theorem leads_miss (outcome : String) (after : Option Value → CacheState World → Prop) :
    Leads faults (miss outcome) state after ↔ after none (state.missed outcome) := Iff.rfl

theorem leads_hit {now : Nat} (steady : setup.Steady faults sound)
    (orderly : state.Orderly setup faults sound) (found : state.lookup key = some entry) :
    Leads faults (hit setup key entry.tier value now) state fun answer final =>
      answer = some value ∧
        Rises setup key (touched setup state entry) value (touch setup state key entry).hit
          final ∧ final.Orderly setup faults sound := by
  have tidy : (touch setup state key entry).hit.Orderly setup faults sound := by
    refine orderly.of_total_le ?_ orderly.sound (Nat.le_of_eq (total_touch found))
    exact ((orderly.tallied.touch found).counted _).recorded _ _
  have present : (touch setup state key entry).hit.lookup key = some (touched setup state entry) :=
    lookup_touch
  simp only [TieredCache.hit, leads_bind, leads_touchEntry found, leads_count, leads_record]
  cases hotter : entry.tier.hotter? with
  | none => exact ⟨rfl, .stays (.stay _ : Retreat setup .memory [key] _ _), tidy⟩
  | some target =>
      simp only []
      split
      · simp only [leads_bind, leads_pure]
        refine (leads_promote steady tidy present hotter).imp ?_
        rintro _ final - ⟨rises, done⟩
        exact ⟨trivial, rises, done⟩
      · exact ⟨rfl, .stays (.stay _ : Retreat setup .memory [key] _ _), tidy⟩

theorem leads_read (steady : setup.Steady faults sound) (orderly : state.Orderly setup faults sound) :
    Leads faults (TieredCache.get setup key) state fun answer final =>
      Reads setup key state answer final ∧ final.Orderly setup faults sound := by
  simp only [TieredCache.get, leads_bind, leads_readClock, leads_lookup, lookup_timed]
  cases found : state.lookup key with
  | none =>
      simp only [leads_miss]
      exact ⟨.missing found, (orderly.timed.counted _).recorded _ _⟩
  | some entry =>
      cases late : entry.isExpired (setup.clock state.readings) with
      | true =>
          simp only [late, if_true, leads_bind, leads_countExpired, leads_miss]
          refine (leads_removes steady orderly.timed).imp ?_
          rintro removed final - ⟨removes, tidy⟩
          refine ⟨.expired found late (removes.of_lookup found), ?_⟩
          exact ((tidy.counted _).counted _).recorded _ _
      | false =>
          simp only [late, Bool.false_eq_true, if_false, leads_bind]
          refine leads_onStore (steady.get _ _) orderly.sound ?_
          intro answer asked get stays
          have tidy := orderly.timed.inWorld stays
          rcases answer with error | _ | value
          · simp only [leads_bind, leads_miss]
            refine (leads_removes steady tidy).imp ?_
            rintro removed final - ⟨removes, done⟩
            refine ⟨.failed found late get (removes.of_lookup found), ?_⟩
            exact (done.counted _).recorded _ _
          · simp only [leads_bind, leads_miss]
            refine leads_dropEntry (fun _ => tidy.tallied.covers) ?_ ?_
            · intro unknown
              cases unknown.symm.trans found
            · intro held same
              cases same.symm.trans found
              have reads := Reads.stale found late get
              exact ⟨reads, orderly.of_total_le (reads.restrained orderly.tallied).tallied stays
                (reads.total_le orderly.tallied)⟩
          · refine (leads_hit steady tidy found).imp ?_
            rintro _ final - ⟨rfl, rises, done⟩
            exact ⟨.hit found late get rises, done⟩

/-! ## Writing -/

@[simp] theorem leads_refuse (outcome : String) (after : Bool → CacheState World → Prop) :
    Leads faults (refuse outcome) state after ↔ after false (state.unwritten outcome) := Iff.rfl

theorem leads_reclaimable (after : Nat → CacheState World → Prop) :
    Leads faults (reclaimable key tier) state after ↔
      after (state.reclaimed key tier) state := by
  simp only [reclaimable, reclaimed, leads_bind, leads_lookup]
  cases state.lookup key <;> rfl

theorem leads_replaceEntry (steady : setup.Steady faults sound)
    (orderly : state.Orderly setup faults sound) :
    Leads faults (replaceEntry setup key tier) state fun _ final =>
      Replaces setup key tier state final ∧ sound final.world := by
  simp only [replaceEntry, leads_bind]
  refine leads_dropEntry (fun _ => orderly.tallied.covers) ?_ ?_
  · exact fun unknown => ⟨.nothing unknown, orderly.sound⟩
  · intro old found
    simp only []
    split
    · rename_i different
      refine leads_discardPayload steady orderly.sound fun answer world deleted stays => ?_
      exact ⟨.elsewhere found different deleted, stays⟩
    · rename_i same
      exact ⟨.here found (Decidable.not_not.mp same), orderly.sound⟩

theorem leads_place {size : Nat} (steady : setup.Steady faults sound)
    (sized : value.encodedSize = .ok size) (tier : Tier) {middle : CacheState World}
    (retreat : Retreat setup (setup.tiers.tierForSize size) [key] state middle)
    (orderly : middle.Orderly setup faults sound) (fits : ¬faults .sumOverflow → middle.total + size < Word.limit)
    (cold : (setup.tiers.tierForSize size).level ≤ tier.level) :
    Leads faults (place setup key value size (lifetime? <|> setup.defaultLifetime?) tier.downward)
      middle fun answer final =>
        Writes setup key value lifetime? state answer final ∧ sound final.world := by
  induction tier using Tier.colder_induction generalizing middle with
  | step tier colder =>
      have onward {middle : CacheState World}
          (retreat : Retreat setup (setup.tiers.tierForSize size) [key] state middle)
          (orderly : middle.Orderly setup faults sound)
          (fits : ¬faults .sumOverflow → middle.total + size < Word.limit) :
          Leads faults
            (place setup key value size (lifetime? <|> setup.defaultLifetime?)
              ((tier.colder?.map Tier.downward).getD [])) middle fun answer final =>
            Writes setup key value lifetime? state answer final ∧ sound final.world := by
        cases step : tier.colder? with
        | none => exact ⟨.tooLarge sized retreat, orderly.sound⟩
        | some next =>
            refine colder next step retreat orderly fits ?_
            have deeper := Tier.level_colder step
            omega
      rw [Tier.downward_eq, place]
      split
      · exact onward retreat orderly fits
      simp only [leads_bind, leads_reclaimable]
      refine (makesRoom steady tier (size - middle.reclaimed key tier) [key] middle orderly
        fun checked => ?_).imp ?_
      · have below := orderly.tallied.bytes_le_total tier
        have sum := fits checked
        omega
      rintro roomed roomy - ⟨further, tidy, space⟩
      have whole := retreat.trans (further.weaken cold (List.Subset.refl _))
      cases roomed with
      | false =>
          refine onward whole tidy fun checked => ?_
          have less := further.total_le orderly.tallied
          have sum := fits checked
          omega
      | true =>
          have kept := further.lookup_of_mem (List.mem_singleton.mpr rfl : key ∈ [key])
          have fit : Fits setup roomy key tier size := by
            unfold Fits
            rw [reclaimed, kept]
            exact space rfl
          simp only [Bool.not_true, Bool.false_eq_true, if_false, leads_bind]
          refine leads_onStore (steady.put _ _ _) tidy.sound ?_
          intro answer written put stays
          rcases answer with error | _
          · exact ⟨.refused sized cold whole (.because fit put), stays⟩
          simp only [leads_bind, leads_record, leads_pure]
          refine (leads_replaceEntry steady (tidy.inWorld stays)).imp ?_
          rintro _ replaced - ⟨replaces, stays⟩
          refine leads_insertEntry (fun checked => ?_) ⟨.written sized cold whole fit put replaces, stays⟩
          have ready := replaces.tallied (tidy.tallied.inWorld written)
          have below := ready.bytes_le_total tier
          have less := replaces.total_le (tidy.tallied.inWorld written)
          have lesser := further.total_le orderly.tallied
          have sum := fits checked
          rw [total_inWorld] at less
          omega

theorem leads_put (steady : setup.Steady faults sound) (orderly : state.Orderly setup faults sound)
    (fits : ¬faults .sumOverflow → state.total + value.weight < Word.limit) :
    Leads faults (put setup key value lifetime?) state fun answer final =>
      Writes setup key value lifetime? state answer final ∧ final.Orderly setup faults sound := by
  have finish (answer : Bool) (final : CacheState World)
      (writes : Writes setup key value lifetime? state answer final)
      (stays : sound final.world) : final.Orderly setup faults sound := by
    refine ⟨(writes.restrained orderly.tallied).tallied, stays, fun checked => ?_⟩
    exact Nat.lt_of_le_of_lt (writes.total_le orderly.tallied) (fits checked)
  unfold put
  cases sized : value.encodedSize with
  | error error =>
      exact ⟨.unserializable sized, finish _ _ (.unserializable sized) orderly.sound⟩
  | ok size =>
      rw [Value.weight_eq sized] at fits
      refine (leads_place steady sized _ (.stay state) orderly fits (Nat.le_refl _)).imp ?_
      rintro answer final - ⟨writes, stays⟩
      exact ⟨writes, finish answer final writes stays⟩

/-! ## Clearing -/

theorem leads_empties (steady : setup.Steady faults sound) (tiers : List Tier)
    (isSound : sound state.world) :
    Leads faults
      (tiers.forM fun tier => do
        let _ ← onStore setup tier (·.clear)
        setUsage tier { (← MonadState.get).usage.get tier with entries := 0, bytes := 0 })
      state fun _ final => Empties setup tiers state final ∧ sound final.world := by
  induction tiers generalizing state with
  | nil => exact ⟨.nil state, isSound⟩
  | cons tier rest induction =>
      change Leads faults (_ >>= fun _ => rest.forM _) state _
      simp only [leads_bind, leads_get, leads_setUsage]
      refine leads_onStore (steady.clear tier) isSound ?_
      intro answer world cleared stays
      refine Leads.imp (induction stays) ?_
      rintro _ final - ⟨empties, done⟩
      exact ⟨.cons cleared empties, done⟩

theorem leads_clear (steady : setup.Steady faults sound) (orderly : state.Orderly setup faults sound) :
    Leads faults (clear setup) state fun _ final =>
      Clears setup state final ∧ final.Orderly setup faults sound := by
  simp only [clear, leads_bind]
  refine (leads_empties steady Tier.all orderly.sound).imp ?_
  rintro _ final - ⟨empties, stays⟩
  have clears := Clears.cleared empties
  exact ⟨clears, orderly.of_total_le (clears.restrained orderly.tallied).tallied stays (Nat.zero_le _)⟩

end TierVault.TieredCache
