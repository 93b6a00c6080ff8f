import TierVault.Proofs.Cache.Books

/-!
How the entries of a cache retreat when room is made.

They are evicted, or move to the next colder tier, where room is made first. A retreat is a run of such
steps, with the store calls between them, whichever way these end. It leaves alone the entries of the keys
that are kept, and those of the tiers above the one it starts in.
-/

namespace TierVault

variable {World : Type}

namespace CacheState

/-- The bytes of a key's entry, if it is of the tier. -/
def reclaimed (state : CacheState World) (key : String) (tier : Tier) : Nat :=
  match state.lookup key with
  | some old => if old.tier = tier then old.size else 0
  | none => 0

/-- A value of `size` bytes fits in the tier, in place of the key's entry if that is of the tier. A value that
needs no more than what it replaces fits in any case. -/
def Fits (setup : CacheSetup World) (state : CacheState World) (key : String) (tier : Tier)
    (size : Nat) : Prop :=
  (state.usage.get tier).bytes + (size - state.reclaimed key tier) ≤
    max (setup.tiers.capacity tier) (state.usage.get tier).bytes

/-- There was room for the value, but the store did not take it. -/
inductive Refuses (setup : CacheSetup World) (key : String) (size : Nat) (value : Value)
    (target : Tier) (state : CacheState World) : CacheState World → Prop
  | because {error world} (fits : Fits setup state key target size)
      (put : ((setup.stores.get target).put key value).run state.world =
        .ok (.error error) world) :
      Refuses setup key size value target state (state.inWorld world)

/-- The value was written to `target`, its copy was asked to leave, and the books followed. -/
inductive Moves (setup : CacheSetup World) (key : String) (entry : Entry) (value : Value)
    (target : Tier) (state : CacheState World) : CacheState World → Prop
  | followed {written after : World} {answer : Except StoreError Bool}
      (fits : (state.usage.get target).bytes + entry.size ≤
        max (setup.tiers.capacity target) (state.usage.get target).bytes)
      (put : ((setup.stores.get target).put key value).run state.world = .ok (.ok ()) written)
      (deleted : ((setup.stores.get entry.tier).delete key).run written = .ok answer after) :
      Moves setup key entry value target state ((state.inWorld after).relocate key entry target)

def evicted (state : CacheState World) : CacheState World :=
  (state.counted fun counters => { counters with evictions := counters.evictions + 1 }).recorded
    "evict" "ok"

def demoted (state : CacheState World) : CacheState World :=
  (state.counted fun counters => { counters with demotions := counters.demotions + 1 }).recorded
    "demote" "ok"

inductive Retreat (setup : CacheSetup World) :
    (hottest : Tier) → (kept : List String) → CacheState World → CacheState World → Prop
  | stay {hottest kept} (state : CacheState World) : Retreat setup hottest kept state state
  /-- A value was asked for. -/
  | read {hottest kept state middle tier key answer world}
      (retreat : Retreat setup hottest kept state middle)
      (get : ((setup.stores.get tier).get key).run middle.world = .ok answer world) :
      Retreat setup hottest kept state (middle.inWorld world)
  | evict {hottest kept state middle key entry answer world}
      (retreat : Retreat setup hottest kept state middle)
      (found : middle.lookup key = some entry) (free : key ∉ kept)
      (cold : hottest.level ≤ entry.tier.level)
      (deleted : ((setup.stores.get entry.tier).delete key).run middle.world =
        .ok answer world) :
      Retreat setup hottest kept state ((middle.forget key entry).inWorld world).evicted
  /-- There was room in the next tier, but its store did not take the value. -/
  | stuck {hottest kept state middle key entry value world target roomy final}
      (retreat : Retreat setup hottest kept state middle)
      (found : middle.lookup key = some entry) (free : key ∉ kept)
      (cold : hottest.level ≤ entry.tier.level) (next : entry.tier.colder? = some target)
      (get : ((setup.stores.get entry.tier).get key).run middle.world =
        .ok (.ok (some value)) world)
      (room : Retreat setup target (kept ++ [key]) (middle.inWorld world) roomy)
      (refuses : Refuses setup key entry.size value target roomy final) :
      Retreat setup hottest kept state final
  /-- The entry is kept, too, while room is made for it. -/
  | demote {hottest kept state middle key entry value world target roomy final}
      (retreat : Retreat setup hottest kept state middle)
      (found : middle.lookup key = some entry) (free : key ∉ kept)
      (cold : hottest.level ≤ entry.tier.level) (next : entry.tier.colder? = some target)
      (get : ((setup.stores.get entry.tier).get key).run middle.world =
        .ok (.ok (some value)) world)
      (room : Retreat setup target (kept ++ [key]) (middle.inWorld world) roomy)
      (moves : Moves setup key entry value target roomy final) :
      Retreat setup hottest kept state final.demoted

variable {setup : CacheSetup World} {state middle final : CacheState World} {hottest : Tier}
  {kept : List String} {key : String} {entry : Entry} {value : Value} {target : Tier}

theorem fits_of_elsewhere {size : Nat} (found : state.lookup key = some entry)
    (different : entry.tier ≠ target)
    (space : (state.usage.get target).bytes + size ≤
      max (setup.tiers.capacity target) (state.usage.get target).bytes) :
    Fits setup state key target size := by
  simpa [Fits, reclaimed, found, different] using space

theorem Tallied.reclaimed_le (tallied : state.Tallied setup) (key : String) (tier : Tier) :
    state.reclaimed key tier ≤ (state.usage.get tier).bytes := by
  unfold reclaimed
  cases found : state.lookup key with
  | none => exact Nat.zero_le _
  | some entry =>
      by_cases own : entry.tier = tier
      · subst own
        simpa using (tallied.covers found).2
      · simp [own]

theorem append_subset {more : List String} (keeps : kept ⊆ more) (key : String) :
    kept ++ [key] ⊆ more ++ [key] := by
  intro asked member
  rcases List.mem_append.mp member with member | member
  · exact List.mem_append_left _ (keeps member)
  · exact List.mem_append_right _ member

namespace Retreat

theorem trans (first : Retreat setup hottest kept state middle)
    (second : Retreat setup hottest kept middle final) : Retreat setup hottest kept state final := by
  induction second with
  | stay => exact first
  | read _ get induction => exact .read (induction first) get
  | evict _ found free cold deleted induction =>
      exact .evict (induction first) found free cold deleted
  | stuck _ found free cold next get room refuses induction _ =>
      exact .stuck (induction first) found free cold next get room refuses
  | demote _ found free cold next get room moves induction _ =>
      exact .demote (induction first) found free cold next get room moves

/-- A retreat that starts in a colder tier, or keeps more, is a retreat as well. -/
theorem weaken {colder : Tier} {more : List String} (retreat : Retreat setup colder more state final)
    (cold : hottest.level ≤ colder.level) (keeps : kept ⊆ more) :
    Retreat setup hottest kept state final := by
  induction retreat generalizing hottest kept with
  | stay => exact .stay _
  | read _ get induction => exact .read (induction cold keeps) get
  | evict _ found free colder deleted induction =>
      refine .evict (induction cold keeps) found ?_ (Nat.le_trans cold colder) deleted
      exact fun member => free (keeps member)
  | stuck _ found free colder next get _ refuses induction inner =>
      refine .stuck (induction cold keeps) found (fun member => free (keeps member))
        (Nat.le_trans cold colder) next get (inner (Nat.le_refl _) ?_) refuses
      exact append_subset keeps _
  | demote _ found free colder next get _ moves induction inner =>
      refine .demote (induction cold keeps) found (fun member => free (keeps member))
        (Nat.le_trans cold colder) next get (inner (Nat.le_refl _) ?_) moves
      exact append_subset keeps _

/-! ## What retreats leave alone -/

theorem lookup_of_mem (retreat : Retreat setup hottest kept state final) (member : key ∈ kept) :
    final.lookup key = state.lookup key := by
  induction retreat with
  | stay => rfl
  | read _ _ induction => exact induction member
  | stuck _ _ _ _ _ _ _ refuses induction inner =>
      cases refuses
      exact (inner (List.mem_append_left _ member)).trans (induction member)
  | @evict _ _ _ _ gone _ _ _ _ _ free _ _ induction =>
      have different : key ≠ gone := fun same => free (same ▸ member)
      rw [← induction member]
      simp [evicted, lookup_forget, different]
  | @demote _ _ _ _ gone _ _ _ _ _ _ _ _ free _ _ _ _ moves induction inner =>
      have different : key ≠ gone := fun same => free (same ▸ member)
      rw [← induction member]
      cases moves
      have same := inner (List.mem_append_left _ member)
      simp only [lookup_inWorld] at same
      rw [← same]
      simp [demoted, lookup_relocate, different]

theorem lookup_of_hotter (retreat : Retreat setup hottest kept state final)
    (found : state.lookup key = some entry) (hot : entry.tier.level < hottest.level) :
    final.lookup key = some entry := by
  induction retreat with
  | stay => exact found
  | read _ _ induction => exact induction found hot
  | stuck _ _ _ cold next _ _ refuses induction inner =>
      cases refuses
      refine inner (induction found hot) ?_
      rw [Tier.level_colder next]
      omega
  | @evict _ _ _ _ gone _ _ _ _ other _ cold _ induction =>
      have still := induction found hot
      have different : key ≠ gone := by
        intro same
        subst same
        cases still.symm.trans other
        omega
      simp [evicted, lookup_forget, different, still]
  | @demote _ _ _ _ gone _ _ _ _ _ _ _ other _ cold next _ _ moves induction inner =>
      have still := induction found hot
      have different : key ≠ gone := by
        intro same
        subst same
        cases still.symm.trans other
        omega
      cases moves
      have later := inner still (by rw [Tier.level_colder next]; omega)
      simp [demoted, lookup_relocate, different, later]

/-- Nothing comes into the tier a retreat starts in, nor into hotter ones. -/
theorem lookup_of_final (retreat : Retreat setup hottest kept state final)
    (found : final.lookup key = some entry) (hot : entry.tier.level ≤ hottest.level) :
    state.lookup key = some entry := by
  induction retreat with
  | stay => exact found
  | read _ _ induction => exact induction found hot
  | stuck _ _ _ cold next _ _ refuses induction inner =>
      have deeper := Tier.level_colder next
      cases refuses
      exact induction (inner found (by omega)) hot
  | evict _ _ _ _ _ induction =>
      simp only [evicted, lookup_counted, lookup_recorded, lookup_inWorld, lookup_forget] at found
      split at found
      · cases found
      · exact induction found hot
  | @demote hottest _ _ _ _ _ _ _ target _ _ _ _ _ cold next _ _ moves induction inner =>
      have deeper := Tier.level_colder next
      cases moves
      simp only [demoted, lookup_counted, lookup_recorded, lookup_relocate, lookup_inWorld] at found
      split at found
      · cases found
        have warm : target.level ≤ hottest.level := hot
        omega
      · exact induction (inner found (by omega)) hot

/-! ## The books along a retreat -/

theorem restrained (retreat : Retreat setup hottest kept state final) (start : state.Tallied setup) :
    Restrained setup state final := by
  induction retreat with
  | stay => exact .refl start
  | read _ _ induction => exact (induction start).inWorld _
  | @stuck _ _ _ _ _ _ _ world _ _ _ _ _ _ _ _ _ _ refuses induction inner =>
      have before := (induction start).inWorld world
      cases refuses
      exact (before.trans (inner before.tallied)).inWorld _
  | evict _ found _ _ _ induction =>
      have before := induction start
      exact (before.trans (before.tallied.restrained_forget found)).congr rfl rfl
  | @demote _ _ _ _ key entry _ world target roomy _ _ found _ _ next _ room moves induction inner =>
      have before := (induction start).inWorld world
      have roomed := inner before.tallied
      have kept := room.lookup_of_mem (List.mem_append_right _ (List.mem_singleton.mpr rfl))
      cases moves with
      | @followed _ after _ fits =>
          have roomy := (before.trans roomed).inWorld after
          have moved := roomy.tallied.restrained_relocate (kept.trans found)
            (Tier.ne_of_colder next) fits
          exact (roomy.trans moved).congr rfl rfl

theorem tallied (retreat : Retreat setup hottest kept state final) (start : state.Tallied setup) :
    final.Tallied setup :=
  (retreat.restrained start).tallied

theorem total_le (retreat : Retreat setup hottest kept state final) (start : state.Tallied setup) :
    final.total ≤ state.total := by
  induction retreat with
  | stay => exact Nat.le_refl _
  | read _ _ induction => exact induction start
  | stuck before _ _ _ _ _ _ refuses induction inner =>
      cases refuses
      exact Nat.le_trans (inner ((before.tallied start).inWorld _)) (induction start)
  | evict before found _ _ _ induction =>
      have less := induction start
      have out := total_forget (before.tallied start) found
      simp only [evicted, total_counted, total_recorded, total_inWorld]
      omega
  | @demote _ _ _ _ key entry _ _ target roomy _ before found _ _ _ _ room moves induction inner =>
      have less := induction start
      have lesser := inner ((before.tallied start).inWorld _)
      have kept := room.lookup_of_mem (List.mem_append_right _ (List.mem_singleton.mpr rfl))
      cases moves with
      | @followed _ after =>
          have still : (roomy.inWorld after).lookup key = some entry := kept.trans found
          have same : ((roomy.inWorld after).relocate key entry target).total = _ :=
            total_relocate still
          simp only [demoted, total_counted, total_recorded, total_inWorld] at *
          omega

/-- Nothing comes into the tier a retreat starts in, nor into hotter ones. -/
theorem bytes_le {tier : Tier} (retreat : Retreat setup hottest kept state final)
    (start : state.Tallied setup) (hot : tier.level ≤ hottest.level) :
    (final.usage.get tier).bytes ≤ (state.usage.get tier).bytes := by
  induction retreat with
  | stay => exact Nat.le_refl _
  | read _ _ induction => exact induction start hot
  | stuck before _ _ cold next _ _ refuses induction inner =>
      have deeper := Tier.level_colder next
      cases refuses
      refine Nat.le_trans (inner ((before.tallied start).inWorld _) ?_) (induction start hot)
      omega
  | evict before found _ _ _ induction =>
      have less := induction start hot
      have out := Entry.bytes_takeFrom tier ((before.tallied start).covers found)
      simp only [evicted, usage_counted, usage_recorded, usage_inWorld, usage_forget]
      omega
  | @demote _ _ _ middle key entry _ world target roomy _ before found _ cold next _ room moves
      induction inner =>
      have deeper := Tier.level_colder next
      have less := induction start hot
      have here := (before.tallied start).inWorld world
      have lesser := inner here (by omega)
      have kept := room.lookup_of_mem (List.mem_append_right _ (List.mem_singleton.mpr rfl))
      have out := Entry.bytes_takeFrom tier ((room.tallied here).covers (kept.trans found))
      have other : { entry with tier := target }.bytesIn tier = 0 := by
        refine Entry.bytesIn_other fun same : target = tier => ?_
        rw [← same] at hot
        omega
      cases moves
      simp only [demoted, usage_counted, usage_recorded, usage_relocate, Entry.bytes_addTo, usage_inWorld, other] at *
      omega

end Retreat

end CacheState

end TierVault
