import TierVault.Proofs.Cache.Agreement
import TierVault.Proofs.Cache.Space

/-!
Which entries leave their tiers while room is made, and why they are evicted.

A departure is a demotion to the next colder tier, or an eviction. Departures are told of the entries of all
keys but one, that of the value for which room is made. Its entry stays where it is; everything else may leave a
tier, so that there is room in the end unless that entry is in the way. Where stores do not fail, demotions fail
for no other reason, since such a store takes what there is room for.
-/

namespace TierVault

/-! # Departures -/

section

variable {World : Type}

/-- An entry that left its tier. -/
structure Departure where
  key : String
  /-- As it was before. -/
  entry : Entry
  /-- The tier it went to, if it was not evicted. -/
  target? : Option Tier

namespace Departure

def evicts (departure : Departure) : Bool := departure.target?.isNone

def demotes (departure : Departure) : Bool := departure.target?.isSome

/-- The entries after the departure. -/
def after (departure : Departure) (entries : String → Option Entry) : String → Option Entry :=
  fun asked => if asked = departure.key
    then departure.target?.map fun target => { departure.entry with tier := target }
    else entries asked

/-- The entry went to the next colder tier; or there is none; or it was evicted because it does not fit in
that tier beside `own` bytes. -/
def Explained (setup : CacheSetup World) (own : Tier → Nat) (departure : Departure) : Prop :=
  match departure.target? with
  | some target => departure.entry.tier.colder? = some target
  | none => ∀ next, departure.entry.tier.colder? = some next →
    setup.tiers.capacity next < own next + departure.entry.size

end Departure

/-- The departures, in this order, lead from some entries to others. Each is of an entry that is there. -/
inductive Departs : (String → Option Entry) → List Departure → (String → Option Entry) → Prop
  | none (entries : String → Option Entry) : Departs entries [] entries
  | next {entries final : String → Option Entry} {later : List Departure} (departure : Departure)
      (there : entries departure.key = some departure.entry)
      (departs : Departs (departure.after entries) later final) :
      Departs entries (departure :: later) final

namespace Departs

variable {before middle final : String → Option Entry} {log later : List Departure}

theorem append (first : Departs before log middle) (second : Departs middle later final) :
    Departs before (log ++ later) final := by
  induction first with
  | none => exact second
  | next departure there _ induction => exact .next departure there (induction second)

/-- Departures do not resize entries. -/
theorem sizes (fits : Nat → Prop) (departs : Departs before log final)
    (start : ∀ key entry, before key = some entry → fits entry.size) :
    ∀ departure ∈ log, fits departure.entry.size := by
  induction departs with
  | none => exact fun _ member => absurd member List.not_mem_nil
  | next departure there _ induction =>
      have here := start departure.key departure.entry there
      refine List.forall_mem_cons.mpr ⟨here, induction fun key entry found => ?_⟩
      unfold Departure.after at found
      split at found
      · obtain ⟨target, -, rfl⟩ := Option.map_eq_some_iff.mp found
        exact here
      · exact start key entry found

end Departs

namespace CacheState

/-- The entries of all keys but one. -/
def others (state : CacheState World) (key : String) : String → Option Entry :=
  fun asked => if asked = key then none else state.lookup asked

/-- What departed on the way from one state to the other, and that the cache counted it. -/
structure Departed (key : String) (log : List Departure) (state final : CacheState World) :
    Prop where
  departs : Departs (state.others key) log (final.others key)
  evictions : final.counters.evictions =
    state.counters.evictions + log.countP Departure.evicts
  demotions : final.counters.demotions =
    state.counters.demotions + log.countP Departure.demotes

variable {setup : CacheSetup World} {state middle final : CacheState World} {key other : String}
  {entry : Entry} {log later : List Departure} {value : Value} {target : Tier} {world : World}

namespace Departed

/-- Nothing departs where only the entry of the key changes. -/
theorem nothing (others : ∀ asked, asked ≠ key → final.lookup asked = state.lookup asked)
    (evictions : final.counters.evictions = state.counters.evictions)
    (demotions : final.counters.demotions = state.counters.demotions) :
    Departed key [] state final := by
  have same : final.others key = state.others key := by
    funext asked
    unfold CacheState.others
    split
    · rfl
    · exact others asked ‹_›
  exact ⟨same ▸ .none _, evictions, demotions⟩

theorem append (first : Departed key log state middle) (second : Departed key later middle final) :
    Departed key (log ++ later) state final := by
  refine ⟨first.departs.append second.departs, ?_, ?_⟩
  · rw [second.evictions, first.evictions, List.countP_append, Nat.add_assoc]
  · rw [second.demotions, first.demotions, List.countP_append, Nat.add_assoc]

theorem evict (found : state.lookup other = some entry) (different : other ≠ key) :
    Departed key [⟨other, entry, none⟩] state ((state.forget other entry).inWorld world).evicted := by
  refine ⟨.next _ ?_ ?_, rfl, rfl⟩
  · exact (if_neg different).trans found
  · have gone : (((state.forget other entry).inWorld world).evicted).others key =
        Departure.after ⟨other, entry, none⟩ (state.others key) := by
      funext asked
      simp only [CacheState.others, Departure.after, Option.map_none, evicted, lookup_recorded,
        lookup_counted, lookup_inWorld, lookup_forget]
      grind
    exact gone ▸ .none _

theorem demote (found : state.lookup other = some entry) (different : other ≠ key)
    (moves : Moves setup other entry value target state final) :
    Departed key [⟨other, entry, some target⟩] state final.demoted := by
  cases moves with
  | @followed _ world =>
      refine ⟨.next _ ?_ ?_, rfl, rfl⟩
      · exact (if_neg different).trans found
      · have moved : (((state.inWorld world).relocate other entry target).demoted).others key =
            Departure.after ⟨other, entry, some target⟩ (state.others key) := by
          funext asked
          simp only [CacheState.others, Departure.after, Option.map_some, demoted, lookup_recorded,
            lookup_counted, lookup_relocate, lookup_inWorld]
          grind
        exact moved ▸ .none _

end Departed

end CacheState

end

/-! # Evictions -/

section

variable {World : Type}

namespace CacheState

variable {setup : CacheSetup World} {state middle final : CacheState World} {key : String}
  {own : Tier → Nat} {tier : Tier} {kept : List String} {hottest : Tier}

/-! ## Explained departures -/

/-- Every departure on the way from one state to the other is explained. -/
def Explained (setup : CacheSetup World) (key : String) (own : Tier → Nat)
    (state final : CacheState World) : Prop :=
  ∃ log, Departed key log state final ∧ ∀ departure ∈ log, departure.Explained setup own

theorem Explained.nothing
    (others : ∀ asked, asked ≠ key → final.lookup asked = state.lookup asked)
    (evictions : final.counters.evictions = state.counters.evictions)
    (demotions : final.counters.demotions = state.counters.demotions) :
    Explained setup key own state final :=
  ⟨[], .nothing others evictions demotions, fun _ member => absurd member List.not_mem_nil⟩

theorem Explained.refl (state : CacheState World) : Explained setup key own state state :=
  .nothing (fun _ _ => rfl) rfl rfl

theorem Explained.trans (first : Explained setup key own state middle)
    (second : Explained setup key own middle final) : Explained setup key own state final := by
  obtain ⟨log, departed, explained⟩ := first
  obtain ⟨later, departedToo, explainedToo⟩ := second
  refine ⟨log ++ later, departed.append departedToo, fun departure member => ?_⟩
  rcases List.mem_append.mp member with here | there
  · exact explained departure here
  · exact explainedToo departure there

end CacheState

namespace TieredCache

open TierVault.Action CacheState

variable {setup : CacheSetup World} {storable : Value → Prop} {sound : World → Prop}
  {shelves : World → Tier → Shelf} {newest : String → Option Value}
  {state final : CacheState World} {key other : String} {entry : Entry} {own : Tier → Nat}
  {tier next : Tier} {kept : List String}

/-- Making room in the tier has explained departures, and fails only where the entry of the key is in the
way. -/
def Relieves (setup : CacheSetup World) (storable : Value → Prop) (sound : World → Prop)
    (shelves : World → Tier → Shelf) (newest : String → Option Value) (key : String)
    (own : Tier → Nat) (tier : Tier) : Prop :=
  ∀ (needed : Nat) (kept : List String) (state : CacheState World),
    Agrees setup storable sound shelves newest state → state.reclaimed key = own →
    key ∈ kept → Alone key kept tier state →
    Leads AnyFault (makeRoom setup tier needed kept) state fun fits final =>
      Explained setup key own state final ∧
        (fits = false → setup.tiers.capacity tier < own tier + needed)

theorem orderly_of_agrees (agrees : Agrees setup storable sound shelves newest state) :
    state.Orderly setup AnyFault sound :=
  ⟨agrees.balanced.toTallied, agrees.sound, fun checked => absurd trivial checked⟩

theorem steady_of_sturdy (sturdy : setup.Sturdy storable sound shelves) :
    setup.Steady AnyFault sound :=
  sturdy.steady.mono fun _ => False.elim

theorem explained_evict (sturdy : setup.Sturdy storable sound shelves)
    (agrees : Agrees setup storable sound shelves newest state)
    (found : state.lookup other = some entry) (different : other ≠ key)
    (stuck : ∀ next, entry.tier.colder? = some next →
      setup.tiers.capacity next < own next + entry.size) :
    Leads AnyFault (evict setup other) state fun _ final => Explained setup key own state final := by
  simp only [evict, leads_bind]
  refine leads_removeEntry (steady_of_sturdy sturdy) agrees.sound
    (fun _ => agrees.balanced.covers) ?_ ?_
  · intro missing
    cases missing.symm.trans found
  · intro held answer world same _ _
    cases same.symm.trans found
    simp only [if_true, leads_bind, leads_count, leads_record]
    exact ⟨_, .evict found different, List.forall_mem_singleton.mpr stuck⟩

theorem explained_demote (sturdy : setup.Sturdy storable sound shelves)
    (relieves : Relieves setup storable sound shelves newest key own next)
    (step : entry.tier.colder? = some next)
    (agrees : Agrees setup storable sound shelves newest state)
    (same : state.reclaimed key = own) (found : state.lookup other = some entry)
    (different : other ≠ key) (keeps : key ∈ kept) (alone : Alone key kept entry.tier state) :
    Leads AnyFault (demote setup (makeRoom setup next) other entry.tier next kept) state
      fun moved final =>
        Explained setup key own state final ∧
          (moved = false → setup.tiers.capacity next < own next + entry.size) := by
  have steady := steady_of_sturdy sturdy
  have deeper := Tier.level_colder step
  have apart := Tier.ne_of_colder step
  rcases agrees.sized other entry found with ⟨value, new, able, size_eq⟩
  simp only [demote, leads_bind, leads_lookup, found]
  refine leads_onStore (steady.get _ _) agrees.sound ?_
  intro answer asked get stays
  have read := agrees.newest_of_get sturdy found get
  rw [new] at read
  subst read
  have here := (agrees.get sturdy get).2
  have aside : Alone key (kept ++ [other]) next (state.inWorld asked) := by
    intro inner member another held there
    rcases List.mem_append.mp member with early | last
    · have above := alone inner early another held there
      omega
    · cases List.mem_singleton.mp last
      cases found.symm.trans there
      omega
  simp only [leads_bind]
  refine Leads.imp (Leads.and
    (relieves entry.size (kept ++ [other]) _ here same (List.mem_append_left _ keeps) aside)
    (makesRoom steady next entry.size (kept ++ [other]) _ (orderly_of_agrees here)
      fun checked => absurd trivial checked)) ?_
  rintro fits roomy - ⟨⟨explained, squeezed⟩, inner, tidy, space⟩
  have present : roomy.lookup other = some entry :=
    (inner.lookup_of_mem (List.mem_append_right kept (List.mem_singleton.mpr rfl))).trans found
  have start : Explained setup key own state (state.inWorld asked) :=
    .nothing (fun _ _ => rfl) rfl rfl
  have onward := start.trans explained
  cases fits with
  | false => exact ⟨onward, fun _ => squeezed rfl⟩
  | true =>
      have ready := here.retreat sturdy inner
      have fits := fits_of_elsewhere present apart (space rfl)
      simp only [Bool.not_true, Bool.false_eq_true, if_false, leads_bind]
      refine leads_onStore (steady.put _ _ _) tidy.sound ?_
      intro answer written put stays
      rcases ready.put sturdy able size_eq fits with ⟨world, ended, -⟩
      cases put.symm.trans ended
      simp only [leads_bind, leads_count, leads_record, leads_pure]
      refine leads_moveEntry steady stays present apart (tidy.tallied.covers present)
        (fun checked => absurd trivial checked) ?_
      intro answer gone deleted _
      have moves : Moves setup other entry value next roomy _ := .followed (space rfl) put deleted
      have demotes : Explained setup key own roomy ((roomy.inWorld gone).relocate other entry next).demoted :=
        ⟨_, .demote present different moves, List.forall_mem_singleton.mpr step⟩
      exact ⟨onward.trans demotes, by simp⟩

theorem explained_vacate (sturdy : setup.Sturdy storable sound shelves)
    (relieves : ∀ next, entry.tier.colder? = some next →
      Relieves setup storable sound shelves newest key own next)
    (agrees : Agrees setup storable sound shelves newest state)
    (same : state.reclaimed key = own) (found : state.lookup other = some entry)
    (free : other ∉ kept) (keeps : key ∈ kept) (alone : Alone key kept entry.tier state) :
    Leads AnyFault (vacate setup entry.tier kept other) state fun _ final =>
      Explained setup key own state final := by
  have different : other ≠ key := fun equal => free (equal ▸ keeps)
  have steady := steady_of_sturdy sturdy
  unfold vacate
  cases step : entry.tier.colder? with
  | none =>
      apply explained_evict sturdy agrees found different
      intro next colder
      cases step.symm.trans colder
  | some next =>
      simp only [leads_bind]
      refine Leads.imp (Leads.and
        (explained_demote sturdy (relieves next step) step agrees same found different keeps alone)
        (leads_demote steady (makesRoom steady next) step (orderly_of_agrees agrees) found free)) ?_
      rintro moved middle - ⟨⟨explained, squeezed⟩, retreat, -, -, -, present⟩
      cases moved with
      | true => exact explained
      | false =>
          simp only [Bool.not_false, if_true]
          have here := agrees.retreat sturdy retreat
          have stuck (colder : Tier) (there : entry.tier.colder? = some colder) :
              setup.tiers.capacity colder < own colder + entry.size := by
            cases step.symm.trans there
            exact squeezed rfl
          apply (explained_evict sturdy here (present rfl) different stuck).imp
          intro _ final _ further
          exact explained.trans further

/-- Over stores that do not fail, room is made unless the entry of the key is in the way. -/
theorem relieves (sturdy : setup.Sturdy storable sound shelves) (newest : String → Option Value)
    (key : String) (own : Tier → Nat) (tier : Tier) :
    Relieves setup storable sound shelves newest key own tier := by
  induction tier using Tier.colder_induction with
  | step tier colder =>
      intro needed kept state agrees same keeps alone
      have steady := steady_of_sturdy sturdy
      refine Leads.and ?_ (same ▸ leads_makeRoom_squeezed agrees.balanced alone)
      rw [makeRoom_eq]
      simp only [leads_bind, leads_get]
      split
      · exact .refl state
      split
      · exact .refl state
      simp only [leads_bind, leads_get]
      refine leads_any_ofExcept _ fun victims took => ?_
      refine (leads_forM
        (fun left middle => Retreat setup tier kept state middle ∧ Explained setup key own state middle ∧
          Awaiting tier kept left middle)
        ?_ ⟨.stay state, .refl state, awaiting_of_victims agrees.balanced.toTallied took⟩).imp ?_
      · rintro victim rest middle ⟨retreat, explained, awaiting⟩
        have first := List.mem_cons_self (a := victim) (l := rest)
        have free := awaiting.free victim first
        have here := agrees.retreat sturdy retreat
        have held := (retreat.reclaimed_of_mem keeps).trans same
        obtain ⟨entry, found, rfl, -⟩ := awaiting.present victim first
        refine Leads.imp (Leads.and
          (explained_vacate sturdy colder here held found free keeps (retreat.alone alone))
          (leads_vacate steady (fun next _ => makesRoom steady next) (orderly_of_agrees here) found
            free)) ?_
        rintro _ final - ⟨further, retreatToo, -, spared, -⟩
        exact ⟨retreat.trans retreatToo, explained.trans further, awaiting.rest spared⟩
      · rintro _ final - ⟨-, explained, -⟩
        exact leads_any_ofExcept _ fun _ _ => explained

end TieredCache

end

end TierVault
