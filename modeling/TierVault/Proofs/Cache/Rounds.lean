import TierVault.Proofs.Cache.Ages
import TierVault.Proofs.Cache.Losses
import TierVault.Proofs.Cache.Watching

/-!
Which entries leave a tier while room is made in it.

The keys that were least recently written or found lose their places, and no more of them than it takes. Whether
an entry leaves depends on when its key was used and on the sizes of the entries before it, but not on the order
in which the cache lists its entries.
-/

namespace TierVault

variable {World : Type}

namespace Round

/-- What the tier had to give up. -/
def shortfall (round : Round World) : Nat := round.needed - (round.before.usage.get round.tier).available

/-- Of the entries of the tier that are not kept, those of the keys that were least recently used leave: as few
as make up the shortfall, or all of them where that is not enough. None leaves if the tier can never hold what
is needed. -/
structure OldestLeave (setup : CacheSetup World) (round : Round World) (leaving staying : List Candidate) :
    Prop where
  made : ∃ fits, TieredCache.makeRoom setup round.tier round.needed round.kept round.before = .ok fits round.after
  all : (leaving ++ staying).Perm (Eviction.candidates round.before.entryList round.tier round.kept)
  byUse : (leaving ++ staying).Pairwise fun one other => ∃ number later,
    lastUse one.key round.past = some number ∧ lastUse other.key round.past = some later ∧ number < later
  /-- Exactly these leave the tier. -/
  leave : ∀ key entry, round.before.lookup key = some entry → entry.tier = round.tier →
    (TieredCache.Vacated round.tier key round.after ↔ key ∈ leaving.map Candidate.key)
  /-- The others stay as they are, and none comes. -/
  stay : ∀ key entry, round.after.lookup key = some entry → entry.tier = round.tier →
    round.before.lookup key = some entry
  shortest : ∀ few, few <+: leaving → few ≠ leaving → sumOf (few.map Candidate.size) < round.shortfall
  enough : round.needed ≤ setup.tiers.capacity round.tier →
    round.shortfall ≤ sumOf (leaving.map Candidate.size) ∨ staying = []
  nothing : round.shortfall = 0 ∨ setup.tiers.capacity round.tier < round.needed → leaving = []
  /-- They are chosen in whichever order the entries are listed. -/
  anyOrder : round.needed ≤ setup.tiers.capacity round.tier → ∀ entries, entries.Perm round.before.entryList →
    Eviction.victims entries round.tier round.shortfall round.kept = .ok leaving

end Round

/-! ## Candidates by use -/

namespace CacheState

variable {setup : CacheSetup World} {state : CacheState World} {last : String → Option Nat} {kept : List String}
  {tier : Tier} {past : List CacheEvent} {candidate one other : Candidate}

theorem of_mem_candidates (tallied : state.Tallied setup)
    (member : candidate ∈ Eviction.candidates state.entryList tier kept) :
    ∃ entry, state.lookup candidate.key = some entry ∧ entry.tier = tier ∧ candidate.key ∉ kept ∧
      candidate = .ofEntry entry := by
  obtain ⟨entry, listed, own, free, rfl⟩ := Eviction.mem_candidates.mp member
  exact ⟨entry, tallied.lookup_of_mem listed, own, free, rfl⟩

/-- Of two candidates, the one whose key was used first is the older one. -/
theorem InOrder.before_or (inOrder : InOrder (lastUse · past) kept state) (tallied : state.Tallied setup)
    (first : one ∈ Eviction.candidates state.entryList tier kept)
    (second : other ∈ Eviction.candidates state.entryList tier kept) (different : one.key ≠ other.key) :
    ∃ number later, lastUse one.key past = some number ∧ lastUse other.key past = some later ∧
      (number < later ∧ one.recency.Before other.recency ∨
        later < number ∧ other.recency.Before one.recency) := by
  obtain ⟨entry, found, -, free, same⟩ := of_mem_candidates tallied first
  obtain ⟨held, there, -, own, alike⟩ := of_mem_candidates tallied second
  obtain ⟨number, early⟩ := inOrder.used found free
  obtain ⟨later, late⟩ := inOrder.used there own
  have aged : one.recency = entry.recency := congrArg Candidate.recency same
  have agedToo : other.recency = held.recency := congrArg Candidate.recency alike
  refine ⟨number, later, early, late, ?_⟩
  rw [aged, agedToo]
  rcases Nat.lt_trichotomy number later with less | equal | more
  · exact .inl ⟨less, inOrder.order found there free own early late less⟩
  · exact absurd (eq_of_lastUse early (equal ▸ late)) different
  · exact .inr ⟨more, inOrder.order there found own free late early more⟩

/-- The evictor takes the candidates in the order in which their keys were used. -/
theorem InOrder.oldestFirst (inOrder : InOrder (lastUse · past) kept state) (tallied : state.Tallied setup)
    (tier : Tier) :
    (Eviction.oldestFirst (Eviction.candidates state.entryList tier kept)).Pairwise fun one other =>
      one.recency.Before other.recency ∧ ∃ number later,
        lastUse one.key past = some number ∧ lastUse other.key past = some later ∧ number < later := by
  have perm := Eviction.oldestFirst_perm (Eviction.candidates state.entryList tier kept)
  have distinct := (perm.map Candidate.key).nodup_iff.mpr (Eviction.nodup_candidates tallied.nodup_entryList)
  refine List.Pairwise.imp_of_mem ?_ ((Eviction.oldestFirst_pairwise _).and (List.pairwise_map.mp distinct))
  intro one other first second ⟨sorted, different⟩
  obtain ⟨number, later, early, late, ⟨less, before⟩ | ⟨more, reversed⟩⟩ :=
    inOrder.before_or tallied (perm.subset first) (perm.subset second) different
  · exact ⟨before, number, later, early, late, less⟩
  · -- Sorted one way and older the other way, they would be equally old, and ticks tell them apart.
    have equal := Recency.eq_of_notAfter sorted reversed.notAfter
    exact absurd (congrArg Recency.tick equal) (Nat.ne_of_gt reversed.2)

end CacheState

namespace TieredCache

open TierVault.Action CacheState

variable {setup : CacheSetup World} {state final : CacheState World} {tier : Tier} {kept : List String}
  {needed : Nat} {past : List CacheEvent}

/-! ## One round -/

/-- Making room has the victims leave, and no others. -/
theorem leads_makeRoom_leaving (tallied : state.Tallied setup) :
    Leads AnyFault (makeRoom setup tier needed kept) state fun _ final =>
      Retreat setup tier kept state final ∧ ∃ leaving,
        (if setup.tiers.capacity tier < needed then leaving = []
          else Eviction.victims state.entryList tier (needed - (state.usage.get tier).available) kept =
            .ok leaving) ∧
        (∀ victim ∈ leaving, Vacated tier victim.key final) ∧
          ∀ key entry, key ∉ leaving.map Candidate.key → state.lookup key = some entry → entry.tier = tier →
            final.lookup key = some entry := by
  rw [makeRoom_eq]
  simp only [leads_bind, leads_get, tallied.capacity tier]
  split
  · exact ⟨.stay state, [], rfl, List.forall_mem_nil _, fun _ _ _ found _ => found⟩
  split
  · rename_i enough
    rw [Nat.sub_eq_zero_of_le enough]
    exact ⟨.stay state, [], Eviction.victims_nothing, List.forall_mem_nil _, fun _ _ _ found _ => found⟩
  simp only [leads_bind, leads_get]
  refine leads_any_ofExcept _ fun victims took => ?_
  -- The victims that are not left to do have left, and the entries of all other keys are where they were.
  refine (leads_forM
    (fun left middle => Retreat setup tier kept state middle ∧ Awaiting tier kept left middle ∧
      (∀ victim ∈ victims, victim ∈ left ∨ Vacated tier victim.key middle) ∧
      (∀ victim ∈ left, victim ∈ victims) ∧
        ∀ key entry, key ∉ victims.map Candidate.key → state.lookup key = some entry → entry.tier = tier →
          middle.lookup key = some entry)
    ?_ ⟨.stay state, awaiting_of_victims tallied took, fun _ => .inl, fun _ => id,
      fun _ _ _ found _ => found⟩).imp ?_
  · rintro victim rest middle ⟨retreat, awaiting, gone, chosen, spared⟩
    have first := List.mem_cons_self (a := victim) (l := rest)
    obtain ⟨entry, found, rfl, -⟩ := awaiting.present victim first
    have tidy := orderly_of_any (retreat.tallied tallied)
    refine (leads_vacate steady_of_any (fun next _ => makesRoom steady_of_any next) tidy found
      (awaiting.free victim first)).imp ?_
    rintro _ final - ⟨further, -, others, vacated⟩
    refine ⟨retreat.trans further, awaiting.rest others, ?_, ?_, ?_⟩
    · intro asked member
      rcases gone asked member with left | left
      · rcases List.mem_cons.mp left with rfl | later
        · exact .inr vacated
        · exact .inl later
      · exact .inr fun held there same => left held (further.lookup_of_final there (same ▸ Nat.le_refl _)) same
    · exact fun asked member => chosen asked (List.mem_cons_of_mem _ member)
    · intro key held free there own
      refine others key held ?_ (spared key held free there own) own
      exact fun same => free (same ▸ List.mem_map_of_mem (chosen victim first))
  · rintro _ middle - ⟨retreat, -, gone, -, spared⟩
    refine leads_any_ofExcept _ fun bytes summed => ⟨retreat, victims, took, ?_, spared⟩
    intro victim member
    exact (gone victim member).resolve_left List.not_mem_nil

/-- Where the entries are dated in the order of use, the oldest leave. -/
theorem oldestLeave_of_ok {fits : Bool} (tallied : state.Tallied setup)
    (inOrder : InOrder (lastUse · past) kept state)
    (made : makeRoom setup tier needed kept state = .ok fits final) :
    ∃ leaving staying, Round.OldestLeave setup ⟨past, tier, needed, kept, state, final⟩ leaving staying := by
  obtain ⟨retreat, leaving, chosen, gone, spared⟩ := (leads_makeRoom_leaving tallied).of_ok made
  have ordered := inOrder.oldestFirst tallied tier
  have took (allowed : needed ≤ setup.tiers.capacity tier) : Eviction.victims state.entryList tier
      (needed - (state.usage.get tier).available) kept = .ok leaving := by
    rwa [if_neg (Nat.not_lt.mpr allowed)] at chosen
  have begins : leaving <+: Eviction.oldestFirst (Eviction.candidates state.entryList tier kept) := by
    split at chosen
    · exact chosen ▸ List.nil_prefix
    · exact Eviction.takeUntilFreed_begins chosen
  obtain ⟨staying, whole⟩ := begins
  have nothing (none : needed - (state.usage.get tier).available = 0 ∨ setup.tiers.capacity tier < needed) :
      leaving = [] := by
    split at chosen
    · exact chosen
    · rename_i allowed
      rw [none.resolve_right allowed, Eviction.victims_nothing] at chosen
      cases chosen
      rfl
  refine ⟨leaving, staying, ⟨fits, made⟩, ?_, ?_, ?_, ?_, ?_, ?_, nothing, ?_⟩
  · rw [whole]
    exact Eviction.oldestFirst_perm _
  · rw [whole]
    exact ordered.imp And.right
  · intro key entry found own
    refine ⟨fun vacated => ?_, fun member => ?_⟩
    · by_contra free
      exact vacated entry (spared key entry free found own) own
    · obtain ⟨victim, listed, rfl⟩ := List.mem_map.mp member
      exact gone victim listed
  · exact fun key entry found own => retreat.lookup_of_final found (own ▸ Nat.le_refl _)
  · intro few fewer proper
    have allowed : ¬setup.tiers.capacity tier < needed := by
      intro large
      rw [nothing (.inr large)] at fewer proper
      exact proper (List.prefix_nil.mp fewer)
    have lacking := Eviction.takeUntilFreed_shortest (took (Nat.not_lt.mp allowed)) fewer proper
    rwa [Nat.zero_add] at lacking
  · intro allowed
    refine (Eviction.takeUntilFreed_frees (took allowed)).imp (fun frees => ?_) fun all => ?_
    · rwa [Nat.zero_add] at frees
    · rw [← whole] at all
      exact List.self_eq_append_right.mp all
  · -- All of the candidates are told apart by their age, so that no order of theirs is left to the heap.
    intro allowed entries perm
    have same : (Eviction.candidates entries tier kept).Perm
        (Eviction.oldestFirst (Eviction.candidates state.entryList tier kept)) :=
      ((perm.filter _).map _).trans (Eviction.oldestFirst_perm _).symm
    have sorted := Eviction.oldestFirst_of_perm (ordered.imp And.left) same
    have chose := took allowed
    unfold Eviction.victims at chose ⊢
    rw [sorted]
    exact chose

end TieredCache

/-! ## All rounds of a run -/

/-- Room was made when the entries were dated in the order of use. -/
structure Round.Sound (setup : CacheSetup World) (past : List CacheEvent) (round : Round World) : Prop where
  begins : round.past <+: past
  tallied : round.before.Tallied setup
  inOrder : CacheState.InOrder (lastUse · round.past) round.kept round.before
  made : ∃ fits, TieredCache.makeRoom setup round.tier round.needed round.kept round.before = .ok fits round.after

/-- The rounds that were written down are sound. -/
structure Watched.Sound (setup : CacheSetup World) (past : List CacheEvent) (watched : Watched World) : Prop where
  same : watched.past = past
  rounds : ∀ round ∈ watched.rounds, round.Sound setup past

/-- Room may be made, beside the entries that are kept. -/
structure Watched.Ready (setup : CacheSetup World) (past : List CacheEvent) (kept : List String)
    (watched : Watched World) : Prop where
  sound : watched.Sound setup past
  tallied : watched.state.Tallied setup
  inOrder : CacheState.InOrder (lastUse · past) kept watched.state

theorem Watched.Ready.keepsDates {setup : CacheSetup World} {past : List CacheEvent} {kept more : List String}
    {start final : Watched World} (ready : start.Ready setup past kept) (sound : final.Sound setup past)
    (tallied : final.state.Tallied setup) (keeps : CacheState.KeepsDates start.state final.state)
    (subset : kept ⊆ more) : final.Ready setup past more :=
  ⟨sound, tallied, ready.inOrder.keepsDates keeps subset⟩

namespace WatchedCache

open TierVault.Action CacheState

variable {Result : Type} {faults : Fault → Prop} {setup : CacheSetup World} {start : Watched World}
  {past : List CacheEvent} {kept : List String} {tier source target : Tier} {needed : Nat} {key : String}
  {value : Value} {size now : Nat} {lifetime? : Option Nat} {entry : Entry}

@[simp] theorem leads_watch {action : CacheAction World Result} {after : Result → Watched World → Prop} :
    Leads faults (watch action) start after ↔
      Leads faults action start.state fun result state => after result { start with state } := by
  unfold Leads watch
  cases action start.state <;> rfl

theorem leads_round {action : WatchedAction World Bool} {after : Bool → Watched World → Prop} :
    Leads faults (round tier needed kept action) start after ↔
      Leads faults action start fun fits seen => after fits { seen with
        rounds := seen.rounds ++ [⟨start.past, tier, needed, kept, start.state, seen.state⟩] } := by
  unfold round
  simp only [leads_bind, leads_get, leads_modify, leads_pure]

theorem sound_watch (sound : start.Sound setup past) (action : CacheAction World Result) :
    Leads AnyFault (watch action) start fun _ final => final.Sound setup past :=
  leads_watch.mpr (leads_any.mpr fun _ _ _ => ⟨sound.same, sound.rounds⟩)

/-- Wherever it is ready, making room keeps the rounds sound. -/
def MakesSound (setup : CacheSetup World) (past : List CacheEvent)
    (room : Nat → List String → WatchedAction World Bool) : Prop :=
  ∀ needed kept start, start.Ready setup past kept →
    Leads AnyFault (room needed kept) start fun _ final => final.Sound setup past

theorem sound_demote {room : Nat → List String → WatchedAction World Bool} (makes : MakesSound setup past room)
    (ready : start.Ready setup past kept) :
    Leads AnyFault (demote setup room key source target kept) start fun _ final => final.Sound setup past := by
  simp only [demote, leads_bind, leads_watch, TieredCache.leads_lookup]
  cases start.state.lookup key with
  | none => exact ready.sound
  | some entry =>
      simp only [leads_bind, leads_watch]
      refine TieredCache.leads_onStore (TieredCache.steady_of_any.get _ _) trivial ?_
      rintro answer world - -
      have asked : Watched.Sound setup past { start with state := start.state.inWorld world } :=
        ⟨ready.sound.same, ready.sound.rounds⟩
      rcases answer with error | _ | value
      · exact asked
      · exact asked
      simp only [leads_bind]
      refine (makes entry.size (kept ++ [key]) _ (ready.keepsDates asked (ready.tallied.inWorld world)
        (.refl start.state) (List.subset_append_left kept [key]))).imp ?_
      rintro fits roomy - sound
      cases fits with
      | false => exact sound
      | true =>
          simp only [Bool.not_true, Bool.false_eq_true, if_false, leads_bind]
          refine (sound_watch sound _).imp ?_
          rintro (error | _) written - sound
          · exact sound
          · exact sound_watch sound _

/-- The entry of a key leaves its tier. -/
def vacate (setup : CacheSetup World) (tier : Tier) (kept : List String) (key : String) :
    WatchedAction World Unit := do
  let demoted ← match tier.colder? with
    | none => pure false
    | some next => demote setup (makeRoom setup next) key tier next kept
  if !demoted then watch (TieredCache.evict setup key)

theorem makeRoom_eq (setup : CacheSetup World) (tier : Tier) (needed : Nat) (kept : List String) :
    makeRoom setup tier needed kept = round tier needed kept do
      let usage := (← watch MonadState.get).usage.get tier
      if usage.capacity < needed then return false
      if needed ≤ usage.available then return true
      let entries := (← watch MonadState.get).entryList
      let victims ← watch (Action.ofExcept (Eviction.victims entries tier (needed - usage.available) kept))
      victims.forM fun victim => vacate setup tier kept victim.key
      let usage := (← watch MonadState.get).usage.get tier
      return (← watch (Action.ofExcept (Word.sum usage.bytes needed))) ≤ usage.capacity := by
  cases tier <;> rfl

theorem mirrors_vacate : Mirrors (vacate setup tier kept key) (TieredCache.vacate setup tier kept key) := by
  unfold vacate TieredCache.vacate
  cases tier.colder? with
  | none => exact (mirrors_pure false).bind mirrors_evicting
  | some next => exact (mirrors_demote (mirrors_makeRoomIn next.downward)).bind mirrors_evicting

theorem sound_vacate (makes : ∀ next, tier.colder? = some next → MakesSound setup past (makeRoom setup next))
    (ready : start.Ready setup past kept) :
    Leads AnyFault (vacate setup tier kept key) start fun _ final => final.Sound setup past := by
  have evicting {middle : Watched World} (sound : middle.Sound setup past) (demoted : Bool) :
      Leads AnyFault (if !demoted then watch (TieredCache.evict setup key) else pure ()) middle
        fun _ final => final.Sound setup past := by
    cases demoted with
    | false => exact sound_watch sound _
    | true => exact sound
  unfold vacate
  cases step : tier.colder? with
  | none => exact evicting ready.sound false
  | some next =>
      simp only [leads_bind]
      refine (sound_demote (makes next step) ready).imp ?_
      exact fun demoted middle _ sound => evicting sound demoted

/-- The round is written down with the rounds within it. -/
theorem sound_round {action : WatchedAction World Bool}
    (mirrors : Mirrors (round tier needed kept action) (TieredCache.makeRoom setup tier needed kept))
    (ready : start.Ready setup past kept)
    (leads : Leads AnyFault action start fun _ final => final.Sound setup past) :
    Leads AnyFault (round tier needed kept action) start fun _ final => final.Sound setup past := by
  refine leads_round.mpr (leads.imp ?_)
  intro fits seen ended sound
  refine ⟨sound.same, fun made member => ?_⟩
  rcases List.mem_append.mp member with earlier | last
  · exact sound.rounds made earlier
  · cases List.mem_singleton.mp last
    have same := mirrors start
    change bare (EStateM.bind action _ start) = _ at same
    unfold EStateM.bind at same
    rw [ended] at same
    refine ⟨?_, ready.tallied, ?_, fits, same.symm⟩
    · exact ready.sound.same ▸ List.prefix_refl _
    · exact ready.sound.same ▸ ready.inOrder

theorem sound_makeRoom (tier : Tier) : MakesSound setup past (makeRoom setup tier) := by
  induction tier using Tier.colder_induction with
  | step tier colder =>
      intro needed kept start ready
      have mirrors : Mirrors (makeRoom setup tier needed kept) (TieredCache.makeRoom setup tier needed kept) :=
        mirrors_makeRoomIn tier.downward needed kept
      rw [makeRoom_eq] at mirrors ⊢
      refine sound_round mirrors ready ?_
      simp only [leads_bind, leads_watch, leads_get]
      split
      · exact ready.sound
      split
      · exact ready.sound
      simp only [leads_bind, leads_watch, leads_get]
      refine leads_any_ofExcept _ fun victims took => ?_
      refine (leads_forM
        (fun left (middle : Watched World) => Retreat setup tier kept start.state middle.state ∧
          TieredCache.Awaiting tier kept left middle.state ∧ middle.Sound setup past)
        ?_ ⟨.stay start.state, TieredCache.awaiting_of_victims ready.tallied took, ready.sound⟩).imp ?_
      · -- The victims before this one left, and the dates of the others are what they were.
        rintro victim rest middle ⟨retreat, awaiting, sound⟩
        have first := List.mem_cons_self (a := victim) (l := rest)
        obtain ⟨entry, found, rfl, -⟩ := awaiting.present victim first
        have still := ready.keepsDates sound (retreat.tallied ready.tallied) retreat.keepsDates
          (List.Subset.refl kept)
        have vacates := TieredCache.leads_vacate TieredCache.steady_of_any
          (fun next _ => TieredCache.makesRoom TieredCache.steady_of_any next)
          (TieredCache.orderly_of_any still.tallied) found (awaiting.free victim first)
        refine ((mirrors_vacate.leads vacates).and (sound_vacate colder still)).imp ?_
        rintro _ final - ⟨⟨further, -, others, -⟩, soundToo⟩
        exact ⟨retreat.trans further, awaiting.rest others, soundToo⟩
      · rintro _ final - ⟨-, -, sound⟩
        simp only [leads_pure]
        exact leads_any_ofExcept _ fun _ _ => sound

/-- After room was made, more may be made. -/
theorem ready_makeRoom (ready : start.Ready setup past kept) :
    Leads AnyFault (makeRoom setup tier needed kept) start fun _ final => final.Ready setup past kept := by
  have retreats := (mirrors_makeRoomIn tier.downward needed kept).leads (TieredCache.makesRoom
    TieredCache.steady_of_any tier needed kept start.state (TieredCache.orderly_of_any ready.tallied)
    fun checked => absurd trivial checked)
  refine (retreats.and (sound_makeRoom tier needed kept start ready)).imp ?_
  rintro _ final - ⟨⟨retreat, -⟩, sound⟩
  exact ready.keepsDates sound (retreat.tallied ready.tallied) retreat.keepsDates (List.Subset.refl kept)

theorem sound_place (tiers : List Tier) (ready : start.Ready setup past [key]) :
    Leads AnyFault (place setup key value size lifetime? tiers) start fun _ final => final.Sound setup past := by
  induction tiers generalizing start with
  | nil => exact sound_watch ready.sound _
  | cons tier colder induction =>
      unfold place
      split
      · exact induction ready
      simp only [leads_bind, leads_watch, TieredCache.leads_reclaimable]
      refine (ready_makeRoom ready).imp ?_
      rintro (_ | _) roomy - roomed
      · exact induction roomed
      · exact sound_watch roomed.sound _

theorem sound_put (ready : start.Ready setup past []) :
    Leads AnyFault (put setup key value lifetime?) start fun _ final => final.Sound setup past := by
  unfold put
  cases value.encodedSize with
  | error => exact sound_watch ready.sound _
  | ok size =>
      exact sound_place _ ⟨ready.sound, ready.tallied, ready.inOrder.keepsDates (.refl _) (List.nil_subset _)⟩

theorem sound_promote (ready : start.Ready setup past [key]) :
    Leads AnyFault (promote setup key source target value) start fun _ final => final.Sound setup past := by
  simp only [promote, leads_bind, leads_watch, TieredCache.leads_lookup]
  cases start.state.lookup key with
  | none => exact ready.sound
  | some entry =>
      simp only [leads_bind]
      refine (ready_makeRoom ready).imp ?_
      rintro (_ | _) roomy - roomed
      · exact roomed.sound
      · exact sound_watch roomed.sound _

/-- The entry that is found is dated anew, but it is kept. -/
theorem sound_hit (ready : start.Ready setup past []) (found : start.state.lookup key = some entry) :
    Leads AnyFault (hit setup key tier value now) start fun _ final => final.Sound setup past := by
  have touched : Watched.Ready setup past [key] { start with state := (touch setup start.state key entry).hit } := by
    refine ⟨⟨ready.sound.same, ready.sound.rounds⟩, ((ready.tallied.touch found).counted _).recorded _ _, ?_⟩
    refine ready.inOrder.keep fun other held there free => ⟨List.not_mem_nil, held, ?_, rfl⟩
    exact (lookup_touch_other fun same => free (List.mem_singleton.mpr same)).symm.trans there
  simp only [hit, leads_bind, leads_watch, TieredCache.leads_touchEntry found, TieredCache.leads_count,
    TieredCache.leads_record]
  cases tier.hotter? with
  | none => exact touched.sound
  | some hotter =>
      simp only
      split
      · simp only [leads_bind, leads_pure]
        exact sound_promote touched
      · exact touched.sound

theorem sound_get (ready : start.Ready setup past []) :
    Leads AnyFault (get setup key) start fun _ final => final.Sound setup past := by
  simp only [get, leads_bind, leads_watch, TieredCache.leads_readClock, TieredCache.leads_lookup]
  have timed : Watched.Sound setup past { start with state := start.state.timed } :=
    ⟨ready.sound.same, ready.sound.rounds⟩
  cases found : start.state.timed.lookup key with
  | none => exact sound_watch timed _
  | some entry =>
      simp only
      split
      · exact sound_watch timed _
      simp only [leads_bind, leads_watch]
      refine TieredCache.leads_onStore (TieredCache.steady_of_any.get _ _) trivial ?_
      rintro answer world - -
      have asked : Watched.Ready setup past [] { start with state := start.state.timed.inWorld world } :=
        ready.keepsDates ⟨ready.sound.same, ready.sound.rounds⟩ (ready.tallied.timed.inWorld world)
          (.timed start.state) (List.Subset.refl [])
      rcases answer with error | _ | value
      · exact sound_watch asked.sound _
      · exact sound_watch asked.sound _
      · exact sound_hit asked found

theorem sound_run (call : CacheCall) (ready : start.Ready setup past []) :
    Leads AnyFault (run setup call) start fun _ final => final.Sound setup past := by
  cases call with
  | put => exact sound_put ready
  | get => exact sound_get ready
  | _ => exact sound_watch ready.sound _

theorem sound_runAll (forward : ∀ first second, first ≤ second → setup.clock first ≤ setup.clock second)
    (calls : List CacheCall) (sound : start.Sound setup past) (tallied : start.state.Tallied setup)
    (dated : Dated setup past start.state) :
    Leads AnyFault (runAll setup calls) start fun history final => final.Sound setup (past ++ history) := by
  induction calls generalizing start past with
  | nil =>
      change start.Sound setup (past ++ [])
      rwa [List.append_nil]
  | cons call later induction =>
      unfold runAll
      simp only [leads_bind, leads_modify, leads_pure]
      have outcomes : Leads AnyFault (call.run setup) start.state fun answer state =>
          call.Outcome setup start.state answer state :=
        leads_any.mpr fun answer state => TieredCache.outcome_of_ok tallied call
      refine (((mirrors_run call).leads outcomes).and (sound_run call ⟨sound, tallied, dated.inOrder⟩)).imp ?_
      rintro answer middle - ⟨outcome, made⟩
      have onward : Watched.Sound setup (past ++ [⟨call, answer⟩])
          { middle with past := middle.past ++ [⟨call, answer⟩] } := by
        refine ⟨by rw [made.same], fun round member => ?_⟩
        obtain ⟨begins, books, inOrder, done⟩ := made.rounds round member
        exact ⟨begins.trans (List.prefix_append _ _), books, inOrder, done⟩
      refine (induction onward (restrained_of_outcome outcome tallied).tallied
        (dated_of_outcome forward dated outcome)).imp ?_
      rintro history final - last
      rwa [List.append_assoc] at last

end WatchedCache

namespace TieredCache

open TierVault.Action CacheState

variable {setup : CacheSetup World} {final : CacheState World}

/-- Whenever room is made along a run, the entries of the least recently used keys leave, and no more of them
than are needed. -/
theorem oldest_leave (forward : ∀ first second, first ≤ second → setup.clock first ≤ setup.clock second)
    (world : World) (calls : List CacheCall) {history : List CacheEvent}
    (ended : runAll setup calls (.start setup world) = .ok history final) :
    ∃ rounds, WatchedCache.runAll setup calls (.start setup world) = .ok history ⟨final, history, rounds⟩ ∧
      ∀ round ∈ rounds, round.past <+: history ∧
        ∃ leaving staying, round.OldestLeave setup leaving staying := by
  have fresh : Watched.Sound setup [] (.start setup world) := ⟨rfl, List.forall_mem_nil _⟩
  have tallied : (Watched.start setup world).state.Tallied setup := .start world
  have ends : runAll setup calls (Watched.start setup world).state = .ok history final := ended
  obtain ⟨⟨state, past, rounds⟩, watched, same⟩ := (WatchedCache.mirrors_runAll calls).of_ok ends
  have sound := (WatchedCache.sound_runAll forward calls fresh tallied (.start world)).of_ok watched
  cases same
  cases sound.same
  refine ⟨rounds, watched, fun round member => ?_⟩
  obtain ⟨begins, books, inOrder, fits, made⟩ := sound.rounds round member
  exact ⟨begins, oldestLeave_of_ok books inOrder made⟩

/-- Memory holds one value, and the database two. -/
def crammed : CacheSetup (PerTier MemoryWorld) :=
  .inMemory { budgets := ⟨50, 100, 1000, 1000⟩, memoryLimit := 50 } none id

/-- A value takes the place of another one in memory, and that of a third one in the database. -/
theorem oldest_leave_displaced :
    ∃ history final,
      runAll crammed [.put "k" (zeros 48) none, .put "x" (zeros 33) none, .get "x", .put "v" (zeros 33) none]
          (.start crammed (.const [])) = .ok history final ∧
        (final.lookup "x").map Entry.tier = some .sqlite ∧ (final.lookup "k").map Entry.tier = some .columnar ∧
          ∃ rounds, WatchedCache.runAll crammed
              [.put "k" (zeros 48) none, .put "x" (zeros 33) none, .get "x", .put "v" (zeros 33) none]
              (.start crammed (.const [])) = .ok history ⟨final, history, rounds⟩ ∧
            ∀ round ∈ rounds, round.past <+: history ∧
              ∃ leaving staying, round.OldestLeave crammed leaving staying := by
  obtain ⟨history, final, ended, placed⟩ : ∃ history final,
      runAll crammed [.put "k" (zeros 48) none, .put "x" (zeros 33) none, .get "x", .put "v" (zeros 33) none]
          (.start crammed (.const [])) = .ok history final ∧
        ((final.lookup "x").map Entry.tier = some .sqlite ∧
          (final.lookup "k").map Entry.tier = some .columnar) := by
    apply Leads.ends ?_ fun _ => id
    decide +kernel
  have forward : ∀ first second, first ≤ second → crammed.clock first ≤ crammed.clock second := fun _ _ => id
  refine ⟨history, final, ended, placed.1, placed.2, ?_⟩
  exact oldest_leave forward (.const []) _ ended

/-- A small value takes the place of a larger one in the database. The entry that leaves memory for it needs
more room than can be made beside the larger one, which is kept: still the only other entry has to leave. -/
theorem leaves_in_vain :
    ∃ history final,
      WatchedCache.runAll crammed [.put "k" (zeros 48) none, .put "x" (zeros 18) none, .put "v" (zeros 33) none,
          .put "k" (zeros 8) none] (.start crammed (.const [])) = .ok history final ∧
        ∃ round ∈ final.rounds,
          sumOf ((Eviction.candidates round.before.entryList round.tier round.kept).map Candidate.size) <
              round.shortfall ∧
            (round.before.lookup "x").map Entry.tier = some round.tier ∧
              (round.after.lookup "x").map Entry.tier ≠ some round.tier := by
  apply Leads.ends ?_ fun _ => id
  decide +kernel

end TieredCache

end TierVault
