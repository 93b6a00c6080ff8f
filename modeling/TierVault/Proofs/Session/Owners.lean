import TierVault.Proofs.Cache.Cleaning
import TierVault.Proofs.Memory.Lifecycle
import TierVault.Proofs.Session.Offloading

/-!
What lies behind the variables of a session, and who owns it.

Every variable that is alive has one owner, the name that refers to it. What lies behind a variable is there as long
as the variable is alive: a spill has a handle with a clone for each owner, and the cache has an entry under its key
at most. So the last owner that lets go takes everything along, an entry of the cache as long as the cache is open.
-/

namespace TierVault

open TierVault.Action CacheState HandledMemory

variable {World Note : Type}

/-- Neither the stores nor their end work on spill files, and the end takes nothing from the persistent ones. -/
structure SessionSetup.Parted (setup : SessionSetup World) (storable : Value → Prop)
    (sound : World → Prop) (shelves : World → Tier → Shelf) : Prop where
  apart : ∀ files, setup.cache.Sturdy storable
    (fun world => sound world ∧ setup.memory.Leaves (fun _ => False) files (setup.files world)) shelves
  closes : ∀ world, sound world → sound (setup.closeStores world) ∧
    setup.memory.Leaves (fun _ => False) (setup.files world) (setup.files (setup.closeStores world)) ∧
      ∀ tier, tier ≠ .memory → shelves (setup.closeStores world) tier = shelves world tier

/-- The stores and the medium know nothing of each other, and an end changes neither. -/
theorem SessionSetup.inMemory_parted (tiers : TierConfig) (defaultLifetime? : Option Nat) (clock : Nat → Nat)
    (memory : MemorySetup) (identifier : Nat → String) :
    (SessionSetup.inMemory (.inMemory tiers defaultLifetime? clock) memory identifier).Parted Value.Genuine
      (fun world => (∀ tier, MemoryStore.Sound (world.1.get tier)) ∧ world.2.Quiet)
      (fun world tier => MemoryStore.shelf (world.1.get tier)) where
  apart files := by
    have sturdy := (CacheSetup.inMemory_sturdy tiers defaultLifetime? clock).fewer
      (fun value (_ : value.Genuine) => trivial)
    have beside := sturdy.beside fun other : FileSystem =>
      other.Quiet ∧ memory.Leaves (fun _ => False) files other
    simp only [and_assoc]
    exact beside
  closes world isSound := ⟨isSound, MemorySetup.leaves_of_recounts (.refl _), fun _ _ => rfl⟩

/-! # Storage that is tended -/

namespace SessionState

variable {setup : SessionSetup World} {storable : Value → Prop} {sound : World → Prop}
  {shelves : World → Tier → Shelf} {state : SessionState World} {closed? : Option (Tier → Shelf)}
  {handles later : Keyed Nat SpillHandle} {gone more : String → Prop} {faults : Fault → Prop} {Result : Type}

/-- The cache is open, and holds nothing under the keys that are gone; or it was closed, and its stores are left. -/
inductive Cached (setup : SessionSetup World) (storable : Value → Prop) (sound : World → Prop)
    (shelves : World → Tier → Shelf) (gone : String → Prop) (state : SessionState World) :
    Option (Tier → Shelf) → Prop
  | opened {newest : String → Option Value} (stored : Stored setup storable sound shelves newest state)
      (dropped : ∀ key, gone key → newest key = none) : Cached setup storable sound shelves gone state none
  | closed {left : Tier → Shelf} (isClosed : state.cacheIsOpen = false) (isSound : sound state.cache.world)
      (same : shelves state.cache.world = left) : Cached setup storable sound shelves gone state (some left)

/-- Cache, stores and spills are in order, and the spill files follow their handles. -/
structure Tended (setup : SessionSetup World) (storable : Value → Prop) (sound : World → Prop)
    (shelves : World → Tier → Shelf) (closed? : Option (Tier → Shelf)) (handles : Keyed Nat SpillHandle)
    (gone : String → Prop) (state : SessionState World) : Prop where
  cache : Cached setup storable sound shelves gone state closed?
  follows : Follows setup.memory ⟨state.managed setup, handles⟩

namespace Tended

theorem mono (tended : Tended setup storable sound shelves closed? handles gone state)
    (fewer : ∀ key, more key → gone key) : Tended setup storable sound shelves closed? handles more state := by
  refine ⟨?_, tended.follows⟩
  cases tended.cache with
  | opened stored dropped => exact .opened stored fun key gone => dropped key (fewer key gone)
  | closed isClosed isSound same => exact .closed isClosed isSound same

theorem withBindings (tended : Tended setup storable sound shelves closed? handles gone state)
    (bindings : Namespace) : Tended setup storable sound shelves closed? handles gone (state.withBindings bindings) := by
  refine ⟨?_, tended.follows⟩
  cases tended.cache with
  | opened stored dropped => exact .opened (stored.withBindings bindings) dropped
  | closed isClosed isSound same => exact .closed isClosed isSound same

theorem withVariables (tended : Tended setup storable sound shelves closed? handles gone state)
    (proxies : List LazyVariable) :
    Tended setup storable sound shelves closed? handles gone (state.withVariables proxies) := by
  refine ⟨?_, tended.follows⟩
  cases tended.cache with
  | opened stored dropped => exact .opened (stored.withVariables proxies) dropped
  | closed isClosed isSound same => exact .closed isClosed isSound same

theorem tallied (tended : Tended setup storable sound shelves none handles gone state) :
    state.cache.Tallied setup.cache := by
  cases tended.cache with
  | opened stored _ => exact stored.agrees.balanced.toTallied

theorem isSound (tended : Tended setup storable sound shelves closed? handles gone state) :
    sound state.cache.world := by
  cases tended.cache with
  | opened stored _ => exact stored.agrees.sound
  | closed _ isSound _ => exact isSound

section Healthy

variable (healthy : setup.Healthy storable sound shelves)

include healthy

/-! ## Acting on the parts -/

theorem withMemory {memory : ManagedMemory}
    (tended : Tended setup storable sound shelves closed? handles gone state)
    (touches : setup.memory.Touches (setup.files state.cache.world) memory.files)
    (follows : Follows setup.memory ⟨memory, later⟩) :
    Tended setup storable sound shelves closed? later gone (state.withMemory setup memory) := by
  obtain ⟨isSound, same⟩ := healthy.undisturbed _ memory.files tended.isSound touches
  refine ⟨?_, ?_⟩
  · cases tended.cache with
    | opened stored dropped =>
        have agrees := stored.agrees
        exact .opened ⟨stored.isOpen, stored.reclaimers,
          ⟨agrees.balanced.inWorld _, isSound, agrees.sized, same.trans agrees.stocked⟩, follows.tidy⟩ dropped
    | closed isClosed _ left => exact .closed isClosed isSound (same.trans left)
  · rw [managed_withMemory healthy]
    exact follows

theorem leads_onMemory {action : MemoryAction Result} {freed : Nat → Prop}
    (tended : Tended setup storable sound shelves closed? handles gone state)
    (spares : Leads AnyFault action (state.managed setup) fun _ memory =>
      ManagedMemory.Spares setup.memory freed (state.managed setup) memory)
    (follows : Leads AnyFault action (state.managed setup) fun _ memory =>
      Follows setup.memory ⟨memory, later⟩) :
    Leads AnyFault (Session.onMemory setup action) state fun _ final =>
      Tended setup storable sound shelves closed? later gone final := by
  rw [SessionState.leads_onMemory]
  apply (spares.and follows).imp
  rintro _ memory - ⟨spares, follows⟩
  exact tended.withMemory healthy spares.touches follows

variable (parted : setup.Parted storable sound shelves)

include parted

/-- An outcome of a cache call, told by what it does over any sturdy stores. -/
theorem withCache {cache : CacheState World}
    (tended : Tended setup storable sound shelves none handles gone state)
    (agrees : ∀ newest, (∀ key, gone key → newest key = none) → ∃ later, (∀ key, more key → later key = none) ∧
      ∀ sound : World → Prop, setup.cache.Sturdy storable sound shelves →
        Agrees setup.cache storable sound shelves newest state.cache →
          Agrees setup.cache storable sound shelves later cache) :
    Tended setup storable sound shelves none handles more (state.withCache cache) := by
  cases tended.cache with
  | @opened newest stored dropped =>
      obtain ⟨later, nothing, agrees⟩ := agrees newest dropped
      have here := agrees sound (sturdy_of_healthy healthy) stored.agrees
      -- The stores are asked to leave the spill files as they are now.
      let files := setup.files state.cache.world
      have unchanged : setup.memory.Leaves (fun _ => False) files files :=
        MemorySetup.leaves_of_recounts (.refl files)
      have left := (agrees _ (parted.apart files)
        ⟨stored.agrees.balanced, ⟨stored.agrees.sound, unchanged⟩, stored.agrees.sized,
          stored.agrees.stocked⟩).sound.2
      refine ⟨.opened ⟨stored.isOpen, stored.reclaimers, here, stored.tidy⟩ nothing, ?_⟩
      exact tended.follows.leaves left rfl (Nat.le_refl _)

theorem leads_onCache {action : CacheAction World Result}
    (tended : Tended setup storable sound shelves none handles gone state)
    (agrees : ∀ answer cache, action state.cache = .ok answer cache →
      ∀ newest, ∀ sound : World → Prop, setup.cache.Sturdy storable sound shelves →
        Agrees setup.cache storable sound shelves newest state.cache →
          Agrees setup.cache storable sound shelves newest cache) :
    Leads AnyFault (Session.onCache action) state fun _ final =>
      Tended setup storable sound shelves none handles gone final := by
  rw [SessionState.leads_onCache, leads_any]
  intro answer cache ended
  exact tended.withCache healthy parted fun newest nothing => ⟨newest, nothing, agrees answer cache ended newest⟩

end Healthy

end Tended

/-! ## Actions that let nothing go -/

section Healthy

variable (healthy : setup.Healthy storable sound shelves)

include healthy

theorem idle_tended {action : MemoryAction Result} (idle : MemoryManager.Idle action) :
    Heeds (Tended setup storable sound shelves none handles gone) (Session.onMemory setup action) := by
  intro state tended
  have follows := HandledMemory.heeds_idle idle _ tended.follows
  rw [leads_within] at follows
  exact tended.leads_onMemory healthy (idle.spares tended.follows.tidy fun _ => False) follows

theorem sweep_tended :
    Heeds (Tended setup storable sound shelves none handles gone)
      (Session.onMemory setup MemoryManager.sweep) := by
  intro state tended
  have follows := HandledMemory.heeds_sweep _ tended.follows
  rw [leads_within] at follows
  have spares := MemoryManager.sweep_spares healthy.spills tended.follows.tidy fun _ => False
  exact tended.leads_onMemory healthy spares follows

variable (parted : setup.Parted storable sound shelves)

include parted

theorem reclaimExpired_tended :
    Heeds (Tended setup storable sound shelves none handles gone)
      (Session.onCache (TieredCache.reclaimExpired setup.cache)) := by
  intro state tended
  apply tended.leads_onCache healthy parted
  intro bytes cache ended newest sound
  have reclaims : Reclaims setup.cache state.cache bytes cache :=
    TieredCache.outcome_of_ok tended.tallied .reclaimExpired ended
  exact reclaims.agrees

theorem reclaim_tended (reason : ReclaimReason) :
    Heeds (Tended setup storable sound shelves none handles gone)
      (MemoryManager.reclaim (Session.onMemory setup) setup.memory
        [Session.onCache (TieredCache.reclaimExpired setup.cache)] reason) := by
  apply Heeds.bind (sweep_tended healthy)
  intro swept
  simp only [List.foldlM_cons, List.foldlM_nil]
  apply Heeds.bind
  · apply Heeds.bind
    · apply Heeds.bind (reclaimExpired_tended healthy parted)
      intro released
      exact heeds_ofExcept _
    · exact heeds_pure
  · intro freed
    apply Heeds.bind (idle_tended healthy (MemoryManager.idle_noteReclaim reason freed))
    intro _
    exact heeds_pure freed

theorem reclaimIfNeeded_tended (forced : Bool) :
    Heeds (Tended setup storable sound shelves none handles gone) (Session.reclaimIfNeeded setup forced) := by
  intro state tended
  suffices heeds : Heeds (Tended setup storable sound shelves none handles gone)
      (MemoryManager.reclaimIfNeeded (Session.onMemory setup) setup.memory
        [Session.onCache (TieredCache.reclaimExpired setup.cache)] forced) by
    cases tended.cache with
    | opened stored _ =>
        simp only [Session.reclaimIfNeeded, leads_bind, leads_get, stored.reclaimers, List.map_cons, List.map_nil]
        exact heeds state tended
  apply Heeds.bind (idle_tended healthy (MemoryManager.idle_dueReason forced))
  intro reason?
  cases reason? with
  | none => exact heeds_pure false
  | some reason =>
      apply Heeds.bind (reclaim_tended healthy parted reason)
      intro _
      apply Heeds.bind (idle_tended healthy MemoryManager.idle_statistics)
      intro _
      exact heeds_pure true

omit parted in
theorem candidates_tended :
    Heeds (Tended setup storable sound shelves none handles gone) (Session.candidates setup) := by
  apply Heeds.bind heeds_get
  intro state
  apply Heeds.bind
  · apply heeds_filterM
    rintro ⟨name, binding⟩
    cases binding with
    | lazy index => exact heeds_pure false
    | value value =>
        simp only [Session.isCandidate]
        split
        · exact heeds_pure false
        · exact idle_tended healthy (MemoryManager.idle_shouldSpill value)
  · intro chosen
    exact heeds_pure _

theorem loadBacking_tended (backing : Backing) :
    Heeds (Tended setup storable sound shelves none handles gone) (Session.loadBacking setup backing) := by
  intro state tended
  cases backing with
  | cached key =>
      simp only [Session.loadBacking, leads_bind, leads_get]
      split
      · apply tended.leads_onCache healthy parted
        intro answer cache ended newest sound sturdy agrees
        have reads : Reads setup.cache key state.cache answer cache :=
          TieredCache.outcome_of_ok tended.tallied (.get key) ended
        exact (reads.agrees sturdy agrees).1
      · exact tended
  | spilled number =>
      have follows := heeds_load number _ tended.follows
      rw [leads_within] at follows
      have spares : Leads AnyFault _ (state.managed setup) _ :=
        MemoryManager.load_spares tended.follows.tidy number fun _ => False
      simp only [Session.loadBacking, leads_bind, leads_pure]
      exact tended.leads_onMemory healthy (spares.imp fun _ _ _ => And.left) follows

end Healthy

/-! # Owners -/

variable {loose fewer : List Nat} {index : Nat} {held changed : LazyVariable} {left : String → Option Value}
  {name : String} {value : Value}

/-- The keys of the variables that have no owner any more. -/
def Dropped (proxies : List LazyVariable) (key : String) : Prop :=
  ∃ held ∈ proxies, held.backing = .cached key ∧ held.isAlive = false

/-- A spill behind the variable has the variable's name, and a clone of its handle for each owner. -/
def Tracks (handles : Keyed Nat SpillHandle) (held : LazyVariable) : Prop :=
  ∀ number, held.backing = .spilled number →
    ∃ handle, Keyed.find? number handles = some handle ∧ handle.name = held.name ∧ handle.clones = held.owners

/-- A variable that is alive is owned once: by a name that refers to it, or by whoever is about to let it go. -/
structure OwnedOnce (handles : Keyed Nat SpillHandle) (loose : List Nat) (state : SessionState World) : Prop where
  once : ∀ index held, state.lazyVariables[index]? = some held → held.isAlive = true →
    held.owners = 1 ∧ (index ∈ loose ∨ ∃ name, state.Refers name index)
  tracked : ∀ held ∈ state.lazyVariables, Tracks handles held
  apart : state.backings.Nodup

/-- Nothing lies behind variables but what those own that are alive. -/
def Accounted (setup : SessionSetup World) (storable : Value → Prop) (sound : World → Prop)
    (shelves : World → Tier → Shelf) (closed? : Option (Tier → Shelf)) (loose : List Nat)
    (state : SessionState World) : Prop :=
  ∃ handles, Tended setup storable sound shelves closed? handles (Dropped state.lazyVariables) state ∧
    OwnedOnce handles loose state

/-- What was moved out of process memory, with the names it had. -/
def offloaded (state : SessionState World) : List (String × Backing) :=
  state.lazyVariables.map fun held => (held.name, held.backing)

/-- A variable changes, and nothing behind the others. -/
theorem OwnedOnce.setVariable (owned : OwnedOnce handles loose state)
    (found : state.lazyVariables[index]? = some held) (backing : changed.backing = held.backing)
    (once : changed.isAlive = true → changed.owners = 1 ∧ (index ∈ fewer ∨ ∃ name, state.Refers name index))
    (onward : ∀ other ∈ loose, other = index ∨ other ∈ fewer) (own : Tracks later changed)
    (others : ∀ number, held.backing ≠ .spilled number →
      Keyed.find? number later = Keyed.find? number handles) :
    OwnedOnce later fewer (state.withVariables (state.lazyVariables.set index changed)) := by
  have inside := (List.getElem?_eq_some_iff.mp found).1
  have same : (state.withVariables (state.lazyVariables.set index changed)).backings = state.backings :=
    map_set_of_same found backing
  refine ⟨?_, ?_, same ▸ owned.apart⟩
  · intro place other there alive
    by_cases here : index = place
    · subst here
      cases (List.getElem?_set_self inside).symm.trans there
      exact once alive
    · obtain ⟨single, owner⟩ := owned.once place other ((List.getElem?_set_ne here).symm.trans there) alive
      refine ⟨single, owner.imp_left fun member => ?_⟩
      exact (onward place member).resolve_left (Ne.symm here)
  · intro other member
    obtain ⟨place, there⟩ := List.mem_iff_getElem?.mp member
    by_cases here : index = place
    · subst here
      cases (List.getElem?_set_self inside).symm.trans there
      exact own
    · have known := (List.getElem?_set_ne here).symm.trans there
      intro number spilled
      rw [others number]
      · exact owned.tracked other (List.mem_of_getElem? known) number spilled
      · intro same
        exact here (index_eq_of_apart owned.apart found known (same.trans spilled.symm))

theorem OwnedOnce.of_naming {final : SessionState World} (owned : OwnedOnce handles loose state)
    (same : naming final = naming state) : OwnedOnce handles loose final := by
  injection same with bindings lazyVariables
  refine ⟨?_, ?_, ?_⟩
  · simp only [lazyVariables, Refers, bindings]
    exact owned.once
  · rw [lazyVariables]
    exact owned.tracked
  · rw [backings, lazyVariables]
    exact owned.apart

/-- The value of a name has moved behind a new variable. -/
theorem OwnedOnce.offload (owned : OwnedOnce handles [] state)
    (tended : Tended setup storable sound shelves closed? handles (Dropped state.lazyVariables) state)
    {backing : Backing} (was : Keyed.find? name state.bindings = some (.value value))
    (new : backing ∉ state.backings) (tracks : Tracks handles ⟨name, backing, none, 1⟩) :
    Accounted setup storable sound shelves closed? []
      ((state.withVariables (state.lazyVariables ++ [⟨name, backing, none, 1⟩])).withBindings
        (Namespace.bind name (.lazy state.lazyVariables.length) state.bindings)) := by
  refine ⟨handles, ((tended.withVariables _).withBindings _).mono ?_, ?_, ?_, ?_⟩
  · rintro key ⟨held, member, lies, dead⟩
    rcases List.mem_append.mp member with old | last
    · exact ⟨held, old, lies, dead⟩
    · rw [List.mem_singleton.mp last] at dead
      cases dead
  · intro index held found alive
    rcases Nat.lt_trichotomy index state.lazyVariables.length with old | rfl | beyond
    · have known := (List.getElem?_append_left old).symm.trans found
      obtain ⟨single, none | ⟨other, refers⟩⟩ := owned.once index held known alive
      · cases none
      · have different : other ≠ name := by
          rintro rfl
          cases was.symm.trans refers
        exact ⟨single, .inr ⟨other, (Namespace.find?_bind_other different).trans refers⟩⟩
    · cases List.getElem?_concat_length.symm.trans found
      exact ⟨rfl, .inr ⟨name, Namespace.find?_bind_same⟩⟩
    · have inside := (List.getElem?_eq_some_iff.mp found).1
      change index < (state.lazyVariables ++ _).length at inside
      rw [List.length_append] at inside
      exact absurd inside (Nat.not_lt.mpr beyond)
  · intro held member
    rcases List.mem_append.mp member with old | last
    · exact owned.tracked held old
    · exact List.mem_singleton.mp last ▸ tracks
  · have more : (state.withVariables (state.lazyVariables ++ [⟨name, backing, none, 1⟩])).backings =
        state.backings ++ [backing] := by
      simp [backings, SessionState.withVariables]
    refine more.symm ▸ List.nodup_append.mpr ⟨owned.apart, List.pairwise_singleton _ _, ?_⟩
    intro old member last isLast same
    rw [List.mem_singleton.mp isLast] at same
    exact new (same ▸ member)

theorem dropped_of_set {proxies : List LazyVariable} {key : String} (backing : changed.backing = held.backing)
    (dropped : Dropped (proxies.set index changed) key) :
    Dropped proxies key ∨ changed.isAlive = false ∧ held.backing = .cached key := by
  obtain ⟨other, member, lies, dead⟩ := dropped
  rcases List.mem_or_eq_of_mem_set member with old | rfl
  · exact .inl ⟨other, old, lies, dead⟩
  · exact .inr ⟨dead, backing.symm.trans lies⟩

/-- A name is bound anew, or unbound. The variable it referred to is loose. -/
theorem Accounted.rebind {bindings : Namespace}
    (accounted : Accounted setup storable sound shelves closed? [] state)
    (others : ∀ asked, asked ≠ name → Keyed.find? asked bindings = Keyed.find? asked state.bindings) :
    Accounted setup storable sound shelves closed?
      (Namespace.lazyVariables ((Keyed.find? name state.bindings).toList.map (name, ·)))
      (state.withBindings bindings) := by
  obtain ⟨handles, tended, owned⟩ := accounted
  refine ⟨handles, tended.withBindings bindings, ?_, owned.tracked, owned.apart⟩
  intro index held found alive
  obtain ⟨single, none | ⟨asked, refers⟩⟩ := owned.once index held found alive
  · cases none
  · refine ⟨single, ?_⟩
    by_cases same : asked = name
    · subst same
      refine .inl ?_
      rw [Refers] at refers
      rw [refers]
      exact List.mem_singleton.mpr rfl
    · exact .inr ⟨asked, (others asked same).trans refers⟩

/-! ## Letting variables go -/

/-- The handles that are left when the last owner of a variable lets it go. -/
def handlesLeft (handles : Keyed Nat SpillHandle) : Backing → Keyed Nat SpillHandle
  | .cached _ => handles
  | .spilled number => SpillHandle.recount number (· - 1) handles

theorem release_ends (number : Nat) (memory : ManagedMemory) :
    Leads faults (MemoryManager.release number) memory fun _ _ => True := by
  have removes (path : String) (memory : ManagedMemory) :
      Leads faults (MemoryManager.removeFile path) memory fun _ _ => True := by
    simp only [Leads, MemoryManager.removeFile]
    cases FileSystem.removeFile path memory.files <;> trivial
  simp only [MemoryManager.release, MemoryManager.update, leads_bind, leads_get]
  split
  · split
    · simp only [leads_bind, leads_modify]
      split
      · rw [leads_bind]
        exact removes _ _
      · trivial
    · trivial
  · trivial

theorem tracks_left (held : LazyVariable) (alive : held.isAlive = true) (tracks : Tracks handles held) :
    Tracks (handlesLeft handles held.backing) { held with owners := held.owners - 1 } := by
  intro number spilled
  obtain ⟨handle, found, name, clones⟩ := tracks number spilled
  have handled : handle.isAlive = true := by rw [SpillHandle.isAlive, clones]; exact alive
  change held.backing = .spilled number at spilled
  rw [spilled, handlesLeft, recount_of_alive found handled]
  exact ⟨_, Keyed.find?_put_same _ _ _, name, congrArg (· - 1) clones⟩

theorem find?_handlesLeft {backing : Backing} {number : Nat} (other : backing ≠ .spilled number) :
    Keyed.find? number (handlesLeft handles backing) = Keyed.find? number handles := by
  cases backing with
  | cached key => rfl
  | spilled own =>
      have different : number ≠ own := fun same => other (same ▸ rfl)
      simp only [handlesLeft, SpillHandle.recount]
      split
      · split
        · exact Keyed.find?_put_other _ _ different
        · rfl
      · rfl

/-- Nobody owns a variable that is not alive. -/
theorem OwnedOnce.tighten (owned : OwnedOnce handles (index :: loose) state)
    (dead : ∀ held, state.lazyVariables[index]? = some held → held.isAlive = false) :
    OwnedOnce handles loose state := by
  refine ⟨fun place held found alive => ?_, owned.tracked, owned.apart⟩
  have different : place ≠ index := by
    rintro rfl
    cases alive.symm.trans (dead held found)
  exact (owned.once place held found alive).imp_right (Or.imp_left fun member =>
    (List.mem_cons.mp member).resolve_left different)

theorem OwnedOnce.dead_after (owned : OwnedOnce handles loose state)
    (found : state.lazyVariables[index]? = some held) (alive : held.isAlive = true) :
    LazyVariable.isAlive { held with owners := held.owners - 1 } = false := by
  simp [LazyVariable.isAlive, (owned.once index held found alive).1]

/-- The only owner of a variable lets it go. -/
theorem OwnedOnce.letGo (owned : OwnedOnce handles (index :: loose) state)
    (found : state.lazyVariables[index]? = some held) (alive : held.isAlive = true) :
    OwnedOnce (handlesLeft handles held.backing) loose
      (state.withVariables (state.lazyVariables.set index { held with owners := held.owners - 1 })) := by
  refine owned.setVariable found rfl ?_ ?_ ?_ ?_
  · intro still
    cases (owned.dead_after found alive).symm.trans still
  · exact fun other member => List.mem_cons.mp member
  · exact tracks_left held alive (owned.tracked held (List.mem_of_getElem? found))
  · exact fun number other => find?_handlesLeft other

section Healthy

variable (healthy : setup.Healthy storable sound shelves)

include healthy

theorem release_tended (tended : Tended setup storable sound shelves closed? handles gone state) (number : Nat) :
    Leads AnyFault (Session.onMemory setup (MemoryManager.release number)) state fun _ final =>
      Tended setup storable sound shelves closed? (SpillHandle.recount number (· - 1) handles) gone final := by
  have follows := heeds_drop healthy.spills number _ tended.follows
  simp only [HandleCall.perform, leads_bind, leads_within, leads_changeHandles] at follows
  have spares := MemoryManager.release_spares healthy.spills tended.follows.tidy number
  exact tended.leads_onMemory healthy spares follows

variable (parted : setup.Parted storable sound shelves)

include parted

theorem delete_tended (tended : Tended setup storable sound shelves none handles gone state) (key : String) :
    Leads AnyFault (Session.onCache (TieredCache.delete setup.cache key)) state fun _ final =>
      Tended setup storable sound shelves none handles (fun asked => gone asked ∨ asked = key) final := by
  rw [leads_onCache, leads_any]
  intro answer cache ended
  have deletes : Deletes setup.cache key state.cache answer cache :=
    TieredCache.outcome_of_ok tended.tallied (.delete key) ended
  apply tended.withCache healthy parted
  intro newest nothing
  refine ⟨fun asked => if asked = key then none else newest asked, ?_, ?_⟩
  · rintro asked (before | rfl)
    · simp only [nothing asked before, ite_self]
    · exact if_pos rfl
  · intro sound sturdy agrees
    apply (deletes.agrees sturdy agrees).renewed
    intro asked entry found
    have different : asked ≠ key := by
      rintro rfl
      cases deletes with
      | deleted removes => cases removes.lookup.symm.trans found
    rw [if_neg different, if_neg fun same => different same.2.symm]

/-- What lies behind a backing is taken away, an entry only while the cache is open. -/
theorem releaseBacking_tended (tended : Tended setup storable sound shelves closed? handles gone state)
    (backing : Backing) :
    Leads faults (Session.releaseBacking setup backing) state fun _ final =>
      Tended setup storable sound shelves closed? (handlesLeft handles backing)
        (fun key => gone key ∨ backing = .cached key) final := by
  cases backing with
  | cached key =>
      simp only [Session.releaseBacking, leads_bind, leads_get]
      cases tended.cache with
      | opened stored _ =>
          have steady : setup.cache.Steady faults sound :=
            (sturdy_of_healthy healthy).steady.mono fun _ => False.elim
          have ends : Leads faults (TieredCache.delete setup.cache key) state.cache fun _ _ => True := by
            simp only [TieredCache.delete, leads_bind]
            exact (TieredCache.leads_removeEntry_of_tallied steady tended.tallied tended.isSound key).imp
              fun _ _ _ _ => trivial
          simp only [stored.isOpen, if_true, leads_bind, leads_pure]
          apply ((delete_tended healthy parted tended key).of_any (leads_onCache.mpr ends)).imp
          rintro _ final - tended
          exact tended.mono fun asked gone => gone.imp_right fun same => (Backing.cached.inj same).symm
      | closed isClosed isSound same =>
          simp only [isClosed, Bool.false_eq_true, if_false, leads_pure]
          exact ⟨.closed isClosed isSound same, tended.follows⟩
  | spilled number =>
      apply ((release_tended healthy tended number).of_any (leads_onMemory.mpr (release_ends _ _))).imp
      rintro _ final - tended
      exact tended.mono fun key gone => gone.resolve_right (by simp)

/-- An owner lets a variable go that it owned alone. -/
theorem release_accounted (accounted : Accounted setup storable sound shelves closed? (index :: loose) state) :
    Leads faults (Session.release setup index) state fun _ final =>
      Accounted setup storable sound shelves closed? loose final ∧ final.bindings = state.bindings ∧
        final.offloaded = state.offloaded := by
  obtain ⟨handles, tended, owned⟩ := accounted
  simp only [Session.release, leads_bind, leads_lazyVariable?]
  cases found : state.lazyVariables[index]? with
  | none =>
      refine ⟨⟨handles, tended, owned.tighten ?_⟩, rfl, rfl⟩
      intro held there
      cases found.symm.trans there
  | some held =>
      simp only []
      cases alive : held.isAlive with
      | false =>
          refine ⟨⟨handles, tended, owned.tighten ?_⟩, rfl, rfl⟩
          intro other there
          cases found.symm.trans there
          exact alive
      | true =>
          let changed : LazyVariable := { held with owners := held.owners - 1 }
          have dead : changed.isAlive = false := owned.dead_after found alive
          simp only [if_true, leads_bind, leads_setVariable]
          change Leads faults (if (!changed.isAlive) = true then _ else _) _ _
          rw [dead, Bool.not_false, if_pos rfl]
          have releases : Leads faults _ (state.withVariables (state.lazyVariables.set index changed)) _ :=
            releaseBacking_tended healthy parted (tended.withVariables _) held.backing
          apply releases.imp
          rintro _ final ended tended
          have same := (keeps_releaseBacking held.backing _).of_ok ended
          have owned := (owned.letGo found alive).of_naming same
          injection same with bindings lazyVariables
          refine ⟨⟨_, ?_, owned⟩, bindings, ?_⟩
          · rw [lazyVariables]
            exact tended.mono fun key dropped => (dropped_of_set rfl dropped).imp_right And.right
          · rw [offloaded, lazyVariables]
            exact map_set_of_same found rfl

/-- A binding that no name has any more is let go. -/
theorem giveUp_accounted {binding : Binding} {rest : Namespace} (accounted : Accounted setup storable sound shelves
      closed? (Namespace.lazyVariables ((name, binding) :: rest)) state) :
    Leads faults (Session.giveUp setup (some binding)) state fun _ final =>
      Accounted setup storable sound shelves closed? rest.lazyVariables final ∧
        final.bindings = state.bindings ∧ final.offloaded = state.offloaded := by
  cases binding with
  | value value => exact ⟨accounted, rfl, rfl⟩
  | lazy index => exact release_accounted healthy parted accounted

/-- With the namespace everything goes. -/
theorem giveUpNamespace_accounted (accounted : Accounted setup storable sound shelves closed? [] state) :
    Leads faults (Session.giveUpNamespace setup) state fun _ final =>
      Accounted setup storable sound shelves closed? [] final ∧ final.bindings = [] ∧
        final.offloaded = state.offloaded := by
  let loosened (rest : Namespace) (middle : SessionState World) : Prop :=
    Accounted setup storable sound shelves closed? rest.lazyVariables middle ∧ middle.bindings = [] ∧
      middle.offloaded = state.offloaded
  have begun : loosened state.bindings (state.withBindings []) := by
    obtain ⟨handles, tended, owned⟩ := accounted
    refine ⟨⟨handles, tended.withBindings [], ?_, owned.tracked, owned.apart⟩, rfl, rfl⟩
    intro index held found alive
    obtain ⟨single, none | ⟨name, refers⟩⟩ := owned.once index held found alive
    · cases none
    · exact ⟨single, .inl (List.mem_filterMap.mpr ⟨_, Keyed.mem_of_find? refers, rfl⟩)⟩
  simp only [Session.giveUpNamespace, Session.setBindings, leads_bind, leads_get, leads_modify]
  apply leads_forM loosened ?_ begun
  rintro ⟨name, binding⟩ rest middle ⟨accounted, bindings, same⟩
  apply (giveUp_accounted healthy parted accounted).imp
  rintro _ final - ⟨accounted, unchanged, still⟩
  exact ⟨accounted, unchanged.trans bindings, still.trans same⟩

end Healthy

end SessionState

end TierVault
