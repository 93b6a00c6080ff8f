import TierVault.Proofs.Cache.Lasting
import TierVault.Proofs.Memory.Manager
import TierVault.Session.Execution

/-!
What a session leaves alone behind its lazy variables.

Behind a variable lies a cache entry or a spill. A session works on the cache and on the spills; what it does
for one variable passes the others by, up to two things that happen to any cache entry: it expires, or it is
evicted.
-/

namespace TierVault

open TierVault.Action CacheState

variable {World : Type}

/-- Storage that does not fail: stores over shelves, and files that can be read. Neither part disturbs the
other, and identifiers tell things apart. -/
structure SessionSetup.Healthy (setup : SessionSetup World) (storable : Value → Prop)
    (sound : World → Prop) (shelves : World → Tier → Shelf) : Prop where
  quiet : ∀ world, sound world → (setup.files world).Quiet
  /-- Whatever spill files hold, the stores leave it there. -/
  sturdy : ∀ held : String → Bytes → Prop,
    setup.cache.Sturdy storable
      (fun world => sound world ∧ ∀ name number content,
        held (setup.memory.spillPath name number) content →
          (setup.files world).content? (setup.memory.spillPath name number) = some content)
      shelves
  files_setFiles : ∀ world files, setup.files (setup.setFiles world files) = files
  /-- What is done to spill files disturbs no store. -/
  undisturbed : ∀ world files, sound world → setup.memory.Touches (setup.files world) files →
    sound (setup.setFiles world files) ∧ shelves (setup.setFiles world files) = shelves world
  keys : Identifies setup.identifier
  spills : Identifies setup.memory.identifier
  genuine : ∀ value, storable value → value.Genuine

/-- The key that is made for a variable of that name. -/
def SessionSetup.keyFor (setup : SessionSetup World) (name : String) (number : Nat) : String :=
  "var:" ++ name ++ ":" ++ setup.identifier number

theorem SessionSetup.toList_keyFor (setup : SessionSetup World) (name : String) (number : Nat) :
    (setup.keyFor name number).toList =
      ("var:" ++ name).toList ++ ':' :: (setup.identifier number).toList := by
  simp [keyFor, String.toList_append]

/-- A key tells its number. -/
theorem SessionSetup.number_eq_of_keyFor_eq {setup : SessionSetup World}
    (identifies : Identifies setup.identifier) {name other : String} {left right : Nat}
    (same : setup.keyFor name left = setup.keyFor other right) : left = right := by
  have letters := congrArg String.toList same
  rw [toList_keyFor, toList_keyFor] at letters
  exact identifies.number_eq (by decide) (by decide) letters

namespace SessionState

variable {setup : SessionSetup World} {storable : Value → Prop} {sound : World → Prop}
  {shelves : World → Tier → Shelf} {newest later last : String → Option Value}
  {state middle final : SessionState World} {freed : Backing → Prop} {value : Value} {key : String}
  {backing : Backing}

/-- The memory manager with its files. -/
def managed (setup : SessionSetup World) (state : SessionState World) : ManagedMemory :=
  ⟨state.memory, setup.files state.cache.world⟩

def withCache (state : SessionState World) (cache : CacheState World) : SessionState World :=
  { state with cache }

/-- Cache, stores and spills are in order, and a reclaim pass removes what is expired and nothing else. -/
structure Stored (setup : SessionSetup World) (storable : Value → Prop) (sound : World → Prop)
    (shelves : World → Tier → Shelf) (newest : String → Option Value)
    (state : SessionState World) : Prop where
  isOpen : state.cacheIsOpen = true
  reclaimers : state.reclaimers = [TieredCache.reclaimExpired setup.cache]
  agrees : Agrees setup.cache storable sound shelves newest state.cache
  tidy : ManagedMemory.Tidy setup.memory state.memory.spills state.memory.nextSpill

/-- The backing was given out. -/
def Issued (setup : SessionSetup World) (state : SessionState World) : Backing → Prop
  | .cached key => ∃ name number, number < state.nextKey ∧ key = setup.keyFor name number
  | .spilled number => number < state.memory.nextSpill

/-- The value was put behind the backing, and is there unless the cache dropped its entry. -/
def Backs (setup : SessionSetup World) (newest : String → Option Value)
    (state : SessionState World) (value : Value) : Backing → Prop
  | .cached key => newest key = some value ∧
      (setup.cache.defaultLifetime? = none → state.cache.counters.evictions = 0 →
        state.cache.Permanent key)
  | .spilled number => ManagedMemory.Holds setup.memory (state.managed setup) number value

/-- Of what was given out, nothing but the freed is lost on the way, and no variable is touched. -/
structure Passes (setup : SessionSetup World) (freed : Backing → Prop)
    (newest later : String → Option Value) (state final : SessionState World) : Prop where
  bindings : final.bindings = state.bindings
  lazyVariables : final.lazyVariables = state.lazyVariables
  issued : ∀ backing, Issued setup state backing → Issued setup final backing
  backs : ∀ backing value, Issued setup state backing → ¬freed backing →
    Backs setup newest state value backing → Backs setup later final value backing

namespace Passes

theorem refl (setup : SessionSetup World) (freed : Backing → Prop)
    (newest : String → Option Value) (state : SessionState World) :
    Passes setup freed newest newest state state :=
  ⟨rfl, rfl, fun _ issued => issued, fun _ _ _ _ backs => backs⟩

theorem trans (first : Passes setup freed newest later state middle)
    (second : Passes setup freed later last middle final) :
    Passes setup freed newest last state final where
  bindings := second.bindings.trans first.bindings
  lazyVariables := second.lazyVariables.trans first.lazyVariables
  issued backing issued := second.issued backing (first.issued backing issued)
  backs backing value issued spared backs :=
    second.backs backing value (first.issued backing issued) spared
      (first.backs backing value issued spared backs)

end Passes

/-! ## Acting on the parts -/

theorem leads_onCache {Result : Type} {faults : Fault → Prop} {action : CacheAction World Result}
    {after : Result → SessionState World → Prop} :
    Leads faults (Session.onCache action) state after ↔
      Leads faults action state.cache fun result cache => after result (state.withCache cache) := by
  unfold Leads Session.onCache
  cases action state.cache <;> rfl

theorem leads_onMemory {Result : Type} {faults : Fault → Prop} {action : MemoryAction Result}
    {after : Result → SessionState World → Prop} :
    Leads faults (Session.onMemory setup action) state after ↔
      Leads faults action (state.managed setup) fun result memory =>
        after result (state.withMemory setup memory) := by
  unfold Leads Session.onMemory managed
  cases action ⟨state.memory, setup.files state.cache.world⟩ <;> rfl

section Healthy

variable (healthy : setup.Healthy storable sound shelves)

include healthy

theorem sturdy_of_healthy : setup.cache.Sturdy storable sound shelves := by
  simpa using healthy.sturdy fun _ _ => False

theorem managed_withMemory (memory : ManagedMemory) :
    (state.withMemory setup memory).managed setup = memory := by
  simp only [managed, withMemory, healthy.files_setFiles]

/-- The spills change, the cache does not. -/
theorem stored_withMemory {numbers : Nat → Prop} {memory : ManagedMemory}
    (stored : Stored setup storable sound shelves newest state)
    (spares : ManagedMemory.Spares setup.memory numbers (state.managed setup) memory) :
    Stored setup storable sound shelves newest (state.withMemory setup memory) := by
  obtain ⟨isSound, same⟩ :=
    healthy.undisturbed state.cache.world memory.files stored.agrees.sound spares.touches
  refine ⟨stored.isOpen, stored.reclaimers, ?_, spares.tidy⟩
  exact ⟨stored.agrees.balanced.inWorld _, isSound, stored.agrees.sized, same.trans stored.agrees.stocked⟩

theorem passes_withMemory {numbers : Nat → Prop} {memory : ManagedMemory}
    (spares : ManagedMemory.Spares setup.memory numbers (state.managed setup) memory)
    (gone : ∀ number, numbers number → freed (.spilled number)) :
    Passes setup freed newest newest state (state.withMemory setup memory) := by
  refine ⟨rfl, rfl, ?_, ?_⟩
  · intro backing issued
    cases backing with
    | cached key => exact issued
    | spilled number => exact Nat.lt_of_lt_of_le issued spares.later
  · intro backing value _ spared backs
    cases backing with
    | cached key => exact backs
    | spilled number =>
        rw [Backs, managed_withMemory healthy]
        exact spares.holds number value (fun free => spared (gone number free)) backs

/-- An outcome of a cache call, told by what it keeps over any sturdy stores. -/
theorem stored_withCache {cache : CacheState World} (freed : Backing → Prop)
    (stored : Stored setup storable sound shelves newest state)
    (agrees : ∀ sound : World → Prop, setup.cache.Sturdy storable sound shelves →
      Agrees setup.cache storable sound shelves newest state.cache →
        Agrees setup.cache storable sound shelves later cache)
    (kept : ∀ key, Issued setup state (.cached key) → ¬freed (.cached key) →
      later key = newest key ∧ Lasts key state.cache cache) :
    Stored setup storable sound shelves later (state.withCache cache) ∧
      Passes setup freed newest later state (state.withCache cache) := by
  have here := agrees sound (sturdy_of_healthy healthy) stored.agrees
  refine ⟨⟨stored.isOpen, stored.reclaimers, here, stored.tidy⟩, rfl, rfl, fun _ => id, ?_⟩
  intro backing value issued spared backs
  cases backing with
  | cached key =>
      rcases backs with ⟨new, permanent⟩
      rcases kept key issued spared with ⟨same, lasts⟩
      refine ⟨same.trans new, ?_⟩
      intro unlimited none
      have before : state.cache.counters.evictions = 0 :=
        Nat.eq_zero_of_le_zero (Nat.le_trans lasts.evictions (Nat.le_of_eq none))
      exact lasts.permanent (none.trans before.symm) (permanent unlimited before)
  | spilled number =>
      rcases backs with ⟨spill, found, alive, frame, encoded, content, decoded⟩
      -- The stores are asked to leave what the files hold now.
      let held (file : String) (bytes : Bytes) : Prop :=
        (setup.files state.cache.world).content? file = some bytes
      have left := (agrees _ (healthy.sturdy held)
        ⟨stored.agrees.balanced, ⟨stored.agrees.sound, fun _ _ _ same => same⟩,
          stored.agrees.sized, stored.agrees.stocked⟩).sound.2
      refine ⟨spill, found, alive, frame, encoded, ?_, decoded⟩
      rw [stored.tidy.placed number spill found] at content ⊢
      exact left _ _ _ content

end Healthy

/-! ## Actions that lose nothing -/

/-- Wherever it runs, the action loses nothing of what was given out. -/
def Harmless {Result : Type} (setup : SessionSetup World) (storable : Value → Prop)
    (sound : World → Prop) (shelves : World → Tier → Shelf)
    (action : SessionAction World Result) : Prop :=
  ∀ newest state, Stored setup storable sound shelves newest state →
    Leads AnyFault action state fun _ final =>
      Stored setup storable sound shelves newest final ∧
        Passes setup (fun _ => False) newest newest state final

section Calculus

variable {Result Next Item : Type}

theorem harmless_pure (result : Result) :
    Harmless setup storable sound shelves (pure result) :=
  fun newest state stored => ⟨stored, .refl setup _ newest state⟩

theorem harmless_ofExcept (computation : Except Fault Result) :
    Harmless setup storable sound shelves (Action.ofExcept computation) := by
  intro newest state stored
  apply leads_any_ofExcept
  intro result _
  exact ⟨stored, .refl setup _ newest state⟩

theorem harmless_get : Harmless setup storable sound shelves
    (get : SessionAction World (SessionState World)) :=
  fun newest state stored => ⟨stored, .refl setup _ newest state⟩

theorem Harmless.bind {action : SessionAction World Result}
    {next : Result → SessionAction World Next}
    (first : Harmless setup storable sound shelves action)
    (further : ∀ result, Harmless setup storable sound shelves (next result)) :
    Harmless setup storable sound shelves (action >>= next) := by
  intro newest state stored
  rw [leads_bind]
  apply (first newest state stored).imp
  rintro result middle - ⟨stored, passes⟩
  apply (further result newest middle stored).imp
  rintro _ final - ⟨stored, later⟩
  exact ⟨stored, passes.trans later⟩

theorem harmless_filterM {test : Item → SessionAction World Bool}
    (harmless : ∀ item, Harmless setup storable sound shelves (test item)) (items : List Item) :
    Harmless setup storable sound shelves (items.filterM test) := by
  intro newest state stored
  let kept (middle : SessionState World) : Prop :=
    Stored setup storable sound shelves newest middle ∧
      Passes setup (fun _ => False) newest newest state middle
  have begun : kept state := ⟨stored, .refl setup _ newest state⟩
  refine leads_filterM ?_ begun
  rintro item middle ⟨stored, passes⟩
  apply (harmless item newest middle stored).imp
  rintro _ final - ⟨stored, later⟩
  exact ⟨stored, passes.trans later⟩

end Calculus

section Parts

variable (healthy : setup.Healthy storable sound shelves)

include healthy

theorem harmless_idle {Result : Type} {action : MemoryAction Result}
    (idle : MemoryManager.Idle action) :
    Harmless setup storable sound shelves (Session.onMemory setup action) := by
  intro newest state stored
  rw [leads_onMemory]
  apply (idle.spares stored.tidy fun _ => False).imp
  rintro answer memory - spares
  exact ⟨stored_withMemory healthy stored spares, passes_withMemory healthy spares fun _ => False.elim⟩

theorem harmless_sweep :
    Harmless setup storable sound shelves (Session.onMemory setup MemoryManager.sweep) := by
  intro newest state stored
  rw [leads_onMemory]
  apply (MemoryManager.sweep_spares healthy.spills stored.tidy fun _ => False).imp
  rintro answer memory - spares
  exact ⟨stored_withMemory healthy stored spares, passes_withMemory healthy spares fun _ => False.elim⟩

theorem harmless_reclaimExpired : Harmless setup storable sound shelves
    (Session.onCache (TieredCache.reclaimExpired setup.cache)) := by
  intro newest state stored
  rw [leads_onCache, leads_any]
  intro bytes cache ended
  have balanced := stored.agrees.balanced
  have reclaims : Reclaims setup.cache state.cache bytes cache :=
    TieredCache.outcome_of_ok balanced.toTallied .reclaimExpired ended
  apply stored_withCache healthy _ stored fun _ => reclaims.agrees
  intro key _ _
  exact ⟨rfl, reclaims.lasts balanced⟩

theorem harmless_reclaim (reason : ReclaimReason) : Harmless setup storable sound shelves
    (MemoryManager.reclaim (Session.onMemory setup) setup.memory
      [Session.onCache (TieredCache.reclaimExpired setup.cache)] reason) := by
  apply Harmless.bind (harmless_sweep healthy)
  intro swept
  simp only [List.foldlM_cons, List.foldlM_nil]
  apply Harmless.bind
  · apply Harmless.bind
    · apply Harmless.bind (harmless_reclaimExpired healthy)
      intro released
      exact harmless_ofExcept _
    · exact harmless_pure
  · intro freed
    apply Harmless.bind (harmless_idle healthy (MemoryManager.idle_noteReclaim reason freed))
    intro _
    exact harmless_pure freed

/-- A reclaim pass takes no value from a variable. -/
theorem harmless_reclaimIfNeeded (forced : Bool) :
    Harmless setup storable sound shelves (Session.reclaimIfNeeded setup forced) := by
  intro newest state stored
  simp only [Session.reclaimIfNeeded, leads_bind, leads_get, stored.reclaimers, List.map_cons,
    List.map_nil]
  suffices harmless : Harmless setup storable sound shelves
      (MemoryManager.reclaimIfNeeded (Session.onMemory setup) setup.memory
        [Session.onCache (TieredCache.reclaimExpired setup.cache)] forced) from
    harmless newest state stored
  apply Harmless.bind (harmless_idle healthy (MemoryManager.idle_dueReason forced))
  intro reason?
  cases reason? with
  | none => exact harmless_pure false
  | some reason =>
      apply Harmless.bind (harmless_reclaim healthy reason)
      intro _
      apply Harmless.bind (harmless_idle healthy MemoryManager.idle_statistics)
      intro _
      exact harmless_pure true

theorem harmless_candidates :
    Harmless setup storable sound shelves (Session.candidates setup) := by
  apply Harmless.bind harmless_get
  intro state
  apply Harmless.bind
  · apply harmless_filterM
    rintro ⟨name, binding⟩
    cases binding with
    | lazy index => exact harmless_pure false
    | value value =>
        simp only [Session.isCandidate]
        split
        · exact harmless_pure false
        · exact harmless_idle healthy (MemoryManager.idle_shouldSpill value)
  · intro chosen
    exact harmless_pure _

/-! ## Backings -/

/-- Where nothing else stands, nothing else is freed. -/
theorem leads_releaseBacking (stored : Stored setup storable sound shelves newest state)
    (backing : Backing) :
    Leads AnyFault (Session.releaseBacking setup backing) state fun _ final =>
      ∃ later, Stored setup storable sound shelves later final ∧
        Passes setup (· = backing) newest later state final := by
  cases backing with
  | cached key =>
      simp only [Session.releaseBacking, leads_bind, leads_get, stored.isOpen, if_true]
      rw [leads_onCache, leads_any]
      intro removed cache ended
      have deletes : Deletes setup.cache key state.cache removed cache :=
        TieredCache.outcome_of_ok stored.agrees.balanced.toTallied (.delete key) ended
      refine ⟨_, stored_withCache healthy _ stored (fun _ => deletes.agrees) ?_⟩
      intro other _ spared
      have different : key ≠ other := fun same => spared (same ▸ rfl)
      exact ⟨if_neg fun gone => different gone.2, deletes.lasts different⟩
  | spilled number =>
      simp only [Session.releaseBacking]
      rw [leads_onMemory]
      apply (MemoryManager.release_spares healthy.spills stored.tidy number).imp
      rintro _ memory - spares
      refine ⟨newest, stored_withMemory healthy stored spares, passes_withMemory healthy spares ?_⟩
      rintro _ rfl
      rfl

/-- The cache has no entry of the key that could be read now. -/
def Gone (setup : SessionSetup World) (state : SessionState World) : Backing → Prop
  | .cached key => ∀ entry, state.cache.lookup key = some entry →
      entry.isExpired (setup.cache.clock state.cache.readings) = true
  | .spilled _ => False

/-- What lies behind a backing can be read, unless it is gone. -/
theorem leads_loadBacking {faults : Fault → Prop}
    (stored : Stored setup storable sound shelves newest state)
    (fits : ¬faults .sumOverflow → state.cache.total < Word.limit) (backing : Backing) :
    Leads faults (Session.loadBacking setup backing) state fun answer final =>
      (Stored setup storable sound shelves newest final ∧
        Passes setup (fun _ => False) newest newest state final) ∧
      ∀ value, Backs setup newest state value backing →
        (Gone setup state backing → answer = none) ∧
          (¬Gone setup state backing → answer = some value) := by
  cases backing with
  | cached key =>
      have sturdy := sturdy_of_healthy healthy
      have steady : setup.cache.Steady faults sound := sturdy.steady.mono fun _ => False.elim
      simp only [Session.loadBacking, leads_bind, leads_get, stored.isOpen, if_true]
      rw [leads_onCache]
      apply (TieredCache.leads_read steady ⟨stored.agrees.balanced.toTallied, stored.agrees.sound, fits⟩).imp
      rintro answer cache - ⟨reads, -⟩
      refine ⟨stored_withCache healthy _ stored
        (fun _ sturdy agrees => (reads.agrees sturdy agrees).1)
        fun asked _ _ => ⟨rfl, reads.lasts sturdy stored.agrees⟩, ?_⟩
      rintro value ⟨new, -⟩
      refine ⟨reads.eq_none_of_expired, fun present => ?_⟩
      simp only [Gone, Classical.not_forall] at present
      rcases present with ⟨entry, found, live⟩
      rw [(reads.agrees sturdy stored.agrees).2 entry found (Bool.not_eq_true _ ▸ live)]
      exact new
  | spilled number =>
      simp only [Session.loadBacking, leads_bind, leads_onMemory, leads_pure]
      apply (MemoryManager.load_spares stored.tidy number fun _ => False).imp
      rintro answer memory - ⟨spares, reads⟩
      refine ⟨⟨stored_withMemory healthy stored spares, passes_withMemory healthy spares fun _ => False.elim⟩, ?_⟩
      intro value holds
      refine ⟨False.elim, fun _ => ?_⟩
      rw [reads value (healthy.quiet _ stored.agrees.sound) holds]
      rfl

/-- One more key was given out. -/
def nextKeyed (state : SessionState World) : SessionState World :=
  { state with nextKey := state.nextKey + 1 }

omit healthy in
theorem Stored.nextKeyed (stored : Stored setup storable sound shelves newest state) :
    Stored setup storable sound shelves newest state.nextKeyed :=
  ⟨stored.isOpen, stored.reclaimers, stored.agrees, stored.tidy⟩

omit healthy in
theorem passes_nextKeyed (freed : Backing → Prop) :
    Passes setup freed newest newest state state.nextKeyed := by
  refine ⟨rfl, rfl, ?_, ?_⟩
  · intro backing issued
    cases backing with
    | cached key =>
        rcases issued with ⟨name, number, below, made⟩
        exact ⟨name, number, Nat.lt_succ_of_lt below, made⟩
    | spilled number => exact issued
  · intro backing value _ _ backs
    cases backing with
    | cached key => exact backs
    | spilled number => exact backs

/-- The key that is made next was not given out. -/
theorem not_issued_keyFor (name : String) :
    ¬Issued setup state (.cached (setup.keyFor name state.nextKey)) := by
  rintro ⟨other, number, below, same⟩
  have equal := SessionSetup.number_eq_of_keyFor_eq healthy.keys same
  omega

/-- A value that is moved out of process memory lies behind a backing that is new. -/
theorem leads_store (stored : Stored setup storable sound shelves newest state) (name : String)
    (able : storable value) :
    Leads AnyFault (Session.store setup name value) state fun backing? final =>
      ∃ later, Stored setup storable sound shelves later final ∧
        Passes setup (fun _ => False) newest later state final ∧
          ∀ backing, backing? = some backing → Issued setup final backing ∧
            ¬Issued setup state backing ∧ Backs setup later final value backing := by
  let key := setup.keyFor name state.nextKey
  change Leads AnyFault (do
    if ← Session.onCache (TieredCache.put setup.cache key value none) then
      return some (.cached key)
    let spill? ← Session.onMemory setup (MemoryManager.spill setup.memory name value)
    return spill?.map Backing.spilled) state.nextKeyed _
  rw [leads_bind, leads_onCache, leads_any]
  intro taken cache ended
  have writes : Writes setup.cache key value none state.cache taken cache :=
    TieredCache.outcome_of_ok stored.agrees.balanced.toTallied (.put key value none) ended
  let later : String → Option Value := fun asked =>
    if taken = true ∧ key = asked then some value else newest asked
  have others : ∀ asked, Issued setup state (.cached asked) → ¬False →
      later asked = newest asked ∧ Lasts asked state.cache cache := by
    intro asked issued _
    have different : key ≠ asked := by
      intro same
      exact not_issued_keyFor healthy name (same ▸ issued)
    exact ⟨if_neg fun new => different new.2, writes.lasts different⟩
  rcases stored_withCache healthy (fun _ => False) stored
      (fun _ sturdy => writes.agrees sturdy able) others with
    ⟨written, passes⟩
  have passed : Passes setup (fun _ => False) newest later state (state.withCache cache).nextKeyed :=
    passes.trans (passes_nextKeyed _)
  have stored := written.nextKeyed
  cases taken with
  | true =>
      refine ⟨later, stored, passed, ?_⟩
      rintro _ ⟨⟩
      refine ⟨⟨name, state.nextKey, Nat.lt_succ_self _, rfl⟩, not_issued_keyFor healthy name, ?_⟩
      exact ⟨if_pos ⟨rfl, rfl⟩, fun unlimited _ => writes.permanent unlimited⟩
  | false =>
      simp only [Bool.false_eq_true, if_false, leads_bind, leads_pure, leads_onMemory]
      apply (MemoryManager.spill_spares healthy.spills stored.tidy name value fun _ => False).imp
      rintro number? memory - ⟨spares, spilled⟩
      have further : Passes setup (fun _ => False) later later
          (state.withCache cache).nextKeyed _ := passes_withMemory healthy spares fun _ => False.elim
      refine ⟨later, stored_withMemory healthy stored spares, passed.trans further, ?_⟩
      intro backing moved
      cases number? with
      | none => cases moved
      | some number =>
          cases moved
          rcases spilled number rfl with ⟨new, below, holds⟩
          refine ⟨below, Nat.not_lt.mpr new, ?_⟩
          rw [Backs, managed_withMemory healthy]
          exact holds (healthy.genuine value able)

end Parts

end SessionState

end TierVault
