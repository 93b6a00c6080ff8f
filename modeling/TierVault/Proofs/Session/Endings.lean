import TierVault.Proofs.Session.Owners

/-!
What the end of a session leaves of its variables.

With the namespace everything goes that lies behind a variable: a spill file in any case, an entry of the cache as
long as the cache is open. A session that is shut down lets the namespace go first, and nothing is left. One that is
abandoned closes the cache first, and what lies in the persistent tiers stays there.
-/

namespace TierVault

open TierVault.Action CacheState HandledMemory

variable {World Note : Type}

namespace SessionState

variable {setup : SessionSetup World} {storable : Value → Prop} {sound : World → Prop}
  {shelves : World → Tier → Shelf} {state : SessionState World} {closed? : Option (Tier → Shelf)}
  {handles : Keyed Nat SpillHandle} {gone : String → Prop} {left : String → Option Value} {name : String}
  {value : Value} {Result : Type}

/-! # Runs -/

/-- Every value that is left stands under its name, and nothing lies behind variables beyond that. -/
def Upheld (setup : SessionSetup World) (storable : Value → Prop) (sound : World → Prop)
    (shelves : World → Tier → Shelf) (left : String → Option Value) (state : SessionState World) : Prop :=
  Intact setup storable sound shelves left state ∧ Accounted setup storable sound shelves none [] state

theorem Upheld.harmless {action : SessionAction World Result}
    (upheld : Upheld setup storable sound shelves left state)
    (harmless : Harmless setup storable sound shelves action)
    (tended : ∀ handles gone, Heeds (Tended setup storable sound shelves none handles gone) action) :
    Leads AnyFault action state fun _ final => Upheld setup storable sound shelves left final := by
  obtain ⟨⟨newest, stored, bound⟩, handles, tends, owned⟩ := upheld
  apply ((harmless newest state stored).and (tended handles _ state tends)).imp
  rintro _ final - ⟨⟨stored, passes⟩, tends⟩
  have same : naming final = naming state := by rw [naming, passes.bindings, passes.lazyVariables, naming]
  refine ⟨⟨newest, stored, bound.passes passes fun _ _ _ _ _ => id⟩, handles, ?_, owned.of_naming same⟩
  rw [passes.lazyVariables]
  exact tends

section Healthy

variable (healthy : setup.Healthy storable sound shelves) (parted : setup.Parted storable sound shelves)

include healthy parted

theorem leads_rebind_upheld (upheld : Upheld setup storable sound shelves left state)
    (bindings : Namespace) (value? : Option Value)
    (own : Keyed.find? name bindings = value?.map Binding.value)
    (others : ∀ asked, asked ≠ name → Keyed.find? asked bindings = Keyed.find? asked state.bindings)
    (able : ∀ value, value? = some value → storable value) :
    Leads AnyFault (Session.giveUp setup (Keyed.find? name state.bindings)) (state.withBindings bindings)
      fun _ final =>
        Upheld setup storable sound shelves (fun asked => if name = asked then value? else left asked) final := by
  have accounted := upheld.2.rebind others
  apply (leads_rebind healthy upheld.1 bindings value? own others able).and
  cases named : Keyed.find? name state.bindings with
  | none =>
      rw [named] at accounted
      exact accounted
  | some binding =>
      rw [named] at accounted
      apply (giveUp_accounted healthy parted accounted).imp
      rintro _ final - ⟨accounted, -⟩
      exact accounted

theorem force_accounted (accounted : Accounted setup storable sound shelves none [] state) (index : Nat) :
    Leads AnyFault (Session.force setup index) state fun _ final =>
      Accounted setup storable sound shelves none [] final := by
  simp only [Session.force, leads_bind, leads_lazyVariable?]
  cases found : state.lazyVariables[index]? with
  | none => exact accounted
  | some held =>
      simp only []
      cases loaded : held.loaded? with
      | some value => exact accounted
      | none =>
          obtain ⟨handles, tended, owned⟩ := accounted
          rw [leads_bind]
          apply ((loadBacking_tended healthy parted held.backing state tended).and
            (keeps_loadBacking held.backing state)).imp
          rintro value? middle - ⟨tended, same⟩
          have kept := owned.of_naming same
          injection same with bindings lazyVariables
          rw [← lazyVariables] at tended found
          cases value? with
          | none => exact ⟨handles, tended, kept⟩
          | some value =>
              let changed : LazyVariable := { held with loaded? := some value }
              refine ⟨handles, (tended.withVariables _).mono fun key dropped => ?_, ?_⟩
              · rcases dropped_of_set (show changed.backing = held.backing from rfl) dropped with before | ⟨dead, lies⟩
                · exact before
                · exact ⟨held, List.mem_of_getElem? found, lies, dead⟩
              · refine kept.setVariable found rfl (kept.once index held found) ?_ ?_ fun _ _ => rfl
                · exact fun other member => .inr member
                · exact kept.tracked held (List.mem_of_getElem? found)

theorem read_upheld (upheld : Upheld setup storable sound shelves left state) (name : String) :
    Leads AnyFault (Session.read setup name) state fun _ final =>
      Upheld setup storable sound shelves left final := by
  have intact : Leads AnyFault _ state _ :=
    leads_read healthy upheld.1 (fun checked => absurd trivial checked) name
  apply (intact.imp fun _ _ _ => And.left).and
  simp only [Session.read, leads_bind, leads_binding?]
  cases Keyed.find? name state.bindings with
  | none => exact upheld.2
  | some binding =>
      cases binding with
      | value value => exact upheld.2
      | lazy index => exact force_accounted healthy parted upheld.2 index

/-! ## Offloading -/

omit parted in
/-- A value that is moved to a spill file gets a handle of its own. -/
theorem spill_tended (tended : Tended setup storable sound shelves closed? handles gone state) (name : String)
    (value : Value) :
    Leads AnyFault (Session.onMemory setup (MemoryManager.spill setup.memory name value)) state
      fun number? final =>
        Tended setup storable sound shelves closed?
            (number?.elim handles fun number => Keyed.put number ⟨name, value, 1⟩ handles) gone final ∧
          ∀ number, number? = some number → Keyed.find? number handles = none := by
  have follows := heeds_spill healthy.spills name value _ tended.follows
  simp only [HandleCall.perform, leads_bind, leads_within] at follows
  have spares := MemoryManager.spill_spares healthy.spills tended.follows.tidy name value fun _ => False
  rw [leads_onMemory]
  apply (spares.and follows).imp
  rintro number? memory - ⟨⟨spares, new⟩, follows⟩
  refine ⟨tended.withMemory healthy spares.touches ?_, ?_⟩
  · cases number? with
    | none => exact follows
    | some number => exact follows
  · intro number same
    cases found : Keyed.find? number handles with
    | none => rfl
    | some handle =>
        have below := tended.follows.below number handle found
        exact absurd (new number same).1 (Nat.not_le.mpr below)

/-- The key of the value is put, and was not let go before. -/
theorem put_tended (tended : Tended setup storable sound shelves none handles gone state) {key : String}
    (able : storable value) (fresh : ¬gone key) :
    Leads AnyFault (Session.onCache (TieredCache.put setup.cache key value none)) state fun _ final =>
      Tended setup storable sound shelves none handles gone final := by
  rw [leads_onCache, leads_any]
  intro answer cache ended
  have writes : Writes setup.cache key value none state.cache answer cache :=
    TieredCache.outcome_of_ok tended.tallied (.put key value none) ended
  apply tended.withCache healthy parted
  intro newest nothing
  refine ⟨_, ?_, fun sound sturdy => writes.agrees sturdy able⟩
  intro asked dropped
  rw [if_neg]
  · exact nothing asked dropped
  · rintro ⟨-, rfl⟩
    exact fresh dropped

/-- What is moved is tracked, and everything else is as before. -/
theorem store_tended (tended : Tended setup storable sound shelves none handles gone state) (name : String)
    (able : storable value) (fresh : ¬gone (setup.keyFor name state.nextKey)) :
    Leads AnyFault (Session.store setup name value) state fun backing? final =>
      ∃ later, Tended setup storable sound shelves none later gone final ∧
        (∀ number handle, Keyed.find? number handles = some handle → Keyed.find? number later = some handle) ∧
          ∀ backing, backing? = some backing → Tracks later ⟨name, backing, none, 1⟩ := by
  let key := setup.keyFor name state.nextKey
  change Leads AnyFault (do
    if ← Session.onCache (TieredCache.put setup.cache key value none) then
      return some (.cached key)
    let spill? ← Session.onMemory setup (MemoryManager.spill setup.memory name value)
    return spill?.map Backing.spilled) state.nextKeyed _
  have begun : Tended setup storable sound shelves none handles gone state.nextKeyed := by
    refine ⟨?_, tended.follows⟩
    cases tended.cache with
    | opened stored nothing => exact .opened stored.nextKeyed nothing
  rw [leads_bind]
  apply (put_tended healthy parted begun able fresh).imp
  rintro taken middle - tended
  cases taken with
  | true =>
      refine ⟨handles, tended, fun _ _ => id, ?_⟩
      rintro _ ⟨⟩ number ⟨⟩
  | false =>
      simp only [Bool.false_eq_true, if_false, leads_bind, leads_pure]
      apply (spill_tended healthy tended name value).imp
      rintro number? final - ⟨tends, new⟩
      refine ⟨_, tends, ?_, ?_⟩
      · intro number handle found
        cases number? with
        | none => exact found
        | some own =>
            have different : number ≠ own := by
              rintro rfl
              cases found.symm.trans (new number rfl)
            exact (Keyed.find?_put_other _ _ different).trans found
      · intro backing moved number same
        cases number? with
        | none => cases moved
        | some own =>
            cases moved
            cases same
            exact ⟨_, Keyed.find?_put_same _ _ _, rfl, rfl⟩

theorem offload_upheld (upheld : Upheld setup storable sound shelves left state) (name : String) :
    Leads AnyFault (Session.offload setup name) state fun _ final =>
      Upheld setup storable sound shelves left final := by
  apply (leads_offload healthy upheld.1 name).and
  obtain ⟨⟨newest, stored, bound⟩, handles, tended, owned⟩ := upheld
  simp only [Session.offload, leads_bind, leads_binding?]
  cases named : Keyed.find? name state.bindings with
  | none => exact ⟨handles, tended, owned⟩
  | some binding =>
      cases binding with
      | lazy index => exact ⟨handles, tended, owned⟩
      | value value =>
          have able := bound.able name value named
          have fresh : ¬Dropped state.lazyVariables (setup.keyFor name state.nextKey) := by
            rintro ⟨held, member, lies, -⟩
            have issued := bound.issued held.backing (List.mem_map_of_mem member)
            exact not_issued_keyFor healthy name (lies ▸ issued)
          simp only [leads_bind]
          have stores := (leads_store_stores name value state).and (leads_store healthy stored name able)
          apply ((store_tended healthy parted tended name able fresh).and stores).imp
          rintro backing? middle - ⟨⟨later, tended, kept, tracks⟩, ⟨-, same⟩, _, _, _, placed⟩
          have still : OwnedOnce later [] state :=
            ⟨owned.once, fun held member number spilled =>
              (owned.tracked held member number spilled).imp fun handle facts => facts.imp_left (kept number handle),
              owned.apart⟩
          have owned := still.of_naming same
          injection same with bindings lazyVariables
          rw [← lazyVariables] at tended
          cases backing? with
          | none => exact ⟨later, tended, owned⟩
          | some backing =>
              have there : Keyed.find? name middle.bindings = some (.value value) := bindings ▸ named
              have unused : backing ∉ middle.backings := by
                rw [backings, lazyVariables]
                exact fun member => (placed backing rfl).2.1 (bound.issued backing member)
              exact owned.offload tended there unused (tracks backing rfl)

theorem offloadAll_upheld (upheld : Upheld setup storable sound shelves left state) :
    Leads AnyFault (Session.offloadAll setup) state fun _ final =>
      Upheld setup storable sound shelves left final := by
  simp only [Session.offloadAll, leads_bind, leads_pure]
  apply (upheld.harmless (harmless_candidates healthy) fun _ _ => candidates_tended healthy).imp
  rintro names chosen - upheld
  refine leads_mapM ?_ upheld
  intro name _ middle upheld
  rw [leads_bind]
  exact offload_upheld healthy parted upheld name

end Healthy

end SessionState

namespace Session

open SessionState

variable {setup : SessionSetup World} {storable : Value → Prop} {sound : World → Prop}
  {shelves : World → Tier → Shelf} {left : String → Option Value} {state : SessionState World}
  (healthy : setup.Healthy storable sound shelves) (parted : setup.Parted storable sound shelves)

include healthy parted

/-! ## Programs -/

theorem runProgram_upheld {program : Program Note} {history : List NameEvent} (offers : program.Offers storable)
    (upheld : Upheld setup storable sound shelves (leftBehind history) state) :
    Leads AnyFault (runProgram setup (program.logged history)) state fun answer final =>
      Upheld setup storable sound shelves (leftBehind answer.1.1) final := by
  refine leads_runProgram_kept (fun left state name bindings value? upheld => ?_)
    (fun left state name upheld => ?_) offers upheld
  · exact leads_rebind_upheld healthy parted upheld bindings value?
  · exact read_upheld healthy parted upheld name

theorem execute_upheld {executor : Executor Note} {history : List NameEvent} (code : String)
    (offers : ∀ code mode, (executor code mode).Offers storable)
    (upheld : Upheld setup storable sound shelves (leftBehind history) state) :
    Leads AnyFault (execute setup (fun code mode => (executor code mode).logged history) code) state
      fun answer final => Upheld setup storable sound shelves (leftBehind answer.1.1) final := by
  have reclaims {left : String → Option Value} (forced : Bool) (state : SessionState World)
      (upheld : Upheld setup storable sound shelves left state) :
      Leads AnyFault (reclaimIfNeeded setup forced) state fun _ final =>
        Upheld setup storable sound shelves left final :=
    upheld.harmless (harmless_reclaimIfNeeded healthy forced) fun _ _ => reclaimIfNeeded_tended healthy parted forced
  have checks : Leads AnyFault (onMemory setup (MemoryManager.checkPressure setup.memory)) state fun _ final =>
      Upheld setup storable sound shelves (leftBehind history) final :=
    upheld.harmless (harmless_idle healthy MemoryManager.idle_checkPressure) fun _ _ =>
      idle_tended healthy MemoryManager.idle_checkPressure
  refine leads_execute_parts checks (reclaims true)
    (fun mode state upheld => runProgram_upheld healthy parted (offers _ _) upheld) (fun _ _ _ _ => id) ?_
  rintro mode ⟨log, note⟩ ran upheld - -
  apply (offloadAll_upheld healthy parted upheld).imp
  rintro _ moved - upheld
  exact reclaims false moved upheld

theorem runAll_upheld {calls : List (SessionCall Note)} {history : List NameEvent}
    (offers : ∀ call ∈ calls, call.Offers storable)
    (upheld : Upheld setup storable sound shelves (leftBehind history) state) :
    Leads AnyFault (runAll setup history calls) state fun history final =>
      Upheld setup storable sound shelves (leftBehind history) final := by
  refine leads_runAll_kept (fun executor code member history state upheld => ?_)
    (fun program member history state upheld => ?_) upheld
  · exact execute_upheld healthy parted code (offers _ member) upheld
  · exact runProgram_upheld healthy parted (offers _ member) upheld

omit parted in
/-- A session may begin over any cache that agrees with its stores. -/
theorem upheld_start {newest : String → Option Value} {cache : CacheState World}
    (agrees : Agrees setup.cache storable sound shelves newest cache) :
    Upheld setup storable sound shelves (leftBehind []) (start setup cache) := by
  refine ⟨intact_of_agrees agrees, [], ⟨.opened ⟨rfl, rfl, agrees, ?_⟩ ?_, ?_⟩, ?_, ?_, List.nodup_nil⟩
  · exact (follows_start setup.memory (healthy.quiet _ agrees.sound)).tidy
  · rintro key ⟨held, member, -⟩
    cases member
  · exact follows_start setup.memory (healthy.quiet _ agrees.sound)
  · intro index held found
    cases found
  · intro held member
    cases member

end Session

/-! # Ends -/

/-- Nothing is left in the persistent tiers or the spill files of what lay behind the backing. -/
def Backing.Vacated (setup : SessionSetup World) (shelves : World → Tier → Shelf) (world : World) (name : String) :
    Backing → Prop
  | cached key => ∀ tier, tier ≠ .memory → (shelves world tier).item? key = none
  | spilled number => (setup.files world).has (setup.memory.spillPath name number) = false

namespace SessionState

variable {setup : SessionSetup World} {storable : Value → Prop} {sound : World → Prop}
  {shelves : World → Tier → Shelf} {state : SessionState World} {closed? : Option (Tier → Shelf)}
  {handles : Keyed Nat SpillHandle} {gone : String → Prop} {loose : List Nat} {faults : Fault → Prop}
  {Result : Type}

/-- Where no name is bound any more, no variable is alive. -/
theorem OwnedOnce.dead {held : LazyVariable} (owned : OwnedOnce handles [] state) (unbound : state.bindings = [])
    (member : held ∈ state.lazyVariables) : held.isAlive = false := by
  obtain ⟨index, found⟩ := List.mem_iff_getElem?.mp member
  cases alive : held.isAlive with
  | false => rfl
  | true =>
      obtain ⟨-, none | ⟨name, refers⟩⟩ := owned.once index held found alive
      · cases none
      · rw [Refers, unbound] at refers
        cases refers

theorem Accounted.unfiled {name : String} {number : Nat}
    (accounted : Accounted setup storable sound shelves closed? [] state) (unbound : state.bindings = [])
    (moved : (name, .spilled number) ∈ state.offloaded) :
    (setup.files state.cache.world).has (setup.memory.spillPath name number) = false := by
  obtain ⟨handles, tended, owned⟩ := accounted
  obtain ⟨held, member, same⟩ := List.mem_map.mp moved
  obtain ⟨rfl, lies⟩ := Prod.mk.inj same
  obtain ⟨handle, found, title, clones⟩ := owned.tracked held member number lies
  have filed := (tended.follows.filed number handle found).has_eq
  rw [SpillHandle.isAlive, clones, title] at filed
  exact filed.trans (owned.dead unbound member)

/-- What has no newest value is on no shelf. -/
theorem Tended.unshelved {key : String} (tended : Tended setup storable sound shelves none handles gone state)
    (dropped : gone key) (tier : Tier) : (shelves state.cache.world tier).item? key = none := by
  cases tended.cache with
  | opened stored nothing =>
      rw [stored.agrees.stocked, item?_shelf, nothing key dropped]
      cases state.cache.lookup key with
      | none => rfl
      | some entry => exact ite_self _

theorem Accounted.after {action : SessionAction World Result} (keeps : Keeps naming action)
    (tended : ∀ handles gone, Heeds (Tended setup storable sound shelves none handles gone) action)
    (accounted : Accounted setup storable sound shelves none loose state) :
    Leads AnyFault action state fun _ final =>
      Accounted setup storable sound shelves none loose final ∧ naming final = naming state := by
  obtain ⟨handles, tends, owned⟩ := accounted
  apply ((tended handles _ state tends).and (keeps state)).imp
  rintro _ final - ⟨tends, same⟩
  have kept := owned.of_naming same
  refine ⟨⟨handles, ?_, kept⟩, same⟩
  injection same with bindings lazyVariables
  rw [lazyVariables]
  exact tends

section Healthy

variable (healthy : setup.Healthy storable sound shelves) (parted : setup.Parted storable sound shelves)

include healthy parted

theorem cleanupExpired_tended :
    Heeds (Tended setup storable sound shelves none handles gone)
      (Session.onCache (TieredCache.cleanupExpired setup.cache)) := by
  intro state tended
  apply tended.leads_onCache healthy parted
  intro count cache ended newest sound
  have cleans : Cleans setup.cache state.cache count cache :=
    TieredCache.outcome_of_ok tended.tallied .cleanupExpired ended
  exact cleans.agrees

omit healthy in
/-- The end of the cache takes no spill file along. -/
theorem Accounted.close (accounted : Accounted setup storable sound shelves none loose state)
    (reclaimers : List (CacheAction World Nat)) :
    Accounted setup storable sound shelves (some (shelves (setup.closeStores state.cache.world))) loose
      { state with
        reclaimers
        cacheIsOpen := false
        cache := { state.cache with world := setup.closeStores state.cache.world } } := by
  obtain ⟨handles, tended, owned⟩ := accounted
  obtain ⟨isSound, leaves, -⟩ := parted.closes _ tended.isSound
  exact ⟨handles, ⟨.closed rfl isSound rfl, tended.follows.leaves leaves rfl (Nat.le_refl _)⟩,
    owned.once, owned.tracked, owned.apart⟩

end Healthy

end SessionState

namespace Session

open SessionState

variable {setup : SessionSetup World} {storable : Value → Prop} {sound : World → Prop}
  {shelves : World → Tier → Shelf} {state : SessionState World} {faults : Fault → Prop}
  (healthy : setup.Healthy storable sound shelves) (parted : setup.Parted storable sound shelves)
  (accounted : Accounted setup storable sound shelves none [] state)

include healthy parted accounted

/-- The namespace goes while the cache is open. -/
theorem shutdown_vacates :
    Leads faults (shutdown setup) state fun _ final => ∀ name backing, (name, backing) ∈ state.offloaded →
      backing.Vacated setup shelves final.cache.world name := by
  simp only [shutdown, leads_bind]
  apply (giveUpNamespace_accounted healthy parted accounted).imp
  rintro _ released - ⟨accounted, unbound, same⟩
  have steady : setup.cache.Steady faults sound := (sturdy_of_healthy healthy).steady.mono fun _ => False.elim
  have ends : Leads faults (onCache (TieredCache.cleanupExpired setup.cache)) released fun _ _ => True := by
    obtain ⟨handles, tended, -⟩ := accounted
    rw [leads_onCache]
    exact (TieredCache.leads_cleanupExpired_of_tallied steady tended.tallied tended.isSound).imp
      fun _ _ _ _ => trivial
  apply ((accounted.after (keeps_onCache (fun _ _ => rfl) _)
    fun _ _ => cleanupExpired_tended healthy parted).of_any ends).imp
  rintro _ cleaned - ⟨accounted, kept⟩
  have ends : Leads faults (onMemory setup MemoryManager.sweep) cleaned fun _ _ => True := by
    obtain ⟨handles, tended, -⟩ := accounted
    rw [leads_onMemory]
    exact tended.follows.leads_sweep.imp fun _ _ _ _ => trivial
  simp only [retireMemory, closeCache, leads_bind, leads_modify]
  apply ((accounted.after (keeps_onMemory (fun _ _ => rfl) _) fun _ _ => sweep_tended healthy).of_any ends).imp
  rintro _ swept - ⟨accounted, still⟩
  obtain ⟨bindings, lazyVariables⟩ := Prod.mk.inj (still.trans kept)
  rw [unbound] at bindings
  intro name backing moved
  rw [← same, offloaded, ← lazyVariables] at moved
  have closed := accounted.close parted []
  cases backing with
  | spilled number => exact closed.unfiled bindings moved
  | cached key =>
      intro tier persistent
      obtain ⟨handles, tended, owned⟩ := accounted
      obtain ⟨held, member, title⟩ := List.mem_map.mp moved
      obtain ⟨-, lies⟩ := Prod.mk.inj title
      have dropped : Dropped swept.lazyVariables key := ⟨held, member, lies, owned.dead bindings member⟩
      change (shelves (setup.closeStores swept.cache.world) tier).item? key = none
      rw [(parted.closes _ tended.isSound).2.2 tier persistent]
      exact tended.unshelved dropped tier

/-- The namespace goes after the cache. -/
theorem abandon_leaves :
    Leads faults (abandon setup) state fun _ final =>
      (∀ name number, (name, .spilled number) ∈ state.offloaded →
        (setup.files final.cache.world).has (setup.memory.spillPath name number) = false) ∧
      ∀ tier, tier ≠ .memory → shelves final.cache.world tier = shelves state.cache.world tier := by
  have closed := accounted.close parted state.reclaimers
  simp only [abandon, closeCache, leads_bind, leads_modify]
  apply (giveUpNamespace_accounted healthy parted closed).imp
  rintro _ final - ⟨ended, unbound, same⟩
  refine ⟨fun name number moved => ended.unfiled unbound (same ▸ moved), fun tier persistent => ?_⟩
  obtain ⟨handles, tended, -⟩ := accounted
  obtain ⟨_, left, -⟩ := ended
  cases left.cache with
  | closed _ _ same =>
      rw [same]
      exact (parted.closes _ tended.isSound).2.2 tier persistent

end Session

/-- What the two ends of a session leave of what it moved out of process memory. -/
structure Session.Endings (setup : SessionSetup World) (shelves : World → Tier → Shelf)
    (state : SessionState World) : Prop where
  shutdown : ∃ last, Session.shutdown setup state = .ok () last ∧ ∀ name backing,
    (name, backing) ∈ state.offloaded → backing.Vacated setup shelves last.cache.world name
  /-- Spill files go, but what the persistent tiers held stays in them. -/
  abandon : ∃ last, Session.abandon setup state = .ok () last ∧
    (∀ name number, (name, .spilled number) ∈ state.offloaded →
      (setup.files last.cache.world).has (setup.memory.spillPath name number) = false) ∧
    ∀ tier, tier ≠ .memory → shelves last.cache.world tier = shelves state.cache.world tier

namespace Session

open SessionState

/-- After every run of a session over storage that does not fail, a shutdown leaves nothing of any variable that was
offloaded. If the session is abandoned, no spill file is left, but every payload in a persistent tier. -/
theorem endings_of_run (setup : SessionSetup World) {storable : Value → Prop} {sound : World → Prop}
    {shelves : World → Tier → Shelf} (healthy : setup.Healthy storable sound shelves)
    (parted : setup.Parted storable sound shelves) {newest : String → Option Value} {cache : CacheState World}
    (agrees : Agrees setup.cache storable sound shelves newest cache) (calls : List (SessionCall Note))
    (offers : ∀ call ∈ calls, call.Offers storable) {history : List NameEvent} {final : SessionState World}
    (ended : runAll setup [] calls (start setup cache) = .ok history final) :
    Endings setup shelves final := by
  have upheld := (runAll_upheld healthy parted offers (upheld_start healthy agrees)).of_ok ended
  have ends : Leads (fun _ => False) (shutdown setup) final _ := shutdown_vacates healthy parted upheld.2
  have leaves : Leads (fun _ => False) (abandon setup) final _ := abandon_leaves healthy parted upheld.2
  obtain ⟨⟨⟩, last, closed, vacated⟩ := ends.ends fun _ => id
  obtain ⟨⟨⟩, left, gone, kept⟩ := leaves.ends fun _ => id
  exact ⟨⟨last, closed, vacated⟩, left, gone, kept⟩

/-- A session in memory that moves every value out of the process, and none to the hottest tier. -/
def lasting : SessionSetup (PerTier MemoryWorld × FileSystem) :=
  .inMemory (.inMemory { budgets := ⟨4, 4, 4, 4⟩, memoryLimit := 0 } none id) (SessionSetup.eager none).memory unary

/-- One value goes to the cache, and one that is too large for it to a file. -/
def movingBoth : List (SessionCall Unit) :=
  [.execute (fun _ _ => .insert "a" .null fun _ => .insert "b" (.flag true) fun _ => .finish () none) ""]

theorem endings_of_run_each_way :
    let start := start lasting (.start lasting.cache (.const [], .start []))
    ∃ history state, runAll lasting [] movingBoth start = .ok history state ∧
      state.offloaded = [("a", .cached "var:a:"), ("b", .spilled 0)] ∧
        (lasting.files state.cache.world).has (lasting.memory.spillPath "b" 0) = true ∧
          Endings lasting (fun world tier => MemoryStore.shelf (world.1.get tier)) state := by
  intro start
  have leads : Leads (fun _ => False) (runAll lasting [] movingBoth) start fun _ state =>
      state.offloaded = [("a", .cached "var:a:"), ("b", .spilled 0)] ∧
        (lasting.files state.cache.world).has (lasting.memory.spillPath "b" 0) = true := by
    decide +kernel
  obtain ⟨history, state, ended, moved, filed⟩ := leads.ends fun _ => id
  have healthy := SessionSetup.inMemory_healthy { budgets := ⟨4, 4, 4, 4⟩, memoryLimit := 0 } none id lasting.memory
    identifies_unary identifies_unary
  have parted := SessionSetup.inMemory_parted { budgets := ⟨4, 4, 4, 4⟩, memoryLimit := 0 } none id lasting.memory
    unary
  have isSound (tier : Tier) : MemoryStore.Sound ((PerTier.const []).get tier) := by
    cases tier <;> exact ⟨List.nodup_nil, nofun⟩
  have bare (tier : Tier) : MemoryStore.shelf ((PerTier.const []).get tier) = .empty := by
    cases tier <;> rfl
  have offers : ∀ call ∈ movingBoth, call.Offers Value.Genuine := by
    intro call member
    cases List.mem_singleton.mp member
    intro code mode
    have null : Value.null.Genuine := by
      refine ⟨trivial, ?_⟩
      rintro _ ⟨⟩
      decide
    exact ⟨null, fun _ => ⟨.flag true, fun _ => trivial⟩⟩
  exact ⟨history, state, ended, moved, filed,
    endings_of_run lasting healthy parted (.start ⟨isSound, fun _ => rfl⟩ bare) movingBoth offers ended⟩

/-- A session that is abandoned leaves what it moved to a persistent tier. -/
theorem abandon_leaves_payload :
    let start := start lasting (.start lasting.cache (.const [], .start []))
    ∃ history state last, runAll lasting [] movingBoth start = .ok history state ∧
      abandon lasting state = .ok () last ∧ ("a", .cached "var:a:") ∈ state.offloaded ∧
        ¬(Backing.cached "var:a:").Vacated lasting (fun world tier => MemoryStore.shelf (world.1.get tier))
          last.cache.world "a" := by
  intro start
  have leads : Leads (fun _ => False) (runAll lasting [] movingBoth) start fun _ state =>
      state.offloaded = [("a", .cached "var:a:"), ("b", .spilled 0)] ∧
        Leads (fun _ => False) (abandon lasting) state fun _ last =>
          ((MemoryStore.shelf (last.cache.world.1.get .sqlite)).item? "var:a:").isSome = true := by
    decide +kernel
  obtain ⟨history, state, ended, moved, abandons⟩ := leads.ends fun _ => id
  obtain ⟨⟨⟩, last, closed, stays⟩ := abandons.ends fun _ => id
  refine ⟨history, state, last, ended, closed, moved ▸ List.mem_cons_self, ?_⟩
  intro vacated
  have nothing : (MemoryStore.shelf (last.cache.world.1.get .sqlite)).item? "var:a:" = none := vacated .sqlite (by decide)
  rw [nothing] at stays
  cases stays

end Session

end TierVault
