import TierVault.Proofs.Session.Runs

/-!
What an execution does to names after its code has run.

A name stands for something else afterwards only if the report tells it, and the report tells where its value went.
Everything else that the execution does works on the cache, on the files and on memory, and leaves names and lazy
variables alone.
-/

namespace TierVault

open TierVault.Action

variable {World Note : Type}

/-! ## The order of names -/

namespace Namespace

variable {name asked : String} {binding : Binding} {bindings : Namespace}

/-- The names stand in their order, each of them once. -/
def Ordered (bindings : Namespace) : Prop :=
  bindings.Pairwise fun first later => TextOrder.before first.1 later.1 = true

theorem mem_bind {item : String × Binding} (member : item ∈ bind name binding bindings) :
    item = (name, binding) ∨ item ∈ bindings := by
  induction bindings with
  | nil => exact .inl (List.mem_singleton.mp member)
  | cons head rest induction =>
      rcases head with ⟨other, held⟩
      simp only [bind] at member
      split at member
      · exact List.mem_cons.mp member
      · split at member
        · exact (List.mem_cons.mp member).imp_right (List.mem_cons_of_mem _)
        · rcases List.mem_cons.mp member with rfl | later
          · exact .inr List.mem_cons_self
          · exact (induction later).imp_right (List.mem_cons_of_mem _)

theorem Ordered.bind (ordered : Ordered bindings) (name : String) (binding : Binding) :
    Ordered (bind name binding bindings) := by
  induction bindings with
  | nil => exact List.pairwise_singleton _ _
  | cons head rest induction =>
      rcases head with ⟨other, held⟩
      rcases List.pairwise_cons.mp ordered with ⟨first, later⟩
      simp only [Namespace.bind]
      split
      · rename_i before
        refine List.pairwise_cons.mpr ⟨?_, ordered⟩
        intro item member
        rcases List.mem_cons.mp member with rfl | member
        · exact before
        · exact TextOrder.before_trans before (first item member)
      · split
        · rename_i same
          subst same
          exact List.pairwise_cons.mpr ⟨first, later⟩
        · rename_i back different
          refine List.pairwise_cons.mpr ⟨?_, induction later⟩
          intro item member
          rcases mem_bind member with rfl | member
          · exact TextOrder.before_of_not (Bool.not_eq_true _ ▸ back) different
          · exact first item member

theorem Ordered.remove (ordered : Ordered bindings) (name : String) :
    Ordered (Keyed.remove name bindings) :=
  List.Pairwise.filter _ ordered

theorem Ordered.distinct (ordered : Ordered bindings) : Keyed.Distinct bindings := by
  refine List.pairwise_map.mpr (ordered.imp ?_)
  intro first later before same
  exact (TextOrder.not_before before).2 same.symm

end Namespace

namespace SessionState

variable {Part Result Next Item : Type} {part : SessionState World → Part}
  {setup : SessionSetup World} {state : SessionState World}

/-! ## Parts that stay as they are -/

/-- Wherever the action runs, it leaves that part of the state as it was. -/
def Keeps (part : SessionState World → Part) (action : SessionAction World Result) : Prop :=
  ∀ state, Leads AnyFault action state fun _ final => part final = part state

theorem keeps_pure (result : Result) : Keeps part (pure result) := fun _ => rfl

theorem keeps_get : Keeps part (get : SessionAction World (SessionState World)) := fun _ => rfl

theorem keeps_ofExcept (computation : Except Fault Result) :
    Keeps part (Action.ofExcept computation) :=
  fun _ => leads_any_ofExcept computation fun _ _ => rfl

theorem Keeps.bind {action : SessionAction World Result} {next : Result → SessionAction World Next}
    (first : Keeps part action) (further : ∀ result, Keeps part (next result)) :
    Keeps part (action >>= next) := by
  intro state
  rw [leads_bind]
  apply (first state).imp
  intro result middle _ same
  apply (further result middle).imp
  intro _ final _ later
  exact later.trans same

theorem keeps_onCache (apart : ∀ state cache, part (withCache state cache) = part state)
    (action : CacheAction World Result) : Keeps part (Session.onCache action) := by
  intro state
  rw [leads_onCache, leads_any]
  intro _ cache _
  exact apart state cache

theorem keeps_onMemory (apart : ∀ state memory, part (state.withMemory setup memory) = part state)
    (action : MemoryAction Result) : Keeps part (Session.onMemory setup action) := by
  intro state
  rw [leads_onMemory, leads_any]
  intro _ memory _
  exact apart state memory

theorem keeps_foldlM {body : Result → Item → SessionAction World Result} {items : List Item}
    (keeps : ∀ result, ∀ item ∈ items, Keeps part (body result item)) (start : Result) :
    Keeps part (items.foldlM body start) := by
  induction items generalizing start with
  | nil => exact keeps_pure start
  | cons item rest induction =>
      rw [List.foldlM_cons]
      apply (keeps start item List.mem_cons_self).bind
      intro result
      exact induction (fun result later member => keeps result later (List.mem_cons_of_mem _ member)) result

/-- What names are bound to, and the variables among that. -/
def naming (state : SessionState World) : Namespace × List LazyVariable :=
  (state.bindings, state.lazyVariables)

theorem keeps_reclaim {reclaimers : List (SessionAction World Nat)} (reason : ReclaimReason)
    (keeps : ∀ reclaimer ∈ reclaimers, Keeps naming reclaimer) :
    Keeps naming
      (MemoryManager.reclaim (Session.onMemory setup) setup.memory reclaimers reason) := by
  apply (keeps_onMemory (fun _ _ => rfl) _).bind
  intro swept
  apply (keeps_foldlM ?_ _).bind
  · intro freed
    apply (keeps_onMemory (fun _ _ => rfl) _).bind
    intro _
    exact keeps_pure freed
  · intro freed reclaimer member
    apply (keeps reclaimer member).bind
    intro released
    exact keeps_ofExcept _

/-- A reclaim pass leaves names alone, whatever it asks to free memory. -/
theorem keeps_reclaimIfNeeded (forced : Bool) :
    Keeps naming (Session.reclaimIfNeeded setup forced) := by
  apply keeps_get.bind
  intro state
  apply (keeps_onMemory (fun _ _ => rfl) _).bind
  intro reason?
  cases reason? with
  | none => exact keeps_pure false
  | some reason =>
      apply (keeps_reclaim reason ?_).bind
      · intro _
        apply (keeps_onMemory (fun _ _ => rfl) _).bind
        intro _
        exact keeps_pure true
      · intro reclaimer member
        rcases List.mem_map.mp member with ⟨reclaimer, -, rfl⟩
        exact keeps_onCache (fun _ _ => rfl) reclaimer

/-! ## Candidates -/

/-- What is chosen passes the test, and stands in the order of the items. -/
theorem leads_filterM_chosen {State : Type} {faults : Fault → Prop} {items : List Item}
    {test : Item → Action State Bool} {invariant : State → Prop} {fits : Item → Prop} {state : State}
    (round : ∀ item state, invariant state → Leads faults (test item) state fun answer final =>
      (answer = true → fits item) ∧ invariant final)
    (start : invariant state) :
    Leads faults (items.filterM test) state fun chosen final =>
      (chosen.Sublist items ∧ ∀ item ∈ chosen, fits item) ∧ invariant final := by
  have reversed (items found : List Item) (state : State) (start : invariant state) :
      Leads faults (List.filterAuxM test items found) state fun chosen final =>
        (∃ more : List Item, chosen = more.reverse ++ found ∧ more.Sublist items ∧
          ∀ item ∈ more, fits item) ∧ invariant final := by
    induction items generalizing state found with
    | nil => exact ⟨⟨[], rfl, .slnil, nofun⟩, start⟩
    | cons item rest induction =>
        simp only [List.filterAuxM, leads_bind]
        apply (round item state start).imp
        rintro answer middle - ⟨fitting, holds⟩
        apply (induction _ middle holds).imp
        rintro chosen final - ⟨⟨more, rfl, sublist, fit⟩, holds⟩
        refine ⟨?_, holds⟩
        cases answer with
        | false => exact ⟨more, rfl, sublist.cons item, fit⟩
        | true =>
            refine ⟨item :: more, ?_, sublist.cons_cons item, ?_⟩
            · simp only [cond_true, List.reverse_cons, List.append_assoc, List.singleton_append]
            · exact List.forall_mem_cons.mpr ⟨fitting rfl, fit⟩
  simp only [List.filterM, leads_bind, leads_pure]
  apply (reversed items [] state start).imp
  rintro chosen final - ⟨⟨more, rfl, sublist, fit⟩, holds⟩
  rw [List.append_nil, List.reverse_reverse]
  exact ⟨⟨sublist, fit⟩, holds⟩

/-- The value of a name may leave process memory: the name is not spared, and the value can be stored and
is not small. -/
structure Movable (setup : SessionSetup World) (name : String) (value : Value) : Prop where
  unskipped : Session.isSkipped setup name = false
  serializable : value.isSerializable = true
  large : setup.memory.config.spillFloorBytes ≤ value.footprint

theorem leads_shouldSpill (setup : MemorySetup) (value : Value) (memory : ManagedMemory) :
    Leads AnyFault (MemoryManager.shouldSpill setup value) memory fun answer _ =>
      answer = true →
        value.isSerializable = true ∧ setup.config.spillFloorBytes ≤ value.footprint := by
  unfold MemoryManager.shouldSpill
  extract_lets size
  split
  · exact nofun
  · rename_i leaves
    rw [leads_any]
    intro answer final _ _
    simp only [Bool.or_eq_true, Bool.not_eq_true', decide_eq_true_eq, not_or, Bool.not_eq_false,
      Nat.not_lt] at leaves
    exact ⟨leaves.2, leaves.1⟩

theorem leads_isCandidate (setup : SessionSetup World) (name : String) (binding : Binding)
    (state : SessionState World) :
    Leads AnyFault (Session.isCandidate setup name binding) state fun answer final =>
      (answer = true → ∃ value, binding = .value value ∧ Movable setup name value) ∧
        naming final = naming state := by
  cases binding with
  | lazy index => exact ⟨nofun, rfl⟩
  | value value =>
      simp only [Session.isCandidate]
      split
      · exact ⟨nofun, rfl⟩
      · rename_i unskipped
        rw [leads_onMemory]
        apply (leads_shouldSpill setup.memory value _).imp
        intro answer memory _ able
        refine ⟨fun chosen => ⟨value, rfl, Bool.not_eq_true _ ▸ unskipped, ?_, ?_⟩, rfl⟩
        · exact (able chosen).1
        · exact (able chosen).2

/-- Candidates are names of movable values, each of them once. -/
theorem leads_candidates (ordered : state.bindings.Ordered) :
    Leads AnyFault (Session.candidates setup) state fun names final =>
      (names.Nodup ∧ ∀ name ∈ names, ∃ value,
        Keyed.find? name state.bindings = some (.value value) ∧ Movable setup name value) ∧
          naming final = naming state := by
  simp only [Session.candidates, leads_bind, leads_get, leads_pure]
  let kept (middle : SessionState World) : Prop := naming middle = naming state
  have round (item : String × Binding) (middle : SessionState World) (same : kept middle) :
      Leads AnyFault (Session.isCandidate setup item.1 item.2) middle fun answer final =>
        (answer = true → ∃ value, item.2 = .value value ∧ Movable setup item.1 value) ∧
          kept final := by
    apply (leads_isCandidate setup item.1 item.2 middle).imp
    rintro answer final - ⟨fits, later⟩
    exact ⟨fits, later.trans same⟩
  have start : kept state := rfl
  apply (leads_filterM_chosen round start).imp
  rintro chosen final - ⟨⟨sublist, fit⟩, same⟩
  refine ⟨⟨?_, ?_⟩, same⟩
  · exact (sublist.map Prod.fst).nodup ordered.distinct
  · intro name member
    rcases List.mem_map.mp member with ⟨⟨name, binding⟩, among, rfl⟩
    rcases fit _ among with ⟨value, rfl, movable⟩
    exact ⟨value, ordered.distinct.find?_of_mem (sublist.subset among), movable⟩

/-! ## Moving one value -/

variable {name : String} {value : Value} {backing? : Option Backing} {final : SessionState World}

/-- Where a value went: to the cache; if the cache refused it, to a spill file; or nowhere. -/
inductive Stores (setup : SessionSetup World) (name : String) (value : Value)
    (before : SessionState World) : Option Backing → Prop
  | cached {cache : CacheState World}
      (taken : TieredCache.put setup.cache (setup.keyFor name before.nextKey) value none before.cache =
        .ok true cache) :
      Stores setup name value before (some (.cached (setup.keyFor name before.nextKey)))
  | spilled {cache : CacheState World} {number : Nat} {memory : ManagedMemory}
      (refused : TieredCache.put setup.cache (setup.keyFor name before.nextKey) value none
        before.cache = .ok false cache)
      (written : MemoryManager.spill setup.memory name value
        ⟨before.memory, setup.files cache.world⟩ = .ok (some number) memory) :
      Stores setup name value before (some (.spilled number))
  | nowhere {cache : CacheState World} {memory : ManagedMemory}
      (refused : TieredCache.put setup.cache (setup.keyFor name before.nextKey) value none
        before.cache = .ok false cache)
      (failed : MemoryManager.spill setup.memory name value
        ⟨before.memory, setup.files cache.world⟩ = .ok none memory) :
      Stores setup name value before none

theorem leads_store_stores (name : String) (value : Value) (state : SessionState World) :
    Leads AnyFault (Session.store setup name value) state fun backing? final =>
      Stores setup name value state backing? ∧ naming final = naming state := by
  let key := setup.keyFor name state.nextKey
  change Leads AnyFault (do
    if ← Session.onCache (TieredCache.put setup.cache key value none) then
      return some (.cached key)
    let spill? ← Session.onMemory setup (MemoryManager.spill setup.memory name value)
    return spill?.map Backing.spilled) state.nextKeyed _
  rw [leads_bind, leads_onCache, leads_any]
  intro taken cache put
  cases taken with
  | true => exact ⟨.cached put, rfl⟩
  | false =>
      simp only [Bool.false_eq_true, if_false, leads_bind, leads_pure, leads_onMemory]
      rw [leads_any]
      intro number? memory written
      cases number? with
      | some number => exact ⟨.spilled put written, rfl⟩
      | none => exact ⟨.nowhere put written, rfl⟩

/-- The name stands for a variable of its own now, which no name had before. -/
structure Moved (ran final : SessionState World) (name : String) (backing : Backing) : Prop where
  was : ∃ value, Keyed.find? name ran.bindings = some (.value value)
  becomes : ∃ index, ran.lazyVariables.length ≤ index ∧ final.Refers name index ∧
    final.lazyVariables[index]? = some ⟨name, backing, none, 1⟩

/-- What a name stands for after its value was moved, or was not. -/
def Placed (before after : SessionState World) (name : String) : Option Backing → Prop
  | none => naming after = naming before
  | some backing =>
    after.bindings = Namespace.bind name (.lazy before.lazyVariables.length) before.bindings ∧
      after.lazyVariables = before.lazyVariables ++ [⟨name, backing, none, 1⟩]

theorem leads_offload_value (found : Keyed.find? name state.bindings = some (.value value)) :
    Leads AnyFault (Session.offload setup name) state fun backing? final =>
      Stores setup name value state backing? ∧ Placed state final name backing? := by
  simp only [Session.offload, leads_bind, leads_binding?, found]
  apply (leads_store_stores name value state).imp
  rintro backing? middle - ⟨stores, same⟩
  cases backing? with
  | none => exact ⟨stores, same⟩
  | some backing =>
      injection same with bindings lazyVariables
      simp only [leads_bind, leads_addVariable, leads_bindName, leads_pure]
      refine ⟨stores, ?_, ?_⟩
      · simp only [withBindings, withVariables, bindings, lazyVariables]
      · simp only [withBindings, withVariables, lazyVariables]

theorem Placed.others (placed : Placed state final name backing?) {asked : String}
    (different : asked ≠ name) :
    Keyed.find? asked final.bindings = Keyed.find? asked state.bindings := by
  cases backing? with
  | none => rw [(Prod.mk.inj placed).1]
  | some backing => rw [placed.1, Namespace.find?_bind_other different]

theorem Placed.kept (placed : Placed state final name backing?) :
    state.lazyVariables <+: final.lazyVariables := by
  cases backing? with
  | none => exact (Prod.mk.inj placed).2 ▸ List.prefix_rfl
  | some backing => exact ⟨_, placed.2.symm⟩

theorem Placed.moved {backing : Backing} (placed : Placed state final name (some backing))
    (found : Keyed.find? name state.bindings = some (.value value)) :
    Moved state final name backing := by
  refine ⟨⟨value, found⟩, state.lazyVariables.length, Nat.le_refl _, ?_, ?_⟩
  · rw [Refers, placed.1, Namespace.find?_bind_same]
  · rw [placed.2, List.getElem?_concat_length]

theorem Moved.mono {ran middle later : SessionState World} {backing : Backing}
    (moved : Moved ran middle name backing)
    (found : Keyed.find? name later.bindings = Keyed.find? name middle.bindings)
    (kept : middle.lazyVariables <+: later.lazyVariables) : Moved ran later name backing := by
  rcases moved with ⟨was, index, new, refers, there⟩
  rcases kept with ⟨more, same⟩
  refine ⟨was, index, new, found.trans refers, ?_⟩
  rw [← same, List.getElem?_append_left (List.getElem?_eq_some_iff.mp there).1]
  exact there

/-! ## Moving one value after the other -/

/-- Names are offloaded in order, and each is told with where its value went. -/
inductive Offloads (setup : SessionSetup World) :
    SessionState World → List (String × Option Backing) → SessionState World → Prop
  | done (state : SessionState World) : Offloads setup state [] state
  | step {state middle final : SessionState World} {name : String} {backing? : Option Backing}
      {rest : List (String × Option Backing)}
      (first : Session.offload setup name state = .ok backing? middle)
      (later : Offloads setup middle rest final) :
      Offloads setup state ((name, backing?) :: rest) final

/-- The names have values, and no name stands twice. -/
def Valued (state : SessionState World) (names : List String) : Prop :=
  names.Nodup ∧ ∀ name ∈ names, ∃ value, Keyed.find? name state.bindings = some (.value value)

variable {attempts : List (String × Option Backing)}

/-- Offloading one name leaves the names after it with their values. -/
theorem Valued.after {names : List String} (valued : Valued state (name :: names))
    (placed : Placed state final name backing?) : Valued final names := by
  have parts := List.nodup_cons.mp valued.1
  refine ⟨parts.2, fun later member => ?_⟩
  have different : later ≠ name := fun same => parts.1 (same ▸ member)
  rw [placed.others different]
  exact valued.2 later (List.mem_cons_of_mem _ member)

theorem Offloads.first_placed {middle : SessionState World} {names : List String}
    (valued : Valued state (name :: names))
    (ended : Session.offload setup name state = .ok backing? middle) :
    ∃ value, Keyed.find? name state.bindings = some (.value value) ∧
      Stores setup name value state backing? ∧ Placed state middle name backing? := by
  rcases valued.2 name List.mem_cons_self with ⟨value, found⟩
  exact ⟨value, found, (leads_offload_value found).of_ok ended⟩

theorem Offloads.kept (offloads : Offloads setup state attempts final)
    (valued : Valued state (attempts.map Prod.fst)) :
    state.lazyVariables <+: final.lazyVariables := by
  induction offloads with
  | done state => exact List.prefix_rfl
  | step ended later induction =>
      rcases Offloads.first_placed valued ended with ⟨value, -, -, placed⟩
      exact placed.kept.trans (induction (valued.after placed))

/-- A name whose value went nowhere keeps it, and names that are not offloaded keep what they have. -/
theorem Offloads.others (offloads : Offloads setup state attempts final)
    (valued : Valued state (attempts.map Prod.fst))
    (unmoved : ∀ backing, (name, some backing) ∉ attempts) :
    Keyed.find? name final.bindings = Keyed.find? name state.bindings := by
  induction offloads with
  | done state => rfl
  | @step state middle final other backing? rest ended later induction =>
      rcases Offloads.first_placed valued ended with ⟨value, -, -, placed⟩
      have onward := induction (valued.after placed) fun backing member =>
        unmoved backing (List.mem_cons_of_mem _ member)
      rw [onward]
      by_cases same : name = other
      · subst same
        cases backing? with
        | none => rw [(Prod.mk.inj placed).1]
        | some backing => exact absurd List.mem_cons_self (unmoved backing)
      · exact placed.others same

theorem Offloads.moved {backing : Backing} (offloads : Offloads setup state attempts final)
    (valued : Valued state (attempts.map Prod.fst)) (member : (name, some backing) ∈ attempts) :
    Moved state final name backing := by
  induction offloads with
  | done state => cases member
  | @step state middle final other backing? rest ended later induction =>
      rcases Offloads.first_placed valued ended with ⟨value, found, -, placed⟩
      have onward := valued.after placed
      have apart : other ∉ rest.map Prod.fst := (List.nodup_cons.mp valued.1).1
      rcases List.mem_cons.mp member with same | member
      · cases same
        apply (placed.moved found).mono (later.others onward _) (later.kept onward)
        exact fun backing member => apart (List.mem_map_of_mem member)
      · rcases induction onward member with ⟨⟨held, was⟩, index, new, becomes⟩
        have different : name ≠ other := fun same => apart (same ▸ List.mem_map_of_mem member)
        refine ⟨⟨held, (placed.others different).symm.trans was⟩, index, ?_, becomes⟩
        exact Nat.le_trans placed.kept.length_le new

theorem Offloads.ordered (offloads : Offloads setup state attempts final)
    (valued : Valued state (attempts.map Prod.fst)) (ordered : state.bindings.Ordered) :
    final.bindings.Ordered := by
  induction offloads with
  | done state => exact ordered
  | @step state middle final name backing? rest ended later induction =>
      rcases Offloads.first_placed valued ended with ⟨value, -, -, placed⟩
      apply induction (valued.after placed)
      cases backing? with
      | none => exact (Prod.mk.inj placed).1 ▸ ordered
      | some backing => exact placed.1 ▸ ordered.bind name _

/-- What became of one name: where its value was to go, and before that the names that come before it. -/
theorem Offloads.stores (offloads : Offloads setup state attempts final)
    (valued : Valued state (attempts.map Prod.fst)) (member : (name, backing?) ∈ attempts) :
    ∃ earlier before value, Offloads setup state earlier before ∧
      earlier ++ [(name, backing?)] <+: attempts ∧
        Keyed.find? name state.bindings = some (.value value) ∧
          Stores setup name value before backing? := by
  induction offloads with
  | done state => cases member
  | @step state middle final other other? rest ended later induction =>
      rcases Offloads.first_placed valued ended with ⟨value, found, stores, placed⟩
      rcases List.mem_cons.mp member with same | member
      · cases same
        exact ⟨[], state, value, .done state, ⟨rest, rfl⟩, found, stores⟩
      · rcases induction (valued.after placed) member with
          ⟨earlier, before, value, reached, begins, had, stores⟩
        have apart : other ∉ rest.map Prod.fst := (List.nodup_cons.mp valued.1).1
        have different : name ≠ other := fun same => apart (same ▸ List.mem_map_of_mem member)
        refine ⟨(other, other?) :: earlier, before, value, .step ended reached, ?_, ?_, stores⟩
        · exact List.cons_prefix_cons.mpr ⟨rfl, begins⟩
        · exact (placed.others different).symm.trans had

/-- The names that were moved, with where their values lie. -/
def movedOf (attempts : List (String × Option Backing)) : List (String × Backing) :=
  attempts.filterMap fun (name, backing?) => backing?.map fun backing => (name, backing)

theorem mem_movedOf {backing : Backing} :
    (name, backing) ∈ movedOf attempts ↔ (name, some backing) ∈ attempts := by
  simp only [movedOf, List.mem_filterMap, Option.map_eq_some_iff, Prod.mk.injEq, Prod.exists]
  constructor
  · rintro ⟨name, backing?, member, backing, rfl, rfl, rfl⟩
    exact member
  · intro member
    exact ⟨name, some backing, member, backing, rfl, rfl, rfl⟩

theorem sublist_movedOf : ((movedOf attempts).map Prod.fst).Sublist (attempts.map Prod.fst) := by
  induction attempts with
  | nil => exact .slnil
  | cons attempt rest induction =>
      rcases attempt with ⟨name, _ | backing⟩
      · exact induction.cons name
      · exact induction.cons_cons name

theorem leads_offloadEach (names : List String) (state : SessionState World) :
    Leads AnyFault (names.mapM fun name => do
      return (← Session.offload setup name).map fun backing => (name, backing)) state
      fun moved final => ∃ attempts, attempts.map Prod.fst = names ∧
        moved.filterMap id = movedOf attempts ∧ Offloads setup state attempts final := by
  induction names generalizing state with
  | nil => exact ⟨[], rfl, rfl, .done state⟩
  | cons name rest induction =>
      simp only [List.mapM_cons, leads_bind, leads_pure]
      rw [leads_any]
      intro backing? middle ended
      apply (induction middle).imp
      rintro moved final - ⟨attempts, names, same, offloads⟩
      refine ⟨(name, backing?) :: attempts, ?_, ?_, .step ended offloads⟩
      · rw [List.map_cons, names]
      · cases backing? with
        | none => exact same
        | some backing => exact congrArg ((name, backing) :: ·) same

/-! ## What is told of it -/

variable {cached spilled : List String}

/-- Each answer of the two stores is told as it was, and a name whose value both refused keeps it. -/
def Told (ran final : SessionState World) (cached spilled : List String) (name : String) :
    Option Backing → Prop
  | some (.cached key) => name ∈ cached ∧ Moved ran final name (.cached key)
  | some (.spilled number) => name ∈ spilled ∧ Moved ran final name (.spilled number)
  | none => name ∉ cached ++ spilled ∧
    Keyed.find? name final.bindings = Keyed.find? name ran.bindings

/-- All that offloading did to names is told: these names went to the cache, and those to spill files. -/
structure Rebinds (setup : SessionSetup World) (ran : SessionState World) (cached spilled : List String)
    (final : SessionState World) : Prop where
  apart : (cached ++ spilled).Nodup
  movable : ∀ name ∈ cached ++ spilled, ∃ value,
    Keyed.find? name ran.bindings = some (.value value) ∧ Movable setup name value
  /-- These are the names that had a value and have a lazy variable now. -/
  changed_iff : ∀ name, name ∈ cached ++ spilled ↔
    (∃ value, Keyed.find? name ran.bindings = some (.value value)) ∧ ∃ index, final.Refers name index
  toCache : ∀ name ∈ cached, ∃ key, Moved ran final name (.cached key)
  toFiles : ∀ name ∈ spilled, ∃ number, Moved ran final name (.spilled number)
  others : ∀ name, name ∉ cached ++ spilled →
    Keyed.find? name final.bindings = Keyed.find? name ran.bindings
  ordered : final.bindings.Ordered
  kept : ran.lazyVariables <+: final.lazyVariables
  /-- The candidates were tried in their order, each of them after those before it. -/
  tried : ∃ names chosen, Session.candidates setup ran = .ok names chosen ∧
    ∀ name ∈ names, ∃ value earlier before backing?,
      Keyed.find? name ran.bindings = some (.value value) ∧
        Offloads setup chosen earlier before ∧ earlier.map Prod.fst ++ [name] <+: names ∧
          Stores setup name value before backing? ∧ Told ran final cached spilled name backing?

/-- What works on other parts later leaves what is told true. -/
theorem Rebinds.of_naming {ran later : SessionState World}
    (rebinds : Rebinds setup ran cached spilled final) (same : naming later = naming final) :
    Rebinds setup ran cached spilled later := by
  injection same with bindings lazyVariables
  have stays {name : String} {backing : Backing} (moved : Moved ran final name backing) :
      Moved ran later name backing :=
    moved.mono (by rw [bindings]) (lazyVariables ▸ List.prefix_rfl)
  refine ⟨rebinds.apart, rebinds.movable, ?_, ?_, ?_, ?_, bindings ▸ rebinds.ordered, ?_, ?_⟩
  · intro name
    rw [rebinds.changed_iff]
    simp only [Refers, bindings]
  · intro name member
    exact (rebinds.toCache name member).imp fun _ => stays
  · intro name member
    exact (rebinds.toFiles name member).imp fun _ => stays
  · intro name untold
    rw [bindings]
    exact rebinds.others name untold
  · rw [lazyVariables]
    exact rebinds.kept
  · rcases rebinds.tried with ⟨names, chosen, ended, tried⟩
    refine ⟨names, chosen, ended, fun name member => ?_⟩
    rcases tried name member with ⟨value, earlier, before, backing?, had, reached, begins, stores, told⟩
    refine ⟨value, earlier, before, backing?, had, reached, begins, stores, ?_⟩
    cases backing? with
    | none => exact told.imp_right fun same => bindings ▸ same
    | some backing => cases backing <;> exact told.imp_right stays

/-- The names of one kind of backing, as a report tells them. -/
def namesOf (kind : Backing → Bool) (moved : List (String × Backing)) : List String :=
  (moved.filter fun (_, backing) => kind backing).map Prod.fst

def cachedOf (moved : List (String × Backing)) : List String :=
  namesOf (fun backing => !backing.isSpilled) moved

def spilledOf (moved : List (String × Backing)) : List String := namesOf Backing.isSpilled moved

theorem mem_namesOf {kind : Backing → Bool} :
    name ∈ namesOf kind (movedOf attempts) ↔
      ∃ backing, kind backing = true ∧ (name, some backing) ∈ attempts := by
  simp only [namesOf, List.mem_map, List.mem_filter, mem_movedOf, Prod.exists]
  constructor
  · rintro ⟨name, backing, ⟨member, fits⟩, rfl⟩
    exact ⟨backing, fits, member⟩
  · rintro ⟨backing, fits, member⟩
    exact ⟨name, backing, ⟨member, fits⟩, rfl⟩

theorem mem_cachedOf : name ∈ cachedOf (movedOf attempts) ↔
    ∃ key, (name, some (.cached key)) ∈ attempts := by
  rw [cachedOf, mem_namesOf]
  constructor
  · rintro ⟨key | number, kind, member⟩
    · exact ⟨key, member⟩
    · cases kind
  · rintro ⟨key, member⟩
    exact ⟨.cached key, rfl, member⟩

theorem mem_spilledOf : name ∈ spilledOf (movedOf attempts) ↔
    ∃ number, (name, some (.spilled number)) ∈ attempts := by
  rw [spilledOf, mem_namesOf]
  constructor
  · rintro ⟨key | number, kind, member⟩
    · cases kind
    · exact ⟨number, member⟩
  · rintro ⟨number, member⟩
    exact ⟨.spilled number, rfl, member⟩

theorem Offloads.backing_eq {first second : Option Backing} (nodup : (attempts.map Prod.fst).Nodup)
    (member : (name, first) ∈ attempts) (also : (name, second) ∈ attempts) : first = second := by
  have distinct : Keyed.Distinct attempts := nodup
  exact Option.some.inj ((distinct.find?_of_mem member).symm.trans (distinct.find?_of_mem also))

theorem nodup_namesOf (nodup : (attempts.map Prod.fst).Nodup) (kind : Backing → Bool) :
    (namesOf kind (movedOf attempts)).Nodup :=
  ((List.filter_sublist.map Prod.fst).trans sublist_movedOf).nodup nodup

/-- The names that are told are those that were moved. -/
theorem mem_told : name ∈ cachedOf (movedOf attempts) ++ spilledOf (movedOf attempts) ↔
    ∃ backing, (name, some backing) ∈ attempts := by
  rw [List.mem_append, mem_cachedOf, mem_spilledOf]
  constructor
  · rintro (⟨key, member⟩ | ⟨number, member⟩)
    · exact ⟨.cached key, member⟩
    · exact ⟨.spilled number, member⟩
  · rintro ⟨key | number, member⟩
    · exact .inl ⟨key, member⟩
    · exact .inr ⟨number, member⟩

theorem nodup_told (nodup : (attempts.map Prod.fst).Nodup) :
    (cachedOf (movedOf attempts) ++ spilledOf (movedOf attempts)).Nodup := by
  refine List.nodup_append.mpr ⟨nodup_namesOf nodup _, nodup_namesOf nodup _, ?_⟩
  rintro name cached _ spilled rfl
  rcases mem_cachedOf.mp cached with ⟨key, member⟩
  rcases mem_spilledOf.mp spilled with ⟨number, also⟩
  cases Offloads.backing_eq nodup member also

theorem told_of_mem {ran : SessionState World} (nodup : (attempts.map Prod.fst).Nodup)
    (moved : ∀ name backing, (name, some backing) ∈ attempts → Moved ran final name backing)
    (others : ∀ name, (∀ backing, (name, some backing) ∉ attempts) →
      Keyed.find? name final.bindings = Keyed.find? name ran.bindings)
    (member : (name, backing?) ∈ attempts) :
    Told ran final (cachedOf (movedOf attempts)) (spilledOf (movedOf attempts)) name backing? := by
  match backing? with
  | some (.cached key) => exact ⟨mem_cachedOf.mpr ⟨key, member⟩, moved _ _ member⟩
  | some (.spilled number) => exact ⟨mem_spilledOf.mpr ⟨number, member⟩, moved _ _ member⟩
  | none =>
      have unmoved (backing : Backing) : (name, some backing) ∉ attempts := by
        intro also
        cases Offloads.backing_eq nodup member also
      exact ⟨fun told => (mem_told.mp told).elim unmoved, others name unmoved⟩

theorem leads_offloadAll_rebinds (ordered : state.bindings.Ordered) :
    Leads AnyFault (Session.offloadAll setup) state fun moved final =>
      Rebinds setup state (cachedOf moved) (spilledOf moved) final := by
  simp only [Session.offloadAll, leads_bind, leads_pure]
  rw [leads_any]
  intro names chosen ended
  rcases (leads_candidates ordered).of_ok ended with ⟨⟨nodup, able⟩, same⟩
  injection same with bindings lazyVariables
  apply (leads_offloadEach names chosen).imp
  rintro _ final - ⟨attempts, rfl, found, offloads⟩
  rw [found]
  have valued : Valued chosen (attempts.map Prod.fst) := by
    refine ⟨nodup, fun name member => ?_⟩
    rcases able name member with ⟨value, had, -⟩
    exact ⟨value, bindings ▸ had⟩
  have moved (name : String) (backing : Backing) (member : (name, some backing) ∈ attempts) :
      Moved state final name backing := by
    rcases offloads.moved valued member with ⟨⟨value, had⟩, index, new, becomes⟩
    exact ⟨⟨value, bindings ▸ had⟩, index, lazyVariables ▸ new, becomes⟩
  have others (name : String) (unmoved : ∀ backing, (name, some backing) ∉ attempts) :
      Keyed.find? name final.bindings = Keyed.find? name state.bindings := by
    rw [offloads.others valued unmoved, bindings]
  refine ⟨nodup_told nodup, ?_, ?_, ?_, ?_, ?_, offloads.ordered valued (bindings ▸ ordered), ?_, ?_⟩
  · intro name member
    rcases mem_told.mp member with ⟨backing, member⟩
    exact able name (List.mem_map_of_mem member)
  · intro name
    constructor
    · intro member
      rcases mem_told.mp member with ⟨backing, member⟩
      rcases moved name backing member with ⟨was, index, -, refers, -⟩
      exact ⟨was, index, refers⟩
    · rintro ⟨⟨value, had⟩, index, refers⟩
      refine Classical.not_not.mp fun untold => ?_
      have same := others name fun backing member => untold (mem_told.mpr ⟨backing, member⟩)
      rw [had, refers] at same
      cases same
  · intro name member
    exact (mem_cachedOf.mp member).imp fun key => moved name (.cached key)
  · intro name member
    exact (mem_spilledOf.mp member).imp fun number => moved name (.spilled number)
  · intro name untold
    exact others name fun backing member => untold (mem_told.mpr ⟨backing, member⟩)
  · rw [← lazyVariables]
    exact offloads.kept valued
  · refine ⟨_, chosen, ended, fun name among => ?_⟩
    rcases List.mem_map.mp among with ⟨⟨name, backing?⟩, member, rfl⟩
    rcases offloads.stores valued member with ⟨earlier, before, value, reached, begins, had, stores⟩
    refine ⟨value, earlier, before, backing?, bindings ▸ had, reached, ?_, stores, ?_⟩
    · simpa only [List.map_append, List.map_cons, List.map_nil] using begins.map Prod.fst
    · exact told_of_mem nodup moved others member

/-! ## Names in the course of a session -/

theorem keeps_releaseBacking (backing : Backing) :
    Keeps naming (Session.releaseBacking setup backing) := by
  cases backing with
  | spilled number => exact keeps_onMemory (fun _ _ => rfl) _
  | cached key =>
      apply keeps_get.bind
      intro state
      split
      · apply (keeps_onCache (fun _ _ => rfl) _).bind
        intro _
        exact keeps_pure ()
      · exact keeps_pure ()

theorem Keeps.bindings {action : SessionAction World Result} (keeps : Keeps naming action) :
    Keeps SessionState.bindings action :=
  fun state => (keeps state).imp fun _ _ _ same => (Prod.mk.inj same).1

theorem keeps_giveUp (old? : Option Binding) :
    Keeps SessionState.bindings (Session.giveUp setup old?) := by
  intro state
  match old? with
  | none => exact rfl
  | some (.value value) => exact rfl
  | some (.lazy index) =>
      simp only [Session.giveUp, Session.release, leads_bind, leads_lazyVariable?]
      split
      · split
        · simp only [leads_bind, leads_setVariable]
          split
          · exact (keeps_releaseBacking _).bindings _
          · exact rfl
        · exact rfl
      · exact rfl

theorem keeps_loadBacking (backing : Backing) :
    Keeps naming (Session.loadBacking setup backing) := by
  cases backing with
  | spilled number =>
      apply (keeps_onMemory (fun _ _ => rfl) _).bind
      intro loaded
      exact keeps_pure _
  | cached key =>
      apply keeps_get.bind
      intro state
      split
      · exact keeps_onCache (fun _ _ => rfl) _
      · exact keeps_pure none

theorem keeps_force (index : Nat) : Keeps SessionState.bindings (Session.force setup index) := by
  intro state
  simp only [Session.force, leads_bind, leads_lazyVariable?]
  split
  · exact rfl
  · split
    · exact rfl
    · rw [leads_bind]
      apply ((keeps_loadBacking _).bindings state).imp
      intro value? middle _ same
      cases value? <;> exact same

theorem keeps_read (name : String) : Keeps SessionState.bindings (Session.read setup name) := by
  intro state
  simp only [Session.read, leads_bind, leads_binding?]
  split
  · rename_i binding _
    cases binding with
    | value value => exact rfl
    | lazy index => exact keeps_force index state
  · exact rfl

theorem leads_runProgram_ordered (program : Program Note) (ordered : state.bindings.Ordered) :
    Leads AnyFault (Session.runProgram setup program) state fun _ final =>
      final.bindings.Ordered := by
  induction program generalizing state with
  | finish note failure? => exact ordered
  | insert name value next induction =>
      simp only [Session.runProgram, leads_bind, leads_bindName]
      apply (keeps_giveUp _ _).imp
      intro _ middle _ same
      exact induction _ (same ▸ ordered.bind name (.value value))
  | remove name next induction =>
      simp only [Session.runProgram, leads_bind, leads_unbind]
      apply (keeps_giveUp _ _).imp
      intro _ middle _ same
      exact induction _ (same ▸ ordered.remove name)
  | read name next induction =>
      simp only [Session.runProgram, leads_bind]
      apply (keeps_read _ _).imp
      intro value? middle _ same
      exact induction value? (same ▸ ordered)

end SessionState

/-! ## Executions -/

namespace Session

open SessionState

variable {setup : SessionSetup World} {executor : Executor Note} {code : String}
  {state final : SessionState World} {note : Note} {report : ExecutionReport}

/-- What an execution that went well did: its code ran on the names that were there, and offloading rebound
those that the report tells. -/
def Reports (setup : SessionSetup World) (executor : Executor Note) (code : String)
    (state : SessionState World) (note : Note) (report : ExecutionReport)
    (final : SessionState World) : Prop :=
  ∃ prepared ran, naming prepared = naming state ∧
    runProgram setup (executor code report.mode) prepared = .ok (note, none) ran ∧
      Rebinds setup ran report.cached report.spilled final

theorem leads_execute_reports (ordered : state.bindings.Ordered) :
    Leads AnyFault (execute setup executor code) state fun answer final =>
      final.bindings.Ordered ∧ ∀ report, answer.2 = .ok report →
        Reports setup executor code state answer.1 report final := by
  let ran (mode : ExecutionMode) (answer : Note × Option String) (ran : SessionState World) : Prop :=
    ∃ prepared, naming prepared = naming state ∧
      runProgram setup (executor code mode) prepared = .ok answer ran ∧ ran.bindings.Ordered
  have runs (mode : ExecutionMode) (prepared : SessionState World) (same : naming prepared = naming state) :
      Leads AnyFault (runProgram setup (executor code mode)) prepared (ran mode) := by
    rw [leads_any]
    intro answer final ended
    have before : prepared.bindings.Ordered := (Prod.mk.inj same).1 ▸ ordered
    exact ⟨prepared, same, ended, (leads_runProgram_ordered _ before).of_ok ended⟩
  refine leads_execute_parts (keeps_onMemory (fun _ _ => rfl) _ state) ?_ runs ?_ ?_
  · intro checked same
    exact (keeps_reclaimIfNeeded true checked).imp fun _ _ _ kept => kept.trans same
  · rintro mode note message final ⟨prepared, same, ended, there⟩
    exact ⟨there, fun _ impossible => by cases impossible⟩
  · rintro mode note ran ⟨prepared, same, ended, there⟩ pressure forced
    apply (leads_offloadAll_rebinds there).imp
    intro moved offloaded _ rebinds
    apply (keeps_reclaimIfNeeded false offloaded).imp
    intro reclaimed final _ kept
    have told := rebinds.of_naming kept
    refine ⟨told.ordered, ?_⟩
    rintro _ ⟨⟩
    rw [List.partition_eq_filter_filter]
    exact ⟨prepared, ran, same, ended, told⟩

/-- Names stay in their order in every run. -/
theorem leads_runAll_ordered {calls : List (SessionCall Note)} {history : List NameEvent}
    (ordered : state.bindings.Ordered) :
    Leads AnyFault (runAll setup history calls) state fun _ final => final.bindings.Ordered := by
  refine leads_runAll_kept (fun executor code member history state ordered => ?_)
    (fun program member history state ordered => leads_runProgram_ordered _ ordered) ordered
  exact (leads_execute_reports ordered).imp fun _ _ _ => And.left

/-- For every namespace and whatever cache, memory and files do: an execution that went well rebound the names
that its report tells, and no others. -/
theorem execute_reports (setup : SessionSetup World) (executor : Executor Note) (code : String)
    (ordered : state.bindings.Ordered)
    (ended : execute setup executor code state = .ok (note, .ok report) final) :
    Reports setup executor code state note report final :=
  ((leads_execute_reports ordered).of_ok ended).2 report rfl

/-- One value goes to the cache, one that is too large for it to a file; the medium refuses the next one, which
stays under its name, as does the value of a name that is spared. -/
theorem execute_reports_each_way :
    let setup := { SessionSetup.eager none with skippedBeginnings := ["_"] }
    let executor : Executor Unit := fun _ _ =>
      .insert "a" (.flag true) fun _ => .insert "b" (.text "beyond") fun _ =>
        .insert "c" (.text "beyond") fun _ => .insert "_" (.flag true) fun _ => .finish () none
    let files : FileSystem :=
      { FileSystem.start [] with refuses := fun call => if call = 2 then some .other else none }
    let state := start setup (.start setup.cache (.const [], files))
    ∃ report final, execute setup executor "" state = .ok ((), .ok report) final ∧
      report.cached = ["a"] ∧ report.spilled = ["b"] ∧
        final.bindings.map (fun (name, binding) => (name, binding.isLazy)) =
          [("_", false), ("a", true), ("b", true), ("c", false)] ∧
            Reports setup executor "" state () report final := by
  intro setup executor files state
  have leads : Leads (fun _ => False) (execute setup executor "") state fun answer final =>
      answer.2.toOption.map (fun report => (report.cached, report.spilled)) = some (["a"], ["b"]) ∧
        final.bindings.map (fun (name, binding) => (name, binding.isLazy)) =
          [("_", false), ("a", true), ("b", true), ("c", false)] := by
    decide +kernel
  rcases leads.ends (fun _ => id) with ⟨⟨⟨⟩, result⟩, final, ended, told, names⟩
  cases result with
  | error message => cases told
  | ok report =>
      injection Option.some.inj told with cached spilled
      have ordered : state.bindings.Ordered := List.Pairwise.nil
      have reports := execute_reports setup executor "" ordered ended
      exact ⟨report, final, ended, cached, spilled, names, reports⟩

end Session

end TierVault
