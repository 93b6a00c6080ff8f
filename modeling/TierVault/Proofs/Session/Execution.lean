import TierVault.Proofs.Session.Storage

/-!
What the names of a session stand for, and that no step takes a value from its name but where the cache dropped it.

A name that was left with a value goes on to stand for it: the value is kept, or the name's lazy variable has
loaded it, or it lies behind the variable's backing. No two names share a variable, and no two variables share
a backing, so letting one go leaves the others as they are.
-/

namespace TierVault

/-! # Names -/

section

open TierVault.Action CacheState

variable {World : Type}

/-! ## The namespace -/

namespace Namespace

variable {name asked : String} {binding : Binding} {bindings : Namespace}

theorem find?_bind_same : Keyed.find? name (bind name binding bindings) = some binding := by
  induction bindings with
  | nil => simp [bind, Keyed.find?]
  | cons head rest induction =>
      rcases head with ⟨other, held⟩
      simp only [bind]
      split
      · simp [Keyed.find?]
      · split
        · simp [Keyed.find?]
        · rename_i different
          simp only [Keyed.find?, if_neg (Ne.symm different), induction]

theorem find?_bind_other (different : asked ≠ name) :
    Keyed.find? asked (bind name binding bindings) = Keyed.find? asked bindings := by
  induction bindings with
  | nil => simp [bind, Keyed.find?, different.symm]
  | cons head rest induction =>
      rcases head with ⟨other, held⟩
      simp only [bind]
      split
      · simp [Keyed.find?, different.symm]
      · split
        · rename_i same
          subst same
          simp [Keyed.find?, different.symm]
        · simp only [Keyed.find?, induction]

end Namespace

namespace SessionState

variable {setup : SessionSetup World} {storable : Value → Prop} {sound : World → Prop}
  {shelves : World → Tier → Shelf} {left newest later : String → Option Value}
  {state final : SessionState World} {freed : Backing → Prop} {value : Value} {name : String}
  {index : Nat} {held changed : LazyVariable} {backing : Backing}

/-! ## Names and variables -/

def withBindings (state : SessionState World) (bindings : Namespace) : SessionState World :=
  { state with bindings }

def withVariables (state : SessionState World) (lazyVariables : List LazyVariable) :
    SessionState World :=
  { state with lazyVariables }

def backings (state : SessionState World) : List Backing :=
  state.lazyVariables.map LazyVariable.backing

/-- The name is bound to that variable. -/
def Refers (state : SessionState World) (name : String) (index : Nat) : Prop :=
  Keyed.find? name state.bindings = some (.lazy index)

/-- The binding is that value, or a variable that has loaded it or can. -/
def Stands (setup : SessionSetup World) (newest : String → Option Value)
    (state : SessionState World) (value : Value) : Binding → Prop
  | .value held => held = value
  | .lazy index => ∃ held, state.lazyVariables[index]? = some held ∧
      (held.loaded? = some value ∨
        held.loaded? = none ∧ Backs setup newest state value held.backing)

structure Bound (setup : SessionSetup World) (storable : Value → Prop)
    (left newest : String → Option Value) (state : SessionState World) : Prop where
  issued : ∀ backing ∈ state.backings, Issued setup state backing
  apart : state.backings.Nodup
  known : ∀ name index, state.Refers name index → index < state.lazyVariables.length
  unshared : ∀ name other index, state.Refers name index → state.Refers other index → name = other
  able : ∀ name value, Keyed.find? name state.bindings = some (.value value) → storable value
  stands : ∀ name value, left name = some value → ∃ binding,
    Keyed.find? name state.bindings = some binding ∧ Stands setup newest state value binding

theorem mem_backings (found : state.lazyVariables[index]? = some held) :
    held.backing ∈ state.backings :=
  List.mem_map_of_mem (List.mem_of_getElem? found)

/-- No two variables share a backing. -/
theorem index_eq_of_apart (apart : state.backings.Nodup) {other : Nat} {another : LazyVariable}
    (found : state.lazyVariables[index]? = some held)
    (there : state.lazyVariables[other]? = some another) (same : held.backing = another.backing) :
    index = other := by
  have inside : index < state.backings.length := by
    rw [backings, List.length_map]
    exact (List.getElem?_eq_some_iff.mp found).1
  apply (List.getElem?_inj inside apart).mp
  simp only [backings, List.getElem?_map, found, there, Option.map_some, same]

/-- A variable changes, but not what is looked at. -/
theorem map_set_of_same {Kind : Type} {kind : LazyVariable → Kind}
    (found : state.lazyVariables[index]? = some held) (same : kind changed = kind held) :
    (state.lazyVariables.set index changed).map kind = state.lazyVariables.map kind := by
  apply List.ext_getElem?
  intro place
  simp only [List.getElem?_map, List.getElem?_set]
  split
  · rename_i here
    subst here
    have inside := (List.getElem?_eq_some_iff.mp found).1
    rw [if_pos inside, found, Option.map_some, Option.map_some, same]
  · rfl

theorem Passes.refers (passes : Passes setup freed newest later state final) :
    final.Refers name index ↔ state.Refers name index := by
  rw [Refers, Refers, passes.bindings]

/-- What passes leaves the names as they are. -/
theorem Bound.passes (bound : Bound setup storable left newest state)
    (passes : Passes setup freed newest later state final)
    (spared : ∀ name index held, state.Refers name index →
      state.lazyVariables[index]? = some held → ¬freed held.backing) :
    Bound setup storable left later final := by
  have same : final.backings = state.backings := by rw [backings, passes.lazyVariables, backings]
  refine ⟨?_, same ▸ bound.apart, ?_, ?_, ?_, ?_⟩
  · intro backing member
    exact passes.issued backing (bound.issued backing (same ▸ member))
  · rw [passes.lazyVariables]
    intro name index refers
    exact bound.known name index (passes.refers.mp refers)
  · intro name other index refers others
    exact bound.unshared name other index (passes.refers.mp refers) (passes.refers.mp others)
  · rw [passes.bindings]
    exact bound.able
  · intro name value new
    rcases bound.stands name value new with ⟨binding, found, stands⟩
    refine ⟨binding, passes.bindings ▸ found, ?_⟩
    cases binding with
    | value held => exact stands
    | lazy index =>
        rcases stands with ⟨held, there, loaded | ⟨unloaded, backs⟩⟩
        · exact ⟨held, passes.lazyVariables ▸ there, .inl loaded⟩
        · refine ⟨held, passes.lazyVariables ▸ there, .inr ⟨unloaded, ?_⟩⟩
          exact passes.backs held.backing value (bound.issued _ (mem_backings there))
            (spared name index held found there) backs

/-- One name is bound anew, or unbound; the others keep their bindings. -/
theorem Bound.rebind {bindings : Namespace} {value? : Option Value}
    (bound : Bound setup storable left newest state)
    (own : Keyed.find? name bindings = value?.map Binding.value)
    (others : ∀ asked, asked ≠ name →
      Keyed.find? asked bindings = Keyed.find? asked state.bindings)
    (able : ∀ value, value? = some value → storable value) :
    Bound setup storable (fun asked => if name = asked then value? else left asked) newest
      (state.withBindings bindings) := by
  have before {asked : String} {index : Nat} (refers : (state.withBindings bindings).Refers asked index) :
      state.Refers asked index := by
    by_cases same : asked = name
    · subst same
      have impossible := own.symm.trans refers
      cases value? <;> cases impossible
    · exact (others asked same).symm.trans refers
  refine ⟨bound.issued, bound.apart, ?_, ?_, ?_, ?_⟩
  · intro asked index refers
    exact bound.known asked index (before refers)
  · intro asked other index refers also
    exact bound.unshared asked other index (before refers) (before also)
  · intro asked value found
    by_cases same : asked = name
    · subst same
      have new := own.symm.trans found
      cases value? with
      | none => cases new
      | some _ =>
          cases new
          exact able value rfl
    · exact bound.able asked value ((others asked same).symm.trans found)
  · intro asked value new
    by_cases same : name = asked
    · subst same
      rw [if_pos rfl] at new
      rw [new] at own
      exact ⟨.value value, own, rfl⟩
    · rw [if_neg same] at new
      rcases bound.stands asked value new with ⟨binding, found, stands⟩
      exact ⟨binding, (others asked (Ne.symm same)).trans found, stands⟩

/-- A variable changes, but not its backing; what it has loaded is what its name stands for. -/
theorem Bound.setVariable (bound : Bound setup storable left newest state)
    (found : state.lazyVariables[index]? = some held) (backing : changed.backing = held.backing)
    (loads : ∀ name value, state.Refers name index → left name = some value →
      changed.loaded? = some value) :
    Bound setup storable left newest
      (state.withVariables (state.lazyVariables.set index changed)) := by
  have same : (state.withVariables (state.lazyVariables.set index changed)).backings =
      state.backings := map_set_of_same found backing
  refine ⟨?_, same ▸ bound.apart, ?_, bound.unshared, bound.able, ?_⟩
  · rw [same]
    exact bound.issued
  · intro asked other refers
    rw [withVariables, List.length_set]
    exact bound.known asked other refers
  · intro asked value new
    rcases bound.stands asked value new with ⟨binding, there, stands⟩
    refine ⟨binding, there, ?_⟩
    cases binding with
    | value kept => exact stands
    | lazy other =>
        by_cases here : index = other
        · subst here
          have inside := (List.getElem?_eq_some_iff.mp found).1
          exact ⟨changed, List.getElem?_set_self inside, .inl (loads asked value there new)⟩
        · rcases stands with ⟨kept, known, stands⟩
          exact ⟨kept, (List.getElem?_set_ne here).trans known, stands⟩

/-- The value of a name has moved behind a new variable. -/
theorem Bound.offload (bound : Bound setup storable left newest state)
    (found : Keyed.find? name state.bindings = some (.value value))
    (issued : Issued setup state backing) (new : backing ∉ state.backings)
    (backs : Backs setup newest state value backing) (title : String) :
    Bound setup storable left newest
      ((state.withVariables (state.lazyVariables ++ [⟨title, backing, none, 1⟩])).withBindings
        (Namespace.bind name (.lazy state.lazyVariables.length) state.bindings)) := by
  have own : Keyed.find? name
      (Namespace.bind name (.lazy state.lazyVariables.length) state.bindings) =
        some (.lazy state.lazyVariables.length) := Namespace.find?_bind_same
  have before {asked : String} {index : Nat} (different : asked ≠ name)
      (refers : Keyed.find? asked
        (Namespace.bind name (.lazy state.lazyVariables.length) state.bindings) =
          some (.lazy index)) : index < state.lazyVariables.length :=
    bound.known asked index ((Namespace.find?_bind_other different).symm.trans refers)
  have more : ((state.withVariables (state.lazyVariables ++ [⟨title, backing, none, 1⟩])).backings) =
      state.backings ++ [backing] := by
    simp [backings, withVariables]
  refine ⟨?_, ?_, ?_, ?_, ?_, ?_⟩
  · intro other member
    rcases List.mem_append.mp (more ▸ member) with old | last
    · exact bound.issued other old
    · rw [List.mem_singleton.mp last]
      exact issued
  · apply more.symm ▸ List.nodup_append.mpr
    refine ⟨bound.apart, List.pairwise_singleton _ _, ?_⟩
    intro old member last isLast same
    rw [List.mem_singleton.mp isLast] at same
    exact new (same ▸ member)
  · intro asked index refers
    rw [withBindings, withVariables, List.length_append]
    by_cases same : asked = name
    · subst same
      cases own.symm.trans refers
      exact Nat.lt_succ_self _
    · exact Nat.lt_succ_of_lt (before same refers)
  · intro asked other index refers also
    by_cases same : asked = name
    · subst same
      cases own.symm.trans refers
      refine Decidable.byContradiction fun different => ?_
      exact Nat.lt_irrefl _ (before (Ne.symm different) also)
    · by_cases equal : other = name
      · subst equal
        cases own.symm.trans also
        exact absurd (before same refers) (Nat.lt_irrefl _)
      · exact bound.unshared asked other index
          ((Namespace.find?_bind_other same).symm.trans refers)
          ((Namespace.find?_bind_other equal).symm.trans also)
  · intro asked kept there
    by_cases same : asked = name
    · subst same
      cases own.symm.trans there
    · exact bound.able asked kept ((Namespace.find?_bind_other same).symm.trans there)
  · intro asked kept new
    rcases bound.stands asked kept new with ⟨binding, there, stands⟩
    by_cases same : asked = name
    · subst same
      cases found.symm.trans there
      cases stands
      refine ⟨_, own, ⟨title, backing, none, 1⟩, ?_, .inr ⟨rfl, backs⟩⟩
      exact List.getElem?_concat_length
    · refine ⟨binding, (Namespace.find?_bind_other same).trans there, ?_⟩
      cases binding with
      | value _ => exact stands
      | lazy index =>
          rcases stands with ⟨held, known, stands⟩
          refine ⟨held, ?_, stands⟩
          exact (List.getElem?_append_left (bound.known asked index there)).trans known

end SessionState

end

/-! # Steps -/

section

open TierVault.Action CacheState

variable {World : Type}

namespace SessionState

variable {setup : SessionSetup World} {storable : Value → Prop} {sound : World → Prop}
  {shelves : World → Tier → Shelf} {left newest : String → Option Value}
  {state : SessionState World} {faults : Fault → Prop} {value : Value} {name : String} {index : Nat}

/-- Every value that is left stands under its name. -/
def Intact (setup : SessionSetup World) (storable : Value → Prop) (sound : World → Prop)
    (shelves : World → Tier → Shelf) (left : String → Option Value)
    (state : SessionState World) : Prop :=
  ∃ newest, Stored setup storable sound shelves newest state ∧
    Bound setup storable left newest state

/-- The variable was not loaded, and the cache has no entry of its key that could be read now. -/
def Missing (setup : SessionSetup World) (state : SessionState World) (index : Nat) : Prop :=
  ∃ held, state.lazyVariables[index]? = some held ∧ held.loaded? = none ∧
    Gone setup state held.backing

/-- The name refers to a variable whose value is missing. -/
def Lost (setup : SessionSetup World) (state : SessionState World) (name : String) : Prop :=
  ∃ index, state.Refers name index ∧ Missing setup state index

/-- A value is lost only where entries expire by default, or after an eviction. -/
theorem Intact.of_lost (intact : Intact setup storable sound shelves left state)
    (new : left name = some value) (lost : Lost setup state name) :
    setup.cache.defaultLifetime? ≠ none ∨ 0 < state.cache.counters.evictions := by
  rcases intact with ⟨newest, -, bound⟩
  rcases lost with ⟨index, refers, held, found, unloaded, gone⟩
  rcases bound.stands name value new with ⟨binding, there, stands⟩
  cases refers.symm.trans there
  rcases stands with ⟨same, known, stands⟩
  cases found.symm.trans known
  rcases stands with loaded | ⟨-, backs⟩
  · cases unloaded.symm.trans loaded
  · cases backing : held.backing with
    | spilled number =>
        rw [backing] at gone
        exact gone.elim
    | cached key =>
        rw [backing] at gone backs
        by_cases unlimited : setup.cache.defaultLifetime? = none
        · refine .inr (Nat.pos_of_ne_zero fun none => ?_)
          rcases (backs.2 unlimited none).lives (setup.cache.clock state.cache.readings) with
            ⟨entry, present, live⟩
          cases live.symm.trans (gone entry present)
        · exact .inl unlimited

/-! ## Steps on names and variables -/

@[simp] theorem leads_binding? (after : Option Binding → SessionState World → Prop) :
    Leads faults (Session.binding? name) state after ↔
      after (Keyed.find? name state.bindings) state := Iff.rfl

@[simp] theorem leads_bindName (binding : Binding)
    (after : Option Binding → SessionState World → Prop) :
    Leads faults (Session.bind name binding) state after ↔
      after (Keyed.find? name state.bindings)
        (state.withBindings (Namespace.bind name binding state.bindings)) := Iff.rfl

@[simp] theorem leads_unbind (after : Option Binding → SessionState World → Prop) :
    Leads faults (Session.unbind name) state after ↔
      after (Keyed.find? name state.bindings)
        (state.withBindings (Keyed.remove name state.bindings)) := Iff.rfl

@[simp] theorem leads_lazyVariable? (after : Option LazyVariable → SessionState World → Prop) :
    Leads faults (Session.lazyVariable? index) state after ↔
      after state.lazyVariables[index]? state := Iff.rfl

@[simp] theorem leads_setVariable (held : LazyVariable)
    (after : Unit → SessionState World → Prop) :
    Leads faults (Session.setVariable index held) state after ↔
      after () (state.withVariables (state.lazyVariables.set index held)) := Iff.rfl

@[simp] theorem leads_addVariable (backing : Backing)
    (after : Nat → SessionState World → Prop) :
    Leads faults (Session.addVariable name backing) state after ↔
      after state.lazyVariables.length
        (state.withVariables (state.lazyVariables ++ [⟨name, backing, none, 1⟩])) := Iff.rfl

theorem Stored.withVariables (stored : Stored setup storable sound shelves newest state)
    (lazyVariables : List LazyVariable) :
    Stored setup storable sound shelves newest (state.withVariables lazyVariables) :=
  ⟨stored.isOpen, stored.reclaimers, stored.agrees, stored.tidy⟩

theorem Stored.withBindings (stored : Stored setup storable sound shelves newest state)
    (bindings : Namespace) :
    Stored setup storable sound shelves newest (state.withBindings bindings) :=
  ⟨stored.isOpen, stored.reclaimers, stored.agrees, stored.tidy⟩

theorem Intact.harmless {Result : Type} {action : SessionAction World Result}
    (intact : Intact setup storable sound shelves left state)
    (harmless : Harmless setup storable sound shelves action) :
    Leads AnyFault action state fun _ final => Intact setup storable sound shelves left final := by
  rcases intact with ⟨newest, stored, bound⟩
  apply (harmless newest state stored).imp
  rintro _ final - ⟨stored, passes⟩
  exact ⟨newest, stored, bound.passes passes fun _ _ _ _ _ => id⟩

section Healthy

variable (healthy : setup.Healthy storable sound shelves)

include healthy

/-- A binding that no name has any more is let go without harm to the others. -/
theorem leads_giveUp {old? : Option Binding}
    (intact : Intact setup storable sound shelves left state)
    (free : ∀ index name, old? = some (.lazy index) → ¬state.Refers name index) :
    Leads AnyFault (Session.giveUp setup old?) state fun _ final =>
      Intact setup storable sound shelves left final := by
  match old? with
  | none => exact intact
  | some (.value value) => exact intact
  | some (.lazy index) =>
      rcases intact with ⟨newest, stored, bound⟩
      simp only [Session.giveUp, Session.release, leads_bind, leads_lazyVariable?]
      cases found : state.lazyVariables[index]? with
      | none => exact ⟨newest, stored, bound⟩
      | some held =>
          let changed : LazyVariable := { held with owners := held.owners - 1 }
          have fewer : Bound setup storable left newest
              (state.withVariables (state.lazyVariables.set index changed)) := by
            refine bound.setVariable found rfl ?_
            intro name value refers
            exact absurd refers (free index name rfl)
          have there : (state.lazyVariables.set index changed)[index]? = some changed :=
            List.getElem?_set_self (List.getElem?_eq_some_iff.mp found).1
          simp only []
          split
          · simp only [leads_bind, leads_setVariable]
            split
            · apply (leads_releaseBacking healthy (stored.withVariables _) held.backing).imp
              rintro _ final - ⟨later, stored, passes⟩
              refine ⟨later, stored, fewer.passes passes ?_⟩
              intro name other another refers known same
              cases index_eq_of_apart fewer.apart known there same
              exact free _ name rfl refers
            · exact ⟨newest, stored.withVariables _, fewer⟩
          · exact ⟨newest, stored, bound⟩

/-- A name is bound anew, or unbound, and its old binding let go. -/
theorem leads_rebind (intact : Intact setup storable sound shelves left state)
    (bindings : Namespace) (value? : Option Value)
    (own : Keyed.find? name bindings = value?.map Binding.value)
    (others : ∀ asked, asked ≠ name →
      Keyed.find? asked bindings = Keyed.find? asked state.bindings)
    (able : ∀ value, value? = some value → storable value) :
    Leads AnyFault (Session.giveUp setup (Keyed.find? name state.bindings))
      (state.withBindings bindings) fun _ final =>
        Intact setup storable sound shelves
          (fun asked => if name = asked then value? else left asked) final := by
  rcases intact with ⟨newest, stored, bound⟩
  apply leads_giveUp healthy ⟨newest, stored.withBindings _, bound.rebind own others able⟩
  intro index asked old refers
  by_cases same : asked = name
  · subst same
    have impossible := own.symm.trans refers
    cases value? <;> cases impossible
  · have before : state.Refers asked index := (others asked same).symm.trans refers
    exact same (bound.unshared asked name index before old)

/-- A variable tells the value that its names stand for, unless it is missing. -/
theorem leads_force (stored : Stored setup storable sound shelves newest state)
    (bound : Bound setup storable left newest state)
    (fits : ¬faults .sumOverflow → state.cache.total < Word.limit) (index : Nat) :
    Leads faults (Session.force setup index) state fun answer final =>
      Intact setup storable sound shelves left final ∧
        ∀ value, Stands setup newest state value (.lazy index) →
          (Missing setup state index → answer = none) ∧
            (¬Missing setup state index → answer = some value) := by
  simp only [Session.force, leads_bind, leads_lazyVariable?]
  cases found : state.lazyVariables[index]? with
  | none =>
      refine ⟨⟨newest, stored, bound⟩, ?_⟩
      rintro value ⟨held, there, -⟩
      cases found.symm.trans there
  | some held =>
      simp only []
      cases loaded : held.loaded? with
      | some known =>
          refine ⟨⟨newest, stored, bound⟩, ?_⟩
          rintro value ⟨same, there, stands⟩
          cases found.symm.trans there
          refine ⟨?_, fun _ => ?_⟩
          · rintro ⟨other, here, unloaded, -⟩
            cases found.symm.trans here
            cases loaded.symm.trans unloaded
          · rcases stands with read | ⟨unloaded, -⟩
            · exact loaded.symm.trans read
            · cases loaded.symm.trans unloaded
      | none =>
          have told {answer : Option Value}
              (loads : ∀ value, Backs setup newest state value held.backing →
                (Gone setup state held.backing → answer = none) ∧
                  (¬Gone setup state held.backing → answer = some value)) (value : Value)
              (stands : Stands setup newest state value (.lazy index)) :
              (Missing setup state index → answer = none) ∧
                (¬Missing setup state index → answer = some value) := by
            rcases stands with ⟨same, there, stands⟩
            cases found.symm.trans there
            rcases stands with read | ⟨-, backs⟩
            · cases loaded.symm.trans read
            · have missing : Missing setup state index ↔ Gone setup state held.backing := by
                constructor
                · rintro ⟨other, here, -, gone⟩
                  cases found.symm.trans here
                  exact gone
                · exact fun gone => ⟨held, found, loaded, gone⟩
              rw [missing]
              exact loads value backs
          simp only [leads_bind]
          apply (leads_loadBacking healthy stored fits held.backing).imp
          rintro answer middle - ⟨⟨stored, passes⟩, loads⟩
          have kept := bound.passes passes fun _ _ _ _ _ => id
          cases answer with
          | none => exact ⟨⟨newest, stored, kept⟩, told loads⟩
          | some read =>
              refine ⟨⟨newest, stored.withVariables _, ?_⟩, told loads⟩
              have there : middle.lazyVariables[index]? = some held :=
                passes.lazyVariables ▸ found
              refine kept.setVariable there rfl ?_
              intro name value refers new
              rcases bound.stands name value new with ⟨binding, named, stands⟩
              cases (passes.refers.mp refers).symm.trans named
              have answers := told loads value stands
              by_cases missing : Missing setup state index
              · cases answers.1 missing
              · exact answers.2 missing

/-- A read tells what is left under the name, unless it is lost. -/
theorem leads_read (intact : Intact setup storable sound shelves left state)
    (fits : ¬faults .sumOverflow → state.cache.total < Word.limit) (name : String) :
    Leads faults (Session.read setup name) state fun answer final =>
      Intact setup storable sound shelves left final ∧ ∀ value, left name = some value →
        (Lost setup state name → answer = none) ∧
          (¬Lost setup state name → answer = some value) := by
  rcases intact with ⟨newest, stored, bound⟩
  simp only [Session.read, leads_bind, leads_binding?]
  cases named : Keyed.find? name state.bindings with
  | none =>
      refine ⟨⟨newest, stored, bound⟩, fun value new => ?_⟩
      rcases bound.stands name value new with ⟨binding, there, -⟩
      cases named.symm.trans there
  | some binding =>
      cases binding with
      | value kept =>
          refine ⟨⟨newest, stored, bound⟩, fun value new => ⟨?_, ?_⟩⟩
          · rintro ⟨index, refers, -⟩
            cases named.symm.trans refers
          · intro _
            rcases bound.stands name value new with ⟨binding, there, stands⟩
            cases named.symm.trans there
            rw [Stands] at stands
            rw [stands]
      | lazy index =>
          apply (leads_force healthy stored bound fits index).imp
          rintro answer final - ⟨intact, told⟩
          refine ⟨intact, fun value new => ?_⟩
          rcases bound.stands name value new with ⟨binding, there, stands⟩
          cases named.symm.trans there
          have lost : Lost setup state name ↔ Missing setup state index := by
            constructor
            · rintro ⟨other, refers, missing⟩
              cases named.symm.trans refers
              exact missing
            · exact fun missing => ⟨index, named, missing⟩
          rw [lost]
          exact told value stands

/-! ## Offloading -/

theorem leads_offload (intact : Intact setup storable sound shelves left state) (name : String) :
    Leads AnyFault (Session.offload setup name) state fun _ final =>
      Intact setup storable sound shelves left final := by
  rcases intact with ⟨newest, stored, bound⟩
  simp only [Session.offload, leads_bind, leads_binding?]
  cases named : Keyed.find? name state.bindings with
  | none => exact ⟨newest, stored, bound⟩
  | some binding =>
      cases binding with
      | lazy index => exact ⟨newest, stored, bound⟩
      | value value =>
          have able := bound.able name value named
          simp only [leads_bind]
          apply (leads_store healthy stored name able).imp
          rintro backing? middle - ⟨later, stored, passes, placed⟩
          have kept := bound.passes passes fun _ _ _ _ _ => id
          cases backing? with
          | none => exact ⟨later, stored, kept⟩
          | some backing =>
              rcases placed backing rfl with ⟨issued, new, backs⟩
              have there : Keyed.find? name middle.bindings = some (.value value) :=
                passes.bindings ▸ named
              have fresh : backing ∉ middle.backings := by
                rw [backings, passes.lazyVariables]
                exact fun member => new (bound.issued backing member)
              refine ⟨later, (stored.withVariables _).withBindings _, ?_⟩
              exact kept.offload there issued fresh backs name

theorem leads_offloadAll (intact : Intact setup storable sound shelves left state) :
    Leads AnyFault (Session.offloadAll setup) state fun _ final =>
      Intact setup storable sound shelves left final := by
  simp only [Session.offloadAll, leads_bind, leads_pure]
  apply (intact.harmless (harmless_candidates healthy)).imp
  rintro names chosen - intact
  refine leads_mapM ?_ intact
  intro name _ middle intact
  rw [leads_bind]
  exact leads_offload healthy intact name

end Healthy

end SessionState

end

end TierVault
