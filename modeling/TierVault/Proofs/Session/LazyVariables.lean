import Mathlib.Logic.Relation
import TierVault.Proofs.Cache.Guarding
import TierVault.Proofs.Memory.Sealing
import TierVault.Proofs.Session.Runs
import TierVault.Session.State

/-!
Lazy variables answer as their values do.

Behind a variable lies one value, or nothing any more: nobody else puts under its key, and nobody else writes its
file. So the first load that finds anything finds that value, which the variable keeps from then on. Whatever
becomes of the cache and the files in the meantime, owners do not notice it after that. What lies behind the
variable is taken away by the last owner, and by no other.
-/

namespace TierVault

open TierVault.Action CacheState

variable {World : Type}

/-- Neither the stores nor the files make anything up, and neither part writes what the other holds. -/
structure SessionSetup.Truthful (setup : SessionSetup World) (held : Holding World) : Prop where
  cache : setup.cache.Truthful held
  /-- No store writes a spill file. -/
  apart : ∀ title number bytes, setup.cache.Guards (fun _ _ => True) fun world =>
    (setup.files world).Sealed (setup.memory.spillFile title number) bytes
  files_setFiles : ∀ world files, setup.files (setup.setFiles world files) = files
  /-- No spill file is a payload of the cache. -/
  undisturbed : ∀ world files, setup.memory.Touches (setup.files world) files →
    held.Loses world (setup.setFiles world files)
  closes : ∀ world, held.Loses world (setup.closeStores world) ∧ ∀ title number bytes,
    (setup.files world).Sealed (setup.memory.spillFile title number) bytes →
      (setup.files (setup.closeStores world)).Sealed (setup.memory.spillFile title number) bytes
  spills : Identifies setup.memory.identifier

/-- The variable at that place has loaded its value. -/
def SessionState.Loaded (state : SessionState World) (index : Nat) : Prop :=
  ∃ own, state.lazyVariables[index]? = some own ∧ own.isLoaded = true

/-- The variable at that place has so many owners. -/
def SessionState.Owned (state : SessionState World) (index owners : Nat) : Prop :=
  ∃ own, state.lazyVariables[index]? = some own ∧ own.owners = owners

/-! # What happens around a variable -/

/-- A value was moved behind a backing that nothing lay behind before. -/
inductive Entrusts (setup : SessionSetup World) (held : Holding World) (value : Value)
    (state : SessionState World) : Backing → SessionState World → Prop
  | cached {key : String} {lifetime? : Option Nat} {cache : CacheState World}
      (unused : ∀ tier found, ¬held state.cache.world tier key found)
      (put : TieredCache.put setup.cache key value lifetime? state.cache = .ok true cache) :
      Entrusts setup held value state (.cached key) (state.withCache cache)
  | spilled {title : String} {number : Nat} {memory : ManagedMemory}
      (unused : (setup.files state.cache.world).Unused (setup.memory.spillFile title state.memory.nextSpill))
      (spill : MemoryManager.spill setup.memory title value (state.managed setup) = .ok (some number) memory) :
      Entrusts setup held value state (.spilled number) (state.withMemory setup memory)

/-- What may happen while a variable is there: to the variable itself, to the cache, to spills and to what they
hold. Nobody else puts under its key or counts as an owner of its spill. -/
inductive Happens (setup : SessionSetup World) (held : Holding World) (index : Nat) (backing : Backing)
    (state : SessionState World) : SessionState World → Prop
  | asked {owners : Nat} {question : Question} {answer : question.Answer} {final : SessionState World}
      (alive : state.Owned index (owners + 1))
      (ended : Session.ask setup index question state = .ok answer final) :
      Happens setup held index backing state final
  | cloned {owners : Nat} {final : SessionState World} (alive : state.Owned index (owners + 1))
      (ended : Session.share index state = .ok () final) : Happens setup held index backing state final
  | dropped {final : SessionState World} (ended : Session.release setup index state = .ok () final) :
      Happens setup held index backing state final
  | called (call : CacheCall) {answer : call.Answer} {final : SessionState World}
      (other : ∀ key value lifetime?, call = .put key value lifetime? → backing ≠ .cached key)
      (ended : Session.onCache (call.run setup.cache) state = .ok answer final) :
      Happens setup held index backing state final
  | restored {count : Nat} {final : SessionState World}
      (ended : Session.onCache (TieredCache.restore setup.cache) state = .ok count final) :
      Happens setup held index backing state final
  | spilled (call : SpillCall) {final : SessionState World}
      (other : ∀ number, backing = .spilled number → call.Spares number)
      (ended : Session.onMemory setup (call.perform setup.memory) state = .ok () final) :
      Happens setup held index backing state final
  | lost {world : World} (payloads : held.Loses state.cache.world world)
      (files : (setup.files state.cache.world).Loses (setup.files world)) :
      Happens setup held index backing state (state.withCache (state.cache.inWorld world))
  | closed {final : SessionState World} (ended : Session.closeCache setup state = .ok () final) :
      Happens setup held index backing state final
  /-- Whatever else a session does. -/
  | elsewhere {final : SessionState World}
      (own : final.lazyVariables[index]? = state.lazyVariables[index]?)
      (cache : final.cache = state.cache) (isOpen : final.cacheIsOpen = state.cacheIsOpen)
      (spills : final.memory.spills = state.memory.spills)
      (nextSpill : final.memory.nextSpill = state.memory.nextSpill) :
      Happens setup held index backing state final

/-! # One value behind a variable -/

/-- What the stores may be given, where the value lies behind the backing. -/
def Backing.Allows (value : Value) : Backing → String → Value → Prop
  | cached key => fun asked found => asked = key → found = value
  | spilled _ => fun _ _ => True

namespace SessionState

variable {setup : SessionSetup World} {held : Holding World} {value : Value} {index : Nat}
  {backing : Backing} {state final : SessionState World} {faults : Fault → Prop} {sound : World → Prop}

/-- Nothing else than the value lies behind the backing; and a spill has no other owner. -/
def Behind (setup : SessionSetup World) (held : Holding World) (value : Value)
    (state : SessionState World) : Backing → Prop
  | .cached key => held.Only key value state.cache.world
  | .spilled number => ∃ title encoded, value.encode = .ok encoded ∧
      ManagedMemory.Guarded setup.memory title number (setup.memory.compressor.compress encoded)
        (state.managed setup)

/-- What lay behind the backing was taken away: the entry, or the file unless the medium refuses that. -/
def Released (setup : SessionSetup World) (state final : SessionState World) : Backing → Prop
  | .cached key => state.cacheIsOpen = true → final.cache.lookup key = none ∧
      ∃ removed, Deletes setup.cache key state.cache removed final.cache
  | .spilled number =>
      let files := setup.files state.cache.world
      ∃ spill, Keyed.find? number state.memory.spills = some spill ∧
        (files.refuses files.calls = none → (setup.files final.cache.world).content? spill.path = none)

/-- The variable stands for the value. -/
structure Proxies (setup : SessionSetup World) (held : Holding World) (value : Value) (index : Nat)
    (backing : Backing) (state : SessionState World) : Prop where
  tallied : state.cache.Tallied setup.cache
  tidy : ManagedMemory.Tidy setup.memory state.memory.spills state.memory.nextSpill
  placed : ∃ own, state.lazyVariables[index]? = some own ∧ own.backing = backing ∧
    (∀ found, own.loaded? = some found → found = value) ∧
      (own.isAlive = true → Behind setup held value state backing)

namespace Proxies

variable (truthful : setup.Truthful held)

/-! ## Parts that change -/

section Parts

variable (proxies : Proxies setup held value index backing state)

include truthful proxies

/-- The cache changes as its stores keep everything that they keep. -/
theorem withCache {cache : CacheState World} (tallied : cache.Tallied setup.cache)
    (keeps : ∀ kept, setup.cache.Guards (backing.Allows value) kept →
      kept state.cache.world → kept cache.world) :
    Proxies setup held value index backing (state.withCache cache) := by
  obtain ⟨own, found, same, loaded, behind⟩ := proxies.placed
  refine ⟨tallied, proxies.tidy, own, found, same, loaded, fun alive => ?_⟩
  have before := behind alive
  cases backing with
  | cached key => exact keeps _ (truthful.cache.guards key value) before
  | spilled number =>
      obtain ⟨title, encoded, encodes, guarded⟩ := before
      exact ⟨title, encoded, encodes, guarded.recorded, guarded.below,
        keeps _ (truthful.apart title number _) guarded.isSealed⟩

/-- Spill files are worked on, and the spill is kept. -/
theorem withMemory {memory : ManagedMemory}
    (tidy : ManagedMemory.Tidy setup.memory memory.manager.spills memory.manager.nextSpill)
    (touches : setup.memory.Touches (setup.files state.cache.world) memory.files)
    (keeps : ¬state.Owned index 0 → ∀ title number bytes, backing = .spilled number →
      ManagedMemory.Guarded setup.memory title number bytes (state.managed setup) →
        ManagedMemory.Guarded setup.memory title number bytes memory) :
    Proxies setup held value index backing (state.withMemory setup memory) := by
  obtain ⟨own, found, same, loaded, behind⟩ := proxies.placed
  refine ⟨proxies.tallied.inWorld _, tidy, own, found, same, loaded, fun alive => ?_⟩
  have before := behind alive
  have owned : ¬state.Owned index 0 := by
    rintro ⟨_, there, none⟩
    cases found.symm.trans there
    simp [LazyVariable.isAlive, none] at alive
  cases backing with
  | cached key => exact before.loses (truthful.undisturbed _ _ touches)
  | spilled number =>
      obtain ⟨title, encoded, encodes, guarded⟩ := before
      refine ⟨title, encoded, encodes, ?_⟩
      have whole : (state.withMemory setup memory).managed setup = memory := by
        simp only [managed, SessionState.withMemory, truthful.files_setFiles]
      rw [whole]
      exact keeps owned title number _ rfl guarded

omit truthful in
/-- The variable gets other owners, or loads the value. -/
theorem withVariable {own : LazyVariable} (changed : LazyVariable) (found : state.lazyVariables[index]? = some own)
    (same : changed.backing = own.backing)
    (loaded : ∀ told, changed.loaded? = some told → told = value)
    (alive : changed.isAlive = true → own.isAlive = true) :
    Proxies setup held value index backing
      (state.withVariables (state.lazyVariables.set index changed)) := by
  obtain ⟨_, there, backed, -, behind⟩ := proxies.placed
  cases found.symm.trans there
  have placed : (state.lazyVariables.set index changed)[index]? = some changed := by
    rw [List.getElem?_set_self (List.getElem?_eq_some_iff.mp found).1]
  exact ⟨proxies.tallied, proxies.tidy, changed, placed, same.trans backed, loaded,
    fun still => behind (alive still)⟩

end Parts

/-! ## Questions -/

section Questions

variable (steady : setup.cache.Steady faults sound) (genuine : value.Genuine)
  (proxies : Proxies setup held value index backing state) (isSound : sound state.cache.world)
  (fits : ¬faults .sumOverflow → state.cache.total < Word.limit)

include truthful steady genuine proxies isSound fits

/-- What is loaded is the value. -/
theorem leads_loadBacking (behind : Behind setup held value state backing) :
    Leads faults (Session.loadBacking setup backing) state fun answer final =>
      Proxies setup held value index backing final ∧ final.lazyVariables = state.lazyVariables ∧
        ∀ found, answer = some found → found = value := by
  cases backing with
  | cached key =>
      simp only [Session.loadBacking, leads_bind, leads_get]
      split
      · rw [leads_onCache]
        apply (TieredCache.leads_read steady ⟨proxies.tallied, isSound, fits⟩).imp
        rintro answer cache - ⟨reads, orderly⟩
        refine ⟨proxies.withCache truthful orderly.tallied fun kept guards holds =>
          (reads.guarded guards holds).1, rfl, fun found answered => ?_⟩
        exact (reads.guarded (truthful.cache.guards key value) behind).2 found answered rfl
      · refine ⟨proxies, rfl, ?_⟩
        rintro _ ⟨⟩
  | spilled number =>
      obtain ⟨title, encoded, encodes, guarded⟩ := behind
      simp only [Session.loadBacking, leads_bind, leads_onMemory, leads_pure]
      have spares : Leads faults _ (state.managed setup) _ :=
        MemoryManager.load_spares proxies.tidy number fun _ => False
      apply (spares.and (guarded.load_eq truthful.spills genuine encodes rfl)).imp
      rintro answer memory ended ⟨⟨spares, -⟩, told⟩
      refine ⟨proxies.withMemory truthful spares.tidy spares.touches ?_, rfl, ?_⟩
      · rintro - title _ bytes ⟨⟩ guarded
        have stays : Leads AnyFault _ _ _ := guarded.leads_load number
        exact stays.of_ok ended
      · intro found answered
        cases answer with
        | error error => cases answered
        | ok loaded =>
            cases answered
            exact told found rfl

/-- A question is answered as the value does, or as if there were nothing, and that before the value is loaded. -/
theorem leads_force (alive : ∃ owners, state.Owned index (owners + 1)) :
    Leads faults (Session.force setup index) state fun answer final =>
      Proxies setup held value index backing final ∧
        (answer = some value ∧ final.Loaded index ∨
          answer = none ∧ ¬state.Loaded index ∧ ¬final.Loaded index) := by
  obtain ⟨own, found, rfl, loaded, behind⟩ := proxies.placed
  obtain ⟨owners, held, there, many⟩ := alive
  cases found.symm.trans there
  have owned : own.isAlive = true := by simp [LazyVariable.isAlive, many]
  simp only [Session.force, leads_bind, leads_lazyVariable?, found]
  cases memo : own.loaded? with
  | some told =>
      obtain rfl := loaded told memo
      refine ⟨proxies, .inl ⟨rfl, own, found, ?_⟩⟩
      simp [LazyVariable.isLoaded, memo]
  | none =>
      rw [leads_bind]
      apply (leads_loadBacking truthful steady genuine proxies isSound fits (behind owned)).imp
      rintro answer middle - ⟨proxies, unchanged, told⟩
      have still : middle.lazyVariables[index]? = some own := by rw [unchanged, found]
      cases answer with
      | none =>
          refine ⟨proxies, .inr ⟨rfl, ?_, ?_⟩⟩
          · rintro ⟨_, there, isLoaded⟩
            cases found.symm.trans there
            simp [LazyVariable.isLoaded, memo] at isLoaded
          · rintro ⟨_, there, isLoaded⟩
            cases still.symm.trans there
            simp [LazyVariable.isLoaded, memo] at isLoaded
      | some read =>
          obtain rfl := told read rfl
          let changed : LazyVariable := { own with loaded? := some read }
          have kept := proxies.withVariable changed still rfl
            (fun told same => (Option.some.inj same).symm) id
          have placed : (middle.lazyVariables.set index changed)[index]? = some changed :=
            List.getElem?_set_self (List.getElem?_eq_some_iff.mp still).1
          exact ⟨kept, .inl ⟨rfl, changed, placed, rfl⟩⟩

theorem leads_ask (alive : ∃ owners, state.Owned index (owners + 1)) (question : Question) :
    Leads faults (Session.ask setup index question) state fun answer final =>
      Proxies setup held value index backing final ∧
        (answer = question.of value ∧ final.Loaded index ∨
          answer = question.absent ∧ ¬state.Loaded index ∧ ¬final.Loaded index) := by
  simp only [Session.ask, leads_bind]
  apply (leads_force truthful steady genuine proxies isSound fits alive).imp
  rintro answer final - ⟨proxies, ⟨rfl, loaded⟩ | ⟨rfl, before, after⟩⟩
  · exact ⟨proxies, .inl ⟨rfl, loaded⟩⟩
  · exact ⟨proxies, .inr ⟨rfl, before, after⟩⟩

end Questions

/-- Once the value is loaded, every question is answered with it, and nothing is done for that. -/
theorem ask_of_loaded (proxies : Proxies setup held value index backing state)
    (loaded : state.Loaded index) (question : Question) :
    Session.ask setup index question state = .ok (question.of value) state := by
  obtain ⟨own, found, -, told, -⟩ := proxies.placed
  obtain ⟨_, there, isLoaded⟩ := loaded
  cases found.symm.trans there
  obtain ⟨memo, loads⟩ := Option.isSome_iff_exists.mp isLoaded
  obtain rfl := told memo loads
  have leads : Leads (fun _ => False) (Session.ask setup index question) state fun answer final =>
      answer = question.of memo ∧ final = state := by
    simp only [Session.ask, Session.force, leads_bind, leads_lazyVariable?, found, loads, leads_pure, and_self]
  obtain ⟨answer, final, ended, rfl, rfl⟩ := leads.ends fun _ => id
  exact ended

/-! ## Owners -/

/-- The variable with one owner more or less. -/
def recount (own : LazyVariable) (index owners : Nat) (state : SessionState World) : SessionState World :=
  state.withVariables (state.lazyVariables.set index { own with owners })

theorem getElem?_recount {own : LazyVariable} (found : state.lazyVariables[index]? = some own)
    (owners : Nat) : (recount own index owners state).lazyVariables[index]? = some { own with owners } :=
  List.getElem?_set_self (List.getElem?_eq_some_iff.mp found).1

theorem leads_share (proxies : Proxies setup held value index backing state) {owners : Nat}
    (alive : state.Owned index (owners + 1)) :
    Leads faults (Session.share index) state fun _ final =>
      Proxies setup held value index backing final ∧ (state.Loaded index → final.Loaded index) := by
  obtain ⟨own, found, many⟩ := alive
  obtain ⟨_, there, -, loaded, -⟩ := proxies.placed
  cases found.symm.trans there
  have owned : own.isAlive = true := by simp [LazyVariable.isAlive, many]
  have more := proxies.withVariable { own with owners := own.owners + 1 } found rfl loaded
    fun _ => owned
  simp only [Session.share, leads_bind, leads_lazyVariable?, found]
  refine ⟨more, ?_⟩
  rintro ⟨_, there, isLoaded⟩
  cases found.symm.trans there
  exact ⟨_, getElem?_recount found _, isLoaded⟩

theorem leads_release_of_free (free : state.Owned index 0) {after : Unit → SessionState World → Prop} :
    Leads faults (Session.release setup index) state after ↔ after () state := by
  obtain ⟨own, found, none⟩ := free
  simp only [Session.release, leads_bind, leads_lazyVariable?, found]
  simp [LazyVariable.isAlive, none]

/-- Only the last owner acts on what lies behind the variable. -/
theorem leads_release_of_sole {own : LazyVariable} (found : state.lazyVariables[index]? = some own)
    (sole : own.owners = 1) {after : Unit → SessionState World → Prop} :
    Leads faults (Session.release setup index) state after ↔
      Leads faults (Session.releaseBacking setup own.backing) (recount own index 0 state) after := by
  simp only [Session.release, leads_bind, leads_lazyVariable?, found]
  simp [LazyVariable.isAlive, sole, recount]

theorem leads_release_of_shared {own : LazyVariable} {owners : Nat}
    (found : state.lazyVariables[index]? = some own) (shared : own.owners = owners + 2)
    {after : Unit → SessionState World → Prop} :
    Leads faults (Session.release setup index) state after ↔
      after () (recount own index (owners + 1) state) := by
  simp only [Session.release, leads_bind, leads_lazyVariable?, found]
  simp [LazyVariable.isAlive, shared, recount]

section Release

variable (steady : setup.cache.Steady faults sound)
  (proxies : Proxies setup held value index backing state) (isSound : sound state.cache.world)
  (fits : ¬faults .sumOverflow → state.cache.total < Word.limit)

include truthful steady proxies isSound fits

/-- What lies behind a variable that nobody owns any more is taken away. -/
theorem leads_releaseBacking (free : state.Owned index 0)
    (behind : Behind setup held value state backing) :
    Leads faults (Session.releaseBacking setup backing) state fun _ final =>
      Proxies setup held value index backing final ∧ final.lazyVariables = state.lazyVariables ∧
        Released setup state final backing := by
  cases backing with
  | cached key =>
      simp only [Session.releaseBacking, leads_bind, leads_get]
      split
      · simp only [leads_bind, leads_pure, leads_onCache]
        apply (TieredCache.leads_delete steady ⟨proxies.tallied, isSound, fits⟩).imp
        rintro removed cache - ⟨deletes, orderly⟩
        refine ⟨proxies.withCache truthful orderly.tallied fun kept guards => deletes.guarded guards, rfl, ?_⟩
        refine fun _ => ⟨?_, removed, deletes⟩
        cases deletes with
        | deleted removes => exact removes.lookup
      · rename_i isClosed
        exact ⟨proxies, rfl, fun isOpen => absurd isOpen isClosed⟩
  | spilled number =>
      obtain ⟨title, encoded, encodes, guarded⟩ := behind
      simp only [Session.releaseBacking, leads_onMemory]
      apply guarded.leads_release_own.imp
      rintro _ memory ended gone
      have spares : Leads AnyFault _ (state.managed setup) _ :=
        MemoryManager.release_spares truthful.spills proxies.tidy number
      obtain ⟨tidy, touches, -, -⟩ := spares.of_ok ended
      refine ⟨proxies.withMemory truthful tidy touches fun owned => absurd free owned, rfl, ?_⟩
      obtain ⟨spill, recorded, -, path⟩ := guarded.recorded
      refine ⟨spill, recorded, fun granted => ?_⟩
      rw [path]
      simp only [SessionState.withMemory, truthful.files_setFiles]
      exact gone granted

/-- The last owner takes along what lies behind the variable. -/
theorem leads_release_of_last (last : state.Owned index 1) :
    Leads faults (Session.release setup index) state fun _ final =>
      Proxies setup held value index backing final ∧ (state.Loaded index → final.Loaded index) ∧
        Released setup state final backing := by
  obtain ⟨own, found, rfl, loaded, behind⟩ := proxies.placed
  obtain ⟨_, there, single⟩ := last
  cases found.symm.trans there
  have owned : own.isAlive = true := by simp [LazyVariable.isAlive, single]
  have left : Proxies setup held value index own.backing (recount own index 0 state) :=
    proxies.withVariable _ found rfl loaded fun _ => owned
  have free : (recount own index 0 state).Owned index 0 := ⟨_, getElem?_recount found 0, rfl⟩
  rw [leads_release_of_sole found single]
  apply (leads_releaseBacking truthful steady left isSound fits free (behind owned)).imp
  rintro _ final - ⟨proxies, unchanged, gone⟩
  refine ⟨proxies, ?_, gone⟩
  rintro ⟨_, there, isLoaded⟩
  cases found.symm.trans there
  exact ⟨_, (congrArg (·[index]?) unchanged).trans (getElem?_recount found 0), isLoaded⟩

end Release

end Proxies

/-! # Whatever happens -/

namespace Proxies

variable (truthful : setup.Truthful held) (proxies : Proxies setup held value index backing state)

include truthful proxies

theorem leads_dropped :
    Leads AnyFault (Session.release setup index) state fun _ final =>
      Proxies setup held value index backing final ∧ (state.Loaded index → final.Loaded index) := by
  obtain ⟨own, found, same, loaded, -⟩ := proxies.placed
  rcases many : own.owners with _ | _ | owners
  · rw [leads_release_of_free ⟨own, found, many⟩]
    exact ⟨proxies, id⟩
  · apply (leads_release_of_last truthful TieredCache.steady_of_any proxies trivial
      (fun checked => absurd trivial checked) ⟨own, found, many⟩).imp
    rintro _ final - ⟨proxies, stays, -⟩
    exact ⟨proxies, stays⟩
  · have owned : own.isAlive = true := by simp [LazyVariable.isAlive, many]
    rw [leads_release_of_shared found many]
    refine ⟨proxies.withVariable _ found rfl loaded fun _ => owned, ?_⟩
    rintro ⟨_, there, isLoaded⟩
    cases found.symm.trans there
    exact ⟨_, getElem?_recount found _, isLoaded⟩

theorem leads_called {call : CacheCall}
    (other : ∀ key value lifetime?, call = .put key value lifetime? → backing ≠ .cached key) :
    Leads AnyFault (Session.onCache (call.run setup.cache)) state fun _ final =>
      Proxies setup held value index backing final ∧ (state.Loaded index → final.Loaded index) := by
  rw [leads_onCache]
  apply (TieredCache.leads_run TieredCache.steady_of_any (TieredCache.orderly_of_any proxies.tallied) call
    fun checked => absurd trivial checked).imp
  rintro answer cache - ⟨outcome, orderly⟩
  refine ⟨proxies.withCache truthful orderly.tallied fun kept guards => ?_, id⟩
  apply guarded_of_outcome guards outcome
  intro key found lifetime? put
  have different := other key found lifetime? put
  cases backing with
  | cached own =>
      intro same
      exact absurd (congrArg Backing.cached same.symm) different
  | spilled number => trivial

theorem leads_restored :
    Leads AnyFault (Session.onCache (TieredCache.restore setup.cache)) state fun _ final =>
      Proxies setup held value index backing final ∧ (state.Loaded index → final.Loaded index) := by
  have anything : setup.cache.Guards (fun _ _ => True) fun _ => True := by
    constructor <;> simp
  rw [leads_onCache]
  apply (TieredCache.leads_restore_guarded anything proxies.tallied trivial).imp
  rintro answer cache ended ⟨tallied, -⟩
  refine ⟨proxies.withCache truthful tallied fun kept guards holds => ?_, id⟩
  exact ((TieredCache.leads_restore_guarded guards proxies.tallied holds).of_ok ended).2

theorem leads_spilled {call : SpillCall} (other : ∀ number, backing = .spilled number → call.Spares number) :
    Leads AnyFault (Session.onMemory setup (call.perform setup.memory)) state fun _ final =>
      Proxies setup held value index backing final ∧ (state.Loaded index → final.Loaded index) := by
  rw [leads_onMemory]
  have leads : Leads AnyFault _ (state.managed setup) _ :=
    MemoryManager.SpillCall.leads_perform truthful.spills proxies.tidy call
  apply leads.imp
  rintro _ memory ended ⟨tidy, touches⟩
  refine ⟨proxies.withMemory truthful tidy touches fun _ title number bytes same guarded => ?_, id⟩
  exact (guarded.leads_perform truthful.spills proxies.tidy.distinct (other number same)).of_ok ended

omit truthful in
/-- The world changes, and no payload or spill file is new. -/
theorem inWorld {world : World} {isOpen : Bool} (payloads : held.Loses state.cache.world world)
    (files : ∀ title number bytes,
      (setup.files state.cache.world).Sealed (setup.memory.spillFile title number) bytes →
        (setup.files world).Sealed (setup.memory.spillFile title number) bytes) :
    Proxies setup held value index backing
      { state with cacheIsOpen := isOpen, cache := state.cache.inWorld world } := by
  obtain ⟨own, found, same, loaded, behind⟩ := proxies.placed
  refine ⟨proxies.tallied.inWorld _, proxies.tidy, own, found, same, loaded, fun alive => ?_⟩
  have before := behind alive
  cases backing with
  | cached key => exact before.loses payloads
  | spilled number =>
      obtain ⟨title, encoded, encodes, guarded⟩ := before
      exact ⟨title, encoded, encodes, guarded.recorded, guarded.below, files _ _ _ guarded.isSealed⟩

omit truthful in
/-- Neither the variable nor the cache or the spills change. -/
theorem elsewhere (own : final.lazyVariables[index]? = state.lazyVariables[index]?)
    (cache : final.cache = state.cache) (spills : final.memory.spills = state.memory.spills)
    (nextSpill : final.memory.nextSpill = state.memory.nextSpill) :
    Proxies setup held value index backing final ∧ (state.Loaded index → final.Loaded index) := by
  obtain ⟨kept, found, same, loaded, behind⟩ := proxies.placed
  have stays : Behind setup held value state backing → Behind setup held value final backing := by
    intro before
    cases backing with
    | cached key =>
        rw [Behind, cache]
        exact before
    | spilled number =>
        obtain ⟨title, encoded, encodes, guarded⟩ := before
        refine ⟨title, encoded, encodes, spills ▸ guarded.recorded, nextSpill ▸ guarded.below, ?_⟩
        rw [managed, cache]
        exact guarded.isSealed
  refine ⟨⟨cache ▸ proxies.tallied, ?_, kept, own.trans found, same, loaded,
    fun alive => stays (behind alive)⟩, ?_⟩
  · rw [spills, nextSpill]
    exact proxies.tidy
  · rintro ⟨_, there, isLoaded⟩
    exact ⟨_, own.trans there, isLoaded⟩

/-- The variable goes on to stand for its value, and what is loaded stays loaded. -/
theorem happens (genuine : value.Genuine) (event : Happens setup held index backing state final) :
    Proxies setup held value index backing final ∧ (state.Loaded index → final.Loaded index) := by
  cases event with
  | @asked owners question answer final alive ended =>
      have leads := leads_ask truthful TieredCache.steady_of_any genuine proxies trivial
        (fun checked => absurd trivial checked) ⟨owners, alive⟩ question
      obtain ⟨proxies, ⟨-, loaded⟩ | ⟨-, unloaded, -⟩⟩ := leads.of_ok ended
      · exact ⟨proxies, fun _ => loaded⟩
      · exact ⟨proxies, fun loaded => absurd loaded unloaded⟩
  | cloned alive ended =>
      have leads : Leads AnyFault _ _ _ := leads_share proxies alive
      exact leads.of_ok ended
  | dropped ended => exact (leads_dropped truthful proxies).of_ok ended
  | called call other ended => exact (leads_called truthful proxies other).of_ok ended
  | restored ended => exact (leads_restored truthful proxies).of_ok ended
  | spilled call other ended => exact (leads_spilled truthful proxies other).of_ok ended
  | lost payloads files =>
      exact ⟨proxies.inWorld payloads fun _ _ _ isSealed => isSealed.loses files, id⟩
  | closed ended =>
      cases ended
      obtain ⟨payloads, files⟩ := truthful.closes state.cache.world
      exact ⟨proxies.inWorld payloads files, id⟩
  | elsewhere own cache isOpen spills nextSpill => exact proxies.elsewhere own cache spills nextSpill

theorem history (genuine : value.Genuine)
    (events : Relation.ReflTransGen (Happens setup held index backing) state final) :
    Proxies setup held value index backing final ∧ (state.Loaded index → final.Loaded index) := by
  induction events with
  | refl => exact ⟨proxies, id⟩
  | tail _ event induction =>
      obtain ⟨later, stays⟩ := happens truthful induction.1 genuine event
      exact ⟨later, stays ∘ induction.2⟩

end Proxies

/-- A value that was moved somewhere has its variable. -/
theorem proxies_of_entrusts (truthful : setup.Truthful held) {moved added : SessionState World} {name : String}
    (tallied : state.cache.Tallied setup.cache)
    (tidy : ManagedMemory.Tidy setup.memory state.memory.spills state.memory.nextSpill)
    (entrusts : Entrusts setup held value state backing moved)
    (adds : Session.addVariable name backing moved = .ok index added) :
    Proxies setup held value index backing added := by
  cases adds
  have placed : (moved.lazyVariables ++ [⟨name, backing, none, 1⟩])[moved.lazyVariables.length]? =
      some ⟨name, backing, none, 1⟩ := by simp
  have unloaded (found : Value) (impossible : none = some found) : found = value := by cases impossible
  cases entrusts with
  | @cached key lifetime? cache unused put =>
      have leads : Leads AnyFault (TieredCache.put setup.cache key value lifetime?) state.cache
          fun answer final => Writes setup.cache key value lifetime? state.cache answer final ∧
            final.Orderly setup.cache AnyFault fun _ => True :=
        TieredCache.leads_put TieredCache.steady_of_any (TieredCache.orderly_of_any tallied)
          fun checked => absurd trivial checked
      obtain ⟨writes, orderly⟩ := leads.of_ok put
      refine ⟨orderly.tallied, tidy, _, placed, rfl, unloaded, fun _ => ?_⟩
      apply Writes.guarded (truthful.cache.guards key value) writes fun _ => rfl
      intro tier found there
      exact absurd there (unused tier found)
  | @spilled title number memory unused spill =>
      have spares : Leads AnyFault _ (state.managed setup) _ :=
        MemoryManager.spill_spares truthful.spills tidy title value fun _ => False
      have free : (state.managed setup).files.Unused
          (setup.memory.spillFile title (state.managed setup).manager.nextSpill) := unused
      have guards : Leads AnyFault _ (state.managed setup) _ :=
        MemoryManager.guarded_of_spill truthful.spills free value
      obtain ⟨encoded, encodes, guarded⟩ := guards.of_ok spill number rfl
      refine ⟨tallied.inWorld _, (spares.of_ok spill).1.tidy, _, placed, rfl, unloaded, fun _ => ?_⟩
      refine ⟨title, encoded, encodes, guarded.recorded, guarded.below, ?_⟩
      change (setup.files (setup.setFiles _ _)).Sealed _ _
      rw [truthful.files_setFiles]
      exact guarded.isSealed

end SessionState

/-! # What owners rely on -/

/-- A variable answers as its value does, or as if there were nothing; the latter only before a question found the
value. What lies behind it is taken away by its last owner. -/
structure LazyVariable.Faithful (setup : SessionSetup World) (held : Holding World) (faults : Fault → Prop)
    (value : Value) (index : Nat) (backing : Backing) (state : SessionState World) : Prop where
  asked : ∀ owners question, state.Owned index (owners + 1) →
    Leads faults (Session.ask setup index question) state fun answer final =>
      answer = question.of value ∧ final.Loaded index ∨
        answer = question.absent ∧ ¬state.Loaded index ∧ ¬final.Loaded index
  /-- Whatever happens after a question found the value, every question is answered with it, and nothing is done for
  that. -/
  kept : ∀ owners found middle, state.Owned index (owners + 1) →
    Session.ask setup index .value state = .ok (some found) middle → found = value ∧
      ∀ last, Relation.ReflTransGen (Happens setup held index backing) middle last → ∀ question,
        Session.ask setup index question last = .ok (question.of value) last
  shared : ∀ owners, state.Owned index (owners + 2) →
    Leads faults (Session.release setup index) state fun _ final =>
      final.Owned index (owners + 1) ∧ ∃ lazyVariables, final = state.withVariables lazyVariables
  last : state.Owned index 1 → Leads faults (Session.release setup index) state fun _ final =>
    SessionState.Released setup state final backing

namespace Session

open SessionState

/-- Whatever happened since a value was moved somewhere, its variable is faithful to it. -/
theorem faithful_of_history {setup : SessionSetup World} {held : Holding World} {value : Value}
    {backing : Backing} {state moved added later : SessionState World} {name : String} {index : Nat}
    {faults : Fault → Prop} {sound : World → Prop} (truthful : setup.Truthful held) (genuine : value.Genuine)
    (tallied : state.cache.Tallied setup.cache)
    (tidy : ManagedMemory.Tidy setup.memory state.memory.spills state.memory.nextSpill)
    (entrusts : Entrusts setup held value state backing moved)
    (adds : addVariable name backing moved = .ok index added)
    (history : Relation.ReflTransGen (Happens setup held index backing) added later)
    (steady : setup.cache.Steady faults sound) (isSound : sound later.cache.world)
    (fits : ¬faults .sumOverflow → later.cache.total < Word.limit) :
    LazyVariable.Faithful setup held faults value index backing later := by
  have start := proxies_of_entrusts truthful tallied tidy entrusts adds
  obtain ⟨proxies, -⟩ := start.history truthful genuine history
  refine ⟨?_, ?_, ?_, ?_⟩
  · intro owners question alive
    apply (proxies.leads_ask truthful steady genuine isSound fits ⟨owners, alive⟩ question).imp
    rintro answer final - ⟨-, told⟩
    exact told
  · intro owners found middle alive ended
    have leads := proxies.leads_ask truthful TieredCache.steady_of_any genuine trivial
      (fun checked => absurd trivial checked) ⟨owners, alive⟩ .value
    obtain ⟨after, ⟨same, loaded⟩ | ⟨impossible, -⟩⟩ := leads.of_ok ended
    · refine ⟨Option.some.inj same, fun last events question => ?_⟩
      obtain ⟨proxies, stays⟩ := after.history truthful genuine events
      exact proxies.ask_of_loaded (stays loaded) question
    · cases impossible
  · rintro owners ⟨own, found, many⟩
    rw [Proxies.leads_release_of_shared found many]
    exact ⟨⟨_, Proxies.getElem?_recount found _, rfl⟩, _, rfl⟩
  · intro last
    apply (proxies.leads_release_of_last truthful steady isSound fits last).imp
    rintro _ final - ⟨-, -, gone⟩
    exact gone

end Session

/-! # Stores in memory -/

namespace CacheSetup

variable {Local Other : Type} {setup : CacheSetup Local} {held : Holding Local}

theorem get_beside (setup : CacheSetup Local) (tier : Tier) : (setup.beside Other).stores.get tier =
    (setup.stores.get tier).within Prod.fst fun world inner => (inner, world.2) :=
  PerTier.get_ofFunction _ tier

/-- Stores beside something else make nothing up. -/
theorem Truthful.beside (truthful : setup.Truthful held) (Other : Type) :
    (setup.beside Other).Truthful fun world => held world.1 := by
  refine ⟨⟨?_, ?_, ?_, ?_⟩, ?_, ?_⟩
  · intro tier key world answer after ended
    rw [get_beside] at ended
    obtain ⟨inner, called, rfl⟩ := StoreAction.run_within ended
    exact truthful.get _ _ _ _ _ called
  · intro tier key value world after ended
    rw [get_beside] at ended
    obtain ⟨inner, called, rfl⟩ := StoreAction.run_within ended
    exact truthful.put _ _ _ _ _ called
  · intro tier key value world error after ended
    rw [get_beside] at ended
    obtain ⟨inner, called, rfl⟩ := StoreAction.run_within ended
    exact truthful.put_failed _ _ _ _ _ _ called
  · intro tier key world answer after ended
    rw [get_beside] at ended
    obtain ⟨inner, called, rfl⟩ := StoreAction.run_within ended
    exact truthful.delete _ _ _ _ _ called
  · intro tier world answer after ended
    rw [get_beside] at ended
    obtain ⟨inner, called, rfl⟩ := StoreAction.run_within ended
    exact truthful.clear _ _ _ _ called
  · intro tier world answer after ended
    rw [get_beside] at ended
    obtain ⟨inner, called, rfl⟩ := StoreAction.run_within ended
    exact truthful.entries _ _ _ _ called

/-- They leave the other part alone. -/
theorem guards_beside (setup : CacheSetup Local) (kept : Other → Prop) :
    (setup.beside Other).Guards (fun _ _ => True) fun world => kept world.2 := by
  refine ⟨?_, ?_, ?_, ?_, ?_⟩
  · intro tier key world answer after ended holds
    rw [get_beside] at ended
    obtain ⟨inner, called, rfl⟩ := StoreAction.run_within ended
    exact ⟨holds, fun _ _ => trivial⟩
  · intro tier key value world answer after ended holds _
    rw [get_beside] at ended
    obtain ⟨inner, called, rfl⟩ := StoreAction.run_within ended
    exact holds
  · intro tier key world answer after ended holds
    rw [get_beside] at ended
    obtain ⟨inner, called, rfl⟩ := StoreAction.run_within ended
    exact holds
  · intro tier world answer after ended holds
    rw [get_beside] at ended
    obtain ⟨inner, called, rfl⟩ := StoreAction.run_within ended
    exact holds
  · intro tier world answer after ended holds
    rw [get_beside] at ended
    obtain ⟨inner, called, rfl⟩ := StoreAction.run_within ended
    exact holds

end CacheSetup

theorem SessionSetup.inMemory_truthful (tiers : TierConfig) (defaultLifetime? : Option Nat)
    (clock : Nat → Nat) (memory : MemorySetup) (identifier : Nat → String)
    (spills : Identifies memory.identifier) :
    (SessionSetup.inMemory (.inMemory tiers defaultLifetime? clock) memory identifier).Truthful
      fun world tier => MemoryStore.Holds (world.1.get tier) where
  cache := (CacheSetup.inMemory_truthful tiers defaultLifetime? clock).beside FileSystem
  apart _ _ _ := CacheSetup.guards_beside _ _
  files_setFiles _ _ := rfl
  undisturbed _ _ _ _ _ _ there := there
  closes _ := ⟨fun _ _ _ there => there, fun _ _ _ isSealed => isSealed⟩
  spills := spills

namespace Session

open SessionState

/-- A variable that was read before the payloads were lost. -/
theorem faithful_of_history_lost :
    let setup := SessionSetup.eager none
    let held : Holding (PerTier MemoryWorld × FileSystem) := fun world tier => MemoryStore.Holds (world.1.get tier)
    let opened := start setup (.start setup.cache (.const [], .start []))
    let backing := Backing.cached "var:x:"
    ∃ moved added asked, Entrusts setup held (.flag true) opened backing moved ∧
      addVariable "x" backing moved = .ok 0 added ∧
        ask setup 0 .value added = .ok (some (.flag true)) asked ∧
          LazyVariable.Faithful setup held (fun _ => False) (.flag true) 0 backing
            (asked.withCache (asked.cache.inWorld (.const [], .start []))) := by
  intro setup held opened backing
  have leads : Leads (fun _ => False) (TieredCache.put setup.cache "var:x:" (.flag true) none) opened.cache
      fun taken cache => taken = true ∧ Leads (fun _ => False) (ask setup 0 .value)
        ((opened.withCache cache).withVariables [⟨"x", backing, none, 1⟩])
          fun answer asked => Option.isSome answer = true ∧ asked.cache.total < Word.limit := by
    decide +kernel
  obtain ⟨taken, cache, put, rfl, leads⟩ := leads.ends fun _ => id
  obtain ⟨answer, asked, asks, some, fits⟩ := leads.ends fun _ => id
  obtain ⟨found, rfl⟩ := Option.isSome_iff_exists.mp some
  have truthful := SessionSetup.inMemory_truthful setup.cache.tiers none id setup.memory unary identifies_unary
  have healthy := SessionSetup.inMemory_healthy setup.cache.tiers none id setup.memory
    identifies_unary identifies_unary
  have tallied : opened.cache.Tallied setup.cache := .start _
  have tidy : ManagedMemory.Tidy setup.memory opened.memory.spills opened.memory.nextSpill :=
    ⟨List.nodup_nil, nofun, nofun⟩
  have nothing (tier : Tier) (key : String) (found : Value) : ¬held (.const [], .start []) tier key found := by
    rintro ⟨resident, impossible, -⟩
    cases tier <;> cases impossible
  have entrusts : Entrusts setup held (.flag true) opened backing (opened.withCache cache) :=
    .cached (fun tier found => nothing tier _ found) put
  let added := (opened.withCache cache).withVariables [⟨"x", backing, none, 1⟩]
  have adds : addVariable "x" backing (opened.withCache cache) = .ok 0 added := rfl
  have alive : added.Owned 0 1 := ⟨_, rfl, rfl⟩
  have genuine := Value.Genuine.flag true
  have early : LazyVariable.Faithful setup held AnyFault (.flag true) 0 backing added :=
    faithful_of_history truthful genuine tallied tidy entrusts adds .refl TieredCache.steady_of_any trivial
      fun checked => absurd trivial checked
  obtain ⟨rfl, -⟩ := early.kept 0 found asked alive asks
  refine ⟨_, added, asked, entrusts, adds, asks, ?_⟩
  have isSound : (∀ tier, MemoryStore.Sound ((PerTier.const []).get tier)) ∧ (FileSystem.start []).Quiet := by
    refine ⟨fun tier => ?_, fun _ => rfl⟩
    cases tier <;> exact ⟨List.nodup_nil, nofun⟩
  refine faithful_of_history truthful genuine tallied tidy entrusts adds (.tail (.single (.asked alive asks)) ?_)
    (sturdy_of_healthy healthy).steady isSound fun _ => fits
  refine .lost (fun tier key found there => absurd there (nothing tier key found)) ?_
  intro path node content stands holds
  cases path with
  | nil =>
      cases stands
      cases holds
  | cons name path =>
      change (PathTree.walk (name :: path) PathTree.empty).item? = Option.some node at stands
      rw [PathTree.walk_empty] at stands
      cases stands

end Session

end TierVault
