import TierVault.Proofs.Session.Execution
import TierVault.Proofs.Session.Storage
import TierVault.Zstandard.Codec

/-!
Runs of a session: code that is executed, and what else is done with names in between.

A run tells what it did to names. What it left under a name can be read as long as the cache has it; nothing
but a default lifetime of entries or an eviction makes the cache drop it. The runs that are carried out here have
their stores in memory, and a medium for the spill files beside them.
-/

namespace TierVault

/-! # Stores in memory -/

section

variable {Local Other : Type}

/-- The cache in a world that has another part. -/
def CacheSetup.beside (Other : Type) (setup : CacheSetup Local) : CacheSetup (Local × Other) where
  tiers := setup.tiers
  defaultLifetime? := setup.defaultLifetime?
  stores := .ofFunction fun tier =>
    (setup.stores.get tier).within Prod.fst fun world inner => (inner, world.2)
  clock := setup.clock
  shortfall := setup.shortfall

/-- The stores leave the other part as it is. -/
theorem CacheSetup.Sturdy.beside {setup : CacheSetup Local} {storable : Value → Prop}
    {sound : Local → Prop} {shelves : Local → Tier → Shelf}
    (sturdy : setup.Sturdy storable sound shelves) (kept : Other → Prop) :
    (setup.beside Other).Sturdy storable (fun world => sound world.1 ∧ kept world.2)
      fun world => shelves world.1 := by
  have store (tier : Tier) : (setup.beside Other).stores.get tier =
      (setup.stores.get tier).within Prod.fst fun world inner => (inner, world.2) :=
    PerTier.get_ofFunction _ tier
  refine ⟨?_, ?_, ?_, ?_, ?_, ?_⟩
  · intro tier key world isSound
    rcases sturdy.get tier key world.1 isSound.1 with ⟨after, ended, stays, same⟩
    rw [store]
    exact ⟨_, StoreAction.run_within_of_ok ended, ⟨stays, isSound.2⟩, same⟩
  · intro tier key value world isSound
    rcases sturdy.answers tier key value world.1 isSound.1 with ⟨answer, after, ended, stays⟩
    rw [store]
    exact ⟨answer, _, StoreAction.run_within_of_ok ended, stays, isSound.2⟩
  · intro tier key value size world isSound able size_eq fits
    rcases sturdy.put tier key value size world.1 isSound.1 able size_eq fits with
      ⟨after, ended, stays, more⟩
    rw [store]
    exact ⟨_, StoreAction.run_within_of_ok ended, ⟨stays, isSound.2⟩, more⟩
  · intro tier key world isSound
    rcases sturdy.delete tier key world.1 isSound.1 with ⟨told, after, ended, stays, less⟩
    rw [store]
    exact ⟨told, _, StoreAction.run_within_of_ok ended, ⟨stays, isSound.2⟩, less⟩
  · intro tier world isSound
    rcases sturdy.clear tier world.1 isSound.1 with ⟨after, ended, stays, bare⟩
    rw [store]
    exact ⟨_, StoreAction.run_within_of_ok ended, ⟨stays, isSound.2⟩, bare⟩
  · intro tier world isSound
    rcases sturdy.size tier world.1 isSound.1 with ⟨after, ended, stays, same⟩
    rw [store]
    exact ⟨_, StoreAction.run_within_of_ok ended, ⟨stays, isSound.2⟩, same⟩

theorem CacheSetup.Sturdy.fewer {World : Type} {setup : CacheSetup World}
    {storable some : Value → Prop} {sound : World → Prop} {shelves : World → Tier → Shelf}
    (sturdy : setup.Sturdy storable sound shelves) (fewer : ∀ value, some value → storable value) :
    setup.Sturdy some sound shelves :=
  { sturdy with
    put := fun tier key value size world isSound able =>
      sturdy.put tier key value size world isSound (fewer value able) }

/-- A session over four stores in memory and a medium for its spill files. -/
def SessionSetup.inMemory (cache : CacheSetup (PerTier MemoryWorld)) (memory : MemorySetup)
    (identifier : Nat → String) : SessionSetup (PerTier MemoryWorld × FileSystem) where
  cache := cache.beside FileSystem
  memory := memory
  classifier := ⟨[], 0⟩
  processor := .ofConfig {}
  skippedBeginnings := []
  identifier := identifier
  files := Prod.snd
  setFiles := fun world files => (world.1, files)
  closeStores := id

/-- The stores and the medium cannot disturb each other. -/
theorem SessionSetup.inMemory_healthy (tiers : TierConfig) (defaultLifetime? : Option Nat)
    (clock : Nat → Nat) (memory : MemorySetup) {identifier : Nat → String}
    (keys : Identifies identifier) (spills : Identifies memory.identifier) :
    (SessionSetup.inMemory (.inMemory tiers defaultLifetime? clock) memory identifier).Healthy
      Value.Genuine
      (fun world => (∀ tier, MemoryStore.Sound (world.1.get tier)) ∧ world.2.Quiet)
      (fun world tier => MemoryStore.shelf (world.1.get tier)) where
  quiet _ isSound := isSound.2
  sturdy held := by
    have sturdy := (CacheSetup.inMemory_sturdy tiers defaultLifetime? clock).fewer
      (fun value (_ : value.Genuine) => trivial)
    have beside := sturdy.beside fun files : FileSystem => files.Quiet ∧ ∀ name number content,
      held (memory.spillPath name number) content →
        files.content? (memory.spillPath name number) = some content
    simp only [and_assoc]
    exact beside
  files_setFiles _ _ := rfl
  undisturbed _ _ isSound touches := ⟨⟨isSound.1, touches.quiet spills isSound.2⟩, rfl⟩
  keys := keys
  spills := spills
  genuine _ genuine := genuine

/-- A session in memory that moves every value out of the process, to tiers of a few bytes. -/
def SessionSetup.eager (defaultLifetime? : Option Nat) :
    SessionSetup (PerTier MemoryWorld × FileSystem) :=
  .inMemory (.inMemory { budgets := ⟨5, 5, 5, 5⟩ } defaultLifetime? id)
    { config := { objectThresholdMegabytes := 0, spillFloorBytes := 0 }
      directory := "spill"
      compressor := ⟨Zstandard.codec, 3, 0⟩
      probe := fun _ => default
      clock := id
      identifier := unary }
    unary

end

/-! # Runs -/

section

open TierVault.Action CacheState SessionState

variable {World Note : Type}

/-! ## What happens to names -/

inductive NameEvent
  | bound (name : String) (value : Value)
  | unbound (name : String)

def NameEvent.update (name : String) (left : Option Value) : NameEvent → Option Value
  | .bound other value => if other = name then some value else left
  | .unbound other => if other = name then none else left

/-- The value that a name was bound to last, if it was not unbound after that. -/
def leftBehind (history : List NameEvent) (name : String) : Option Value :=
  history.foldl (NameEvent.update name) none

theorem leftBehind_append (history : List NameEvent) (event : NameEvent) :
    leftBehind (history ++ [event]) = fun name => event.update name (leftBehind history name) := by
  funext name
  rw [leftBehind, List.foldl_append]
  rfl

namespace Program

/-- The program with a record of what it does to names in its note. -/
def logged (history : List NameEvent) : Program Note → Program (List NameEvent × Note)
  | .finish note failure? => .finish (history, note) failure?
  | .insert name value next =>
    .insert name value fun old? => (next old?).logged (history ++ [.bound name value])
  | .remove name next => .remove name fun old? => (next old?).logged (history ++ [.unbound name])
  | .read name next => .read name fun value? => (next value?).logged history

/-- All values that the program binds, whatever it reads, are of those. -/
def Offers (storable : Value → Prop) : Program Note → Prop
  | .finish _ _ => True
  | .insert _ value next => storable value ∧ ∀ old?, (next old?).Offers storable
  | .remove _ next => ∀ old?, (next old?).Offers storable
  | .read _ next => ∀ value?, (next value?).Offers storable

end Program

/-- What may be asked of a session. -/
inductive SessionCall (Note : Type)
  | execute (executor : Executor Note) (code : String)
  /-- Names are bound, unbound and read between executions. -/
  | act (program : Program Note)

def SessionCall.Offers (storable : Value → Prop) : SessionCall Note → Prop
  | .execute executor _ => ∀ code mode, (executor code mode).Offers storable
  | .act program => program.Offers storable

namespace Session

/-- Runs the calls in order, and tells what was done to names before and in them. -/
def runAll (setup : SessionSetup World) :
    List NameEvent → List (SessionCall Note) → SessionAction World (List NameEvent)
  | history, [] => return history
  | history, .execute executor code :: later => do
    let ((history, _), _) ←
      execute setup (fun code mode => (executor code mode).logged history) code
    runAll setup history later
  | history, .act program :: later => do
    let ((history, _), _) ← runProgram setup (program.logged history)
    runAll setup history later

/-- A record changes nothing about what a program does. -/
theorem runProgram_logged (setup : SessionSetup World) (program : Program Note)
    (history : List NameEvent) :
    (fun answer => (answer.1.2, answer.2)) <$> runProgram setup (program.logged history) =
      runProgram setup program := by
  induction program generalizing history with
  | finish note failure? => simp only [Program.logged, runProgram, map_pure]
  | insert name value next induction =>
      simp only [Program.logged, runProgram, map_bind, induction]
  | remove name next induction =>
      simp only [Program.logged, runProgram, map_bind, induction]
  | read name next induction =>
      simp only [Program.logged, runProgram, map_bind, induction]

theorem execute_logged (setup : SessionSetup World) (executor : Executor Note) (code : String)
    (history : List NameEvent) :
    (fun answer => (answer.1.2, answer.2)) <$>
        execute setup (fun code mode => (executor code mode).logged history) code =
      execute setup executor code := by
  simp only [execute, map_bind]
  refine bind_congr fun pressure => ?_
  -- Both ways to reclaim go on in the same way.
  split
  all_goals
    simp only [map_bind]
    refine bind_congr fun forced => bind_congr fun state => ?_
    let mode := setup.classifier.classify (setup.files state.cache.world) code
    rw [← runProgram_logged setup (executor code mode) history, bind_map_left]
    refine bind_congr fun answer => ?_
    rcases answer with ⟨⟨log, note⟩, failure?⟩
    cases failure? with
    | none => simp only [map_bind, map_pure]
    | some message => simp only [map_pure]

/-! ## What a run keeps -/

section Rules

variable {setup : SessionSetup World} {faults : Fault → Prop} {state : SessionState World}
  {history : List NameEvent}

/-- What a program keeps, by one rule for names that are bound anew or unbound, and one for names that are read. -/
theorem leads_runProgram_kept {storable : Value → Prop} {kept : (String → Option Value) → SessionState World → Prop}
    (rebinds : ∀ left state name bindings value?, kept left state →
      Keyed.find? name bindings = value?.map Binding.value →
      (∀ asked, asked ≠ name → Keyed.find? asked bindings = Keyed.find? asked state.bindings) →
      (∀ value, value? = some value → storable value) →
      Leads faults (giveUp setup (Keyed.find? name state.bindings)) (state.withBindings bindings) fun _ =>
        kept fun asked => if name = asked then value? else left asked)
    (reads : ∀ left state name, kept left state → Leads faults (read setup name) state fun _ => kept left)
    {program : Program Note} (offers : program.Offers storable) (start : kept (leftBehind history) state) :
    Leads faults (runProgram setup (program.logged history)) state fun answer =>
      kept (leftBehind answer.1.1) := by
  induction program generalizing history state with
  | finish note failure? => exact start
  | insert name value next induction =>
      simp only [Program.logged, runProgram, leads_bind, leads_bindName]
      apply (rebinds _ state name _ (some value) start Namespace.find?_bind_same ?_ ?_).imp
      · rintro _ middle - there
        apply induction _ (offers.2 _)
        rw [leftBehind_append]
        exact there
      · intro asked different
        exact Namespace.find?_bind_other different
      · rintro _ ⟨⟩
        exact offers.1
  | remove name next induction =>
      simp only [Program.logged, runProgram, leads_bind, leads_unbind]
      apply (rebinds _ state name _ none start (Keyed.find?_remove_same _ _) ?_ ?_).imp
      · rintro _ middle - there
        apply induction _ (offers _)
        rw [leftBehind_append]
        exact there
      · intro asked different
        exact Keyed.find?_remove_other _ different
      · rintro _ ⟨⟩
  | read name next induction =>
      simp only [Program.logged, runProgram, leads_bind]
      apply (reads _ state name start).imp
      rintro value? middle - there
      exact induction value? (offers value?) there

/-- An execution by its parts: the code runs in a state that is prepared; where it goes well, values are moved out of
the process after it, and space is reclaimed once more. -/
theorem leads_execute_parts {executor : Executor Note} {code : String} {prepared : SessionState World → Prop}
    {ran : ExecutionMode → Note × Option String → SessionState World → Prop}
    {after : Note × Except String ExecutionReport → SessionState World → Prop}
    (checks : Leads faults (onMemory setup (MemoryManager.checkPressure setup.memory)) state fun _ => prepared)
    (reclaims : ∀ state, prepared state → Leads faults (reclaimIfNeeded setup true) state fun _ => prepared)
    (runs : ∀ mode state, prepared state →
      Leads faults (runProgram setup (executor code mode)) state (ran mode))
    (fails : ∀ mode note message state, ran mode (note, some message) state → after (note, .error message) state)
    (goesWell : ∀ mode note state, ran mode (note, none) state → ∀ pressureBefore reclaimForced,
      Leads faults (offloadAll setup) state fun moved offloaded =>
        Leads faults (reclaimIfNeeded setup false) offloaded fun reclaimAfter =>
          let parts := moved.partition fun item => item.2.isSpilled
          after (note, .ok
            { mode, pressureBefore, reclaimForced
              cached := parts.2.map Prod.fst
              spilled := parts.1.map Prod.fst
              reclaimAfter })) :
    Leads faults (execute setup executor code) state after := by
  simp only [execute, leads_bind]
  apply checks.imp
  rintro ⟨pressure, statistics⟩ checked - there
  -- Both ways to reclaim go on in the same way.
  split
  · simp only [leads_bind, leads_get]
    apply (reclaims checked there).imp
    rintro forced reclaimed - there
    apply (runs _ reclaimed there).imp
    rintro ⟨note, failure?⟩ state - told
    cases failure? with
    | some message => exact fails _ note message state told
    | none =>
        simp only [leads_bind, leads_pure]
        exact goesWell _ note state told pressure forced
  · simp only [leads_bind, leads_pure, leads_get]
    apply (runs _ checked there).imp
    rintro ⟨note, failure?⟩ state - told
    cases failure? with
    | some message => exact fails _ note message state told
    | none =>
        simp only [leads_bind, leads_pure]
        exact goesWell _ note state told pressure false

/-- What each call keeps is kept by all of them. -/
theorem leads_runAll_kept {kept : List NameEvent → SessionState World → Prop} {calls : List (SessionCall Note)}
    (executes : ∀ executor code, .execute executor code ∈ calls → ∀ history state, kept history state →
      Leads faults (execute setup (fun code mode => (executor code mode).logged history) code) state
        fun answer => kept answer.1.1)
    (acts : ∀ program, .act program ∈ calls → ∀ history state, kept history state →
      Leads faults (runProgram setup (program.logged history)) state fun answer => kept answer.1.1)
    (start : kept history state) : Leads faults (runAll setup history calls) state kept := by
  induction calls generalizing history state with
  | nil => exact start
  | cons call later induction =>
      have onward {history : List NameEvent} {state : SessionState World} (there : kept history state) :
          Leads faults (runAll setup history later) state kept :=
        induction (fun executor code member => executes executor code (List.mem_cons_of_mem _ member))
          (fun program member => acts program (List.mem_cons_of_mem _ member)) there
      cases call with
      | execute executor code =>
          simp only [runAll, leads_bind]
          apply (executes executor code List.mem_cons_self history state start).imp
          rintro answer middle - there
          exact onward there
      | act program =>
          simp only [runAll, leads_bind]
          apply (acts program List.mem_cons_self history state start).imp
          rintro answer middle - there
          exact onward there

end Rules

section Healthy

variable {setup : SessionSetup World} {storable : Value → Prop} {sound : World → Prop}
  {shelves : World → Tier → Shelf} {state : SessionState World} {history : List NameEvent}

variable (healthy : setup.Healthy storable sound shelves)

include healthy

theorem leads_runProgram {program : Program Note} (offers : program.Offers storable)
    (intact : Intact setup storable sound shelves (leftBehind history) state) :
    Leads AnyFault (runProgram setup (program.logged history)) state fun answer final =>
      Intact setup storable sound shelves (leftBehind answer.1.1) final := by
  refine leads_runProgram_kept (fun left state name bindings value? intact => ?_)
    (fun left state name intact => ?_) offers intact
  · exact leads_rebind healthy intact bindings value?
  · exact (leads_read healthy intact (fun checked => absurd trivial checked) name).imp fun _ _ _ => And.left

theorem leads_execute {executor : Executor Note} (code : String)
    (offers : ∀ code mode, (executor code mode).Offers storable)
    (intact : Intact setup storable sound shelves (leftBehind history) state) :
    Leads AnyFault
      (execute setup (fun code mode => (executor code mode).logged history) code) state
      fun answer final => Intact setup storable sound shelves (leftBehind answer.1.1) final := by
  refine leads_execute_parts (intact.harmless (harmless_idle healthy MemoryManager.idle_checkPressure))
    (fun state intact => intact.harmless (harmless_reclaimIfNeeded healthy true))
    (fun mode state intact => leads_runProgram healthy (offers _ _) intact) (fun _ _ _ _ => id) ?_
  rintro mode ⟨log, note⟩ ran intact - -
  apply (leads_offloadAll healthy intact).imp
  rintro _ moved - intact
  exact intact.harmless (harmless_reclaimIfNeeded healthy false)

theorem leads_runAll {calls : List (SessionCall Note)} (offers : ∀ call ∈ calls, call.Offers storable)
    (intact : Intact setup storable sound shelves (leftBehind history) state) :
    Leads AnyFault (runAll setup history calls) state fun history final =>
      Intact setup storable sound shelves (leftBehind history) final := by
  refine leads_runAll_kept (fun executor code member history state intact => ?_)
    (fun program member history state intact => ?_) intact
  · exact leads_execute healthy code (offers _ member) intact
  · exact leads_runProgram healthy (offers _ member) intact

end Healthy

/-! ## What is left can be read -/

/-- The value is read under the name, unless the cache dropped it; and that takes a lifetime that entries
have by default, or an eviction. -/
structure ReadsBack (setup : SessionSetup World) (name : String) (value : Value)
    (state : SessionState World) : Prop where
  kept : ¬Lost setup state name → ∀ answer final,
    read setup name state = .ok answer final → answer = some value
  lost : Lost setup state name → ∀ answer final,
    read setup name state = .ok answer final → answer = none
  ends : state.cache.total < Word.limit → ∃ answer final,
    read setup name state = .ok answer final
  cause : Lost setup state name →
    setup.cache.defaultLifetime? ≠ none ∨ 0 < state.cache.counters.evictions

theorem readsBack_of_intact {setup : SessionSetup World} {storable : Value → Prop}
    {sound : World → Prop} {shelves : World → Tier → Shelf} {left : String → Option Value}
    {state : SessionState World} {name : String} {value : Value}
    (healthy : setup.Healthy storable sound shelves)
    (intact : Intact setup storable sound shelves left state) (new : left name = some value) :
    ReadsBack setup name value state := by
  have told {answer : Option Value} {final : SessionState World}
      (ended : read setup name state = .ok answer final) :
      (Lost setup state name → answer = none) ∧
        (¬Lost setup state name → answer = some value) := by
    have leads : Leads AnyFault (read setup name) state _ :=
      leads_read healthy intact (fun checked => absurd trivial checked) name
    exact (leads.of_ok ended).2 value new
  refine ⟨?_, ?_, ?_, intact.of_lost new⟩
  · intro present answer final ended
    exact (told ended).2 present
  · intro gone answer final ended
    exact (told ended).1 gone
  · intro fits
    have leads : Leads (fun _ => False) (read setup name) state _ :=
      leads_read healthy intact (fun _ => fits) name
    rcases leads.ends (fun _ => id) with ⟨answer, final, ended, -⟩
    exact ⟨answer, final, ended⟩

/-- A session may begin over any cache that agrees with its stores. -/
theorem intact_of_agrees {setup : SessionSetup World} {storable : Value → Prop}
    {sound : World → Prop} {shelves : World → Tier → Shelf} {newest : String → Option Value}
    {cache : CacheState World} (agrees : Agrees setup.cache storable sound shelves newest cache) :
    Intact setup storable sound shelves (leftBehind []) (start setup cache) := by
  refine ⟨_, ⟨rfl, rfl, agrees, List.nodup_nil, ?_, ?_⟩, ?_, List.nodup_nil, ?_, ?_, ?_, ?_⟩
  · intro number spill found
    cases found
  · intro number spill found
    cases found
  · intro backing member
    cases member
  · intro name index refers
    cases refers
  · intro name other index refers
    cases refers
  · intro name value found
    cases found
  · intro name value new
    cases new

theorem intact_start {setup : SessionSetup World} {storable : Value → Prop}
    {sound : World → Prop} {shelves : World → Tier → Shelf} {world : World}
    (isSound : sound world) (bare : ∀ tier, shelves world tier = .empty) :
    Intact setup storable sound shelves (leftBehind [])
      (start setup (.start setup.cache world)) :=
  intact_of_agrees (.start isSound bare)

/-- In every run of a session over storage that does not fail, what was left under a name is read there,
as long as the cache has it. -/
theorem runAll_readsBack (setup : SessionSetup World) {storable : Value → Prop}
    {sound : World → Prop} {shelves : World → Tier → Shelf}
    (healthy : setup.Healthy storable sound shelves) (world : World) (isSound : sound world)
    (bare : ∀ tier, shelves world tier = .empty) (calls : List (SessionCall Note))
    (offers : ∀ call ∈ calls, call.Offers storable) {history : List NameEvent}
    {final : SessionState World}
    (ended : runAll setup [] calls (start setup (.start setup.cache world)) = .ok history final)
    {name : String} {value : Value} (new : leftBehind history name = some value) :
    ReadsBack setup name value final := by
  have intact := (leads_runAll healthy offers (intact_start isSound bare)).of_ok ended
  exact readsBack_of_intact healthy intact new

/-- A value that is moved to the cache, and read from there. -/
theorem runAll_readsBack_offloaded :
    let setup := SessionSetup.eager none
    let calls : List (SessionCall Unit) :=
      [.execute (fun _ _ => .insert "x" (.flag true) fun _ => .finish () none) ""]
    let world : PerTier MemoryWorld × FileSystem := (.const [], .start [])
    ∃ history final value,
      runAll setup [] calls (start setup (.start setup.cache world)) = .ok history final ∧
        leftBehind history "x" = some value ∧ final.backings = [.cached "var:x:"] ∧
          ReadsBack setup "x" value final := by
  intro setup calls world
  have leads : Leads (fun _ => False) (runAll setup [] calls)
      (start setup (.start setup.cache world)) fun history final =>
        (leftBehind history "x").isSome = true ∧ final.backings = [.cached "var:x:"] := by
    decide +kernel
  rcases leads.ends (fun _ => id) with ⟨history, final, ended, there, moved⟩
  rcases Option.isSome_iff_exists.mp there with ⟨value, new⟩
  have healthy := SessionSetup.inMemory_healthy setup.cache.tiers none id setup.memory
    identifies_unary identifies_unary
  have isSound (tier : Tier) : MemoryStore.Sound (world.1.get tier) := by
    cases tier <;> exact ⟨List.nodup_nil, nofun⟩
  have bare (tier : Tier) : MemoryStore.shelf (world.1.get tier) = .empty := by
    cases tier <;> rfl
  have offers : ∀ call ∈ calls, call.Offers Value.Genuine := by
    intro call member
    cases List.mem_singleton.mp member
    intro code mode
    exact ⟨.flag true, fun _ => trivial⟩
  refine ⟨history, final, value, ended, new, moved, ?_⟩
  exact runAll_readsBack setup healthy world ⟨isSound, fun _ => rfl⟩ bare calls offers ended new

/-- An entry that expires at once is lost, and its variable with it. -/
theorem read_none_of_expired :
    let setup := SessionSetup.eager (some 0)
    let calls : List (SessionCall Unit) :=
      [.execute (fun _ _ => .insert "x" (.flag true) fun _ => .finish () none) ""]
    let world : PerTier MemoryWorld × FileSystem := (.const [], .start [])
    ∃ history final value later,
      runAll setup [] calls (start setup (.start setup.cache world)) = .ok history final ∧
        leftBehind history "x" = some value ∧ read setup "x" final = .ok none later := by
  intro setup calls world
  have leads : Leads (fun _ => False) (runAll setup [] calls)
      (start setup (.start setup.cache world)) fun history final =>
        (leftBehind history "x").isSome = true ∧
          Leads (fun _ => False) (read setup "x") final fun answer _ => answer.isNone = true := by
    decide +kernel
  rcases leads.ends (fun _ => id) with ⟨history, final, ended, there, reads⟩
  rcases Option.isSome_iff_exists.mp there with ⟨value, new⟩
  rcases reads.ends (fun _ => id) with ⟨answer, later, read, none⟩
  cases Option.isNone_iff_eq_none.mp none
  exact ⟨history, final, value, later, ended, new, read⟩

end Session

end

end TierVault
