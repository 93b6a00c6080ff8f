import TierVault.Proofs.Cache.Operations

/-!
Runs of a tiered cache: calls, one after the other, and what they answered.

A run that ends leaves a history, in which every event is an outcome of its call in the state that the events
before it led to.
-/

namespace TierVault

variable {World : Type}

/-- What may be asked of a cache. -/
inductive CacheCall
  | put (key : String) (value : Value) (lifetime? : Option Nat)
  | get (key : String)
  | delete (key : String)
  | has (key : String)
  | clear
  | cleanupExpired
  | reclaimExpired

namespace CacheCall

abbrev Answer : CacheCall → Type
  | put .. => Bool
  | get _ => Option Value
  | delete _ => Bool
  | has _ => Bool
  | clear => Unit
  | cleanupExpired => Nat
  | reclaimExpired => Nat

def run (setup : CacheSetup World) : (call : CacheCall) → CacheAction World call.Answer
  | put key value lifetime? => TieredCache.put setup key value lifetime?
  | get key => TieredCache.get setup key
  | delete key => TieredCache.delete setup key
  | has key => TieredCache.has setup key
  | clear => TieredCache.clear setup
  | cleanupExpired => TieredCache.cleanupExpired setup
  | reclaimExpired => TieredCache.reclaimExpired setup

/-- The answer and the state that a call leads to. -/
def Outcome (setup : CacheSetup World) (state : CacheState World) :
    (call : CacheCall) → call.Answer → CacheState World → Prop
  | put key value lifetime? => CacheState.Writes setup key value lifetime? state
  | get key => CacheState.Reads setup key state
  | delete key => CacheState.Deletes setup key state
  | has key => CacheState.Has setup key state
  | clear => fun _ => CacheState.Clears setup state
  | cleanupExpired => CacheState.Cleans setup state
  | reclaimExpired => CacheState.Reclaims setup state

/-- What the call adds to the bytes of all entries at most. -/
def weight : CacheCall → Nat
  | put _ value _ => value.weight
  | _ => 0

/-- The value that is put, if there is one, is one of those. -/
def Offers (storable : Value → Prop) : CacheCall → Prop
  | put _ value _ => storable value
  | _ => True

end CacheCall

structure CacheEvent where
  call : CacheCall
  answer : call.Answer

/-- The value that was read, if the event is a read that found one. -/
def CacheEvent.read? : CacheEvent → Option Value
  | ⟨.get _, answer⟩ => answer
  | _ => none

theorem CacheEvent.of_read? {event : CacheEvent} {value : Value}
    (read : event.read? = some value) : ∃ key, event = ⟨.get key, some value⟩ := by
  rcases event with ⟨call, answer⟩
  cases call with
  | get key =>
      cases read
      exact ⟨key, rfl⟩
  | _ => cases read

/-! ## The latest value -/

/-- What an event makes of the latest value of a key. -/
def CacheEvent.update (key : String) (latest : Option Value) : CacheEvent → Option Value
  | ⟨.put other value _, true⟩ => if other = key then some value else latest
  | ⟨.delete other, true⟩ => if other = key then none else latest
  | ⟨.clear, _⟩ => none
  | _ => latest

/-- The value of the latest put of a key that was taken, if it was not deleted or cleared after that. -/
def latest (key : String) (history : List CacheEvent) : Option Value :=
  history.foldl (CacheEvent.update key) none

@[simp] theorem latest_nil (key : String) : latest key [] = none := rfl

theorem latest_append (key : String) (history : List CacheEvent) (event : CacheEvent) :
    latest key (history ++ [event]) = event.update key (latest key history) := by
  rw [latest, List.foldl_append]
  rfl

namespace TieredCache

/-- Runs the calls in order. -/
def runAll (setup : CacheSetup World) : List CacheCall → CacheAction World (List CacheEvent)
  | [] => return []
  | call :: later => do
    let answer ← call.run setup
    return ⟨call, answer⟩ :: (← runAll setup later)

/-- Along the run, the sizes of all entries and of the value that is put make a word together. -/
def SumsFit (setup : CacheSetup World) : List CacheCall → CacheState World → Prop
  | [], _ => True
  | call :: later, state =>
    state.total + call.weight < Word.limit ∧
      ∀ answer next, call.run setup state = .ok answer next → SumsFit setup later next

end TieredCache

namespace CacheState

/-- The events lead from one state to the other. -/
inductive Lives (setup : CacheSetup World) :
    CacheState World → List CacheEvent → CacheState World → Prop
  | rest (state : CacheState World) : Lives setup state [] state
  | next {state middle final : CacheState World} {later : List CacheEvent} (event : CacheEvent)
      (outcome : event.call.Outcome setup state event.answer middle)
      (lives : Lives setup middle later final) : Lives setup state (event :: later) final

variable {setup : CacheSetup World} {state final : CacheState World}

theorem restrained_of_outcome {call : CacheCall} {answer : call.Answer}
    (outcome : call.Outcome setup state answer final) (start : state.Tallied setup) :
    Restrained setup state final := by
  cases call with
  | put => exact Writes.restrained outcome start
  | get => exact Reads.restrained outcome start
  | delete => exact Deletes.restrained outcome start
  | has => exact Has.restrained outcome start
  | clear => exact Clears.restrained outcome start
  | cleanupExpired => exact Cleans.restrained outcome start
  | reclaimExpired => exact Reclaims.restrained outcome start

/-- No tier comes to hold more than its capacity, or than it held at the start. -/
theorem Lives.restrained {history : List CacheEvent} (lives : Lives setup state history final)
    (start : state.Tallied setup) : Restrained setup state final := by
  induction lives with
  | rest => exact .refl start
  | next event outcome _ induction =>
      have first := restrained_of_outcome outcome start
      exact first.trans (induction first.tallied)

end CacheState

namespace TieredCache

open TierVault.Action CacheState

variable {faults : Fault → Prop} {setup : CacheSetup World} {sound : World → Prop}
  {state : CacheState World}

theorem leads_run (steady : setup.Steady faults sound) (orderly : state.Orderly setup faults sound)
    (call : CacheCall) (fits : ¬faults .sumOverflow → state.total + call.weight < Word.limit) :
    Leads faults (call.run setup) state fun answer final =>
      call.Outcome setup state answer final ∧ final.Orderly setup faults sound := by
  cases call with
  | put key value lifetime? => exact leads_put steady orderly fits
  | get key => exact leads_read steady orderly
  | delete key => exact leads_delete steady orderly
  | has key => exact leads_has steady orderly
  | clear => exact leads_clear steady orderly
  | cleanupExpired => exact leads_cleanupExpired steady orderly
  | reclaimExpired => exact leads_reclaimExpired steady orderly

theorem leads_runAll (steady : setup.Steady faults sound)
    (orderly : state.Orderly setup faults sound) (calls : List CacheCall)
    (fits : ¬faults .sumOverflow → SumsFit setup calls state) :
    Leads faults (runAll setup calls) state fun history final =>
      history.map CacheEvent.call = calls ∧ Lives setup state history final ∧
        final.Orderly setup faults sound := by
  induction calls generalizing state with
  | nil => exact ⟨rfl, .rest state, orderly⟩
  | cons call later induction =>
      simp only [runAll, leads_bind, leads_pure]
      refine (leads_run steady orderly call fun checked => (fits checked).1).imp ?_
      rintro answer middle ended ⟨outcome, tidy⟩
      refine (induction tidy fun checked => (fits checked).2 answer middle ended).imp ?_
      rintro history final - ⟨asked, lives, done⟩
      refine ⟨?_, .next ⟨call, answer⟩ outcome lives, done⟩
      rw [List.map_cons, asked]

theorem orderly_start (world : World) (isSound : sound world) :
    (CacheState.start setup world).Orderly setup faults sound :=
  ⟨.start world, isSound, fun _ => Nat.two_pow_pos 64⟩

/-- Nothing is asked of stores that may stop anywhere. -/
theorem steady_of_any : setup.Steady (fun _ => True) fun _ => True := by
  have keeps {Result : Type} (action : StoreAction World Result) :
      action.Keeps (fun _ => True) fun _ => True := by
    intro world _
    cases called : action.run world with
    | ok answer after => exact (leads_of_eq called).mpr trivial
    | error fault after => simp only [Leads, called]
  exact ⟨fun _ _ => keeps _, fun _ _ _ => keeps _, fun _ _ => keeps _, fun _ => keeps _⟩

theorem orderly_of_any (tallied : state.Tallied setup) :
    state.Orderly setup (fun _ => True) fun _ => True :=
  ⟨tallied, trivial, fun checked => absurd trivial checked⟩

/-- Whatever the stores do, a call that ends has one of its outcomes. -/
theorem outcome_of_ok (tallied : state.Tallied setup) (call : CacheCall) {answer : call.Answer}
    {final : CacheState World} (ended : call.run setup state = .ok answer final) :
    call.Outcome setup state answer final := by
  have leads := leads_run steady_of_any (orderly_of_any tallied) call
    fun checked => absurd trivial checked
  exact (leads.of_ok ended).1

/-- Whatever the stores do, a run that ends leaves a history. -/
theorem lives_of_ok {calls : List CacheCall} {history : List CacheEvent}
    {final : CacheState World} (tallied : state.Tallied setup)
    (ended : runAll setup calls state = .ok history final) :
    Lives setup state history final ∧ Restrained setup state final := by
  have leads := leads_runAll steady_of_any (orderly_of_any tallied) calls
    fun checked => absurd trivial checked
  have lives := (leads.of_ok ended).2.1
  exact ⟨lives, lives.restrained tallied⟩

theorem calls_of_ok {calls : List CacheCall} {history : List CacheEvent}
    {final : CacheState World} (tallied : state.Tallied setup)
    (ended : runAll setup calls state = .ok history final) :
    history.map CacheEvent.call = calls := by
  have leads := leads_runAll steady_of_any (orderly_of_any tallied) calls
    fun checked => absurd trivial checked
  exact (leads.of_ok ended).1

end TieredCache

end TierVault
