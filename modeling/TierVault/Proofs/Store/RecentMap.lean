import Mathlib.Data.List.Forall2
import Mathlib.Data.List.Infix
import TierVault.Proofs.Action
import TierVault.Proofs.Keyed
import TierVault.Proofs.RecencyList
import TierVault.Proofs.Sums
import TierVault.Proofs.Value.Encoding
import TierVault.Store.Basic

/-!
What a store is meant to be: a map that holds a number of bytes at most, and knows the order of last use.

A read and a write use a key, a look for it does not. A write drops the oldest other keys, and no more of them
than it must. A store refines the map if it answers every call as the map does.

A list by recency stands for a map. Its items may be anything that stands for the values: the values themselves,
stored payloads, or records of files. What is done to the list is then done to the map.
-/

namespace TierVault

/-! # What a store is meant to be -/

section

variable {World : Type}

/-! ## Calls -/

/-- What may be asked of a store. -/
inductive StoreCall
  | get (key : String)
  | put (key : String) (value : Value)
  | has (key : String)
  | delete (key : String)
  | clear
  | size
  | entries

namespace StoreCall

abbrev Answer : StoreCall → Type
  | get _ => Option Value
  | put .. => Unit
  | has _ => Bool
  | delete _ => Bool
  | clear => Unit
  | size => Nat
  | entries => List (String × Nat)

def run (store : Store World) : (call : StoreCall) → StoreAction World call.Answer
  | get key => store.get key
  | put key value => store.put key value
  | has key => store.has key
  | delete key => store.delete key
  | clear => store.clear
  | size => store.size
  | entries => store.entries

/-- The value that is put, if there is one, is one of those. -/
def Offers (storable : Value → Prop) : StoreCall → Prop
  | put _ value => storable value
  | _ => True

/-- The call is one that a reader makes. -/
def IsRead : StoreCall → Prop
  | get _ | has _ | size | entries => True
  | put .. | delete _ | clear => False

end StoreCall

/-- A call, and what was answered or reported. -/
structure StoreEvent where
  call : StoreCall
  answer : Except StoreError call.Answer

/-- Runs the calls in order. An error ends no run. -/
def Store.runAll (store : Store World) : List StoreCall → Action World (List StoreEvent)
  | [] => return []
  | call :: later => do
    let answer ← (call.run store).run
    return ⟨call, answer⟩ :: (← store.runAll later)

/-! ## The map -/

/-- Values under their keys, the least recently used first. -/
abbrev RecentMap := Keyed String Value

namespace RecentMap

/-- Encoded bytes of all values. -/
def bytes (map : RecentMap) : Nat := Keyed.weigh Value.weight map

/-- The longest end of the map beside which `incoming` bytes fit the budget. -/
def fitting (budget incoming : Nat) (map : RecentMap) : RecentMap :=
  (map.tails.find? fun rest => bytes rest + incoming ≤ budget).getD []

/-- What a call answers, and the map after it. -/
def step (budget : Nat) (map : RecentMap) :
    (call : StoreCall) → Except StoreError call.Answer × RecentMap
  | .get key =>
    match Keyed.find? key map with
    | some value => (.ok (some value), Keyed.remove key map ++ [(key, value)])
    | none => (.ok none, map)
  | .put key value =>
    match value.encodedSize with
    | .error error => (.error (.codec error), map)
    | .ok size =>
      if budget < size then (.error (.tooLarge size budget), map)
      else (.ok (), fitting budget size (Keyed.remove key map) ++ [(key, value)])
  | .has key => (.ok (Keyed.has key map), map)
  | .delete key => (.ok (Keyed.has key map), Keyed.remove key map)
  | .clear => (.ok (), [])
  | .size => (.ok (bytes map), map)
  | .entries => (.ok (map.map fun (key, value) => (key, value.weight)), map)

def runAll (budget : Nat) : (map : RecentMap) → List StoreCall → List StoreEvent
  | _, [] => []
  | map, call :: later =>
    let (answer, next) := step budget map call
    ⟨call, answer⟩ :: runAll budget next later

/-- The map that the calls leave. -/
def leftBy (budget : Nat) (map : RecentMap) (calls : List StoreCall) : RecentMap :=
  calls.foldl (fun map call => (step budget map call).2) map

variable {budget incoming size : Nat} {map : RecentMap} {key : String} {value : Value}
  {error : CodecError}

theorem step_get_of_some (known : Keyed.find? key map = some value) :
    step budget map (.get key) = (.ok (some value), Keyed.remove key map ++ [(key, value)]) := by
  simp only [step, known]

theorem step_get_of_none (unknown : Keyed.find? key map = none) :
    step budget map (.get key) = (.ok none, map) := by
  simp only [step, unknown]

theorem step_put_of_error (unsized : value.encodedSize = .error error) :
    step budget map (.put key value) = (.error (.codec error), map) := by
  simp only [step, unsized]

theorem step_put_of_lt (sized : value.encodedSize = .ok size) (large : budget < size) :
    step budget map (.put key value) = (.error (.tooLarge size budget), map) := by
  simp only [step, sized, if_pos large]

theorem step_put_of_le (sized : value.encodedSize = .ok size) (small : size ≤ budget) :
    step budget map (.put key value) =
      (.ok (), fitting budget size (Keyed.remove key map) ++ [(key, value)]) := by
  simp only [step, sized, if_neg (Nat.not_lt.mpr small)]

theorem fitting_cons (key : String) (value : Value) :
    fitting budget incoming ((key, value) :: map) =
      if bytes ((key, value) :: map) + incoming ≤ budget then (key, value) :: map
      else fitting budget incoming map := by
  unfold fitting
  rw [List.tails, List.find?_cons]
  by_cases fits : bytes ((key, value) :: map) + incoming ≤ budget
  · simp only [fits, decide_true, if_true, Option.getD_some]
  · simp only [fits, decide_false, if_false]

theorem fitting_suffix (budget incoming : Nat) (map : RecentMap) :
    fitting budget incoming map <:+ map := by
  unfold fitting
  cases found : map.tails.find? fun rest => bytes rest + incoming ≤ budget with
  | none => exact List.nil_suffix
  | some rest => exact (List.mem_tails _ _).mp (List.mem_of_find?_eq_some found)

/-- The new value fits beside what stays. -/
theorem bytes_fitting_le (small : incoming ≤ budget) :
    bytes (fitting budget incoming map) + incoming ≤ budget := by
  induction map with
  | nil => simp [fitting, bytes, small]
  | cons head rest induction =>
      obtain ⟨key, value⟩ := head
      rw [fitting_cons]
      split
      · assumption
      · exact induction

/-- Whatever else could stay is no longer. -/
theorem length_le_fitting {rest : RecentMap} (ends : rest <:+ map)
    (fits : bytes rest + incoming ≤ budget) : rest.length ≤ (fitting budget incoming map).length := by
  induction map with
  | nil =>
      rw [List.suffix_nil.mp ends]
      exact Nat.zero_le _
  | cons head others induction =>
      obtain ⟨key, value⟩ := head
      rw [fitting_cons]
      split
      · exact ends.length_le
      · rename_i large
        rcases List.suffix_cons_iff.mp ends with rfl | shorter
        · exact absurd fits large
        · exact induction shorter

/-- Each key is there once, and all values fit the budget. -/
structure Fits (budget : Nat) (map : RecentMap) : Prop where
  distinct : Keyed.Distinct map
  bytes_le : bytes map ≤ budget

theorem fits_nil (budget : Nat) : Fits budget [] := ⟨List.nodup_nil, Nat.zero_le budget⟩

theorem bytes_append (map : RecentMap) (key : String) (value : Value) :
    bytes (map ++ [(key, value)]) = bytes map + value.weight := by
  simp [bytes, Keyed.weigh, sumOf_append]

theorem Fits.remove (fits : Fits budget map) (key : String) : Fits budget (Keyed.remove key map) where
  distinct := fits.distinct.remove key
  bytes_le := Nat.le_trans (sumOf_sublist (List.filter_sublist.map _)) fits.bytes_le

/-- Whatever is called, the values go on to fit the budget. -/
theorem Fits.step (fits : Fits budget map) (call : StoreCall) :
    Fits budget (RecentMap.step budget map call).2 := by
  cases call with
  | get key =>
      cases known : Keyed.find? key map with
      | none =>
          rw [step_get_of_none known]
          exact fits
      | some value =>
          rw [step_get_of_some known]
          refine ⟨(fits.distinct.remove key).append (Keyed.not_mem_keys_remove key map) value, ?_⟩
          rw [bytes_append]
          exact (Keyed.weigh_remove _ fits.distinct known).trans_le fits.bytes_le
  | put key value =>
      cases sized : value.encodedSize with
      | error error =>
          rw [step_put_of_error sized]
          exact fits
      | ok size =>
          by_cases large : budget < size
          · rw [step_put_of_lt sized large]
            exact fits
          · have small := Nat.not_lt.mp large
            rw [step_put_of_le sized small]
            have sublist := (fitting_suffix budget size (Keyed.remove key map)).sublist
            refine ⟨Keyed.Distinct.append ?_ ?_ value, ?_⟩
            · exact (sublist.map Prod.fst).nodup (fits.distinct.remove key)
            · exact fun among => Keyed.not_mem_keys_remove key map ((sublist.map Prod.fst).subset among)
            · rw [bytes_append, Value.weight_eq sized]
              exact bytes_fitting_le small
  | delete key => exact fits.remove key
  | clear => exact fits_nil budget
  | has | size | entries => exact fits

/-- Nothing comes into the map but what is put. -/
theorem mem_step {call : StoreCall} {pair : String × Value} (member : pair ∈ (step budget map call).2) :
    pair ∈ map ∨ call = .put pair.1 pair.2 := by
  cases call with
  | get key =>
      cases known : Keyed.find? key map with
      | none =>
          rw [step_get_of_none known] at member
          exact .inl member
      | some value =>
          rw [step_get_of_some known] at member
          rcases List.mem_append.mp member with kept | own
          · exact .inl (List.mem_of_mem_filter kept)
          · rw [List.mem_singleton.mp own]
            exact .inl (Keyed.mem_of_find? known)
  | put key value =>
      cases sized : value.encodedSize with
      | error error =>
          rw [step_put_of_error sized] at member
          exact .inl member
      | ok size =>
          by_cases large : budget < size
          · rw [step_put_of_lt sized large] at member
            exact .inl member
          · rw [step_put_of_le sized (Nat.not_lt.mp large)] at member
            rcases List.mem_append.mp member with kept | own
            · have stays := (fitting_suffix budget size (Keyed.remove key map)).subset kept
              exact .inl (List.mem_of_mem_filter stays)
            · rw [List.mem_singleton.mp own]
              exact .inr rfl
  | delete key => exact .inl (List.mem_of_mem_filter member)
  | clear => cases member
  | has | size | entries => exact .inl member

/-- No size that is answered in a run is above the budget. -/
theorem Fits.size_le (fits : Fits budget map) {calls : List StoreCall} {answer : Nat}
    (answered : ⟨.size, .ok answer⟩ ∈ runAll budget map calls) : answer ≤ budget := by
  induction calls generalizing map with
  | nil => cases answered
  | cons call later induction =>
      rcases List.mem_cons.mp answered with same | onward
      · cases same
        exact fits.bytes_le
      · exact induction (fits.step call) onward

/-- A read is answered, in the same way whatever the budget. -/
theorem step_read {call : StoreCall} (read : call.IsRead) (budget other : Nat) (map : RecentMap) :
    step budget map call = step other map call ∧ ∃ answer, (step budget map call).1 = .ok answer := by
  cases call with
  | get key =>
      cases known : Keyed.find? key map with
      | none =>
          rw [step_get_of_none known, step_get_of_none known]
          exact ⟨rfl, none, rfl⟩
      | some value =>
          rw [step_get_of_some known, step_get_of_some known]
          exact ⟨rfl, some value, rfl⟩
  | has | size | entries => exact ⟨rfl, _, rfl⟩
  | put | delete | clear => exact read.elim

/-- In a run of reads, each is answered. -/
theorem answers_of_reads {reads : List StoreCall} (reading : ∀ call ∈ reads, call.IsRead) :
    ∀ event ∈ runAll budget map reads, ∃ answer, event.answer = .ok answer := by
  induction reads generalizing map with
  | nil => exact List.forall_mem_nil _
  | cons call later induction =>
      have others : ∀ call ∈ later, call.IsRead :=
        fun call among => reading call (List.mem_cons_of_mem _ among)
      intro event member
      rcases List.mem_cons.mp member with rfl | further
      · exact (step_read (reading call List.mem_cons_self) budget budget map).2
      · exact induction others event further

end RecentMap

/-! ## Refinement -/

/-- In every call of those that are still to come, the store answers what the map does, or stops with one of
the faults. -/
def Store.Refines (store : Store World) (budget : Nat) (faults : Fault → Prop)
    (mirrors : List StoreCall → World → RecentMap → Prop) : Prop :=
  ∀ call later world map, mirrors (call :: later) world map →
    Action.Leads faults (call.run store).run world fun answer after =>
      answer = (RecentMap.step budget map call).1 ∧
        mirrors later after (RecentMap.step budget map call).2

section

variable {store : Store World} {budget : Nat} {faults : Fault → Prop}
  {mirrors : List StoreCall → World → RecentMap → Prop} (refines : store.Refines budget faults mirrors)
  (calls : List StoreCall) {world : World} {map : RecentMap} (start : mirrors calls world map)

include refines start

/-- What the calls leave stands for the map that they leave. -/
theorem Store.Refines.leads_runAll_leftBy :
    Action.Leads faults (store.runAll calls) world fun history final =>
      history = RecentMap.runAll budget map calls ∧ mirrors [] final (RecentMap.leftBy budget map calls) := by
  induction calls generalizing world map with
  | nil => exact ⟨rfl, start⟩
  | cons call later induction =>
      simp only [Store.runAll, Action.leads_bind, Action.leads_pure]
      refine (refines call later world map start).imp ?_
      rintro answer after - ⟨rfl, onward⟩
      refine (induction onward).imp ?_
      rintro history final - ⟨rfl, stands⟩
      exact ⟨rfl, stands⟩

theorem Store.Refines.leads_runAll :
    Action.Leads faults (store.runAll calls) world fun history _ =>
      history = RecentMap.runAll budget map calls :=
  (refines.leads_runAll_leftBy calls start).imp fun _ _ _ => And.left

end

end

/-! # Lists that stand for it -/

section

variable {Item : Type}

/-- One after the other, the residents have the keys and sizes of the map, and their items stand for its
values. -/
def Mirrors (stands : String → Item → Value → Prop) (residents : List (Resident Item))
    (map : RecentMap) : Prop :=
  List.Forall₂ (fun resident (pair : String × Value) => ∃ item,
    resident = ⟨pair.1, pair.2.weight, item⟩ ∧ stands pair.1 item pair.2) residents map

namespace Mirrors

variable {stands : String → Item → Value → Prop} {residents : List (Resident Item)}
  {map : RecentMap} {key : String} {value : Value} {item : Item} {budget incoming : Nat}

theorem imp {other : String → Item → Value → Prop} (mirrors : Mirrors stands residents map)
    (implies : ∀ resident ∈ residents, ∀ value, stands resident.key resident.item value →
      other resident.key resident.item value) : Mirrors other residents map := by
  induction mirrors with
  | nil => exact .nil
  | @cons resident pair residents map same _ induction =>
      obtain ⟨item, rfl, holds⟩ := same
      refine .cons ⟨item, rfl, implies _ List.mem_cons_self _ holds⟩ (induction ?_)
      exact fun resident member => implies resident (List.mem_cons_of_mem _ member)

theorem of_mem (mirrors : Mirrors stands residents map) {resident : Resident Item}
    (member : resident ∈ residents) : ∃ value, stands resident.key resident.item value := by
  induction mirrors with
  | nil => cases member
  | @cons first pair residents map same _ induction =>
      rcases List.mem_cons.mp member with rfl | later
      · obtain ⟨item, rfl, holds⟩ := same
        exact ⟨pair.2, holds⟩
      · exact induction later

theorem find? (mirrors : Mirrors stands residents map) (key : String) :
    (RecencyList.find? key residents = none ∧ Keyed.find? key map = none) ∨
      ∃ item value, RecencyList.find? key residents = some ⟨key, value.weight, item⟩ ∧
        Keyed.find? key map = some value ∧ stands key item value := by
  induction mirrors with
  | nil => exact .inl ⟨rfl, rfl⟩
  | @cons resident pair residents map same _ induction =>
      obtain ⟨own, value⟩ := pair
      obtain ⟨item, rfl, holds⟩ := same
      by_cases equal : own = key
      · subst equal
        exact .inr ⟨item, value, List.find?_cons_of_pos (by simp), if_pos rfl, holds⟩
      · have skips : RecencyList.find? key (⟨own, value.weight, item⟩ :: residents) =
            RecencyList.find? key residents := List.find?_cons_of_neg (by simpa using equal)
        rw [skips, Keyed.find?, if_neg equal]
        exact induction

theorem keys (mirrors : Mirrors stands residents map) :
    Keyed.keys map = residents.map Resident.key := by
  induction mirrors with
  | nil => rfl
  | cons same _ induction =>
      obtain ⟨item, rfl, -⟩ := same
      exact congrArg (_ :: ·) induction

theorem has (mirrors : Mirrors stands residents map) (key : String) :
    RecencyList.has key residents = Keyed.has key map := by
  unfold RecencyList.has Keyed.has
  rcases mirrors.find? key with ⟨missing, unknown⟩ | ⟨item, value, found, known, -⟩
  · rw [missing, unknown]
    rfl
  · rw [found, known]
    rfl

theorem total (mirrors : Mirrors stands residents map) :
    RecencyList.total residents = RecentMap.bytes map := by
  induction mirrors with
  | nil => rfl
  | cons same _ induction =>
      obtain ⟨item, rfl, -⟩ := same
      exact congrArg (_ + ·) induction

theorem listing (mirrors : Mirrors stands residents map) :
    RecencyList.listing residents = map.map fun (key, value) => (key, value.weight) := by
  induction mirrors with
  | nil => rfl
  | cons same _ induction =>
      obtain ⟨item, rfl, -⟩ := same
      exact congrArg (_ :: ·) induction

theorem remove (mirrors : Mirrors stands residents map) (key : String) :
    Mirrors stands (RecencyList.remove key residents) (Keyed.remove key map) := by
  induction mirrors with
  | nil => exact .nil
  | @cons resident pair residents map same _ induction =>
      obtain ⟨own, value⟩ := pair
      obtain ⟨item, rfl, holds⟩ := same
      unfold RecencyList.remove Keyed.remove at induction ⊢
      by_cases equal : own = key
      · rw [List.filter_cons_of_neg (by simp [equal]), List.filter_cons_of_neg (by simp [equal])]
        exact induction
      · rw [List.filter_cons_of_pos (by simp [equal]), List.filter_cons_of_pos (by simp [equal])]
        exact .cons ⟨item, rfl, holds⟩ induction

theorem append (mirrors : Mirrors stands residents map) (holds : stands key item value) :
    Mirrors stands (residents ++ [⟨key, value.weight, item⟩]) (map ++ [(key, value)]) := by
  induction mirrors with
  | nil => exact .cons ⟨item, rfl, holds⟩ .nil
  | cons same _ induction => exact .cons same induction

theorem makeRoom (mirrors : Mirrors stands residents map) (budget incoming : Nat) :
    Mirrors stands (RecencyList.makeRoom budget incoming residents)
      (RecentMap.fitting budget incoming map) := by
  induction mirrors with
  | nil =>
      have nothing : RecentMap.fitting budget incoming [] = [] :=
        List.suffix_nil.mp (RecentMap.fitting_suffix budget incoming [])
      rw [nothing]
      exact .nil
  | @cons resident pair residents map same later induction =>
      have whole : Mirrors stands (resident :: residents) (pair :: map) := .cons same later
      rw [RecencyList.makeRoom, RecentMap.fitting_cons, whole.total]
      split
      · exact whole
      · exact induction

/-- A key is used, and something that stands for its value as well takes the item's place. -/
theorem use (mirrors : Mirrors stands residents map) {change : Item → Item}
    (still : ∀ item value, stands key item value → stands key (change item) value) :
    Mirrors stands (RecencyList.use key change residents)
      (RecentMap.step budget map (.get key)).2 := by
  unfold RecencyList.use
  rcases mirrors.find? key with ⟨missing, unknown⟩ | ⟨item, value, found, known, holds⟩
  · rw [missing, RecentMap.step_get_of_none unknown]
    exact mirrors
  · rw [found, RecentMap.step_get_of_some known]
    exact (mirrors.remove key).append (still item value holds)

theorem put (mirrors : Mirrors stands residents map) (budget : Nat)
    (holds : stands key item value) :
    Mirrors stands (RecencyList.put budget ⟨key, value.weight, item⟩ residents)
      (RecentMap.fitting budget value.weight (Keyed.remove key map) ++ [(key, value)]) :=
  ((mirrors.remove key).makeRoom budget value.weight).append holds

end Mirrors

end

end TierVault
