import TierVault.Proofs.Stream.Shadows

/-!
The windows of a stream, and the calls that they are made for.

The function of a window transform may keep a state, cancel the pipeline or stop with a fault. Draining the windows of
a stream calls it with every full window, in their order and with nothing else, until it cancels or stops, and hands
out what it gives.
-/

namespace TierVault

/-! ## Calls -/

namespace Closure

variable {Argument Result : Type}

/-- Calls the function with the arguments in order, up to a call that cancels: the results, where the function is
left, and how a stream ends that makes these calls. -/
def serve (function : Closure Argument Result) : function.State → List Argument →
    Flow (List Result × function.State × StreamState)
  | state, [] => return ([], state, .exhausted)
  | state, argument :: rest => do
    let (result, state) ← function.call state argument
    if ← Flow.isCancelled then return ([result], state, .cancelled)
    let (results, ending) ← serve function state rest
    return (result :: results, ending)

/-- The same function, which also keeps the arguments that it was called with. -/
def remembering (function : Closure Argument Result) : Closure Argument Result where
  State := function.State × List Argument
  state := (function.state, [])
  call := fun (state, calls) argument => do
    let (result, state) ← function.call state argument
    return (result, state, calls ++ [argument])

/-- A call is kept for every result. -/
theorem serve_remembering (function : Closure Argument Result) (state : function.State)
    (calls arguments : List Argument) :
    function.remembering.serve (state, calls) arguments =
      (fun (results, last, ending) => (results, (last, calls ++ arguments.take results.length), ending)) <$>
        function.serve state arguments := by
  induction arguments generalizing state calls with
  | nil => simp only [serve, map_pure, List.take_nil, List.append_nil]
  | cons argument rest induction =>
      simp only [serve, remembering, bind_assoc, pure_bind, map_bind] at induction ⊢
      apply bind_congr
      intro (result, later)
      apply bind_congr
      intro cancelled
      cases cancelled with
      | true => rfl
      | false =>
          simp only [Bool.false_eq_true, if_false, induction, bind_map_left, map_bind, map_pure]
          apply bind_congr
          intro (results, ending)
          simp only [List.length_cons, List.take_succ_cons, List.append_assoc, List.singleton_append]

/-- Without a cancellation every argument has its result. -/
theorem length_of_serve {function : Closure Argument Result} {state : function.State} {arguments : List Argument}
    {results : List Result} {told : function.State × StreamState} {before : Bool}
    (served : function.serve state arguments before = .ok (results, told) false) :
    results.length = arguments.length := by
  induction arguments generalizing state results before with
  | nil =>
      cases served
      rfl
  | cons argument rest induction =>
      obtain ⟨⟨result, later⟩, now, called, asked⟩ := Flow.of_bind served
      obtain ⟨_, _, looked, onward⟩ := Flow.of_bind asked
      cases looked
      cases now with
      | true => cases onward
      | false =>
          obtain ⟨⟨others, ending⟩, _, more, made⟩ := Flow.of_bind onward
          cases made
          rw [List.length_cons, List.length_cons, induction more]

theorem of_serve_remembering {function : Closure Argument Result} {state last : function.State}
    {calls made arguments : List Argument} {results : List Result} {ending : StreamState} {before after : Bool}
    (served : function.remembering.serve (state, calls) arguments before = .ok (results, (last, made), ending) after) :
    made = calls ++ arguments.take results.length ∧ (after = false → results.length = arguments.length) := by
  rw [serve_remembering, map_eq_pure_bind] at served
  obtain ⟨⟨_, _, _⟩, _, ran, told⟩ := Flow.of_bind served
  cases told
  refine ⟨rfl, ?_⟩
  rintro rfl
  exact length_of_serve ran

section Serve

variable {function : Closure Argument Result} {state last : function.State} {argument : Argument}
  {rest : List Argument} {result : Result} {before after : Bool} {fault : Fault}

/-- One more result before the others. -/
def withFirst {Rest : Type} (result : Result) (told : List Result × Rest) : List Result × Rest :=
  (result :: told.1, told.2)

theorem serve_of_error (stopped : function.call state argument before = .error fault after) :
    function.serve state (argument :: rest) before = .error fault after :=
  Flow.bind_of_error stopped

theorem serve_of_cancelled (called : function.call state argument before = .ok (result, last) true) :
    function.serve state (argument :: rest) before = .ok ([result], last, .cancelled) true :=
  Flow.bind_of_ok called

theorem serve_of_ok (called : function.call state argument before = .ok (result, last) false) :
    function.serve state (argument :: rest) before = (withFirst result <$> function.serve last rest) false := by
  rw [map_eq_pure_bind]
  exact Flow.bind_of_ok called

end Serve

end Closure

namespace Stream

variable {Item Result : Type} {stream : Stream Item} {items : List Item}

/-! ## Windows -/

theorem lt_windowCount_iff {length width step index : Nat} (steps : 0 < step) :
    index < windowCount length width step ↔ index * step + width ≤ length := by
  unfold windowCount
  split
  · rename_i short
    exact iff_of_false (Nat.not_lt_zero index) (by omega)
  · rename_i full
    rw [Nat.lt_succ_iff, Nat.le_div_iff_mul_le steps]
    omega

/-- The full windows are those that begin at a multiple of the step and end inside the list. -/
theorem getElem?_windowsOf {width step : Nat} (steps : 0 < step) (items : List Item) (index : Nat) :
    (windowsOf width step items)[index]? =
      if index * step + width ≤ items.length then some ((items.drop (index * step)).take width) else none := by
  rw [windowsOf, slices, List.getElem?_map]
  split
  · rename_i fits
    rw [List.getElem?_range ((lt_windowCount_iff steps).mpr fits), Option.map_some]
  · rename_i beyond
    have past : windowCount items.length width step ≤ index :=
      Nat.le_of_not_lt fun inside => beyond ((lt_windowCount_iff steps).mp inside)
    rw [List.getElem?_eq_none (by rwa [List.length_range]), Option.map_none]

/-- What draining windows shows: the results, where the function is left, and how the stream ended. -/
def shown {stream : Stream Item} {function : Closure (List Item) Result} {width step : Nat}
    (drained : List Result × (stream.windowsBy width step function).Position) :
    List Result × function.State × StreamState :=
  (drained.1, drained.2.1.2.2, drained.2.2.state)

/-- A pull of windows calls the function if a window of the items still to come is full. -/
theorem SuppliesFrom.pull_windowsBy {position : stream.Position} (supplies : stream.SuppliesFrom position items)
    {width : Nat} (step : Nat) (function : Closure (List Item) Result) {window : WindowState Item}
    (settled : window.Settled) (room : window.held.length ≤ max width 1) (state : function.State) :
    ∃ after later,
      (stream.windowsBy width step function).source.pull (position, window, state) false =
        (if max width 1 ≤ (window.coming items).length then do
          let (result, state) ← function.call state ((window.coming items).take (max width 1))
          return (some result, after,
            WindowState.shifted ((window.coming items).take (max width 1)) (max step 1), state)
        else return (none, after, later, state) : Flow _) false ∧
      (max width 1 ≤ (window.coming items).length →
        stream.SuppliesFrom after ((window.coming items).drop (max width 1))) := by
  obtain ⟨after, later, filled, told⟩ := supplies.fillWindow (Nat.le_max_right width 1) settled room
    (Nat.lt_succ_of_le supplies.length_le)
  refine ⟨after, later, (Flow.bind_of_ok filled).trans ?_, fun full => (told full).2⟩
  by_cases full : max width 1 ≤ (window.coming items).length
  · obtain ⟨rfl, -⟩ := told full
    simp only [full, decide_true, if_true]
    rfl
  · simp only [full, decide_false, if_false]
    rfl

theorem drainFrom_of_error {position : stream.Position} {before after : Bool} {fault : Fault} (bound : Nat)
    (stopped : stream.advance position before = .error fault after) :
    stream.drainFrom (bound + 1) position before = .error fault after :=
  Flow.bind_of_error stopped

theorem drainFrom_of_item {position next : stream.Position} {item : Item} {before after : Bool} (bound : Nat)
    (advanced : stream.advance position before = .ok (some item, next) after) :
    stream.drainFrom (bound + 1) position before = (Closure.withFirst item <$> stream.drainFrom bound next) after := by
  rw [map_eq_pure_bind]
  exact Flow.bind_of_ok advanced

/-- Draining makes the calls for the windows that are still to come. -/
theorem SuppliesFrom.served_windowsBy {position : stream.Position} (supplies : stream.SuppliesFrom position items)
    {width step bound : Nat} (function : Closure (List Item) Result) {window : WindowState Item}
    (settled : window.Settled) (room : window.held.length ≤ max width 1) {state : function.State} {meter : Meter}
    (going : meter.state.hasEnded = false)
    (enough : (windowsOf (max width 1) (max step 1) (window.coming items)).length < bound) :
    (shown <$> (stream.windowsBy width step function).drainFrom bound ((position, window, state), meter)) false =
      function.serve state (windowsOf (max width 1) (max step 1) (window.coming items)) false := by
  have positive : 0 < max width 1 := Nat.le_max_right _ _
  have steps : 0 < max step 1 := Nat.le_max_right _ _
  induction bound generalizing position items window state meter with
  | zero => exact absurd enough (Nat.not_lt_zero _)
  | succ bound induction =>
      obtain ⟨after, later, pulled, others⟩ := supplies.pull_windowsBy step function settled room state
      let layer := stream.windowsBy width step function
      let place : layer.Position := ((position, window, state), meter)
      by_cases full : max width 1 ≤ (window.coming items).length
      · let shifted := WindowState.shifted ((window.coming items).take (max width 1)) (max step 1)
        have fits : shifted.held.length ≤ max width 1 :=
          Nat.le_trans (WindowState.length_shifted_le _ _) (List.length_take_le _ _)
        have follow : (window.coming items).drop (max step 1) =
            shifted.coming ((window.coming items).drop (max width 1)) :=
          (WindowState.coming_shifted _ _ _).symm
        rw [windowsOf_step positive steps full, follow] at enough ⊢
        have fewer := Nat.lt_of_succ_lt_succ enough
        rw [if_pos full] at pulled
        cases called : function.call state ((window.coming items).take (max width 1)) false with
        | error fault now =>
            have stopped : layer.advance place false = .error fault now :=
              advance_stopped going (pulled.trans (Flow.bind_of_error called))
            rw [map_eq_pure_bind, Flow.bind_of_error (drainFrom_of_error bound stopped),
              Closure.serve_of_error called]
        | ok answer now =>
            obtain ⟨result, last⟩ := answer
            have ran : layer.source.pull place.1 false = .ok (some result, after, shifted, last) now :=
              pulled.trans (Flow.bind_of_ok called)
            let next : layer.Position := ((after, shifted, last), layer.meterAfter meter now (some result))
            have advanced : layer.advance place false = .ok (some result, next) now := advance_ran going ran
            have drained := drainFrom_of_item bound advanced
            cases now with
            | true =>
                cases bound with
                | zero => exact absurd fewer (Nat.not_lt_zero _)
                | succ bound =>
                    rw [map_eq_pure_bind, Flow.bind_of_ok (drainFrom_late _ _ bound)] at drained
                    rw [map_eq_pure_bind, Flow.bind_of_ok drained, Closure.serve_of_cancelled called]
                    rfl
            | false =>
                have others_drained : (shown <$> layer.drainFrom bound next) false = function.serve last _ false :=
                  induction (others full) (WindowState.settled_shifted _ _) fits rfl fewer
                calc
                  _ = (shown <$> Closure.withFirst result <$> layer.drainFrom bound _) false :=
                      Flow.map_congr drained
                  _ = (Closure.withFirst result <$> shown <$> layer.drainFrom bound _) false := by
                      simp only [Functor.map_map]
                      rfl
                  _ = _ := (Flow.map_congr others_drained).trans (Closure.serve_of_ok called).symm
      · rw [if_neg full] at pulled
        have drained : (layer.drainFrom (bound + 1) place).Answers ([], _) :=
          .bind (advance_pulled going pulled) (.pure _)
        rw [windowsOf_short (Nat.lt_of_not_le full), map_eq_pure_bind, Flow.bind_of_ok drained]
        rfl

/-- Draining the windows of a list calls the function with the slices that begin at a multiple of the step and end
inside the list, in their order, and hands out its results, until it cancels or stops. No other call is made. -/
theorem drain_windowsBy (carries : stream.Carries items) (width step : Nat)
    (function : Closure (List Item) Result) :
    ∃ windows : List (List Item),
      (∀ index, windows[index]? =
        if index * max step 1 + max width 1 ≤ items.length then
          some ((items.drop (index * max step 1)).take (max width 1))
        else none) ∧
      (shown <$> (stream.windowsBy width step function).drain) false =
        function.serve function.state windows false ∧
      ∀ results last calls ending cancelled,
        (shown <$> (stream.windowsBy width step function.remembering).drain) false =
          .ok (results, (last, calls), ending) cancelled →
        calls = windows.take results.length ∧ (cancelled = false → calls = windows) := by
  have steps : 0 < max step 1 := Nat.le_max_right _ _
  have fresh : WindowState.Settled (⟨[], 0⟩ : WindowState Item) := .inl rfl
  have enough : (windowsOf (max width 1) (max step 1) items).length < stream.remainingFrom stream.position + 0 + 1 :=
    Nat.lt_succ_of_le
      (Nat.le_trans (length_windowsOf_le (Nat.le_max_right _ _) _ items) carries.supplies.length_le)
  refine ⟨windowsOf (max width 1) (max step 1) items, getElem?_windowsOf steps items,
    carries.supplies.served_windowsBy function fresh (Nat.zero_le _) rfl enough, ?_⟩
  intro results last calls ending cancelled drained
  have served := (carries.supplies.served_windowsBy function.remembering fresh (Nat.zero_le _) rfl enough).symm.trans
    drained
  obtain ⟨rfl, all⟩ := Closure.of_serve_remembering served
  exact ⟨rfl, fun quiet => List.take_of_length_le (Nat.le_of_eq (all quiet).symm)⟩

/-- Adds up the items of a window, and numbers its calls. -/
abbrev numberedSums : Closure (List Nat) (Nat × Nat) where
  State := Nat
  state := 0
  call count held := return ((count, sumOf held), count + 1)

/-- Windows of two items that begin three items apart: one item is passed over between them, and the last one of seven
fills no window. -/
theorem drain_windowsBy_gapped :
    ((ofList [0, 1, 2, 3, 4, 5, 6, 7]).skip 1).Carries [1, 2, 3, 4, 5, 6, 7] ∧
      (shown <$> (((ofList [0, 1, 2, 3, 4, 5, 6, 7]).skip 1).windowsBy 2 3 numberedSums).drain) false =
        .ok ([(0, 3), (1, 9)], 2, .exhausted) false ∧
      ∀ results last calls ending,
        (shown <$>
          (((ofList [0, 1, 2, 3, 4, 5, 6, 7]).skip 1).windowsBy 2 3 numberedSums.remembering).drain) false =
          .ok (results, (last, calls), ending) false →
        calls = [[1, 2], [4, 5]] := by
  have carries : ((ofList [0, 1, 2, 3, 4, 5, 6, 7]).skip 1).Carries [1, 2, 3, 4, 5, 6, 7] :=
    (carries_ofList _).skip 1
  obtain ⟨windows, told, drained, called⟩ := drain_windowsBy carries 2 3 numberedSums
  have listed : windows = [[1, 2], [4, 5]] := by
    apply List.ext_getElem?
    intro index
    rw [told index]
    match index with
    | 0 | 1 => rfl
    | index + 2 => exact if_neg (show ¬(index + 2) * 3 + 2 ≤ 7 by omega)
  subst listed
  exact ⟨carries, drained, fun results last calls ending ran => (called results last calls ending false ran).2 rfl⟩

end Stream

end TierVault
