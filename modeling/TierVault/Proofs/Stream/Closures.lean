import TierVault.Stream.Closure

/-!
Functions without a state among those that keep one.

A pipeline of functions does the same as the pipeline in which each of them has a state that tells
nothing: the states can be left out of every place of the one stream, and a pull of the other from what
is left is the same pull.
-/

namespace TierVault

/-- Two computations that go on in the same way after parts that told the same. -/
theorem Flow.bind_eq_map {First FirstSeen Last LastSeen : Type} {flow : Flow First}
    {seenFlow : Flow FirstSeen} {next : First → Flow Last} {seenNext : FirstSeen → Flow LastSeen}
    {see : First → FirstSeen} {seeLast : Last → LastSeen} (first : seenFlow = see <$> flow)
    (goes : ∀ result, seenNext (see result) = seeLast <$> next result) :
    seenFlow >>= seenNext = seeLast <$> (flow >>= next) := by
  rw [first, bind_map_left, map_bind]
  exact bind_congr goes

/-- The answer of a function without a state. -/
theorem Closure.eq_map_call {Argument Result : Type} (function : Argument → Flow Result)
    (argument : Argument) :
    function argument = Prod.fst <$> (Closure.ofFunction function).call () argument := by
  simp only [Closure.ofFunction, map_bind, map_pure, bind_pure]

namespace Stream

variable {Item Result : Type}

/-- `other` is the stream with some of the state of its source left out. -/
structure Erases (stream other : Stream Item) (erase : stream.source.Core → other.source.Core) :
    Prop where
  core : other.source.core = erase stream.source.core
  meter : other.meter = stream.meter
  weigh : other.weigh? = stream.weigh?
  remaining : ∀ core, other.source.remaining (erase core) = stream.source.remaining core
  pull : ∀ core, other.source.pull (erase core) = Prod.map id erase <$> stream.source.pull core

namespace Erases

variable {stream other : Stream Item} {erase : stream.source.Core → other.source.Core}

/-- What is left of a position. -/
def onPosition {stream other : Stream Item} (erase : stream.source.Core → other.source.Core)
    (position : stream.Position) : other.Position :=
  (erase position.1, position.2)

theorem advance (erases : stream.Erases other erase) (position : stream.Position) :
    other.advance (onPosition erase position) =
      Prod.map id (onPosition erase) <$> stream.advance position := by
  have measured (cancelled : Bool) (item? : Option Item) :
      other.meterAfter position.2 cancelled item? = stream.meterAfter position.2 cancelled item? := by
    unfold meterAfter weight
    rw [erases.weigh]
  unfold Stream.advance
  by_cases ended : position.2.state.hasEnded = true
  · simp only [onPosition, ended, if_true]
    rfl
  · simp only [onPosition, ended, Bool.false_eq_true, if_false]
    have looked : Flow.isCancelled = id <$> Flow.isCancelled := (id_map _).symm
    apply Flow.bind_eq_map looked
    intro cancelled
    cases cancelled with
    | true => rfl
    | false =>
        apply Flow.bind_eq_map (erases.pull position.1)
        intro pulled
        apply Flow.bind_eq_map looked
        intro cancelled
        simp only [id_eq, Prod.map_fst, Prod.map_snd, measured]
        rfl

/-! ## Loops -/

theorem drainFrom (erases : stream.Erases other erase) (bound : Nat) (position : stream.Position) :
    other.drainFrom bound (onPosition erase position) =
      Prod.map id (onPosition erase) <$> stream.drainFrom bound position := by
  induction bound generalizing position with
  | zero => rfl
  | succ bound induction =>
      apply Flow.bind_eq_map (erases.advance position)
      intro (item?, next)
      cases item? with
      | none => rfl
      | some item =>
          apply Flow.bind_eq_map (induction next)
          intro _
          rfl

theorem discard (erases : stream.Erases other erase) (count : Nat) (position : stream.Position) :
    other.discard count (onPosition erase position) =
      Prod.map id (onPosition erase) <$> stream.discard count position := by
  induction count generalizing position with
  | zero => rfl
  | succ count induction =>
      apply Flow.bind_eq_map (erases.advance position)
      intro (item?, next)
      cases item? with
      | none => rfl
      | some item => exact induction next

/-- Without its state, the function is called with the same items. -/
theorem seek (erases : stream.Erases other erase) (keep : Item → Flow Bool) (bound : Nat)
    (position : stream.Position) :
    other.seek keep bound (onPosition erase position) =
      Prod.map id (fun place => onPosition erase place.1) <$>
        stream.seekBy (.ofFunction keep) bound (position, ()) := by
  induction bound generalizing position with
  | zero => rfl
  | succ bound induction =>
      apply Flow.bind_eq_map (erases.advance position)
      intro (item?, next)
      cases item? with
      | none => rfl
      | some item =>
          apply Flow.bind_eq_map (Closure.eq_map_call keep item)
          intro (kept, _)
          cases kept with
          | true => rfl
          | false => exact induction next

theorem fillWindow (erases : stream.Erases other erase) (width bound : Nat)
    (position : stream.Position) (window : WindowState Item) :
    other.fillWindow width bound (onPosition erase position, window) =
      Prod.map id (Prod.map (onPosition erase) id) <$>
        stream.fillWindow width bound (position, window) := by
  induction bound generalizing position window with
  | zero =>
      unfold Stream.fillWindow
      split <;> rfl
  | succ bound induction =>
      unfold Stream.fillWindow
      by_cases full : width ≤ window.held.length
      · simp only [full, if_true]
        rfl
      · simp only [full, if_false]
        apply Flow.bind_eq_map (erases.advance position)
        intro (item?, next)
        cases item? with
        | none => rfl
        | some item =>
            by_cases passing : 0 < window.pendingSkip
            · simp only [Prod.map_apply, id_eq, passing, if_true]
              exact induction next _
            · simp only [Prod.map_apply, id_eq, passing, if_false]
              exact induction next _

/-! ## Layers -/

theorem position (erases : stream.Erases other erase) :
    other.position = onPosition erase stream.position := by
  simp only [Stream.position, onPosition, erases.core, erases.meter]

theorem remainingFrom (erases : stream.Erases other erase) (position : stream.Position) :
    other.remainingFrom (onPosition erase position) = stream.remainingFrom position :=
  erases.remaining position.1

/-- The place of a layer without the state of the stream below and with what is kept of its own. -/
def onPlace {Own Kept : Type} {stream other : Stream Item}
    (erase : stream.source.Core → other.source.Core) (keep : Own → Kept) :
    stream.Position × Own → other.Position × Kept :=
  Prod.map (onPosition erase) keep

theorem layer (erases : stream.Erases other erase) {Own Kept : Type} (keep : Own → Kept) {own : Own}
    {pull : stream.Position × Own → Flow (Option Result × stream.Position × Own)}
    {otherPull : other.Position × Kept → Flow (Option Result × other.Position × Kept)}
    {remaining : stream.Position × Own → Nat} {otherRemaining : other.Position × Kept → Nat}
    {total? otherTotal? : Option Nat} {chunkSize otherChunkSize : Nat}
    (total : otherTotal? = total?) (chunk : otherChunkSize = chunkSize)
    (bound : ∀ place, otherRemaining (onPlace erase keep place) = remaining place)
    (pulls : ∀ place,
      otherPull (onPlace erase keep place) = Prod.map id (onPlace erase keep) <$> pull place) :
    (stream.layer own pull remaining total? chunkSize).Erases
      (other.layer (keep own) otherPull otherRemaining otherTotal? otherChunkSize)
      (onPlace erase keep) where
  core := congrArg (·, keep own) erases.position
  meter := by rw [Stream.layer, Stream.layer, ofSource, ofSource, total, chunk]
  weigh := rfl
  remaining := bound
  pull := pulls

theorem map (erases : stream.Erases other erase) (transform : Item → Flow Result) :
    (stream.mapBy (.ofFunction transform)).Erases (other.map transform) (onPlace erase id) := by
  apply erases.layer id (congrArg Meter.total? erases.meter) (congrArg Meter.chunkSize erases.meter)
  · intro place
    exact erases.remainingFrom place.1
  · intro place
    apply Flow.bind_eq_map (erases.advance place.1)
    intro (item?, next)
    cases item? with
    | none => rfl
    | some item =>
        apply Flow.bind_eq_map (Closure.eq_map_call transform item)
        intro _
        rfl

theorem filter (erases : stream.Erases other erase) (keep : Item → Flow Bool) :
    (stream.filterBy (.ofFunction keep)).Erases (other.filter keep) (onPlace erase id) := by
  apply erases.layer id rfl (congrArg Meter.chunkSize erases.meter)
  · intro place
    exact erases.remainingFrom place.1
  · intro place
    have sought := erases.seek keep (stream.remainingFrom place.1 + 1) place.1
    change (other.seek keep (other.remainingFrom (onPosition erase place.1) + 1)
      (onPosition erase place.1) >>= fun found => pure (found.1, found.2, ())) = _
    rw [erases.remainingFrom, sought, bind_map_left]
    exact bind_pure_comp _ _

theorem batch (erases : stream.Erases other erase) (size : Nat) :
    (stream.batch size).Erases (other.batch size) (onPlace erase id) := by
  apply erases.layer id (by rw [erases.meter]) rfl
  · intro place
    exact erases.remainingFrom place.1
  · intro place
    apply Flow.bind_eq_map (erases.drainFrom (max size 1) place.1)
    intro (items, next)
    have ended : (onPosition erase next).2 = next.2 := rfl
    simp only [Prod.map_apply, id_eq, ended]
    split <;> rfl

theorem take (erases : stream.Erases other erase) (count : Nat) :
    (stream.take count).Erases (other.take count) (onPlace erase id) := by
  apply erases.layer id (by rw [erases.meter]) (congrArg Meter.chunkSize erases.meter)
  · intro place
    exact congrArg (min place.2) (erases.remainingFrom place.1)
  · intro (position, left)
    cases left with
    | zero => rfl
    | succ left =>
        apply Flow.bind_eq_map (erases.advance position)
        intro _
        rfl

theorem skip (erases : stream.Erases other erase) (count : Nat) :
    (stream.skip count).Erases (other.skip count) (onPlace erase id) := by
  apply erases.layer id (by rw [erases.meter]) (congrArg Meter.chunkSize erases.meter)
  · intro place
    exact erases.remainingFrom place.1
  · intro (position, left)
    apply Flow.bind_eq_map (erases.discard left position)
    intro (there, next)
    cases there with
    | false => rfl
    | true =>
        apply Flow.bind_eq_map (erases.advance next)
        intro _
        rfl

theorem windows (erases : stream.Erases other erase) (width step : Nat)
    (transform : List Item → Flow Result) :
    (stream.windowsBy width step (.ofFunction transform)).Erases
      (other.windows width step transform) (onPlace erase Prod.fst) := by
  apply erases.layer Prod.fst rfl rfl
  · intro place
    exact congrArg (· + place.2.1.held.length) (erases.remainingFrom place.1)
  · intro (position, window, _)
    have filled : other.fillWindow (max width 1)
        (other.remainingFrom (onPosition erase position) + 1) (onPosition erase position, window) =
          Prod.map id (Prod.map (onPosition erase) id) <$>
            stream.fillWindow (max width 1) (stream.remainingFrom position + 1)
              (position, window) := by
      rw [erases.remainingFrom]
      exact erases.fillWindow _ _ position window
    apply Flow.bind_eq_map filled
    intro (full, next, later)
    cases full with
    | false => rfl
    | true =>
        apply Flow.bind_eq_map (Closure.eq_map_call transform later.held)
        intro _
        rfl

end Erases

end Stream

/-- A pipeline of functions is a pipeline of functions with a state, the state left out. -/
theorem Pipeline.erases_withState {Item Result : Type} (pipeline : Pipeline Item Result)
    {stream other : Stream Item} {erase : stream.source.Core → other.source.Core}
    (erases : stream.Erases other erase) :
    ∃ eraseAll, (pipeline.withState.apply stream).Erases (pipeline.apply other) eraseAll := by
  induction pipeline with
  | done => exact ⟨erase, erases⟩
  | map transform rest induction => exact induction (erases.map transform)
  | filter keep rest induction => exact induction (erases.filter keep)
  | batch size rest induction => exact induction (erases.batch size)
  | take count rest induction => exact induction (erases.take count)
  | skip count rest induction => exact induction (erases.skip count)
  | windows width step transform rest induction =>
      exact induction (erases.windows width step transform)

end TierVault
