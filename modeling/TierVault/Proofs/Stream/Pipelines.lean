import TierVault.Proofs.Stream.Transforms
import TierVault.Stream.Pipeline

/-!
What pipelines compute, and that they answer.

The functions of a pure pipeline give a result for every item and never cancel. Such a pipeline computes
a function on lists, put together from functions on lists as the pipeline is from transforms.

Where nobody cancels, a pull of a calm stream ends with an answer, from every place of its source. The
transforms of a calm stream with functions that only compute are calm.
-/

namespace TierVault

/-! # Pure pipelines -/

/-- Pipelines whose functions do nothing but compute. -/
inductive PurePipeline : Type → Type → Type 1
  | done {Item : Type} : PurePipeline Item Item
  | map {Item Middle Result : Type} (transform : Item → Middle)
      (rest : PurePipeline Middle Result) : PurePipeline Item Result
  | filter {Item Result : Type} (keep : Item → Bool) (rest : PurePipeline Item Result) :
      PurePipeline Item Result
  | batch {Item Result : Type} (size : Nat) (rest : PurePipeline (List Item) Result) :
      PurePipeline Item Result
  | take {Item Result : Type} (count : Nat) (rest : PurePipeline Item Result) :
      PurePipeline Item Result
  | skip {Item Result : Type} (count : Nat) (rest : PurePipeline Item Result) :
      PurePipeline Item Result
  | windows {Item Middle Result : Type} (width step : Nat) (transform : List Item → Middle)
      (rest : PurePipeline Middle Result) : PurePipeline Item Result

namespace PurePipeline

variable {Item Result : Type}

def toPipeline {Item Result : Type} : PurePipeline Item Result → Pipeline Item Result
  | done => .done
  | map transform rest => .map (fun item => pure (transform item)) rest.toPipeline
  | filter keep rest => .filter (fun item => pure (keep item)) rest.toPipeline
  | batch size rest => .batch size rest.toPipeline
  | take count rest => .take count rest.toPipeline
  | skip count rest => .skip count rest.toPipeline
  | windows width step transform rest =>
    .windows width step (fun held => pure (transform held)) rest.toPipeline

/-- The function on lists. A size, width or step of 0 counts as 1. -/
def onList {Item Result : Type} : PurePipeline Item Result → List Item → List Result
  | done, items => items
  | map transform rest, items => rest.onList (items.map transform)
  | filter keep rest, items => rest.onList (items.filter keep)
  | batch size rest, items => rest.onList (batchesOf (max size 1) items)
  | take count rest, items => rest.onList (items.take count)
  | skip count rest, items => rest.onList (items.drop count)
  | windows width step transform rest, items =>
    rest.onList ((windowsOf (max width 1) (max step 1) items).map transform)

/-- A pipeline over a stream that carries a list makes a stream that carries the image of the list. -/
theorem carries_apply (pipeline : PurePipeline Item Result) {stream : Stream Item}
    {items : List Item} (carries : stream.Carries items) :
    (pipeline.toPipeline.apply stream).Carries (pipeline.onList items) := by
  induction pipeline with
  | done => exact carries
  | map transform rest induction => exact induction (carries.map transform)
  | filter keep rest induction => exact induction (carries.filter keep)
  | batch size rest induction => exact induction (carries.batch size)
  | take count rest induction => exact induction (carries.take count)
  | skip count rest induction => exact induction (carries.skip count)
  | windows width step transform rest induction =>
      exact induction (carries.windows width step transform)

/-- Over the stream of a list, collecting everything gives the image of the list under the pipeline,
collecting up to a limit gives the beginning of the image, and a total that is known is its length. -/
theorem collect_answers (pipeline : PurePipeline Item Result) (items : List Item) :
    let stream := pipeline.toPipeline.apply (.ofList items)
    (stream.collect none).Answers (pipeline.onList items) ∧
      (∀ limit, (stream.collect (some limit)).Answers ((pipeline.onList items).take limit)) ∧
      ∀ total, stream.meter.total? = some total → total = (pipeline.onList items).length := by
  have carries := pipeline.carries_apply (Stream.carries_ofList items)
  exact ⟨carries.collect none, fun limit => carries.collect (some limit), carries.total⟩

/-- A window of three begins after every item that is not passed over; the short batch stays. -/
example :
    onList (.skip 1 (.windows 3 2 List.sum (.batch 2 .done))) [1, 2, 3, 4, 5, 6, 7, 8] =
      [[9, 15], [21]] := by
  decide

end PurePipeline

/-! # Calm streams -/

/-- The computation ends with an answer, and leaves a pipeline that was not cancelled so. -/
def Flow.Calm {Result : Type} (flow : Flow Result) : Prop := ∃ result, flow.Answers result

namespace Flow.Calm

variable {Result Next : Type}

theorem pure (result : Result) : Flow.Calm (Pure.pure result) := ⟨result, .pure result⟩

theorem bind {flow : Flow Result} {next : Result → Flow Next} (first : flow.Calm)
    (goes : ∀ result, (next result).Calm) : Flow.Calm (flow >>= next) := by
  obtain ⟨middle, told⟩ := first
  obtain ⟨result, ends⟩ := goes middle
  exact ⟨result, .bind told ends⟩

end Flow.Calm

namespace Stream

variable {Item Result : Type}

/-- Every pull of the source ends with an answer. -/
def Calm (stream : Stream Item) : Prop := ∀ core, (stream.source.pull core).Calm

namespace Calm

variable {stream : Stream Item}

theorem advance (calm : stream.Calm) (position : stream.Position) :
    (stream.advance position).Calm := by
  cases ended : position.2.state.hasEnded with
  | true => exact ⟨_, advance_ended ended⟩
  | false =>
      obtain ⟨_, pulled⟩ := calm position.1
      exact ⟨_, advance_pulled ended pulled⟩

/-! ## Loops -/

theorem drainFrom (calm : stream.Calm) (bound : Nat) (position : stream.Position) :
    (stream.drainFrom bound position).Calm := by
  induction bound generalizing position with
  | zero => exact .pure _
  | succ bound induction =>
      apply Flow.Calm.bind (calm.advance position)
      intro (item?, next)
      cases item? with
      | none => exact .pure _
      | some item => exact .bind (induction next) fun _ => .pure _

theorem seek (calm : stream.Calm) (keep : Item → Bool) (bound : Nat) (position : stream.Position) :
    (stream.seek (fun item => pure (keep item)) bound position).Calm := by
  induction bound generalizing position with
  | zero => exact .pure _
  | succ bound induction =>
      apply Flow.Calm.bind (calm.advance position)
      intro (item?, next)
      cases item? with
      | none => exact .pure _
      | some item =>
          apply Flow.Calm.bind (.pure (keep item))
          intro kept
          cases kept with
          | true => exact .pure _
          | false => exact induction next

theorem discard (calm : stream.Calm) (count : Nat) (position : stream.Position) :
    (stream.discard count position).Calm := by
  induction count generalizing position with
  | zero => exact .pure _
  | succ count induction =>
      apply Flow.Calm.bind (calm.advance position)
      intro (item?, next)
      cases item? with
      | none => exact .pure _
      | some item => exact induction next

theorem fillWindow (calm : stream.Calm) (width bound : Nat) (position : stream.Position)
    (window : WindowState Item) : (stream.fillWindow width bound (position, window)).Calm := by
  induction bound generalizing position window with
  | zero =>
      unfold Stream.fillWindow
      split <;> exact .pure _
  | succ bound induction =>
      unfold Stream.fillWindow
      split
      · exact .pure _
      · apply Flow.Calm.bind (calm.advance position)
        rintro ⟨item?, next⟩
        cases item? with
        | none => exact .pure _
        | some item =>
            dsimp only
            split <;> exact induction next _

/-! ## Layers -/

theorem map (calm : stream.Calm) (transform : Item → Result) :
    (stream.map fun item => pure (transform item)).Calm := by
  intro (position, _)
  apply Flow.Calm.bind (calm.advance position)
  intro (item?, next)
  cases item? with
  | none => exact .pure _
  | some item => exact .bind (.pure _) fun _ => .pure _

theorem filter (calm : stream.Calm) (keep : Item → Bool) :
    (stream.filter fun item => pure (keep item)).Calm := by
  intro (position, _)
  exact .bind (calm.seek keep _ position) fun _ => .pure _

theorem batch (calm : stream.Calm) (size : Nat) : (stream.batch size).Calm := by
  intro (position, _)
  apply Flow.Calm.bind (calm.drainFrom _ position)
  intro (items, next)
  dsimp only
  split <;> exact .pure _

theorem take (calm : stream.Calm) (count : Nat) : (stream.take count).Calm := by
  intro (position, left)
  cases left with
  | zero => exact .pure _
  | succ left => exact .bind (calm.advance position) fun _ => .pure _

theorem skip (calm : stream.Calm) (count : Nat) : (stream.skip count).Calm := by
  intro (position, left)
  apply Flow.Calm.bind (calm.discard left position)
  intro (there, next)
  cases there with
  | false => exact .pure _
  | true => exact .bind (calm.advance next) fun _ => .pure _

theorem windows (calm : stream.Calm) (width step : Nat) (transform : List Item → Result) :
    (stream.windows width step fun held => pure (transform held)).Calm := by
  intro (position, window)
  apply Flow.Calm.bind (calm.fillWindow _ _ position window)
  intro (full, next, later)
  cases full with
  | false => exact .pure _
  | true => exact .bind (.pure _) fun _ => .pure _

end Calm

end Stream

theorem PurePipeline.calm_apply {Item Result : Type} (pipeline : PurePipeline Item Result)
    {stream : Stream Item} (calm : stream.Calm) : (pipeline.toPipeline.apply stream).Calm := by
  induction pipeline with
  | done => exact calm
  | map transform rest induction => exact induction (calm.map transform)
  | filter keep rest induction => exact induction (calm.filter keep)
  | batch size rest induction => exact induction (calm.batch size)
  | take count rest induction => exact induction (calm.take count)
  | skip count rest induction => exact induction (calm.skip count)
  | windows width step transform rest induction =>
      exact induction (calm.windows width step transform)

end TierVault
