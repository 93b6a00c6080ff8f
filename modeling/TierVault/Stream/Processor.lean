import TierVault.Config.Basic
import TierVault.Stream.Transform

/-!
Work on streams with the configured settings: producers and a pool of workers.

The workers take batches of items. A batch in which the function stops with a fault gives no results;
the results of the other batches are all handed out.
-/

namespace TierVault

structure Processor where
  workers : Nat
  batchSize : Nat
  bufferSize : Nat
  pollMilliseconds : Nat
  deriving DecidableEq, Inhabited

namespace Processor

/-- Every setting is at least 1. -/
def ofConfig (config : StreamConfig) : Processor where
  workers := max config.workers 1
  batchSize := max config.parallelBatchSize 1
  bufferSize := max config.bufferSize 1
  pollMilliseconds := max config.pollMilliseconds 1

/-- The items that a producer hands over through a buffer of the configured size. -/
def produce {Item : Type} (processor : Processor) (items : List Item) : Stream Item :=
  .ofProducer processor.bufferSize items

/-- The results for a batch; none of them if the function stops with a fault. -/
def workBatch {Item Result : Type} (work : Item → Flow Result) (batch : List Item) :
    Flow (List Result) := fun cancelled =>
  match batch.mapM work cancelled with
  | .ok results cancelled => .ok results cancelled
  | .error _ cancelled => .ok [] cancelled

/-- Pulls batches and works on each. A fault of the stream itself ends it. -/
def workBatches {Item Result : Type} (batches : Stream (List Item)) (work : Item → Flow Result) :
    (bound : Nat) → batches.Position → Flow (List (List Result))
  | 0, _ => return []
  | bound + 1, position => fun cancelled =>
    match batches.advance position cancelled with
    | .error _ cancelled => .ok [] cancelled
    | .ok (none, _) cancelled => .ok [] cancelled
    | .ok (some batch, position) cancelled =>
      (do
        let results ← workBatch work batch
        let others ← workBatches batches work bound position
        return results :: others) cancelled

/-- The channels of the pool, whose sizes must be words: two batches for each worker, and a batch of
results for each. -/
def channels (processor : Processor) : Except Fault (Nat × Nat) := do
  let jobs ← Word.product processor.workers 2
  let results ← Word.product processor.batchSize processor.workers
  return (jobs, results)

/-- The results for the items of a stream, a list for each batch. -/
def workOn {Item Result : Type} (processor : Processor) (stream : Stream Item)
    (work : Item → Flow Result) : Flow (List (List Result)) := do
  let _ ← Action.ofExcept processor.channels
  let batches := stream.batch processor.batchSize
  workBatches batches work (batches.remaining + 1) batches.position

/-- The stream that hands out the results. -/
def resultStream {Result : Type} (processor : Processor) (results : List (List Result)) :
    Stream Result :=
  .ofSource (.ofList results.flatten) none processor.batchSize none

end Processor

end TierVault
