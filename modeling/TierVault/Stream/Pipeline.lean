import TierVault.Stream.Transform

/-!
Pipelines: transforms one after the other.
-/

namespace TierVault

/-- What happens to items on their way from a source to a consumer. -/
inductive Pipeline : Type → Type → Type 1
  | done {Item : Type} : Pipeline Item Item
  | map {Item Middle Result : Type} (transform : Item → Flow Middle)
      (rest : Pipeline Middle Result) : Pipeline Item Result
  | filter {Item Result : Type} (keep : Item → Flow Bool) (rest : Pipeline Item Result) :
      Pipeline Item Result
  | batch {Item Result : Type} (size : Nat) (rest : Pipeline (List Item) Result) :
      Pipeline Item Result
  | take {Item Result : Type} (count : Nat) (rest : Pipeline Item Result) : Pipeline Item Result
  | skip {Item Result : Type} (count : Nat) (rest : Pipeline Item Result) : Pipeline Item Result
  | windows {Item Middle Result : Type} (width step : Nat)
      (transform : List Item → Flow Middle) (rest : Pipeline Middle Result) : Pipeline Item Result

namespace Pipeline

/-- The stream that the pipeline makes of a stream. -/
def apply {Item Result : Type} : Pipeline Item Result → Stream Item → Stream Result
  | done, stream => stream
  | map transform rest, stream => rest.apply (stream.map transform)
  | filter keep rest, stream => rest.apply (stream.filter keep)
  | batch size rest, stream => rest.apply (stream.batch size)
  | take count rest, stream => rest.apply (stream.take count)
  | skip count rest, stream => rest.apply (stream.skip count)
  | windows width step transform rest, stream => rest.apply (stream.windows width step transform)

end Pipeline

end TierVault
