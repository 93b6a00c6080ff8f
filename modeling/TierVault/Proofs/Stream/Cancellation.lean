import TierVault.Proofs.Stream.Closures
import TierVault.Proofs.Stream.Shadows

/-!
Pulling a pipeline that is cancelled.

A consumer pulls the outermost stream again and again; the pipeline may be cancelled before any of the
pulls, and by the functions and the source of the pipeline during any of them. What is handed out is a
beginning of what the pipeline hands out where nobody cancels, and the stream ends as cancelled.
-/

namespace TierVault

/-! ## Pipelines that compute -/

/-- Every pull of the source makes the step, and may cancel the pipeline. -/
def Source.Computes {Item : Type} (source : Source Item)
    (step : source.Core → Option Item × source.Core) : Prop :=
  ∀ core cancelled, ∃ after,
    source.pull core cancelled = .ok (step core) after ∧ (cancelled = true → after = true)

/-- The source that makes the same steps and does not cancel. -/
def Source.calm {Item : Type} (source : Source Item)
    (step : source.Core → Option Item × source.Core) : Source Item :=
  { source with pull := fun core => pure (step core) }

theorem Source.ofList_computes {Item : Type} (items : List Item) :
    (Source.ofList items).Computes fun items => (items.head?, items.tail) := by
  intro items cancelled
  cases items with
  | nil => exact ⟨cancelled, rfl, id⟩
  | cons item rest => exact ⟨cancelled, rfl, id⟩

theorem Source.calm_ofList {Item : Type} (items : List Item) :
    (Source.ofList items).calm (fun items => (items.head?, items.tail)) = .ofList items := by
  unfold Source.calm Source.ofList
  congr 1
  funext items
  cases items <;> rfl

/-- The functions of the one pipeline compute those of the other at every call, and may cancel. -/
inductive ClosurePipeline.Computes : {Item Result : Type} → ClosurePipeline Item Result →
    PurePipeline Item Result → Prop
  | done {Item : Type} : Computes (.done : ClosurePipeline Item Item) .done
  | map {Item Middle Result : Type} {transform : Closure Item Middle} {function : Item → Middle}
      {rest : ClosurePipeline Middle Result} {functions : PurePipeline Middle Result}
      (first : transform.Computes function) (others : Computes rest functions) :
      Computes (.map transform rest) (.map function functions)
  | filter {Item Result : Type} {keep : Closure Item Bool} {kept : Item → Bool}
      {rest : ClosurePipeline Item Result} {functions : PurePipeline Item Result}
      (first : keep.Computes kept) (others : Computes rest functions) :
      Computes (.filter keep rest) (.filter kept functions)
  | batch {Item Result : Type} (size : Nat) {rest : ClosurePipeline (List Item) Result}
      {functions : PurePipeline (List Item) Result} (others : Computes rest functions) :
      Computes (.batch size rest) (.batch size functions)
  | take {Item Result : Type} (count : Nat) {rest : ClosurePipeline Item Result}
      {functions : PurePipeline Item Result} (others : Computes rest functions) :
      Computes (.take count rest) (.take count functions)
  | skip {Item Result : Type} (count : Nat) {rest : ClosurePipeline Item Result}
      {functions : PurePipeline Item Result} (others : Computes rest functions) :
      Computes (.skip count rest) (.skip count functions)
  | windows {Item Middle Result : Type} (width step : Nat)
      {transform : Closure (List Item) Middle} {function : List Item → Middle}
      {rest : ClosurePipeline Middle Result} {functions : PurePipeline Middle Result}
      (first : transform.Computes function) (others : Computes rest functions) :
      Computes (.windows width step transform rest) (.windows width step function functions)

theorem ClosurePipeline.Computes.shadows {Item Result : Type}
    {pipeline : ClosurePipeline Item Result} {functions : PurePipeline Item Result}
    (computes : pipeline.Computes functions) {stream calm : Stream Item}
    {related : stream.source.Core → calm.source.Core → Prop}
    (shadows : stream.Shadows calm related) :
    ∃ related, (pipeline.apply stream).Shadows (functions.toPipeline.apply calm) related := by
  induction computes with
  | done => exact ⟨related, shadows⟩
  | map first others induction => exact induction (shadows.map first)
  | filter first others induction => exact induction (shadows.filter first)
  | batch size others induction => exact induction (shadows.batch size)
  | take count others induction => exact induction (shadows.take count)
  | skip count others induction => exact induction (shadows.skip count)
  | windows width step first others induction => exact induction (shadows.windows width step first)

theorem Source.Computes.shadows {Item : Type} {source : Source Item}
    {step : source.Core → Option Item × source.Core} (computes : source.Computes step)
    (total? : Option Nat) (chunkSize : Nat) (weigh? : Option (Item → Nat)) :
    (Stream.ofSource source total? chunkSize weigh?).Shadows
      (.ofSource (source.calm step) total? chunkSize weigh?) Eq where
  start := rfl
  meter := rfl
  weigh := rfl
  remaining := by
    rintro core _ rfl
    rfl
  pull := by
    rintro core _ rfl
    obtain ⟨after, pulled, stays⟩ := computes core false
    refine ⟨step core, after, step core, pulled, stays, .pure _, ?_⟩
    cases after with
    | false => exact ⟨rfl, rfl⟩
    | true => exact .inr rfl
  answers := fun core => .pure (step core)

/-! ## Pulls one after the other -/

/-- A pull, as the consumer of the stream sees it. -/
structure Pull (Item : Type) where
  /-- The pipeline was cancelled before the pull began. -/
  late : Bool
  before : StreamState
  item? : Option Item
  after : StreamState
  /-- The pipeline was cancelled when the pull ended. -/
  cancelled : Bool

namespace Stream

variable {Item Result : Type}

/-- A pull for every entry of the list; an entry tells whether the pipeline is cancelled before it. -/
def pulls (stream : Stream Item) : (cancels : List Bool) → stream.Position → Flow (List (Pull Item))
  | [], _ => return []
  | cancel :: cancels, position => do
    if cancel then Flow.cancel
    let late ← Flow.isCancelled
    let (item?, after) ← stream.advance position
    let cancelled ← Flow.isCancelled
    let others ← pulls stream cancels after
    return ⟨late, position.2.state, item?, after.2.state, cancelled⟩ :: others

/-- The items that pulls hand out. -/
def handed (run : List (Pull Item)) : List Item := run.filterMap Pull.item?

/-- How a stream bears a cancellation. -/
structure EndsCancelled (run : List (Pull Item)) : Prop where
  /-- The pipeline stays cancelled. -/
  stays : run.Pairwise fun earlier later => earlier.cancelled = true → later.late = true
  /-- A pull that begins after the cancellation hands out nothing. -/
  late : ∀ pull ∈ run, pull.late = true → pull.item? = none
  /-- A stream that is cancelled ends so, unless it had come to its end before. -/
  ends : ∀ pull ∈ run, pull.cancelled = true → pull.item? = none → pull.before ≠ .exhausted →
    pull.after = .cancelled
  /-- A stream that has ended hands out nothing, and its state does not change. -/
  rests : run.Pairwise fun earlier later => earlier.after.hasEnded = true →
    later.item? = none ∧ later.after = earlier.after

theorem EndsCancelled.nil : EndsCancelled ([] : List (Pull Item)) where
  stays := .nil
  late := fun _ member => nomatch member
  ends := fun _ member => nomatch member
  rests := .nil

theorem EndsCancelled.cons {pull : Pull Item} {run : List (Pull Item)} (others : EndsCancelled run)
    (stays : pull.cancelled = true → ∀ later ∈ run, later.late = true)
    (late : pull.late = true → pull.item? = none)
    (ends : pull.cancelled = true → pull.item? = none → pull.before ≠ .exhausted →
      pull.after = .cancelled)
    (rests : pull.after.hasEnded = true → ∀ later ∈ run,
      later.item? = none ∧ later.after = pull.after) : EndsCancelled (pull :: run) where
  stays := .cons (fun later member was => stays was later member) others.stays
  late := List.forall_mem_cons.mpr ⟨late, others.late⟩
  ends := List.forall_mem_cons.mpr ⟨ends, others.ends⟩
  rests := .cons (fun later member ended => rests ended later member) others.rests

/-! ## One pull and those after it -/

section

variable {stream : Stream Item} {cancels : List Bool} {position next : stream.Position}

theorem pulls_cons {cancel flag now final : Bool} {item? : Option Item} {run : List (Pull Item)}
    (advanced : stream.advance position (flag || cancel) = .ok (item?, next) now)
    (others : stream.pulls cancels next now = .ok run final) :
    stream.pulls (cancel :: cancels) position flag =
      .ok (⟨flag || cancel, position.2.state, item?, next.2.state, now⟩ :: run) final := by
  have looked (late : Bool) : Flow.isCancelled late = .ok late late := rfl
  cases cancel with
  | false =>
      rw [Bool.or_false] at advanced ⊢
      simp only [pulls, Bool.false_eq_true, if_false, Bind.bind, EStateM.bind, looked, advanced,
        others]
      rfl
  | true =>
      rw [Bool.or_true] at advanced ⊢
      have cancelled : Flow.cancel flag = .ok ⟨⟩ true := rfl
      simp only [pulls, if_true, Bind.bind, EStateM.bind, cancelled, looked, advanced, others]
      rfl

theorem lateAfter_ended (position : stream.Position) :
    (stream.lateAfter position).2.state.hasEnded = true := by
  unfold lateAfter
  split
  · assumption
  · rfl

theorem lateAfter_of_ended (ended : position.2.state.hasEnded = true) :
    stream.lateAfter position = position :=
  if_pos ended

theorem advance_rest (ended : position.2.state.hasEnded = true) (flag : Bool) :
    stream.advance position flag = .ok (none, position) flag := by
  cases flag with
  | false => exact advance_ended ended
  | true => rw [advance_late, lateAfter_of_ended ended]

/-- Where a stream has ended, no pull hands out anything or changes the state. -/
theorem pulls_rest (ended : position.2.state.hasEnded = true) (cancels : List Bool) (flag : Bool) :
    ∃ run final, stream.pulls cancels position flag = .ok run final ∧
      ∀ pull ∈ run, pull.item? = none ∧ pull.after = position.2.state := by
  induction cancels generalizing flag with
  | nil => exact ⟨[], flag, rfl, fun _ member => nomatch member⟩
  | cons cancel cancels induction =>
      obtain ⟨run, final, others, told⟩ := induction (flag || cancel)
      exact ⟨_, final, pulls_cons (advance_rest ended _) others,
        List.forall_mem_cons.mpr ⟨⟨rfl, rfl⟩, told⟩⟩

/-- Pulls of a pipeline that was cancelled hand out nothing. -/
theorem pulls_late (cancels : List Bool) (position : stream.Position) :
    ∃ run, stream.pulls cancels position true = .ok run true ∧ EndsCancelled run ∧
      ∀ pull ∈ run, pull.late = true ∧ pull.item? = none ∧
        pull.after = (stream.lateAfter position).2.state := by
  induction cancels generalizing position with
  | nil => exact ⟨[], rfl, .nil, fun _ member => nomatch member⟩
  | cons cancel cancels induction =>
      obtain ⟨run, others, honours, told⟩ := induction (stream.lateAfter position)
      rw [lateAfter_of_ended (lateAfter_ended position)] at told
      have advanced : stream.advance position (true || cancel) =
          .ok (none, stream.lateAfter position) true := advance_late stream position
      refine ⟨_, pulls_cons advanced others, ?_, List.forall_mem_cons.mpr ⟨⟨rfl, rfl, rfl⟩, told⟩⟩
      apply honours.cons
      · exact fun _ later member => (told later member).1
      · exact fun _ => rfl
      · intro _ _ unspent
        unfold lateAfter
        split
        · cases state : position.2.state with
          | exhausted => exact absurd state unspent
          | cancelled => rfl
          | created | iterating => simp only [state, StreamState.hasEnded, Bool.false_eq_true] at *
        · rfl
      · exact fun _ later member => (told later member).2

theorem handed_cons (pull : Pull Item) (run : List (Pull Item)) :
    handed (pull :: run) = pull.item?.toList ++ handed run := by
  unfold handed
  cases told : pull.item? with
  | none => rw [List.filterMap_cons_none told, Option.toList_none, List.nil_append]
  | some item => rw [List.filterMap_cons_some told, Option.toList_some, List.singleton_append]

theorem handed_late {run : List (Pull Item)} (nothing : ∀ pull ∈ run, pull.item? = none) :
    handed run = [] :=
  List.filterMap_eq_nil_iff.mpr nothing

end

/-! ## The whole run -/

theorem Calm.pulls {stream : Stream Item} (calm : stream.Calm) (count : Nat)
    (position : stream.Position) : (stream.pulls (List.replicate count false) position).Calm := by
  induction count generalizing position with
  | zero => exact .pure _
  | succ count induction =>
      obtain ⟨⟨_, next⟩, advanced⟩ := calm.advance position
      obtain ⟨_, others⟩ := induction next
      exact ⟨_, pulls_cons advanced others⟩

theorem Shadows.pulls {stream calm : Stream Item}
    {related : stream.source.Core → calm.source.Core → Prop}
    (shadows : stream.Shadows calm related) {position : stream.Position} {due : calm.Position}
    (aligned : Aligned related position due) (cancels : List Bool) :
    ∃ run cancelled quiet,
      stream.pulls cancels position false = .ok run cancelled ∧
        (calm.pulls (List.replicate cancels.length false) due).Answers quiet ∧
        handed run <+: handed quiet ∧ (cancelled = false → handed run = handed quiet) ∧
        EndsCancelled run := by
  induction cancels generalizing position due with
  | nil => exact ⟨[], false, [], rfl, rfl, List.prefix_rfl, fun _ => rfl, .nil⟩
  | cons cancel cancels induction =>
      cases cancel with
      | true =>
          obtain ⟨run, others, honours, told⟩ := pulls_late (true :: cancels) position
          obtain ⟨quiet, answers⟩ := shadows.answers.pulls (cancels.length + 1) due
          have nothing : handed run = [] := handed_late fun pull member => (told pull member).2.1
          refine ⟨run, true, quiet, others, answers, ?_, Bool.noConfusion, honours⟩
          rw [nothing]
          exact List.nil_prefix
      | false =>
          obtain ⟨⟨item?, next⟩, now, ⟨dueItem?, dueNext⟩, advanced, -, answers, pulled⟩ :=
            shadows.advance aligned
          cases now with
          | false =>
              obtain ⟨same, later⟩ := pulled
              cases same
              obtain ⟨run, cancelled, quiet, others, quietOthers, begins, equal, honours⟩ :=
                induction later
              refine ⟨_, cancelled, _, pulls_cons advanced others, pulls_cons answers quietOthers,
                ?_, ?_, ?_⟩
              · rw [handed_cons, handed_cons]
                exact (List.prefix_append_right_inj _).mpr begins
              · intro quietly
                rw [handed_cons, handed_cons, equal quietly]
              · apply honours.cons
                · exact Bool.noConfusion
                · exact Bool.noConfusion
                · exact Bool.noConfusion
                · intro ended
                  obtain ⟨rest, _, restPulled, told⟩ := pulls_rest ended cancels false
                  rw [others] at restPulled
                  cases restPulled
                  exact told
          | true =>
              obtain ⟨run, others, honours, told⟩ := pulls_late cancels next
              obtain ⟨quiet, quietOthers⟩ := shadows.answers.pulls cancels.length dueNext
              refine ⟨_, true, _, pulls_cons advanced others, pulls_cons answers quietOthers, ?_,
                Bool.noConfusion, ?_⟩
              · rw [handed_cons, handed_cons, handed_late fun pull member => (told pull member).2.1,
                  List.append_nil]
                obtain ⟨nothing, -⟩ | ⟨same, -⟩ := pulled
                · cases nothing
                  exact List.nil_prefix
                · cases same
                  exact List.prefix_append _ _
              · apply honours.cons
                · exact fun _ later member => (told later member).1
                · exact Bool.noConfusion
                · rintro - nothing -
                  obtain ⟨-, ended⟩ | ⟨-, given, -⟩ := pulled
                  · exact ended
                  · cases nothing
                    cases given
                · intro ended later member
                  rw [← lateAfter_of_ended ended]
                  exact (told later member).2

/-- Without the states, the pulls are the same. -/
theorem Erases.pulls {stream other : Stream Item} {erase : stream.source.Core → other.source.Core}
    (erases : stream.Erases other erase) (cancels : List Bool) (position : stream.Position) :
    other.pulls cancels (Erases.onPosition erase position) = stream.pulls cancels position := by
  induction cancels generalizing position with
  | nil => rfl
  | cons cancel cancels induction =>
      simp only [Stream.pulls, erases.advance, bind_map_left, Prod.map_fst, Prod.map_snd, id_eq,
        induction]
      rfl

theorem erases_self (stream : Stream Item) : stream.Erases stream id where
  core := rfl
  meter := rfl
  weigh := rfl
  remaining := fun _ => rfl
  pull := fun _ => (id_map _).symm

/-- Pulls of a supplied list hand out its items. -/
theorem SuppliesFrom.pulls {stream : Stream Item} {position : stream.Position} {items : List Item}
    (supplies : stream.SuppliesFrom position items) (count : Nat) :
    ∃ run, (stream.pulls (List.replicate count false) position).Answers run ∧
      handed run = items.take count := by
  induction count generalizing position items with
  | zero => exact ⟨[], rfl, rfl⟩
  | succ count induction =>
      obtain ⟨next, advanced, others⟩ := supplies.advance
      obtain ⟨run, pulled, hands⟩ := induction others
      refine ⟨_, pulls_cons advanced pulled, ?_⟩
      rw [handed_cons, hands]
      cases items with
      | nil => simp only [List.head?_nil, List.tail_nil, List.take_nil, Option.toList_none,
          List.nil_append]
      | cons item rest => rfl

end Stream

/-- A pipeline of functions without a state is pulled as the one in which their states tell nothing. -/
theorem Pipeline.pulls_withState {Item Result : Type} (pipeline : Pipeline Item Result)
    (stream : Stream Item) (cancels : List Bool) :
    (pipeline.apply stream).pulls cancels (pipeline.apply stream).position =
      (pipeline.withState.apply stream).pulls cancels (pipeline.withState.apply stream).position := by
  obtain ⟨erase, erases⟩ := pipeline.erases_withState stream.erases_self
  rw [erases.position]
  exact erases.pulls cancels _

namespace ClosurePipeline

variable {Item Result : Type} {pipeline : ClosurePipeline Item Result}
  {functions : PurePipeline Item Result}

/-- Over the stream of a list, what is handed out is a beginning of the image of the list. -/
theorem pulls_list (computes : pipeline.Computes functions) (items : List Item)
    (cancels : List Bool) :
    let stream := pipeline.apply (.ofList items)
    ∃ run cancelled, stream.pulls cancels stream.position false = .ok run cancelled ∧
      Stream.handed run <+: (functions.onList items).take cancels.length ∧
      Stream.EndsCancelled run := by
  have source := (Source.ofList_computes items).shadows (some items.length) 1 none
  obtain ⟨related, shadows⟩ := computes.shadows source
  obtain ⟨run, cancelled, quiet, pulled, answers, begins, -, honours⟩ :=
    shadows.pulls shadows.aligned cancels
  have calm := Stream.carries_ofList items
  unfold Stream.ofList at calm
  rw [← Source.calm_ofList] at calm
  have carries := functions.carries_apply calm
  obtain ⟨whole, told, hands⟩ := carries.supplies.pulls cancels.length
  cases answers.symm.trans told
  exact ⟨run, cancelled, pulled, hands ▸ begins, honours⟩

/-- Pulls of a pipeline that may be cancelled before every pull, and by its source and its functions in
any of their calls, never fail. They hand out a beginning of what as many pulls hand out where nobody
cancels, and all of it if nobody did. Once the pipeline is cancelled, pulls hand out nothing, and the
stream ends as cancelled unless it was exhausted. -/
theorem pulls_begin (computes : pipeline.Computes functions) {source : Source Item}
    {step : source.Core → Option Item × source.Core} (steps : source.Computes step)
    (total? : Option Nat) (chunkSize : Nat) (weigh? : Option (Item → Nat)) (cancels : List Bool) :
    let stream := pipeline.apply (.ofSource source total? chunkSize weigh?)
    let calm := functions.toPipeline.apply (.ofSource (source.calm step) total? chunkSize weigh?)
    ∃ run cancelled quiet,
      stream.pulls cancels stream.position false = .ok run cancelled ∧
        (calm.pulls (List.replicate cancels.length false) calm.position).Answers quiet ∧
        Stream.handed run <+: Stream.handed quiet ∧
        (cancelled = false → Stream.handed run = Stream.handed quiet) ∧
        Stream.EndsCancelled run := by
  obtain ⟨related, shadows⟩ := computes.shadows (steps.shadows total? chunkSize weigh?)
  exact shadows.pulls shadows.aligned cancels

/-- A function that gives back its items and cancels at one call. -/
def cancelAt (call : Nat) : Closure Nat Nat where
  State := Nat
  state := 0
  call calls item := do
    if calls = call then Flow.cancel
    return (item, calls + 1)

theorem cancelAt_computes (call : Nat) : (cancelAt call).Computes id := by
  intro (calls : Nat) item cancelled
  by_cases reached : calls = call
  · exact ⟨calls + 1, true, by simp only [cancelAt, reached, if_true]; rfl, fun _ => rfl⟩
  · exact ⟨calls + 1, cancelled, by simp only [cancelAt, reached, if_false]; rfl, id⟩

/-- The fourth of six equal items is the first of the second batch: that batch is not handed out. -/
theorem pulls_begin_midway :
    ∃ run cancelled quiet,
      let stream := (map (cancelAt 3) (batch 3 done)).apply (.ofList [7, 7, 7, 7, 7, 7])
      stream.pulls [false, false, false] stream.position false = .ok run cancelled ∧
        Stream.handed run = [[7, 7, 7]] ∧
        Stream.handed quiet = [[7, 7, 7], [7, 7, 7]] ∧
        Stream.handed run <+: Stream.handed quiet ∧
        (cancelled = false → Stream.handed run = Stream.handed quiet) ∧
        Stream.EndsCancelled run := by
  obtain ⟨run, cancelled, quiet, pulled, answers, told⟩ :=
    pulls_begin (.map (cancelAt_computes 3) (.batch 3 .done))
      (Source.ofList_computes [7, 7, 7, 7, 7, 7]) (some 6) 1 none [false, false, false]
  refine ⟨run, cancelled, quiet, pulled, ?_, ?_, told⟩
  · cases pulled
    rfl
  · cases answers
    rfl

end ClosurePipeline

end TierVault
