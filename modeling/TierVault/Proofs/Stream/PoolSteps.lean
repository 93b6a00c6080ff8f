import TierVault.Proofs.Stream.Transforms
import TierVault.Stream.Pool

/-!
The results of batches, and the steps of a pool of workers, one by one.

A batch has the results of all its items, or none if the function stops at one of them. Where batches
are worked on one after the other, there is such a list for each.

A step of the dispatcher, of a worker or of the consumer is one of a few, told here with what it needs and
what it leaves. A worker is told by the workers before and after it.
-/

namespace TierVault

/-! # Results of batches -/

section

variable {Item Result : Type}

/-! ## The work on a batch -/

/-- The results of a batch; none of them if the function stops at one of its items. -/
def resultsOf (function : Item → Except Fault Result) (batch : List Item) : List Result :=
  (batch.mapM function).toOption.getD []

theorem mapM_ofExcept (function : Item → Except Fault Result) (batch : List Item) (cancelled : Bool) :
    batch.mapM (fun item => (Action.ofExcept (function item) : Flow Result)) cancelled =
      match batch.mapM function with
      | .ok results => .ok results cancelled
      | .error fault => .error fault cancelled := by
  induction batch with
  | nil => rfl
  | cons item rest induction =>
      rw [List.mapM_cons, List.mapM_cons]
      cases called : function item with
      | error fault => rfl
      | ok result =>
          have told : (Action.ofExcept (.ok result) : Flow Result) cancelled =
            .ok result cancelled := rfl
          simp only [Bind.bind, EStateM.bind, Except.bind, told, induction]
          cases List.mapM function rest <;> rfl

theorem workBatch_ofExcept (function : Item → Except Fault Result) (batch : List Item) :
    (Processor.workBatch (fun item => Action.ofExcept (function item)) batch).Answers
      (resultsOf function batch) := by
  unfold Flow.Answers Processor.workBatch resultsOf
  rw [mapM_ofExcept]
  cases List.mapM function batch <;> rfl

/-! ## Batches one after the other -/

namespace Processor

/-- Working on the batches that a position supplies gives the results of each. -/
theorem workBatches_answers {batches : Stream (List Item)} {position : batches.Position}
    {groups : List (List Item)} (supplies : batches.SuppliesFrom position groups)
    (function : Item → Except Fault Result) {bound : Nat} (enough : groups.length < bound) :
    (workBatches batches (fun item => Action.ofExcept (function item)) bound position).Answers
      (groups.map (resultsOf function)) := by
  induction bound generalizing position groups with
  | zero => exact absurd enough (Nat.not_lt_zero _)
  | succ bound induction =>
      obtain ⟨next, advanced, others⟩ := supplies.advance
      unfold Flow.Answers at advanced ⊢
      simp only [workBatches, advanced]
      cases groups with
      | nil => rfl
      | cons batch groups =>
          have later := induction others (Nat.lt_of_succ_lt_succ enough)
          exact Flow.Answers.bind (workBatch_ofExcept function batch) (.bind later (.pure _))

/-- Working on a list gives the results of each of its batches. -/
theorem workOn_answers (config : StreamConfig) (items : List Item)
    (function : Item → Except Fault Result) {rooms : Nat × Nat}
    (fits : (ofConfig config).channels = .ok rooms) :
    ((ofConfig config).workOn (.ofList items) fun item => Action.ofExcept (function item)).Answers
      ((batchesOf (ofConfig config).batchSize items).map (resultsOf function)) := by
  have carries := (Stream.carries_ofList items).batch (ofConfig config).batchSize
  have size : max (ofConfig config).batchSize 1 = (ofConfig config).batchSize :=
    Nat.max_eq_left (Nat.le_max_right _ _)
  rw [size] at carries
  unfold workOn
  rw [fits]
  have enough := Nat.lt_succ_of_le carries.supplies.length_le
  exact .bind (.pure rooms) (workBatches_answers carries.supplies function enough)

end Processor

/-- The channels of a pool have the sizes that its processor computes, if these are words. -/
theorem PoolSetup.rooms_of_channels {setup : PoolSetup Item Result} {rooms : Nat × Nat}
    (fits : setup.processor.channels = .ok rooms) : rooms = (setup.jobRoom, setup.resultRoom) := by
  unfold Processor.channels Word.product at fits
  by_cases jobs : setup.processor.workers * 2 < Word.limit
  · by_cases results : setup.processor.batchSize * setup.processor.workers < Word.limit
    · rw [if_pos jobs, if_pos results] at fits
      cases fits
      rfl
    · rw [if_pos jobs, if_neg results] at fits
      cases fits
  · rw [if_neg jobs] at fits
    cases fits

end

/-! # Steps -/

section

variable {Item Result : Type}

namespace Pool

variable {setup : PoolSetup Item Result}

/-- What a step of the dispatcher can be. -/
inductive Dispatches (pool : Pool setup) : Pool setup → Prop
  | pulls {number : Nat} {position after : setup.batches.Position} {batch : List Item}
      {cancelled : Bool} (pulling : pool.dispatcher = .pulling number position)
      (advanced : setup.batches.advance position pool.cancelled = .ok (some batch, after) cancelled) :
      Dispatches pool { pool with
        cancelled := cancelled, dispatcher := .sending number batch after }
  | stops {number : Nat} {position : setup.batches.Position} {cancelled : Bool}
      (pulling : pool.dispatcher = .pulling number position)
      (advanced : (∃ after, setup.batches.advance position pool.cancelled = .ok (none, after) cancelled) ∨
        ∃ fault, setup.batches.advance position pool.cancelled = .error fault cancelled) :
      Dispatches pool { pool with cancelled := cancelled, dispatcher := .gone }
  | isLeft {number : Nat} {position : setup.batches.Position} {batch : List Item}
      (sending : pool.dispatcher = .sending number batch position) (gone : pool.workersGone = true) :
      Dispatches pool { pool with dispatcher := .gone }
  | sends {number : Nat} {position : setup.batches.Position} {batch : List Item}
      (sending : pool.dispatcher = .sending number batch position)
      (room : pool.jobs.length < setup.jobRoom) :
      Dispatches pool { pool with
        dispatcher := .pulling (number + 1) position, jobs := pool.jobs ++ [(number, batch)] }

/-- What a step of a worker can be beside a consumer that is there. -/
inductive Works (pool : Pool setup) (before after : List (WorkerPlace Item Result)) :
    Pool setup → Prop
  | takes {number : Nat} {batch : List Item} {rest : List (Nat × List Item)}
      (waiting : pool.workers = before ++ .waiting :: after)
      (jobs : pool.jobs = (number, batch) :: rest) :
      Works pool before after { pool with
        jobs := rest, workers := before ++ .working number batch :: after }
  | stops (waiting : pool.workers = before ++ .waiting :: after) (jobs : pool.jobs = [])
      (gone : pool.dispatcherGone = true) :
      Works pool before after { pool with workers := before ++ .gone :: after }
  | computes {number : Nat} {batch : List Item} {results : List Result} {cancelled : Bool}
      (working : pool.workers = before ++ .working number batch :: after)
      (worked : Processor.workBatch setup.work batch pool.cancelled = .ok results cancelled) :
      Works pool before after { pool with
        cancelled := cancelled, workers := before ++ .delivering number results :: after }
  | fails {number : Nat} {batch : List Item} {fault : Fault} {cancelled : Bool}
      (working : pool.workers = before ++ .working number batch :: after)
      (worked : Processor.workBatch setup.work batch pool.cancelled = .error fault cancelled) :
      Works pool before after { pool with
        cancelled := cancelled, workers := before ++ .gone :: after }
  | delivers {number : Nat} {result : Result} {rest : List Result}
      (delivering : pool.workers = before ++ .delivering number (result :: rest) :: after)
      (room : pool.results.length < setup.resultRoom) :
      Works pool before after { pool with
        results := pool.results ++ [result], workers := before ++ .delivering number rest :: after }
  | finishes {number : Nat} (delivering : pool.workers = before ++ .delivering number [] :: after) :
      Works pool before after { pool with workers := before ++ .waiting :: after }

/-- What a step of the consumer can be in a pipeline that is not cancelled. -/
inductive Reads (pool : Pool setup) : Pool setup → Prop
  | hasEnded (outside : pool.reader = .outside) (ended : pool.meter.state.hasEnded = true) :
      Reads pool { pool with answers := pool.answers ++ [none] }
  | begins (outside : pool.reader = .outside) : Reads pool { pool with reader := .checking }
  | goesOn (checking : pool.reader = .checking) :
      Reads pool { pool with
        reader := .receiving, meter := { pool.meter with state := .iterating } }
  | receives {result : Result} {rest : List Result} (receiving : pool.reader = .receiving)
      (results : pool.results = result :: rest) :
      Reads pool ({ pool with results := rest }.callReturns (some result))
  | findsEnd (receiving : pool.reader = .receiving) (results : pool.results = [])
      (gone : pool.workersGone = true) : Reads pool { pool with reader := .ending }
  | ends (ending : pool.reader = .ending) : Reads pool (pool.callReturns none)

variable {pool next : Pool setup}

theorem Dispatches.answers (moved : pool.Dispatches next) : next.answers = pool.answers := by
  cases moved <;> rfl

theorem Works.answers {before after : List (WorkerPlace Item Result)}
    (moved : pool.Works before after next) : next.answers = pool.answers := by
  cases moved <;> rfl

theorem Reads.answers (moved : pool.Reads next) : pool.answers <+: next.answers := by
  cases moved with
  | hasEnded | ends | receives => exact List.prefix_append _ _
  | begins | goesOn | findsEnd => exact List.prefix_rfl

theorem dispatches_of_eq (moved : pool.dispatch = some next) : pool.Dispatches next := by
  unfold dispatch at moved
  split at moved
  case h_1 number position pulling =>
    split at moved
    · cases moved
      exact .pulls pulling ‹_›
    · cases moved
      exact .stops pulling (.inl ⟨_, ‹_›⟩)
    · cases moved
      exact .stops pulling (.inr ⟨_, ‹_›⟩)
  case h_2 number batch position sending =>
    split at moved
    · cases moved
      exact .isLeft sending ‹_›
    · split at moved
      · cases moved
        exact .sends sending ‹_›
      · cases moved
  case h_3 => cases moved

/-- The list before and after a place, and the list in which another takes its place. -/
theorem split_at {places : List (WorkerPlace Item Result)} {worker : Nat}
    {place : WorkerPlace Item Result} (stands : places[worker]? = some place) :
    ∃ before after, places = before ++ place :: after ∧
      ∀ other, places.set worker other = before ++ other :: after := by
  obtain ⟨inside, rfl⟩ := List.getElem?_eq_some_iff.mp stands
  refine ⟨places.take worker, places.drop (worker + 1), ?_, fun other => ?_⟩
  · rw [← List.drop_eq_getElem_cons inside, List.take_append_drop]
  · rw [List.set_eq_take_append_cons_drop, if_pos inside]

theorem works_of_eq (present : pool.reader ≠ .gone) {worker : Nat}
    (moved : pool.work worker = some next) : ∃ before after, pool.Works before after next := by
  unfold work at moved
  split at moved
  case h_1 stands =>
    obtain ⟨before, after, workers, set⟩ := split_at stands
    split at moved
    · cases moved
      rw [place, set]
      exact ⟨before, after, .takes workers ‹_›⟩
    · split at moved
      · cases moved
        rw [place, set]
        exact ⟨before, after, .stops workers ‹_› ‹_›⟩
      · cases moved
  case h_2 number batch stands =>
    obtain ⟨before, after, workers, set⟩ := split_at stands
    split at moved
    · cases moved
      rw [place, set]
      exact ⟨before, after, .computes workers ‹_›⟩
    · cases moved
      rw [place, set]
      exact ⟨before, after, .fails workers ‹_›⟩
  case h_3 number result rest stands =>
    obtain ⟨before, after, workers, set⟩ := split_at stands
    rw [if_neg present] at moved
    split at moved
    · cases moved
      rw [place, set]
      exact ⟨before, after, .delivers workers ‹_›⟩
    · cases moved
  case h_4 number stands =>
    obtain ⟨before, after, workers, set⟩ := split_at stands
    cases moved
    rw [place, set]
    exact ⟨before, after, .finishes workers⟩
  case h_5 => cases moved
  case h_6 => cases moved

theorem reads_of_eq (quiet : pool.cancelled = false) (moved : pool.read = some next) :
    pool.Reads next := by
  unfold read at moved
  split at moved
  case h_1 outside =>
    split at moved
    · cases moved
      exact .hasEnded outside ‹_›
    · cases moved
      exact .begins outside
  case h_2 checking =>
    rw [if_neg (Bool.eq_false_iff.mp quiet)] at moved
    cases moved
    exact .goesOn checking
  case h_3 receiving =>
    split at moved
    · cases moved
      exact .receives receiving ‹_›
    · split at moved
      · cases moved
        exact .findsEnd receiving ‹_› ‹_›
      · cases moved
  case h_4 ending =>
    cases moved
    exact .ends ending
  case h_5 => cases moved

end Pool

end

end TierVault
