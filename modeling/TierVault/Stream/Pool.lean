import TierVault.Stream.Processor

/-!
The threads of a pool of workers.

A dispatcher pulls batches and sends them through a bounded channel to the workers; these send the
results of a batch one by one through another to the consumer. A channel hands over what was sent in its
order, makes a sender wait while it is full and a receiver while it is empty, and tells either that the
other side is gone. A step is one send, one receive, one end being dropped, one pull of the dispatcher,
the work on one batch, or one look at the cancellation flag.
-/

namespace TierVault

/-- What a pool works on, and with which settings. -/
structure PoolSetup (Item Result : Type) : Type 1 where
  processor : Processor
  stream : Stream Item
  work : Item → Flow Result

namespace PoolSetup

variable {Item Result : Type}

def batches (setup : PoolSetup Item Result) : Stream (List Item) :=
  setup.stream.batch setup.processor.batchSize

/-- How many batches can wait for a worker. -/
def jobRoom (setup : PoolSetup Item Result) : Nat := setup.processor.workers * 2

/-- How many results can wait for the consumer. -/
def resultRoom (setup : PoolSetup Item Result) : Nat :=
  setup.processor.batchSize * setup.processor.workers

end PoolSetup

/-- Where the dispatcher stands. Batches are numbered in their order. -/
inductive DispatcherPlace (Position Item : Type)
  | pulling (number : Nat) (position : Position)
  | sending (number : Nat) (batch : List Item) (position : Position)
  | gone

/-- Where a worker stands. -/
inductive WorkerPlace (Item Result : Type)
  | waiting
  | working (number : Nat) (batch : List Item)
  | delivering (number : Nat) (results : List Result)
  | gone
  deriving DecidableEq

def WorkerPlace.isGone {Item Result : Type} : WorkerPlace Item Result → Bool
  | gone => true
  | waiting | working .. | delivering .. => false

/-- Where the consumer of the results stands. -/
inductive ReaderPlace
  /-- Between two calls for the next result. -/
  | outside
  /-- In a call, before the stream looks at the flag. -/
  | checking
  /-- In a call, before it receives. -/
  | receiving
  /-- In a call that found the end, before the stream looks at the flag. -/
  | ending
  /-- The stream is dropped. -/
  | gone
  deriving DecidableEq

/-- A dispatcher, workers, a consumer, and the two channels between them. -/
structure Pool {Item Result : Type} (setup : PoolSetup Item Result) where
  cancelled : Bool
  dispatcher : DispatcherPlace setup.batches.Position Item
  jobs : List (Nat × List Item)
  workers : List (WorkerPlace Item Result)
  results : List Result
  reader : ReaderPlace
  meter : Meter
  /-- The answers to the calls for the next result. -/
  answers : List (Option Result)

namespace Pool

variable {Item Result : Type} {setup : PoolSetup Item Result}

/-- Every thread has been spawned. -/
def start (setup : PoolSetup Item Result) : Pool setup where
  cancelled := false
  dispatcher := .pulling 0 setup.batches.position
  jobs := []
  workers := List.replicate setup.processor.workers .waiting
  results := []
  reader := .outside
  meter := .start none setup.processor.batchSize
  answers := []

inductive Move
  | dispatch
  | work (worker : Nat)
  | read
  /-- The stream of the results is dropped. -/
  | leave
  deriving DecidableEq

def workersGone (pool : Pool setup) : Bool := pool.workers.all WorkerPlace.isGone

/-- The next step of the dispatcher, if it has one. A fault of the stream ends it. -/
def dispatch (pool : Pool setup) : Option (Pool setup) :=
  match pool.dispatcher with
  | .pulling number position =>
    match setup.batches.advance position pool.cancelled with
    | .ok (some batch, position) cancelled =>
      some { pool with cancelled := cancelled, dispatcher := .sending number batch position }
    | .ok (none, _) cancelled | .error _ cancelled =>
      some { pool with cancelled := cancelled, dispatcher := .gone }
  | .sending number batch position =>
    if pool.workersGone then some { pool with dispatcher := .gone }
    else if pool.jobs.length < setup.jobRoom then
      some { pool with
        dispatcher := .pulling (number + 1) position, jobs := pool.jobs ++ [(number, batch)] }
    else none
  | .gone => none

/-- The worker goes to another place. -/
def place (pool : Pool setup) (worker : Nat) (place : WorkerPlace Item Result) : Pool setup :=
  { pool with workers := pool.workers.set worker place }

def dispatcherGone (pool : Pool setup) : Bool :=
  match pool.dispatcher with
  | .gone => true
  | .pulling .. | .sending .. => false

/-- The next step of a worker, if it has one. -/
def work (pool : Pool setup) (worker : Nat) : Option (Pool setup) :=
  match pool.workers[worker]? with
  | some .waiting =>
    match pool.jobs with
    | (number, batch) :: rest => some ({ pool with jobs := rest }.place worker (.working number batch))
    | [] => if pool.dispatcherGone then some (pool.place worker .gone) else none
  | some (.working number batch) =>
    match Processor.workBatch setup.work batch pool.cancelled with
    | .ok results cancelled =>
      some ({ pool with cancelled := cancelled }.place worker (.delivering number results))
    | .error _ cancelled => some ({ pool with cancelled := cancelled }.place worker .gone)
  | some (.delivering number (result :: rest)) =>
    if pool.reader = .gone then some (pool.place worker .gone)
    else if pool.results.length < setup.resultRoom then
      some ({ pool with results := pool.results ++ [result] }.place worker (.delivering number rest))
    else none
  | some (.delivering _ []) => some (pool.place worker .waiting)
  | some .gone | none => none

/-- The call for the next result returns; the meter is that of a stream whose items have no weight. -/
def callReturns (pool : Pool setup) (result? : Option Result) : Pool setup :=
  { pool with
    reader := .outside
    meter := (Stream.ofItems (.ofList [])).meterAfter pool.meter pool.cancelled result?
    answers := pool.answers ++ [result?] }

/-- The next step of the consumer, if it has one. A stream that has ended looks at nothing. -/
def read (pool : Pool setup) : Option (Pool setup) :=
  match pool.reader with
  | .outside =>
    if pool.meter.state.hasEnded then some { pool with answers := pool.answers ++ [none] }
    else some { pool with reader := .checking }
  | .checking =>
    if pool.cancelled then some (pool.callReturns none)
    else some { pool with reader := .receiving, meter := { pool.meter with state := .iterating } }
  | .receiving =>
    match pool.results with
    | result :: rest => some ({ pool with results := rest }.callReturns (some result))
    | [] => if pool.workersGone then some { pool with reader := .ending } else none
  | .ending => some (pool.callReturns none)
  | .gone => none

/-- The pool after a move, if it can be made. -/
def step (pool : Pool setup) : Move → Option (Pool setup)
  | .dispatch => pool.dispatch
  | .work worker => pool.work worker
  | .read => pool.read
  | .leave =>
    match pool.reader with
    | .outside => some { pool with reader := .gone }
    | _ => none

/-- The pool after the moves, if each can be made in its turn. -/
def run (pool : Pool setup) (moves : List Move) : Option (Pool setup) :=
  moves.foldlM step pool

/-- The results that were handed out. -/
def output (pool : Pool setup) : List Result := pool.answers.filterMap id

end Pool

end TierVault
