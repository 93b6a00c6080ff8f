import TierVault.Stream.Source

/-!
The buffer between a producer and the stream of its items.

The producer runs beside the consumer. Both take the lock of the buffer for one short section at a time,
and look at the cancellation flag between two of them; nothing else orders their steps. A step of the
exchange is one such section, one look at the flag, or one of the ends being dropped.
-/

namespace TierVault

structure Buffer (Item : Type) where
  queue : List Item
  capacity : Nat
  /-- The producer has finished. -/
  closed : Bool
  /-- The consumer has dropped its end. -/
  abandoned : Bool
  /-- The largest length that the queue had. -/
  highWater : Nat
  deriving DecidableEq, Repr

namespace Buffer

variable {Item : Type}

/-- At least one item fits. -/
def empty (capacity : Nat) : Buffer Item := ⟨[], max capacity 1, false, false, 0⟩

def push (buffer : Buffer Item) (item : Item) : Buffer Item :=
  let queue := buffer.queue ++ [item]
  { buffer with queue := queue, highWater := max buffer.highWater queue.length }

/-- The section of a send that holds the lock: whether the item is in the queue, if that can be told.
A full buffer makes the producer wait. -/
def offer (buffer : Buffer Item) (item : Item) : Option Bool × Buffer Item :=
  if buffer.abandoned then (some false, buffer)
  else if buffer.queue.length < buffer.capacity then (some true, buffer.push item)
  else (none, buffer)

/-- The section of a receive that holds the lock: the next item, or that none will come. An empty buffer
makes the consumer wait. -/
def receive (buffer : Buffer Item) : Option (Option Item) × Buffer Item :=
  match buffer.queue with
  | item :: rest => (some (some item), { buffer with queue := rest })
  | [] => if buffer.closed then (some none, buffer) else (none, buffer)

def close (buffer : Buffer Item) : Buffer Item := { buffer with closed := true }

def abandon (buffer : Buffer Item) : Buffer Item := { buffer with abandoned := true, queue := [] }

end Buffer

/-- Where the producer stands. -/
inductive ProducerPlace (Item : Type)
  /-- Between two sends. -/
  | outside
  /-- In a send, before it looks at the flag. -/
  | checking (item : Item)
  /-- In a send, before it takes the lock. -/
  | offering (item : Item)
  /-- It returned or gave up, and its end is dropped. -/
  | gone
  deriving DecidableEq, Repr

/-- Where the consumer stands. -/
inductive ConsumerPlace
  /-- Between two calls for the next item. -/
  | outside
  /-- In a call, before the stream looks at the flag. -/
  | checking
  /-- In a call, before it takes the lock. -/
  | receiving
  /-- In a call that found the queue empty, before it looks at the flag. -/
  | waiting
  /-- In a call that found the end, before the stream looks at the flag. -/
  | ending
  /-- The stream is dropped. -/
  | gone
  deriving DecidableEq, Repr

/-- A producer, a consumer, and the buffer between them. -/
structure Exchange (Item : Type) where
  buffer : Buffer Item
  cancelled : Bool
  producer : ProducerPlace Item
  /-- What the producer has not begun to send. -/
  toSend : List Item
  consumer : ConsumerPlace
  meter : Meter
  /-- The sends that have returned, with their answers. -/
  sent : List (Item × Bool)
  /-- The answers to the calls for the next item. -/
  answers : List (Option Item)
  deriving DecidableEq

namespace Exchange

variable {Item : Type}

def start (capacity : Nat) (items : List Item) : Exchange Item where
  buffer := .empty capacity
  cancelled := false
  producer := .outside
  toSend := items
  consumer := .outside
  meter := .start none (max capacity 1)
  sent := []
  answers := []

inductive Move
  | produce
  /-- The producer returns or gives up. -/
  | finish
  | consume
  /-- The stream is dropped. -/
  | leave
  | cancel
  deriving DecidableEq, Repr

/-- The send of an item returns. -/
def sendReturns (exchange : Exchange Item) (item : Item) (answer : Bool) : Exchange Item :=
  { exchange with producer := .outside, sent := exchange.sent ++ [(item, answer)] }

/-- The next step of the producer, if it has one. -/
def produce (exchange : Exchange Item) : Option (Exchange Item) :=
  match exchange.producer with
  | .outside =>
    match exchange.toSend with
    | [] => none
    | item :: rest => some { exchange with producer := .checking item, toSend := rest }
  | .checking item =>
    if exchange.cancelled then some (exchange.sendReturns item false)
    else some { exchange with producer := .offering item }
  | .offering item =>
    match exchange.buffer.offer item with
    | (some answer, buffer) => some ({ exchange with buffer := buffer }.sendReturns item answer)
    | (none, _) => some { exchange with producer := .checking item }
  | .gone => none

/-- The call for the next item returns; the meter is that of a stream whose items have no weight. -/
def callReturns (exchange : Exchange Item) (item? : Option Item) : Exchange Item :=
  { exchange with
    consumer := .outside
    meter := (Stream.ofItems (.ofList [])).meterAfter exchange.meter exchange.cancelled item?
    answers := exchange.answers ++ [item?] }

/-- The next step of the consumer, if it has one. A stream that has ended looks at nothing. -/
def consume (exchange : Exchange Item) : Option (Exchange Item) :=
  match exchange.consumer with
  | .outside =>
    if exchange.meter.state.hasEnded then
      some { exchange with answers := exchange.answers ++ [none] }
    else some { exchange with consumer := .checking }
  | .checking =>
    if exchange.cancelled then some (exchange.callReturns none)
    else some { exchange with
      consumer := .receiving, meter := { exchange.meter with state := .iterating } }
  | .receiving =>
    match exchange.buffer.receive with
    | (some (some item), buffer) => some ({ exchange with buffer := buffer }.callReturns (some item))
    | (some none, _) => some { exchange with consumer := .ending }
    | (none, _) => some { exchange with consumer := .waiting }
  | .waiting =>
    if exchange.cancelled then some { exchange with consumer := .ending }
    else some { exchange with consumer := .receiving }
  | .ending => some (exchange.callReturns none)
  | .gone => none

/-- The exchange after a move, if it can be made. -/
def step (exchange : Exchange Item) : Move → Option (Exchange Item)
  | .produce => exchange.produce
  | .finish =>
    match exchange.producer with
    | .outside => some { exchange with producer := .gone, buffer := exchange.buffer.close }
    | _ => none
  | .consume => exchange.consume
  | .leave =>
    match exchange.consumer with
    | .outside => some { exchange with consumer := .gone, buffer := exchange.buffer.abandon }
    | _ => none
  | .cancel => some { exchange with cancelled := true }

/-- The exchange after the moves, if each can be made in its turn. -/
def run (exchange : Exchange Item) (moves : List Move) : Option (Exchange Item) :=
  moves.foldlM step exchange

/-! ## What has passed -/

/-- The items whose send told that they were queued. -/
def queued (exchange : Exchange Item) : List Item :=
  (exchange.sent.filter Prod.snd).map Prod.fst

def received (exchange : Exchange Item) : List Item := exchange.answers.filterMap id

/-- The item that is being sent. -/
def inHand (exchange : Exchange Item) : List Item :=
  match exchange.producer with
  | .checking item | .offering item => [item]
  | .outside | .gone => []

end Exchange

end TierVault
