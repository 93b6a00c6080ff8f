import TierVault.Proofs.Stream.Transforms
import TierVault.Stream.Buffer

/-!
What passes through the buffer of a producer.

In every order of the steps of producer and consumer, whenever the pipeline is cancelled and the stream
dropped, the queue stays within its capacity and hands over the items in the order of their sends, and
the consumer is not told of an end before there is one.
-/

namespace TierVault

/-! ## The sections that hold the lock -/

namespace Buffer

variable {Item : Type} {buffer : Buffer Item} {item : Item}

theorem offer_abandoned (abandoned : buffer.abandoned = true) :
    buffer.offer item = (some false, buffer) := by
  rw [offer, if_pos abandoned]

theorem offer_room (present : buffer.abandoned = false)
    (room : buffer.queue.length < buffer.capacity) :
    buffer.offer item = (some true, buffer.push item) := by
  rw [offer, if_neg (Bool.not_eq_true _ ▸ present), if_pos room]

theorem offer_full (present : buffer.abandoned = false)
    (full : buffer.capacity ≤ buffer.queue.length) : buffer.offer item = (none, buffer) := by
  rw [offer, if_neg (Bool.not_eq_true _ ▸ present), if_neg (Nat.not_lt.mpr full)]

end Buffer

namespace Exchange

variable {Item : Type}

/-! ## The steps one by one -/

/-- What a step of the producer can be. -/
inductive Produces (exchange : Exchange Item) : Exchange Item → Prop
  | begins (item : Item) (rest : List Item) (outside : exchange.producer = .outside)
      (next : exchange.toSend = item :: rest) :
      Produces exchange { exchange with producer := .checking item, toSend := rest }
  | isCancelled (item : Item) (checking : exchange.producer = .checking item)
      (cancelled : exchange.cancelled = true) : Produces exchange (exchange.sendReturns item false)
  | goesOn (item : Item) (checking : exchange.producer = .checking item) :
      Produces exchange { exchange with producer := .offering item }
  | isAbandoned (item : Item) (offering : exchange.producer = .offering item)
      (abandoned : exchange.buffer.abandoned = true) :
      Produces exchange (exchange.sendReturns item false)
  | queues (item : Item) (offering : exchange.producer = .offering item)
      (present : exchange.buffer.abandoned = false)
      (room : exchange.buffer.queue.length < exchange.buffer.capacity) :
      Produces exchange
        ({ exchange with buffer := exchange.buffer.push item }.sendReturns item true)
  | waits (item : Item) (offering : exchange.producer = .offering item)
      (full : exchange.buffer.capacity ≤ exchange.buffer.queue.length) :
      Produces exchange { exchange with producer := .checking item }

/-- What a step of the consumer can be. -/
inductive Consumes (exchange : Exchange Item) : Exchange Item → Prop
  | hasEnded (outside : exchange.consumer = .outside) (ended : exchange.meter.state.hasEnded = true) :
      Consumes exchange { exchange with answers := exchange.answers ++ [none] }
  | begins (outside : exchange.consumer = .outside) (going : exchange.meter.state.hasEnded = false) :
      Consumes exchange { exchange with consumer := .checking }
  | isCancelled (checking : exchange.consumer = .checking) (cancelled : exchange.cancelled = true) :
      Consumes exchange (exchange.callReturns none)
  | goesOn (checking : exchange.consumer = .checking) :
      Consumes exchange { exchange with
        consumer := .receiving, meter := { exchange.meter with state := .iterating } }
  | receives (item : Item) (rest : List Item) (receiving : exchange.consumer = .receiving)
      (queue : exchange.buffer.queue = item :: rest) :
      Consumes exchange ({ exchange with
        buffer := { exchange.buffer with queue := rest } }.callReturns (some item))
  | findsEnd (receiving : exchange.consumer = .receiving) (queue : exchange.buffer.queue = [])
      (closed : exchange.buffer.closed = true) : Consumes exchange { exchange with consumer := .ending }
  | waits (receiving : exchange.consumer = .receiving) :
      Consumes exchange { exchange with consumer := .waiting }
  | givesUp (waiting : exchange.consumer = .waiting) (cancelled : exchange.cancelled = true) :
      Consumes exchange { exchange with consumer := .ending }
  | triesAgain (waiting : exchange.consumer = .waiting) :
      Consumes exchange { exchange with consumer := .receiving }
  | ends (ending : exchange.consumer = .ending) : Consumes exchange (exchange.callReturns none)

variable {exchange next : Exchange Item}

theorem produces_of_eq (moved : exchange.produce = some next) : exchange.Produces next := by
  unfold produce at moved
  split at moved
  case h_1 outside =>
    split at moved
    · cases moved
    · cases moved
      exact .begins _ _ outside ‹_›
  case h_2 item checking =>
    split at moved
    · cases moved
      exact .isCancelled item checking ‹_›
    · cases moved
      exact .goesOn item checking
  case h_3 item offering =>
    cases abandoned : exchange.buffer.abandoned with
    | true =>
        rw [Buffer.offer_abandoned abandoned] at moved
        cases moved
        exact .isAbandoned item offering abandoned
    | false =>
        by_cases room : exchange.buffer.queue.length < exchange.buffer.capacity
        · rw [Buffer.offer_room abandoned room] at moved
          cases moved
          exact .queues item offering abandoned room
        · have full := Nat.le_of_not_lt room
          rw [Buffer.offer_full abandoned full] at moved
          cases moved
          exact .waits item offering full
  case h_4 => cases moved

theorem consumes_of_eq (moved : exchange.consume = some next) : exchange.Consumes next := by
  unfold consume at moved
  split at moved
  case h_1 outside =>
    split at moved
    · cases moved
      exact .hasEnded outside ‹_›
    · cases moved
      exact .begins outside (Bool.eq_false_iff.mpr ‹_›)
  case h_2 checking =>
    split at moved
    · cases moved
      exact .isCancelled checking ‹_›
    · cases moved
      exact .goesOn checking
  case h_3 receiving =>
    unfold Buffer.receive at moved
    cases queue : exchange.buffer.queue with
    | cons item rest =>
        simp only [queue] at moved
        cases moved
        exact .receives item rest receiving queue
    | nil =>
        simp only [queue] at moved
        cases closed : exchange.buffer.closed with
        | true =>
            simp only [closed, if_true] at moved
            cases moved
            exact .findsEnd receiving queue closed
        | false =>
            simp only [closed, Bool.false_eq_true, if_false] at moved
            cases moved
            exact .waits receiving
  case h_4 waiting =>
    split at moved
    · cases moved
      exact .givesUp waiting ‹_›
    · cases moved
      exact .triesAgain waiting
  case h_5 ending =>
    cases moved
    exact .ends ending
  case h_6 => cases moved

/-- What a move can be. -/
inductive Steps (exchange : Exchange Item) : Exchange Item → Prop
  | produces {next : Exchange Item} (produces : exchange.Produces next) : Steps exchange next
  | finishes (outside : exchange.producer = .outside) :
      Steps exchange { exchange with producer := .gone, buffer := exchange.buffer.close }
  | consumes {next : Exchange Item} (consumes : exchange.Consumes next) : Steps exchange next
  | leaves (outside : exchange.consumer = .outside) :
      Steps exchange { exchange with consumer := .gone, buffer := exchange.buffer.abandon }
  | cancels : Steps exchange { exchange with cancelled := true }

theorem steps_of_eq {move : Move} (moved : exchange.step move = some next) : exchange.Steps next := by
  cases move with
  | produce => exact .produces (produces_of_eq moved)
  | consume => exact .consumes (consumes_of_eq moved)
  | finish =>
      simp only [step] at moved
      split at moved
      · cases moved
        exact .finishes ‹_›
      · cases moved
  | leave =>
      simp only [step] at moved
      split at moved
      · cases moved
        exact .leaves ‹_›
      · cases moved
  | cancel =>
      cases moved
      exact .cancels

/-! ## What the steps keep -/

@[simp] theorem queued_accepted (exchange : Exchange Item) (item : Item) :
    (exchange.sendReturns item true).queued = exchange.queued ++ [item] := by
  simp [queued, sendReturns]

@[simp] theorem queued_refused (exchange : Exchange Item) (item : Item) :
    (exchange.sendReturns item false).queued = exchange.queued := by
  simp [queued, sendReturns]

/-- What has been received after one more answer. -/
theorem received_answered (answers : List (Option Item)) (item? : Option Item) :
    (answers ++ [item?]).filterMap id = answers.filterMap id ++ item?.toList := by
  cases item? <;> simp

/-- The consumer was told of the end, or is about to be. -/
def SeesEnd (exchange : Exchange Item) : Prop :=
  none ∈ exchange.answers ∨ exchange.consumer = .ending

/-- Nothing more will come: the producer is gone, and all that was queued has been received. -/
structure Drained (exchange : Exchange Item) : Prop where
  gone : exchange.producer = .gone
  empty : exchange.buffer.queue = []
  all : exchange.received = exchange.queued

/-- The exchange of a list through a buffer of the capacity. -/
structure Sound (capacity : Nat) (items : List Item) (exchange : Exchange Item) : Prop where
  capacity : exchange.buffer.capacity = max capacity 1
  bounded : exchange.buffer.queue.length ≤ exchange.buffer.highWater
  highWater : exchange.buffer.highWater ≤ exchange.buffer.capacity
  /-- Every item is sent once, in the order of the list. -/
  ordered : exchange.sent.map Prod.fst ++ exchange.inHand ++ exchange.toSend = items
  /-- No item is lost or doubled on its way. -/
  conserved : exchange.buffer.abandoned = false →
    exchange.received ++ exchange.buffer.queue = exchange.queued
  closed : exchange.buffer.closed = true ↔ exchange.producer = .gone
  abandoned : exchange.buffer.abandoned = true ↔ exchange.consumer = .gone
  refused : ∀ item, (item, false) ∈ exchange.sent →
    exchange.cancelled = true ∨ exchange.buffer.abandoned = true
  told : exchange.meter.state.hasEnded = true → none ∈ exchange.answers
  /-- There is no end before the producer is done, unless the pipeline is cancelled. -/
  ended : exchange.SeesEnd → exchange.cancelled = true ∨ exchange.Drained

theorem sound_start (capacity : Nat) (items : List Item) :
    (start capacity items).Sound capacity items where
  capacity := rfl
  bounded := Nat.le_refl _
  highWater := Nat.zero_le _
  ordered := rfl
  conserved := fun _ => rfl
  closed := ⟨nofun, nofun⟩
  abandoned := ⟨nofun, nofun⟩
  refused := fun _ member => nomatch member
  told := Bool.noConfusion
  ended := by
    rintro (member | ending)
    · cases member
    · cases ending

namespace Sound

variable {capacity : Nat} {items : List Item}

/-- A producer that is not gone has not closed the buffer, and the stream has an end only if the
pipeline is cancelled. -/
theorem cancelled_of_present (sound : exchange.Sound capacity items)
    (present : exchange.producer ≠ .gone) (ended : exchange.SeesEnd) : exchange.cancelled = true :=
  (sound.ended ended).resolve_right fun drained => present drained.gone

theorem not_abandoned (sound : exchange.Sound capacity items) (present : exchange.consumer ≠ .gone) :
    exchange.buffer.abandoned = false :=
  Bool.eq_false_iff.mpr (mt sound.abandoned.mp present)

/-- The producer goes to another place and holds the same items. -/
theorem producer_moves (sound : exchange.Sound capacity items) {place : ProducerPlace Item}
    {toSend : List Item} (present : exchange.producer ≠ .gone) (stays : place ≠ .gone)
    (holds : inHand { exchange with producer := place, toSend := toSend } ++ toSend =
      exchange.inHand ++ exchange.toSend) :
    ({ exchange with producer := place, toSend := toSend } : Exchange Item).Sound capacity items where
  capacity := sound.capacity
  bounded := sound.bounded
  highWater := sound.highWater
  ordered := by
    rw [List.append_assoc, holds, ← List.append_assoc]
    exact sound.ordered
  conserved := sound.conserved
  closed := iff_of_false (mt sound.closed.mp present) stays
  abandoned := sound.abandoned
  refused := sound.refused
  told := sound.told
  ended := fun ended => .inl (sound.cancelled_of_present present ended)

/-- The send of the item in hand tells that it is not queued. -/
theorem refuses (sound : exchange.Sound capacity items) {item : Item}
    (present : exchange.producer ≠ .gone) (holds : exchange.inHand = [item])
    (refused : exchange.cancelled = true ∨ exchange.buffer.abandoned = true) :
    (exchange.sendReturns item false).Sound capacity items where
  capacity := sound.capacity
  bounded := sound.bounded
  highWater := sound.highWater
  ordered := by
    have ordered := sound.ordered
    rw [holds] at ordered
    simpa only [sendReturns, inHand, List.map_append, List.map_singleton, List.append_nil] using ordered
  conserved := by
    rw [queued_refused]
    exact sound.conserved
  closed := iff_of_false (mt sound.closed.mp present) nofun
  abandoned := sound.abandoned
  refused := fun _ _ => refused
  told := sound.told
  ended := fun ended => .inl (sound.cancelled_of_present present ended)

/-- The item in hand is queued. -/
theorem queues (sound : exchange.Sound capacity items) {item : Item}
    (offering : exchange.producer = .offering item)
    (present : exchange.buffer.abandoned = false)
    (room : exchange.buffer.queue.length < exchange.buffer.capacity) :
    ({ exchange with buffer := exchange.buffer.push item }.sendReturns item true).Sound
      capacity items where
  capacity := sound.capacity
  bounded := Nat.le_max_right _ _
  highWater := by
    have longer : (exchange.buffer.queue ++ [item]).length ≤ exchange.buffer.capacity := by
      rw [List.length_append]
      exact room
    exact Nat.max_le.mpr ⟨sound.highWater, longer⟩
  ordered := by
    have ordered := sound.ordered
    simp only [inHand, offering] at ordered
    simpa only [sendReturns, inHand, List.map_append, List.map_singleton, List.append_nil] using ordered
  conserved := fun _ => by
    rw [queued_accepted]
    calc
      exchange.received ++ (exchange.buffer.queue ++ [item]) =
          exchange.received ++ exchange.buffer.queue ++ [item] := (List.append_assoc _ _ _).symm
      _ = exchange.queued ++ [item] := by rw [sound.conserved present]
  closed := iff_of_false (mt sound.closed.mp (by rw [offering]; nofun)) nofun
  abandoned := sound.abandoned
  refused := by
    intro other member
    obtain earlier | now := List.mem_append.mp member
    · exact sound.refused other earlier
    · cases List.mem_singleton.mp now
  told := sound.told
  ended := fun ended => .inl (sound.cancelled_of_present (by rw [offering]; nofun) ended)

theorem produces (sound : exchange.Sound capacity items) (moved : exchange.Produces next) :
    next.Sound capacity items := by
  have present {place : ProducerPlace Item} (stands : exchange.producer = place)
      (there : place ≠ .gone) : exchange.producer ≠ .gone := by rwa [stands]
  cases moved with
  | begins item rest outside toSend =>
      apply sound.producer_moves (present outside nofun)
      · nofun
      · simp only [inHand, outside, toSend, List.nil_append, List.singleton_append]
  | isCancelled item checking cancelled =>
      have holds : exchange.inHand = [item] := by simp only [inHand, checking]
      exact sound.refuses (present checking nofun) holds (.inl cancelled)
  | goesOn item checking =>
      apply sound.producer_moves (present checking nofun)
      · nofun
      · simp only [inHand, checking]
  | isAbandoned item offering abandoned =>
      have holds : exchange.inHand = [item] := by simp only [inHand, offering]
      exact sound.refuses (present offering nofun) holds (.inr abandoned)
  | queues item offering isThere room => exact sound.queues offering isThere room
  | waits item offering full =>
      apply sound.producer_moves (present offering nofun)
      · nofun
      · simp only [inHand, offering]

theorem finishes (sound : exchange.Sound capacity items) (outside : exchange.producer = .outside) :
    ({ exchange with producer := .gone, buffer := exchange.buffer.close } : Exchange Item).Sound
      capacity items where
  capacity := sound.capacity
  bounded := sound.bounded
  highWater := sound.highWater
  ordered := by
    have ordered := sound.ordered
    simp only [inHand, outside] at ordered
    exact ordered
  conserved := sound.conserved
  closed := iff_of_true rfl rfl
  abandoned := sound.abandoned
  refused := sound.refused
  told := sound.told
  ended := fun ended => .inl (sound.cancelled_of_present (by rw [outside]; nofun) ended)

/-! The steps of the consumer. -/

/-- The consumer goes to another place, and perhaps goes on with its stream. -/
theorem consumer_moves (sound : exchange.Sound capacity items) {place : ConsumerPlace}
    {meter : Meter} (present : exchange.consumer ≠ .gone) (stays : place ≠ .gone)
    (going : meter.state.hasEnded = true → none ∈ exchange.answers)
    (ended : place = .ending → exchange.cancelled = true ∨ exchange.Drained) :
    ({ exchange with consumer := place, meter := meter } : Exchange Item).Sound capacity items where
  capacity := sound.capacity
  bounded := sound.bounded
  highWater := sound.highWater
  ordered := sound.ordered
  conserved := sound.conserved
  closed := sound.closed
  abandoned := iff_of_false (mt sound.abandoned.mp present) stays
  refused := sound.refused
  told := going
  ended := by
    rintro (told | ending)
    · exact (sound.ended (.inl told)).imp_right fun ⟨gone, empty, all⟩ => ⟨gone, empty, all⟩
    · exact (ended ending).imp_right fun ⟨gone, empty, all⟩ => ⟨gone, empty, all⟩

/-- The consumer is told of an end. -/
theorem tells_end (sound : exchange.Sound capacity items) {place : ConsumerPlace} {meter : Meter}
    (present : exchange.consumer ≠ .gone) (stays : place ≠ .gone)
    (ended : exchange.cancelled = true ∨ exchange.Drained) :
    ({ exchange with
      consumer := place, meter := meter, answers := exchange.answers ++ [none] } :
        Exchange Item).Sound capacity items where
  capacity := sound.capacity
  bounded := sound.bounded
  highWater := sound.highWater
  ordered := sound.ordered
  conserved := by
    rw [received, received_answered, Option.toList_none, List.append_nil]
    exact sound.conserved
  closed := sound.closed
  abandoned := iff_of_false (mt sound.abandoned.mp present) stays
  refused := sound.refused
  told := fun _ => List.mem_append_right _ List.mem_cons_self
  ended := by
    intro _
    refine ended.imp_right fun ⟨gone, empty, all⟩ => ⟨gone, empty, ?_⟩
    rw [received, received_answered, Option.toList_none, List.append_nil]
    exact all

/-- The consumer receives the first item of the queue. -/
theorem receives (sound : exchange.Sound capacity items) {item : Item} {rest : List Item}
    (receiving : exchange.consumer = .receiving) (queue : exchange.buffer.queue = item :: rest) :
    ({ exchange with
      buffer := { exchange.buffer with queue := rest } }.callReturns (some item)).Sound
        capacity items where
  capacity := sound.capacity
  bounded := by
    have bounded := sound.bounded
    rw [queue] at bounded
    exact Nat.le_of_succ_le bounded
  highWater := sound.highWater
  ordered := sound.ordered
  conserved := by
    intro isThere
    have conserved := sound.conserved isThere
    rw [queue] at conserved
    rw [received, callReturns, received_answered, Option.toList_some, List.append_assoc]
    exact conserved
  closed := sound.closed
  abandoned := iff_of_false (mt sound.abandoned.mp (by rw [receiving]; nofun)) nofun
  refused := sound.refused
  told := Bool.noConfusion
  ended := by
    -- Before the last item is received the queue is not empty, so there was no end without a cancellation.
    rintro (told | ending)
    · have earlier : none ∈ exchange.answers :=
        (List.mem_append.mp told).resolve_right fun now => nomatch List.mem_singleton.mp now
      refine .inl ((sound.ended (.inl earlier)).resolve_right fun drained => ?_)
      cases queue.symm.trans drained.empty
    · cases ending

theorem consumes (sound : exchange.Sound capacity items) (moved : exchange.Consumes next) :
    next.Sound capacity items := by
  have present {place : ConsumerPlace} (stands : exchange.consumer = place)
      (there : place ≠ .gone) : exchange.consumer ≠ .gone := by rwa [stands]
  cases moved with
  | hasEnded outside ended =>
      exact sound.tells_end (present outside nofun) (present outside nofun)
        ((sound.ended (.inl (sound.told ended))))
  | begins outside going =>
      apply sound.consumer_moves (present outside nofun)
      · nofun
      · exact sound.told
      · nofun
  | isCancelled checking cancelled =>
      exact sound.tells_end (present checking nofun) nofun (.inl cancelled)
  | goesOn checking =>
      apply sound.consumer_moves (present checking nofun)
      · nofun
      · exact Bool.noConfusion
      · nofun
  | receives item rest receiving queue => exact sound.receives receiving queue
  | findsEnd receiving queue closed =>
      apply sound.consumer_moves (present receiving nofun)
      · nofun
      · exact sound.told
      · intro _
        have kept := sound.conserved (sound.not_abandoned (present receiving nofun))
        rw [queue, List.append_nil] at kept
        exact .inr ⟨sound.closed.mp closed, queue, kept⟩
  | waits receiving =>
      apply sound.consumer_moves (present receiving nofun)
      · nofun
      · exact sound.told
      · nofun
  | givesUp waiting cancelled =>
      apply sound.consumer_moves (present waiting nofun)
      · nofun
      · exact sound.told
      · exact fun _ => .inl cancelled
  | triesAgain waiting =>
      apply sound.consumer_moves (present waiting nofun)
      · nofun
      · exact sound.told
      · nofun
  | ends ending => exact sound.tells_end (present ending nofun) nofun (sound.ended (.inr ending))

theorem leaves (sound : exchange.Sound capacity items) :
    ({ exchange with consumer := .gone, buffer := exchange.buffer.abandon } : Exchange Item).Sound
      capacity items where
  capacity := sound.capacity
  bounded := Nat.zero_le _
  highWater := sound.highWater
  ordered := sound.ordered
  conserved := Bool.noConfusion
  closed := sound.closed
  abandoned := iff_of_true rfl rfl
  refused := fun _ _ => .inr rfl
  told := sound.told
  ended := by
    rintro (told | ending)
    · exact (sound.ended (.inl told)).imp_right fun ⟨gone, _, all⟩ => ⟨gone, rfl, all⟩
    · cases ending

theorem cancels (sound : exchange.Sound capacity items) :
    ({ exchange with cancelled := true } : Exchange Item).Sound capacity items :=
  { sound with
    refused := fun _ _ => .inl rfl
    ended := fun _ => .inl rfl }

/-! ## Every order of the steps -/

theorem steps (sound : exchange.Sound capacity items) (moved : exchange.Steps next) :
    next.Sound capacity items := by
  cases moved with
  | produces moved => exact sound.produces moved
  | finishes outside => exact sound.finishes outside
  | consumes moved => exact sound.consumes moved
  | leaves outside => exact sound.leaves
  | cancels => exact sound.cancels

theorem run (sound : exchange.Sound capacity items) {moves : List Move}
    (ran : exchange.run moves = some next) : next.Sound capacity items := by
  induction moves generalizing exchange with
  | nil =>
      cases ran
      exact sound
  | cons move moves induction =>
      obtain ⟨middle, moved, rest⟩ := Option.bind_eq_some_iff.mp ran
      exact induction (sound.steps (steps_of_eq moved)) rest

end Sound

/-- In every order of the steps, the queue never holds more than its capacity. Until the stream is
dropped, what the consumer received and what is in the queue are the items whose sends told that they
were queued, in the order of the list. If the consumer is told of the end, the pipeline was cancelled, or
the producer is done and every item that was queued has been received. -/
theorem buffer_keeps_order (capacity : Nat) (items : List Item) {moves : List Move}
    {final : Exchange Item} (ran : (start capacity items).run moves = some final) :
    final.buffer.queue.length ≤ max capacity 1 ∧
      (final.consumer ≠ .gone → final.received ++ final.buffer.queue = final.queued) ∧
      final.sent.map Prod.fst <+: items ∧
      (none ∈ final.answers → final.cancelled = true ∨
        final.buffer.closed = true ∧ final.received = final.queued) := by
  have sound := (sound_start capacity items).run ran
  refine ⟨?_, fun present => sound.conserved (sound.not_abandoned present), ?_, fun told => ?_⟩
  · rw [← sound.capacity]
    exact Nat.le_trans sound.bounded sound.highWater
  · rw [List.prefix_iff_exists_append_eq]
    exact ⟨_, (List.append_assoc _ _ _).symm.trans sound.ordered⟩
  · exact (sound.ended (.inl told)).imp_right fun drained => ⟨sound.closed.mpr drained.gone, drained.all⟩

/-- The consumer finds the queue empty, then the producer sends into it and finishes, and the item is
still received before the end. -/
theorem buffer_keeps_order_last :
    ∃ final : Exchange Nat,
      (start 0 [5]).run [.consume, .consume, .consume, .produce, .produce, .produce, .finish, .consume,
        .consume, .consume, .consume, .consume, .consume] = some final ∧
      final.answers = [some 5, none] ∧ final.sent = [(5, true)] ∧
      final.buffer.queue.length ≤ max 0 1 ∧
      (final.consumer ≠ .gone → final.received ++ final.buffer.queue = final.queued) ∧
      final.sent.map Prod.fst <+: [5] ∧
      (none ∈ final.answers → final.cancelled = true ∨
        final.buffer.closed = true ∧ final.received = final.queued) := by
  obtain ⟨final, ran, answers, sent⟩ : ∃ final : Exchange Nat,
      (start 0 [5]).run [.consume, .consume, .consume, .produce, .produce, .produce, .finish, .consume,
        .consume, .consume, .consume, .consume, .consume] = some final ∧
      final.answers = [some 5, none] ∧ final.sent = [(5, true)] := ⟨_, rfl, rfl, rfl⟩
  exact ⟨final, ran, answers, sent, buffer_keeps_order 0 [5] ran⟩

/-- A producer that sent everything, to a consumer that was told of the end in a pipeline that was not
cancelled: the consumer received what the stream of the items hands out. -/
theorem collect_received (capacity : Nat) (items : List Item) {moves : List Move}
    {final : Exchange Item} (ran : (start capacity items).run moves = some final)
    (all : final.toSend = []) (told : none ∈ final.answers) (quiet : final.cancelled = false)
    (present : final.consumer ≠ .gone) :
    ((Stream.ofProducer capacity items).collect none).Answers final.received := by
  have sound := (sound_start capacity items).run ran
  have active : ¬final.cancelled = true := Bool.eq_false_iff.mp quiet
  have drained := (sound.ended (.inl told)).resolve_left active
  have accepted : final.sent.filter Prod.snd = final.sent := by
    apply List.filter_eq_self.mpr
    rintro ⟨item, answer⟩ member
    cases answer with
    | true => rfl
    | false =>
        obtain cancelled | abandoned := sound.refused item member
        · exact absurd cancelled active
        · exact absurd (sound.abandoned.mp abandoned) present
  have whole : final.received = items := by
    have ordered := sound.ordered
    rw [all, inHand, drained.gone, List.append_nil, List.append_nil] at ordered
    rw [drained.all, queued, accepted, ordered]
  have carries : (Stream.ofProducer capacity items).Carries items :=
    ⟨⟨StreamState.noConfusion, Source.ofList_supplies items⟩, nofun⟩
  rw [whole]
  exact carries.collect none

end Exchange

end TierVault
