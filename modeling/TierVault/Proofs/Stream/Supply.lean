import TierVault.Stream.Transform
import TierVault.Sums

/-!
What a stream hands out when nobody cancels it.

A place, be it the core of a source or the position of a stream, supplies a list if pulls from it hand
out the items of the list one after the other and then tell the end. Everything that consumes a stream
is described by the list that its position supplies.
-/

namespace TierVault

/-- The computation gives the result, and leaves a pipeline that was not cancelled so. -/
def Flow.Answers {Result : Type} (flow : Flow Result) (result : Result) : Prop :=
  flow false = .ok result false

namespace Flow

variable {Result Next : Type} {flow : Flow Result} {next : Result → Flow Next} {before after : Bool}

theorem bind_of_ok {result : Result} (ran : flow before = .ok result after) :
    (flow >>= next) before = next result after := by
  simp only [Bind.bind, EStateM.bind, ran]

theorem bind_of_error {fault : Fault} (stopped : flow before = .error fault after) :
    (flow >>= next) before = .error fault after := by
  simp only [Bind.bind, EStateM.bind, stopped]

/-- What ended has come through its first part. -/
theorem of_bind {last : Next} (ran : (flow >>= next) before = .ok last after) :
    ∃ result now, flow before = .ok result now ∧ next result now = .ok last after := by
  cases first : flow before with
  | ok result now => exact ⟨result, now, rfl, (bind_of_ok first).symm.trans ran⟩
  | error fault now =>
      rw [bind_of_error first] at ran
      cases ran

theorem map_congr {other : Flow Result} {change : Result → Next} (same : flow before = other after) :
    (change <$> flow) before = (change <$> other) after := by
  simp only [Functor.map, EStateM.map, same]

end Flow

namespace Flow.Answers

variable {Result Next : Type}

theorem pure (result : Result) : Flow.Answers (Pure.pure result) result := rfl

theorem bind {flow : Flow Result} {next : Result → Flow Next} {middle : Result} {result : Next}
    (first : flow.Answers middle) (second : (next middle).Answers result) :
    Flow.Answers (flow >>= next) result :=
  (bind_of_ok first).trans second

theorem isCancelled : Flow.isCancelled.Answers false := rfl

end Flow.Answers

section Supply

variable {Place Item : Type} {pull : Place → Flow (Option Item × Place)} {remaining : Place → Nat}

/-- Pulls from the place hand out the items and then tell the end; `remaining` never promises too
little. -/
def Supplies (pull : Place → Flow (Option Item × Place)) (remaining : Place → Nat) :
    Place → List Item → Prop
  | place, [] => ∃ after, (pull place).Answers (none, after)
  | place, item :: rest =>
    rest.length < remaining place ∧
      ∃ after, (pull place).Answers (some item, after) ∧ Supplies pull remaining after rest

theorem Supplies.length_le {place : Place} {items : List Item}
    (supplies : Supplies pull remaining place items) : items.length ≤ remaining place := by
  cases items with
  | nil => exact Nat.zero_le _
  | cons item rest => exact supplies.1

/-- A pull tells the first item, and the place after an item supplies the others. -/
theorem Supplies.pulled {place : Place} {items : List Item}
    (supplies : Supplies pull remaining place items) :
    ∃ after, (pull place).Answers (items.head?, after) ∧
      (items ≠ [] → Supplies pull remaining after items.tail) := by
  cases items with
  | nil =>
      obtain ⟨after, pulled⟩ := supplies
      exact ⟨after, pulled, fun some => absurd rfl some⟩
  | cons item rest =>
      obtain ⟨-, after, pulled, others⟩ := supplies
      exact ⟨after, pulled, fun _ => others⟩

/-- The source of a list supplies that list. -/
theorem Source.ofList_supplies (items : List Item) :
    Supplies (Source.ofList items).pull (Source.ofList items).remaining items items := by
  suffices from_any : ∀ left : List Item,
      Supplies (Source.ofList items).pull (Source.ofList items).remaining left left from
    from_any items
  intro left
  induction left with
  | nil => exact ⟨[], rfl⟩
  | cons item rest induction => exact ⟨Nat.lt_succ_self _, rest, rfl, induction⟩

/-- A pull of numbered items tells the item of its number, and beyond the last one the end. -/
theorem Source.of_numbered {count index : Nat} {item : Nat → Except Fault Item} {before after : Bool}
    {told : Option Item × Nat} (pulled : (Source.numbered count item).pull index before = .ok told after) :
    (index < count ∧ ∃ found, item index = .ok found ∧ told = (some found, index + 1)) ∨
      (count ≤ index ∧ told = (none, index)) := by
  unfold Source.numbered at pulled
  dsimp only at pulled
  by_cases more : index < count
  · rw [if_pos more] at pulled
    left
    cases found : item index with
    | error fault =>
        rw [found] at pulled
        cases pulled
    | ok one =>
        rw [found] at pulled
        cases pulled
        exact ⟨more, one, rfl, rfl⟩
  · rw [if_neg more] at pulled
    cases pulled
    exact .inr ⟨Nat.le_of_not_lt more, rfl⟩

end Supply

namespace Stream

variable {Item : Type} {stream : Stream Item} {position : stream.Position} {items : List Item}

/-! ## Pulling a stream -/

theorem advance_ended (ended : position.2.state.hasEnded = true) :
    (stream.advance position).Answers (none, position) := by
  unfold Flow.Answers advance
  simp only [ended, if_true]
  rfl

/-- A stream that has not ended and is not cancelled hands out what its source does. -/
theorem advance_ran (going : position.2.state.hasEnded = false) {item? : Option Item}
    {core : stream.source.Core} {after : Bool} (ran : stream.source.pull position.1 false = .ok (item?, core) after) :
    stream.advance position false = .ok (item?, core, stream.meterAfter position.2 after item?) after := by
  unfold advance
  simp only [going, Bool.false_eq_true, if_false]
  exact (Flow.bind_of_ok Flow.Answers.isCancelled).trans (Flow.bind_of_ok ran)

theorem advance_stopped (going : position.2.state.hasEnded = false) {fault : Fault} {after : Bool}
    (stopped : stream.source.pull position.1 false = .error fault after) :
    stream.advance position false = .error fault after := by
  unfold advance
  simp only [going, Bool.false_eq_true, if_false]
  exact (Flow.bind_of_ok Flow.Answers.isCancelled).trans (Flow.bind_of_error stopped)

theorem advance_pulled (going : position.2.state.hasEnded = false) {item? : Option Item}
    {core : stream.source.Core} (pulled : (stream.source.pull position.1).Answers (item?, core)) :
    (stream.advance position).Answers
      (item?, core, stream.meterAfter position.2 false item?) :=
  advance_ran going pulled

/-- How a pull can go: of a stream that has ended, of one whose pipeline was cancelled, and of its source. -/
theorem advance_cases {before after : Bool} {item? : Option Item} {next : stream.Position}
    (ran : stream.advance position before = .ok (item?, next) after) :
    (position.2.state.hasEnded = true ∧ item? = none ∧ next = position ∧ after = before) ∨
      position.2.state.hasEnded = false ∧
        ((before = true ∧ after = true ∧ item? = none ∧
            next = (position.1, { position.2 with state := .cancelled })) ∨
          (before = false ∧ ∃ core, stream.source.pull position.1 false = .ok (item?, core) after ∧
            next = (core, stream.meterAfter position.2 after item?))) := by
  obtain ⟨core, meter⟩ := position
  unfold advance at ran
  cases ended : meter.state.hasEnded with
  | true =>
      simp only [ended, if_true] at ran
      cases ran
      exact .inl ⟨rfl, rfl, rfl, rfl⟩
  | false =>
      simp only [ended, Bool.false_eq_true, if_false] at ran
      cases before with
      | true =>
          cases ran
          exact .inr ⟨rfl, .inl ⟨rfl, rfl, rfl, rfl⟩⟩
      | false =>
          obtain ⟨_, _, looked, onward⟩ := Flow.of_bind ran
          cases looked
          obtain ⟨⟨told, left⟩, now, pulled, made⟩ := Flow.of_bind onward
          cases made
          exact .inr ⟨rfl, .inr ⟨rfl, left, pulled, rfl⟩⟩

/-- What draining leaves on the meter, and that it stops early only where the stream ends. -/
theorem drainFrom_meter {bound : Nat} {before after : Bool} {next : stream.Position}
    (ran : stream.drainFrom bound position before = .ok (items, next) after) :
    next.2.processed = position.2.processed + items.length ∧
      next.2.bytes = position.2.bytes + sumOf (items.map stream.weight) ∧
      (items.length < bound → next.2.state.hasEnded = true) := by
  induction bound generalizing position items before with
  | zero =>
      cases ran
      exact ⟨rfl, rfl, fun early => absurd early (Nat.not_lt_zero _)⟩
  | succ bound induction =>
      obtain ⟨⟨item?, middle⟩, now, advanced, rest⟩ := Flow.of_bind ran
      cases item? with
      | none =>
          cases rest
          rcases advance_cases advanced with ⟨ended, -, rfl, -⟩ | ⟨-, ⟨-, -, -, rfl⟩ | ⟨-, core, -, rfl⟩⟩
          · exact ⟨rfl, rfl, fun _ => ended⟩
          · exact ⟨rfl, rfl, fun _ => rfl⟩
          · refine ⟨rfl, rfl, fun _ => ?_⟩
            cases after <;> rfl
      | some item =>
          obtain ⟨⟨others, final⟩, last, drained, told⟩ := Flow.of_bind rest
          cases told
          obtain ⟨counted, weighed, ends⟩ := induction drained
          rcases advance_cases advanced with ⟨-, told, -⟩ | ⟨-, ⟨-, -, told, -⟩ | ⟨-, core, -, rfl⟩⟩
          · cases told
          · cases told
          · simp only [meterAfter] at counted weighed
            refine ⟨?_, ?_, fun early => ends (Nat.lt_of_succ_lt_succ early)⟩
            · rw [counted, List.length_cons]
              omega
            · rw [weighed, List.map_cons, sumOf_cons, Nat.add_assoc]

/-- The items that are still to come from a position of the stream. A stream that has ended has no more
of them, whatever its source would do. -/
structure SuppliesFrom (stream : Stream Item) (position : stream.Position) (items : List Item) :
    Prop where
  active : position.2.state ≠ .cancelled
  supplies : if position.2.state.hasEnded then items = []
    else Supplies stream.source.pull stream.source.remaining position.1 items

namespace SuppliesFrom

theorem length_le (supplies : stream.SuppliesFrom position items) :
    items.length ≤ stream.remainingFrom position := by
  have given := supplies.supplies
  split at given
  · subst given
    exact Nat.zero_le _
  · exact given.length_le

/-- A pull tells the first item, if there is one; the others are still to come after it. -/
theorem advance (supplies : stream.SuppliesFrom position items) :
    ∃ after, (stream.advance position).Answers (items.head?, after) ∧
      stream.SuppliesFrom after items.tail := by
  have given := supplies.supplies
  cases ended : position.2.state.hasEnded with
  | true =>
      simp only [ended, if_true] at given
      subst given
      exact ⟨position, advance_ended ended, supplies⟩
  | false =>
      simp only [ended, Bool.false_eq_true, if_false] at given
      obtain ⟨core, pulled, others⟩ := given.pulled
      refine ⟨_, advance_pulled ended pulled, ?_⟩
      cases items with
      | nil => exact ⟨StreamState.noConfusion, rfl⟩
      | cons item rest => exact ⟨StreamState.noConfusion, others (List.cons_ne_nil _ _)⟩

/-- Draining tells as many items as are asked for, or all that there are. -/
theorem drainFrom (supplies : stream.SuppliesFrom position items) (bound : Nat) :
    ∃ after, (stream.drainFrom bound position).Answers (items.take bound, after) ∧
      stream.SuppliesFrom after (items.drop bound) := by
  induction bound generalizing position items with
  | zero => exact ⟨position, .pure _, supplies⟩
  | succ bound induction =>
      obtain ⟨next, advanced, others⟩ := supplies.advance
      cases items with
      | nil => exact ⟨next, .bind advanced (.pure _), others⟩
      | cons item rest =>
          obtain ⟨after, drained, left⟩ := induction others
          exact ⟨after, .bind advanced (.bind drained (.pure _)), left⟩

/-- Discarding tells whether there were as many items as were to be discarded. -/
theorem discard (supplies : stream.SuppliesFrom position items) (count : Nat) :
    ∃ after, (stream.discard count position).Answers (decide (count ≤ items.length), after) ∧
      stream.SuppliesFrom after (items.drop count) := by
  induction count generalizing position items with
  | zero => exact ⟨position, .pure _, supplies⟩
  | succ count induction =>
      obtain ⟨next, advanced, others⟩ := supplies.advance
      cases items with
      | nil => exact ⟨next, .bind advanced (.pure _), others⟩
      | cons item rest =>
          obtain ⟨after, discarded, left⟩ := induction others
          have counted : decide (count + 1 ≤ (item :: rest).length) = decide (count ≤ rest.length) :=
            decide_eq_decide.mpr Nat.add_le_add_iff_right
          rw [counted]
          exact ⟨after, .bind advanced discarded, left⟩

/-- Seeking tells the first item that is kept; those that are kept after it are still to come. -/
theorem seek (supplies : stream.SuppliesFrom position items) {keep : Item → Bool} {bound : Nat}
    (enough : items.length < bound) :
    ∃ after left, (stream.seek (fun item => pure (keep item)) bound position).Answers
        ((items.filter keep).head?, after) ∧
      stream.SuppliesFrom after left ∧ left.filter keep = (items.filter keep).tail := by
  induction bound generalizing position items with
  | zero => exact absurd enough (Nat.not_lt_zero _)
  | succ bound induction =>
      obtain ⟨next, advanced, others⟩ := supplies.advance
      cases items with
      | nil => exact ⟨next, [], .bind advanced (.pure _), others, rfl⟩
      | cons item rest =>
          cases kept : keep item with
          | true =>
              rw [List.filter_cons_of_pos kept]
              refine ⟨next, rest, .bind advanced (.bind (.pure (keep item)) ?_), others, rfl⟩
              simp only [kept, if_true]
              exact .pure _
          | false =>
              rw [List.filter_cons_of_neg (by simp only [kept, Bool.false_eq_true, not_false_eq_true])]
              obtain ⟨after, left, sought, follows⟩ := induction others (Nat.lt_of_succ_lt_succ enough)
              refine ⟨after, left, .bind advanced (.bind (.pure (keep item)) ?_), follows⟩
              simp only [kept, Bool.false_eq_true, if_false]
              exact sought

/-- Draining hands out all items, counts and weighs them, and uses the stream up. -/
theorem drain (supplies : stream.SuppliesFrom stream.position items) :
    ∃ after, stream.drain.Answers (items, after) ∧ after.2.state = .exhausted ∧
      after.2.processed = stream.meter.processed + items.length ∧
      after.2.bytes = stream.meter.bytes + sumOf (items.map stream.weight) := by
  have enough : items.length < stream.remaining + 1 := Nat.lt_succ_of_le supplies.length_le
  obtain ⟨after, drained, left⟩ := supplies.drainFrom (stream.remaining + 1)
  rw [List.take_of_length_le (Nat.le_of_lt enough)] at drained
  obtain ⟨counted, weighed, ends⟩ := drainFrom_meter drained
  refine ⟨after, drained, ?_, counted, weighed⟩
  have ended := ends enough
  cases state : after.2.state with
  | created | iterating =>
      rw [state] at ended
      cases ended
  | exhausted => rfl
  | cancelled => exact absurd state left.active

end SuppliesFrom

end Stream

end TierVault
