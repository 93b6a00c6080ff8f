import TierVault.Proofs.Stream.Lines
import TierVault.Proofs.Stream.Shadows

/-!
What the total of a stream tells when the stream is used up.

A place owes a number of items if pulls from it hand out that many and then tell the end, unless the pipeline is
cancelled. What transforms owe follows from what the stream below them owes, whatever their functions do. A stream that
is used up has handed out what it owed when it was made; its total is that number as long as every line of its file is
read and no stream was pulled before it was transformed, and is never less.
-/

namespace TierVault

/-! ## Computations that nobody cancels -/

namespace Flow

variable {Result Next : Type}

/-- A pipeline that was cancelled stays so. -/
def Lasting (flow : Flow Result) : Prop := ∀ result after, flow true = .ok result after → after = true

/-- What ends in a pipeline that is not cancelled then has such a result. -/
def Yields (flow : Flow Result) (told : Result → Prop) : Prop :=
  ∀ result, flow false = .ok result false → told result

theorem Lasting.pure (result : Result) : Flow.Lasting (Pure.pure result) := by
  intro told after ended
  cases ended
  rfl

theorem Lasting.of_late {flow : Flow Result} {result : Result} (late : flow true = .ok result true) :
    flow.Lasting := by
  intro told after ended
  cases late.symm.trans ended
  rfl

theorem Lasting.bind {flow : Flow Result} {next : Result → Flow Next} (first : flow.Lasting)
    (goes : ∀ result, (next result).Lasting) : Flow.Lasting (flow >>= next) := by
  intro last after ended
  obtain ⟨result, now, ran, rest⟩ := of_bind ended
  cases first result now ran
  exact goes result last after rest

namespace Yields

variable {told : Result → Prop} {later : Next → Prop}

theorem pure {result : Result} (holds : told result) : Flow.Yields (Pure.pure result) told := by
  intro last ended
  cases ended
  exact holds

theorem bind {flow : Flow Result} {next : Result → Flow Next} (first : flow.Yields told)
    (lasting : ∀ result, (next result).Lasting) (goes : ∀ result, told result → (next result).Yields later) :
    Flow.Yields (flow >>= next) later := by
  intro last ended
  obtain ⟨result, now, ran, rest⟩ := of_bind ended
  cases now with
  | false => exact goes result (first result ran) last rest
  | true => cases lasting result last false rest

end Yields

end Flow

/-- The function never takes a cancellation back. -/
def Closure.Lasting {Argument Result : Type} (closure : Closure Argument Result) : Prop :=
  ∀ state argument, (closure.call state argument).Lasting

/-! ## What places owe -/

section

variable {Place Item : Type} {pull : Place → Flow (Option Item × Place)}

/-- There is an item if one is owed, and one less is owed after it. -/
def Hands (owed : Nat → Place → Prop) (count : Nat) (told : Option Item × Place) : Prop :=
  told.1.isSome = decide (0 < count) ∧ (0 < count → owed (count - 1) told.2)

/-- Where nothing is owed, the end is told. -/
theorem hands_nothing (owed : Nat → Place → Prop) (place : Place) : Hands owed 0 ((none : Option Item), place) :=
  ⟨rfl, fun some => absurd some (Nat.lt_irrefl 0)⟩

theorem owed_of_none {count : Nat} (there : (none : Option Item).isSome = decide (0 < count)) : count = 0 :=
  Nat.eq_zero_of_not_pos (of_decide_eq_false there.symm)

theorem owed_of_some {count : Nat} {item : Item} (there : (some item).isSome = decide (0 < count)) : 0 < count :=
  of_decide_eq_true there.symm

/-- Pulls from the place hand out `count` items and then tell the end, unless somebody cancels. -/
def Owes (pull : Place → Flow (Option Item × Place)) : (count : Nat) → Place → Prop
  | 0, place => (pull place).Yields fun (item?, _) => item?.isSome = false
  | count + 1, place => (pull place).Yields fun (item?, after) => item?.isSome = true ∧ Owes pull count after

theorem Owes.pulled {count : Nat} {place : Place} (owes : Owes pull count place) :
    (pull place).Yields (Hands (Owes pull) count) := by
  intro told ended
  cases count with
  | zero => exact ⟨owes told ended, fun owed => absurd owed (Nat.lt_irrefl 0)⟩
  | succ count =>
      obtain ⟨there, others⟩ := owes told ended
      exact ⟨there, fun _ => others⟩

/-- What every pull keeps is owed. -/
theorem owes_of_pulls {owed : Nat → Place → Prop}
    (pulls : ∀ count place, owed count place → (pull place).Yields (Hands owed count)) {count : Nat}
    {place : Place} (holds : owed count place) : Owes pull count place := by
  induction count generalizing place with
  | zero => exact fun told ended => (pulls 0 place holds told ended).1
  | succ count induction =>
      intro told ended
      obtain ⟨there, others⟩ := pulls (count + 1) place holds told ended
      exact ⟨there, induction (others (Nat.succ_pos count))⟩

theorem Source.ofList_owes (items : List Item) : Owes (Source.ofList items).pull items.length items := by
  let owed (count : Nat) (left : List Item) : Prop := count = left.length
  suffices pulls : ∀ count left, owed count left → ((Source.ofList items).pull left).Yields (Hands owed count) from
    owes_of_pulls pulls rfl
  rintro count left rfl
  cases left with
  | nil => exact .pure (hands_nothing owed _)
  | cons item rest => exact .pure ⟨rfl, fun _ => rfl⟩

theorem Source.numbered_owes (count : Nat) (item : Nat → Except Fault Item) :
    Owes (Source.numbered count item).pull count (Source.numbered count item).core := by
  let owed (left index : Nat) : Prop := left = count - index
  suffices pulls : ∀ left index, owed left index →
      ((Source.numbered count item).pull index).Yields (Hands owed left) from
    owes_of_pulls pulls (Nat.sub_zero count).symm
  rintro _ index rfl told ended
  obtain ⟨more, one, -, rfl⟩ | ⟨past, rfl⟩ := Source.of_numbered ended
  · exact ⟨(decide_eq_true (Nat.sub_pos_of_lt more)).symm, fun _ => Nat.sub_sub count index 1⟩
  · rw [Nat.sub_eq_zero_of_le past]
    exact hands_nothing owed index

end

namespace Stream

variable {Item Result : Type} {stream : Stream Item} {position : stream.Position} {count : Nat}

theorem advance_lasting (position : stream.Position) : (stream.advance position).Lasting :=
  .of_late (advance_late stream position)

theorem drainFrom_lasting (bound : Nat) (position : stream.Position) :
    (stream.drainFrom bound position).Lasting := by
  cases bound with
  | zero => exact .pure _
  | succ bound => exact .of_late (drainFrom_late stream position bound)

theorem discard_lasting (count : Nat) (position : stream.Position) :
    (stream.discard count position).Lasting := by
  obtain ⟨there, after, late⟩ := discard_late stream position count
  exact .of_late late

/-- The stream hands out `count` more items from the position, unless somebody cancels. -/
structure OwesFrom (stream : Stream Item) (position : stream.Position) (count : Nat) : Prop where
  active : position.2.state ≠ .cancelled
  owes : if position.2.state.hasEnded then count = 0 else Owes stream.source.pull count position.1

namespace OwesFrom

/-- A pull tells an item exactly if one is owed; after the end nothing is owed any more. -/
theorem advance (owes : stream.OwesFrom position count) :
    (stream.advance position).Yields fun (item?, after) =>
      item?.isSome = decide (0 < count) ∧ stream.OwesFrom after (count - 1) := by
  intro (item?, after) ended
  have given := owes.owes
  rcases advance_cases ended with ⟨finished, rfl, rfl, -⟩ | ⟨going, ⟨late, -⟩ | ⟨-, core, pulled, rfl⟩⟩
  · rw [if_pos finished] at given
    subst given
    exact ⟨rfl, owes⟩
  · cases late
  · rw [going] at given
    obtain ⟨there, others⟩ := given.pulled (item?, core) pulled
    refine ⟨there, ?_⟩
    cases item? with
    | none =>
        have zero : count = 0 := owed_of_none there
        exact ⟨StreamState.noConfusion, by rw [zero]; rfl⟩
    | some item => exact ⟨StreamState.noConfusion, others (owed_of_some there)⟩

/-- Draining tells as many items as are asked for, or all that are owed. -/
theorem drainFrom (owes : stream.OwesFrom position count) (bound : Nat) :
    (stream.drainFrom bound position).Yields fun (items, after) =>
      items.length = min bound count ∧ stream.OwesFrom after (count - bound) := by
  induction bound generalizing position count with
  | zero => exact .pure ⟨(Nat.zero_min count).symm, owes⟩
  | succ bound induction =>
      refine .bind owes.advance (fun (item?, middle) => ?_) fun (item?, middle) ⟨there, others⟩ => ?_
      · cases item? with
        | none => exact .pure _
        | some item => exact .bind (drainFrom_lasting bound middle) fun _ => .pure _
      · cases item? with
        | none =>
            have zero : count = 0 := owed_of_none there
            subst zero
            exact .pure ⟨rfl, by rwa [Nat.zero_sub] at others ⊢⟩
        | some item =>
            have positive : 0 < count := owed_of_some there
            refine .bind (induction others) (fun _ => .pure _) fun (items, after) ⟨length, left⟩ => ?_
            refine .pure ⟨?_, ?_⟩
            · rw [List.length_cons, length]
              omega
            · rwa [Nat.sub_sub, Nat.add_comm] at left

/-- Discarding tells whether as many items were owed as were to be discarded. -/
theorem discard (owes : stream.OwesFrom position count) (amount : Nat) :
    (stream.discard amount position).Yields fun (there, after) =>
      there = decide (amount ≤ count) ∧ stream.OwesFrom after (count - amount) := by
  induction amount generalizing position count with
  | zero => exact .pure ⟨(decide_eq_true (Nat.zero_le count)).symm, owes⟩
  | succ amount induction =>
      refine .bind owes.advance (fun (item?, middle) => ?_) fun (item?, middle) ⟨there, others⟩ => ?_
      · cases item? with
        | none => exact .pure _
        | some item => exact discard_lasting amount middle
      · cases item? with
        | none =>
            have zero : count = 0 := owed_of_none there
            subst zero
            exact .pure ⟨rfl, by rwa [Nat.zero_sub] at others ⊢⟩
        | some item =>
            have positive : 0 < count := owed_of_some there
            intro (there, after) ended
            obtain ⟨told, left⟩ := induction others (there, after) ended
            refine ⟨?_, by rwa [Nat.sub_sub, Nat.add_comm] at left⟩
            rw [told, decide_eq_decide]
            omega

theorem atPosition (owes : stream.OwesFrom position count) :
    (stream.atPosition position).OwesFrom (stream.atPosition position).position count :=
  ⟨owes.active, owes.owes⟩

/-! ## What transforms owe -/

theorem mapBy (owes : stream.OwesFrom position count) {transform : Closure Item Result}
    (lasting : transform.Lasting) (state : transform.State) :
    Owes (stream.mapBy transform).source.pull count (position, state) := by
  let owed (count : Nat) (place : stream.Position × transform.State) : Prop := stream.OwesFrom place.1 count
  suffices pulls : ∀ count place, owed count place →
      ((stream.mapBy transform).source.pull place).Yields (Hands owed count) from
    owes_of_pulls pulls owes
  intro count (position, state) owes
  refine .bind owes.advance (fun (item?, after) => ?_) fun (item?, after) ⟨there, others⟩ => ?_
  · cases item? with
    | none => exact .pure _
    | some item => exact .bind (lasting state item) fun _ => .pure _
  · cases item? with
    | none => exact .pure ⟨there, fun _ => others⟩
    | some item =>
        refine .bind (fun _ _ => trivial) (fun _ => .pure _) fun (result, next) (_ : True) => ?_
        exact .pure ⟨there, fun _ => others⟩

theorem batch (owes : stream.OwesFrom position count) (size : Nat) :
    Owes (stream.batch size).source.pull (groupCount count (max size 1)) (position, ()) := by
  have positive : 0 < max size 1 := Nat.le_max_right size 1
  let owed (batches : Nat) (place : stream.Position × Unit) : Prop :=
    ∃ count, batches = groupCount count (max size 1) ∧ stream.OwesFrom place.1 count
  suffices pulls : ∀ batches place, owed batches place →
      ((stream.batch size).source.pull place).Yields (Hands owed batches) from
    owes_of_pulls pulls ⟨count, rfl, owes⟩
  rintro _ ⟨position, own⟩ ⟨count, rfl, owes⟩
  refine .bind (owes.drainFrom (max size 1)) (fun (items, after) => ?_) fun (items, after) ⟨length, left⟩ => ?_
  · dsimp only
    split <;> exact .pure _
  · simp only [left.active, decide_false, Bool.or_false]
    cases items with
    | nil =>
        have zero : count = 0 := by
          rw [List.length_nil] at length
          omega
        rw [zero, groupCount_zero positive]
        exact .pure (hands_nothing owed _)
    | cons item rest =>
        have some_owed : 0 < count := by
          rw [List.length_cons] at length
          omega
        rw [groupCount_step positive some_owed]
        exact .pure ⟨(decide_eq_true (Nat.succ_pos _)).symm, fun _ => ⟨_, Nat.add_sub_cancel _ 1, left⟩⟩

theorem take (owes : stream.OwesFrom position count) (amount left : Nat) :
    Owes (stream.take amount).source.pull (min count left) (position, left) := by
  let owed (few : Nat) (place : stream.Position × Nat) : Prop :=
    ∃ count, few = min count place.2 ∧ stream.OwesFrom place.1 count
  suffices pulls : ∀ few place, owed few place →
      ((stream.take amount).source.pull place).Yields (Hands owed few) from
    owes_of_pulls pulls ⟨count, rfl, owes⟩
  rintro _ ⟨position, left⟩ ⟨count, rfl, owes⟩
  cases left with
  | zero =>
      rw [show min count (position, 0).2 = 0 from Nat.min_zero count]
      exact .pure (hands_nothing owed _)
  | succ left =>
      refine .bind owes.advance (fun _ => .pure _) fun (item?, after) ⟨there, others⟩ => ?_
      refine .pure ⟨?_, fun _ => ⟨count - 1, ?_, others⟩⟩
      · rw [there, decide_eq_decide]
        omega
      · show min count (left + 1) - 1 = min (count - 1) left
        omega

theorem skip (owes : stream.OwesFrom position count) (amount left : Nat) :
    Owes (stream.skip amount).source.pull (count - left) (position, left) := by
  let owed (rest : Nat) (place : stream.Position × Nat) : Prop :=
    ∃ count, rest = count - place.2 ∧ stream.OwesFrom place.1 count
  suffices pulls : ∀ rest place, owed rest place →
      ((stream.skip amount).source.pull place).Yields (Hands owed rest) from
    owes_of_pulls pulls ⟨count, rfl, owes⟩
  rintro _ ⟨position, left⟩ ⟨count, rfl, owes⟩
  refine .bind (owes.discard left) (fun (there, after) => ?_) fun (there, after) ⟨enough, others⟩ => ?_
  · cases there with
    | true => exact .bind (advance_lasting after) fun _ => .pure _
    | false => exact .pure _
  · cases there with
    | false =>
        have short : ¬left ≤ count := of_decide_eq_false enough.symm
        have none_owed : count - left = 0 := by omega
        rw [show count - (position, left).2 = 0 from none_owed]
        exact .pure (hands_nothing owed _)
    | true =>
        refine .bind others.advance (fun _ => .pure _) fun (item?, last) ⟨there, behind⟩ => ?_
        exact .pure ⟨there, fun _ => ⟨_, rfl, behind⟩⟩

end OwesFrom

/-! ## Used streams -/

/-- A stream that handed out what it owed when it was made is used up then, and owes the rest before. -/
structure Accounts (stream : Stream Item) (cancelled : Bool) (left whole : Nat) : Prop where
  used : stream.meter.state = .exhausted → stream.meter.processed = whole
  owes : cancelled = false →
    stream.OwesFrom stream.position left ∧ stream.meter.processed + left = whole

/-- A new stream has handed out nothing. -/
theorem accounts_new {source : Source Item} {total? : Option Nat} {chunkSize : Nat}
    {weigh? : Option (Item → Nat)} {cancelled : Bool}
    (owes : cancelled = false → Owes source.pull count source.core) :
    (ofSource source total? chunkSize weigh?).Accounts cancelled count count where
  used := fun exhausted => nomatch exhausted
  owes := fun going => ⟨⟨StreamState.noConfusion, owes going⟩, Nat.zero_add count⟩

theorem Accounts.cancel {cancelled : Bool} {left whole : Nat} (accounts : stream.Accounts cancelled left whole) :
    stream.Accounts true left whole where
  used := accounts.used
  owes := fun going => nomatch going

theorem Accounts.pull {before after : Bool} {left whole : Nat} (accounts : stream.Accounts before left whole)
    {item? : Option Item} {next : stream.Position} (pulled : stream.next before = .ok (item?, next) after) :
    (stream.atPosition next).Accounts after (left - 1) whole := by
  -- a stream that has ended stays as it is, one that was cancelled ends so, and the others owe one item less
  rcases advance_cases pulled with ⟨finished, rfl, rfl, rfl⟩ |
    ⟨-, ⟨rfl, rfl, rfl, rfl⟩ | ⟨rfl, core, -, rfl⟩⟩
  · refine ⟨accounts.used, fun quiet => ?_⟩
    obtain ⟨owes, counted⟩ := accounts.owes quiet
    have nothing := owes.owes
    rw [if_pos finished] at nothing
    subst nothing
    exact ⟨owes, counted⟩
  · exact ⟨fun exhausted => (nomatch exhausted), fun quiet => nomatch quiet⟩
  · obtain ⟨owes, counted⟩ := accounts.owes rfl
    cases after with
    | true =>
        refine ⟨fun exhausted => ?_, fun quiet => nomatch quiet⟩
        cases item? <;> cases exhausted
    | false =>
        obtain ⟨there, others⟩ := owes.advance _ pulled
        cases item? with
        | none =>
            have zero : left = 0 := owed_of_none there
            subst zero
            exact ⟨fun _ => counted, fun _ => ⟨others.atPosition, counted⟩⟩
        | some item =>
            have positive : 0 < left := owed_of_some there
            refine ⟨fun exhausted => (nomatch exhausted), fun _ => ⟨others.atPosition, ?_⟩⟩
            show stream.meter.processed + 1 + (left - 1) = whole
            omega

end Stream

/-! ## How streams are made and used -/

/-- How a stream was made, and what was done with it until now. -/
inductive StreamHistory : Type → Type 1
  | ofList {Item : Type} (items : List Item) : StreamHistory Item
  | ofLines (content : Bytes) (chunkSize : Nat) : StreamHistory String
  | ofChunks (content : Bytes) (chunkBytes : Nat) : StreamHistory Bytes
  | ofTable (table : Table) (chunkRows : Nat) : StreamHistory Table
  /-- Over any source; how many items there are is not known. -/
  | ofSource {Item : Type} (source : Source Item) (chunkSize : Nat) : StreamHistory Item
  | map {Item Result : Type} (before : StreamHistory Item) (transform : Closure Item Result)
      (lasting : transform.Lasting) : StreamHistory Result
  | filter {Item : Type} (before : StreamHistory Item) (keep : Closure Item Bool) : StreamHistory Item
  | batch {Item : Type} (before : StreamHistory Item) (size : Nat) : StreamHistory (List Item)
  | take {Item : Type} (before : StreamHistory Item) (count : Nat) : StreamHistory Item
  | skip {Item : Type} (before : StreamHistory Item) (count : Nat) : StreamHistory Item
  | windows {Item Result : Type} (before : StreamHistory Item) (width step : Nat)
      (transform : Closure (List Item) Result) : StreamHistory Result
  | pull {Item : Type} (before : StreamHistory Item) : StreamHistory Item
  | cancel {Item : Type} (before : StreamHistory Item) : StreamHistory Item

namespace StreamHistory

/-- The stream, and whether its pipeline was cancelled. -/
def run {Item : Type} : StreamHistory Item → Except Fault (Stream Item × Bool)
  | ofList items => .ok (.ofList items, false)
  | ofLines content chunkSize =>
    match Stream.lineBuffer chunkSize with
    | .ok _ => .ok (.ofLines content chunkSize, false)
    | .error fault => .error fault
  | ofChunks content chunkBytes => .ok (.ofChunks content chunkBytes, false)
  | ofTable table chunkRows => .ok (.ofTable table chunkRows, false)
  | ofSource source chunkSize => .ok (.ofSource source none chunkSize none, false)
  | map before transform _ => before.run.map fun (stream, cancelled) => (stream.mapBy transform, cancelled)
  | filter before keep => before.run.map fun (stream, cancelled) => (stream.filterBy keep, cancelled)
  | batch before size => before.run.map fun (stream, cancelled) => (stream.batch size, cancelled)
  | take before count => before.run.map fun (stream, cancelled) => (stream.take count, cancelled)
  | skip before count => before.run.map fun (stream, cancelled) => (stream.skip count, cancelled)
  | windows before width step transform =>
    before.run.map fun (stream, cancelled) => (stream.windowsBy width step transform, cancelled)
  | pull before =>
    match before.run with
    | .ok (stream, cancelled) =>
      match stream.next cancelled with
      | .ok (_, position) after => .ok (stream.atPosition position, after)
      | .error fault _ => .error fault
    | .error fault => .error fault
  | cancel before => before.run.map fun (stream, _) => (stream, true)

/-- How many items are still to come, if that is known. -/
def left? {Item : Type} : StreamHistory Item → Option Nat
  | ofList items => some items.length
  | ofLines content _ => some (textsBefore (linesOf content)).length
  | ofChunks content chunkBytes => some (groupCount content.length (max chunkBytes 1))
  | ofTable table chunkRows => some (groupCount table.rowCount (max chunkRows 1))
  | ofSource .. | filter .. | windows .. => none
  | map before _ _ => before.left?
  | batch before size => before.left?.map (groupCount · (max size 1))
  | take before count => before.left?.map (min · count)
  | skip before count => before.left?.map (· - count)
  | pull before => before.left?.map (· - 1)
  | cancel before => before.left?

/-- How many items were to come when the stream was made, if that is known. -/
def whole? {Item : Type} : StreamHistory Item → Option Nat
  | pull before | cancel before => before.whole?
  | made => made.left?

/-- The stream was not pulled since it was made. -/
def Unpulled {Item : Type} : StreamHistory Item → Prop
  | pull _ => False
  | cancel before => before.Unpulled
  | _ => True

/-- Files of lines are UTF-8, and no stream was pulled before it was transformed. -/
def Prompt {Item : Type} : StreamHistory Item → Prop
  | ofLines content _ => Utf8.Readable content
  | ofList _ | ofChunks .. | ofTable .. | ofSource .. => True
  | map before _ _ => before.Prompt ∧ before.Unpulled
  | filter before _ => before.Prompt ∧ before.Unpulled
  | batch before _ | take before _ | skip before _ => before.Prompt ∧ before.Unpulled
  | windows before _ _ _ => before.Prompt ∧ before.Unpulled
  | pull before | cancel before => before.Prompt

variable {Item Result : Type} {stream : Stream Item} {cancelled : Bool} {total left whole : Nat}

/-- What is known of a stream whose total is known. -/
structure Tallies (history : StreamHistory Item) (stream : Stream Item) (cancelled : Bool)
    (total left whole : Nat) : Prop where
  comes : history.left? = some left
  came : history.whole? = some whole
  left_le : left ≤ whole
  whole_le : whole ≤ total
  unpulled : history.Unpulled → left = whole
  prompt : history.Prompt → whole = total
  accounts : stream.Accounts cancelled left whole

/-- A transformed stream has owed as many items from the start as the one below it made it owe. -/
theorem Tallies.layer {before : StreamHistory Item} (tallies : before.Tallies stream cancelled total left whole)
    {after : StreamHistory Result} (change : Nat → Nat) {Own : Type} {own : Own}
    {pull : stream.Position × Own → Flow (Option Result × stream.Position × Own)}
    {remaining : stream.Position × Own → Nat} {total? : Option Nat} {chunkSize : Nat}
    (owes : stream.OwesFrom stream.position left → Owes pull (change left) (stream.position, own))
    (monotone : ∀ {fewer more : Nat}, fewer ≤ more → change fewer ≤ change more)
    (afterLeft : after.left? = before.left?.map change) (afterWhole : after.whole? = after.left?)
    (afterPrompt : after.Prompt → before.Prompt ∧ before.Unpulled) :
    after.Tallies (stream.layer own pull remaining total? chunkSize) cancelled (change total) (change left)
      (change left) where
  comes := by rw [afterLeft, tallies.comes, Option.map_some]
  came := by rw [afterWhole, afterLeft, tallies.comes, Option.map_some]
  left_le := Nat.le_refl _
  whole_le := monotone (Nat.le_trans tallies.left_le tallies.whole_le)
  unpulled := fun _ => rfl
  prompt := by
    intro prompt
    obtain ⟨whole, all⟩ := afterPrompt prompt
    rw [tallies.unpulled all, tallies.prompt whole]
  accounts := Stream.accounts_new fun quiet => owes (tallies.accounts.owes quiet).1

theorem of_map_ok {First : Type 1} {Last : Type 1} {first : Except Fault First} {change : First → Last}
    {last : Last} (made : first.map change = .ok last) : ∃ found, first = .ok found ∧ change found = last := by
  cases first with
  | error fault => cases made
  | ok found =>
      cases made
      exact ⟨found, rfl, rfl⟩

theorem length_textsBefore_le (lines : List Bytes) : (textsBefore lines).length ≤ lines.length := by
  induction lines with
  | nil => exact Nat.le_refl _
  | cons line rest induction =>
      rw [textsBefore]
      split
      · split
        · exact Nat.succ_le_succ induction
        · exact Nat.zero_le _
      · exact Nat.zero_le _

theorem total?_of_next {before after : Bool} {item? : Option Item} {next : stream.Position}
    (pulled : stream.next before = .ok (item?, next) after) :
    (stream.atPosition next).meter.total? = stream.meter.total? := by
  rcases Stream.advance_cases pulled with ⟨-, -, rfl, -⟩ | ⟨-, ⟨-, -, -, rfl⟩ | ⟨-, core, -, rfl⟩⟩
  · rfl
  · rfl
  · cases item? <;> rfl

theorem groupCount_mono {fewer more : Nat} (size : Nat) (le : fewer ≤ more) :
    groupCount fewer size ≤ groupCount more size :=
  Nat.div_le_div_right (by omega)

theorem tallies_of_run (history : StreamHistory Item) (ran : history.run = .ok (stream, cancelled))
    (known : stream.meter.total? = some total) :
    ∃ left whole, history.Tallies stream cancelled total left whole := by
  induction history generalizing cancelled total with
  | ofList items =>
      cases ran
      cases known
      exact ⟨_, _, rfl, rfl, Nat.le_refl _, Nat.le_refl _, fun _ => rfl, fun _ => rfl,
        Stream.accounts_new fun _ => Source.ofList_owes items⟩
  | ofLines content chunkSize =>
      rw [run] at ran
      cases reserved : Stream.lineBuffer chunkSize with
      | error fault =>
          rw [reserved] at ran
          cases ran
      | ok bytes =>
          rw [reserved] at ran
          cases ran
          cases known
          refine ⟨_, _, rfl, rfl, Nat.le_refl _, length_textsBefore_le _, fun _ => rfl, fun readable => ?_,
            Stream.accounts_new fun _ => Source.ofList_owes _⟩
          exact (texts_of_readable readable (Nat.le_refl content.length)).1
  | ofChunks content chunkBytes =>
      cases ran
      cases known
      have counted := length_chunksOf (Nat.le_max_right chunkBytes 1) (Nat.le_refl content.length)
      refine ⟨_, _, rfl, rfl, Nat.le_refl _, Nat.le_refl _, fun _ => rfl, fun _ => rfl,
        Stream.accounts_new fun _ => ?_⟩
      rw [← counted]
      exact Source.ofList_owes _
  | ofTable table chunkRows =>
      cases ran
      cases known
      exact ⟨_, _, rfl, rfl, Nat.le_refl _, Nat.le_refl _, fun _ => rfl, fun _ => rfl,
        Stream.accounts_new fun _ => Source.numbered_owes _ _⟩
  | ofSource source chunkSize =>
      cases ran
      cases known
  | map before transform lasting induction =>
      obtain ⟨⟨below, _⟩, ranBefore, made⟩ := of_map_ok ran
      cases made
      obtain ⟨left, whole, tallies⟩ := induction ranBefore known
      have afterLeft : before.left? = before.left?.map id := Option.map_id_apply.symm
      exact ⟨_, _, tallies.layer id (·.mapBy lasting transform.state) id afterLeft rfl id⟩
  | filter before keep induction =>
      obtain ⟨_, -, made⟩ := of_map_ok ran
      cases made
      cases known
  | batch before size induction =>
      obtain ⟨⟨below, _⟩, ranBefore, made⟩ := of_map_ok ran
      cases made
      obtain ⟨totalBefore, knownBefore, rfl⟩ := Option.map_eq_some_iff.mp known
      obtain ⟨left, whole, tallies⟩ := induction ranBefore knownBefore
      exact ⟨_, _, tallies.layer (groupCount · (max size 1)) (·.batch size) (groupCount_mono _) rfl rfl id⟩
  | take before count induction =>
      obtain ⟨⟨below, _⟩, ranBefore, made⟩ := of_map_ok ran
      cases made
      obtain ⟨totalBefore, knownBefore, rfl⟩ := Option.map_eq_some_iff.mp known
      obtain ⟨left, whole, tallies⟩ := induction ranBefore knownBefore
      have monotone {fewer more : Nat} (le : fewer ≤ more) : min fewer count ≤ min more count := by omega
      exact ⟨_, _, tallies.layer (min · count) (·.take count count) monotone rfl rfl id⟩
  | skip before count induction =>
      obtain ⟨⟨below, _⟩, ranBefore, made⟩ := of_map_ok ran
      cases made
      obtain ⟨totalBefore, knownBefore, rfl⟩ := Option.map_eq_some_iff.mp known
      obtain ⟨left, whole, tallies⟩ := induction ranBefore knownBefore
      have monotone {fewer more : Nat} (le : fewer ≤ more) : fewer - count ≤ more - count := by omega
      exact ⟨_, _, tallies.layer (· - count) (·.skip count count) monotone rfl rfl id⟩
  | windows before width step transform induction =>
      obtain ⟨_, -, made⟩ := of_map_ok ran
      cases made
      cases known
  | pull before induction =>
      rw [run] at ran
      split at ran
      · rename_i below flag ranBefore
        split at ran
        · rename_i item? next after pulled
          cases ran
          have total? : below.meter.total? = some total := (total?_of_next pulled).symm.trans known
          obtain ⟨left, whole, tallies⟩ := induction ranBefore total?
          have comes : (pull before).left? = some (left - 1) := by
            rw [left?, tallies.comes, Option.map_some]
          exact ⟨_, _, comes, tallies.came, Nat.le_trans (Nat.sub_le left 1) tallies.left_le, tallies.whole_le,
            False.elim, tallies.prompt, tallies.accounts.pull pulled⟩
        · cases ran
      · cases ran
  | cancel before induction =>
      obtain ⟨_, ranBefore, made⟩ := of_map_ok ran
      cases made
      obtain ⟨left, whole, tallies⟩ := induction ranBefore known
      exact ⟨left, whole, tallies.comes, tallies.came, tallies.left_le, tallies.whole_le, tallies.unpulled,
        tallies.prompt, tallies.accounts.cancel⟩

/-- A stream of known total that is used up has handed out what it owed when it was made, which is no more than the
total, and as much as that if all lines of its file can be read and no stream was pulled before it was transformed. -/
theorem processed_of_exhausted (history : StreamHistory Item) (ran : history.run = .ok (stream, cancelled))
    (exhausted : stream.meter.state = .exhausted) (known : stream.meter.total? = some total) :
    history.whole? = some stream.meter.processed ∧ stream.meter.processed ≤ total ∧
      (history.Prompt → stream.meter.processed = total) := by
  obtain ⟨left, whole, tallies⟩ := history.tallies_of_run ran known
  have counted := tallies.accounts.used exhausted
  refine ⟨by rw [tallies.came, counted], ?_, fun prompt => counted.trans (tallies.prompt prompt)⟩
  rw [counted]
  exact tallies.whole_le

/-- Two of three items in one batch, which is pulled, and a pull that tells the end. -/
def usedBatches : StreamHistory (List Nat) := pull (pull (batch (take (ofList [1, 2, 3]) 2) 2))

theorem processed_of_exhausted_batches : ∃ stream, usedBatches.run = .ok (stream, false) ∧
    stream.meter.state = .exhausted ∧ stream.meter.total? = some 1 ∧
    usedBatches.whole? = some stream.meter.processed ∧ stream.meter.processed = 1 := by
  have ran : ∃ stream, usedBatches.run = .ok (stream, false) ∧ stream.meter.state = .exhausted ∧
      stream.meter.total? = some 1 := ⟨_, rfl, rfl, rfl⟩
  obtain ⟨stream, ran, exhausted, known⟩ := ran
  have prompt : usedBatches.Prompt := ⟨⟨trivial, trivial⟩, trivial⟩
  obtain ⟨whole, -, all⟩ := processed_of_exhausted usedBatches ran exhausted known
  exact ⟨stream, ran, exhausted, known, whole, all prompt⟩

/-- Used up after one item, with a total of two: a file whose second line cannot be read, and two items the first of
which was pulled before the stream was transformed. -/
theorem processed_apart_from_total :
    (∃ stream, (pull (pull (ofLines [111, 107, 10, 255, 10] 1))).run = .ok (stream, false) ∧
      stream.meter.state = .exhausted ∧ stream.meter.total? = some 2 ∧ stream.meter.processed = 1) ∧
      ∃ stream, (pull (pull (skip (pull (ofList [1, 2])) 0))).run = .ok (stream, false) ∧
        stream.meter.state = .exhausted ∧ stream.meter.total? = some 2 ∧ stream.meter.processed = 1 :=
  ⟨⟨_, rfl, rfl, rfl, rfl⟩, ⟨_, rfl, rfl, rfl, rfl⟩⟩

end StreamHistory

end TierVault
