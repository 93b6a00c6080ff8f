import TierVault.Proofs.Stream.Pipelines
import TierVault.Stream.Closure

/-!
Streams that may be cancelled, beside streams that are not.

Two streams are pulled side by side, the first of which may be cancelled by its own functions. As long
as it is not, both hand out the same items and stand at places that belong together. In the pull that
cancels it, the first one hands out what the other does or gives up; from then on it hands out nothing.
-/

namespace TierVault

namespace Flow

variable {Result Due Next NextDue : Type}

/-- The computation ends without a fault, a pipeline that was cancelled stays so, and `related` holds of
the flag at the end, the result, and the result that is due where nobody cancels. -/
def Follows (flow : Flow Result) (calm : Flow Due) (cancelled : Bool)
    (related : Bool → Result → Due → Prop) : Prop :=
  ∃ result after due, flow cancelled = .ok result after ∧ (cancelled = true → after = true) ∧
    calm.Answers due ∧ related after result due

namespace Follows

variable {flow : Flow Result} {calm : Flow Due} {cancelled : Bool}
  {related : Bool → Result → Due → Prop}

theorem pure {result : Result} {due : Due} (relates : related cancelled result due) :
    Flow.Follows (Pure.pure result) (Pure.pure due) cancelled related :=
  ⟨result, cancelled, due, rfl, id, .pure due, relates⟩

theorem bind {next : Result → Flow Next} {calmNext : Due → Flow NextDue}
    {after : Bool → Next → NextDue → Prop} (first : flow.Follows calm cancelled related)
    (goes : ∀ now result due, (cancelled = true → now = true) → related now result due →
      (next result).Follows (calmNext due) now after) :
    Flow.Follows (flow >>= next) (calm >>= calmNext) cancelled after := by
  obtain ⟨result, now, due, ended, stays, answers, relates⟩ := first
  obtain ⟨last, final, lastDue, lastEnded, lastStays, lastAnswers, holds⟩ :=
    goes now result due stays relates
  refine ⟨last, final, lastDue, ?_, fun late => lastStays (stays late), .bind answers lastAnswers, holds⟩
  simp only [Bind.bind, EStateM.bind, ended, lastEnded]

theorem isCancelled :
    Flow.isCancelled.Follows Flow.isCancelled cancelled
      fun now told due => now = cancelled ∧ told = cancelled ∧ due = false :=
  ⟨cancelled, cancelled, false, rfl, id, .isCancelled, rfl, rfl, rfl⟩

/-- A computation whose end is known, beside any calm one. -/
theorem of_calm {result : Result} {after : Bool} (ended : flow cancelled = .ok result after)
    (stays : cancelled = true → after = true) (answers : calm.Calm)
    (relates : ∀ due, related after result due) : flow.Follows calm cancelled related := by
  obtain ⟨due, told⟩ := answers
  exact ⟨result, after, due, ended, stays, told, relates due⟩

end Follows

end Flow

/-- Every call computes the function, whatever the state; it may cancel the pipeline, and never takes a
cancellation back. -/
def Closure.Computes {Argument Result : Type} (closure : Closure Argument Result)
    (function : Argument → Result) : Prop :=
  ∀ state argument cancelled, ∃ later after,
    closure.call state argument cancelled = .ok (function argument, later) after ∧
      (cancelled = true → after = true)

theorem Closure.Computes.follows {Argument Result : Type} {closure : Closure Argument Result}
    {function : Argument → Result} (computes : closure.Computes function) (state : closure.State)
    (argument : Argument) (cancelled : Bool) :
    (closure.call state argument).Follows (pure (function argument)) cancelled
      fun _ told due => told.1 = due := by
  obtain ⟨later, after, called, stays⟩ := computes state argument cancelled
  exact ⟨_, after, _, called, stays, .pure _, rfl⟩

namespace Stream

variable {Item Result : Type}

/-! ## Pulls of a cancelled stream -/

section Late

variable (stream : Stream Item) (position : stream.Position)

/-- The position after a pull that began when the pipeline was cancelled. -/
def lateAfter : stream.Position :=
  if position.2.state.hasEnded then position
  else (position.1, { position.2 with state := .cancelled })

/-- A pull that begins when the pipeline is cancelled hands out nothing. -/
theorem advance_late :
    stream.advance position true = .ok (none, stream.lateAfter position) true := by
  simp only [advance, lateAfter]
  by_cases ended : position.2.state.hasEnded = true
  · simp only [ended, if_true]
    rfl
  · simp only [ended, Bool.false_eq_true, if_false]
    rfl

theorem drainFrom_late (bound : Nat) :
    stream.drainFrom (bound + 1) position true = .ok ([], stream.lateAfter position) true := by
  simp only [drainFrom, Bind.bind, EStateM.bind, advance_late]
  rfl

theorem seekBy_late (keep : Closure Item Bool) (bound : Nat) (state : keep.State) :
    ∃ place, stream.seekBy keep bound (position, state) true = .ok (none, place) true := by
  cases bound with
  | zero => exact ⟨_, rfl⟩
  | succ bound =>
      simp only [seekBy, Bind.bind, EStateM.bind, advance_late]
      exact ⟨_, rfl⟩

theorem discard_late (count : Nat) :
    ∃ there after, stream.discard count position true = .ok (there, after) true := by
  cases count with
  | zero => exact ⟨_, _, rfl⟩
  | succ count =>
      simp only [discard, Bind.bind, EStateM.bind, advance_late]
      exact ⟨_, _, rfl⟩

/-- Of a cancelled stream, only a window that is full already can be filled. -/
theorem fillWindow_late (width bound : Nat) (window : WindowState Item) :
    ∃ after, stream.fillWindow width bound (position, window) true =
      .ok (decide (width ≤ window.held.length), after, window) true := by
  by_cases full : width ≤ window.held.length
  · unfold fillWindow
    rw [if_pos full, decide_eq_true full]
    exact ⟨_, rfl⟩
  · cases bound with
    | zero =>
        unfold fillWindow
        rw [if_neg full, decide_eq_false full]
        exact ⟨_, rfl⟩
    | succ bound =>
        rw [fillWindow, if_neg full, decide_eq_false full]
        simp only [Bind.bind, EStateM.bind, advance_late]
        exact ⟨_, rfl⟩

end Late

/-! ## Streams side by side -/

section

variable {stream calm : Stream Item}

/-- A pull of a source against the one that is due. -/
def Drawn {Core CalmCore : Type} (related : Core → CalmCore → Prop) (cancelled : Bool)
    (drawn : Option Item × Core) (due : Option Item × CalmCore) : Prop :=
  if cancelled then drawn.1 = none ∨ drawn.1 = due.1
  else drawn.1 = due.1 ∧ related drawn.2 due.2

/-- The positions belong together. -/
def Aligned (related : stream.source.Core → calm.source.Core → Prop) (position : stream.Position)
    (due : calm.Position) : Prop :=
  related position.1 due.1 ∧ position.2 = due.2

/-- A pull of a stream against the one that is due. The pull during which the pipeline is cancelled
either ends the stream or hands out what is due. -/
def Pulled (related : stream.source.Core → calm.source.Core → Prop) (cancelled : Bool)
    (pulled : Option Item × stream.Position) (due : Option Item × calm.Position) : Prop :=
  if cancelled then
    (pulled.1 = none ∧ pulled.2.2.state = .cancelled) ∨
      (pulled.1 = due.1 ∧ pulled.1.isSome ∧ pulled.2.2 = due.2.2 ∧ pulled.2.2.state = .iterating)
  else pulled.1 = due.1 ∧ Aligned related pulled.2 due.2

/-- The stream hands out what the calm one does until it is cancelled, from all places that belong
together. -/
structure Shadows (stream calm : Stream Item)
    (related : stream.source.Core → calm.source.Core → Prop) : Prop where
  start : related stream.source.core calm.source.core
  meter : stream.meter = calm.meter
  weigh : stream.weigh? = calm.weigh?
  remaining : ∀ core due, related core due →
    stream.source.remaining core = calm.source.remaining due
  pull : ∀ core due, related core due →
    (stream.source.pull core).Follows (calm.source.pull due) false (Drawn related)
  answers : calm.Calm

end

namespace Shadows

variable {stream calm : Stream Item} {related : stream.source.Core → calm.source.Core → Prop}
  {position : stream.Position} {due : calm.Position}

theorem aligned (shadows : stream.Shadows calm related) :
    Aligned related stream.position calm.position :=
  ⟨shadows.start, shadows.meter⟩

theorem remainingFrom (shadows : stream.Shadows calm related)
    (aligned : Aligned related position due) :
    stream.remainingFrom position = calm.remainingFrom due :=
  shadows.remaining _ _ aligned.1

theorem meterAfter (shadows : stream.Shadows calm related) (meter : Meter) (cancelled : Bool)
    (item? : Option Item) :
    stream.meterAfter meter cancelled item? = calm.meterAfter meter cancelled item? := by
  unfold Stream.meterAfter weight
  rw [shadows.weigh]

theorem advance (shadows : stream.Shadows calm related) (aligned : Aligned related position due) :
    (stream.advance position).Follows (calm.advance due) false (Pulled related) := by
  obtain ⟨belongs, meters⟩ := aligned
  simp only [Stream.advance, meters]
  by_cases ended : due.2.state.hasEnded = true
  · simp only [ended, if_true]
    exact .pure ⟨rfl, belongs, meters⟩
  · simp only [ended, Bool.false_eq_true, if_false]
    apply Flow.Follows.bind .isCancelled
    rintro _ _ _ - ⟨rfl, rfl, rfl⟩
    simp only [Bool.false_eq_true, if_false]
    apply Flow.Follows.bind (shadows.pull _ _ belongs)
    rintro _ ⟨item?, core⟩ ⟨dueItem?, dueCore⟩ - drawn
    apply Flow.Follows.bind .isCancelled
    rintro _ cancelled _ - ⟨rfl, rfl, rfl⟩
    apply Flow.Follows.pure
    cases cancelled with
    | false =>
        obtain ⟨rfl, later⟩ := drawn
        exact ⟨rfl, later, shadows.meterAfter _ _ _⟩
    | true =>
        cases item? with
        | none => exact .inl ⟨rfl, rfl⟩
        | some item =>
            obtain nothing | rfl := drawn
            · cases nothing
            · exact .inr ⟨rfl, rfl, shadows.meterAfter due.2 true (some item), rfl⟩

/-! ## Loops -/

/-- A position of a stream that goes on has ended after a late pull. -/
theorem state_lateAfter {position : stream.Position} (going : position.2.state = .iterating) :
    (stream.lateAfter position).2.state = .cancelled := by
  simp only [lateAfter, going]
  rfl

/-- The list that is drained is the one that is due, or the stream was cancelled before its end. -/
def Drained (related : stream.source.Core → calm.source.Core → Prop) (cancelled : Bool)
    (drained : List Item × stream.Position) (due : List Item × calm.Position) : Prop :=
  if cancelled then
    drained.2.2.state = .cancelled ∨ (drained.1 = due.1 ∧ drained.2.2 = due.2.2)
  else drained.1 = due.1 ∧ Aligned related drained.2 due.2

theorem drainFrom (shadows : stream.Shadows calm related) (aligned : Aligned related position due)
    (bound : Nat) :
    (stream.drainFrom bound position).Follows (calm.drainFrom bound due) false
      (Drained related) := by
  induction bound generalizing position due with
  | zero => exact .pure ⟨rfl, aligned⟩
  | succ bound induction =>
      apply Flow.Follows.bind (shadows.advance aligned)
      rintro cancelled ⟨item?, next⟩ ⟨dueItem?, dueNext⟩ - pulled
      cases cancelled with
      | false =>
          obtain ⟨same, later⟩ := pulled
          cases same
          cases item? with
          | none => exact .pure ⟨rfl, later⟩
          | some item =>
              apply Flow.Follows.bind (induction later)
              rintro cancelled ⟨items, after⟩ ⟨dueItems, dueAfter⟩ - drained
              apply Flow.Follows.pure
              cases cancelled with
              | false => exact ⟨congrArg (item :: ·) drained.1, drained.2⟩
              | true => exact drained.imp_right fun same => ⟨congrArg (item :: ·) same.1, same.2⟩
      | true =>
          obtain ⟨nothing, ended⟩ | ⟨same, handed, meters, going⟩ := pulled
          · cases nothing
            refine .of_calm rfl id ?_ fun _ => .inl ended
            cases dueItem? with
            | none => exact .pure _
            | some item => exact .bind (shadows.answers.drainFrom _ _) fun _ => .pure _
          · cases same
            obtain ⟨item, rfl⟩ := Option.isSome_iff_exists.mp handed
            cases bound with
            | zero => exact .pure (.inr ⟨rfl, meters⟩)
            | succ bound =>
                have late : (stream.drainFrom (bound + 1) next).Follows
                    (calm.drainFrom (bound + 1) dueNext) true
                    fun _ drained _ => drained.2.2.state = .cancelled :=
                  .of_calm (stream.drainFrom_late next bound) id (shadows.answers.drainFrom _ _)
                    fun _ => state_lateAfter going
                exact .bind late fun _ _ _ stays ended => .pure (by
                  simp only [Drained, stays rfl]
                  exact .inl ended)

/-- What was sought is what is due, or nothing in a stream that was cancelled. -/
def Sought {State : Type} (related : stream.source.Core → calm.source.Core → Prop) (cancelled : Bool)
    (sought : Option Item × stream.Position × State) (due : Option Item × calm.Position) : Prop :=
  if cancelled then sought.1 = none ∨ sought.1 = due.1
  else sought.1 = due.1 ∧ Aligned related sought.2.1 due.2

theorem seek (shadows : stream.Shadows calm related) {keep : Closure Item Bool}
    {kept : Item → Bool} (computes : keep.Computes kept) (state : keep.State)
    (aligned : Aligned related position due) (bound : Nat) :
    (stream.seekBy keep bound (position, state)).Follows
      (calm.seek (fun item => pure (kept item)) bound due) false (Sought related) := by
  induction bound generalizing position due state with
  | zero => exact .pure ⟨rfl, aligned⟩
  | succ bound induction =>
      apply Flow.Follows.bind (shadows.advance aligned)
      rintro cancelled ⟨item?, next⟩ ⟨dueItem?, dueNext⟩ - pulled
      have decides (item : Item) (aligns : cancelled = false → Aligned related next dueNext) :
          Flow.Follows
            (do
              let answer ← keep.call state item
              if answer.1 then return (some item, next, answer.2)
              else stream.seekBy keep bound (next, answer.2))
            (do
              if ← pure (kept item) then return (some item, dueNext)
              else calm.seek (fun item => pure (kept item)) bound dueNext)
            cancelled (Sought related) := by
        apply Flow.Follows.bind (computes.follows state item cancelled)
        rintro now ⟨told, later⟩ _ stays rfl
        have early (off : now = false) : cancelled = false :=
          Bool.eq_false_iff.mpr fun was => nomatch off.symm.trans (stays was)
        cases told with
        | true =>
            apply Flow.Follows.pure
            cases now with
            | false => exact ⟨rfl, aligns (early rfl)⟩
            | true => exact .inr rfl
        | false =>
            cases now with
            | false => exact induction later (aligns (early rfl))
            | true =>
                obtain ⟨_, sought⟩ := stream.seekBy_late next keep bound later
                exact .of_calm sought id (shadows.answers.seek kept bound dueNext) fun _ => .inl rfl
      cases cancelled with
      | false =>
          obtain ⟨same, later⟩ := pulled
          cases same
          cases item? with
          | none => exact .pure ⟨rfl, later⟩
          | some item => exact decides item fun _ => later
      | true =>
          obtain ⟨nothing, -⟩ | ⟨same, handed, -⟩ := pulled
          · cases nothing
            refine .of_calm rfl id ?_ fun _ => .inl rfl
            cases dueItem? with
            | none => exact .pure _
            | some item =>
                apply Flow.Calm.bind (.pure (kept item))
                intro told
                cases told with
                | true => exact .pure _
                | false => exact shadows.answers.seek kept bound dueNext
          · cases same
            obtain ⟨item, rfl⟩ := Option.isSome_iff_exists.mp handed
            exact decides item Bool.noConfusion

/-- Whether enough items were discarded tells nothing in a stream that was cancelled. -/
def Discarded (related : stream.source.Core → calm.source.Core → Prop) (cancelled : Bool)
    (discarded : Bool × stream.Position) (due : Bool × calm.Position) : Prop :=
  cancelled = false → discarded.1 = due.1 ∧ Aligned related discarded.2 due.2

theorem discard (shadows : stream.Shadows calm related) (aligned : Aligned related position due)
    (count : Nat) :
    (stream.discard count position).Follows (calm.discard count due) false
      (Discarded related) := by
  induction count generalizing position due with
  | zero => exact .pure fun _ => ⟨rfl, aligned⟩
  | succ count induction =>
      apply Flow.Follows.bind (shadows.advance aligned)
      rintro cancelled ⟨item?, next⟩ ⟨dueItem?, dueNext⟩ - pulled
      cases cancelled with
      | false =>
          obtain ⟨same, later⟩ := pulled
          cases same
          cases item? with
          | none => exact .pure fun _ => ⟨rfl, later⟩
          | some item => exact induction later
      | true =>
          have answers : Flow.Calm
              (if dueItem?.isSome then calm.discard count dueNext else return (false, dueNext)) := by
            cases dueItem? with
            | none => exact .pure _
            | some item => exact shadows.answers.discard count dueNext
          cases item? with
          | none => exact .of_calm rfl id answers fun _ => Bool.noConfusion
          | some item =>
              obtain ⟨_, _, discarded⟩ := stream.discard_late next count
              exact .of_calm discarded id answers fun _ => Bool.noConfusion

/-- The window is the one that is due, or not full in a stream that was cancelled. -/
def Filled (related : stream.source.Core → calm.source.Core → Prop) (cancelled : Bool)
    (filled : Bool × stream.Position × WindowState Item)
    (due : Bool × calm.Position × WindowState Item) : Prop :=
  if cancelled then filled.1 = false ∨ (filled.1 = due.1 ∧ filled.2.2 = due.2.2)
  else filled.1 = due.1 ∧ Aligned related filled.2.1 due.2.1 ∧ filled.2.2 = due.2.2

/-- After a cancellation, a window can be told to be full only if it was so. -/
theorem fillWindow_late (shadows : stream.Shadows calm related) (position : stream.Position)
    (due : calm.Position) (width bound : Nat) (window : WindowState Item) :
    (stream.fillWindow width bound (position, window)).Follows
      (calm.fillWindow width bound (due, window)) true (Filled related) := by
  by_cases full : width ≤ window.held.length
  · unfold Stream.fillWindow
    simp only [full, if_true]
    exact .pure (.inr ⟨rfl, rfl⟩)
  · obtain ⟨_, filled⟩ := stream.fillWindow_late position width bound window
    rw [decide_eq_false full] at filled
    exact .of_calm filled id (shadows.answers.fillWindow width bound due window) fun _ => .inl rfl

theorem fillWindow (shadows : stream.Shadows calm related) (aligned : Aligned related position due)
    (width bound : Nat) (window : WindowState Item) :
    (stream.fillWindow width bound (position, window)).Follows
      (calm.fillWindow width bound (due, window)) false (Filled related) := by
  induction bound generalizing position due window with
  | zero =>
      unfold Stream.fillWindow
      by_cases full : width ≤ window.held.length
      · simp only [full, if_true]
        exact .pure ⟨rfl, aligned, rfl⟩
      · simp only [full, if_false]
        exact .pure ⟨rfl, aligned, rfl⟩
  | succ bound induction =>
      unfold Stream.fillWindow
      by_cases full : width ≤ window.held.length
      · simp only [full, if_true]
        exact .pure ⟨rfl, aligned, rfl⟩
      · simp only [full, if_false]
        apply Flow.Follows.bind (shadows.advance aligned)
        rintro cancelled ⟨item?, next⟩ ⟨dueItem?, dueNext⟩ - pulled
        cases cancelled with
        | false =>
            obtain ⟨same, later⟩ := pulled
            cases same
            cases item? with
            | none => exact .pure ⟨rfl, later, rfl⟩
            | some item =>
                by_cases passing : 0 < window.pendingSkip
                · simp only [passing, if_true]
                  exact induction later _
                · simp only [passing, if_false]
                  exact induction later _
        | true =>
            obtain ⟨nothing, -⟩ | ⟨same, handed, -⟩ := pulled
            · cases nothing
              refine .of_calm rfl id ?_ fun _ => .inl rfl
              cases dueItem? with
              | none => exact .pure _
              | some item =>
                  dsimp only
                  split <;> exact shadows.answers.fillWindow width bound dueNext _
            · cases same
              obtain ⟨item, rfl⟩ := Option.isSome_iff_exists.mp handed
              by_cases passing : 0 < window.pendingSkip
              · simp only [passing, if_true]
                exact shadows.fillWindow_late next dueNext width bound _
              · simp only [passing, if_false]
                exact shadows.fillWindow_late next dueNext width bound _

/-! ## Layers -/

/-- Places of two layers belong together if the positions below do and their own states do. -/
def Places {Own CalmOwn : Type} (related : stream.source.Core → calm.source.Core → Prop)
    (owned : Own → CalmOwn → Prop) (place : stream.Position × Own) (due : calm.Position × CalmOwn) :
    Prop :=
  Aligned related place.1 due.1 ∧ owned place.2 due.2

theorem layer (shadows : stream.Shadows calm related) {Own CalmOwn : Type}
    (owned : Own → CalmOwn → Prop) {own : Own} {calmOwn : CalmOwn}
    {pull : stream.Position × Own → Flow (Option Result × stream.Position × Own)}
    {calmPull : calm.Position × CalmOwn → Flow (Option Result × calm.Position × CalmOwn)}
    {remaining : stream.Position × Own → Nat} {calmRemaining : calm.Position × CalmOwn → Nat}
    {total? calmTotal? : Option Nat} {chunkSize calmChunkSize : Nat}
    (total : total? = calmTotal?) (chunk : chunkSize = calmChunkSize) (owns : owned own calmOwn)
    (bound : ∀ place due, Places related owned place due → remaining place = calmRemaining due)
    (pulls : ∀ place due, Places related owned place due →
      (pull place).Follows (calmPull due) false (Drawn (Places related owned)))
    (answers : (calm.layer calmOwn calmPull calmRemaining calmTotal? calmChunkSize).Calm) :
    (stream.layer own pull remaining total? chunkSize).Shadows
      (calm.layer calmOwn calmPull calmRemaining calmTotal? calmChunkSize)
      (Places related owned) where
  start := ⟨shadows.aligned, owns⟩
  meter := by rw [Stream.layer, Stream.layer, ofSource, ofSource, total, chunk]
  weigh := rfl
  remaining := bound
  pull := pulls
  answers := answers

/-- The states of two layers of which nothing has to be known. -/
def Anything {Own CalmOwn : Type} (_ : Own) (_ : CalmOwn) : Prop := True

theorem map (shadows : stream.Shadows calm related) {transform : Closure Item Result}
    {function : Item → Result} (computes : transform.Computes function) :
    (stream.mapBy transform).Shadows (calm.map fun item => pure (function item))
      (Places related Anything) := by
  apply shadows.layer Anything (congrArg Meter.total? shadows.meter)
    (congrArg Meter.chunkSize shadows.meter) trivial
  · intro place due belongs
    exact shadows.remainingFrom belongs.1
  · rintro ⟨position, state⟩ ⟨due, _⟩ ⟨aligned, -⟩
    apply Flow.Follows.bind (shadows.advance aligned)
    rintro cancelled ⟨item?, next⟩ ⟨dueItem?, dueNext⟩ - pulled
    cases cancelled with
    | false =>
        obtain ⟨same, later⟩ := pulled
        cases same
        cases item? with
        | none => exact .pure ⟨rfl, later, trivial⟩
        | some item =>
            apply Flow.Follows.bind (computes.follows state item false)
            rintro cancelled ⟨result, _⟩ _ - rfl
            apply Flow.Follows.pure
            cases cancelled with
            | false => exact ⟨rfl, later, trivial⟩
            | true => exact .inr rfl
    | true =>
        obtain ⟨nothing, -⟩ | ⟨same, handed, -⟩ := pulled
        · cases nothing
          refine .of_calm rfl id ?_ fun _ => .inl rfl
          cases dueItem? with
          | none => exact .pure _
          | some item => exact .bind (.pure _) fun _ => .pure _
        · cases same
          obtain ⟨item, rfl⟩ := Option.isSome_iff_exists.mp handed
          apply Flow.Follows.bind (computes.follows state item true)
          rintro cancelled ⟨result, _⟩ _ stays rfl
          apply Flow.Follows.pure
          rw [stays rfl]
          exact .inr rfl
  · exact shadows.answers.map function

theorem filter (shadows : stream.Shadows calm related) {keep : Closure Item Bool}
    {kept : Item → Bool} (computes : keep.Computes kept) :
    (stream.filterBy keep).Shadows (calm.filter fun item => pure (kept item))
      (Places related Anything) := by
  apply shadows.layer Anything rfl (congrArg Meter.chunkSize shadows.meter) trivial
  · intro place due belongs
    exact shadows.remainingFrom belongs.1
  · rintro ⟨position, state⟩ ⟨due, _⟩ ⟨aligned, -⟩
    have sought := shadows.seek computes state aligned (calm.remainingFrom due + 1)
    obtain ⟨result, after, dueResult, ended, stays, told, holds⟩ := sought
    refine ⟨result, after, (dueResult.1, dueResult.2, ()), ?_, stays, .bind told (.pure _), ?_⟩
    · rw [← shadows.remainingFrom aligned] at ended
      exact ended
    · cases after with
      | false => exact ⟨holds.1, holds.2, trivial⟩
      | true => exact holds
  · exact shadows.answers.filter kept

theorem batch (shadows : stream.Shadows calm related) (size : Nat) :
    (stream.batch size).Shadows (calm.batch size) (Places related Anything) := by
  apply shadows.layer Anything (by rw [shadows.meter]) rfl trivial
  · intro place due belongs
    exact shadows.remainingFrom belongs.1
  · rintro ⟨position, _⟩ ⟨due, _⟩ ⟨aligned, -⟩
    apply Flow.Follows.bind (shadows.drainFrom aligned (max size 1))
    rintro cancelled ⟨items, next⟩ ⟨dueItems, dueNext⟩ - drained
    cases cancelled with
    | false =>
        obtain ⟨same, belongs, meters⟩ := drained
        cases same
        change next.2 = dueNext.2 at meters
        simp only [meters]
        by_cases nothing : (items.isEmpty || decide (dueNext.2.state = .cancelled)) = true
        · simp only [nothing, if_true]
          exact .pure ⟨rfl, ⟨belongs, meters⟩, trivial⟩
        · simp only [nothing, Bool.false_eq_true, if_false]
          exact .pure ⟨rfl, ⟨belongs, meters⟩, trivial⟩
    | true =>
        obtain ended | ⟨same, meters⟩ := drained
        · change next.2.state = .cancelled at ended
          simp only [ended, decide_true, Bool.or_true, if_true]
          refine .of_calm rfl id ?_ fun _ => .inl rfl
          split <;> exact .pure _
        · cases same
          change next.2 = dueNext.2 at meters
          simp only [meters]
          by_cases nothing : (items.isEmpty || decide (dueNext.2.state = .cancelled)) = true
          · simp only [nothing, if_true]
            exact .pure (.inl rfl)
          · simp only [nothing, Bool.false_eq_true, if_false]
            exact .pure (.inr rfl)
  · exact shadows.answers.batch size

theorem take (shadows : stream.Shadows calm related) (count : Nat) :
    (stream.take count).Shadows (calm.take count) (Places related Eq) := by
  apply shadows.layer Eq (by rw [shadows.meter]) (congrArg Meter.chunkSize shadows.meter) rfl
  · rintro ⟨position, left⟩ ⟨due, _⟩ ⟨aligned, rfl⟩
    exact congrArg (min left) (shadows.remainingFrom aligned)
  · rintro ⟨position, left⟩ ⟨due, _⟩ ⟨aligned, rfl⟩
    cases left with
    | zero => exact .pure ⟨rfl, aligned, rfl⟩
    | succ left =>
        apply Flow.Follows.bind (shadows.advance aligned)
        rintro cancelled ⟨item?, next⟩ ⟨dueItem?, dueNext⟩ - pulled
        apply Flow.Follows.pure
        cases cancelled with
        | false => exact ⟨pulled.1, pulled.2, rfl⟩
        | true => exact pulled.imp And.left And.left
  · exact shadows.answers.take count

theorem skip (shadows : stream.Shadows calm related) (count : Nat) :
    (stream.skip count).Shadows (calm.skip count) (Places related Eq) := by
  apply shadows.layer Eq (by rw [shadows.meter]) (congrArg Meter.chunkSize shadows.meter) rfl
  · intro place due belongs
    exact shadows.remainingFrom belongs.1
  · rintro ⟨position, left⟩ ⟨due, _⟩ ⟨aligned, rfl⟩
    apply Flow.Follows.bind (shadows.discard aligned left)
    rintro cancelled ⟨there, next⟩ ⟨dueThere, dueNext⟩ - discarded
    cases cancelled with
    | false =>
        obtain ⟨same, later⟩ := discarded rfl
        cases same
        cases there with
        | false => exact .pure ⟨rfl, later, rfl⟩
        | true =>
            apply Flow.Follows.bind (shadows.advance later)
            rintro cancelled ⟨item?, after⟩ ⟨dueItem?, dueAfter⟩ - pulled
            apply Flow.Follows.pure
            cases cancelled with
            | false => exact ⟨pulled.1, pulled.2, rfl⟩
            | true => exact pulled.imp And.left And.left
    | true =>
        have answers : Flow.Calm
            (if !dueThere then return (none, dueNext, 0) else do
              let pulled ← calm.advance dueNext
              return (pulled.1, pulled.2, 0) : Flow (Option Item × calm.Position × Nat)) := by
          cases dueThere with
          | false => exact .pure _
          | true => exact .bind (shadows.answers.advance dueNext) fun _ => .pure _
        cases there with
        | false =>
            simp only [Bool.not_false, if_true]
            exact .of_calm rfl id answers fun _ => .inl rfl
        | true =>
            have ended : (do
                let pulled ← stream.advance next
                return (pulled.1, pulled.2, 0) : Flow (Option Item × stream.Position × Nat)) true =
                .ok (none, stream.lateAfter next, 0) true := by
              simp only [Bind.bind, EStateM.bind, advance_late]
              rfl
            exact .of_calm ended id answers fun _ => .inl rfl
  · exact shadows.answers.skip count

/-- Both windows hold the same items. -/
def SameWindow {State : Type} (own : WindowState Item × State) (window : WindowState Item) : Prop :=
  own.1 = window

theorem windows (shadows : stream.Shadows calm related) (width step : Nat)
    {transform : Closure (List Item) Result} {function : List Item → Result}
    (computes : transform.Computes function) :
    (stream.windowsBy width step transform).Shadows
      (calm.windows width step fun held => pure (function held))
      (Places related SameWindow) := by
  apply shadows.layer SameWindow rfl rfl rfl
  · rintro ⟨position, window, _⟩ ⟨due, _⟩ ⟨aligned, rfl⟩
    exact congrArg (· + window.held.length) (shadows.remainingFrom aligned)
  · rintro ⟨position, window, state⟩ ⟨due, _⟩ ⟨aligned, rfl⟩
    have filled := shadows.fillWindow aligned (max width 1) (calm.remainingFrom due + 1) window
    have bounds := shadows.remainingFrom aligned
    simp only [bounds]
    apply Flow.Follows.bind filled
    rintro cancelled ⟨full, next, later⟩ ⟨dueFull, dueNext, dueLater⟩ - filled
    cases cancelled with
    | false =>
        obtain ⟨same, follows, window_eq⟩ := filled
        cases same
        cases window_eq
        cases full with
        | false => exact .pure ⟨rfl, follows, rfl⟩
        | true =>
            apply Flow.Follows.bind (computes.follows state later.held false)
            rintro cancelled ⟨result, _⟩ _ - rfl
            apply Flow.Follows.pure
            cases cancelled with
            | false => exact ⟨rfl, follows, rfl⟩
            | true => exact .inr rfl
    | true =>
        obtain short | ⟨same, window_eq⟩ := filled
        · cases short
          refine .of_calm rfl id ?_ fun _ => .inl rfl
          cases dueFull with
          | false => exact .pure _
          | true => exact .bind (.pure _) fun _ => .pure _
        · cases same
          cases window_eq
          cases full with
          | false => exact .pure (.inl rfl)
          | true =>
              apply Flow.Follows.bind (computes.follows state later.held true)
              rintro cancelled ⟨result, _⟩ _ stays rfl
              apply Flow.Follows.pure
              rw [stays rfl]
              exact .inr rfl
  · exact shadows.answers.windows width step function

end Shadows

end Stream

end TierVault
