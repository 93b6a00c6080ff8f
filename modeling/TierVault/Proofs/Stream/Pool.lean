import Mathlib.Algebra.GroupWithZero.Nat
import Mathlib.Data.List.Basic
import TierVault.Proofs.Stream.PoolSteps

/-!
What a pool of workers hands out.

In every order of the steps of dispatcher, workers and consumer, the results are those of every batch in
which the function does not stop, the results of each batch in their order; and the threads never wait
for each other in a circle.
-/

namespace TierVault

/-! # Interleavings

Lists that are put together from several lists.

The items of an interleaving are those of its lists, and the items of each list stand in their order.
-/

section

variable {Item : Type}

/-- `whole` is made of the items of two lists, each in its order. -/
inductive Shuffle : List Item → List Item → (whole : List Item) → Prop
  | nil : Shuffle [] [] []
  | left (item : Item) {first second whole : List Item} (rest : Shuffle first second whole) :
      Shuffle (item :: first) second (item :: whole)
  | right (item : Item) {first second whole : List Item} (rest : Shuffle first second whole) :
      Shuffle first (item :: second) (item :: whole)

namespace Shuffle

variable {first second third whole : List Item}

theorem nil_left (list : List Item) : Shuffle [] list list := by
  induction list with
  | nil => exact .nil
  | cons item rest induction => exact .right item induction

theorem eq_of_nil_left (shuffle : Shuffle [] second whole) : whole = second := by
  generalize nil : ([] : List Item) = first at shuffle
  induction shuffle with
  | nil => rfl
  | left item rest induction => cases nil
  | right item rest induction => rw [induction nil]

/-- The first of three lists can be taken out last instead of the second. -/
theorem exchange {both : List Item} (outer : Shuffle first both whole)
    (inner : Shuffle second third both) :
    ∃ others, Shuffle second others whole ∧ Shuffle first third others := by
  induction outer generalizing second third with
  | nil =>
      cases inner
      exact ⟨[], .nil, .nil⟩
  | left item rest induction =>
      obtain ⟨others, taken, left⟩ := induction inner
      exact ⟨item :: others, .right item taken, .left item left⟩
  | right item rest induction =>
      cases inner with
      | left _ inner =>
          obtain ⟨others, taken, left⟩ := induction inner
          exact ⟨others, .left item taken, left⟩
      | right _ inner =>
          obtain ⟨others, taken, left⟩ := induction inner
          exact ⟨item :: others, .right item taken, .right item left⟩

end Shuffle

/-- `whole` is made of the items of all the lists, those of each list in its order. -/
inductive Interleaves : List (List Item) → (whole : List Item) → Prop
  | nil : Interleaves [] []
  | cons {list others whole : List Item} {lists : List (List Item)}
      (rest : Interleaves lists others) (shuffle : Shuffle list others whole) :
      Interleaves (list :: lists) whole

namespace Interleaves

variable {lists : List (List Item)} {whole : List Item}

theorem perm {lists reordered : List (List Item)} (same : lists.Perm reordered)
    (interleaves : Interleaves lists whole) : Interleaves reordered whole := by
  induction same generalizing whole with
  | nil => exact interleaves
  | cons list same induction =>
      cases interleaves with
      | cons rest shuffle => exact .cons (induction rest) shuffle
  | swap first second lists =>
      cases interleaves with
      | cons rest outer =>
          cases rest with
          | cons rest inner =>
              obtain ⟨others, taken, left⟩ := outer.exchange inner
              exact .cons (.cons rest left) taken
  | trans _ _ induction later => exact later (induction interleaves)

/-- A list that is empty adds nothing. -/
theorem nil_cons (interleaves : Interleaves lists whole) : Interleaves ([] :: lists) whole :=
  .cons interleaves (.nil_left whole)

theorem of_nil_cons (interleaves : Interleaves ([] :: lists) whole) : Interleaves lists whole := by
  cases interleaves with
  | cons rest shuffle => rwa [shuffle.eq_of_nil_left]

/-- An item before an interleaving, taken from before one of the lists. -/
theorem cons_head {item : Item} {list : List Item} (interleaves : Interleaves (list :: lists) whole) :
    Interleaves ((item :: list) :: lists) (item :: whole) := by
  cases interleaves with
  | cons rest shuffle => exact .cons rest (.left item shuffle)

end Interleaves

end

/-! # Pools -/

variable {Item Result : Type}

namespace Pool

variable {setup : PoolSetup Item Result}

/-! ## What is still to come -/

/-- The batches that are still to be sent; `left` are those that are still to be pulled. -/
def unsent (pool : Pool setup) (left : List (List Item)) : List (List Item) :=
  match pool.dispatcher with
  | .pulling .. => left
  | .sending _ batch _ => batch :: left
  | .gone => []

end Pool

/-- The results that a worker still owes, as a list for its batch. -/
def WorkerPlace.owes (outcome : List Item → List Result) : WorkerPlace Item Result → List (List Result)
  | waiting | gone => []
  | working _ batch => [outcome batch]
  | delivering _ results => [results]

namespace Pool

variable {setup : PoolSetup Item Result} {pool next : Pool setup}

/-- The results of every batch that are still to be sent to the consumer. -/
def pending (outcome : List Item → List Result) (pool : Pool setup) (left : List (List Item)) :
    List (List Result) :=
  (pool.unsent left).map outcome ++ pool.jobs.map (fun job => outcome job.2) ++
    pool.workers.flatMap (WorkerPlace.owes outcome)

/-- The position from which the dispatcher pulls supplies the batches. -/
def Supplied (pool : Pool setup) (left : List (List Item)) : Prop :=
  match pool.dispatcher with
  | .pulling _ position | .sending _ _ position => setup.batches.SuppliesFrom position left
  | .gone => True

/-- The consumer was told of the end, or is about to be. -/
def SeesEnd (pool : Pool setup) : Prop := none ∈ pool.answers ∨ pool.reader = .ending

/-! The steps that are still to be made. A result goes through a worker and three steps of the consumer,
and a batch from the stream to the channel, to a worker, and through its hands. -/

/-- The steps that a batch takes after it was taken out of the channel. -/
def batchLoad (outcome : List Item → List Result) (batch : List Item) : Nat :=
  4 * (outcome batch).length + 4

def dispatcherLoad (outcome : List Item → List Result) (pool : Pool setup)
    (left : List (List Item)) : Nat :=
  let coming := (left.map fun batch => batchLoad outcome batch + 2).sum
  match pool.dispatcher with
  | .pulling .. => coming + 1
  | .sending _ batch _ => coming + batchLoad outcome batch + 2
  | .gone => 0

def workerLoad (outcome : List Item → List Result) : WorkerPlace Item Result → Nat
  | .waiting => 1
  | .working _ batch => batchLoad outcome batch
  | .delivering _ results => 4 * results.length + 2
  | .gone => 0

def readerLoad : ReaderPlace → Nat
  | .outside => 3
  | .checking => 2
  | .receiving => 1
  | .ending | .gone => 0

/-- No more steps than these are made before the consumer is told of the end. -/
def load (outcome : List Item → List Result) (pool : Pool setup) (left : List (List Item)) : Nat :=
  pool.dispatcherLoad outcome left + (pool.jobs.map fun job => batchLoad outcome job.2).sum +
    (pool.workers.map (workerLoad outcome)).sum + 3 * pool.results.length + readerLoad pool.reader

/-- A pool that turns batches into the lists. -/
structure Sound (outcome : List Item → List Result) (lists : List (List Result))
    (left : List (List Item)) (pool : Pool setup) : Prop where
  quiet : pool.cancelled = false
  present : pool.reader ≠ .gone
  staffed : pool.workers ≠ []
  supplied : pool.Supplied left
  /-- What was handed out, what is in the channel, and any interleaving of what is still to come make up
  an interleaving of the lists. -/
  keeps : ∀ rest, Interleaves (pool.pending outcome left) rest →
    Interleaves lists (pool.output ++ pool.results ++ rest)
  /-- A worker leaves only when there will be no more jobs. -/
  leaving : .gone ∈ pool.workers → pool.dispatcherGone = true ∧ pool.jobs = []
  told : pool.meter.state.hasEnded = true → none ∈ pool.answers
  ended : pool.SeesEnd → pool.results = [] ∧ pool.workersGone = true

namespace Sound

variable {outcome : List Item → List Result} {lists : List (List Result)} {left : List (List Item)}

/-- Where no worker is left, there is nothing to do. -/
theorem idle (sound : pool.Sound outcome lists left) (gone : pool.workersGone = true) :
    pool.dispatcherGone = true ∧ pool.jobs = [] := by
  obtain ⟨worker, others, workers⟩ := List.exists_cons_of_ne_nil sound.staffed
  have stands : worker ∈ pool.workers := workers ▸ List.mem_cons_self
  have isGone := List.all_eq_true.mp gone worker stands
  cases worker with
  | gone => exact sound.leaving stands
  | waiting | working | delivering => cases isGone

/-- As long as a worker is there, the consumer sees no end. -/
theorem not_seesEnd (sound : pool.Sound outcome lists left) {worker : WorkerPlace Item Result}
    (stands : worker ∈ pool.workers) (there : worker.isGone = false) : ¬pool.SeesEnd := by
  intro ended
  have isGone := List.all_eq_true.mp (sound.ended ended).2 worker stands
  rw [there] at isGone
  cases isGone

/-- As long as the dispatcher is there, so are the workers. -/
theorem not_gone_of_dispatcher (sound : pool.Sound outcome lists left)
    (there : pool.dispatcherGone = false) : .gone ∉ pool.workers := by
  intro stands
  have gone := (sound.leaving stands).1
  rw [there] at gone
  cases gone

/-- What is still to come may be told in another order. -/
theorem keeps_of_perm (sound : pool.Sound outcome lists left) {pending : List (List Result)}
    (same : pending.Perm (pool.pending outcome left)) (rest : List Result)
    (interleaves : Interleaves pending rest) :
    Interleaves lists (pool.output ++ pool.results ++ rest) :=
  sound.keeps rest (interleaves.perm same)

theorem pulls (sound : pool.Sound outcome lists left) {number : Nat}
    {position after : setup.batches.Position} {batch : List Item} {cancelled : Bool}
    (pulling : pool.dispatcher = .pulling number position)
    (advanced : setup.batches.advance position pool.cancelled = .ok (some batch, after) cancelled) :
    ∃ rest, left = batch :: rest ∧
      ({ pool with cancelled := cancelled, dispatcher := .sending number batch after } :
        Pool setup).Sound outcome lists rest := by
  have supplied := sound.supplied
  simp only [Supplied, pulling] at supplied
  obtain ⟨_, answers, others⟩ := supplied.advance
  rw [sound.quiet, answers] at advanced
  cases left with
  | nil => cases advanced
  | cons first rest =>
      cases advanced
      have busy : pool.dispatcherGone = false := by simp only [dispatcherGone, pulling]
      exact ⟨rest, rfl,
        { quiet := rfl
          present := sound.present
          staffed := sound.staffed
          supplied := others
          keeps := by
            have keeps := sound.keeps
            simp only [pending, unsent, pulling] at keeps
            exact keeps
          leaving := fun gone => absurd gone (sound.not_gone_of_dispatcher busy)
          told := sound.told
          ended := sound.ended }⟩

theorem stops_pulling (sound : pool.Sound outcome lists left) {number : Nat}
    {position : setup.batches.Position} {cancelled : Bool}
    (pulling : pool.dispatcher = .pulling number position)
    (advanced : (∃ after, setup.batches.advance position pool.cancelled = .ok (none, after) cancelled) ∨
      ∃ fault, setup.batches.advance position pool.cancelled = .error fault cancelled) :
    ({ pool with cancelled := cancelled, dispatcher := .gone } : Pool setup).Sound
      outcome lists left := by
  have supplied := sound.supplied
  simp only [Supplied, pulling] at supplied
  obtain ⟨_, answers, -⟩ := supplied.advance
  rw [sound.quiet, answers] at advanced
  obtain ⟨_, advanced⟩ | ⟨_, stopped⟩ := advanced
  · cases left with
    | cons first rest => cases advanced
    | nil =>
        cases advanced
        have busy : pool.dispatcherGone = false := by simp only [dispatcherGone, pulling]
        exact
          { quiet := rfl
            present := sound.present
            staffed := sound.staffed
            supplied := trivial
            keeps := by
              have keeps := sound.keeps
              simp only [pending, unsent, pulling] at keeps
              exact keeps
            leaving := fun gone => absurd gone (sound.not_gone_of_dispatcher busy)
            told := sound.told
            ended := sound.ended }
  · cases stopped

theorem sends (sound : pool.Sound outcome lists left) {number : Nat}
    {position : setup.batches.Position} {batch : List Item}
    (sending : pool.dispatcher = .sending number batch position) :
    ({ pool with
      dispatcher := .pulling (number + 1) position, jobs := pool.jobs ++ [(number, batch)] } :
        Pool setup).Sound outcome lists left where
  quiet := sound.quiet
  present := sound.present
  staffed := sound.staffed
  supplied := by
    have supplied := sound.supplied
    simp only [Supplied, sending] at supplied
    exact supplied
  keeps := by
    apply sound.keeps_of_perm
    simp only [pending, unsent, sending, List.map_cons, List.map_append, List.map_nil]
    apply List.Perm.append_right
    rw [← List.append_assoc]
    exact List.perm_append_singleton _ _
  leaving := by
    have busy : pool.dispatcherGone = false := by simp only [dispatcherGone, sending]
    exact fun gone => absurd gone (sound.not_gone_of_dispatcher busy)
  told := sound.told
  ended := sound.ended

theorem dispatches (sound : pool.Sound outcome lists left) (moved : pool.Dispatches next) :
    ∃ later, next.Sound outcome lists later ∧ next.load outcome later < pool.load outcome left := by
  cases moved with
  | pulls pulling advanced =>
      obtain ⟨rest, rfl, kept⟩ := sound.pulls pulling advanced
      refine ⟨rest, kept, ?_⟩
      simp only [load, dispatcherLoad, pulling, List.map_cons, List.sum_cons]
      omega
  | stops pulling advanced =>
      refine ⟨left, sound.stops_pulling pulling advanced, ?_⟩
      simp only [load, dispatcherLoad, pulling]
      omega
  | isLeft sending gone =>
      have idle := (sound.idle gone).1
      simp only [dispatcherGone, sending] at idle
      cases idle
  | sends sending room =>
      refine ⟨left, sound.sends sending, ?_⟩
      simp only [load, dispatcherLoad, sending, List.map_append, List.map_cons, List.map_nil,
        List.sum_append, List.sum_cons, List.sum_nil]
      omega

/-! The steps of a worker. -/

/-- A worker goes from one place to another, with other jobs and results left. -/
theorem worker_moves (sound : pool.Sound outcome lists left)
    {before after : List (WorkerPlace Item Result)} {place other : WorkerPlace Item Result}
    {cancelled : Bool} {jobs : List (Nat × List Item)} {results : List Result}
    (workers : pool.workers = before ++ place :: after) (there : place.isGone = false)
    (quiet : cancelled = false)
    (keeps : ∀ rest,
      Interleaves ((pool.unsent left).map outcome ++ jobs.map (fun job => outcome job.2) ++
        (before ++ other :: after).flatMap (WorkerPlace.owes outcome)) rest →
      Interleaves lists (pool.output ++ results ++ rest))
    (leaving : .gone ∈ before ++ other :: after → pool.dispatcherGone = true ∧ jobs = []) :
    ({ pool with
      cancelled := cancelled, jobs := jobs, results := results
      workers := before ++ other :: after } : Pool setup).Sound outcome lists left where
  quiet := quiet
  present := sound.present
  staffed := by simp only [ne_eq, List.append_eq_nil_iff, reduceCtorEq, and_false, not_false_eq_true]
  supplied := sound.supplied
  keeps := keeps
  leaving := leaving
  told := sound.told
  ended := by
    have stands : place ∈ pool.workers := workers ▸ List.mem_append_right _ List.mem_cons_self
    exact fun ended => absurd ended (sound.not_seesEnd stands there)

/-- A worker that comes to another place than out of the pool was a worker before. -/
theorem leaving_of_replaced (sound : pool.Sound outcome lists left)
    {before after : List (WorkerPlace Item Result)} {place other : WorkerPlace Item Result}
    (workers : pool.workers = before ++ place :: after) (there : other ≠ .gone)
    (gone : .gone ∈ before ++ other :: after) : pool.dispatcherGone = true ∧ pool.jobs = [] := by
  apply sound.leaving
  rw [workers]
  obtain early | now := List.mem_append.mp gone
  · exact List.mem_append_left _ early
  · obtain same | late := List.mem_cons.mp now
    · exact absurd same.symm there
    · exact List.mem_append_right _ (List.mem_cons_of_mem _ late)

theorem works (answers : ∀ batch, (Processor.workBatch setup.work batch).Answers (outcome batch))
    (sound : pool.Sound outcome lists left) {before after : List (WorkerPlace Item Result)}
    (moved : pool.Works before after next) : next.Sound outcome lists left := by
  cases moved with
  | takes waiting jobs =>
      refine sound.worker_moves waiting rfl sound.quiet ?_ ?_
      · apply sound.keeps_of_perm
        simp only [pending, waiting, jobs, List.map_cons, List.flatMap_append, List.flatMap_cons,
          WorkerPlace.owes, List.nil_append, List.singleton_append]
        rw [← List.append_assoc]
        refine List.perm_middle.trans ?_
        simp only [List.append_assoc, List.cons_append]
        exact List.perm_middle.symm
      · intro gone
        have none_left := (sound.leaving_of_replaced waiting (by nofun) gone).2
        rw [jobs] at none_left
        cases none_left
  | stops waiting jobs gone =>
      refine sound.worker_moves waiting rfl sound.quiet ?_ fun _ => ⟨gone, jobs⟩
      apply sound.keeps_of_perm
      simp only [pending, waiting, List.flatMap_append, List.flatMap_cons, WorkerPlace.owes]
      exact .refl _
  | computes working worked =>
      rw [sound.quiet, answers] at worked
      cases worked
      refine sound.worker_moves working rfl rfl ?_ (sound.leaving_of_replaced working nofun)
      apply sound.keeps_of_perm
      simp only [pending, working, List.flatMap_append, List.flatMap_cons, WorkerPlace.owes]
      exact .refl _
  | fails working worked =>
      rw [sound.quiet, answers] at worked
      cases worked
  | @delivers number result others delivering room =>
      refine sound.worker_moves delivering rfl sound.quiet ?_
        (sound.leaving_of_replaced delivering nofun)
      intro rest interleaves
      -- The result that is sent comes before all that the workers still owe.
      simp only [List.flatMap_append, List.flatMap_cons, WorkerPlace.owes, List.singleton_append]
        at interleaves
      rw [← List.append_assoc] at interleaves
      have sent : Interleaves _ (result :: rest) :=
        (interleaves.perm List.perm_middle).cons_head
      have keeps := sound.keeps_of_perm ?_ (result :: rest) (sent.perm List.perm_middle.symm)
      · rw [← List.append_assoc, List.append_assoc _ [result] rest]
        exact keeps
      · simp only [pending, delivering, List.flatMap_append, List.flatMap_cons, WorkerPlace.owes,
          List.singleton_append, List.append_assoc]
        exact .refl _
  | finishes delivering =>
      refine sound.worker_moves delivering rfl sound.quiet ?_
        (sound.leaving_of_replaced delivering nofun)
      intro rest interleaves
      refine sound.keeps_of_perm ?_ rest interleaves.nil_cons
      simp only [pending, delivering, List.flatMap_append, List.flatMap_cons, WorkerPlace.owes,
        List.nil_append, List.singleton_append]
      rw [← List.append_assoc, ← List.append_assoc]
      exact List.perm_middle.symm

/-- Every step of a worker is one less to be made. -/
theorem load_works (answers : ∀ batch, (Processor.workBatch setup.work batch).Answers (outcome batch))
    (sound : pool.Sound outcome lists left) {before after : List (WorkerPlace Item Result)}
    (moved : pool.Works before after next) : next.load outcome left < pool.load outcome left := by
  cases moved with
  | takes waiting jobs =>
      simp only [load, dispatcherLoad, waiting, jobs, workerLoad, List.map_append, List.map_cons,
        List.sum_append, List.sum_cons]
      omega
  | stops waiting jobs gone =>
      simp only [load, dispatcherLoad, waiting, workerLoad, List.map_append, List.map_cons,
        List.sum_append, List.sum_cons]
      omega
  | computes working worked =>
      rw [sound.quiet, answers] at worked
      cases worked
      simp only [load, dispatcherLoad, working, workerLoad, batchLoad, List.map_append, List.map_cons,
        List.sum_append, List.sum_cons]
      omega
  | fails working worked =>
      rw [sound.quiet, answers] at worked
      cases worked
  | delivers delivering room =>
      simp only [load, dispatcherLoad, delivering, workerLoad, List.map_append, List.map_cons,
        List.sum_append, List.sum_cons, List.length_append, List.length_cons, List.length_nil]
      omega
  | finishes delivering =>
      simp only [load, dispatcherLoad, delivering, workerLoad, List.map_append, List.map_cons,
        List.sum_append, List.sum_cons, List.length_nil]
      omega

/-! The steps of the consumer. -/

theorem reader_moves (sound : pool.Sound outcome lists left) {reader : ReaderPlace} {meter : Meter}
    {answers : List (Option Result)} {results : List Result} (stays : reader ≠ .gone)
    (same : answers.filterMap id ++ results = pool.output ++ pool.results)
    (told : meter.state.hasEnded = true → none ∈ answers)
    (ended : none ∈ answers ∨ reader = .ending → results = [] ∧ pool.workersGone = true) :
    ({ pool with reader := reader, meter := meter, answers := answers, results := results } :
      Pool setup).Sound outcome lists left where
  quiet := sound.quiet
  present := stays
  staffed := sound.staffed
  supplied := sound.supplied
  keeps := by
    intro rest interleaves
    rw [output, same]
    exact sound.keeps rest interleaves
  leaving := sound.leaving
  told := told
  ended := ended

/-- The consumer is told of an end that it sees. -/
theorem tells_end (sound : pool.Sound outcome lists left) {reader : ReaderPlace} {meter : Meter}
    (stays : reader ≠ .gone) (ended : pool.results = [] ∧ pool.workersGone = true) :
    ({ pool with reader := reader, meter := meter, answers := pool.answers ++ [none] } :
      Pool setup).Sound outcome lists left := by
  refine sound.reader_moves stays ?_ ?_ fun _ => ended
  · rw [List.filterMap_append, List.filterMap_cons_none rfl, List.filterMap_nil, List.append_nil]
    rfl
  · exact fun _ => List.mem_append_right _ List.mem_cons_self

theorem reads (sound : pool.Sound outcome lists left) (moved : pool.Reads next) :
    next.Sound outcome lists left := by
  cases moved with
  | hasEnded outside ended =>
      exact sound.tells_end sound.present (sound.ended (.inl (sound.told ended)))
  | begins outside =>
      refine sound.reader_moves nofun rfl sound.told ?_
      rintro (told | ending)
      · exact sound.ended (.inl told)
      · cases ending
  | goesOn checking =>
      refine sound.reader_moves nofun rfl Bool.noConfusion ?_
      rintro (told | ending)
      · exact sound.ended (.inl told)
      · cases ending
  | @receives result rest receiving results =>
      have going : none ∉ pool.answers := by
        intro told
        have nothing := (sound.ended (.inl told)).1
        rw [results] at nothing
        cases nothing
      refine sound.reader_moves nofun ?_ Bool.noConfusion ?_
      · rw [output, results, List.filterMap_append]
        exact List.append_assoc _ [result] rest
      · rintro (told | ending)
        · obtain earlier | now := List.mem_append.mp told
          · exact absurd earlier going
          · cases List.mem_singleton.mp now
        · cases ending
  | findsEnd receiving results gone =>
      exact sound.reader_moves nofun rfl sound.told fun _ => ⟨results, gone⟩
  | ends ending => exact sound.tells_end nofun (sound.ended (.inr ending))

/-- A step of the consumer is one less to be made, until it is told of the end. -/
theorem load_reads (sound : pool.Sound outcome lists left) (moved : pool.Reads next)
    (going : none ∉ next.answers) : next.load outcome left < pool.load outcome left := by
  cases moved with
  | hasEnded outside ended =>
      exact absurd (List.mem_append_left _ (sound.told ended)) going
  | begins outside =>
      simp only [load, dispatcherLoad, outside, readerLoad]
      omega
  | goesOn checking =>
      simp only [load, dispatcherLoad, checking, readerLoad]
      omega
  | receives receiving results =>
      simp only [load, dispatcherLoad, callReturns, receiving, results, readerLoad, List.length_cons]
      omega
  | findsEnd receiving results gone =>
      simp only [load, dispatcherLoad, receiving, readerLoad]
      omega
  | ends ending => exact absurd (List.mem_append_right _ List.mem_cons_self) going

/-! ## Every order of the steps -/

theorem step (answers : ∀ batch, (Processor.workBatch setup.work batch).Answers (outcome batch))
    (sound : pool.Sound outcome lists left) {move : Move} (stays : move ≠ .leave)
    (moved : pool.step move = some next) :
    ∃ later, next.Sound outcome lists later ∧ pool.answers <+: next.answers ∧
      (none ∉ next.answers → next.load outcome later < pool.load outcome left) := by
  cases move with
  | dispatch =>
      have dispatches := dispatches_of_eq moved
      obtain ⟨later, kept, less⟩ := sound.dispatches dispatches
      exact ⟨later, kept, dispatches.answers ▸ List.prefix_rfl, fun _ => less⟩
  | work worker =>
      obtain ⟨before, after, works⟩ := works_of_eq sound.present moved
      exact ⟨left, sound.works answers works, works.answers ▸ List.prefix_rfl,
        fun _ => sound.load_works answers works⟩
  | read =>
      have reads := reads_of_eq sound.quiet moved
      exact ⟨left, sound.reads reads, reads.answers, sound.load_reads reads⟩
  | leave => exact absurd rfl stays

/-- In every order of the steps the pool stays sound, and until the consumer is told of the end there
are only as many steps as are to be made. -/
theorem run (answers : ∀ batch, (Processor.workBatch setup.work batch).Answers (outcome batch))
    (sound : pool.Sound outcome lists left) {moves : List Move} (stays : .leave ∉ moves)
    (ran : pool.run moves = some next) :
    ∃ later, next.Sound outcome lists later ∧ pool.answers <+: next.answers ∧
      (none ∉ next.answers → moves.length + next.load outcome later ≤ pool.load outcome left) := by
  induction moves generalizing pool left with
  | nil =>
      cases ran
      exact ⟨left, sound, List.prefix_rfl, fun _ => Nat.le_of_eq (Nat.zero_add _)⟩
  | cons move moves induction =>
      obtain ⟨middle, moved, rest⟩ := Option.bind_eq_some_iff.mp ran
      rw [List.mem_cons, not_or] at stays
      obtain ⟨between, kept, first, less⟩ := sound.step answers (Ne.symm stays.1) moved
      obtain ⟨later, last, others, bounded⟩ := induction kept stays.2 rest
      refine ⟨later, last, first.trans others, fun going => ?_⟩
      have now := less fun told => going (others.subset told)
      have then_on := bounded going
      rw [List.length_cons]
      omega

/-- At the end everything has been handed out. -/
theorem interleaves (sound : pool.Sound outcome lists left) (told : none ∈ pool.answers) :
    Interleaves lists pool.output := by
  obtain ⟨results, gone⟩ := sound.ended (.inl told)
  obtain ⟨dispatcherGone, jobs⟩ := sound.idle gone
  have nothing : pool.pending outcome left = [] := by
    have unsent : pool.unsent left = [] := by
      unfold Pool.unsent
      unfold Pool.dispatcherGone at dispatcherGone
      split at dispatcherGone
      · simp only [*]
      · cases dispatcherGone
      · cases dispatcherGone
    have owed : pool.workers.flatMap (WorkerPlace.owes outcome) = [] := by
      rw [List.flatMap_eq_nil_iff]
      intro worker stands
      have isGone := List.all_eq_true.mp gone worker stands
      cases worker with
      | gone => rfl
      | waiting | working | delivering => cases isGone
    rw [pending, unsent, jobs, owed]
    rfl
  have whole := sound.keeps []
  rw [nothing, results, List.append_nil, List.append_nil] at whole
  exact whole .nil

/-- A worker that is there can go on, or the dispatcher can. -/
theorem worker_goes_on (sound : pool.Sound outcome lists left) (jobRoom : 0 < setup.jobRoom)
    (resultRoom : 0 < setup.resultRoom) (empty : pool.results = [])
    {worker : Nat} {place : WorkerPlace Item Result} (stands : pool.workers[worker]? = some place)
    (there : place.isGone = false) (staffed : pool.workersGone = false) :
    (∃ next, pool.work worker = some next) ∨ ∃ next, pool.dispatch = some next := by
  cases place with
  | gone => cases there
  | working number batch =>
      left
      simp only [work, stands]
      split <;> exact ⟨_, rfl⟩
  | delivering number results =>
      left
      cases results with
      | nil =>
          simp only [work, stands]
          exact ⟨_, rfl⟩
      | cons result rest =>
          simp only [work, stands, sound.present, if_false, empty, List.length_nil, resultRoom, if_true]
          exact ⟨_, rfl⟩
  | waiting =>
      cases jobs : pool.jobs with
      | cons job rest =>
          left
          simp only [work, stands, jobs]
          exact ⟨_, rfl⟩
      | nil =>
          cases dispatcher : pool.dispatcher with
          | gone =>
              left
              simp only [work, stands, jobs, dispatcherGone, dispatcher, if_true]
              exact ⟨_, rfl⟩
          | pulling number position =>
              right
              simp only [dispatch, dispatcher]
              split <;> exact ⟨_, rfl⟩
          | sending number batch position =>
              right
              simp only [dispatch, dispatcher, staffed, Bool.false_eq_true, if_false, jobs,
                List.length_nil, jobRoom, if_true]
              exact ⟨_, rfl⟩

/-- As long as the consumer waits for a result, there is a step that can be made. -/
theorem goes_on (sound : pool.Sound outcome lists left) (jobRoom : 0 < setup.jobRoom)
    (resultRoom : 0 < setup.resultRoom) : ∃ move ≠ .leave, ∃ next, pool.step move = some next := by
  suffices moves : (∃ next, pool.read = some next) ∨ (∃ worker next, pool.work worker = some next) ∨
      ∃ next, pool.dispatch = some next by
    obtain ⟨next, moved⟩ | ⟨worker, next, moved⟩ | ⟨next, moved⟩ := moves
    · exact ⟨.read, nofun, next, moved⟩
    · exact ⟨.work worker, nofun, next, moved⟩
    · exact ⟨.dispatch, nofun, next, moved⟩
  cases reader : pool.reader with
  | gone => exact absurd reader sound.present
  | outside =>
      left
      simp only [read, reader]
      split <;> exact ⟨_, rfl⟩
  | checking =>
      left
      simp only [read, reader]
      split <;> exact ⟨_, rfl⟩
  | ending =>
      left
      simp only [read, reader]
      exact ⟨_, rfl⟩
  | receiving =>
      cases results : pool.results with
      | cons result rest =>
          left
          simp only [read, reader, results]
          exact ⟨_, rfl⟩
      | nil =>
          cases staffed : pool.workersGone with
          | true =>
              left
              simp only [read, reader, results, staffed, if_true]
              exact ⟨_, rfl⟩
          | false =>
              obtain ⟨place, member, there⟩ := List.all_eq_false.mp staffed
              obtain ⟨worker, stands⟩ := List.mem_iff_getElem?.mp member
              obtain ⟨next, moved⟩ | moved := sound.worker_goes_on jobRoom resultRoom results stands
                (Bool.eq_false_iff.mpr there) staffed
              · exact .inr (.inl ⟨worker, next, moved⟩)
              · exact .inr (.inr moved)

end Sound

theorem sound_start {outcome : List Item → List Result} {groups : List (List Item)}
    (supplies : setup.batches.SuppliesFrom setup.batches.position groups)
    (staffed : 0 < setup.processor.workers) :
    (start setup).Sound outcome (groups.map outcome) groups where
  quiet := rfl
  present := nofun
  staffed := by
    simp only [start, ne_eq, List.replicate_eq_nil_iff]
    exact Nat.ne_of_gt staffed
  supplied := supplies
  keeps := by
    intro rest interleaves
    have owed : (start setup).workers.flatMap (WorkerPlace.owes outcome) = [] := by
      rw [List.flatMap_eq_nil_iff]
      intro worker stands
      rw [List.eq_of_mem_replicate stands]
      rfl
    rw [pending, owed, List.append_nil] at interleaves
    rw [← List.append_nil (groups.map outcome)]
    exact interleaves
  leaving := by
    intro gone
    cases List.eq_of_mem_replicate gone
  told := Bool.noConfusion
  ended := by
    rintro (told | ending)
    · cases told
    · cases ending

end Pool

/-! ## Batches of a list -/

/-- The pool of a configured processor over a list, with a function that may stop at some items. -/
def PoolSetup.ofList (config : StreamConfig) (items : List Item)
    (function : Item → Except Fault Result) : PoolSetup Item Result where
  processor := .ofConfig config
  stream := .ofList items
  work := fun item => Action.ofExcept (function item)

/-- The results of the batches in which the function does not stop. -/
def finished (function : Item → Except Fault Result) (groups : List (List Item)) : List (List Result) :=
  groups.filterMap fun batch => (batch.mapM function).toOption

/-- The batches in which the function stops add nothing. -/
theorem Interleaves.of_finished {function : Item → Except Fault Result} {groups : List (List Item)}
    {whole : List Result} (interleaves : Interleaves (groups.map (resultsOf function)) whole) :
    Interleaves (finished function groups) whole := by
  induction groups generalizing whole with
  | nil => exact interleaves
  | cons batch groups induction =>
      unfold finished at induction ⊢
      cases told : batch.mapM function with
      | error fault =>
          have nothing : resultsOf function batch = [] := by
            rw [resultsOf, told]
            rfl
          rw [List.filterMap_cons_none (by rw [told]; rfl)]
          rw [List.map_cons, nothing] at interleaves
          exact induction interleaves.of_nil_cons
      | ok results =>
          have all : resultsOf function batch = results := by
            rw [resultsOf, told]
            rfl
          rw [List.filterMap_cons_some (by rw [told]; rfl)]
          rw [List.map_cons, all] at interleaves
          cases interleaves with
          | cons rest shuffle => exact .cons (induction rest) shuffle

namespace Pool

variable (config : StreamConfig) (items : List Item) (function : Item → Except Fault Result)

theorem sound_ofList :
    (start (.ofList config items function)).Sound (resultsOf function)
      ((batchesOf (Processor.ofConfig config).batchSize items).map (resultsOf function))
      (batchesOf (Processor.ofConfig config).batchSize items) := by
  have carries := (Stream.carries_ofList items).batch (Processor.ofConfig config).batchSize
  have size : max (Processor.ofConfig config).batchSize 1 = (Processor.ofConfig config).batchSize :=
    Nat.max_eq_left (Nat.le_max_right _ _)
  rw [size] at carries
  exact sound_start carries.supplies (Nat.le_max_right _ _)

/-- For every order of the steps: when the consumer is told of the end, it was handed an interleaving of
the results of all batches in which the function does not stop. Before that, a step can be made. -/
theorem interleaves_batches {moves : List Move} {final : Pool (.ofList config items function)}
    (stays : .leave ∉ moves) (ran : (start _).run moves = some final) :
    (none ∈ final.answers →
      Interleaves (finished function (batchesOf (Processor.ofConfig config).batchSize items))
        final.output) ∧
      (none ∉ final.answers → ∃ move ≠ .leave, ∃ next, final.step move = some next) := by
  obtain ⟨left, sound, -⟩ := (sound_ofList config items function).run
    (workBatch_ofExcept function) stays ran
  refine ⟨fun told => (sound.interleaves told).of_finished, fun _ => sound.goes_on ?_ ?_⟩
  · exact Nat.mul_pos (Nat.le_max_right _ _) Nat.two_pos
  · exact Nat.mul_pos (Nat.le_max_right _ _) (Nat.le_max_right _ _)

/-- Ten times the item, but no result for one of them. -/
def tenfoldBut (bad item : Nat) : Except Fault Nat :=
  if item = bad then .error (.raised "bad item") else .ok (10 * item)

/-- Two workers have the batches 1 and 2, 3 and 4, 5; the function stops at 3, and the result of 5 comes
between those of the first batch. -/
theorem interleaves_batches_failed :
    let pool := PoolSetup.ofList { workers := 2, parallelBatchSize := 2 } [1, 2, 3, 4, 5] (tenfoldBut 3)
    ∃ moves, ∃ final : Pool pool, .leave ∉ moves ∧ (start pool).run moves = some final ∧
      final.output = [10, 50, 20] ∧ none ∈ final.answers ∧
      Interleaves [[10, 20], [50]] final.output := by
  intro pool
  let moves : List Move :=
    [.dispatch, .dispatch, .work 0, .work 0, .work 0, .dispatch, .dispatch, .work 1, .work 1, .work 1,
      .dispatch, .dispatch, .work 1, .work 1, .work 1, .dispatch, .work 0, .work 0, .work 0, .work 1,
      .work 1] ++ List.replicate 13 .read
  have stays : .leave ∉ moves := by decide
  have answers : ((start pool).run moves).map Pool.answers =
      some [some 10, some 50, some 20, none] := by
    decide +kernel
  obtain ⟨final, ran, told⟩ := Option.map_eq_some_iff.mp answers
  have handed : final.output = [10, 50, 20] := by
    rw [output, told]
    rfl
  have ended : none ∈ final.answers := by
    rw [told]
    decide
  refine ⟨moves, final, stays, ran, handed, ended, ?_⟩
  exact (interleaves_batches _ [1, 2, 3, 4, 5] (tenfoldBut 3) stays ran).1 ended

/-- No order of the steps goes on for ever before the consumer is told of the end. -/
theorem schedule_ends {moves : List Move} {final : Pool (.ofList config items function)}
    (stays : .leave ∉ moves) (ran : (start _).run moves = some final) (going : none ∉ final.answers) :
    moves.length ≤ (start (.ofList config items function)).load (resultsOf function)
      (batchesOf (Processor.ofConfig config).batchSize items) := by
  obtain ⟨left, -, -, bounded⟩ := (sound_ofList config items function).run
    (workBatch_ofExcept function) stays ran
  exact Nat.le_trans (Nat.le_add_right _ _) (bounded going)

/-- Every order of the steps gives an interleaving of the lists that working on one batch after the
other gives. -/
theorem interleaves_workOn {rooms : Nat × Nat}
    (fits : (Processor.ofConfig config).channels = .ok rooms) {moves : List Move}
    {final : Pool (.ofList config items function)} (stays : .leave ∉ moves)
    (ran : (start _).run moves = some final) (told : none ∈ final.answers) :
    ∃ lists, ((Processor.ofConfig config).workOn (.ofList items)
        fun item => Action.ofExcept (function item)).Answers lists ∧
      Interleaves lists final.output := by
  obtain ⟨left, sound, -⟩ := (sound_ofList config items function).run
    (workBatch_ofExcept function) stays ran
  exact ⟨_, Processor.workOn_answers config items function fits, sound.interleaves told⟩

end Pool

end TierVault
