import TierVault.Proofs.Cache.Runs

/-!
Two caches that do the same over different stores.

Of a store, a cache sees nothing but its answers. So where the stores of two caches answer alike, the caches do
step by step the same, and their states differ in nothing but what the stores hold. The first cache may also stop
with a fault that is expected.
-/

namespace TierVault

variable {World Other State Place Result Answer Next Further Item : Type} {faults : Fault → Prop}

/-! ## Actions that end alike -/

namespace Action

/-- Two ends of actions: the same up to what is related, or else an expected stop of the first. -/
inductive Alike (faults : Fault → Prop) (related : State → Place → Prop) (same : Result → Answer → Prop) :
    EStateM.Result Fault State Result → EStateM.Result Fault Place Answer → Prop
  | ok {result : Result} {answer : Answer} {final : State} {last : Place} (results : same result answer)
      (states : related final last) : Alike faults related same (.ok result final) (.ok answer last)
  | error {fault : Fault} {final : State} {last : Place} (states : related final last) :
      Alike faults related same (.error fault final) (.error fault last)
  | stopped {fault : Fault} {final : State} {ended : EStateM.Result Fault Place Answer}
      (expected : faults fault) : Alike faults related same (.error fault final) ended

/-- From related states, the action ends as its twin does. -/
def Follows (faults : Fault → Prop) (related : State → Place → Prop) (same : Result → Answer → Prop)
    (action : Action State Result) (twin : Action Place Answer) : Prop :=
  ∀ state place, related state place → Alike faults related same (action state) (twin place)

variable {related : State → Place → Prop} {same : Result → Answer → Prop}
  {action : Action State Result} {twin : Action Place Answer} {state final : State} {place : Place}

theorem follows_pure {result : Result} {answer : Answer} (results : same result answer) :
    Follows faults related same (pure result) (pure answer) :=
  fun _ _ states => .ok results states

theorem Follows.bind {sameNext : Next → Further → Prop} {next : Result → Action State Next}
    {twinNext : Answer → Action Place Further} (first : Follows faults related same action twin)
    (onward : ∀ result answer, same result answer →
      Follows faults related sameNext (next result) (twinNext answer)) :
    Follows faults related sameNext (action >>= next) (twin >>= twinNext) := by
  intro state place states
  simp only [Bind.bind, EStateM.bind]
  have ends := first state place states
  generalize action state = left at ends ⊢
  generalize twin place = right at ends ⊢
  cases ends with
  | ok results middle => exact onward _ _ results _ _ middle
  | error middle => exact .error middle
  | stopped expected => exact .stopped expected

theorem Follows.ite {condition : Prop} [Decidable condition] {other : Action State Result}
    {another : Action Place Answer} (yes : Follows faults related same action twin)
    (no : Follows faults related same other another) :
    Follows faults related same (if condition then action else other)
      (if condition then twin else another) := by
  split
  · exact yes
  · exact no

theorem Follows.imp {fewer : Result → Answer → Prop} (follows : Follows faults related fewer action twin)
    (implies : ∀ result answer, fewer result answer → same result answer) :
    Follows faults related same action twin := by
  intro state place states
  have ends := follows state place states
  generalize action state = left at ends ⊢
  generalize twin place = right at ends ⊢
  cases ends with
  | ok results middle => exact .ok (implies _ _ results) middle
  | error middle => exact .error middle
  | stopped expected => exact .stopped expected

theorem follows_ofExcept (computation : Except Fault Result) :
    Follows faults related Eq (ofExcept computation) (ofExcept computation) := by
  intro state place states
  cases computation with
  | ok result => exact .ok rfl states
  | error fault => exact .error states

/-- Every action follows itself. -/
theorem follows_refl (action : Action State Result) : Follows faults Eq Eq action action := by
  rintro state _ rfl
  cases action state with
  | ok result final => exact .ok rfl rfl
  | error fault final => exact .error rfl

theorem Follows.forM {body : Item → Action State Unit} {twinBody : Item → Action Place Unit}
    (each : ∀ item, Follows faults related Eq (body item) (twinBody item)) (items : List Item) :
    Follows faults related Eq (items.forM body) (items.forM twinBody) := by
  induction items with
  | nil => exact follows_pure rfl
  | cons item rest induction => exact (each item).bind fun _ _ _ => induction

/-- What ends with an answer does so for the twin as well. -/
theorem Follows.of_ok {result : Result} (follows : Follows faults related same action twin)
    (states : related state place) (ended : action state = .ok result final) :
    ∃ answer last, twin place = .ok answer last ∧ same result answer ∧ related final last := by
  have ends := follows state place states
  rw [ended] at ends
  generalize twin place = right at ends
  cases ends with
  | ok results last => exact ⟨_, _, rfl, results, last⟩

/-- Where the twin leads, the action leads to something related. -/
theorem Follows.leads {after : Answer → Place → Prop} (follows : Follows faults related same action twin)
    (states : related state place) (leads : Leads faults twin place after) :
    Leads faults action state fun result final =>
      ∃ answer last, same result answer ∧ related final last ∧ after answer last := by
  have ends := follows state place states
  unfold Leads at leads ⊢
  generalize action state = left at ends ⊢
  generalize twin place = right at ends leads
  cases ends with
  | ok results last => exact ⟨_, _, results, last, leads⟩
  | error _ => exact leads
  | stopped expected => exact expected

end Action

/-! ## Caches over stores that answer alike -/

/-- The same cache over other stores. -/
def CacheSetup.over (setup : CacheSetup World) (stores : PerTier (Store Other)) (shortfall : Shortfall) :
    CacheSetup Other where
  tiers := setup.tiers
  defaultLifetime? := setup.defaultLifetime?
  stores := stores
  clock := setup.clock
  shortfall := shortfall

/-- What the cache knows, over other stores. -/
def CacheState.over (state : CacheState World) (world : Other) : CacheState Other where
  entries := state.entries
  usage := state.usage
  counters := state.counters
  metrics := state.metrics
  tick := state.tick
  readings := state.readings
  world := world

/-- Two caches know the same, and their stores hold what is related. -/
inductive CacheState.Beside (related : World → Other → Prop) (state : CacheState World) :
    CacheState Other → Prop
  | over {world : Other} (worlds : related state.world world) : Beside related state (state.over world)

open TierVault.Action CacheState

/-- Values that may be held under their keys are answered alike, and so is everything else. -/
structure CacheSetup.Resembles (setup : CacheSetup World) (stores : PerTier (Store Other))
    (shortfall : Shortfall) (faults : Fault → Prop) (related : World → Other → Prop)
    (allowed : String → Value → Prop) : Prop where
  takeAway : ∀ held amount, setup.shortfall.takeAway held amount = shortfall.takeAway held amount ∨
    ∃ fault, setup.shortfall.takeAway held amount = .error fault ∧ faults fault
  get : ∀ tier key, Follows faults related
    (fun answer other => answer = other ∧ ∀ value, answer = .ok (some value) → allowed key value)
    ((setup.stores.get tier).get key).run ((stores.get tier).get key).run
  put : ∀ tier key value, allowed key value → Follows faults related Eq
    ((setup.stores.get tier).put key value).run ((stores.get tier).put key value).run
  delete : ∀ tier key, Follows faults related Eq
    ((setup.stores.get tier).delete key).run ((stores.get tier).delete key).run
  clear : ∀ tier, Follows faults related Eq
    (setup.stores.get tier).clear.run (stores.get tier).clear.run

/-- Values that are put may be held under their keys. -/
def CacheCall.Allowed (allowed : String → Value → Prop) : CacheCall → Prop
  | .put key value _ => allowed key value
  | _ => True

namespace TieredCache

variable {setup : CacheSetup World} {stores : PerTier (Store Other)} {shortfall : Shortfall}
  {related : World → Other → Prop} {allowed : String → Value → Prop} {key : String} {value : Value}

/-- From states beside each other, two actions answer the same and end beside each other. -/
abbrev Parallel (faults : Fault → Prop) (related : World → Other → Prop)
    (action : CacheAction World Result) (twin : CacheAction Other Result) : Prop :=
  Follows faults (Beside related) Eq action twin

theorem Parallel.bind {action : CacheAction World Result} {twin : CacheAction Other Result}
    {next : Result → CacheAction World Next} {twinNext : Result → CacheAction Other Next}
    (first : Parallel faults related action twin)
    (onward : ∀ result, Parallel faults related (next result) (twinNext result)) :
    Parallel faults related (action >>= next) (twin >>= twinNext) := by
  refine Follows.bind first ?_
  rintro result _ rfl
  exact onward result

/-- What is done with the state depends on what the caches know. -/
theorem Parallel.get {next : CacheState World → CacheAction World Result}
    {twinNext : CacheState Other → CacheAction Other Result}
    (onward : ∀ state world, Parallel faults related (next state) (twinNext (state.over world))) :
    Parallel faults related (MonadState.get >>= next) (MonadState.get >>= twinNext) := by
  have same : Follows faults (Beside related) (Beside related) MonadState.get MonadState.get :=
    fun _ _ states => .ok states states
  refine same.bind ?_
  rintro state _ ⟨worlds⟩
  exact onward state _

theorem parallel_pure (result : Result) : Parallel faults related (pure result) (pure result) :=
  follows_pure rfl

/-- A change of what a cache knows is the same for both. -/
theorem parallel_modify {change : CacheState World → CacheState World}
    {twinChange : CacheState Other → CacheState Other}
    (known : ∀ state world, twinChange (state.over world) = (change state).over world)
    (spared : ∀ state, (change state).world = state.world) :
    Parallel faults related (modify change) (modify twinChange) := by
  rintro state _ @⟨world, worlds⟩
  change Alike faults _ _ (.ok () (change state)) (.ok () (twinChange (state.over world)))
  rw [known]
  refine .ok rfl ⟨?_⟩
  rwa [spared]

/-! ### Steps -/

theorem parallel_readClock :
    Parallel faults related (readClock setup) (readClock (setup.over stores shortfall)) := by
  rintro state _ ⟨worlds⟩
  exact .ok rfl ⟨worlds⟩

theorem parallel_nextTick : Parallel faults related nextTick nextTick := by
  rintro state _ ⟨worlds⟩
  exact .ok rfl ⟨worlds⟩

theorem parallel_lookup (key : String) :
    Parallel faults related (lookup key) (lookup key) :=
  Parallel.get fun _ _ => parallel_pure _

theorem parallel_count (change : Counters → Counters) :
    Parallel faults related (count change) (count change) :=
  parallel_modify (fun _ _ => rfl) fun _ => rfl

theorem parallel_record (operation outcome : String) : Parallel faults
    related (record operation outcome) (record operation outcome) :=
  parallel_modify (fun _ _ => rfl) fun _ => rfl

theorem parallel_setUsage (tier : Tier) (usage : TierUsage) : Parallel
    faults related (setUsage tier usage) (setUsage tier usage) :=
  parallel_modify (fun _ _ => rfl) fun _ => rfl

theorem parallel_changeEntries (change : Keyed String Entry → Keyed String Entry) :
    Parallel faults related (changeEntries change)
      (changeEntries change) :=
  parallel_modify (fun _ _ => rfl) fun _ => rfl

/-- A call that the stores answer alike. -/
theorem follows_onStore {same : Except StoreError Result → Except StoreError Answer → Prop} {tier : Tier}
    {call : Store World → StoreAction World Result} {twin : Store Other → StoreAction Other Answer}
    (follows : Follows faults related same (call (setup.stores.get tier)).run
      (twin (stores.get tier)).run) :
    Follows faults (Beside related) same (onStore setup tier call)
      (onStore (setup.over stores shortfall) tier twin) := by
  rintro state _ @⟨world, worlds⟩
  have ends := follows state.world world worlds
  unfold onStore
  have called : (twin ((setup.over stores shortfall).stores.get tier)).run (state.over world).world =
      (twin (stores.get tier)).run world := rfl
  rw [called]
  generalize (call (setup.stores.get tier)).run state.world = left at ends ⊢
  generalize (twin (stores.get tier)).run world = right at ends ⊢
  cases ends with
  | ok answers after => exact .ok answers ⟨after⟩
  | error after => exact .error ⟨after⟩
  | stopped expected => exact .stopped expected

variable (resembles : setup.Resembles stores shortfall faults related allowed)
include resembles

theorem parallel_takeAway (held amount : Nat) : Parallel faults related
    (Action.ofExcept (setup.shortfall.takeAway held amount) : CacheAction World Nat)
    (Action.ofExcept (shortfall.takeAway held amount)) := by
  rcases resembles.takeAway held amount with same | ⟨fault, short, expected⟩
  · rw [same]
    exact follows_ofExcept _
  · rw [short]
    exact fun _ _ _ => .stopped expected

omit resembles in
theorem parallel_accountAdd (tier : Tier) (size : Nat) : Parallel faults
    related (accountAdd tier size) (accountAdd tier size) :=
  Parallel.get fun _ _ => Parallel.bind (follows_ofExcept _) fun _ => parallel_setUsage _ _

theorem parallel_accountRemove (tier : Tier) (size : Nat) : Parallel faults related
    (accountRemove setup tier size) (accountRemove (setup.over stores shortfall) tier size) := by
  refine Parallel.get fun state world => ?_
  refine (parallel_takeAway resembles _ _).bind fun entries => ?_
  exact (parallel_takeAway resembles _ _).bind fun bytes => parallel_setUsage _ _

theorem parallel_discardPayload (tier : Tier) (key : String) : Parallel faults related
    (discardPayload setup tier key) (discardPayload (setup.over stores shortfall) tier key) :=
  Parallel.bind (follows_onStore (resembles.delete tier key)) fun _ => parallel_pure ()

omit resembles in
theorem parallel_insertEntry (key : String) (size : Nat) (tier : Tier) (lifetime? : Option Nat) :
    Parallel faults related (insertEntry setup key size tier lifetime?)
      (insertEntry (setup.over stores shortfall) key size tier lifetime?) := by
  refine parallel_nextTick.bind fun tick => parallel_readClock.bind fun now => ?_
  exact (parallel_changeEntries _).bind fun _ => parallel_accountAdd tier size

theorem parallel_dropEntry (key : String) : Parallel faults related (dropEntry setup key)
    (dropEntry (setup.over stores shortfall) key) := by
  refine (parallel_lookup key).bind fun found => ?_
  cases found with
  | none => exact parallel_pure none
  | some entry =>
      refine (parallel_changeEntries _).bind fun _ => ?_
      exact (parallel_accountRemove resembles _ _).bind fun _ => parallel_pure _

theorem parallel_removeEntry (key : String) : Parallel faults related (removeEntry setup key)
    (removeEntry (setup.over stores shortfall) key) := by
  refine (parallel_dropEntry resembles key).bind fun dropped => ?_
  cases dropped with
  | none => exact parallel_pure false
  | some entry => exact (parallel_discardPayload resembles _ _).bind fun _ => parallel_pure true

theorem parallel_moveEntry (key : String) (source target : Tier) (size : Nat) :
    Parallel faults related (moveEntry setup key source target size)
      (moveEntry (setup.over stores shortfall) key source target size) := by
  refine (parallel_discardPayload resembles _ _).bind fun _ => ?_
  refine (parallel_accountRemove resembles _ _).bind fun _ => ?_
  refine (parallel_accountAdd _ _).bind fun _ => (parallel_lookup key).bind fun found => ?_
  cases found with
  | none => exact parallel_pure ()
  | some entry => exact parallel_changeEntries _

omit resembles in
theorem parallel_touchEntry (key : String) (now : Nat) : Parallel faults related
    (touchEntry setup key now) (touchEntry (setup.over stores shortfall) key now) := by
  refine parallel_nextTick.bind fun tick => (parallel_lookup key).bind fun found => ?_
  cases found with
  | none => exact parallel_pure _
  | some entry =>
      refine parallel_readClock.bind fun later => ?_
      exact (parallel_changeEntries _).bind fun _ => parallel_pure _

/-- A value that a store answers may be held, and what is done with it is done by both. -/
theorem parallel_read {tier : Tier} {next : Except StoreError (Option Value) → CacheAction World Result}
    {twinNext : Except StoreError (Option Value) → CacheAction Other Result}
    (onward : ∀ answer, (∀ value, answer = .ok (some value) → allowed key value) →
      Parallel faults related (next answer) (twinNext answer)) :
    Parallel faults related (onStore setup tier (·.get key) >>= next)
      (onStore (setup.over stores shortfall) tier (·.get key) >>= twinNext) := by
  refine (follows_onStore (resembles.get tier key)).bind ?_
  rintro answer _ ⟨rfl, held⟩
  exact onward answer held

/-! ### Room -/

theorem parallel_demote {room : Nat → List String → CacheAction World Bool}
    {twinRoom : Nat → List String → CacheAction Other Bool}
    (roomy : ∀ needed kept, Parallel faults related (room needed kept) (twinRoom needed kept))
    (key : String) (source target : Tier) (kept : List String) :
    Parallel faults related (demote setup room key source target kept)
      (demote (setup.over stores shortfall) twinRoom key source target kept) := by
  refine (parallel_lookup key).bind fun found => ?_
  cases found with
  | none => exact parallel_pure false
  | some entry =>
      refine parallel_read resembles fun answer held => ?_
      rcases answer with error | _ | value
      · exact parallel_pure false
      · exact parallel_pure false
      refine (roomy _ _).bind fun fits => .ite (parallel_pure false) ?_
      refine Parallel.bind (follows_onStore (resembles.put target key value (held value rfl)))
        fun written => ?_
      cases written with
      | error => exact parallel_pure false
      | ok =>
          refine (parallel_moveEntry resembles key source target entry.size).bind fun _ => ?_
          refine (parallel_count _).bind fun _ => ?_
          exact (parallel_record _ _).bind fun _ => parallel_pure true

theorem parallel_evict (key : String) :
    Parallel faults related (evict setup key) (evict (setup.over stores shortfall) key) := by
  refine (parallel_removeEntry resembles key).bind fun removed => .ite ?_ (parallel_pure ())
  exact (parallel_count _).bind fun _ => parallel_record _ _

theorem parallel_makeRoomIn (tiers : List Tier) (needed : Nat) (kept : List String) :
    Parallel faults related (makeRoomIn setup tiers needed kept)
      (makeRoomIn (setup.over stores shortfall) tiers needed kept) := by
  induction tiers generalizing needed kept with
  | nil => exact parallel_pure false
  | cons tier colder induction =>
      unfold makeRoomIn
      refine Parallel.get fun state world => .ite (parallel_pure false) (.ite (parallel_pure true) ?_)
      refine Parallel.get fun state world => Parallel.bind (follows_ofExcept _) fun victims => ?_
      refine Parallel.bind (.forM (fun victim => ?_) victims) fun _ => ?_
      · cases colder with
        | nil =>
            exact (parallel_pure false).bind fun _ =>
              .ite (parallel_evict resembles _) (parallel_pure ())
        | cons next coldest =>
            refine Parallel.bind ?_ fun _ => .ite (parallel_evict resembles _) (parallel_pure ())
            exact parallel_demote resembles induction victim.key tier next kept
      · exact Parallel.get fun _ _ => Parallel.bind (follows_ofExcept _) fun _ => parallel_pure _

theorem parallel_makeRoom (tier : Tier) (needed : Nat) (kept : List String) :
    Parallel faults related (makeRoom setup tier needed kept)
      (makeRoom (setup.over stores shortfall) tier needed kept) :=
  parallel_makeRoomIn resembles tier.downward needed kept

theorem parallel_promote (may : allowed key value) (source target : Tier) :
    Parallel faults related (promote setup key source target value)
      (promote (setup.over stores shortfall) key source target value) := by
  refine (parallel_lookup key).bind fun found => ?_
  cases found with
  | none => exact parallel_pure ()
  | some entry =>
      refine (parallel_makeRoom resembles target _ _).bind fun fits => .ite (parallel_pure ()) ?_
      refine Parallel.bind (follows_onStore (resembles.put target key value may)) fun written => ?_
      cases written with
      | error => exact parallel_pure ()
      | ok =>
          refine (parallel_moveEntry resembles key source target entry.size).bind fun _ => ?_
          exact (parallel_count _).bind fun _ => parallel_record _ _

/-! ### Operations -/

omit resembles in
theorem parallel_miss (outcome : String) :
    Parallel faults related (miss outcome) (miss outcome) :=
  (parallel_count _).bind fun _ => (parallel_record _ _).bind fun _ => parallel_pure none

omit resembles in
theorem parallel_countExpired (amount : Nat) : Parallel faults related
    (countExpired amount) (countExpired amount) :=
  parallel_count _

theorem parallel_hit (may : allowed key value) (tier : Tier) (now : Nat) :
    Parallel faults related (hit setup key tier value now)
      (hit (setup.over stores shortfall) key tier value now) := by
  refine (parallel_touchEntry key now).bind fun frequency => (parallel_count _).bind fun _ => ?_
  refine (parallel_record _ _).bind fun _ => ?_
  cases tier.hotter? with
  | none => exact parallel_pure _
  | some hotter =>
      refine Follows.ite ?_ (parallel_pure _)
      exact (parallel_promote resembles may tier hotter).bind fun _ => parallel_pure _

theorem parallel_get (key : String) : Parallel faults related (TieredCache.get setup key)
    (TieredCache.get (setup.over stores shortfall) key) := by
  refine parallel_readClock.bind fun now => (parallel_lookup key).bind fun found => ?_
  cases found with
  | none => exact parallel_miss _
  | some entry =>
      refine .ite ((parallel_removeEntry resembles key).bind fun _ =>
        (parallel_countExpired 1).bind fun _ => parallel_miss _) ?_
      refine parallel_read resembles fun answer held => ?_
      rcases answer with error | _ | value
      · exact (parallel_removeEntry resembles key).bind fun _ => parallel_miss _
      · exact (parallel_dropEntry resembles key).bind fun _ => parallel_miss _
      · exact parallel_hit resembles (held value rfl) entry.tier now

theorem parallel_has (key : String) :
    Parallel faults related (has setup key) (has (setup.over stores shortfall) key) := by
  refine (parallel_lookup key).bind fun found => ?_
  cases found with
  | none => exact parallel_pure false
  | some entry =>
      refine parallel_readClock.bind fun now => .ite ?_ (parallel_pure true)
      refine (parallel_removeEntry resembles key).bind fun _ => ?_
      exact (parallel_countExpired 1).bind fun _ => parallel_pure false

omit resembles in
theorem parallel_refuse (outcome : String) :
    Parallel faults related (refuse outcome) (refuse outcome) :=
  (parallel_count _).bind fun _ => (parallel_record _ _).bind fun _ => parallel_pure false

omit resembles in
theorem parallel_reclaimable (key : String) (tier : Tier) : Parallel
    faults related (reclaimable key tier) (reclaimable key tier) := by
  refine (parallel_lookup key).bind fun found => ?_
  cases found <;> exact parallel_pure _

theorem parallel_replaceEntry (key : String) (tier : Tier) : Parallel faults related
    (replaceEntry setup key tier) (replaceEntry (setup.over stores shortfall) key tier) := by
  refine (parallel_dropEntry resembles key).bind fun dropped => ?_
  cases dropped with
  | none => exact parallel_pure ()
  | some old => exact .ite (parallel_discardPayload resembles _ _) (parallel_pure ())

theorem parallel_place (may : allowed key value) (size : Nat) (lifetime? : Option Nat)
    (tiers : List Tier) : Parallel faults related (place setup key value size lifetime? tiers)
      (place (setup.over stores shortfall) key value size lifetime? tiers) := by
  induction tiers with
  | nil => exact parallel_refuse _
  | cons tier colder induction =>
      unfold place
      refine .ite induction ((parallel_reclaimable key tier).bind fun reclaimed => ?_)
      refine (parallel_makeRoom resembles tier _ _).bind fun fits => .ite induction ?_
      refine Parallel.bind (follows_onStore (resembles.put tier key value may)) fun written => ?_
      cases written with
      | error => exact parallel_refuse _
      | ok =>
          refine (parallel_replaceEntry resembles key tier).bind fun _ => ?_
          refine (parallel_insertEntry key size tier lifetime?).bind fun _ => ?_
          exact (parallel_record _ _).bind fun _ => parallel_pure true

theorem parallel_put (may : allowed key value) (lifetime? : Option Nat) :
    Parallel faults related (put setup key value lifetime?)
      (put (setup.over stores shortfall) key value lifetime?) := by
  unfold put
  cases value.encodedSize with
  | error => exact (parallel_record _ _).bind fun _ => parallel_pure false
  | ok size => exact parallel_place resembles may size _ _

theorem parallel_delete (key : String) :
    Parallel faults related (delete setup key) (delete (setup.over stores shortfall) key) := by
  refine (parallel_removeEntry resembles key).bind fun removed => ?_
  exact (parallel_record _ _).bind fun _ => parallel_pure removed

theorem parallel_clear : Parallel faults related (clear setup) (clear (setup.over stores shortfall)) := by
  refine Parallel.bind (.forM (fun tier => ?_) Tier.all) fun _ => parallel_changeEntries _
  refine Parallel.bind (follows_onStore (resembles.clear tier)) fun _ => ?_
  exact Parallel.get fun _ _ => parallel_setUsage tier _

theorem parallel_cleanupExpired : Parallel faults related (cleanupExpired setup)
    (cleanupExpired (setup.over stores shortfall)) := by
  refine parallel_readClock.bind fun now => Parallel.get fun state world => ?_
  refine Parallel.bind (.forM (fun item => ?_) _) fun _ => ?_
  · exact (parallel_removeEntry resembles item.1).bind fun _ => parallel_pure ()
  · exact (parallel_countExpired _).bind fun _ => parallel_pure _

theorem parallel_reclaimExpired : Parallel faults related (reclaimExpired setup)
    (reclaimExpired (setup.over stores shortfall)) := by
  refine parallel_readClock.bind fun now => Parallel.get fun state world => ?_
  refine Parallel.bind (follows_ofExcept _) fun bytes => ?_
  exact (parallel_cleanupExpired resembles).bind fun _ => parallel_pure bytes

theorem parallel_run {call : CacheCall} (may : call.Allowed allowed) :
    Parallel faults related (call.run setup) (call.run (setup.over stores shortfall)) := by
  cases call with
  | put key value lifetime? => exact parallel_put resembles may lifetime?
  | get key => exact parallel_get resembles key
  | delete key => exact parallel_delete resembles key
  | has key => exact parallel_has resembles key
  | clear => exact parallel_clear resembles
  | cleanupExpired => exact parallel_cleanupExpired resembles
  | reclaimExpired => exact parallel_reclaimExpired resembles

/-- All along a run, the caches answer the same. -/
theorem parallel_runAll {calls : List CacheCall} (may : ∀ call ∈ calls, call.Allowed allowed) :
    Parallel faults related (runAll setup calls) (runAll (setup.over stores shortfall) calls) := by
  induction calls with
  | nil => exact parallel_pure []
  | cons call later induction =>
      refine (parallel_run resembles (may call List.mem_cons_self)).bind fun answer => ?_
      have onward := induction fun call member => may call (List.mem_cons_of_mem _ member)
      exact onward.bind fun history => parallel_pure _

end TieredCache

end TierVault
