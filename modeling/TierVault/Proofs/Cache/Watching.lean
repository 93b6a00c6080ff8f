import TierVault.Proofs.Cache.Runs

/-!
Caches that are watched while they make room.

A watched cache does what a cache does, and writes down each round of making room: also those for entries that
are demoted, within the round of the hotter tier. What it answers and what becomes of its state is the same as
without the watching.
-/

namespace TierVault

variable {World Result Next Item : Type}

/-- A round of making room: what it was asked for, and the states before and after it. -/
structure Round (World : Type) where
  /-- The calls that were answered before. -/
  past : List CacheEvent
  tier : Tier
  needed : Nat
  kept : List String
  before : CacheState World
  after : CacheState World

structure Watched (World : Type) where
  state : CacheState World
  /-- The calls that were answered. -/
  past : List CacheEvent
  /-- In the order in which they ended. -/
  rounds : List (Round World)

abbrev WatchedAction (World Result : Type) := Action (Watched World) Result

/-- Nothing was written down yet. -/
def Watched.start (setup : CacheSetup World) (world : World) : Watched World := ⟨.start setup world, [], []⟩

namespace WatchedCache

/-- Does the same, with nothing to write down. -/
def watch (action : CacheAction World Result) : WatchedAction World Result := fun watched =>
  match action watched.state with
  | .ok result state => .ok result { watched with state }
  | .error fault state => .error fault { watched with state }

/-- Writes a round down. -/
def round (tier : Tier) (needed : Nat) (kept : List String) (action : WatchedAction World Bool) :
    WatchedAction World Bool := do
  let before ← MonadState.get
  let fits ← action
  modify fun after => { after with
    rounds := after.rounds ++ [⟨before.past, tier, needed, kept, before.state, after.state⟩] }
  return fits

/-! ## The operations that make room -/

def demote (setup : CacheSetup World) (room : Nat → List String → WatchedAction World Bool) (key : String)
    (source target : Tier) (protectedKeys : List String) : WatchedAction World Bool := do
  match ← watch (TieredCache.lookup key) with
  | none => return false
  | some entry =>
    match ← watch (TieredCache.onStore setup source (·.get key)) with
    | .error _ | .ok none => return false
    | .ok (some value) =>
      if !(← room entry.size (protectedKeys ++ [key])) then return false
      match ← watch (TieredCache.onStore setup target (·.put key value)) with
      | .error _ => return false
      | .ok _ =>
        watch do
          TieredCache.moveEntry setup key source target entry.size
          TieredCache.count fun counters => { counters with demotions := counters.demotions + 1 }
          TieredCache.record "demote" "ok"
          return true

def makeRoomIn (setup : CacheSetup World) : (tiers : List Tier) → (needed : Nat) →
    (protectedKeys : List String) → WatchedAction World Bool
  | [], _, _ => return false
  | tier :: colder, needed, protectedKeys => round tier needed protectedKeys do
    let usage := (← watch MonadState.get).usage.get tier
    if usage.capacity < needed then return false
    if needed ≤ usage.available then return true
    let entries := (← watch MonadState.get).entryList
    let victims ← watch
      (Action.ofExcept (Eviction.victims entries tier (needed - usage.available) protectedKeys))
    victims.forM fun victim => do
      let demoted ← match colder with
        | [] => pure false
        | next :: _ => demote setup (makeRoomIn setup colder) victim.key tier next protectedKeys
      if !demoted then watch (TieredCache.evict setup victim.key)
    let usage := (← watch MonadState.get).usage.get tier
    return (← watch (Action.ofExcept (Word.sum usage.bytes needed))) ≤ usage.capacity

def makeRoom (setup : CacheSetup World) (tier : Tier) (needed : Nat) (protectedKeys : List String) :
    WatchedAction World Bool :=
  makeRoomIn setup tier.downward needed protectedKeys

def promote (setup : CacheSetup World) (key : String) (source target : Tier) (value : Value) :
    WatchedAction World Unit := do
  match ← watch (TieredCache.lookup key) with
  | none => return ()
  | some entry =>
    if !(← makeRoom setup target entry.size [key]) then return ()
    watch do
      match ← TieredCache.onStore setup target (·.put key value) with
      | .error _ => return ()
      | .ok _ =>
        TieredCache.moveEntry setup key source target entry.size
        TieredCache.count fun counters => { counters with promotions := counters.promotions + 1 }
        TieredCache.record "promote" "ok"

def hit (setup : CacheSetup World) (key : String) (tier : Tier) (value : Value) (now : Nat) :
    WatchedAction World (Option Value) := do
  let frequency ← watch (TieredCache.touchEntry setup key now)
  watch (TieredCache.count fun counters => { counters with hits := counters.hits + 1 })
  watch (TieredCache.record "get" "hit")
  match tier.hotter? with
  | some hotter =>
    if frequency.exceeds setup.tiers.promotionThreshold then promote setup key tier hotter value
  | none => pure ()
  return some value

def get (setup : CacheSetup World) (key : String) : WatchedAction World (Option Value) := do
  let now ← watch (TieredCache.readClock setup)
  match ← watch (TieredCache.lookup key) with
  | none => watch (TieredCache.miss "miss")
  | some entry =>
    if entry.isExpired now then
      watch do
        let _ ← TieredCache.removeEntry setup key
        TieredCache.countExpired 1
        TieredCache.miss "expired"
    else
      match ← watch (TieredCache.onStore setup entry.tier (·.get key)) with
      | .ok (some value) => hit setup key entry.tier value now
      | .ok none =>
        watch do
          let _ ← TieredCache.dropEntry setup key
          TieredCache.miss "stale"
      | .error _ =>
        watch do
          let _ ← TieredCache.removeEntry setup key
          TieredCache.miss "error"

def place (setup : CacheSetup World) (key : String) (value : Value) (size : Nat) (lifetime? : Option Nat) :
    (tiers : List Tier) → WatchedAction World Bool
  | [] => watch (TieredCache.refuse "too_large")
  | tier :: colder => do
    if setup.tiers.capacity tier < size then place setup key value size lifetime? colder
    else
      let needed := size - (← watch (TieredCache.reclaimable key tier))
      if !(← makeRoom setup tier needed [key]) then place setup key value size lifetime? colder
      else
        watch do
          match ← TieredCache.onStore setup tier (·.put key value) with
          | .error _ => TieredCache.refuse "error"
          | .ok _ =>
            TieredCache.replaceEntry setup key tier
            TieredCache.insertEntry setup key size tier lifetime?
            TieredCache.record "put" "ok"
            return true

def put (setup : CacheSetup World) (key : String) (value : Value) (lifetime? : Option Nat) :
    WatchedAction World Bool := do
  match value.encodedSize with
  | .error _ => watch do
    TieredCache.record "put" "unserializable"
    return false
  | .ok size =>
    place setup key value size (lifetime? <|> setup.defaultLifetime?) (setup.tiers.tierForSize size).downward

def run (setup : CacheSetup World) : (call : CacheCall) → WatchedAction World call.Answer
  | .put key value lifetime? => put setup key value lifetime?
  | .get key => get setup key
  | call => watch (call.run setup)

/-- Runs the calls in order. -/
def runAll (setup : CacheSetup World) : List CacheCall → WatchedAction World (List CacheEvent)
  | [] => return []
  | call :: later => do
    let answer ← run setup call
    modify fun watched => { watched with past := watched.past ++ [⟨call, answer⟩] }
    return ⟨call, answer⟩ :: (← runAll setup later)

/-! ## The same without the watching -/

/-- Without what was written down. -/
def bare : EStateM.Result Fault (Watched World) Result → EStateM.Result Fault (CacheState World) Result
  | .ok result watched => .ok result watched.state
  | .error fault watched => .error fault watched.state

/-- The watched action does what the other does. -/
def Mirrors (watched : WatchedAction World Result) (plain : CacheAction World Result) : Prop :=
  ∀ start, bare (watched start) = plain start.state

theorem mirrors_watch (action : CacheAction World Result) : Mirrors (watch action) action := by
  intro start
  unfold watch
  cases action start.state <;> rfl

theorem mirrors_pure (result : Result) :
    Mirrors (pure result : WatchedAction World Result) (pure result) := fun _ => rfl

theorem Mirrors.bind {watched : WatchedAction World Result} {plain : CacheAction World Result}
    {next : Result → WatchedAction World Next} {later : Result → CacheAction World Next}
    (first : Mirrors watched plain) (second : ∀ result, Mirrors (next result) (later result)) :
    Mirrors (watched >>= next) (plain >>= later) := by
  intro start
  have same := first start
  simp only [Bind.bind, EStateM.bind]
  cases ended : watched start with
  | ok result after =>
      rw [ended] at same
      rw [← same]
      exact second result after
  | error fault after =>
      rw [ended] at same
      rw [← same]
      rfl

/-- What is written down changes no answer and no state. -/
theorem Mirrors.modify {watched : WatchedAction World Result} {plain : CacheAction World Result}
    {change : Watched World → Watched World} (mirrors : Mirrors watched plain)
    (same : ∀ seen, (change seen).state = seen.state) :
    Mirrors (do modify change; watched) plain := by
  intro start
  exact (mirrors (change start)).trans (congrArg plain (same start))

/-- Writing a round down changes no answer and no state. -/
theorem Mirrors.round {action : WatchedAction World Bool} {plain : CacheAction World Bool}
    (mirrors : Mirrors action plain) (tier : Tier) (needed : Nat) (kept : List String) :
    Mirrors (round tier needed kept action) plain := by
  intro start
  have same := mirrors start
  change bare (EStateM.bind action _ start) = _
  unfold EStateM.bind
  cases ended : action start with
  | ok fits after =>
      rw [ended] at same
      exact same
  | error fault after =>
      rw [ended] at same
      exact same

theorem mirrors_forM {body : Item → WatchedAction World Unit} {plain : Item → CacheAction World Unit}
    (mirrors : ∀ item, Mirrors (body item) (plain item)) (items : List Item) :
    Mirrors (items.forM body) (items.forM plain) := by
  induction items with
  | nil => exact mirrors_pure ()
  | cons item rest induction => exact (mirrors item).bind fun _ => induction

variable {setup : CacheSetup World} {key : String} {tier source target : Tier} {kept : List String}
  {value : Value} {size now : Nat} {lifetime? : Option Nat}

theorem mirrors_demote {room : Nat → List String → WatchedAction World Bool}
    {plain : Nat → List String → CacheAction World Bool}
    (mirrors : ∀ needed kept, Mirrors (room needed kept) (plain needed kept)) :
    Mirrors (demote setup room key source target kept)
      (TieredCache.demote setup plain key source target kept) := by
  refine (mirrors_watch _).bind fun entry? => ?_
  cases entry? with
  | none => exact mirrors_pure false
  | some entry =>
      refine (mirrors_watch _).bind fun answer => ?_
      rcases answer with error | _ | value
      · exact mirrors_pure false
      · exact mirrors_pure false
      refine (mirrors _ _).bind fun fits => ?_
      cases fits with
      | false => exact mirrors_pure false
      | true =>
          refine (mirrors_watch _).bind fun answer => ?_
          cases answer with
          | error => exact mirrors_pure false
          | ok => exact mirrors_watch _

theorem mirrors_evicting (demoted : Bool) : Mirrors
    (if !demoted then watch (TieredCache.evict setup key) else pure ())
    (if !demoted then TieredCache.evict setup key else pure ()) := by
  cases demoted with
  | false => exact mirrors_watch _
  | true => exact mirrors_pure ()

theorem mirrors_makeRoomIn (tiers : List Tier) (needed : Nat) (kept : List String) :
    Mirrors (makeRoomIn setup tiers needed kept) (TieredCache.makeRoomIn setup tiers needed kept) := by
  induction tiers generalizing needed kept with
  | nil => exact mirrors_pure false
  | cons tier colder induction =>
      refine Mirrors.round ?_ tier needed kept
      refine (mirrors_watch _).bind fun state => ?_
      simp only
      split
      · exact mirrors_pure false
      split
      · exact mirrors_pure true
      refine (mirrors_watch _).bind fun state => (mirrors_watch _).bind fun victims => ?_
      refine (mirrors_forM (fun victim => ?_) victims).bind fun _ => ?_
      · cases colder with
        | nil => exact (mirrors_pure false).bind mirrors_evicting
        | cons next rest => exact (mirrors_demote induction).bind mirrors_evicting
      · exact (mirrors_watch _).bind fun state => (mirrors_watch _).bind fun bytes => mirrors_pure _

theorem mirrors_promote : Mirrors (promote setup key source target value)
    (TieredCache.promote setup key source target value) := by
  refine (mirrors_watch _).bind fun entry? => ?_
  cases entry? with
  | none => exact mirrors_pure ()
  | some entry =>
      refine (mirrors_makeRoomIn _ _ _).bind fun fits => ?_
      cases fits with
      | false => exact mirrors_pure ()
      | true => exact mirrors_watch _

theorem mirrors_hit : Mirrors (hit setup key tier value now) (TieredCache.hit setup key tier value now) := by
  refine (mirrors_watch _).bind fun frequency => ?_
  refine (mirrors_watch _).bind fun _ => (mirrors_watch _).bind fun _ => ?_
  cases tier.hotter? with
  | none => exact (mirrors_pure ()).bind fun _ => mirrors_pure (some value)
  | some hotter =>
      simp only
      split
      · exact mirrors_promote.bind fun _ => mirrors_pure (some value)
      · exact (mirrors_pure ()).bind fun _ => mirrors_pure (some value)

theorem mirrors_get : Mirrors (get setup key) (TieredCache.get setup key) := by
  refine (mirrors_watch _).bind fun now => (mirrors_watch _).bind fun entry? => ?_
  cases entry? with
  | none => exact mirrors_watch _
  | some entry =>
      simp only
      split
      · exact mirrors_watch _
      refine (mirrors_watch _).bind fun answer => ?_
      rcases answer with error | _ | value
      · exact mirrors_watch _
      · exact mirrors_watch _
      · exact mirrors_hit

theorem mirrors_place (tiers : List Tier) : Mirrors (place setup key value size lifetime? tiers)
    (TieredCache.place setup key value size lifetime? tiers) := by
  induction tiers with
  | nil => exact mirrors_watch _
  | cons tier colder induction =>
      unfold place TieredCache.place
      split
      · exact induction
      refine (mirrors_watch _).bind fun reclaimed => (mirrors_makeRoomIn _ _ _).bind fun fits => ?_
      cases fits with
      | false => exact induction
      | true => exact mirrors_watch _

theorem mirrors_put : Mirrors (put setup key value lifetime?) (TieredCache.put setup key value lifetime?) := by
  unfold put TieredCache.put
  cases value.encodedSize with
  | error => exact mirrors_watch _
  | ok size => exact mirrors_place _

theorem mirrors_run (call : CacheCall) : Mirrors (run setup call) (call.run setup) := by
  cases call with
  | put key value lifetime? => exact mirrors_put
  | get key => exact mirrors_get
  | _ => exact mirrors_watch _

/-- A watched run answers what the run answers, and leaves the cache in the same state. -/
theorem mirrors_runAll (calls : List CacheCall) :
    Mirrors (runAll setup calls) (TieredCache.runAll setup calls) := by
  induction calls with
  | nil => exact mirrors_pure []
  | cons call later induction =>
      unfold runAll TieredCache.runAll
      refine (mirrors_run call).bind fun answer => Mirrors.modify ?_ fun _ => rfl
      exact induction.bind fun history => mirrors_pure _

/-- Where the action ends, the watched one does. -/
theorem Mirrors.of_ok {watched : WatchedAction World Result} {plain : CacheAction World Result}
    (mirrors : Mirrors watched plain) {start : Watched World} {result : Result} {final : CacheState World}
    (ended : plain start.state = .ok result final) :
    ∃ seen, watched start = .ok result seen ∧ seen.state = final := by
  have same := (mirrors start).trans ended
  cases done : watched start with
  | ok answer seen =>
      rw [done] at same
      cases same
      exact ⟨seen, rfl, rfl⟩
  | error fault seen =>
      rw [done] at same
      cases same

/-- What the action leads to, the watched one does. -/
theorem Mirrors.leads {watched : WatchedAction World Result} {plain : CacheAction World Result}
    (mirrors : Mirrors watched plain) {faults : Fault → Prop} {start : Watched World}
    {after : Result → CacheState World → Prop} (leads : Action.Leads faults plain start.state after) :
    Action.Leads faults watched start fun result final => after result final.state := by
  have same := mirrors start
  unfold Action.Leads at leads ⊢
  rw [← same] at leads
  cases ended : watched start with
  | ok result final =>
      rw [ended] at leads
      exact leads
  | error fault final =>
      rw [ended] at leads
      exact leads

end WatchedCache

end TierVault
