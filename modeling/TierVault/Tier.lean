import TierVault.Fault

/-!
The four tiers of storage, from hot to cold.
-/

namespace TierVault

inductive Tier
  /-- Process memory. -/
  | memory
  /-- Rows of a database. -/
  | sqlite
  /-- Columnar files. -/
  | columnar
  /-- Compressed files. -/
  | compressed
  deriving DecidableEq, Inhabited

namespace Tier

/-- Hottest first. -/
def all : List Tier := [memory, sqlite, columnar, compressed]

/-- 1 is the hottest. -/
def level : Tier → Nat
  | memory => 1
  | sqlite => 2
  | columnar => 3
  | compressed => 4

def ofLevel? : Nat → Option Tier
  | 1 => some memory
  | 2 => some sqlite
  | 3 => some columnar
  | 4 => some compressed
  | _ => none

/-- The next colder tier. -/
def colder? : Tier → Option Tier
  | memory => some sqlite
  | sqlite => some columnar
  | columnar => some compressed
  | compressed => none

/-- The next hotter tier. -/
def hotter? : Tier → Option Tier
  | memory => none
  | sqlite => some memory
  | columnar => some sqlite
  | compressed => some columnar

def name : Tier → String
  | memory => "memory"
  | sqlite => "sqlite"
  | columnar => "columnar"
  | compressed => "compressed"

/-- The tier's name as data files spell it. -/
def title : Tier → String
  | memory => "Memory"
  | sqlite => "Sqlite"
  | columnar => "Columnar"
  | compressed => "Compressed"

/-- This tier and every colder one, going colder. -/
def downward : Tier → List Tier
  | memory => [memory, sqlite, columnar, compressed]
  | sqlite => [sqlite, columnar, compressed]
  | columnar => [columnar, compressed]
  | compressed => [compressed]

theorem level_colder {tier next : Tier} (step : tier.colder? = some next) :
    next.level = tier.level + 1 := by
  cases tier <;> cases next <;> simp_all [colder?, level]

theorem ne_of_colder {tier next : Tier} (step : tier.colder? = some next) : tier ≠ next := by
  intro same
  have deeper := level_colder step
  rw [same] at deeper
  omega

theorem hotter_eq_some_iff {tier next : Tier} :
    tier.hotter? = some next ↔ next.colder? = some tier := by
  cases tier <;> cases next <;> simp [colder?, hotter?]

theorem level_le_four (tier : Tier) : tier.level ≤ 4 := by
  cases tier <;> decide

theorem downward_eq (tier : Tier) :
    tier.downward = tier :: (tier.colder?.map downward).getD [] := by
  cases tier <;> rfl

/-- What passes from each colder tier to the next hotter one holds of all of them. -/
theorem colder_induction {motive : Tier → Prop}
    (step : ∀ tier, (∀ next, tier.colder? = some next → motive next) → motive tier) :
    ∀ tier, motive tier := by
  have compressed : motive compressed := step _ nofun
  have columnar : motive columnar := step _ fun | _, rfl => compressed
  have sqlite : motive sqlite := step _ fun | _, rfl => columnar
  have memory : motive memory := step _ fun | _, rfl => sqlite
  intro tier
  cases tier <;> assumption

end Tier

/-- One thing for each tier. -/
structure PerTier (Item : Type) where
  memory : Item
  sqlite : Item
  columnar : Item
  compressed : Item

namespace PerTier

variable {Item : Type}

def const (item : Item) : PerTier Item := ⟨item, item, item, item⟩

def ofFunction (item : Tier → Item) : PerTier Item :=
  ⟨item .memory, item .sqlite, item .columnar, item .compressed⟩

def get (items : PerTier Item) : Tier → Item
  | .memory => items.memory
  | .sqlite => items.sqlite
  | .columnar => items.columnar
  | .compressed => items.compressed

def set (items : PerTier Item) (tier : Tier) (item : Item) : PerTier Item :=
  match tier with
  | .memory => { items with memory := item }
  | .sqlite => { items with sqlite := item }
  | .columnar => { items with columnar := item }
  | .compressed => { items with compressed := item }

def toList (items : PerTier Item) : List (Tier × Item) :=
  Tier.all.map fun tier => (tier, items.get tier)

@[simp] theorem get_set_same (items : PerTier Item) (tier : Tier) (item : Item) :
    (items.set tier item).get tier = item := by
  cases tier <;> rfl

@[simp] theorem get_set_other (items : PerTier Item) {tier other : Tier} (item : Item)
    (different : other ≠ tier) : (items.set tier item).get other = items.get other := by
  cases tier <;> cases other <;> first | rfl | exact absurd rfl different

@[simp] theorem get_const (item : Item) (tier : Tier) : (const item).get tier = item := by
  cases tier <;> rfl

@[simp] theorem get_ofFunction (item : Tier → Item) (tier : Tier) :
    (ofFunction item).get tier = item tier := by
  cases tier <;> rfl

end PerTier

end TierVault
