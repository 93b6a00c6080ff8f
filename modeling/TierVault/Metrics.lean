import TierVault.Decimal
import TierVault.Digest
import TierVault.Text.Utf8
import TierVault.Tier

/-!
Counters of a cache and their text form.

Operations are counted by kind and outcome. A series is told by the digest of its labels one after the
other, without a mark between them: labels that run together alike are counted in one series, and it
keeps the labels that began it. For each tier that was ever set there is a gauge of its entries and one
of its bytes. The text form lists the families by name, and the series of a family by the values of
their labels; a family without series is left out.
-/

namespace TierVault

/-- A kind of operation and its outcome. -/
structure Series where
  operation : String
  outcome : String
  deriving DecidableEq, Inhabited

/-- What tells series apart. -/
def Series.mark (series : Series) : UInt64 :=
  Fnv.absorbAll (Fnv.digest (Utf8.encode series.operation)) (Utf8.encode series.outcome)

structure Gauges where
  entries : Nat
  bytes : Nat
  deriving DecidableEq, Inhabited

structure Metrics where
  counts : List (Series × Nat)
  tiers : PerTier (Option Gauges)

namespace Metrics

def empty : Metrics := ⟨[], .const none⟩

/-! ## Counting -/

def countIn (series : Series) : List (Series × Nat) → Nat
  | [] => 0
  | (other, count) :: rest => if other.mark = series.mark then count else countIn series rest

def addIn (series : Series) (amount : Nat) : List (Series × Nat) → List (Series × Nat)
  | [] => [(series, amount)]
  | (other, count) :: rest =>
    if other.mark = series.mark then (other, count + amount) :: rest
    else (other, count) :: addIn series amount rest

def count (metrics : Metrics) (operation outcome : String) : Nat :=
  countIn ⟨operation, outcome⟩ metrics.counts

def record (metrics : Metrics) (operation outcome : String) : Metrics :=
  { metrics with counts := addIn ⟨operation, outcome⟩ 1 metrics.counts }

/-- The count of a series. Asking for a series begins it. -/
def ask (metrics : Metrics) (operation outcome : String) : Nat × Metrics :=
  (metrics.count operation outcome,
    { metrics with counts := addIn ⟨operation, outcome⟩ 0 metrics.counts })

def setTier (metrics : Metrics) (tier : Tier) (entries bytes : Nat) : Metrics :=
  { metrics with tiers := metrics.tiers.set tier (some ⟨entries, bytes⟩) }

theorem countIn_addIn_same (series : Series) (amount : Nat) (counts : List (Series × Nat)) :
    countIn series (addIn series amount counts) = countIn series counts + amount := by
  induction counts with
  | nil => simp [addIn, countIn]
  | cons head rest induction =>
    obtain ⟨other, count⟩ := head
    by_cases equal : other.mark = series.mark <;> simp [addIn, countIn, equal, induction]

theorem countIn_addIn_other {series asked : Series} (amount : Nat) (counts : List (Series × Nat))
    (different : asked.mark ≠ series.mark) :
    countIn asked (addIn series amount counts) = countIn asked counts := by
  induction counts with
  | nil => simp [addIn, countIn, different.symm]
  | cons head rest induction =>
    obtain ⟨other, count⟩ := head
    by_cases equal : other.mark = series.mark
    · simp [addIn, countIn, equal, different.symm]
    · simp [addIn, countIn, equal, induction]

example : (Series.mk "ab" "c").mark = (Series.mk "a" "bc").mark := by decide

/-! ## Text -/

/-- A sample's number: shortest digits, never an exponent. -/
def sampleText (number : Binary64) : String :=
  if number.isNaN then "NaN"
  else
    let sign := if number.isNegative then "-" else ""
    if number.isInfinite then sign ++ "inf"
    else if number.isZero then sign ++ "0"
    else sign ++ (Decimal.shortest number).positional

/-- Gauges hold signed words: the upper half of the words counts as negative. -/
def gaugeNumber (word : Nat) : Binary64 :=
  Binary64.ofFloat (UInt64.ofNat word).toInt64.toFloat

def escapeLabel (text : String) : String :=
  String.join (text.toList.map fun letter =>
    if letter = '\\' then "\\\\"
    else if letter = '"' then "\\\""
    else if letter = '\n' then "\\n"
    else letter.toString)

def labelText (name value : String) : String :=
  name ++ "=\"" ++ escapeLabel value ++ "\""

/-- A family: its name, help and kind, and its series, each a list of labels and a number. -/
structure Family where
  name : String
  help : String
  kind : String
  samples : List (List (String × String) × Binary64)

def Family.text (family : Family) : String :=
  if family.samples.isEmpty then ""
  else
    "# HELP " ++ family.name ++ " " ++ family.help ++ "\n" ++
    "# TYPE " ++ family.name ++ " " ++ family.kind ++ "\n" ++
    String.join (family.samples.map fun (labels, number) =>
      let inner := ",".intercalate (labels.map fun (name, value) => labelText name value)
      family.name ++ "\x7b" ++ inner ++ "\x7d " ++ sampleText number ++ "\n")

def seriesNotAfter (left right : Series × Nat) : Bool :=
  TextOrder.before left.1.operation right.1.operation ||
    (left.1.operation == right.1.operation &&
      !TextOrder.before right.1.outcome left.1.outcome)

def operationFamily (metrics : Metrics) : Family where
  name := "session_cache_operations_total"
  help := "Cache operations by kind and outcome"
  kind := "counter"
  samples := (metrics.counts.mergeSort seriesNotAfter).map fun (series, count) =>
    ([("op", series.operation), ("result", series.outcome)], Binary64.ofWord count)

def tierFamily (metrics : Metrics) (name help : String) (number : Gauges → Nat) : Family where
  name := name
  help := help
  kind := "gauge"
  samples :=
    let present := Tier.all.filterMap fun tier =>
      (metrics.tiers.get tier).map fun gauges => (tier.name, number gauges)
    (present.mergeSort fun left right => !TextOrder.before right.1 left.1).map fun (tier, word) =>
      ([("tier", tier)], gaugeNumber word)

def families (metrics : Metrics) : List Family :=
  [operationFamily metrics,
    tierFamily metrics "session_cache_tier_bytes" "Encoded bytes resident per tier" Gauges.bytes,
    tierFamily metrics "session_cache_tier_entries" "Entries resident per tier" Gauges.entries]

def text (metrics : Metrics) : String :=
  String.join (metrics.families.map Family.text)

end Metrics

end TierVault
