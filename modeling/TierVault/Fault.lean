/-!
Faults and checked word arithmetic.

Counts and sizes are 64-bit words. A sum, difference or product that leaves the word range stops the
computation with a fault instead of wrapping around; so does a slice outside its list and a
closure that gives up.
-/

namespace TierVault

/-- Why a computation stopped without an answer. -/
inductive Fault
  | sumOverflow
  | differenceOverflow
  | productOverflow
  | sliceStart (start length : Nat)
  | sliceEnd (stop length : Nat)
  /-- Raised by a caller's function, with its own text. -/
  | raised (text : String)
  deriving DecidableEq, Inhabited

def Fault.message : Fault → String
  | .sumOverflow => "attempt to add with overflow"
  | .differenceOverflow => "attempt to subtract with overflow"
  | .productOverflow => "attempt to multiply with overflow"
  | .sliceStart start length =>
      s!"range start index {start} out of range for slice of length {length}"
  | .sliceEnd stop length =>
      s!"range end index {stop} out of range for slice of length {length}"
  | .raised text => text

namespace Word

/-- Words lie below this bound. -/
def limit : Nat := 18446744073709551616

def maximum : Nat := limit - 1

def sum (left right : Nat) : Except Fault Nat :=
  if left + right < limit then .ok (left + right) else .error .sumOverflow

def difference (left right : Nat) : Except Fault Nat :=
  if right ≤ left then .ok (left - right) else .error .differenceOverflow

def product (left right : Nat) : Except Fault Nat :=
  if left * right < limit then .ok (left * right) else .error .productOverflow

/-- The sum of a list, checked after each term. -/
def total : List Nat → Except Fault Nat :=
  List.foldlM sum 0

/-- Sums that would leave the word range stay at its largest word. -/
def saturatingSum (left right : Nat) : Nat :=
  min (left + right) maximum

theorem sum_eq_ok {left right : Nat} (fits : left + right < limit) :
    sum left right = .ok (left + right) := by
  simp [sum, fits]

theorem product_eq_ok {left right : Nat} (fits : left * right < limit) :
    product left right = .ok (left * right) := by
  simp [product, fits]

example : sum maximum 0 = .ok maximum := rfl
example : sum maximum 1 = .error .sumOverflow := rfl

end Word

/-- A computation over a state that may stop with a fault. The state reached so far is kept. -/
abbrev Action (State Result : Type) := EStateM Fault State Result

namespace Action

def ofExcept {State Result : Type} : Except Fault Result → Action State Result
  | .ok result => pure result
  | .error fault => throw fault

end Action

end TierVault
