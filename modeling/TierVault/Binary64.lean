import TierVault.Fault

/-!
Binary floating-point numbers of 64 bits, kept as their bits.

Stored values keep every bit, also the payload of a NaN. Comparison follows IEEE 754: a NaN differs
from everything and the two zeros are equal. Arithmetic is the machine's.
-/

namespace TierVault

structure Binary64 where
  bits : UInt64
  deriving DecidableEq, Inhabited

namespace Binary64

def signBit : UInt64 := 0x8000000000000000

def infinityBits : UInt64 := 0x7FF0000000000000

def magnitude (number : Binary64) : UInt64 :=
  number.bits &&& 0x7FFFFFFFFFFFFFFF

def isNegative (number : Binary64) : Bool :=
  number.bits &&& signBit != 0

def isNaN (number : Binary64) : Bool :=
  infinityBits < number.magnitude

def isInfinite (number : Binary64) : Bool :=
  number.magnitude == infinityBits

def isZero (number : Binary64) : Bool :=
  number.magnitude == 0

/-- Equality of IEEE 754. -/
def equals (left right : Binary64) : Bool :=
  !left.isNaN && !right.isNaN && (left.bits == right.bits || (left.isZero && right.isZero))

def toFloat (number : Binary64) : Float :=
  Float.ofBits number.bits

def ofFloat (float : Float) : Binary64 :=
  ⟨float.toBits⟩

/-- The nearest number to a word. -/
def ofWord (word : Nat) : Binary64 :=
  ofFloat word.toUInt64.toFloat

def add (left right : Binary64) : Binary64 := ofFloat (left.toFloat + right.toFloat)

def mul (left right : Binary64) : Binary64 := ofFloat (left.toFloat * right.toFloat)

def div (left right : Binary64) : Binary64 := ofFloat (left.toFloat / right.toFloat)

/-- `left > right`, false when either is a NaN. -/
def exceeds (left right : Binary64) : Bool :=
  right.toFloat < left.toFloat

/-- The larger of two numbers; a NaN gives way to the other one. -/
def maximum (left right : Binary64) : Binary64 :=
  if left.isNaN then right else if right.exceeds left then right else left

/-- The smaller of two numbers; a NaN gives way to the other one. -/
def minimum (left right : Binary64) : Binary64 :=
  if left.isNaN then right else if left.exceeds right then right else left

def zero : Binary64 := ⟨0⟩

def one : Binary64 := ⟨0x3FF0000000000000⟩

example : equals ⟨0x8000000000000000⟩ zero = true := by decide
example : equals ⟨0x7FF8000000000000⟩ ⟨0x7FF8000000000000⟩ = false := by decide

end Binary64

end TierVault
