import TierVault.Text.Utf8

/-!
Numbers as bytes, least significant first.
-/

namespace TierVault.LittleEndian

/-- The low `width` bytes of a number. -/
def bytes : (width : Nat) → Nat → Bytes
  | 0, _ => []
  | width + 1, number => UInt8.ofNat number :: bytes width (number / 256)

def number : Bytes → Nat
  | [] => 0
  | byte :: rest => byte.toNat + 256 * number rest

@[simp] theorem length_bytes (width value : Nat) : (bytes width value).length = width := by
  induction width generalizing value with
  | zero => rfl
  | succ width induction => simp [bytes, induction]

theorem number_bytes (width value : Nat) :
    number (bytes width value) = value % Nat.pow 256 width := by
  induction width generalizing value with
  | zero => exact (Nat.mod_one value).symm
  | succ width induction =>
    have step : Nat.pow 256 (width + 1) = 256 * Nat.pow 256 width := Nat.mul_comm _ _
    rw [step, Nat.mod_mul, ← induction, bytes, number, UInt8.toNat_ofNat']

end TierVault.LittleEndian
