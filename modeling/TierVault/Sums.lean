/-!
Sums of lists of numbers.
-/

namespace TierVault

def sumOf : List Nat → Nat
  | [] => 0
  | number :: rest => number + sumOf rest

@[simp] theorem sumOf_nil : sumOf [] = 0 := rfl

@[simp] theorem sumOf_cons (number : Nat) (rest : List Nat) :
    sumOf (number :: rest) = number + sumOf rest := rfl

theorem sumOf_append (left right : List Nat) :
    sumOf (left ++ right) = sumOf left + sumOf right := by
  induction left with
  | nil => simp
  | cons number rest induction => simp [induction, Nat.add_assoc]

end TierVault
