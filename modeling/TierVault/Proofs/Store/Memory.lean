import TierVault.Proofs.RecencyList
import TierVault.Store.Memory

/-!
What each call on a memory store answers, and what it leaves.
-/

namespace TierVault

theorem StoreAction.run_getThe_bind {World Result : Type} (next : World → StoreAction World Result)
    (world : World) :
    ((getThe World : StoreAction World World) >>= next).run world = (next world).run world := rfl

namespace MemoryStore

variable {key : String} {value : Value} {budget size : Nat} {world after : MemoryWorld}

theorem run_get : ((store budget).get key).run world =
    .ok (.ok ((RecencyList.find? key world).map Resident.item)) (RecencyList.use key id world) := by
  change (get key).run world = _
  unfold get
  rw [StoreAction.run_getThe_bind]
  unfold RecencyList.use
  cases RecencyList.find? key world <;> rfl

theorem run_put_of_error {error : CodecError} (unsized : value.encodedSize = .error error) :
    ((store budget).put key value).run world = .ok (.error (.codec error)) world := by
  change (put budget key value).run world = _
  unfold put
  rw [unsized]
  rfl

theorem put_eq (sized : value.encodedSize = .ok size) :
    put budget key value = (do
      if budget < size then throw (.tooLarge size budget)
      modify (RecencyList.put budget ⟨key, size, value⟩)) := by
  unfold put
  rw [sized]
  rfl

theorem run_put_of_lt (sized : value.encodedSize = .ok size) (large : budget < size) :
    ((store budget).put key value).run world = .ok (.error (.tooLarge size budget)) world := by
  change (put budget key value).run world = _
  rw [put_eq sized, if_pos large]
  rfl

theorem run_put (sized : value.encodedSize = .ok size) (small : size ≤ budget) :
    ((store budget).put key value).run world =
      .ok (.ok ()) (RecencyList.put budget ⟨key, size, value⟩ world) := by
  change (put budget key value).run world = _
  rw [put_eq sized, if_neg (Nat.not_lt.mpr small)]
  rfl

/-- A write that fails changes nothing. One that is taken puts the value last. -/
theorem put_cases {answer : Except StoreError Unit}
    (ended : ((store budget).put key value).run world = .ok answer after) :
    ((∃ error, answer = .error error) ∧ after = world) ∨
      (answer = .ok () ∧ ∃ size, value.encodedSize = .ok size ∧
        after = RecencyList.put budget ⟨key, size, value⟩ world) := by
  cases sized : value.encodedSize with
  | error error =>
      rw [run_put_of_error sized] at ended
      cases ended
      exact .inl ⟨⟨_, rfl⟩, rfl⟩
  | ok size =>
      by_cases large : budget < size
      · rw [run_put_of_lt sized large] at ended
        cases ended
        exact .inl ⟨⟨_, rfl⟩, rfl⟩
      · rw [run_put sized (Nat.not_lt.mp large)] at ended
        cases ended
        exact .inr ⟨rfl, size, rfl, rfl⟩

theorem run_delete : ((store budget).delete key).run world =
    .ok (.ok (RecencyList.has key world)) (RecencyList.remove key world) := rfl

theorem run_clear : (store budget).clear.run world = .ok (.ok ()) [] := rfl

theorem run_size : (store budget).size.run world = .ok (.ok (RecencyList.total world)) world := rfl

end MemoryStore

end TierVault
