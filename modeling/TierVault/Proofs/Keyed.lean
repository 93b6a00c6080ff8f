import TierVault.Keyed
import TierVault.Sums

/-!
Keyed lists in which every key stands once, and what their items weigh together.
-/

namespace TierVault.Keyed

variable {Key Item : Type}

/-- What all items weigh together. -/
def weigh (weight : Item → Nat) (items : Keyed Key Item) : Nat :=
  sumOf (items.map fun pair => weight pair.2)

@[simp] theorem weigh_nil (weight : Item → Nat) : weigh weight ([] : Keyed Key Item) = 0 := rfl

@[simp] theorem weigh_cons (weight : Item → Nat) (key : Key) (item : Item)
    (items : Keyed Key Item) :
    weigh weight ((key, item) :: items) = weight item + weigh weight items := rfl

theorem weigh_add (left right : Item → Nat) (items : Keyed Key Item) :
    weigh (fun item => left item + right item) items = weigh left items + weigh right items := by
  induction items with
  | nil => rfl
  | cons head rest induction =>
      obtain ⟨key, item⟩ := head
      simp only [weigh_cons, induction]
      omega

theorem weigh_mono {small large : Item → Nat} {items : Keyed Key Item}
    (below : ∀ item, small item ≤ large item) : weigh small items ≤ weigh large items := by
  induction items with
  | nil => exact Nat.le_refl _
  | cons head rest induction => exact Nat.add_le_add (below head.2) induction

theorem length_eq_weigh (items : Keyed Key Item) : items.length = weigh (fun _ => 1) items := by
  induction items with
  | nil => rfl
  | cons head rest induction => rw [List.length_cons, weigh_cons, induction, Nat.add_comm]

/-- The weights of some of the items add up to what these weigh where the others weigh nothing. -/
theorem sumOf_filter (keep : Item → Bool) (weight : Item → Nat) (items : Keyed Key Item) :
    sumOf (((items.map Prod.snd).filter keep).map weight) =
      weigh (fun item => if keep item then weight item else 0) items := by
  induction items with
  | nil => rfl
  | cons head rest induction =>
      obtain ⟨key, item⟩ := head
      rw [weigh_cons, ← induction, List.map_cons]
      cases kept : keep item <;> simp [kept]

/-! ## Distinct keys -/

/-- Every key stands once. -/
def Distinct (items : Keyed Key Item) : Prop := (keys items).Nodup

theorem Distinct.append {items : Keyed Key Item} (distinct : Distinct items) {key : Key}
    (fresh : key ∉ keys items) (item : Item) : Distinct (items ++ [(key, item)]) := by
  unfold Distinct
  simp only [keys, List.map_append, List.map_cons, List.map_nil]
  rw [List.nodup_append]
  refine ⟨distinct, List.pairwise_singleton _ _, ?_⟩
  intro other member last isLast equal
  rw [List.mem_singleton.mp isLast] at equal
  exact fresh (equal ▸ member)

variable [DecidableEq Key]

theorem find?_eq_none_iff {key : Key} {items : Keyed Key Item} :
    find? key items = none ↔ key ∉ keys items := by
  induction items with
  | nil => simp [keys]
  | cons head rest induction =>
      obtain ⟨other, item⟩ := head
      by_cases equal : other = key
      · simp [find?, keys, equal]
      · simpa [find?, keys, equal, Ne.symm equal] using induction

theorem mem_of_find? {key : Key} {item : Item} {items : Keyed Key Item}
    (found : find? key items = some item) : (key, item) ∈ items := by
  induction items with
  | nil => cases found
  | cons head rest induction =>
      obtain ⟨other, held⟩ := head
      by_cases equal : other = key
      · subst equal
        simp [find?] at found
        simp [found]
      · simp only [find?, equal, if_false] at found
        exact List.mem_cons_of_mem _ (induction found)

theorem Distinct.find?_of_mem {key : Key} {item : Item} {items : Keyed Key Item}
    (distinct : Distinct items) (member : (key, item) ∈ items) : find? key items = some item := by
  induction items with
  | nil => cases member
  | cons head rest induction =>
      obtain ⟨other, held⟩ := head
      have parts := List.nodup_cons.mp distinct
      rcases List.mem_cons.mp member with equal | member
      · cases equal
        simp [find?]
      · have different : other ≠ key := by
          intro equal
          rw [equal] at parts
          exact absurd (List.mem_map_of_mem (f := Prod.fst) member) parts.1
        simp only [find?, different, if_false]
        exact induction parts.2 member

theorem keys_put_of_find? {key : Key} {item old : Item} {items : Keyed Key Item}
    (found : find? key items = some old) : keys (put key item items) = keys items := by
  induction items with
  | nil => cases found
  | cons head rest induction =>
      obtain ⟨other, held⟩ := head
      by_cases equal : other = key
      · simp [put, keys, equal]
      · simp only [find?, equal, if_false] at found
        simpa [put, keys, equal] using induction found

theorem put_of_find?_eq_none {key : Key} {item : Item} {items : Keyed Key Item}
    (missing : find? key items = none) : put key item items = items ++ [(key, item)] := by
  induction items with
  | nil => rfl
  | cons head rest induction =>
      obtain ⟨other, held⟩ := head
      by_cases equal : other = key
      · simp [find?, equal] at missing
      · simp only [find?, equal, if_false] at missing
        simp [put, equal, induction missing]

theorem mem_keys_put {key other : Key} {item : Item} {items : Keyed Key Item} :
    other ∈ keys (put key item items) ↔ other = key ∨ other ∈ keys items := by
  cases found : find? key items with
  | some old =>
      rw [keys_put_of_find? found]
      refine ⟨.inr, fun either => either.elim (fun same => ?_) id⟩
      exact same ▸ List.mem_map_of_mem (f := Prod.fst) (mem_of_find? found)
  | none =>
      rw [put_of_find?_eq_none found, keys, List.map_append, List.mem_append, or_comm]
      exact or_congr_left List.mem_singleton

theorem mem_of_mem_put {key : Key} {item : Item} {items : Keyed Key Item} {pair : Key × Item}
    (member : pair ∈ put key item items) : pair = (key, item) ∨ pair ∈ items := by
  induction items with
  | nil => exact .inl (List.mem_singleton.mp member)
  | cons head rest induction =>
      obtain ⟨other, held⟩ := head
      rw [put] at member
      split at member
      · exact (List.mem_cons.mp member).imp_right (List.mem_cons_of_mem _)
      · rcases List.mem_cons.mp member with same | later
        · exact .inr (same ▸ List.mem_cons_self)
        · exact (induction later).imp_right (List.mem_cons_of_mem _)

theorem put_put (key : Key) (first second : Item) (items : Keyed Key Item) :
    put key second (put key first items) = put key second items := by
  induction items with
  | nil => simp [put]
  | cons head rest induction =>
      obtain ⟨other, held⟩ := head
      by_cases same : other = key <;> simp [put, same, induction]

theorem Distinct.put {items : Keyed Key Item} (distinct : Distinct items) (key : Key) (item : Item) :
    Distinct (put key item items) := by
  cases found : find? key items with
  | some old =>
      unfold Distinct
      rwa [keys_put_of_find? found]
  | none =>
      rw [put_of_find?_eq_none found]
      exact distinct.append (find?_eq_none_iff.mp found) item

theorem Distinct.remove {items : Keyed Key Item} (distinct : Distinct items) (key : Key) :
    Distinct (remove key items) :=
  (List.filter_sublist.map Prod.fst).nodup distinct

theorem not_mem_keys_remove (key : Key) (items : Keyed Key Item) : key ∉ keys (remove key items) := by
  intro member
  obtain ⟨pair, among, same⟩ := List.mem_map.mp member
  exact of_decide_eq_true (List.mem_filter.mp among).2 same

theorem remove_of_find?_eq_none {key : Key} {items : Keyed Key Item}
    (missing : find? key items = none) : remove key items = items := by
  have fresh := find?_eq_none_iff.mp missing
  refine List.filter_eq_self.mpr fun pair member => ?_
  refine decide_eq_true fun equal => fresh ?_
  exact equal ▸ List.mem_map_of_mem member

/-- Among distinct keys, an item is found unless it was filtered out. -/
theorem Distinct.find?_filter {items : Keyed Key Item} (distinct : Distinct items)
    (keep : Item → Bool) (key : Key) :
    find? key (items.filter fun pair => keep pair.2) = (find? key items).filter keep := by
  induction items with
  | nil => rfl
  | cons head rest induction =>
      obtain ⟨other, held⟩ := head
      have parts := List.nodup_cons.mp distinct
      have later := induction parts.2
      by_cases equal : other = key
      · subst equal
        rw [find?_eq_none_iff.mpr parts.1] at later
        cases kept : keep held with
        | true => simp [find?, kept, Option.filter]
        | false => simpa [find?, kept, Option.filter] using later
      · cases kept : keep held <;> simpa [find?, kept, equal] using later

/-- An item under a key is found unless its key was filtered out. -/
theorem find?_filter_fst (keep : Key → Bool) (key : Key) (items : Keyed Key Item) :
    find? key (items.filter fun pair => keep pair.1) = if keep key then find? key items else none := by
  induction items with
  | nil => cases keep key <;> rfl
  | cons head rest induction =>
      obtain ⟨other, held⟩ := head
      by_cases equal : other = key
      · subst equal
        cases kept : keep other <;> simp [find?, kept] at induction ⊢
        exact induction
      · cases kept : keep other <;> simp [find?, kept, equal, induction]

omit [DecidableEq Key] in
theorem mem_keys_filter_fst {key : Key} {keep : Key → Bool} {items : Keyed Key Item} :
    key ∈ keys (items.filter fun pair => keep pair.1) ↔ key ∈ keys items ∧ keep key = true := by
  simp only [keys, List.mem_map, List.mem_filter]
  exact ⟨fun ⟨pair, ⟨there, kept⟩, same⟩ => ⟨⟨pair, there, same⟩, same ▸ kept⟩,
    fun ⟨⟨pair, there, same⟩, kept⟩ => ⟨pair, ⟨there, same ▸ kept⟩, same⟩⟩

/-- An item that is kept may as well come after the others were filtered. -/
theorem filter_put {key : Key} (keep : Key → Bool) (kept : keep key = true) (item : Item)
    (items : Keyed Key Item) :
    (put key item items).filter (fun pair => keep pair.1) =
      put key item (items.filter fun pair => keep pair.1) := by
  induction items with
  | nil => simp [put, kept]
  | cons head rest induction =>
      obtain ⟨other, held⟩ := head
      by_cases equal : other = key
      · simp [put, equal, kept]
      · cases keeps : keep other <;> simp [put, equal, keeps, induction]

/-! ## Changes of weight -/

theorem weigh_remove {key : Key} {item : Item} {items : Keyed Key Item} (weight : Item → Nat)
    (distinct : Distinct items) (found : find? key items = some item) :
    weigh weight (remove key items) + weight item = weigh weight items := by
  induction items with
  | nil => cases found
  | cons head rest induction =>
      obtain ⟨other, held⟩ := head
      have parts := List.nodup_cons.mp distinct
      by_cases equal : other = key
      · subst equal
        have rest_kept := remove_of_find?_eq_none (find?_eq_none_iff.mpr parts.1)
        simp only [find?, if_true, Option.some.injEq] at found
        have removed : remove other ((other, held) :: rest) = rest := by
          simpa [remove] using rest_kept
        rw [removed, weigh_cons, found, Nat.add_comm]
      · simp only [find?, equal, if_false] at found
        have later := induction parts.2 found
        have kept : remove key ((other, held) :: rest) = (other, held) :: remove key rest := by
          simp [remove, equal]
        rw [kept, weigh_cons, weigh_cons, ← later, Nat.add_assoc]

theorem weigh_put_of_find? {key : Key} {old : Item} {items : Keyed Key Item} (weight : Item → Nat)
    (item : Item) (found : find? key items = some old) :
    weigh weight (put key item items) + weight old = weigh weight items + weight item := by
  induction items with
  | nil => cases found
  | cons head rest induction =>
      obtain ⟨other, held⟩ := head
      by_cases equal : other = key
      · simp only [find?, equal, if_true, Option.some.injEq] at found
        simp only [put, equal, if_true, weigh_cons, found]
        omega
      · simp only [find?, equal, if_false] at found
        simp only [put, equal, if_false, weigh_cons]
        have later := induction found
        omega

theorem weigh_put_of_find?_eq_none {key : Key} {items : Keyed Key Item} (weight : Item → Nat)
    (item : Item) (missing : find? key items = none) :
    weigh weight (put key item items) = weigh weight items + weight item := by
  rw [put_of_find?_eq_none missing]
  simp [weigh, sumOf_append]

theorem weigh_put_le (weight : Item → Nat) (key : Key) (item : Item) (items : Keyed Key Item) :
    weigh weight (put key item items) ≤ weigh weight items + weight item := by
  cases found : find? key items with
  | none => exact Nat.le_of_eq (weigh_put_of_find?_eq_none weight item found)
  | some old => exact (weigh_put_of_find? weight item found).symm ▸ Nat.le_add_right _ _

theorem le_weigh {key : Key} {item : Item} {items : Keyed Key Item} (weight : Item → Nat)
    (found : find? key items = some item) : weight item ≤ weigh weight items := by
  induction items with
  | nil => cases found
  | cons head rest induction =>
      obtain ⟨other, held⟩ := head
      by_cases equal : other = key
      · simp only [find?, equal, if_true, Option.some.injEq] at found
        simp only [weigh_cons, found]
        omega
      · simp only [find?, equal, if_false] at found
        have later := induction found
        simp only [weigh_cons]
        omega

/-- What weighs no more under any key weighs no more together. -/
theorem weigh_le_of_find? {Other : Type} {items : Keyed Key Item} {others : Keyed Key Other}
    {weight : Item → Nat} {measure : Other → Nat} (distinct : Distinct items)
    (alsoDistinct : Distinct others)
    (below : ∀ key, (find? key items).elim 0 weight ≤ (find? key others).elim 0 measure) :
    weigh weight items ≤ weigh measure others := by
  induction items generalizing others with
  | nil => exact Nat.zero_le _
  | cons head rest induction =>
      obtain ⟨key, item⟩ := head
      have parts := List.nodup_cons.mp distinct
      have missing := find?_eq_none_iff.mpr parts.1
      have onward : weigh weight rest ≤ weigh measure (remove key others) := by
        apply induction parts.2 (alsoDistinct.remove key)
        intro asked
        by_cases own : asked = key
        · rw [own, missing]
          exact Nat.zero_le _
        · have there := below asked
          rw [find?, if_neg (Ne.symm own)] at there
          rwa [find?_remove_other _ own]
      have here := below key
      rw [find?, if_pos rfl, Option.elim_some] at here
      rw [weigh_cons]
      cases found : find? key others with
      | none =>
          rw [found, Option.elim_none] at here
          rw [remove_of_find?_eq_none found] at onward
          omega
      | some other =>
          rw [found, Option.elim_some] at here
          have split := weigh_remove measure alsoDistinct found
          omega

/-- What weighs the same under every key weighs the same together. -/
theorem weigh_eq_of_find? {Other : Type} {items : Keyed Key Item} {others : Keyed Key Other}
    {weight : Item → Nat} {measure : Other → Nat} (distinct : Distinct items)
    (alsoDistinct : Distinct others)
    (same : ∀ key, (find? key items).elim 0 weight = (find? key others).elim 0 measure) :
    weigh weight items = weigh measure others :=
  Nat.le_antisymm (weigh_le_of_find? distinct alsoDistinct fun key => Nat.le_of_eq (same key))
    (weigh_le_of_find? alsoDistinct distinct fun key => Nat.le_of_eq (same key).symm)

/-! ## Changes of length -/

theorem length_put_of_find? {key : Key} {item old : Item} {items : Keyed Key Item}
    (found : find? key items = some old) : (put key item items).length = items.length := by
  rw [length_eq_weigh, length_eq_weigh]
  exact Nat.add_right_cancel (weigh_put_of_find? (fun _ => 1) item found)

theorem length_put_of_find?_eq_none {key : Key} {item : Item} {items : Keyed Key Item}
    (missing : find? key items = none) : (put key item items).length = items.length + 1 := by
  rw [length_eq_weigh, length_eq_weigh]
  exact weigh_put_of_find?_eq_none (fun _ => 1) item missing

theorem length_remove {key : Key} {item : Item} {items : Keyed Key Item}
    (distinct : Distinct items) (found : find? key items = some item) :
    (remove key items).length + 1 = items.length := by
  rw [length_eq_weigh, length_eq_weigh]
  exact weigh_remove (fun _ => 1) distinct found

end TierVault.Keyed
