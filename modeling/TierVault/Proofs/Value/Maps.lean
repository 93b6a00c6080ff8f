import TierVault.Proofs.TextOrder
import TierVault.Value.Basic

/-!
Maps and the order of their fields.

Adding a field keeps the fields in order and puts it in place of one
of its name, so what a list of fields makes has its names in order, and fields in order make themselves.
-/

namespace TierVault

namespace Value

variable {name : String} {value : Value} {field : String × Value}
  {fields built rest : List (String × Value)}

/-! ## Adding a field -/

theorem mem_insertField (member : field ∈ insertField name value fields) :
    field = (name, value) ∨ field ∈ fields := by
  induction fields with
  | nil => exact .inl (List.mem_singleton.mp member)
  | cons other fields induction =>
      rw [insertField] at member
      split at member
      · exact List.mem_cons.mp member
      · split at member
        · rcases List.mem_cons.mp member with new | old
          · exact .inl new
          · exact .inr (List.mem_cons_of_mem _ old)
        · rcases List.mem_cons.mp member with first | later
          · exact .inr (first ▸ List.mem_cons_self)
          · rcases induction later with new | old
            · exact .inl new
            · exact .inr (List.mem_cons_of_mem _ old)

theorem fieldsInOrder_cons : FieldsInOrder (field :: fields) ↔
    (∀ other ∈ fields, TextOrder.before field.1 other.1 = true) ∧ FieldsInOrder fields := by
  unfold FieldsInOrder
  rw [List.map_cons, List.pairwise_cons]
  apply and_congr_left
  intro _
  constructor
  · intro first other member
    exact first _ (List.mem_map_of_mem member)
  · intro first text member
    obtain ⟨other, inside, rfl⟩ := List.mem_map.mp member
    exact first other inside

/-- The names are in order when their bytes increase. -/
theorem fieldsInOrder_iff (fields : List (String × Value)) : FieldsInOrder fields ↔
    (fields.map fun field => Utf8.encode field.1).Pairwise (· < ·) := by
  unfold FieldsInOrder
  rw [List.pairwise_map, List.pairwise_map]
  simp only [TextOrder.before_iff_encode_lt]

theorem insertField_inOrder (inOrder : FieldsInOrder fields) :
    FieldsInOrder (insertField name value fields) := by
  induction fields with
  | nil => exact List.pairwise_singleton _ _
  | cons other fields induction =>
      obtain ⟨first, later⟩ := fieldsInOrder_cons.mp inOrder
      rw [insertField]
      split
      · rename_i earlier
        apply fieldsInOrder_cons.mpr
        refine ⟨?_, inOrder⟩
        intro field member
        rcases List.mem_cons.mp member with rfl | behind
        · exact earlier
        · exact TextOrder.before_trans earlier (first field behind)
      · split
        · rename_i same
          subst same
          exact fieldsInOrder_cons.mpr ⟨first, later⟩
        · rename_i notEarlier different
          apply fieldsInOrder_cons.mpr
          refine ⟨?_, induction later⟩
          intro field member
          rcases mem_insertField member with rfl | old
          · exact TextOrder.before_of_not (Bool.not_eq_true _ ▸ notEarlier) different
          · exact first field old

theorem insertField_last
    (last : ∀ field ∈ fields, TextOrder.before field.1 name = true) :
    insertField name value fields = fields ++ [(name, value)] := by
  induction fields with
  | nil => rfl
  | cons field rest induction =>
      have apart := TextOrder.not_before (last field List.mem_cons_self)
      have later := induction fun other member => last other (List.mem_cons_of_mem _ member)
      simp [insertField, apart.1, apart.2, later]

theorem length_insertField_le (name : String) (value : Value) (fields : List (String × Value)) :
    (insertField name value fields).length ≤ fields.length + 1 := by
  induction fields with
  | nil => exact Nat.le_refl _
  | cons other fields induction =>
      rw [insertField]
      split
      · exact Nat.le_refl _
      · split
        · exact Nat.le_succ _
        · exact Nat.succ_le_succ induction

/-- A field of the same name gives way, so the whole grows by no more than the new field. -/
theorem sumOf_insertField_le (size : String × Value → Nat) (name : String) (value : Value)
    (fields : List (String × Value)) :
    sumOf ((insertField name value fields).map size) ≤
      size (name, value) + sumOf (fields.map size) := by
  induction fields with
  | nil => exact Nat.le_refl _
  | cons other fields induction =>
      obtain ⟨otherName, held⟩ := other
      rw [insertField]
      split
      · exact Nat.le_refl _
      · split
        · simp only [List.map_cons, sumOf_cons]
          omega
        · simp only [List.map_cons, sumOf_cons]
          omega

/-! ## Gathering fields -/

/-- The fields of the map that a list of fields makes. -/
def gathered (fields : List (String × Value)) : List (String × Value) :=
  fields.foldl (fun built field => insertField field.1 field.2 built) []

theorem mapOfFields_eq_gathered (fields : List (String × Value)) :
    mapOfFields fields = map (gathered fields) := rfl

/-- What every adding of a field keeps, gathering keeps. -/
theorem gathered_of_insert {motive : List (String × Value) → List (String × Value) → Prop}
    (start : motive [] [])
    (adds : ∀ seen built field, motive seen built →
      motive (seen ++ [field]) (insertField field.1 field.2 built))
    (fields : List (String × Value)) : motive fields (gathered fields) := by
  have folds (seen built : List (String × Value)) (held : motive seen built)
      (rest : List (String × Value)) : motive (seen ++ rest)
        (rest.foldl (fun built field => insertField field.1 field.2 built) built) := by
    induction rest generalizing seen built with
    | nil =>
        rw [List.append_nil]
        exact held
    | cons field rest induction =>
        have onward := induction _ _ (adds seen built field held)
        rwa [List.append_assoc] at onward
  exact folds [] [] start fields

theorem gathered_inOrder (fields : List (String × Value)) : FieldsInOrder (gathered fields) :=
  gathered_of_insert (motive := fun _ built => FieldsInOrder built) List.Pairwise.nil
    (fun _ _ _ inOrder => insertField_inOrder inOrder) fields

theorem mem_of_mem_gathered (fields : List (String × Value)) :
    ∀ field ∈ gathered fields, field ∈ fields := by
  apply gathered_of_insert (motive := fun seen built => ∀ field ∈ built, field ∈ seen)
  · intro field member
    exact member
  · intro seen built added held field member
    rcases mem_insertField member with rfl | old
    · exact List.mem_append_right _ List.mem_cons_self
    · exact List.mem_append_left _ (held field old)

theorem length_gathered_le (fields : List (String × Value)) :
    (gathered fields).length ≤ fields.length := by
  apply gathered_of_insert (motive := fun seen built => built.length ≤ seen.length)
  · exact Nat.le_refl _
  · intro seen built field held
    have added := length_insertField_le field.1 field.2 built
    rw [List.length_append, List.length_singleton]
    omega

theorem sumOf_gathered_le (size : String × Value → Nat) (fields : List (String × Value)) :
    sumOf ((gathered fields).map size) ≤ sumOf (fields.map size) := by
  apply gathered_of_insert
    (motive := fun seen built => sumOf (built.map size) ≤ sumOf (seen.map size))
  · exact Nat.le_refl _
  · intro seen built field held
    have added : sumOf ((insertField field.1 field.2 built).map size) ≤
        size field + sumOf (built.map size) := sumOf_insertField_le size field.1 field.2 built
    rw [List.map_append, sumOf_append, List.map_singleton, sumOf_cons, sumOf_nil]
    omega

/-- Fields in order make themselves. -/
theorem gathered_eq (fields : List (String × Value)) (inOrder : FieldsInOrder fields) :
    gathered fields = fields := by
  refine gathered_of_insert (motive := fun seen built => FieldsInOrder seen → built = seen)
    (fun _ => rfl) ?_ fields inOrder
  intro seen built field held whole
  simp only [FieldsInOrder, List.map_append, List.map_cons, List.map_nil,
    List.pairwise_append] at whole
  rw [held whole.1]
  apply insertField_last
  intro other member
  exact whole.2.2 _ (List.mem_map_of_mem member) _ List.mem_cons_self

theorem mapOfFields_eq (inOrder : FieldsInOrder fields) : mapOfFields fields = map fields :=
  congrArg map (gathered_eq fields inOrder)

end Value

end TierVault
