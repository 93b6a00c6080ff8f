import TierVault.Proofs.Value.RoundTrip

/-!
Encodings that are cut short.

What a reader tells of an input stands when more follows: an item that was read is read again, and an error is
told again, unless it says that the input ended too early. So of all the beginnings of an encoding only the whole
reads as a value, and of every other one it is told that it ended too early.
-/

namespace TierVault

/-- The input ended before the item did. -/
def DecodeError.TooEarly : DecodeError → Prop
  | .endOfInput | .textTooLong => True
  | .unknownKind .. | .notAFlag _ | .notUtf8 _ => False

namespace Codec

variable {Item Other : Type}

/-- What was told of an input, beside what is told when `more` follows it. -/
inductive Stands (more : Bytes) :
    Except DecodeError (Item × Bytes) → Except DecodeError (Item × Bytes) → Prop
  | read (item : Item) (rest : Bytes) : Stands more (.ok (item, rest)) (.ok (item, rest ++ more))
  | refused (error : DecodeError) : Stands more (.error error) (.error error)
  | short {error : DecodeError} (early : error.TooEarly)
      (told : Except DecodeError (Item × Bytes)) : Stands more (.error error) told

/-- What `read` tells of an input stands for `onward` when more follows. -/
def Continues (read onward : Reader Item) : Prop :=
  ∀ input more, Stands more (read input) (onward (input ++ more))

namespace Stands

variable {more : Bytes}

theorem ended (told : Except DecodeError (Item × Bytes)) : Stands more (.error .endOfInput) told :=
  @short _ _ .endOfInput trivial told

theorem tooLong (told : Except DecodeError (Item × Bytes)) :
    Stands more (.error .textTooLong) told :=
  @short _ _ .textTooLong trivial told

theorem bind {first onward : Except DecodeError (Item × Bytes)}
    {next nextOnward : Item × Bytes → Except DecodeError (Other × Bytes)}
    (head : Stands more first onward)
    (tail : ∀ item rest, Stands more (next (item, rest)) (nextOnward (item, rest ++ more))) :
    Stands more (first >>= next) (onward >>= nextOnward) := by
  cases head with
  | read item rest => exact tail item rest
  | refused error => exact .refused error
  | short early told => exact .short early _

/-- If nothing is left of the longer input, the shorter one ended too early. -/
theorem early {told : Except DecodeError (Item × Bytes)} {item : Item}
    (stands : Stands more told (.ok (item, []))) (longer : more ≠ []) :
    ∃ error, told = .error error ∧ error.TooEarly := by
  generalize whole_eq : (.ok (item, []) : Except DecodeError (Item × Bytes)) = whole at stands
  cases stands with
  | read other rest =>
      injection whole_eq with same
      injection same with _ none_left
      exact absurd (List.append_eq_nil_iff.mp none_left.symm).2 longer
  | refused error => cases whole_eq
  | short early => exact ⟨_, rfl, early⟩

end Stands

/-! ## Parts of a value -/

theorem Continues.giving {read onward : Reader Item} (continues : Continues read onward)
    (make : Item → Other) : Continues (giving make read) (giving make onward) := by
  intro input more
  rw [giving_eq_bind, giving_eq_bind]
  exact (continues input more).bind fun item rest => .read (make item) rest

theorem continues_number (width : Nat) : Continues (readNumber width) (readNumber width) := by
  induction width with
  | zero => exact fun input more => .read 0 input
  | succ width induction =>
      intro input more
      cases input with
      | nil => exact .ended _
      | cons byte input =>
          exact (induction input more).bind fun high rest => .read (byte.toNat + 256 * high) rest

theorem continues_kind (bound : Nat) : Continues (readKind bound) (readKind bound) := by
  intro input more
  apply (continues_number 4 input more).bind
  intro number rest
  dsimp only
  split
  · exact .read number rest
  · exact .refused _

theorem continues_count : Continues readCount readCount := continues_number 8

theorem continues_word : Continues readWord readWord := fun input more =>
  (continues_number 8 input more).bind fun number rest => .read (UInt64.ofNat number) rest

theorem continues_flag : Continues readFlag readFlag := by
  intro input more
  cases input with
  | nil => exact .ended _
  | cons byte input =>
      rw [List.cons_append]
      unfold readFlag
      split
      · contradiction
      · rename_i same
        cases same
        exact .read false input
      · rename_i same
        cases same
        exact .read true input
      · rename_i other unset unmarked same
        cases same
        split
        · contradiction
        · rename_i same
          cases same
          exact absurd rfl unset
        · rename_i same
          cases same
          exact absurd rfl unmarked
        · rename_i same
          cases same
          exact .refused _

/-- As much of the input as was asked for, whatever follows it. -/
theorem parts_append {length : Nat} {rest : Bytes} (enough : ¬rest.length < length) (more : Bytes) :
    (rest ++ more).take length = rest.take length ∧
      (rest ++ more).drop length = rest.drop length ++ more := by
  have within : length ≤ rest.length := Nat.le_of_not_lt enough
  exact ⟨List.take_append_of_le_length within, List.drop_append_of_le_length within⟩

theorem continues_text : Continues readText readText := by
  intro input more
  apply (continues_count input more).bind
  intro length rest
  dsimp only
  by_cases short : rest.length < length
  · rw [if_pos short]
    exact .tooLong _
  · have enough : ¬(rest ++ more).length < length := by
      rw [List.length_append]
      omega
    obtain ⟨taken, left⟩ := parts_append short more
    rw [if_neg short, if_neg enough, taken, left]
    cases Utf8.decode (rest.take length) with
    | ok content => exact .read content _
    | error defect => exact .refused _

theorem continues_bytes : Continues readBytes readBytes := by
  intro input more
  apply (continues_count input more).bind
  intro length rest
  dsimp only
  by_cases short : rest.length < length
  · rw [if_pos short]
    exact .ended _
  · have enough : ¬(rest ++ more).length < length := by
      rw [List.length_append]
      omega
    obtain ⟨taken, left⟩ := parts_append short more
    rw [if_neg short, if_neg enough, taken, left]
    exact .read _ _

/-! ## Sequences and tables -/

theorem Continues.many {read onward : Reader Item} (each : Continues read onward) (length : Nat) :
    Continues (readMany read length) (readMany onward length) := by
  induction length with
  | zero => exact fun input more => .read [] input
  | succ length induction =>
      intro input more
      apply (each input more).bind
      intro item rest
      apply (induction rest more).bind
      exact fun items rest => .read (item :: items) rest

theorem Continues.sequence {read onward : Reader Item} (each : Continues read onward) :
    Continues (readSequence read) (readSequence onward) := fun input more =>
  (continues_count input more).bind fun length rest => each.many length rest more

theorem continues_columnData : Continues readColumnData readColumnData := by
  intro input more
  apply (continues_kind 4 input more).bind
  intro number rest
  match number with
  | 0 => exact (continues_word.sequence rest more).bind fun items left => .read _ left
  | 1 => exact (continues_word.sequence rest more).bind fun items left => .read _ left
  | 2 => exact (continues_text.sequence rest more).bind fun items left => .read _ left
  | number + 3 => exact (continues_flag.sequence rest more).bind fun items left => .read _ left

theorem continues_column : Continues readColumn readColumn := by
  intro input more
  apply (continues_text input more).bind
  intro name rest
  exact (continues_columnData rest more).bind fun data left => .read (Column.mk name data) left

theorem continues_table : Continues readTable readTable := fun input more =>
  (continues_column.sequence input more).bind fun columns rest => .read (Table.mk columns) rest

end Codec

/-! ## Whole values -/

namespace Value

open Codec

variable {gather : List (String × Value) → Value}

theorem continues_field {read onward : Reader Value} (continues : Continues read onward) :
    Continues (readField read) (readField onward) := by
  intro input more
  apply (continues_text input more).bind
  intro name rest
  exact (continues rest more).bind fun value left => .read (name, value) left

theorem continues_content {read onward : Reader Value} (continues : Continues read onward)
    (number : Nat) : Continues (readContent gather read number) (readContent gather onward number) := by
  match number with
  | 0 => exact fun input more => .read null input
  | 1 => exact continues_flag.giving flag
  | 2 => exact continues_word.giving fun bits => integer bits.toInt64
  | 3 => exact continues_word.giving fun bits => float ⟨bits⟩
  | 4 => exact continues_text.giving text
  | 5 => exact continues_bytes.giving bytes
  | 6 => exact continues.sequence.giving list
  | 7 => exact (continues_field continues).sequence.giving gather
  | number + 8 => exact continues_table.giving table

/-- What is told at one depth stands at a greater one: where the depth is used up, the input counts as ended. -/
theorem continues_value {depth deeper : Nat} (deep : depth ≤ deeper) :
    Continues (readWith gather depth) (readWith gather deeper) := by
  induction depth generalizing deeper with
  | zero => exact fun _ _ => .ended _
  | succ depth induction =>
      obtain ⟨below, rfl⟩ := Nat.exists_eq_add_of_lt deep
      intro input more
      apply (continues_kind 9 input more).bind
      intro number rest
      exact continues_content (induction (Nat.le_add_right depth below)) number rest more

/-- A value without live handles has an encoding, and whatever is decoded from a beginning of it that is not the
whole, the answer is that the input ended too early. -/
theorem decode_of_cut {value : Value} (serializable : value.isSerializable = true)
    (countable : value.Countable) : ∃ bytes, value.encode = .ok bytes ∧
      ∀ part, part <+: bytes → part ≠ bytes →
        ∃ error, decode part = .error (.decode error) ∧ error.TooEarly := by
  obtain ⟨bytes, encoded⟩ := (encode_ok_iff value).mpr serializable
  refine ⟨bytes, encoded, ?_⟩
  rintro part ⟨more, rfl⟩ cut
  have whole : readWith mapOfFields (part ++ more).length (part ++ more ++ []) = _ :=
    takes_value value encoded countable (Nat.le_refl _) []
  rw [List.append_nil] at whole
  have shorter : part.length ≤ (part ++ more).length := by
    rw [List.length_append]
    exact Nat.le_add_right _ _
  have stands := @continues_value mapOfFields _ _ shorter part more
  rw [whole, ← readValue_eq] at stands
  have longer : more ≠ [] := fun none => cut (by rw [none, List.append_nil])
  obtain ⟨error, told, early⟩ := stands.early longer
  have refused : read part = .error error := told
  exact ⟨error, by rw [decode, refused], early⟩

/-- All of the encoding but its last byte. -/
theorem decode_of_cut_nested : ∃ bytes, nested.encode = .ok bytes ∧
    ∃ error, decode bytes.dropLast = .error (.decode error) ∧ error.TooEarly := by
  obtain ⟨bytes, encoded, cut⟩ := @decode_of_cut nested rfl nested_wellFormed.countable
  refine ⟨bytes, encoded, cut _ (List.dropLast_prefix _) fun same => ?_⟩
  have some := length_encode_pos encoded
  have shorter := congrArg List.length same
  rw [List.length_dropLast] at shorter
  omega

end Value

end TierVault
