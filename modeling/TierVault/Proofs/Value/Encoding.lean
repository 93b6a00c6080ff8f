import TierVault.Value.Codec

/-!
What is encoded, and how long it gets.

A value is encoded exactly when no live handle occurs in it, and the size that is told beforehand is then the
length of the encoding. The encoding of a list or a map falls into the encodings of its parts.
-/

namespace TierVault

open Codec

/-! ## Lengths of parts -/

namespace Utf8

theorem length_encode (content : String) : (encode content).length = utf8Length content := rfl

end Utf8

namespace Codec

variable {Item : Type}

theorem length_text (content : String) : (text content).length = Value.encodedTextSize content := by
  rw [text, count, List.length_append, LittleEndian.length_bytes, Utf8.length_encode,
    Value.encodedTextSize]

theorem length_sequence (bytesOf : Item → Bytes) (items : List Item) :
    (sequence bytesOf items).length = 8 + sumOf (items.map fun item => (bytesOf item).length) := by
  rw [sequence, count, List.length_append, LittleEndian.length_bytes]
  congr 1
  induction items with
  | nil => rfl
  | cons item items induction =>
      rw [List.flatMap_cons, List.length_append, induction, List.map_cons, sumOf_cons]

theorem length_sequence_of_length (bytesOf : Item → Bytes) (width : Nat)
    (each : ∀ item, (bytesOf item).length = width) (items : List Item) :
    (sequence bytesOf items).length = 8 + items.length * width := by
  rw [sequence, count, List.length_append, LittleEndian.length_bytes]
  congr 1
  induction items with
  | nil => exact (Nat.zero_mul _).symm
  | cons item items induction =>
      rw [List.flatMap_cons, List.length_append, induction, each, List.length_cons,
        Nat.succ_mul, Nat.add_comm]

theorem length_word (bits : UInt64) : (word bits).length = 8 :=
  LittleEndian.length_bytes 8 bits.toNat

theorem length_flag (truth : Bool) : (flag truth).length = 1 := by
  cases truth <;> rfl

theorem length_kind (number : Nat) : (kind number).length = 4 :=
  LittleEndian.length_bytes 4 number

theorem length_columnData (data : ColumnData) :
    (columnData data).length = Value.encodedColumnDataSize data := by
  cases data with
  | integers items =>
      rw [columnData, List.length_append, length_kind,
        length_sequence_of_length _ 8 fun number : Int64 => length_word number.toUInt64,
        Value.encodedColumnDataSize]
      omega
  | floats items =>
      rw [columnData, List.length_append, length_kind,
        length_sequence_of_length _ 8 fun number : Binary64 => length_word number.bits,
        Value.encodedColumnDataSize]
      omega
  | texts items =>
      have lengths : (fun item => (text item).length) = Value.encodedTextSize := funext length_text
      rw [columnData, List.length_append, length_kind, length_sequence, lengths,
        Value.encodedColumnDataSize]
      omega
  | flags items =>
      rw [columnData, List.length_append, length_kind, length_sequence_of_length _ 1 length_flag,
        Value.encodedColumnDataSize]
      omega

theorem length_table (content : Table) :
    (table content).length = Value.encodedTableSize content := by
  rw [table, length_sequence, Value.encodedTableSize]
  simp only [column, List.length_append, length_text, length_columnData]

end Codec

/-! ## Parts of an encoding -/

namespace Value

theorem encode_list {items : List Value} {bytes : Bytes} (encoded : (list items).encode = .ok bytes) :
    ∃ body, encodeItems items = .ok body ∧ bytes = kind 6 ++ (count items.length ++ body) := by
  rw [encode] at encoded
  cases inner : encodeItems items with
  | error error =>
      rw [inner] at encoded
      cases encoded
  | ok body =>
      rw [inner] at encoded
      cases encoded
      exact ⟨body, rfl, List.append_assoc _ _ _⟩

theorem encode_map {fields : List (String × Value)} {bytes : Bytes}
    (encoded : (map fields).encode = .ok bytes) :
    ∃ body, encodeFields fields = .ok body ∧ bytes = kind 7 ++ (count fields.length ++ body) := by
  rw [encode] at encoded
  cases inner : encodeFields fields with
  | error error =>
      rw [inner] at encoded
      cases encoded
  | ok body =>
      rw [inner] at encoded
      cases encoded
      exact ⟨body, rfl, List.append_assoc _ _ _⟩

theorem encodeItems_cons {item : Value} {rest : List Value} {bytes : Bytes}
    (encoded : encodeItems (item :: rest) = .ok bytes) : ∃ first others,
      item.encode = .ok first ∧ encodeItems rest = .ok others ∧ bytes = first ++ others := by
  rw [encodeItems] at encoded
  cases one : item.encode with
  | error error =>
      rw [one] at encoded
      cases encoded
  | ok first =>
      cases more : encodeItems rest with
      | error error =>
          rw [one, more] at encoded
          cases encoded
      | ok others =>
          rw [one, more] at encoded
          cases encoded
          exact ⟨first, others, rfl, rfl, rfl⟩

theorem encodeFields_cons {name : String} {value : Value} {rest : List (String × Value)}
    {bytes : Bytes} (encoded : encodeFields ((name, value) :: rest) = .ok bytes) : ∃ first others,
      value.encode = .ok first ∧ encodeFields rest = .ok others ∧
        bytes = Codec.text name ++ (first ++ others) := by
  rw [encodeFields] at encoded
  cases one : value.encode with
  | error error =>
      rw [one] at encoded
      cases encoded
  | ok first =>
      cases more : encodeFields rest with
      | error error =>
          rw [one, more] at encoded
          cases encoded
      | ok others =>
          rw [one, more] at encoded
          cases encoded
          exact ⟨first, others, rfl, rfl, List.append_assoc _ _ _⟩

/-- Every encoding begins with its kind. -/
theorem encode_begins {value : Value} {bytes : Bytes} (encoded : value.encode = .ok bytes) :
    ∃ number content, number < 9 ∧ bytes = kind number ++ content := by
  cases value with
  | null =>
      cases encoded
      exact ⟨0, [], by decide, (List.append_nil _).symm⟩
  | live => cases encoded
  | list items =>
      rcases encode_list encoded with ⟨body, -, rfl⟩
      exact ⟨6, _, by decide, rfl⟩
  | map fields =>
      rcases encode_map encoded with ⟨body, -, rfl⟩
      exact ⟨7, _, by decide, rfl⟩
  | bytes content =>
      cases encoded
      exact ⟨5, _, by decide, List.append_assoc _ _ _⟩
  | flag => cases encoded; exact ⟨1, _, by decide, rfl⟩
  | integer => cases encoded; exact ⟨2, _, by decide, rfl⟩
  | float => cases encoded; exact ⟨3, _, by decide, rfl⟩
  | text => cases encoded; exact ⟨4, _, by decide, rfl⟩
  | table => cases encoded; exact ⟨8, _, by decide, rfl⟩

theorem length_encode_pos {value : Value} {bytes : Bytes} (encoded : value.encode = .ok bytes) :
    0 < bytes.length := by
  rcases encode_begins encoded with ⟨number, content, -, rfl⟩
  rw [List.length_append, kind, LittleEndian.length_bytes]
  omega

/-! ## When there is an encoding -/

mutual

theorem encode_ok_iff (value : Value) :
    (∃ bytes, value.encode = .ok bytes) ↔ value.isSerializable = true := by
  cases value with
  | list items =>
      rw [isSerializable, ← encodeItems_ok_iff items]
      constructor
      · intro ⟨written, encoded⟩
        obtain ⟨body, inner, -⟩ := encode_list encoded
        exact ⟨body, inner⟩
      · intro ⟨body, inner⟩
        rw [encode, inner]
        exact ⟨_, rfl⟩
  | map fields =>
      rw [isSerializable, ← encodeFields_ok_iff fields]
      constructor
      · intro ⟨written, encoded⟩
        obtain ⟨body, inner, -⟩ := encode_map encoded
        exact ⟨body, inner⟩
      · intro ⟨body, inner⟩
        rw [encode, inner]
        exact ⟨_, rfl⟩
  | live handle => simp [encode, isSerializable]
  | null | flag | integer | float | text | bytes | table => simp [encode, isSerializable]

theorem encodeItems_ok_iff (items : List Value) :
    (∃ bytes, encodeItems items = .ok bytes) ↔ areSerializable items = true := by
  cases items with
  | nil => simp [encodeItems, areSerializable]
  | cons item items =>
      rw [areSerializable, Bool.and_eq_true, ← encode_ok_iff item, ← encodeItems_ok_iff items]
      constructor
      · intro ⟨written, encoded⟩
        obtain ⟨first, others, one, more, -⟩ := encodeItems_cons encoded
        exact ⟨⟨first, one⟩, others, more⟩
      · intro ⟨⟨first, one⟩, others, more⟩
        rw [encodeItems, one, more]
        exact ⟨_, rfl⟩

theorem encodeFields_ok_iff (fields : List (String × Value)) :
    (∃ bytes, encodeFields fields = .ok bytes) ↔ haveSerializableValues fields = true := by
  cases fields with
  | nil => simp [encodeFields, haveSerializableValues]
  | cons field fields =>
      obtain ⟨name, value⟩ := field
      rw [haveSerializableValues, Bool.and_eq_true, ← encode_ok_iff value,
        ← encodeFields_ok_iff fields]
      constructor
      · intro ⟨written, encoded⟩
        obtain ⟨first, others, one, more, -⟩ := encodeFields_cons encoded
        exact ⟨⟨first, one⟩, others, more⟩
      · intro ⟨⟨first, one⟩, others, more⟩
        rw [encodeFields, one, more]
        exact ⟨_, rfl⟩

end

/-! ## The size told beforehand -/

mutual

/-- The size is the length of the encoding, and fails as the encoding does. -/
theorem encodedSize_eq (value : Value) : value.encodedSize = value.encode.map List.length := by
  cases value with
  | null | flag | integer | float =>
      simp [encodedSize, encode, Except.map, length_kind, length_word, length_flag]
  | text content => simp [encodedSize, encode, Except.map, length_kind, length_text]
  | bytes content =>
      simp [encodedSize, encode, Except.map, length_kind, count]
      omega
  | table content => simp [encodedSize, encode, Except.map, length_kind, length_table]
  | live handle => rfl
  | list items =>
      rw [encodedSize, encode, encodedItemsSize_eq items]
      cases encodeItems items with
      | error error => rfl
      | ok body =>
          simp [Except.map, Bind.bind, Except.bind, pure, Except.pure, length_kind, count]
          omega
  | map fields =>
      rw [encodedSize, encode, encodedFieldsSize_eq fields]
      cases encodeFields fields with
      | error error => rfl
      | ok body =>
          simp [Except.map, Bind.bind, Except.bind, pure, Except.pure, length_kind, count]
          omega

theorem encodedItemsSize_eq (items : List Value) :
    encodedItemsSize items = (encodeItems items).map List.length := by
  cases items with
  | nil => rfl
  | cons item items =>
      rw [encodedItemsSize, encodeItems, encodedSize_eq item, encodedItemsSize_eq items]
      cases item.encode with
      | error error => rfl
      | ok first =>
          cases encodeItems items with
          | error error => rfl
          | ok others => simp [Except.map, Bind.bind, Except.bind, pure, Except.pure]

theorem encodedFieldsSize_eq (fields : List (String × Value)) :
    encodedFieldsSize fields = (encodeFields fields).map List.length := by
  cases fields with
  | nil => rfl
  | cons field fields =>
      obtain ⟨name, value⟩ := field
      rw [encodedFieldsSize, encodeFields, encodedSize_eq value, encodedFieldsSize_eq fields]
      cases value.encode with
      | error error => rfl
      | ok first =>
          cases encodeFields fields with
          | error error => rfl
          | ok others =>
              simp [Except.map, Bind.bind, Except.bind, pure, Except.pure, length_text,
                Nat.add_assoc]

end

theorem encodedSize_of_encode {value : Value} {bytes : Bytes} (encoded : value.encode = .ok bytes) :
    value.encodedSize = .ok bytes.length := by
  rw [encodedSize_eq, encoded]
  rfl

theorem encode_of_encodedSize {value : Value} {size : Nat} (sized : value.encodedSize = .ok size) :
    ∃ bytes, value.encode = .ok bytes ∧ bytes.length = size := by
  rw [encodedSize_eq] at sized
  cases encoded : value.encode with
  | error error =>
      rw [encoded] at sized
      cases sized
  | ok bytes =>
      rw [encoded] at sized
      exact ⟨bytes, rfl, Except.ok.inj sized⟩

end Value

end TierVault

/-! ## Weights -/

namespace TierVault.Value

/-- The length of the encoding. What cannot be encoded weighs nothing. -/
def weight (value : Value) : Nat :=
  match value.encodedSize with
  | .ok size => size
  | .error _ => 0

theorem weight_eq {value : Value} {size : Nat} (sized : value.encodedSize = .ok size) :
    value.weight = size := by
  rw [weight, sized]

end TierVault.Value
