import TierVault.Proofs.Value.Accepting
import TierVault.Proofs.Value.Encoding

/-!
What is decoded encodes again.

Every input that is accepted begins with the encoding of the value as it stands there, its maps with the fields
that the input has, in their order. What is decoded is that value with its maps made anew. So it encodes to no
more bytes than were taken, and to the same bytes exactly when every map of the input was in order.
-/

namespace TierVault

namespace Value

open Codec

/-! ## Values with their maps in order -/

theorem orderedFields_iff (fields : List (String × Value)) :
    OrderedFields fields ↔ ∀ field ∈ fields, field.2.Ordered := by
  induction fields with
  | nil => exact ⟨fun _ _ member => (nomatch member), fun _ => trivial⟩
  | cons field fields induction => rw [OrderedFields, induction, List.forall_mem_cons]

theorem countableFields_iff (fields : List (String × Value)) : CountableFields fields ↔
    ∀ field ∈ fields, utf8Length field.1 < Word.limit ∧ field.2.Countable := by
  induction fields with
  | nil => exact ⟨fun _ _ member => (nomatch member), fun _ => trivial⟩
  | cons field fields induction =>
      rw [CountableFields, induction, List.forall_mem_cons, and_assoc]

mutual

theorem ordered_rebuilt (value : Value) : (value.rebuilt mapOfFields).Ordered := by
  cases value with
  | list items =>
      rw [rebuilt, Ordered]
      exact ordered_rebuiltItems items
  | map fields =>
      rw [rebuilt, mapOfFields_eq_gathered, Ordered, orderedFields_iff]
      refine ⟨gathered_inOrder _, ?_⟩
      intro field member
      exact (orderedFields_iff _).mp (ordered_rebuiltFields fields) field
        (mem_of_mem_gathered _ field member)
  | _ => simp only [rebuilt, Ordered]

theorem ordered_rebuiltItems (items : List Value) :
    OrderedItems (rebuiltItems mapOfFields items) := by
  cases items with
  | nil => trivial
  | cons item items => exact ⟨ordered_rebuilt item, ordered_rebuiltItems items⟩

theorem ordered_rebuiltFields (fields : List (String × Value)) :
    OrderedFields (rebuiltFields mapOfFields fields) := by
  cases fields with
  | nil => trivial
  | cons field fields => exact ⟨ordered_rebuilt field.2, ordered_rebuiltFields fields⟩

end

mutual

theorem countable_rebuilt (value : Value) (countable : value.Countable) :
    (value.rebuilt mapOfFields).Countable := by
  cases value with
  | list items =>
      rw [rebuilt, Countable]
      obtain ⟨counted, each⟩ := countable_rebuiltItems items countable.2
      exact ⟨counted ▸ countable.1, each⟩
  | map fields =>
      rw [rebuilt, mapOfFields_eq_gathered, Countable, countableFields_iff]
      obtain ⟨counted, each⟩ := countable_rebuiltFields fields countable.2
      refine ⟨?_, ?_⟩
      · apply Nat.lt_of_le_of_lt (length_gathered_le _)
        exact counted ▸ countable.1
      · intro field member
        exact (countableFields_iff _).mp each field (mem_of_mem_gathered _ field member)
  | _ => simpa only [rebuilt] using countable

theorem countable_rebuiltItems (items : List Value) (countable : CountableItems items) :
    items.length = (rebuiltItems mapOfFields items).length ∧
      CountableItems (rebuiltItems mapOfFields items) := by
  cases items with
  | nil => exact ⟨rfl, trivial⟩
  | cons item items =>
      obtain ⟨counted, each⟩ := countable_rebuiltItems items countable.2
      refine ⟨?_, countable_rebuilt item countable.1, each⟩
      rw [rebuiltItems, List.length_cons, List.length_cons, counted]

theorem countable_rebuiltFields (fields : List (String × Value))
    (countable : CountableFields fields) :
    fields.length = (rebuiltFields mapOfFields fields).length ∧
      CountableFields (rebuiltFields mapOfFields fields) := by
  cases fields with
  | nil => exact ⟨rfl, trivial⟩
  | cons field fields =>
      obtain ⟨counted, each⟩ := countable_rebuiltFields fields countable.2.2
      refine ⟨?_, countable.1, countable_rebuilt field.2 countable.2.1, each⟩
      rw [rebuiltFields, List.length_cons, List.length_cons, counted]

end

/-! ## Length of the encoding -/

/-- What a field adds to the size of its map. -/
def fieldSize (field : String × Value) : Nat := encodedTextSize field.1 + field.2.weight

theorem haveSerializableValues_iff (fields : List (String × Value)) :
    haveSerializableValues fields = true ↔ ∀ field ∈ fields, field.2.isSerializable = true := by
  induction fields with
  | nil => exact ⟨fun _ _ member => (nomatch member), fun _ => rfl⟩
  | cons field fields induction =>
      rw [haveSerializableValues, Bool.and_eq_true, induction, List.forall_mem_cons]

theorem length_encodeFields {fields : List (String × Value)} {bytes : Bytes}
    (encoded : encodeFields fields = .ok bytes) :
    bytes.length = sumOf (fields.map fieldSize) := by
  induction fields generalizing bytes with
  | nil =>
      cases encoded
      rfl
  | cons field fields induction =>
      obtain ⟨first, others, one, more, rfl⟩ := encodeFields_cons encoded
      rw [List.map_cons, sumOf_cons, ← induction more, fieldSize,
        weight_eq (encodedSize_of_encode one), List.length_append, List.length_append, length_text,
        Nat.add_assoc]

theorem encode_gathered {fields : List (String × Value)} {bytes : Bytes}
    (encoded : encodeFields fields = .ok bytes) : ∃ fewer,
      encodeFields (gathered fields) = .ok fewer ∧ fewer.length ≤ bytes.length := by
  have serializable := (haveSerializableValues_iff _).mp ((encodeFields_ok_iff _).mp ⟨_, encoded⟩)
  have kept : haveSerializableValues (gathered fields) = true := by
    apply (haveSerializableValues_iff _).mpr
    intro field member
    exact serializable field (mem_of_mem_gathered fields field member)
  obtain ⟨fewer, encodes⟩ := (encodeFields_ok_iff _).mpr kept
  refine ⟨fewer, encodes, ?_⟩
  rw [length_encodeFields encodes, length_encodeFields encoded]
  exact sumOf_gathered_le fieldSize fields

mutual

/-- Maps made anew take no more bytes: a field that is written again counts once. -/
theorem encode_rebuilt (value : Value) {bytes : Bytes} (encoded : value.encode = .ok bytes) :
    ∃ fewer, (value.rebuilt mapOfFields).encode = .ok fewer ∧ fewer.length ≤ bytes.length := by
  cases value with
  | list items =>
      obtain ⟨body, inner, rfl⟩ := encode_list encoded
      obtain ⟨fewer, encodes, short⟩ := encode_rebuiltItems items inner
      rw [rebuilt, encode, encodes]
      refine ⟨_, rfl, ?_⟩
      simp only [List.length_append, length_kind, count, LittleEndian.length_bytes]
      omega
  | map fields =>
      obtain ⟨body, inner, rfl⟩ := encode_map encoded
      obtain ⟨fewer, encodes, short⟩ := encode_rebuiltFields fields inner
      obtain ⟨fewest, encodesGathered, shorter⟩ := encode_gathered encodes
      rw [rebuilt, mapOfFields_eq_gathered, encode, encodesGathered]
      refine ⟨_, rfl, ?_⟩
      simp only [List.length_append, length_kind, count, LittleEndian.length_bytes]
      omega
  | _ =>
      simp only [rebuilt]
      exact ⟨bytes, encoded, Nat.le_refl _⟩

theorem encode_rebuiltItems (items : List Value) {bytes : Bytes}
    (encoded : encodeItems items = .ok bytes) : ∃ fewer,
      encodeItems (rebuiltItems mapOfFields items) = .ok fewer ∧ fewer.length ≤ bytes.length := by
  cases items with
  | nil => exact ⟨bytes, encoded, Nat.le_refl _⟩
  | cons item items =>
      obtain ⟨first, others, one, more, rfl⟩ := encodeItems_cons encoded
      obtain ⟨head, encodesHead, shortHead⟩ := encode_rebuilt item one
      obtain ⟨tail, encodesTail, shortTail⟩ := encode_rebuiltItems items more
      rw [rebuiltItems, encodeItems, encodesHead, encodesTail]
      refine ⟨_, rfl, ?_⟩
      rw [List.length_append, List.length_append]
      omega

theorem encode_rebuiltFields (fields : List (String × Value)) {bytes : Bytes}
    (encoded : encodeFields fields = .ok bytes) : ∃ fewer,
      encodeFields (rebuiltFields mapOfFields fields) = .ok fewer ∧
        fewer.length ≤ bytes.length := by
  cases fields with
  | nil => exact ⟨bytes, encoded, Nat.le_refl _⟩
  | cons field fields =>
      obtain ⟨first, others, one, more, rfl⟩ := encodeFields_cons encoded
      obtain ⟨head, encodesHead, shortHead⟩ := encode_rebuilt field.2 one
      obtain ⟨tail, encodesTail, shortTail⟩ := encode_rebuiltFields fields more
      rw [rebuiltFields, encodeFields, encodesHead, encodesTail]
      refine ⟨_, rfl, ?_⟩
      simp only [List.length_append]
      omega

end

/-! ## The maps in a value -/

/-- The value is the whole or occurs inside it. -/
inductive Within : Value → Value → Prop
  | whole (value : Value) : Within value value
  | item {part item : Value} {items : List Value} (member : item ∈ items)
      (inside : Within part item) : Within part (list items)
  | field {part : Value} {field : String × Value} {fields : List (String × Value)}
      (member : field ∈ fields) (inside : Within part field.2) : Within part (map fields)

theorem orderedItems_iff (items : List Value) :
    OrderedItems items ↔ ∀ item ∈ items, item.Ordered := by
  induction items with
  | nil => exact ⟨fun _ _ member => (nomatch member), fun _ => trivial⟩
  | cons item items induction => rw [OrderedItems, induction, List.forall_mem_cons]

theorem Ordered.within {part value : Value} (inside : Within part value) (ordered : value.Ordered) :
    part.Ordered := by
  induction inside with
  | whole => exact ordered
  | item member _ induction => exact induction ((orderedItems_iff _).mp ordered _ member)
  | field member _ induction => exact induction ((orderedFields_iff _).mp ordered.2 _ member)

mutual

theorem ordered_of_within (value : Value)
    (every : ∀ fields, Within (map fields) value → FieldsInOrder fields) : value.Ordered := by
  cases value with
  | list items =>
      apply orderedItems_of_within items
      intro item member fields inside
      exact every fields (.item member inside)
  | map fields =>
      refine ⟨every fields (.whole _), ?_⟩
      apply orderedFields_of_within fields
      intro field member others inside
      exact every others (.field member inside)
  | _ => simp only [Ordered]

theorem orderedItems_of_within (items : List Value) (every : ∀ item ∈ items, ∀ fields,
    Within (map fields) item → FieldsInOrder fields) : OrderedItems items := by
  cases items with
  | nil => trivial
  | cons item items =>
      refine ⟨ordered_of_within item (every item List.mem_cons_self), ?_⟩
      apply orderedItems_of_within items
      intro other member
      exact every other (List.mem_cons_of_mem _ member)

theorem orderedFields_of_within (fields : List (String × Value)) (every : ∀ field ∈ fields,
    ∀ others, Within (map others) field.2 → FieldsInOrder others) : OrderedFields fields := by
  cases fields with
  | nil => trivial
  | cons field fields =>
      refine ⟨ordered_of_within field.2 (every field List.mem_cons_self), ?_⟩
      apply orderedFields_of_within fields
      intro other member
      exact every other (List.mem_cons_of_mem _ member)

end

theorem ordered_iff_within (value : Value) : value.Ordered ↔
    ∀ fields, Within (map fields) value → FieldsInOrder fields :=
  ⟨fun ordered _ inside => (ordered.within inside).1, ordered_of_within value⟩

/-! ## What is decoded -/

theorem encode_injective {left right : Value} {bytes : Bytes} (encoded : left.encode = .ok bytes)
    (same : right.encode = .ok bytes) (countable : left.Countable)
    (otherCountable : right.Countable) : left = right := by
  have taken : readWith map bytes.length (bytes ++ []) = _ :=
    takes_value left encoded countable (Nat.le_refl _) []
  have other : readWith map bytes.length (bytes ++ []) = _ :=
    takes_value right same otherCountable (Nat.le_refl _) []
  rw [rebuilt_map] at taken other
  rw [taken] at other
  exact (Prod.mk.inj (Except.ok.inj other)).1

theorem read_of_decode {input : Bytes} {value : Value} (accepted : decode input = .ok value) :
    ∃ rest, read input = .ok (value, rest) := by
  unfold decode at accepted
  split at accepted
  · rename_i found rest ran
    cases accepted
    exact ⟨rest, ran⟩
  · cases accepted

/-- Reads a value with the fields of each map as they stand in the input, also when they are out of order or
come again. -/
def readAsWritten (input : Bytes) : Except DecodeError (Value × Bytes) :=
  readWith map input.length input

/-- What is decoded from any input encodes again, to at most the bytes that were taken from the input, and is
decoded from these as it was. They are the bytes that were taken exactly when in every map of the input the
bytes of the names increase strictly. -/
theorem decode_canonical {input : Bytes} {value : Value} (accepted : decode input = .ok value) :
    ∃ taken rest written bytes,
      read input = .ok (value, rest) ∧ input = taken ++ rest ∧
      readAsWritten input = .ok (written, rest) ∧ written.encode = .ok taken ∧
      value.isSerializable = true ∧ value.encode = .ok bytes ∧ decode bytes = .ok value ∧
      bytes.length ≤ taken.length ∧
      (bytes = taken ↔ ∀ fields, Within (map fields) written →
        (fields.map fun field => Utf8.encode field.1).Pairwise (· < ·)) := by
  obtain ⟨rest, ran⟩ := read_of_decode accepted
  have ranWith := ran
  rw [read, readValue_eq] at ranWith
  obtain ⟨taken, split, written, countable, encoded, made⟩ :=
    accepts_value input.length input value rest ranWith
  obtain ⟨bytes, encodes, short⟩ := encode_rebuilt written encoded
  have wellFormed : (written.rebuilt mapOfFields).WellFormed :=
    ⟨ordered_rebuilt written, countable_rebuilt written countable⟩
  rw [← made] at encodes wellFormed
  have back := decode_encode encodes wellFormed []
  rw [List.append_nil] at back
  simp only [← fieldsInOrder_iff, ← ordered_iff_within]
  refine ⟨taken, rest, written, bytes, ran, split, ?_, encoded, ?_, encodes, back, short, ?_, ?_⟩
  · have deep : taken.length ≤ input.length := by
      rw [split, List.length_append]
      omega
    have raw : readWith map input.length (taken ++ rest) = _ :=
      takes_value written encoded countable deep rest
    rwa [rebuilt_map, ← split] at raw
  · exact (encode_ok_iff value).mp ⟨bytes, encodes⟩
  · intro same
    rw [same] at encodes
    have equal := encode_injective encodes encoded wellFormed.countable countable
    exact equal ▸ wellFormed.ordered
  · intro ordered
    rw [made, rebuilt_ordered written ordered, encoded] at encodes
    exact (Except.ok.inj encodes).symm

/-- A name that comes twice and out of order, and a byte behind. -/
def unsorted : Bytes :=
  kind 7 ++ count 3 ++ Codec.text "b" ++ kind 0 ++ Codec.text "a" ++ kind 0 ++ Codec.text "a" ++
    kind 1 ++ Codec.flag true ++ [9]

theorem decode_canonical_unsorted :
    decode unsorted = .ok (map [("a", flag true), ("b", null)]) ∧
      ∃ taken rest bytes, unsorted = taken ++ rest ∧
        (map [("a", flag true), ("b", null)]).encode = .ok bytes ∧
        decode bytes = .ok (map [("a", flag true), ("b", null)]) ∧ bytes.length ≤ taken.length := by
  have accepted : decode unsorted = .ok (map [("a", flag true), ("b", null)]) := rfl
  obtain ⟨taken, rest, -, bytes, -, split, -, -, -, encodes, back, short, -⟩ :=
    decode_canonical accepted
  exact ⟨accepted, taken, rest, bytes, split, encodes, back, short⟩

end Value

end TierVault
