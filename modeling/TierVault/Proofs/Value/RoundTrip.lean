import TierVault.Fault
import TierVault.Proofs.Value.Encoding
import TierVault.Proofs.Value.Maps

/-!
What was encoded reads back.

A reader takes an item off the front of its bytes, and leaves what follows. Counts are words, so this holds of
values in which every length is one. Reading is described with the making of maps as a parameter: what was
encoded comes back with its maps made anew, and a value with its fields in order comes back as it was.
-/

namespace TierVault

/-! ## Lengths that are words -/

def ColumnData.Countable : ColumnData → Prop
  | .texts items => items.length < Word.limit ∧ ∀ item ∈ items, utf8Length item < Word.limit
  | data => data.length < Word.limit

structure Column.Countable (column : Column) : Prop where
  name : utf8Length column.name < Word.limit
  data : column.data.Countable

structure Table.Countable (table : Table) : Prop where
  columns : table.columns.length < Word.limit
  each : ∀ column ∈ table.columns, column.Countable

namespace Value

mutual

/-- Every length inside the value is a word. -/
def Countable : Value → Prop
  | text content => utf8Length content < Word.limit
  | bytes content => content.length < Word.limit
  | list items => items.length < Word.limit ∧ CountableItems items
  | map fields => fields.length < Word.limit ∧ CountableFields fields
  | table content => content.Countable
  | _ => True

def CountableItems : List Value → Prop
  | [] => True
  | item :: rest => Countable item ∧ CountableItems rest

def CountableFields : List (String × Value) → Prop
  | [] => True
  | (name, value) :: rest =>
      utf8Length name < Word.limit ∧ Countable value ∧ CountableFields rest

end

/-- What every value of a running program is: its maps are maps, and its lengths are words. -/
structure WellFormed (value : Value) : Prop where
  ordered : value.Ordered
  countable : value.Countable

end Value

/-! ## Encodings of limited length -/

section Limited

variable {Item : Type} {size : Item → Nat} {items : List Item} {item : Item}

theorem size_le_sumOf_of_mem (size : Item → Nat) (member : item ∈ items) :
    size item ≤ sumOf (items.map size) := by
  induction items with
  | nil => cases member
  | cons first items induction =>
      rw [List.map_cons, sumOf_cons]
      rcases List.mem_cons.mp member with rfl | later
      · exact Nat.le_add_right _ _
      · exact Nat.le_trans (induction later) (Nat.le_add_left _ _)

theorem length_le_sumOf (some : ∀ item, 0 < size item) (items : List Item) :
    items.length ≤ sumOf (items.map size) := by
  induction items with
  | nil => exact Nat.le_refl _
  | cons item items induction =>
      have first := some item
      rw [List.map_cons, sumOf_cons, List.length_cons]
      omega

end Limited

theorem ColumnData.countable_of_fits {data : ColumnData}
    (fits : Value.encodedColumnDataSize data < Word.limit) : data.Countable := by
  cases data with
  | integers items =>
      simp only [Value.encodedColumnDataSize] at fits
      simp only [Countable, ColumnData.length]
      omega
  | floats items =>
      simp only [Value.encodedColumnDataSize] at fits
      simp only [Countable, ColumnData.length]
      omega
  | texts items =>
      simp only [Value.encodedColumnDataSize] at fits
      have some (text : String) : 0 < Value.encodedTextSize text := by
        rw [Value.encodedTextSize]
        omega
      have counted := length_le_sumOf some items
      refine ⟨by omega, ?_⟩
      intro item member
      have inside := size_le_sumOf_of_mem Value.encodedTextSize member
      rw [Value.encodedTextSize] at inside
      omega
  | flags items =>
      simp only [Value.encodedColumnDataSize] at fits
      simp only [Countable, ColumnData.length]
      omega

theorem Table.countable_of_fits {table : Table}
    (fits : Value.encodedTableSize table < Word.limit) : table.Countable := by
  rw [Value.encodedTableSize] at fits
  have some (column : Column) : 0 < Value.encodedTextSize column.name +
      Value.encodedColumnDataSize column.data := by
    rw [Value.encodedTextSize]
    omega
  have counted := length_le_sumOf some table.columns
  refine ⟨by omega, ?_⟩
  intro column member
  have inside := size_le_sumOf_of_mem (fun column =>
    Value.encodedTextSize column.name + Value.encodedColumnDataSize column.data) member
  refine ⟨?_, ColumnData.countable_of_fits (by omega)⟩
  rw [Value.encodedTextSize] at inside
  omega

namespace Value

open Codec

mutual

/-- Where the encoding is short enough, so is all that it counts. -/
theorem countable_of_fits (value : Value) {bytes : Bytes} (encoded : value.encode = .ok bytes)
    (fits : bytes.length < Word.limit) : value.Countable := by
  cases value with
  | text content =>
      cases encoded
      rw [List.length_append, length_text, encodedTextSize] at fits
      rw [Countable]
      omega
  | bytes content =>
      cases encoded
      rw [List.append_assoc, List.length_append, List.length_append] at fits
      rw [Countable]
      omega
  | table content =>
      cases encoded
      rw [List.length_append, length_table] at fits
      rw [Countable]
      exact Table.countable_of_fits (by omega)
  | list items =>
      obtain ⟨body, inner, rfl⟩ := encode_list encoded
      rw [List.length_append, List.length_append] at fits
      obtain ⟨few, each⟩ := countableItems_of_fits items inner (by omega)
      rw [Countable]
      exact ⟨by omega, each⟩
  | map fields =>
      obtain ⟨body, inner, rfl⟩ := encode_map encoded
      rw [List.length_append, List.length_append] at fits
      obtain ⟨few, each⟩ := countableFields_of_fits fields inner (by omega)
      rw [Countable]
      exact ⟨by omega, each⟩
  | _ => simp only [Countable]

theorem countableItems_of_fits (items : List Value) {bytes : Bytes}
    (encoded : encodeItems items = .ok bytes) (fits : bytes.length < Word.limit) :
    items.length ≤ bytes.length ∧ CountableItems items := by
  cases items with
  | nil => exact ⟨Nat.zero_le _, trivial⟩
  | cons item items =>
      obtain ⟨first, others, one, more, rfl⟩ := encodeItems_cons encoded
      have some := length_encode_pos one
      rw [List.length_append] at fits ⊢
      obtain ⟨few, each⟩ := countableItems_of_fits items more (by omega)
      refine ⟨?_, countable_of_fits item one (by omega), each⟩
      rw [List.length_cons]
      omega

theorem countableFields_of_fits (fields : List (String × Value)) {bytes : Bytes}
    (encoded : encodeFields fields = .ok bytes) (fits : bytes.length < Word.limit) :
    fields.length ≤ bytes.length ∧ CountableFields fields := by
  cases fields with
  | nil => exact ⟨Nat.zero_le _, trivial⟩
  | cons field fields =>
      obtain ⟨name, value⟩ := field
      obtain ⟨first, others, one, more, rfl⟩ := encodeFields_cons encoded
      have some := length_encode_pos one
      rw [List.length_append, List.length_append, length_text, encodedTextSize] at fits ⊢
      obtain ⟨few, each⟩ := countableFields_of_fits fields more (by omega)
      refine ⟨?_, by omega, countable_of_fits value one (by omega), each⟩
      rw [List.length_cons]
      omega

end

/-! ## Maps made anew -/

mutual

/-- The value with all its maps made by `gather`, the innermost first. -/
def rebuilt (gather : List (String × Value) → Value) : Value → Value
  | list items => list (rebuiltItems gather items)
  | map fields => gather (rebuiltFields gather fields)
  | other => other

def rebuiltItems (gather : List (String × Value) → Value) : List Value → List Value
  | [] => []
  | item :: rest => rebuilt gather item :: rebuiltItems gather rest

def rebuiltFields (gather : List (String × Value) → Value) :
    List (String × Value) → List (String × Value)
  | [] => []
  | (name, value) :: rest => (name, rebuilt gather value) :: rebuiltFields gather rest

end

mutual

theorem rebuilt_map (value : Value) : rebuilt map value = value := by
  cases value with
  | list items => rw [rebuilt, rebuiltItems_map items]
  | map fields => rw [rebuilt, rebuiltFields_map fields]
  | _ => simp only [rebuilt]

theorem rebuiltItems_map (items : List Value) : rebuiltItems map items = items := by
  cases items with
  | nil => rw [rebuiltItems]
  | cons item rest => rw [rebuiltItems, rebuilt_map item, rebuiltItems_map rest]

theorem rebuiltFields_map (fields : List (String × Value)) : rebuiltFields map fields = fields := by
  cases fields with
  | nil => rw [rebuiltFields]
  | cons field rest => rw [rebuiltFields, rebuilt_map field.2, rebuiltFields_map rest]

end

mutual

/-- A value in order is made of the maps that its fields make. -/
theorem rebuilt_ordered (value : Value) (ordered : value.Ordered) :
    rebuilt mapOfFields value = value := by
  cases value with
  | list items => rw [rebuilt, rebuiltItems_ordered items ordered]
  | map fields => rw [rebuilt, rebuiltFields_ordered fields ordered.2, mapOfFields_eq ordered.1]
  | _ => simp only [rebuilt]

theorem rebuiltItems_ordered (items : List Value) (ordered : OrderedItems items) :
    rebuiltItems mapOfFields items = items := by
  cases items with
  | nil => rw [rebuiltItems]
  | cons item rest =>
      rw [rebuiltItems, rebuilt_ordered item ordered.1, rebuiltItems_ordered rest ordered.2]

theorem rebuiltFields_ordered (fields : List (String × Value)) (ordered : OrderedFields fields) :
    rebuiltFields mapOfFields fields = fields := by
  cases fields with
  | nil => rw [rebuiltFields]
  | cons field rest =>
      rw [rebuiltFields, rebuilt_ordered field.2 ordered.1, rebuiltFields_ordered rest ordered.2]

end

end Value

/-! ## Reading with maps made in any way -/

namespace Codec

/-- Reads an item and makes another one of it. -/
def giving {Item Other : Type} (make : Item → Other) (read : Reader Item) : Reader Other :=
  fun input => (read input).map fun taken => (make taken.1, taken.2)

/-- Reads the content that follows the kind of a value. -/
def readContent (gather : List (String × Value) → Value) (read : Reader Value) :
    (number : Nat) → Reader Value
  | 0 => fun input => .ok (.null, input)
  | 1 => giving .flag readFlag
  | 2 => giving (fun bits => .integer bits.toInt64) readWord
  | 3 => giving (fun bits => .float ⟨bits⟩) readWord
  | 4 => giving .text readText
  | 5 => giving .bytes readBytes
  | 6 => giving .list (readSequence read)
  | 7 => giving gather (readSequence (readField read))
  | _ => giving .table readTable

def readWith (gather : List (String × Value) → Value) : (depth : Nat) → Reader Value
  | 0, _ => .error .endOfInput
  | depth + 1, input => do
    let (number, rest) ← readKind 9 input
    readContent gather (readWith gather depth) number rest

theorem giving_eq_bind {Item Other : Type} (make : Item → Other) (read : Reader Item)
    (input : Bytes) : giving make read input =
      (do
        let (item, rest) ← read input
        return (make item, rest)) := by
  rw [giving]
  cases read input <;> rfl

theorem readValue_eq (depth : Nat) : readValue depth = readWith Value.mapOfFields depth := by
  induction depth with
  | zero => rfl
  | succ depth induction =>
      funext input
      rw [readValue, readWith, induction]
      apply bind_congr
      intro taken
      obtain ⟨number, rest⟩ := taken
      match number with
      | 0 => rfl
      | 2 => exact (giving_eq_bind (fun bits => Value.integer bits.toInt64) readWord rest).symm
      | 3 => exact (giving_eq_bind (fun bits => Value.float ⟨bits⟩) readWord rest).symm
      | 1 | 4 | 5 | 6 | 7 | _ + 8 => exact (giving_eq_bind _ _ _).symm

end Codec

/-! ## Parts of a value -/

namespace Codec

variable {Item Other : Type}

/-- The reader takes the item off the front of its bytes, and leaves what follows. -/
def Takes (read : Reader Item) (bytes : Bytes) (item : Item) : Prop :=
  ∀ rest, read (bytes ++ rest) = .ok (item, rest)

theorem takes_giving {read : Reader Item} {bytes : Bytes} {item : Item}
    (taken : Takes read bytes item) (make : Item → Other) :
    Takes (giving make read) bytes (make item) := by
  intro rest
  rw [giving, taken rest]
  rfl

theorem takes_number {width number : Nat} (fits : number < Nat.pow 256 width) :
    Takes (readNumber width) (LittleEndian.bytes width number) number := by
  induction width generalizing number with
  | zero =>
      intro rest
      have zero : number = 0 := Nat.lt_one_iff.mp fits
      rw [zero]
      rfl
  | succ width induction =>
      intro rest
      have high : number / 256 < Nat.pow 256 width := by
        refine Nat.div_lt_of_lt_mul ?_
        rwa [Nat.mul_comm]
      have whole : number % 256 + 256 * (number / 256) = number := Nat.mod_add_div _ _
      simp [LittleEndian.bytes, readNumber, induction high rest, Bind.bind, Except.bind, whole,
        pure, Except.pure]

theorem takes_kind {bound number : Nat} (known : number < bound) (few : bound ≤ 256) :
    Takes (readKind bound) (kind number) number := by
  intro rest
  have small : number < Nat.pow 256 4 := Nat.lt_of_lt_of_le known (Nat.le_trans few (by decide))
  simp [readKind, kind, takes_number small rest, Bind.bind, Except.bind, known, pure, Except.pure]

theorem takes_count {number : Nat} (fits : number < Word.limit) :
    Takes readCount (count number) number :=
  takes_number fits

theorem takes_word (bits : UInt64) : Takes readWord (word bits) bits := by
  intro rest
  have number : readNumber 8 (LittleEndian.bytes 8 bits.toNat ++ rest) = _ :=
    takes_number bits.toNat_lt rest
  simp [readWord, word, number, Bind.bind, Except.bind, pure, Except.pure]

theorem takes_flag (truth : Bool) : Takes readFlag (flag truth) truth := by
  intro rest
  cases truth <;> rfl

theorem takes_text {content : String} (fits : utf8Length content < Word.limit) :
    Takes readText (text content) content := by
  intro rest
  have few : (Utf8.encode content).length < Word.limit := fits
  have counted := takes_count few (Utf8.encode content ++ rest)
  simp [readText, text, counted, Utf8.decode_encode, Bind.bind, Except.bind, pure, Except.pure]

theorem takes_bytes {content : Bytes} (fits : content.length < Word.limit) :
    Takes readBytes (count content.length ++ content) content := by
  intro rest
  have counted := takes_count fits (content ++ rest)
  simp [readBytes, counted, Bind.bind, Except.bind, pure, Except.pure]

/-! ## Sequences -/

variable {read : Reader Item} {bytesOf : Item → Bytes} {items : List Item}

theorem takes_many (each : ∀ item ∈ items, Takes read (bytesOf item) item) :
    Takes (readMany read items.length) (items.flatMap bytesOf) items := by
  induction items with
  | nil =>
      intro rest
      rfl
  | cons item items induction =>
      intro rest
      have first := each item List.mem_cons_self (items.flatMap bytesOf ++ rest)
      have later := induction (fun other member => each other (List.mem_cons_of_mem _ member)) rest
      simp [readMany, first, later, Bind.bind, Except.bind, pure, Except.pure]

theorem takes_sequence (few : items.length < Word.limit)
    (each : ∀ item ∈ items, Takes read (bytesOf item) item) :
    Takes (readSequence read) (sequence bytesOf items) items := by
  intro rest
  have counted := takes_count few (items.flatMap bytesOf ++ rest)
  simp [readSequence, sequence, counted, takes_many each rest, Bind.bind, Except.bind]

/-- A count and then that many items. -/
theorem takes_counted {length : Nat} {body : Bytes} (fits : length < Word.limit)
    (taken : Takes (readMany read length) body items) :
    Takes (readSequence read) (count length ++ body) items := by
  intro rest
  have counted := takes_count fits (body ++ rest)
  rw [readSequence, List.append_assoc, counted]
  exact taken rest

/-! ## Tables -/

theorem sequence_map {Other : Type} (bytesOf : Other → Bytes) (change : Item → Other)
    (items : List Item) : sequence (fun item => bytesOf (change item)) items =
      sequence bytesOf (items.map change) := by
  simp [sequence, List.flatMap_map]

theorem takes_words {items : List UInt64} (few : items.length < Word.limit) :
    Takes (readSequence readWord) (sequence word items) items :=
  takes_sequence few fun bits _ => takes_word bits

theorem takes_columnData {data : ColumnData} (countable : data.Countable) :
    Takes readColumnData (columnData data) data := by
  intro rest
  cases data with
  | integers items =>
      have few : (items.map Int64.toUInt64).length < Word.limit := by
        rw [List.length_map]
        exact countable
      have content := takes_words few rest
      rw [columnData, List.append_assoc, readColumnData, sequence_map]
      simp [takes_kind (show 0 < 4 by decide) (by decide) _, content, Bind.bind, Except.bind, pure,
        Except.pure, Function.comp_def]
  | floats items =>
      have few : (items.map Binary64.bits).length < Word.limit := by
        rw [List.length_map]
        exact countable
      have content := takes_words few rest
      rw [columnData, List.append_assoc, readColumnData, sequence_map]
      simp [takes_kind (show 1 < 4 by decide) (by decide) _, content, Bind.bind, Except.bind, pure,
        Except.pure, Function.comp_def]
  | texts items =>
      have content := takes_sequence countable.1
        (fun item member => takes_text (countable.2 item member)) rest
      rw [columnData, List.append_assoc, readColumnData]
      simp [takes_kind (show 2 < 4 by decide) (by decide) _, content, Bind.bind, Except.bind, pure,
        Except.pure]
  | flags items =>
      have content := takes_sequence countable (fun truth _ => takes_flag truth) rest
      rw [columnData, List.append_assoc, readColumnData]
      simp [takes_kind (show 3 < 4 by decide) (by decide) _, content, Bind.bind, Except.bind, pure,
        Except.pure]

theorem takes_column {content : Column} (countable : content.Countable) :
    Takes readColumn (column content) content := by
  intro rest
  have name := takes_text countable.name (columnData content.data ++ rest)
  have data := takes_columnData countable.data rest
  simp [readColumn, column, name, data, Bind.bind, Except.bind, pure, Except.pure]

theorem takes_table {content : Table} (countable : content.Countable) :
    Takes readTable (table content) content := by
  intro rest
  have columns : readSequence readColumn (table content ++ rest) = _ :=
    takes_sequence countable.columns (fun part member => takes_column (countable.each part member))
      rest
  simp [readTable, columns, Bind.bind, Except.bind, pure, Except.pure]

end Codec

/-! ## Whole values -/

namespace Value

open Codec

variable {gather : List (String × Value) → Value}

theorem takes_content {number depth : Nat} {body : Bytes} {value : Value} (known : number < 9)
    (taken : Takes (readContent gather (readWith gather depth) number) body value) :
    Takes (readWith gather (depth + 1)) (kind number ++ body) value := by
  intro rest
  rw [readWith, List.append_assoc, takes_kind known (by decide) (body ++ rest)]
  exact taken rest

mutual

/-- What was encoded reads back, whatever follows it. The induction is on the value; a level of nesting takes
at least a byte, so the depth that is left covers what lies inside. -/
theorem takes_value (value : Value) {bytes : Bytes} {depth : Nat}
    (encoded : value.encode = .ok bytes) (countable : value.Countable)
    (deep : bytes.length ≤ depth) :
    Takes (readWith gather depth) bytes (rebuilt gather value) := by
  have positive := length_encode_pos encoded
  cases depth with
  | zero => omega
  | succ depth =>
      cases value with
      | null =>
          cases encoded
          simp only [rebuilt]
          have taken : Takes (readContent gather (readWith gather depth) 0) [] null := fun _ => rfl
          have whole := takes_content (by decide) taken
          rwa [List.append_nil] at whole
      | flag truth =>
          cases encoded
          simp only [rebuilt]
          have taken := takes_giving (takes_flag truth) flag
          exact takes_content (by decide) taken
      | integer number =>
          cases encoded
          simp only [rebuilt]
          have taken := takes_giving (takes_word number.toUInt64) fun bits => integer bits.toInt64
          rw [Int64.toInt64_toUInt64] at taken
          exact takes_content (by decide) taken
      | float number =>
          cases encoded
          simp only [rebuilt]
          have taken := takes_giving (takes_word number.bits) fun bits => float ⟨bits⟩
          exact takes_content (by decide) taken
      | text content =>
          cases encoded
          simp only [rebuilt, Countable] at countable ⊢
          have taken := takes_giving (takes_text countable) text
          exact takes_content (by decide) taken
      | bytes content =>
          cases encoded
          simp only [rebuilt, Countable] at countable ⊢
          have taken := takes_giving (takes_bytes countable) bytes
          rw [List.append_assoc]
          exact takes_content (by decide) taken
      | list items =>
          obtain ⟨body, inner, rfl⟩ := encode_list encoded
          simp only [rebuilt, Countable] at countable ⊢
          simp only [List.length_append, length_kind, count, LittleEndian.length_bytes] at deep
          have each := takes_items items inner countable.2 (show body.length ≤ depth by omega)
          have taken := takes_giving (takes_counted countable.1 each) list
          exact takes_content (by decide) taken
      | map fields =>
          obtain ⟨body, inner, rfl⟩ := encode_map encoded
          simp only [rebuilt, Countable] at countable ⊢
          simp only [List.length_append, length_kind, count, LittleEndian.length_bytes] at deep
          have each := takes_fields fields inner countable.2 (show body.length ≤ depth by omega)
          have taken := takes_giving (takes_counted countable.1 each) gather
          exact takes_content (by decide) taken
      | table content =>
          cases encoded
          simp only [rebuilt, Countable] at countable ⊢
          have taken := takes_giving (takes_table countable) table
          exact takes_content (by decide) taken
      | live handle => cases encoded

theorem takes_items (items : List Value) {bytes : Bytes} {depth : Nat}
    (encoded : encodeItems items = .ok bytes) (countable : CountableItems items)
    (deep : bytes.length ≤ depth) :
    Takes (readMany (readWith gather depth) items.length) bytes (rebuiltItems gather items) := by
  intro rest
  cases items with
  | nil =>
      cases encoded
      rfl
  | cons item items =>
      obtain ⟨first, others, one, more, rfl⟩ := encodeItems_cons encoded
      rw [List.length_append] at deep
      have head := takes_value item one countable.1 (show first.length ≤ depth by omega)
      have tail := takes_items items more countable.2 (show others.length ≤ depth by omega)
      simp [readMany, rebuiltItems, head (others ++ rest), tail rest, Bind.bind, Except.bind, pure,
        Except.pure]

theorem takes_fields (fields : List (String × Value)) {bytes : Bytes} {depth : Nat}
    (encoded : encodeFields fields = .ok bytes) (countable : CountableFields fields)
    (deep : bytes.length ≤ depth) :
    Takes (readMany (readField (readWith gather depth)) fields.length) bytes
      (rebuiltFields gather fields) := by
  intro rest
  cases fields with
  | nil =>
      cases encoded
      rfl
  | cons field fields =>
      obtain ⟨name, value⟩ := field
      obtain ⟨first, others, one, more, rfl⟩ := encodeFields_cons encoded
      rw [List.length_append, List.length_append] at deep
      have named := takes_text countable.1
      have head := takes_value value one countable.2.1 (show first.length ≤ depth by omega)
      have tail := takes_fields fields more countable.2.2 (show others.length ≤ depth by omega)
      simp [readMany, readField, rebuiltFields, named (first ++ (others ++ rest)),
        head (others ++ rest), tail rest, Bind.bind, Except.bind, pure, Except.pure]

end

/-! ## The round trip -/

/-- What was encoded is read as the same value, and what follows it is left. -/
theorem read_encode {value : Value} {bytes : Bytes} (encoded : value.encode = .ok bytes)
    (wellFormed : value.WellFormed) (rest : Bytes) : read (bytes ++ rest) = .ok (value, rest) := by
  have deep : bytes.length ≤ (bytes ++ rest).length := by
    rw [List.length_append]
    omega
  have taken : readWith mapOfFields (bytes ++ rest).length (bytes ++ rest) = _ :=
    takes_value value encoded wellFormed.countable deep rest
  rwa [rebuilt_ordered value wellFormed.ordered, ← readValue_eq] at taken

/-- What was encoded is decoded to the same value, whatever follows it. -/
theorem decode_encode {value : Value} {bytes : Bytes} (encoded : value.encode = .ok bytes)
    (wellFormed : value.WellFormed) (rest : Bytes) : decode (bytes ++ rest) = .ok value := by
  rw [decode, read_encode encoded wellFormed rest]

/-- A value can be encoded exactly when no live handle occurs in it, and exactly then it has a size. The size is
the length of the encoding, and whatever follows the encoding, the same value is decoded, a float bit by bit. -/
theorem encode_roundTrips (value : Value) :
    (value.isSerializable = true ↔ ∃ bytes, value.encode = .ok bytes) ∧
      ((∃ bytes, value.encode = .ok bytes) ↔ ∃ size, value.encodedSize = .ok size) ∧
      ∀ bytes, value.encode = .ok bytes →
        value.encodedSize = .ok bytes.length ∧
          (value.WellFormed → ∀ rest, decode (bytes ++ rest) = .ok value) := by
  refine ⟨(encode_ok_iff value).symm, ?_, ?_⟩
  · constructor
    · intro ⟨written, encoded⟩
      exact ⟨_, encodedSize_of_encode encoded⟩
    · intro ⟨size, sized⟩
      obtain ⟨written, encoded, -⟩ := encode_of_encodedSize sized
      exact ⟨written, encoded⟩
  · intro written encoded
    exact ⟨encodedSize_of_encode encoded, decode_encode encoded⟩

/-- A map in a list, with a NaN and a table of all four kinds of columns. -/
def nested : Value :=
  list [map [("a", float ⟨0x7FF8000000000001⟩),
    ("b", table ⟨[⟨"i", .integers [-1]⟩, ⟨"f", .floats [⟨0xFFF0000000000002⟩]⟩, ⟨"t", .texts ["é"]⟩,
      ⟨"b", .flags [true]⟩]⟩)], bytes [0, 255], null]

theorem nested_wellFormed : nested.WellFormed := by
  constructor
  · simp [nested, Ordered, OrderedItems, OrderedFields, FieldsInOrder]
    decide
  · have table : Table.Countable ⟨[⟨"i", .integers [-1]⟩, ⟨"f", .floats [⟨0xFFF0000000000002⟩]⟩,
        ⟨"t", .texts ["é"]⟩, ⟨"b", .flags [true]⟩]⟩ := by
      apply Table.countable_of_fits
      decide
    simp [nested, Countable, CountableItems, CountableFields, table]
    decide

theorem encode_roundTrips_nested : ∃ written, nested.encode = .ok written ∧
    nested.encodedSize = .ok written.length ∧ decode (written ++ [7]) = .ok nested := by
  obtain ⟨serializable, -, back⟩ := encode_roundTrips nested
  obtain ⟨written, encoded⟩ := serializable.mp rfl
  obtain ⟨sized, decoded⟩ := back written encoded
  exact ⟨written, encoded, sized, decoded nested_wellFormed [7]⟩

end Value

end TierVault
