import TierVault.Proofs.Store.Payload
import TierVault.Proofs.Stream.Supply
import TierVault.Proofs.Value.Canonical

/-!
Where tables come from.

Columns make a table exactly when they are regular: of one length, and of names that are pairwise distinct. A regular
table can be sliced anywhere, and its slices are regular, so all tables are that go back to columns which were
checked, be it through files, streams, or encodings of values. Decoding bytes that nobody has encoded checks nothing:
any table may come out of it, and a slice of such a table stops where a column has too few rows.
-/

namespace TierVault

/-! ## Checked columns -/

namespace Table

variable {table part : Table} {columns : List Column}

theorem of_check {expected : Nat} {seen : List String}
    (checked : check expected seen columns = .ok ()) :
    (∀ column ∈ columns, column.data.length = expected) ∧ (columns.map Column.name).Nodup ∧
      ∀ column ∈ columns, column.name ∉ seen := by
  induction columns generalizing seen with
  | nil => exact ⟨fun _ member => (nomatch member), .nil, fun _ member => nomatch member⟩
  | cons column rest induction =>
      rw [check] at checked
      split at checked
      · cases checked
      · rename_i same
        split at checked
        · cases checked
        · rename_i fresh
          obtain ⟨lengths, names, apart⟩ := induction checked
          refine ⟨List.forall_mem_cons.mpr ⟨Decidable.not_not.mp same, lengths⟩, ?_, ?_⟩
          · refine List.nodup_cons.mpr ⟨fun again => ?_, names⟩
            obtain ⟨other, member, equal⟩ := List.mem_map.mp again
            exact apart other member (equal ▸ List.mem_cons_self)
          · refine List.forall_mem_cons.mpr ⟨fresh, fun other member known => ?_⟩
            exact apart other member (List.mem_cons_of_mem _ known)

/-- Columns make a table exactly when they are regular, and the table then has these columns. -/
theorem ofColumns_eq_ok_iff : ofColumns columns = .ok table ↔ table = ⟨columns⟩ ∧ Regular ⟨columns⟩ := by
  constructor
  · intro made
    cases columns with
    | nil =>
        cases made
        exact ⟨rfl, fun _ member => (nomatch member), .nil⟩
    | cons first rest =>
        obtain ⟨checked, ran, told⟩ := Codec.of_bind_ok made
        cases told
        obtain ⟨lengths, names, -⟩ := of_check ran
        exact ⟨rfl, fun left leftIn right rightIn => (lengths left leftIn).trans (lengths right rightIn).symm,
          names⟩
  · rintro ⟨rfl, regular⟩
    exact regular.ofColumns_eq

end Table

/-! ## Slices -/

section

variable {start stop : Nat}

theorem checkedSlice_eq_ok_iff {Item : Type} {items part : List Item} :
    checkedSlice items start stop = .ok part ↔
      start ≤ items.length ∧ stop ≤ items.length ∧ part = (items.drop start).take (stop - start) := by
  unfold checkedSlice
  split
  · exact ⟨fun told => (nomatch told), fun told => by omega⟩
  · split
    · exact ⟨fun told => (nomatch told), fun told => by omega⟩
    · constructor
      · intro told
        cases told
        exact ⟨by omega, by omega, rfl⟩
      · rintro ⟨-, -, rfl⟩
        rfl

/-- The items from `start` up to `stop`, as far as they are there. -/
def ColumnData.rows (data : ColumnData) (start stop : Nat) : ColumnData :=
  match data with
  | .integers items => .integers ((items.drop start).take (stop - start))
  | .floats items => .floats ((items.drop start).take (stop - start))
  | .texts items => .texts ((items.drop start).take (stop - start))
  | .flags items => .flags ((items.drop start).take (stop - start))

/-- A column that has enough rows is sliced. -/
theorem ColumnData.slice_of_le {data : ColumnData} (begins : start ≤ data.length)
    (ends : stop ≤ data.length) : data.slice start stop = .ok (data.rows start stop) := by
  cases data with
  | integers items | floats items | texts items | flags items =>
      have told := checkedSlice_eq_ok_iff.mpr ⟨begins, ends, rfl⟩
      rw [slice, told]
      rfl

/-- Only a column that has enough rows is sliced. -/
theorem ColumnData.le_of_slice {data part : ColumnData} (cut : data.slice start stop = .ok part) :
    start ≤ data.length ∧ stop ≤ data.length ∧
      part.length = min (stop - start) (data.length - start) := by
  cases data with
  | integers items | floats items | texts items | flags items =>
      obtain ⟨rows, told, made⟩ := Codec.of_bind_ok cut
      cases made
      obtain ⟨begins, ends, rfl⟩ := checkedSlice_eq_ok_iff.mp told
      refine ⟨begins, ends, ?_⟩
      simp only [length, List.length_take, List.length_drop]

end

namespace Table

variable {table part : Table} {offset count : Nat}

/-- The first row of a slice. -/
def sliceStart (table : Table) (offset : Nat) : Nat := min offset table.rowCount

/-- The row after the last one of a slice. -/
def sliceStop (table : Table) (offset count : Nat) : Nat :=
  min (Word.saturatingSum offset count) table.rowCount

theorem cutColumn_eq_ok_iff {start stop : Nat} {column cut : Column} :
    (do return { column with data := ← column.data.slice start stop } : Except Fault Column) = .ok cut ↔
      cut.name = column.name ∧ column.data.slice start stop = .ok cut.data := by
  cases told : column.data.slice start stop with
  | error fault => exact ⟨fun made => (nomatch made), fun made => nomatch made.2⟩
  | ok data =>
      constructor
      · intro made
        cases made
        exact ⟨rfl, rfl⟩
      · rintro ⟨named, same⟩
        cases same
        cases cut
        cases named
        rfl

theorem of_cutColumns {start stop : Nat} {columns parts : List Column}
    (cut : (columns.mapM fun column =>
      (do return { column with data := ← column.data.slice start stop } : Except Fault Column)) =
        .ok parts) :
    parts.map Column.name = columns.map Column.name ∧
      (∀ column ∈ columns, start ≤ column.data.length ∧ stop ≤ column.data.length) ∧
      ∀ part ∈ parts, ∃ column ∈ columns,
        part.data.length = min (stop - start) (column.data.length - start) := by
  induction columns generalizing parts with
  | nil =>
      cases cut
      exact ⟨rfl, fun _ member => (nomatch member), fun _ member => nomatch member⟩
  | cons column rest induction =>
      rw [List.mapM_cons] at cut
      obtain ⟨first, one, onward⟩ := Codec.of_bind_ok cut
      obtain ⟨others, more, made⟩ := Codec.of_bind_ok onward
      cases made
      obtain ⟨named, sliced⟩ := cutColumn_eq_ok_iff.mp one
      obtain ⟨begins, ends, rows⟩ := ColumnData.le_of_slice sliced
      obtain ⟨names, enough, lengths⟩ := induction more
      refine ⟨?_, List.forall_mem_cons.mpr ⟨⟨begins, ends⟩, enough⟩, List.forall_mem_cons.mpr ⟨?_, ?_⟩⟩
      · rw [List.map_cons, List.map_cons, named, names]
      · exact ⟨column, List.mem_cons_self, rows⟩
      · intro part member
        obtain ⟨whole, inside, length⟩ := lengths part member
        exact ⟨whole, List.mem_cons_of_mem _ inside, length⟩

/-- The rows from `start` up to `stop`, as far as they are there. -/
def rows (table : Table) (start stop : Nat) : Table :=
  ⟨table.columns.map fun column => { column with data := column.data.rows start stop }⟩

theorem cutColumns_of_le {start stop : Nat} {columns : List Column}
    (enough : ∀ column ∈ columns, start ≤ column.data.length ∧ stop ≤ column.data.length) :
    (columns.mapM fun column =>
      (do return { column with data := ← column.data.slice start stop } : Except Fault Column)) =
        .ok (columns.map fun column => { column with data := column.data.rows start stop }) := by
  induction columns with
  | nil => rfl
  | cons column rest induction =>
      obtain ⟨begins, ends⟩ := enough column List.mem_cons_self
      have more := induction fun other member => enough other (List.mem_cons_of_mem _ member)
      rw [List.mapM_cons, more, ColumnData.slice_of_le begins ends]
      rfl

/-- A table whose columns have enough rows is sliced. -/
theorem slice_of_le (enough : ∀ column ∈ table.columns,
      table.sliceStart offset ≤ column.data.length ∧ table.sliceStop offset count ≤ column.data.length) :
    table.slice offset count = .ok (table.rows (table.sliceStart offset) (table.sliceStop offset count)) := by
  have made := cutColumns_of_le enough
  unfold sliceStart sliceStop at made
  unfold slice
  simp only [made]
  rfl

/-- A table is sliced exactly where all of its columns have the rows that the first one promises. -/
theorem slice_ok_iff : (∃ part, table.slice offset count = .ok part) ↔
    ∀ column ∈ table.columns, table.sliceStart offset ≤ column.data.length ∧
      table.sliceStop offset count ≤ column.data.length := by
  constructor
  · intro ⟨part, cut⟩
    obtain ⟨parts, made, -⟩ := Codec.of_bind_ok cut
    exact (of_cutColumns made).2.1
  · intro enough
    exact ⟨_, slice_of_le enough⟩

theorem Regular.length_eq (regular : table.Regular) {column : Column}
    (member : column ∈ table.columns) : column.data.length = table.rowCount := by
  obtain ⟨columns⟩ := table
  cases columns with
  | nil => cases member
  | cons first rest => exact regular.1 column member first List.mem_cons_self

theorem Regular.slice_eq_rows (regular : table.Regular) (offset count : Nat) :
    table.slice offset count = .ok (table.rows (table.sliceStart offset) (table.sliceStop offset count)) := by
  apply slice_of_le
  intro column member
  rw [regular.length_eq member]
  exact ⟨Nat.min_le_right _ _, Nat.min_le_right _ _⟩

/-- A regular table can be sliced anywhere. -/
theorem Regular.slice_ok (regular : table.Regular) (offset count : Nat) :
    ∃ part, table.slice offset count = .ok part :=
  ⟨_, regular.slice_eq_rows offset count⟩

/-- A slice of a regular table is regular. -/
theorem Regular.slice (regular : table.Regular) (cut : table.slice offset count = .ok part) :
    part.Regular := by
  obtain ⟨parts, made, told⟩ := Codec.of_bind_ok cut
  cases told
  obtain ⟨names, -, lengths⟩ := of_cutColumns made
  constructor
  · intro left leftIn right rightIn
    obtain ⟨whole, member, leftRows⟩ := lengths left leftIn
    obtain ⟨other, otherMember, rightRows⟩ := lengths right rightIn
    rw [leftRows, rightRows, regular.1 whole member other otherMember]
  · rw [names]
    exact regular.2

end Table

/-! ## Tables inside decoded values -/

namespace Value

open Codec

variable {content : Table}

theorem countableItems_iff (items : List Value) :
    CountableItems items ↔ ∀ item ∈ items, item.Countable := by
  induction items with
  | nil => exact ⟨fun _ _ member => (nomatch member), fun _ => trivial⟩
  | cons item items induction => rw [CountableItems, induction, List.forall_mem_cons]

theorem Countable.within {part value : Value} (inside : Within part value)
    (countable : value.Countable) : part.Countable := by
  induction inside with
  | whole => exact countable
  | item member _ induction => exact induction ((countableItems_iff _).mp countable.2 _ member)
  | field member _ induction => exact induction ((countableFields_iff _).mp countable.2 _ member).2

theorem encode_of_mem_items {items : List Value} {item : Value} (member : item ∈ items) {bytes : Bytes}
    (encoded : encodeItems items = .ok bytes) : ∃ part, item.encode = .ok part ∧ part <:+: bytes := by
  induction items generalizing bytes with
  | nil => cases member
  | cons other items induction =>
      obtain ⟨first, others, one, more, rfl⟩ := encodeItems_cons encoded
      rcases List.mem_cons.mp member with rfl | later
      · exact ⟨first, one, (List.prefix_append _ _).isInfix⟩
      · obtain ⟨part, told, stands⟩ := induction later more
        exact ⟨part, told, stands.trans (List.suffix_append _ _).isInfix⟩

theorem encode_of_mem_fields {fields : List (String × Value)} {field : String × Value}
    (member : field ∈ fields) {bytes : Bytes} (encoded : encodeFields fields = .ok bytes) :
    ∃ part, field.2.encode = .ok part ∧ part <:+: bytes := by
  induction fields generalizing bytes with
  | nil => cases member
  | cons other fields induction =>
      obtain ⟨first, others, one, more, rfl⟩ := encodeFields_cons encoded
      have behind : first ++ others <:+: Codec.text other.1 ++ (first ++ others) :=
        (List.suffix_append _ _).isInfix
      rcases List.mem_cons.mp member with rfl | later
      · exact ⟨first, one, (List.prefix_append _ _).isInfix.trans behind⟩
      · obtain ⟨part, told, stands⟩ := induction later more
        exact ⟨part, told, (stands.trans (List.suffix_append _ _).isInfix).trans behind⟩

/-- The encoding of a part stands in the encoding of the whole. -/
theorem Within.encode {part value : Value} (inside : Within part value) {bytes : Bytes}
    (encoded : value.encode = .ok bytes) : ∃ stands, part.encode = .ok stands ∧ stands <:+: bytes := by
  induction inside generalizing bytes with
  | whole => exact ⟨bytes, encoded, List.infix_rfl⟩
  | item member _ induction =>
      obtain ⟨body, inner, rfl⟩ := encode_list encoded
      obtain ⟨one, told, stands⟩ := encode_of_mem_items member inner
      obtain ⟨least, given, within⟩ := induction told
      refine ⟨least, given, (within.trans stands).trans ?_⟩
      rw [← List.append_assoc]
      exact (List.suffix_append _ _).isInfix
  | field member _ induction =>
      obtain ⟨body, inner, rfl⟩ := encode_map encoded
      obtain ⟨one, told, stands⟩ := encode_of_mem_fields member inner
      obtain ⟨least, given, within⟩ := induction told
      refine ⟨least, given, (within.trans stands).trans ?_⟩
      rw [← List.append_assoc]
      exact (List.suffix_append _ _).isInfix

mutual

/-- Maps made anew bring no table that was not there. -/
theorem within_of_rebuilt (value : Value)
    (inside : Within (table content) (value.rebuilt mapOfFields)) : Within (table content) value := by
  cases value with
  | list items =>
      rw [rebuilt] at inside
      cases inside with
      | item member inside =>
          obtain ⟨item, there, within⟩ := within_of_rebuiltItems items member inside
          exact .item there within
  | map fields =>
      rw [rebuilt, mapOfFields_eq_gathered] at inside
      cases inside with
      | field member inside =>
          obtain ⟨field, there, within⟩ :=
            within_of_rebuiltFields fields (mem_of_mem_gathered _ _ member) inside
          exact .field there within
  | _ => simpa only [rebuilt] using inside

theorem within_of_rebuiltItems (items : List Value) {item : Value}
    (member : item ∈ rebuiltItems mapOfFields items) (inside : Within (table content) item) :
    ∃ other ∈ items, Within (table content) other := by
  cases items with
  | nil => cases member
  | cons first items =>
      rcases List.mem_cons.mp member with rfl | later
      · exact ⟨first, List.mem_cons_self, within_of_rebuilt first inside⟩
      · obtain ⟨other, there, within⟩ := within_of_rebuiltItems items later inside
        exact ⟨other, List.mem_cons_of_mem _ there, within⟩

theorem within_of_rebuiltFields (fields : List (String × Value)) {field : String × Value}
    (member : field ∈ rebuiltFields mapOfFields fields) (inside : Within (table content) field.2) :
    ∃ other ∈ fields, Within (table content) other.2 := by
  cases fields with
  | nil => cases member
  | cons first fields =>
      rcases List.mem_cons.mp member with rfl | later
      · exact ⟨first, List.mem_cons_self, within_of_rebuilt first.2 inside⟩
      · obtain ⟨other, there, within⟩ := within_of_rebuiltFields fields later inside
        exact ⟨other, List.mem_cons_of_mem _ there, within⟩

end

/-- A table inside a decoded value stands in the input. -/
theorem table_of_decode {input : Bytes} {value : Value} (accepted : decode input = .ok value)
    (inside : Within (table content) value) :
    content.Countable ∧ kind 8 ++ Codec.table content <:+: input := by
  obtain ⟨rest, ran⟩ := read_of_decode accepted
  rw [read, readValue_eq] at ran
  obtain ⟨taken, rfl, written, countable, encoded, rfl⟩ := accepts_value _ _ _ _ ran
  have there := within_of_rebuilt written inside
  obtain ⟨bytes, told, stands⟩ := there.encode encoded
  cases told
  exact ⟨countable.within there, stands.trans (List.prefix_append _ _).isInfix⟩

/-- Any table whose lengths are words is decoded from its encoding. -/
theorem decode_table (countable : content.Countable) :
    decode (kind 8 ++ Codec.table content) = .ok (table content) := by
  have wellFormed : (table content).WellFormed := ⟨trivial, countable⟩
  have decoded := @decode_encode (table content) _ rfl wellFormed []
  rwa [List.append_nil] at decoded

end Value

/-! ## All tables -/

namespace Table

open Value (Within)

/-- The tables that go back to columns which were checked. -/
inductive Produced : Table → Prop
  | empty : Produced empty
  | checked {columns : List Column} {table : Table} (made : ofColumns columns = .ok table) :
      Produced table
  | sliced {table part : Table} {offset count : Nat} (whole : Produced table)
      (cut : table.slice offset count = .ok part) : Produced part
  /-- Any pull of the stream of a table. -/
  | streamed {table part : Table} {chunkRows : Nat}
      {core after : (Stream.ofTable table chunkRows).source.Core} {before cancelled : Bool}
      (whole : Produced table)
      (pulled : (Stream.ofTable table chunkRows).source.pull core before =
        .ok (some part, after) cancelled) : Produced part
  | filed {file : Columnar.File} {table : Table} (told : Columnar.read file = .ok table) :
      Produced table
  /-- Inside what is decoded from the encoding of a value whose tables are such. -/
  | decoded {value again : Value} {bytes rest : Bytes} {table : Table} (wellFormed : value.WellFormed)
      (each : ∀ content, Within (.table content) value → Produced content)
      (encoded : value.encode = .ok bytes) (accepted : Value.decode (bytes ++ rest) = .ok again)
      (inside : Within (.table table) again) : Produced table

theorem slice_of_pull {table part : Table} {chunkRows : Nat}
    {core after : (Stream.ofTable table chunkRows).source.Core} {before cancelled : Bool}
    (pulled : (Stream.ofTable table chunkRows).source.pull core before =
      .ok (some part, after) cancelled) : ∃ offset count, table.slice offset count = .ok part := by
  obtain ⟨-, slice, cut, told⟩ | ⟨-, told⟩ := Source.of_numbered pulled
  · cases told
    exact ⟨_, _, cut⟩
  · cases told

theorem Produced.regular {table : Table} (produced : Produced table) : table.Regular := by
  induction produced with
  | empty => exact (ofColumns_eq_ok_iff.mp (rfl : ofColumns [] = .ok .empty)).2
  | checked made =>
      obtain ⟨rfl, regular⟩ := ofColumns_eq_ok_iff.mp made
      exact regular
  | sliced _ cut regular => exact regular.slice cut
  | streamed _ pulled regular =>
      obtain ⟨offset, count, cut⟩ := slice_of_pull pulled
      exact regular.slice cut
  | @filed file table told =>
      unfold Columnar.read at told
      split at told
      · rename_i made
        cases told
        obtain ⟨rfl, regular⟩ := ofColumns_eq_ok_iff.mp made
        exact regular
      · cases told
  | decoded wellFormed _ encoded accepted inside regular =>
      rw [Value.decode_encode encoded wellFormed] at accepted
      cases accepted
      exact regular _ inside

/-- Columns make a table exactly when they are regular. A table that goes back to checked columns is regular, and so
it can be sliced anywhere into such tables. Any table whose lengths are words, and no other, is decoded from some bytes.
A table is sliced exactly where each of its columns has the rows that the first one promises. -/
theorem regular_of_produced (table : Table) :
    (∀ columns : List Column, ofColumns columns = .ok table ↔ table = ⟨columns⟩ ∧ Regular ⟨columns⟩) ∧
      (Produced table → table.Regular ∧
        ∀ offset count, ∃ part, table.slice offset count = .ok part ∧ Produced part) ∧
      ((∃ input value, Value.decode input = .ok value ∧ Within (.table table) value) ↔ table.Countable) ∧
      ∀ offset count : Nat, (∃ part, table.slice offset count = .ok part) ↔
        ∀ column ∈ table.columns, table.sliceStart offset ≤ column.data.length ∧
          table.sliceStop offset count ≤ column.data.length := by
  refine ⟨fun _ => ofColumns_eq_ok_iff, ?_, ?_, fun _ _ => slice_ok_iff⟩
  · intro produced
    refine ⟨produced.regular, fun offset count => ?_⟩
    obtain ⟨part, cut⟩ := produced.regular.slice_ok offset count
    exact ⟨part, cut, produced.sliced cut⟩
  · constructor
    · intro ⟨input, value, accepted, inside⟩
      exact (Value.table_of_decode accepted inside).1
    · intro countable
      exact ⟨_, _, Value.decode_table countable, .whole _⟩

/-- Two columns of three rows. -/
def even : Table := ⟨[⟨"a", .integers [1, 2, 3]⟩, ⟨"b", .flags [true, false, true]⟩]⟩

theorem even_countable : even.Countable := by
  apply countable_of_fits
  decide

/-- A table that was encoded and decoded, and the longest slice of it from the second row on. -/
theorem regular_of_produced_decoded :
    Value.decode (Codec.kind 8 ++ Codec.table even) = .ok (.table even) ∧ Produced even ∧ even.Regular ∧
      ∃ part, even.slice 1 Word.maximum = .ok part ∧ Produced part := by
  have checked : Produced even := .checked (rfl : ofColumns even.columns = .ok even)
  have wellFormed : (Value.table even).WellFormed := ⟨trivial, even_countable⟩
  have each (content : Table) (inside : Within (.table content) (.table even)) : Produced content := by
    cases inside
    exact checked
  have decoded := @Value.decode_encode (.table even) _ rfl wellFormed []
  have again : Produced even := .decoded wellFormed each rfl decoded (.whole _)
  obtain ⟨-, produced, -⟩ := regular_of_produced even
  obtain ⟨regular, slices⟩ := produced again
  exact ⟨Value.decode_table even_countable, again, regular, slices 1 Word.maximum⟩

/-- A column of two rows beside one of a single row. -/
def ragged : Table := ⟨[⟨"a", .integers [1, 2]⟩, ⟨"b", .flags [true]⟩]⟩

/-- Two columns of one name. -/
def namesakes : Table := ⟨[⟨"a", .integers [1]⟩, ⟨"a", .flags [true]⟩]⟩

/-- Both are decoded, and neither is regular; a slice of the first one stops with a fault. -/
theorem irregular_decoded :
    Value.decode (Codec.kind 8 ++ Codec.table ragged) = .ok (.table ragged) ∧ ¬ragged.Regular ∧
      ragged.slice 0 2 = .error (.sliceEnd 2 1) ∧
      Value.decode (Codec.kind 8 ++ Codec.table namesakes) = .ok (.table namesakes) ∧
      ¬namesakes.Regular := by
  refine ⟨rfl, fun regular => ?_, rfl, rfl, fun regular => ?_⟩
  · have same := regular.1 _ List.mem_cons_self _ (List.mem_cons_of_mem _ List.mem_cons_self)
    exact absurd same (by decide)
  · exact absurd regular.2 (by decide)

end Table

end TierVault
