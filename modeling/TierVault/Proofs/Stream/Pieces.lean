import TierVault.Proofs.Stream.Lines
import TierVault.Proofs.Tables

/-!
Files in chunks and tables in slices.

What a stream cuts a file or a table into is the whole again when it is put together: chunks as bytes, slices as
columns of the same names and types. All pieces but the last one are full, none is empty, and the total of the stream
is their number.
-/

namespace TierVault

variable {Item : Type}

/-! ## Lengths of pieces -/

/-- All pieces but the last one are full, and none is empty. -/
structure EvenPieces (size : Nat) (lengths : List Nat) : Prop where
  full : ∀ length ∈ lengths.dropLast, length = size
  filled : ∀ length ∈ lengths, 0 < length ∧ length ≤ size

/-- The lengths of the pieces that `total` items are cut into. -/
def pieceLengths (size total : Nat) : List Nat :=
  (List.range (groupCount total size)).map fun index => min size (total - index * size)

section

variable {size total index : Nat}

theorem lt_groupCount_iff (positive : 0 < size) : index < groupCount total size ↔ index * size < total := by
  unfold groupCount
  rw [Nat.lt_iff_add_one_le, Nat.le_div_iff_mul_le positive, Nat.succ_mul]
  omega

theorem even_pieceLengths (positive : 0 < size) : EvenPieces size (pieceLengths size total) where
  full := by
    intro length member
    rw [pieceLengths, ← List.map_dropLast] at member
    obtain ⟨index, inside, rfl⟩ := List.mem_map.mp member
    cases count : groupCount total size with
    | zero =>
        rw [count] at inside
        cases inside
    | succ before =>
        rw [count, List.range_succ, List.dropLast_concat, List.mem_range] at inside
        have more : (index + 1) * size < total := (lt_groupCount_iff positive).mp (by omega)
        rw [Nat.succ_mul] at more
        omega
  filled := by
    intro length member
    obtain ⟨index, inside, rfl⟩ := List.mem_map.mp member
    have more := (lt_groupCount_iff positive).mp (List.mem_range.mp inside)
    omega

theorem lengths_batchesOf (items : List Item) :
    (batchesOf size items).map List.length = pieceLengths size items.length := by
  simp only [batchesOf, slices, pieceLengths, List.map_map]
  apply List.map_congr_left
  intro index _
  simp only [Function.comp_apply, List.length_take, List.length_drop]

end

/-! ## Rows of tables -/

namespace ColumnData

variable {start middle stop : Nat}

/-- The items of both, if they are of one type. -/
def append? : ColumnData → ColumnData → Option ColumnData
  | integers first, integers second => some (integers (first ++ second))
  | floats first, floats second => some (floats (first ++ second))
  | texts first, texts second => some (texts (first ++ second))
  | flags first, flags second => some (flags (first ++ second))
  | _, _ => none

theorem length_rows (data : ColumnData) :
    (data.rows start stop).length = min (stop - start) (data.length - start) := by
  cases data with
  | integers items | floats items | texts items | flags items =>
      simp only [rows, length, List.length_take, List.length_drop]

theorem rows_whole (data : ColumnData) : data.rows 0 data.length = data := by
  cases data with
  | integers items | floats items | texts items | flags items =>
      simp only [rows, length, List.drop_zero, Nat.sub_zero, List.take_length]

theorem append_parts (items : List Item) (first : start ≤ middle) (second : middle ≤ stop) :
    (items.drop start).take (middle - start) ++ (items.drop middle).take (stop - middle) =
      (items.drop start).take (stop - start) := by
  have span : stop - start = middle - start + (stop - middle) := by omega
  have reach : start + (middle - start) = middle := by omega
  rw [span, List.take_add, List.drop_drop, reach]

theorem append?_rows (data : ColumnData) (first : start ≤ middle) (second : middle ≤ stop) :
    (data.rows start middle).append? (data.rows middle stop) = some (data.rows start stop) := by
  cases data with
  | integers items | floats items | texts items | flags items =>
      simp only [rows, append?, append_parts items first second]

end ColumnData

namespace Table

/-- The column of both, if they have one name and one type. -/
def appendColumn? (first second : Column) : Option Column :=
  if first.name = second.name then
    (first.data.append? second.data).map fun data => { first with data := data }
  else none

/-- Columns of the same names and types in the same order, each below the one above. -/
def appendColumns? : List Column → List Column → Option (List Column)
  | [], [] => some []
  | first :: above, second :: below => do
    let column ← appendColumn? first second
    return column :: (← appendColumns? above below)
  | _, _ => none

def append? (above below : Table) : Option Table :=
  (appendColumns? above.columns below.columns).map Table.mk

/-- All tables as one, the rows of the first one first. -/
def stacked? : List Table → Option Table
  | [] => none
  | [table] => some table
  | table :: next :: rest => do table.append? (← stacked? (next :: rest))

variable {table : Table} {start middle stop size : Nat}

theorem stacked?_cons {below : Table} {rest : List Table} (stacked : stacked? rest = some below) :
    stacked? (table :: rest) = table.append? below := by
  cases rest with
  | nil => cases stacked
  | cons next rest =>
      rw [stacked?, stacked]
      rfl

theorem append?_rows (table : Table) (first : start ≤ middle) (second : middle ≤ stop) :
    (table.rows start middle).append? (table.rows middle stop) = some (table.rows start stop) := by
  obtain ⟨columns⟩ := table
  unfold append? rows
  suffices columnwise : ∀ columns : List Column,
      appendColumns? (columns.map fun column => { column with data := column.data.rows start middle })
        (columns.map fun column => { column with data := column.data.rows middle stop }) =
      some (columns.map fun column => { column with data := column.data.rows start stop }) by
    rw [columnwise, Option.map_some]
  intro columns
  induction columns with
  | nil => rfl
  | cons column rest induction =>
      have headed : appendColumn? { column with data := column.data.rows start middle }
          { column with data := column.data.rows middle stop } =
          some { column with data := column.data.rows start stop } := by
        rw [appendColumn?, if_pos rfl, ColumnData.append?_rows _ first second]
        rfl
      rw [List.map_cons, List.map_cons, appendColumns?, headed, induction]
      rfl

theorem Regular.rows_whole (regular : table.Regular) : table.rows 0 table.rowCount = table := by
  unfold rows
  have same : ∀ column ∈ table.columns, { column with data := column.data.rows 0 table.rowCount } = column := by
    intro column member
    rw [← regular.length_eq member, ColumnData.rows_whole]
  rw [List.map_congr_left same, List.map_id']

theorem rowCount_rows (ends : stop ≤ table.rowCount) : (table.rows start stop).rowCount = stop - start := by
  obtain ⟨columns⟩ := table
  cases columns with
  | nil =>
      have none : stop = 0 := Nat.le_zero.mp ends
      rw [none, Nat.zero_sub]
      rfl
  | cons first rest =>
      have within : stop ≤ first.data.length := ends
      change (first.data.rows start stop).length = stop - start
      rw [ColumnData.length_rows]
      omega

/-- Rows of equal number from a row on to the last one, stacked. -/
theorem stacked?_rows (positive : 0 < size) (more : start < table.rowCount) :
    stacked? ((List.range (groupCount (table.rowCount - start) size)).map fun index =>
      table.rows (start + index * size) (min (start + index * size + size) table.rowCount)) =
        some (table.rows start table.rowCount) := by
  generalize count_eq : groupCount (table.rowCount - start) size = count
  induction count generalizing start with
  | zero =>
      rw [groupCount_step positive (Nat.sub_pos_of_lt more)] at count_eq
      cases count_eq
  | succ count induction =>
      rw [groupCount_step positive (Nat.sub_pos_of_lt more), Nat.sub_sub] at count_eq
      have others := Nat.succ.inj count_eq
      have shifted (index : Nat) : start + (index + 1) * size = start + size + index * size := by
        rw [Nat.succ_mul]
        omega
      rw [List.range_succ_eq_map, List.map_cons, List.map_map, Nat.zero_mul, Nat.add_zero]
      simp only [Function.comp_def, Nat.succ_eq_add_one, shifted]
      by_cases last : table.rowCount ≤ start + size
      · have none : table.rowCount - (start + size) = 0 := Nat.sub_eq_zero_of_le last
        rw [none, groupCount_zero positive] at others
        rw [← others, List.range_zero, List.map_nil, Nat.min_eq_right last]
        rfl
      · have further : start + size < table.rowCount := Nat.lt_of_not_le last
        have below := induction further others
        rw [Nat.min_eq_left (Nat.le_of_lt further), stacked?_cons below]
        exact append?_rows table (Nat.le_add_right start size) (Nat.le_of_lt further)

end Table

/-! ## Numbered items -/

namespace Source

variable {count index : Nat} {item : Nat → Except Fault Item}

theorem pull_numbered (inside : index < count) {found : Item} (there : item index = .ok found) :
    ((numbered count item).pull index).Answers (some found, index + 1) := by
  unfold Flow.Answers
  change (if index < count then _ else _ : Flow _) false = _
  rw [if_pos inside, there]
  rfl

theorem pull_numbered_past (past : count ≤ index) :
    ((numbered count item).pull index).Answers (none, index) := by
  unfold Flow.Answers
  change (if index < count then _ else _ : Flow _) false = _
  rw [if_neg (Nat.not_lt.mpr past)]
  rfl

/-- Where every number has an item, the items come in the order of their numbers. -/
theorem numbered_supplies {found : Nat → Item} (there : ∀ index < count, item index = .ok (found index)) :
    Supplies (numbered count item).pull (numbered count item).remaining (numbered count item).core
      ((List.range count).map found) := by
  suffices from_any : ∀ left index : Nat, index + left = count →
      Supplies (numbered count item).pull (numbered count item).remaining index
        ((List.range left).map fun further => found (index + further)) by
    have all := from_any count 0 (Nat.zero_add count)
    simp only [Nat.zero_add] at all
    exact all
  intro left
  induction left with
  | zero =>
      intro index reached
      exact ⟨index, pull_numbered_past (Nat.le_of_eq reached.symm)⟩
  | succ left induction =>
      intro index reached
      have inside : index < count := by omega
      have follow : (fun further => found (index + further)) ∘ Nat.succ =
          fun further => found (index + 1 + further) := by
        funext further
        exact congrArg found (Nat.succ_add_eq_add_succ index further).symm
      rw [List.range_succ_eq_map, List.map_cons, List.map_map, follow]
      refine ⟨?_, index + 1, pull_numbered inside (there index inside), induction (index + 1) (by omega)⟩
      change ((List.range left).map _).length < count - index
      rw [List.length_map, List.length_range]
      omega

end Source

/-! ## Drained files and tables -/

/-- The slices that a table is cut into. -/
def Table.slices (table : Table) (size : Nat) : List Table :=
  (List.range (groupCount table.rowCount size)).map fun index =>
    table.rows (index * size) (min (index * size + size) table.rowCount)

namespace Table.Regular

variable {table : Table} {size : Nat}

/-- Each slice that a stream asks for is there. -/
theorem slice_ok_of_lt (regular : table.Regular) (positive : 0 < size) (countable : table.rowCount < Word.limit)
    {index : Nat} (inside : index < groupCount table.rowCount size) :
    table.slice (index * size) size =
      .ok (table.rows (index * size) (min (index * size + size) table.rowCount)) := by
  have begins : table.sliceStart (index * size) = index * size :=
    Nat.min_eq_left (Nat.le_of_lt ((lt_groupCount_iff positive).mp inside))
  have stops : table.sliceStop (index * size) size = min (index * size + size) table.rowCount := by
    unfold sliceStop Word.saturatingSum Word.maximum
    omega
  rw [regular.slice_eq_rows, begins, stops]

theorem supplies_slices (regular : table.Regular) (countable : table.rowCount < Word.limit) (chunkRows : Nat) :
    (Stream.ofTable table chunkRows).SuppliesFrom (Stream.ofTable table chunkRows).position
      (table.slices (max chunkRows 1)) :=
  ⟨StreamState.noConfusion, Source.numbered_supplies fun _ inside =>
    regular.slice_ok_of_lt (Nat.le_max_right _ _) countable inside⟩

end Table.Regular

theorem Table.lengths_slices (table : Table) (size : Nat) :
    (table.slices size).map Table.rowCount = pieceLengths size table.rowCount := by
  unfold slices pieceLengths
  rw [List.map_map]
  apply List.map_congr_left
  intro index _
  rw [Function.comp_apply, rowCount_rows (Nat.min_le_right _ _)]
  omega

namespace Stream

/-- Drained, a file and a checked table have come in even pieces that together are the whole, as many as their streams
have promised. The number of rows of a table is a word. -/
theorem drained_pieces (content : Bytes) (chunkBytes : Nat) {columns : List Column} {table : Table}
    (made : Table.ofColumns columns = .ok table) (some_row : 0 < table.rowCount)
    (countable : table.rowCount < Word.limit) (chunkRows : Nat) :
    (∃ chunks after, (ofChunks content chunkBytes).drain.Answers (chunks, after) ∧ after.2.state = .exhausted ∧
      chunks.flatten = content ∧ EvenPieces (max chunkBytes 1) (chunks.map List.length) ∧
      (ofChunks content chunkBytes).meter.total? = some chunks.length) ∧
    ∃ parts after, (ofTable table chunkRows).drain.Answers (parts, after) ∧ after.2.state = .exhausted ∧
      Table.stacked? parts = some table ∧ EvenPieces (max chunkRows 1) (parts.map Table.rowCount) ∧
      (ofTable table chunkRows).meter.total? = some parts.length := by
  constructor
  · have positive : 0 < max chunkBytes 1 := Nat.le_max_right _ _
    have all := Nat.le_refl content.length
    obtain ⟨after, drained, ended, -⟩ := drain_ofList (chunksOf (max chunkBytes 1) content.length content)
      (some (groupCount content.length (max chunkBytes 1))) (max chunkBytes 1) List.length
    refine ⟨_, after, drained, ended, flatten_chunksOf positive all, ?_, ?_⟩
    · rw [chunksOf_eq_batchesOf positive all, lengths_batchesOf]
      exact even_pieceLengths positive
    · rw [length_chunksOf positive all]
      rfl
  · have positive : 0 < max chunkRows 1 := Nat.le_max_right _ _
    obtain ⟨rfl, regular⟩ := Table.ofColumns_eq_ok_iff.mp made
    obtain ⟨after, drained, ended, -⟩ := (regular.supplies_slices countable chunkRows).drain
    refine ⟨_, after, drained, ended, ?_, ?_, ?_⟩
    · have stacked := Table.stacked?_rows positive some_row
      simp only [Nat.sub_zero, Nat.zero_add, regular.rows_whole] at stacked
      exact stacked
    · rw [Table.lengths_slices]
      exact even_pieceLengths positive
    · rw [Table.slices, List.length_map, List.length_range]
      rfl

def fiveRows : List Column :=
  [⟨"number", .integers [1, 2, 3, 4, 5]⟩, ⟨"name", .texts ["a", "b", "c", "d", "e"]⟩]

/-- Five bytes and five rows by twos: the third piece is short. -/
theorem drained_pieces_short :
    Table.ofColumns fiveRows = .ok ⟨fiveRows⟩ ∧ (⟨fiveRows⟩ : Table).rowCount = 5 ∧ 5 < Word.limit ∧
      (∃ chunks after, (ofChunks [1, 2, 3, 4, 5] 2).drain.Answers (chunks, after) ∧
        chunks.flatten = [1, 2, 3, 4, 5] ∧ EvenPieces 2 (chunks.map List.length) ∧ chunks.length = 3) ∧
      ∃ parts after, (ofTable ⟨fiveRows⟩ 2).drain.Answers (parts, after) ∧
        Table.stacked? parts = some ⟨fiveRows⟩ ∧ EvenPieces 2 (parts.map Table.rowCount) ∧ parts.length = 3 := by
  have made : Table.ofColumns fiveRows = .ok ⟨fiveRows⟩ := rfl
  have some_row : 0 < (⟨fiveRows⟩ : Table).rowCount := by decide
  have countable : (⟨fiveRows⟩ : Table).rowCount < Word.limit := by decide
  obtain ⟨⟨chunks, after, drained, -, whole, even, total⟩, parts, last, sliced, -, stacked, evenly, promised⟩ :=
    drained_pieces [1, 2, 3, 4, 5] 2 made some_row countable 2
  exact ⟨made, rfl, by decide, ⟨chunks, after, drained, whole, even, (Option.some.inj total).symm⟩,
    parts, last, sliced, stacked, evenly, (Option.some.inj promised).symm⟩

end Stream

end TierVault
