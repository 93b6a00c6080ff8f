import TierVault.Proofs.Stream.Transforms
import TierVault.Proofs.TextOrder
import TierVault.Proofs.Value.Encoding

/-!
What a file weighs when its stream is drained.

In chunks it weighs as much as it is long. A line weighs its text and one byte for its end, which is not what the
line takes up where the end is a carriage return and a newline, or where the last line has no end.
-/

namespace TierVault

variable {Item : Type}

/-! ## Chunks -/

section

variable {size bound : Nat}

theorem chunksOf_succ {items : List Item} (some : items ≠ []) :
    chunksOf size (bound + 1) items = items.take size :: chunksOf size bound (items.drop size) := by
  rw [chunksOf, if_neg (by rwa [List.isEmpty_iff])]

theorem chunksOf_nil : chunksOf size bound ([] : List Item) = [] := by
  cases bound <;> rfl

/-- Together the chunks are what was cut. -/
theorem flatten_chunksOf (positive : 0 < size) {items : List Item} (enough : items.length ≤ bound) :
    (chunksOf size bound items).flatten = items := by
  induction bound generalizing items with
  | zero => exact (List.eq_nil_of_length_eq_zero (Nat.le_zero.mp enough)).symm
  | succ bound induction =>
      by_cases none : items = []
      · rw [none, chunksOf_nil, List.flatten_nil]
      · have fewer : (items.drop size).length ≤ bound := by
          rw [List.length_drop]
          omega
        rw [chunksOf_succ none, List.flatten_cons, induction fewer, List.take_append_drop]

/-- Chunks are batches of the items. -/
theorem chunksOf_eq_batchesOf (positive : 0 < size) {items : List Item} (enough : items.length ≤ bound) :
    chunksOf size bound items = batchesOf size items := by
  induction bound generalizing items with
  | zero =>
      rw [List.eq_nil_of_length_eq_zero (Nat.le_zero.mp enough), batchesOf_nil positive]
      rfl
  | succ bound induction =>
      by_cases none : items = []
      · rw [none, chunksOf_nil, batchesOf_nil positive]
      · have fewer : (items.drop size).length ≤ bound := by
          rw [List.length_drop]
          omega
        rw [chunksOf_succ none, batchesOf_step positive none, induction fewer]

theorem length_chunksOf (positive : 0 < size) {items : List Item} (enough : items.length ≤ bound) :
    (chunksOf size bound items).length = groupCount items.length size := by
  rw [chunksOf_eq_batchesOf positive enough, batchesOf, length_slices]

theorem sumOf_lengths (lists : List (List Item)) : sumOf (lists.map List.length) = lists.flatten.length := by
  induction lists with
  | nil => rfl
  | cons list lists induction =>
      rw [List.map_cons, sumOf_cons, induction, List.flatten_cons, List.length_append]

end

/-! ## Lines -/

/-- How many newlines stand behind a carriage return. -/
def carriageEnds : Bytes → Nat
  | [] => 0
  | byte :: rest => (if byte = 13 ∧ rest.head? = some 10 then 1 else 0) + carriageEnds rest

/-- There is a last line, and it has no end. -/
def isUnterminated (content : Bytes) : Bool := content.getLast?.any (· != 10)

section

variable {line rest content : Bytes} {bound : Nat}

theorem splitLines_nil : splitLines bound [] = [] := by
  cases bound <;> rfl

theorem not_newline (plain : 10 ∉ line) : ∀ byte ∈ line, decide (byte ≠ 10) = true := by
  intro byte member
  exact decide_eq_true fun newline => plain (newline ▸ member)

theorem splitLines_last (some : line ≠ []) (plain : 10 ∉ line) : splitLines (bound + 1) line = [line] := by
  have taken := @List.takeWhile_append_of_pos _ _ line [] (not_newline plain)
  have dropped := @List.dropWhile_append_of_pos _ _ line [] (not_newline plain)
  rw [List.append_nil] at taken dropped
  rw [splitLines, if_neg (by rwa [List.isEmpty_iff])]
  simp only [taken, dropped, List.takeWhile_nil, List.dropWhile_nil, List.append_nil]

theorem splitLines_line (plain : 10 ∉ line) (rest : Bytes) :
    splitLines (bound + 1) (line ++ 10 :: rest) = (line ++ [10]) :: splitLines bound rest := by
  have some : line ++ 10 :: rest ≠ [] := List.append_ne_nil_of_right_ne_nil _ (List.cons_ne_nil _ _)
  have taken : (10 :: rest).takeWhile (fun byte : UInt8 => decide (byte ≠ 10)) = [] := rfl
  have dropped : (10 :: rest).dropWhile (fun byte : UInt8 => decide (byte ≠ 10)) = 10 :: rest := rfl
  rw [splitLines, if_neg (by rwa [List.isEmpty_iff])]
  simp only [List.takeWhile_append_of_pos (not_newline plain), taken,
    List.dropWhile_append_of_pos (not_newline plain), dropped, List.append_nil]

theorem trimLine_plain (plain : 10 ∉ line) : trimLine line = line := by
  unfold trimLine
  split
  · rename_i turned
    exact absurd (List.mem_reverse.mp (turned ▸ List.mem_cons_self)) plain
  · rename_i turned
    exact absurd (List.mem_reverse.mp (turned ▸ List.mem_cons_self)) plain
  · rfl

theorem trimLine_carriage (line : Bytes) : trimLine (line ++ [13] ++ [10]) = line := by
  simp only [trimLine, List.reverse_append, List.reverse_cons, List.reverse_nil, List.nil_append,
    List.cons_append, List.reverse_reverse]

theorem trimLine_newline (plain : line.getLast? ≠ some 13) : trimLine (line ++ [10]) = line := by
  unfold trimLine
  rw [List.reverse_append, List.reverse_singleton, List.singleton_append]
  split
  · rename_i other turned
    injection turned with _ turned
    rw [← List.head?_reverse, turned] at plain
    exact absurd rfl plain
  · rename_i other _ turned
    injection turned with _ turned
    rw [← turned, List.reverse_reverse]
  · rename_i other
    exact absurd rfl (other _)

theorem carriageEnds_plain (plain : 10 ∉ line) : carriageEnds line = 0 := by
  induction line with
  | nil => rfl
  | cons byte line induction =>
      have apart : ¬(byte = 13 ∧ line.head? = some 10) := fun ends =>
        plain (List.mem_cons_of_mem _ (List.mem_of_head? ends.2))
      rw [carriageEnds, if_neg apart, induction fun member => plain (List.mem_cons_of_mem _ member)]

theorem carriageEnds_line (plain : 10 ∉ line) (rest : Bytes) :
    carriageEnds (line ++ 10 :: rest) =
      (if line.getLast? = some 13 then 1 else 0) + carriageEnds rest := by
  induction line with
  | nil => simp [carriageEnds]
  | cons byte line induction =>
      have later := induction fun member => plain (List.mem_cons_of_mem _ member)
      rw [List.cons_append, carriageEnds, later]
      cases line with
      | nil => simp
      | cons next line =>
          have apart : next ≠ 10 := fun newline =>
            plain (List.mem_cons_of_mem _ (newline ▸ List.mem_cons_self))
          simp [apart]

theorem isUnterminated_plain (some : line ≠ []) (plain : 10 ∉ line) : isUnterminated line = true := by
  have last := List.getLast_mem some
  rw [isUnterminated, List.getLast?_eq_some_getLast some, Option.any_some, bne_iff_ne]
  exact fun newline => plain (newline ▸ last)

theorem isUnterminated_line (line rest : Bytes) :
    isUnterminated (line ++ 10 :: rest) = isUnterminated rest := by
  rw [isUnterminated, isUnterminated, List.getLast?_append, List.getLast?_cons]
  cases rest.getLast? <;> rfl

/-! ## Lines of texts -/

/-- A line of a text is read; its text is what stands before its end. -/
theorem text_of_line (readable : Utf8.Readable line) :
    (∃ text, Utf8.decode (line ++ [10]) = .ok text) ∧
      ∃ text, Utf8.decode (trimLine (line ++ [10])) = .ok text ∧
        utf8Length text + (if line.getLast? = some 13 then 1 else 0) = line.length := by
  constructor
  · obtain ⟨text, rfl⟩ := readable
    exact ⟨text ++ "\n", by rw [← Utf8.decode_encode, Utf8.encode_append]; rfl⟩
  · by_cases carriage : line.getLast? = some 13
    · obtain ⟨front, rfl⟩ := List.getLast?_eq_some_iff.mp carriage
      obtain ⟨⟨text, rfl⟩, -⟩ := @readable.split 13 _ _ (by decide)
      refine ⟨text, by rw [trimLine_carriage, Utf8.decode_encode], ?_⟩
      rw [if_pos carriage, List.length_append, Utf8.length_encode]
      rfl
    · obtain ⟨text, rfl⟩ := readable
      exact ⟨text, by rw [trimLine_newline carriage, Utf8.decode_encode], by rw [if_neg carriage]; rfl⟩

theorem textsBefore_cons {text : String} {lines : List Bytes}
    (whole : ∃ text, Utf8.decode line = .ok text) (trimmed : Utf8.decode (trimLine line) = .ok text) :
    textsBefore (line :: lines) = text :: textsBefore lines := by
  obtain ⟨_, read⟩ := whole
  simp only [textsBefore, read, trimmed]

/-- What a line weighs. -/
def lineWeight (text : String) : Nat := utf8Length text + 1

/-- Of a text all lines are read, and they weigh what the text is long but for carriage returns and an end that is not
there. -/
theorem texts_of_readable (readable : Utf8.Readable content) (enough : content.length ≤ bound) :
    (textsBefore (splitLines bound content)).length = (splitLines bound content).length ∧
      sumOf ((textsBefore (splitLines bound content)).map lineWeight) + carriageEnds content =
        content.length + (isUnterminated content).toNat := by
  induction bound generalizing content with
  | zero =>
      rw [List.eq_nil_of_length_eq_zero (Nat.le_zero.mp enough)]
      exact ⟨rfl, rfl⟩
  | succ bound induction =>
      -- either there is a first line with an end, or all that is left is a last line without one
      by_cases ends : 10 ∈ content
      · obtain ⟨line, rest, rfl, plain⟩ := List.eq_append_cons_of_mem ends
        obtain ⟨first, others⟩ := readable.split (by decide)
        obtain ⟨whole, text, trimmed, length⟩ := text_of_line first
        have shorter : rest.length ≤ bound := by
          rw [List.length_append, List.length_cons] at enough
          omega
        obtain ⟨all, weighed⟩ := induction others shorter
        rw [splitLines_line plain, textsBefore_cons whole trimmed, carriageEnds_line plain,
          isUnterminated_line, List.length_cons, List.length_cons, List.map_cons, sumOf_cons, lineWeight,
          List.length_append, List.length_cons, all]
        exact ⟨rfl, by omega⟩
      · by_cases none : content = []
        · rw [none, splitLines_nil]
          exact ⟨rfl, rfl⟩
        · obtain ⟨text, rfl⟩ := readable
          have read := Utf8.decode_encode text
          rw [splitLines_last none ends, carriageEnds_plain ends, isUnterminated_plain none ends,
            textsBefore_cons ⟨text, read⟩ (by rw [trimLine_plain ends, read])]
          exact ⟨rfl, rfl⟩

end

/-! ## Drained files -/

namespace Stream

/-- Draining a list uses it up, and its items are counted and weighed. -/
theorem drain_ofList (items : List Item) (total? : Option Nat) (chunkSize : Nat) (weigh : Item → Nat) :
    ∃ after, (ofSource (.ofList items) total? chunkSize (some weigh)).drain.Answers (items, after) ∧
      after.2.state = .exhausted ∧ after.2.processed = items.length ∧
      after.2.bytes = sumOf (items.map weigh) := by
  let stream := ofSource (.ofList items) total? chunkSize (some weigh)
  have supplies : stream.SuppliesFrom stream.position items :=
    ⟨StreamState.noConfusion, Source.ofList_supplies items⟩
  obtain ⟨after, drained, ended, counted, weighed⟩ := supplies.drain
  exact ⟨after, drained, ended, counted.trans (Nat.zero_add _), weighed.trans (Nat.zero_add _)⟩

/-- Drained in chunks, a file has weighed what it is long. Drained in lines, a text has weighed one byte less for
every newline behind a carriage return, and one byte more if its last line has no end. -/
theorem drained_weight (content : Bytes) (text : String) (size : Nat) :
    (∃ chunks after, (ofChunks content size).drain.Answers (chunks, after) ∧ chunks.flatten = content ∧
      after.2.state = .exhausted ∧ after.2.bytes = content.length) ∧
      ∃ lines after, (ofLines (Utf8.encode text) size).drain.Answers (lines, after) ∧
        lines.length = (linesOf (Utf8.encode text)).length ∧ after.2.state = .exhausted ∧
        after.2.bytes + carriageEnds (Utf8.encode text) =
          (Utf8.encode text).length + (isUnterminated (Utf8.encode text)).toNat := by
  constructor
  · have whole := flatten_chunksOf (Nat.le_max_right size 1) (Nat.le_refl content.length)
    obtain ⟨after, drained, ended, -, weighed⟩ := drain_ofList
      (chunksOf (max size 1) content.length content) (some (groupCount content.length (max size 1)))
      (max size 1) List.length
    exact ⟨_, after, drained, whole, ended, by rw [weighed, sumOf_lengths, whole]⟩
  · obtain ⟨all, told⟩ := texts_of_readable ⟨text, rfl⟩ (Nat.le_refl (Utf8.encode text).length)
    obtain ⟨after, drained, ended, -, weighed⟩ := drain_ofList
      (textsBefore (linesOf (Utf8.encode text))) (some (linesOf (Utf8.encode text)).length) (max size 1)
      lineWeight
    exact ⟨_, after, drained, all, ended, by rw [weighed]; exact told⟩

/-- Of three bytes, two are weighed where a carriage return stands, and four where the last line has no end. -/
theorem drained_weight_apart :
    Utf8.encode "a\r\n" = [97, 13, 10] ∧ Utf8.encode "a\nb" = [97, 10, 98] ∧
      (ofLines [97, 13, 10] 1).drain.Answers (["a"], [], ⟨.exhausted, some 1, 1, 2, 1⟩) ∧
      (ofLines [97, 10, 98] 1).drain.Answers (["a", "b"], [], ⟨.exhausted, some 2, 2, 4, 1⟩) :=
  ⟨by decide, by decide, rfl, rfl⟩

end Stream

end TierVault
