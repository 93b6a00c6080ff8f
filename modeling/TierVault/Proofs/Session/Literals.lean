import TierVault.Session.Classifier

/-!
Literals in code, read and cut out.

Code falls into gaps without a quote and literals, of which each is closed by its own quote, abandoned at a line end
or open at the end of the code. There is one such reading of any code. What is cut out of the code by its places are
the contents in that reading, and no cut is refused: a place is always between two letters, since a quote is one byte
long.
-/

namespace TierVault.Literal

variable {quote : Char} {content rest : List Char} {code : String}

/-! ## Places -/

theorem pos?_eq_some_iff {text : String} {place : Nat} {found : text.Pos} :
    text.pos? ⟨place⟩ = some found ↔ found.offset = ⟨place⟩ := by
  unfold String.pos? String.Slice.pos?
  split
  · rw [Option.map_some, Option.some_inj, String.Pos.ext_iff]
    exact eq_comm
  · rename_i outside
    refine iff_of_false nofun fun there => outside ?_
    rw [← there, String.Pos.Raw.isValidForSlice_eq_true_iff]
    exact found.isValid.toSlice

/-- What is cut out of a text is the part between the two places. -/
theorem cut_eq_some_iff {text middle : String} {start stop : Nat} :
    cut text start stop = some middle ↔
      ∃ before after, text = before ++ middle ++ after ∧ start = before.utf8ByteSize ∧
        stop = (before ++ middle).utf8ByteSize := by
  simp only [cut, Option.bind_eq_bind, Option.bind_eq_some_iff, Option.pure_def, Option.some_inj, pos?_eq_some_iff]
  constructor
  · rintro ⟨first, first_place, last, last_place, slice, sliced, copied⟩
    rw [String.slice?] at sliced
    split at sliced
    · rename_i ordered
      cases sliced
      obtain ⟨before, after, first_splits, last_splits⟩ :=
        String.copy_slice_eq_iff_splits.mp ⟨ordered, copied⟩
      refine ⟨before, after, last_splits.eq_append, ?_, ?_⟩
      · rw [first_splits.offset_eq_rawEndPos] at first_place
        exact (congrArg String.Pos.Raw.byteIdx first_place).symm
      · rw [last_splits.offset_eq_rawEndPos] at last_place
        exact (congrArg String.Pos.Raw.byteIdx last_place).symm
    · cases sliced
  · rintro ⟨before, after, rfl, rfl, rfl⟩
    have whole : before ++ middle ++ after = before ++ (middle ++ after) := String.append_assoc
    let first : (before ++ middle ++ after).Pos :=
      String.pos _ before.rawEndPos (String.Pos.Raw.isValid_iff_exists_append.mpr ⟨_, _, whole, rfl⟩)
    let last : (before ++ middle ++ after).Pos :=
      String.pos _ (before ++ middle).rawEndPos (String.Pos.Raw.isValid_iff_exists_append.mpr ⟨_, _, rfl, rfl⟩)
    have first_splits : first.Splits before (middle ++ after) := ⟨whole, rfl⟩
    have last_splits : last.Splits (before ++ middle) after := ⟨rfl, rfl⟩
    obtain ⟨ordered, copied⟩ := String.copy_slice_eq_iff_splits.mpr ⟨before, after, first_splits, last_splits⟩
    exact ⟨first, rfl, last, rfl, _, dif_pos ordered, copied⟩

/-! ## Scanning by places -/

def byteCount (letters : List Char) : Nat := (String.ofList letters).utf8ByteSize

theorem byteCount_concat (letters : List Char) (letter : Char) :
    byteCount (letters ++ [letter]) = byteCount letters + letter.utf8Size := by
  rw [byteCount, String.ofList_append, String.utf8ByteSize_append, ← String.singleton_eq_ofList,
    String.utf8ByteSize_singleton]
  rfl

theorem byteCount_lt_append {letters : List Char} (filled : content ≠ []) :
    byteCount letters < byteCount (letters ++ content) := by
  rw [byteCount, byteCount, String.ofList_append, String.utf8ByteSize_append]
  have some_byte : (String.ofList content).utf8ByteSize ≠ 0 := by
    rwa [ne_eq, String.utf8ByteSize_eq_zero_iff, String.ofList_eq_empty_iff]
  omega

theorem utf8Size_of_isQuote (opens : isQuote quote = true) : quote.utf8Size = 1 := by
  obtain rfl | rfl : quote = '"' ∨ quote = '\'' := by simpa [isQuote] using opens
  · rfl
  · rfl

/-- The place that is kept for an open literal is the one where what was read of it begins. -/
inductive Placed : (front : List Char) → Opened → Option (Char × Nat) → Prop
  | outside {front : List Char} : Placed front none none
  | inside {quote : Char} {before content : List Char} :
      Placed (before ++ content.reverse) (some (quote, content)) (some (quote, byteCount before))

theorem Placed.opening {front : List Char} :
    Placed front (some (quote, [])) (some (quote, byteCount front)) := by
  have opened := @Placed.inside quote front []
  rwa [List.reverse_nil, List.append_nil] at opened

theorem cut_eq_some {before after : List Char} (whole : code.toList = before ++ content ++ after) :
    cut code (byteCount before) (byteCount (before ++ content)) = some (String.ofList content) := by
  refine cut_eq_some_iff.mpr ⟨.ofList before, .ofList after, ?_, rfl, ?_⟩
  · rw [← String.ofList_append, ← String.ofList_append, ← whole, String.ofList_toList]
  · rw [← String.ofList_append]
    rfl

/-- Wherever the scan stands, the contents it has still to find are cut out of the code. -/
theorem cutFrom_eq_scan {front : List Char} {opened : Opened} {start : Option (Char × Nat)}
    (placed : Placed front opened start) (whole : code.toList = front ++ rest) :
    cutFrom code start (byteCount front) rest = some ((scan opened rest).map String.ofList) := by
  induction rest generalizing front opened start with
  | nil =>
      cases placed with
      | outside | inside => rfl
  | cons letter rest induction =>
      have onward : code.toList = front ++ [letter] ++ rest := by rw [whole, List.append_cons]
      cases placed with
      | outside =>
          rw [cutFrom, scan, ← byteCount_concat]
          by_cases opens : isQuote letter = true
          · rw [if_pos opens, if_pos opens, ← utf8Size_of_isQuote opens, ← byteCount_concat]
            exact induction .opening onward
          · rw [if_neg opens, if_neg opens]
            exact induction .outside onward
      | @inside quote before content =>
          rw [cutFrom, scan, ← byteCount_concat]
          by_cases closes : letter = quote
          · rw [if_pos closes, if_pos closes, induction .outside onward]
            cases content with
            | nil =>
                rw [List.reverse_nil, List.append_nil, if_neg (Nat.lt_irrefl _)]
                rfl
            | cons last others =>
                have filled : (last :: others).reverse ≠ [] := List.reverse_ne_nil_iff.mpr (List.cons_ne_nil _ _)
                rw [if_pos (byteCount_lt_append filled), cut_eq_some whole]
                rfl
          · rw [if_neg closes, if_neg closes]
            by_cases ends : letter = '\n'
            · rw [if_pos ends, if_pos ends]
              exact induction .outside onward
            · rw [if_neg ends, if_neg ends]
              have longer : before ++ (letter :: content).reverse = before ++ content.reverse ++ [letter] := by
                rw [List.reverse_cons, List.append_assoc]
              exact induction (longer ▸ .inside) onward

theorem cutContents_eq (code : String) : cutContents code = some (contents code) :=
  cutFrom_eq_scan .outside (List.nil_append code.toList).symm

/-! ## Reading -/

/-- No quote stands among the letters. -/
abbrev Outside (letters : List Char) : Prop := ∀ letter ∈ letters, isQuote letter = false

/-- Nothing among the letters ends a literal with this quote. -/
abbrev Inside (quote : Char) (letters : List Char) : Prop :=
  ∀ letter ∈ letters, letter ≠ quote ∧ letter ≠ '\n'

/-- The contents that code has when it is read literal by literal. -/
inductive Reads : List Char → List String → Prop
  | gap {gap : List Char} (outside : Outside gap) : Reads gap []
  | unclosed {gap : List Char} {quote : Char} {content : List Char} (outside : Outside gap)
      (opens : isQuote quote = true) (inside : Inside quote content) : Reads (gap ++ quote :: content) []
  | abandoned {gap : List Char} {quote : Char} {content rest : List Char} {found : List String}
      (outside : Outside gap) (opens : isQuote quote = true) (inside : Inside quote content)
      (others : Reads rest found) : Reads (gap ++ quote :: (content ++ '\n' :: rest)) found
  | empty {gap : List Char} {quote : Char} {rest : List Char} {found : List String} (outside : Outside gap)
      (opens : isQuote quote = true) (others : Reads rest found) : Reads (gap ++ quote :: quote :: rest) found
  | literal {gap : List Char} {quote : Char} {content rest : List Char} {found : List String}
      (outside : Outside gap) (opens : isQuote quote = true) (inside : Inside quote content)
      (filled : content ≠ []) (others : Reads rest found) :
      Reads (gap ++ quote :: (content ++ quote :: rest)) (String.ofList content :: found)

theorem scan_outside {gap : List Char} (outside : Outside gap) (rest : List Char) :
    scan none (gap ++ rest) = scan none rest := by
  induction gap with
  | nil => rfl
  | cons letter gap induction =>
      have plain := outside letter List.mem_cons_self
      rw [List.cons_append, scan, if_neg (Bool.not_eq_true _ ▸ plain)]
      exact induction fun other member => outside other (List.mem_cons_of_mem letter member)

theorem scan_opens {gap : List Char} (outside : Outside gap) (opens : isQuote quote = true) (rest : List Char) :
    scan none (gap ++ quote :: rest) = scan (some (quote, [])) rest := by
  rw [scan_outside outside, scan, if_pos opens]

theorem scan_inside (inside : Inside quote content) (before rest : List Char) :
    scan (some (quote, before)) (content ++ rest) = scan (some (quote, content.reverse ++ before)) rest := by
  induction content generalizing before with
  | nil => rfl
  | cons letter content induction =>
      obtain ⟨different, stays⟩ := inside letter List.mem_cons_self
      rw [List.cons_append, scan, if_neg different, if_neg stays, List.reverse_cons, List.append_assoc]
      exact induction (fun other member => inside other (List.mem_cons_of_mem letter member)) (letter :: before)

/-- A scan finds what a reading has. -/
theorem Reads.scan_eq {letters : List Char} {found : List String} (reads : Reads letters found) :
    (scan none letters).map String.ofList = found := by
  induction reads with
  | gap outside =>
      have whole := scan_outside outside []
      rw [List.append_nil] at whole
      rw [whole]
      rfl
  | @unclosed gap quote content outside opens inside =>
      have whole := scan_inside inside [] []
      rw [List.append_nil] at whole
      rw [scan_opens outside opens, whole]
      rfl
  | abandoned outside opens inside others induction =>
      have different : '\n' ≠ _ := ne_of_apply_ne isQuote (opens ▸ Bool.false_ne_true)
      rw [scan_opens outside opens, scan_inside inside, scan, if_neg different, if_pos rfl]
      exact induction
  | empty outside opens others induction =>
      rw [scan_opens outside opens, scan, if_pos rfl]
      exact induction
  | @literal gap quote content rest found outside opens inside filled others induction =>
      have some_letter : ¬content.reverse.isEmpty = true := by
        rwa [List.isEmpty_reverse, List.isEmpty_iff]
      rw [scan_opens outside opens, scan_inside inside, List.append_nil, scan, if_pos rfl, if_neg some_letter,
        List.reverse_reverse, List.map_cons, induction]

/-- Any code can be read: up to its first quote, up to what ends the literal there, and on from that. -/
theorem exists_reads (letters : List Char) : ∃ found, Reads letters found := by
  cases opening : letters.find? isQuote with
  | none =>
      refine ⟨[], .gap fun letter member => ?_⟩
      rw [← Bool.not_eq_true]
      exact List.find?_eq_none.mp opening letter member
  | some quote =>
      obtain ⟨opens, gap, after, opened, earlier⟩ := List.find?_eq_some_iff_append.mp opening
      have outside : Outside gap := fun letter member => Bool.not_eq_true' _ ▸ earlier letter member
      rw [opened]
      cases ending : after.find? fun letter => letter = quote || letter = '\n' with
      | none =>
          have inside : Inside quote after := by
            simpa only [List.find?_eq_none, Bool.or_eq_true, decide_eq_true_eq, not_or] using ending
          exact ⟨[], .unclosed outside opens inside⟩
      | some stop =>
          obtain ⟨stops, content, rest, ended, before⟩ := List.find?_eq_some_iff_append.mp ending
          have inside : Inside quote content := by
            simpa only [Bool.not_eq_true', Bool.or_eq_false_iff, decide_eq_false_iff_not] using before
          have shorter : rest.length < letters.length := by
            rw [opened, ended]
            simp only [List.length_append, List.length_cons]
            omega
          obtain ⟨found, others⟩ := exists_reads rest
          rw [ended]
          by_cases closes : stop = quote
          · subst closes
            by_cases blank : content = []
            · subst blank
              exact ⟨found, .empty outside opens others⟩
            · exact ⟨_, .literal outside opens inside blank others⟩
          · obtain rfl : stop = '\n' := by simpa [closes] using stops
            exact ⟨found, .abandoned outside opens inside others⟩
termination_by letters.length
decreasing_by exact shorter

/-- Code has one reading, and the scan gives it. -/
theorem reads_iff {found : List String} : Reads code.toList found ↔ found = contents code := by
  constructor
  · exact fun reads => reads.scan_eq.symm
  · rintro rfl
    obtain ⟨found, reads⟩ := exists_reads code.toList
    rw [contents, reads.scan_eq]
    exact reads

/-! ## Rendered literals -/

/-- A text in quotes, and what stands before it. -/
structure Piece where
  gap : String
  quote : Char
  content : String

structure Piece.Clean (piece : Piece) : Prop where
  outside : Outside piece.gap.toList
  opens : isQuote piece.quote = true
  inside : Inside piece.quote piece.content.toList
  filled : piece.content ≠ ""

def rendered : List Piece → (tail : String) → String
  | [], tail => tail
  | piece :: rest, tail =>
    piece.gap ++ String.singleton piece.quote ++ piece.content ++ String.singleton piece.quote ++ rendered rest tail

theorem reads_rendered {pieces : List Piece} {tail : String} (clean : ∀ piece ∈ pieces, piece.Clean)
    (outside : Outside tail.toList) : Reads (rendered pieces tail).toList (pieces.map Piece.content) := by
  induction pieces with
  | nil => exact .gap outside
  | cons piece rest induction =>
      have first := clean piece List.mem_cons_self
      have others := induction fun other member => clean other (List.mem_cons_of_mem piece member)
      have filled : piece.content.toList ≠ [] := by
        rw [ne_eq, String.toList_eq_nil_iff]
        exact first.filled
      have whole := Reads.literal first.outside first.opens first.inside filled others
      simpa only [rendered, String.toList_append, String.toList_singleton, List.append_assoc, List.cons_append,
        List.nil_append, List.map_cons, String.ofList_toList] using whole

/-- Contents are cut out of any code without a refusal. They are the ones that the code has when it is read literal by
literal, and of rendered literals those that were rendered. -/
theorem cutContents_exact :
    (∀ code, cutContents code = some (contents code) ∧
      ∀ found, Reads code.toList found ↔ found = contents code) ∧
    ∀ pieces tail, (∀ piece ∈ pieces, piece.Clean) → Outside tail.toList →
      cutContents (rendered pieces tail) = some (pieces.map Piece.content) := by
  refine ⟨fun code => ⟨cutContents_eq code, fun found => reads_iff⟩, ?_⟩
  intro pieces tail clean outside
  rw [cutContents_eq, reads_iff.mp (reads_rendered clean outside)]

/-- A double quote in single ones, letters of two bytes, and a newline in a gap. -/
theorem cutContents_exact_mixed :
    cutContents "é\"ß'\" +\n'a\"b' é" = some ["ß'", "a\"b"] := by
  refine cutContents_exact.2 [⟨"é", '"', "ß'"⟩, ⟨" +\n", '\'', "a\"b"⟩] " é" ?_ (by simp [Outside, isQuote])
  intro piece member
  obtain rfl | rfl : piece = ⟨"é", '"', "ß'"⟩ ∨ piece = ⟨" +\n", '\'', "a\"b"⟩ := by simpa using member
  · exact ⟨by simp [Outside, isQuote], rfl, by simp [Inside], by decide⟩
  · exact ⟨by simp [Outside, isQuote], rfl, by simp [Inside], by decide⟩

end TierVault.Literal
