import TierVault.Text.Utf8

/-!
Texts and their UTF-8 bytes.

The bytes of a text are those of its characters one after the other. The order of texts is a strict total order, and
the order of their bytes.
-/

namespace TierVault

namespace Utf8

variable {byte : UInt8} {letter : Char}

theorem encode_eq_flatMap (text : String) :
    encode text = text.toList.flatMap String.utf8EncodeChar := by
  unfold encode String.toUTF8
  rw [← String.utf8Encode_toList, List.utf8Encode]
  simp

theorem encode_append (left right : String) :
    encode (left ++ right) = encode left ++ encode right := by
  simp only [encode_eq_flatMap, String.toList_append, List.flatMap_append]

theorem encode_join (texts : List String) :
    encode (String.join texts) = texts.flatMap encode := by
  rw [encode_eq_flatMap, String.toList_join, List.flatMap_assoc]
  exact congrArg (texts.flatMap ·) (funext fun text => (encode_eq_flatMap text).symm)

/-- A character is written as its number, or in bytes beyond ASCII. -/
theorem byte_cases (member : byte ∈ String.utf8EncodeChar letter) :
    byte.toNat = letter.toNat ∨ 128 ≤ byte.toNat := by
  unfold String.utf8EncodeChar at member
  unfold Char.toNat
  simp only at member
  split at member
  · rw [List.mem_singleton] at member
    subst member
    left
    rw [UInt8.toNat_ofNat', Nat.mod_eq_of_lt (by omega)]
  all_goals
    right
    repeat' split at member
    all_goals
      simp only [List.mem_cons, List.not_mem_nil, or_false] at member
      rcases member with rfl | rfl | rfl | rfl <;>
        (rw [UInt8.toNat_ofNat', Nat.mod_eq_of_lt (by omega)]; omega)

theorem encode_singleton (letter : Char) :
    encode letter.toString = String.utf8EncodeChar letter := by
  rw [encode_eq_flatMap, Char.toString_eq_singleton, String.toList_singleton, List.flatMap_singleton]

/-- What was read writes back. -/
theorem encode_decode {bytes : Bytes} {content : String} (decoded : decode bytes = .ok content) :
    encode content = bytes := by
  unfold decode at decoded
  split at decoded
  · rename_i found valid
    cases decoded
    unfold String.fromUTF8? at valid
    split at valid
    · cases valid
      rfl
    · cases valid
  · cases decoded

/-- The bytes are those of a text. -/
def Readable (bytes : Bytes) : Prop := ∃ text, encode text = bytes

theorem Readable.decode {bytes : Bytes} (readable : Readable bytes) : ∃ text, decode bytes = .ok text := by
  obtain ⟨text, rfl⟩ := readable
  exact ⟨text, decode_encode text⟩

theorem encodeChar_ascii (small : letter.toNat < 128) :
    String.utf8EncodeChar letter = [letter.toNat.toUInt8] := by
  unfold String.utf8EncodeChar
  unfold Char.toNat at small
  simp only
  rw [if_pos (Nat.le_of_lt_succ small)]
  rfl

theorem encodeChars_split {letters : List Char} {front behind : Bytes} (small : byte.toNat < 128)
    (split : letters.flatMap String.utf8EncodeChar = front ++ byte :: behind) :
    ∃ left right : List Char, left.flatMap String.utf8EncodeChar = front ∧
      right.flatMap String.utf8EncodeChar = behind := by
  induction letters generalizing front with
  | nil => cases front <;> cases split
  | cons letter letters induction =>
      rw [List.flatMap_cons, List.append_eq_append_iff] at split
      rcases split with ⟨between, rfl, later⟩ | ⟨between, first, others⟩
      · obtain ⟨left, right, rfl, rfl⟩ := induction later
        exact ⟨letter :: left, right, List.flatMap_cons, rfl⟩
      · cases between with
        | nil =>
            obtain ⟨-, right, -, rfl⟩ := @induction [] others.symm
            exact ⟨[letter], right, by rw [List.flatMap_singleton, first, List.append_nil], rfl⟩
        | cons other between =>
            -- the byte is one of the letter, which has no other then
            injection others with same others
            subst same
            have member : byte ∈ String.utf8EncodeChar letter := by
              rw [first]
              exact List.mem_append_right _ List.mem_cons_self
            have ascii : letter.toNat < 128 := by
              rcases byte_cases member with same | large
              · rwa [← same]
              · exact absurd small (Nat.not_lt.mpr large)
            rw [encodeChar_ascii ascii] at first
            obtain ⟨rfl, alone⟩ := List.singleton_eq_append_iff.mp first |>.resolve_right (by simp)
            cases alone
            exact ⟨[], letters, rfl, others.symm⟩

/-- What stands before and behind an ASCII byte of a text is text. -/
theorem Readable.split {front behind : Bytes} (small : byte.toNat < 128)
    (readable : Readable (front ++ byte :: behind)) : Readable front ∧ Readable behind := by
  obtain ⟨text, encoded⟩ := readable
  rw [encode_eq_flatMap] at encoded
  obtain ⟨left, right, rfl, rfl⟩ := encodeChars_split small encoded
  have written (letters : List Char) : Readable (letters.flatMap String.utf8EncodeChar) :=
    ⟨.ofList letters, by rw [encode_eq_flatMap, String.toList_ofList]⟩
  exact ⟨written left, written right⟩

end Utf8

namespace TextOrder

open Utf8 (encode_eq_flatMap)

theorem not_lettersBefore {left right : List Char} (ordered : lettersBefore left right = true) :
    lettersBefore right left = false ∧ left ≠ right := by
  induction left generalizing right with
  | nil =>
      cases right with
      | nil => cases ordered
      | cons letter rest => exact ⟨rfl, List.cons_ne_nil _ _ |>.symm⟩
  | cons first letters induction =>
      cases right with
      | nil => cases ordered
      | cons other rest =>
          simp only [lettersBefore, Bool.or_eq_true, decide_eq_true_eq, Bool.and_eq_true,
            beq_iff_eq] at ordered
          rcases ordered with less | ⟨same, later⟩
          · have different : other ≠ first := by
              intro equal
              rw [equal] at less
              omega
            have backwards : ¬other.toNat < first.toNat := by omega
            refine ⟨by simp [lettersBefore, backwards, different], fun equal => ?_⟩
            exact different (List.cons.inj equal).1.symm
          · subst same
            have parts := induction later
            refine ⟨by simp [lettersBefore, parts.1], fun equal => ?_⟩
            exact parts.2 (List.cons.inj equal).2

theorem not_before {left right : String} (ordered : before left right = true) :
    before right left = false ∧ right ≠ left := by
  have parts := not_lettersBefore ordered
  refine ⟨parts.1, fun same => parts.2 ?_⟩
  rw [same]

theorem lettersBefore_of_not {left right : List Char} (back : lettersBefore left right = false)
    (different : left ≠ right) : lettersBefore right left = true := by
  induction left generalizing right with
  | nil =>
      cases right with
      | nil => exact absurd rfl different
      | cons letter rest => cases back
  | cons first letters induction =>
      cases right with
      | nil => rfl
      | cons other rest =>
          simp only [lettersBefore, Bool.or_eq_false_iff, decide_eq_false_iff_not,
            Bool.and_eq_false_imp, beq_iff_eq] at back
          by_cases same : first = other
          · subst same
            have later := induction (back.2 rfl) (fun equal => different (by rw [equal]))
            simp [lettersBefore, later]
          · have apart : first.toNat ≠ other.toNat := fun equal => same (Char.toNat_inj.mp equal)
            have less : other.toNat < first.toNat := by omega
            simp [lettersBefore, less]

/-- Of two different texts one comes first. -/
theorem before_of_not {left right : String} (back : before left right = false)
    (different : left ≠ right) : before right left = true :=
  lettersBefore_of_not back fun same => different (String.toList_inj.mp same)

theorem lettersBefore_trans {left middle right : List Char}
    (first : lettersBefore left middle = true) (second : lettersBefore middle right = true) :
    lettersBefore left right = true := by
  induction left generalizing middle right with
  | nil =>
      cases right with
      | nil => cases middle <;> cases second
      | cons letter rest => rfl
  | cons letter letters induction =>
      cases middle with
      | nil => cases first
      | cons between middle =>
          cases right with
          | nil => cases second
          | cons last right =>
              simp only [lettersBefore, Bool.or_eq_true, decide_eq_true_eq, Bool.and_eq_true,
                beq_iff_eq] at first second ⊢
              rcases first with less | ⟨rfl, firstLater⟩
              · left
                rcases second with more | ⟨rfl, -⟩
                · omega
                · exact less
              · rcases second with more | ⟨rfl, secondLater⟩
                · exact .inl more
                · exact .inr ⟨rfl, induction firstLater secondLater⟩

theorem before_trans {left middle right : String} (first : before left middle = true)
    (second : before middle right = true) : before left right = true :=
  lettersBefore_trans first second

/-! ## The order of bytes -/

section

variable {first second : Nat} {left right : Bytes}

/-- The first bytes decide, unless they are the same. -/
theorem digit_lt (small : second < 256) (ordered : first < second ∨ first = second ∧ left < right) :
    UInt8.ofNat first :: left < UInt8.ofNat second :: right := by
  have less : first < 256 := by omega
  rw [List.cons_lt_cons_iff, UInt8.lt_iff_toNat_lt, ← UInt8.toNat_inj, UInt8.toNat_ofNat', UInt8.toNat_ofNat',
    Nat.mod_eq_of_lt small, Nat.mod_eq_of_lt less]
  exact ordered

/-- A number that is continued by bytes may leave its last digit to one more of them. -/
theorem continued_lt (ordered : first < second ∨ first = second ∧ left < right) :
    first / 64 < second / 64 ∨ first / 64 = second / 64 ∧
      UInt8.ofNat (first % 64 + 128) :: left < UInt8.ofNat (second % 64 + 128) :: right := by
  have parts : first / 64 < second / 64 ∨ first / 64 = second / 64 ∧
      (first % 64 + 128 < second % 64 + 128 ∨ first % 64 + 128 = second % 64 + 128 ∧ left < right) := by
    rcases ordered with less | ⟨rfl, later⟩
    · omega
    · exact .inr ⟨rfl, .inr ⟨rfl, later⟩⟩
  exact parts.imp_right (.imp_right (digit_lt (by omega)))

end

/-- The bytes of a character tell its order, whatever follows them. -/
theorem encodeChar_lt {left right : Char} (less : left.toNat < right.toNat) (behind rest : Bytes) :
    String.utf8EncodeChar left ++ behind < String.utf8EncodeChar right ++ rest := by
  have bound : right.val.toNat < 0x110000 := by
    rcases right.valid with low | ⟨-, high⟩
    · exact Nat.lt_trans low (by decide)
    · exact high
  have digits (number : Nat) : number / 4096 = number / 64 / 64 ∧
      number / 262144 = number / 64 / 64 / 64 := by omega
  unfold String.utf8EncodeChar
  unfold Char.toNat at less
  generalize left.val.toNat = first at less ⊢
  generalize right.val.toNat = second at less bound ⊢
  simp only [digits]
  -- one case for each pair of lengths
  repeat' split
  all_goals simp only [List.cons_append, List.nil_append]
  -- the smaller number has no more bytes, and where it has fewer, the first byte decides
  all_goals first | omega | refine digit_lt (by omega) ?_
  all_goals try (left; omega)
  · exact (continued_lt (.inl less)).imp (fun _ => by omega) (.imp_left fun _ => by omega)
  · exact (continued_lt (continued_lt (.inl less))).imp (fun _ => by omega) (.imp_left fun _ => by omega)
  · exact (continued_lt (continued_lt (continued_lt (.inl less)))).imp (fun _ => by omega)
      (.imp_left fun _ => by omega)

theorem encode_lt_of_lettersBefore {left right : List Char}
    (ordered : lettersBefore left right = true) :
    left.flatMap String.utf8EncodeChar < right.flatMap String.utf8EncodeChar := by
  induction left generalizing right with
  | nil =>
      cases right with
      | nil => cases ordered
      | cons letter rest =>
          have some : String.utf8EncodeChar letter ≠ [] := String.utf8EncodeChar_ne_nil
          obtain ⟨byte, bytes, encoded⟩ := List.exists_cons_of_ne_nil some
          rw [List.flatMap_cons, encoded, List.flatMap_nil]
          exact List.nil_lt_cons _ _
  | cons letter letters induction =>
      cases right with
      | nil => cases ordered
      | cons other rest =>
          simp only [lettersBefore, Bool.or_eq_true, decide_eq_true_eq, Bool.and_eq_true,
            beq_iff_eq] at ordered
          rw [List.flatMap_cons, List.flatMap_cons]
          rcases ordered with less | ⟨rfl, later⟩
          · exact encodeChar_lt less _ _
          · exact List.append_left_lt (induction later)

/-- A text comes before another when its bytes do. -/
theorem before_iff_encode_lt {left right : String} :
    before left right = true ↔ Utf8.encode left < Utf8.encode right := by
  rw [encode_eq_flatMap, encode_eq_flatMap]
  constructor
  · exact encode_lt_of_lettersBefore
  · intro less
    by_cases same : left = right
    · rw [same] at less
      exact absurd less (List.lt_irrefl _)
    · cases back : before left right with
      | true => rfl
      | false =>
          have reverse := before_of_not back same
          exact absurd less (List.lt_asymm (encode_lt_of_lettersBefore reverse))

end TextOrder

end TierVault
