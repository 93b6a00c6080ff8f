import Mathlib.Data.List.Basic
import TierVault.Json.Kinds
import TierVault.Json.Record
import TierVault.Json.Writer
import TierVault.Proofs.TextOrder

/-!
JSON reads back as it was written.

A written value is read up to a byte that ends it, and what follows is left alone. The fields of a compact object are
read one by one. An object of one kind of values gives all of them in their order; a record is filled field by
field.
-/

namespace TierVault.Json

/-! # Strings and numbers -/

section

open Utf8 (encode_eq_flatMap encode_append encode_join encode_singleton byte_cases)

variable {byte : UInt8} {letter : Char} {text rest read : Bytes}

/-- What may stand behind a value in a compact document: nothing, a comma, or the end of an object. -/
def Closed (rest : Bytes) : Prop := ∀ byte ∈ rest.head?, byte = code ',' ∨ byte = code '\x7d'

theorem closed_nil : Closed [] := nofun

theorem closed_comma (rest : Bytes) : Closed (code ',' :: rest) := fun _ first =>
  .inl (Option.some.inj first).symm

theorem closed_brace (rest : Bytes) : Closed (code '\x7d' :: rest) := fun _ first =>
  .inr (Option.some.inj first).symm

/-- From the text the reader takes the item, and leaves what closes it. -/
def Takes {Item : Type} (read : Reader Item) (text : Bytes) (item : Item) : Prop :=
  ∀ rest, Closed rest → read (text ++ rest) = .ok (item, rest)

theorem skipBlanks_cons (solid : isBlank byte = false) (rest : Bytes) :
    skipBlanks (byte :: rest) = byte :: rest := by
  rw [skipBlanks, List.dropWhile_cons, solid]
  rfl

theorem atValue_cons {Item : Type} (readAt : UInt8 → Reader Item) (solid : isBlank byte = false)
    (rest : Bytes) : atValue readAt (byte :: rest) = readAt byte rest := by
  unfold atValue
  rw [skipBlanks_cons solid]

/-! ## Strings -/

/-- Bytes that stand for themselves in a string. -/
def plainByte (byte : UInt8) : Prop := byte ≠ code '"' ∧ byte ≠ code '\\' ∧ 32 ≤ byte.toNat

theorem stringBytes_cons (plain : plainByte byte) (bound : Nat) (read rest : Bytes) :
    stringBytes (bound + 1) read (byte :: rest) = stringBytes bound (byte :: read) rest := by
  obtain ⟨quote, slash, wide⟩ := plain
  have printed : ¬byte < 0x20 := fun small => Nat.not_lt.mpr wide (UInt8.lt_iff_toNat_lt.mp small)
  change (if byte = code '"' then _ else if byte = code '\\' then _ else if byte < 0x20 then _ else _) = _
  rw [if_neg quote, if_neg slash, if_neg printed]

theorem stringBytes_plain (plain : ∀ byte ∈ text, plainByte byte) (bound : Nat) (read rest : Bytes) :
    stringBytes (bound + text.length) read (text ++ rest) =
      stringBytes bound (text.reverse ++ read) rest := by
  induction text generalizing read with
  | nil => rfl
  | cons byte text induction =>
      have later := induction (fun other member => plain other (List.mem_cons_of_mem _ member))
        (byte :: read)
      rw [List.length_cons, ← Nat.add_assoc, List.cons_append,
        stringBytes_cons (plain byte List.mem_cons_self), later, List.reverse_cons, List.append_assoc]
      rfl

/-- A letter that is written by one letter behind a backslash. -/
theorem stringBytes_escape {escape : UInt8} (known : simpleEscape? escape = some byte)
    (other : escape ≠ code 'u') (bound : Nat) (read rest : Bytes) :
    stringBytes (bound + 1) read (code '\\' :: escape :: rest) =
      stringBytes bound (byte :: read) rest := by
  rw [stringBytes, if_neg (by decide), if_pos rfl]
  simp only [if_neg other, known]

/-- The four digits of a control character. -/
theorem hexUnit_control (small : letter.toNat < 32) (rest : Bytes) :
    hexUnit (Utf8.encode (Hexadecimal.ofNat 4 letter.toNat) ++ rest) = .ok (letter.toNat, rest) := by
  have all : ∀ number < 32, (Utf8.encode (Hexadecimal.ofNat 4 number)).length = 4 ∧
      Hexadecimal.ofDigits? ((Utf8.encode (Hexadecimal.ofNat 4 number)).map fun byte =>
        Char.ofNat byte.toNat) = some number := by decide
  obtain ⟨four, value⟩ := all _ small
  obtain ⟨first, second, third, fourth, same⟩ := List.length_eq_four.mp four
  rw [same] at value ⊢
  rw [List.cons_append, List.cons_append, List.cons_append, List.cons_append, List.nil_append, hexUnit,
    value]

theorem stringBytes_control (small : letter.toNat < 32) (bound : Nat) (read rest : Bytes) :
    stringBytes (bound + 1) read
        (Utf8.encode ("\\u" ++ Hexadecimal.ofNat 4 letter.toNat) ++ rest) =
      stringBytes bound ((String.utf8EncodeChar letter).reverse ++ read) rest := by
  have front : Utf8.encode "\\u" = [code '\\', code 'u'] := by decide
  have unit : unicodeEscape (Utf8.encode (Hexadecimal.ofNat 4 letter.toNat) ++ rest) =
      .ok (String.utf8EncodeChar letter, rest) := by
    have below : letter.toNat < 0xD800 ∨ 0xDFFF < letter.toNat := .inl (by omega)
    simp only [unicodeEscape, hexUnit_control small, bind, Except.bind, if_pos below, pure, Except.pure,
      Char.ofNat_toNat, encode_singleton]
  rw [encode_append, front, List.append_assoc, List.cons_append, List.cons_append, List.nil_append,
    stringBytes, if_neg (by decide), if_pos rfl]
  simp only [if_pos, unit, bind, Except.bind]

/-- What is written for the letter is read in no more steps than it has bytes. -/
def ReadAs (letter : Char) (written : String) : Prop :=
  ∃ steps, steps ≤ (Utf8.encode written).length ∧ ∀ bound read rest,
    stringBytes (bound + steps) read (Utf8.encode written ++ rest) =
      stringBytes bound ((String.utf8EncodeChar letter).reverse ++ read) rest

theorem readAs_escape (name : Char) {written : String}
    (bytes : Utf8.encode written = [code '\\', code name]) (other : code name ≠ code 'u')
    (known : (simpleEscape? (code name)).map ([·]) = some (String.utf8EncodeChar letter)) :
    ReadAs letter written := by
  refine ⟨1, by simp [bytes], fun bound read rest => ?_⟩
  obtain ⟨byte, escape, same⟩ := Option.map_eq_some_iff.mp known
  rw [bytes, ← same]
  exact stringBytes_escape escape other bound read rest

theorem readAs_control (small : letter.toNat < 32) :
    ReadAs letter ("\\u" ++ Hexadecimal.ofNat 4 letter.toNat) := by
  refine ⟨1, ?_, stringBytes_control small⟩
  rw [encode_append, List.length_append]
  exact Nat.le_add_right_of_le (by decide)

theorem readAs_plain (quote : letter ≠ '"') (slash : letter ≠ '\\') (wide : 32 ≤ letter.toNat) :
    ReadAs letter letter.toString := by
  have plain : ∀ byte ∈ String.utf8EncodeChar letter, plainByte byte := by
    intro byte member
    have apart (name : Char) (small : name.toNat < 128) (different : letter ≠ name) :
        byte ≠ code name := by
      rintro rfl
      have number : (code name).toNat = name.toNat := by
        rw [code, Nat.toUInt8_eq, UInt8.toNat_ofNat', Nat.mod_eq_of_lt (by omega)]
      rcases byte_cases member with same | large
      · exact different (Char.toNat_inj.mp (same.symm.trans number))
      · omega
    refine ⟨apart '"' (by decide) quote, apart '\\' (by decide) slash, ?_⟩
    rcases byte_cases member with same | large
    · omega
    · omega
  refine ⟨(String.utf8EncodeChar letter).length, ?_, fun bound read rest => ?_⟩
  · exact Nat.le_of_eq (congrArg List.length (encode_singleton letter)).symm
  · rw [encode_singleton]
    exact stringBytes_plain plain bound read rest

theorem readAs_escapeLetter (letter : Char) : ReadAs letter (escapeLetter letter) := by
  unfold escapeLetter
  by_cases quote : letter = '"'
  · subst quote
    exact readAs_escape '"' (by decide) (by decide) (by decide)
  by_cases slash : letter = '\\'
  · subst slash
    exact readAs_escape '\\' (by decide) (by decide) (by decide)
  by_cases newline : letter = '\n'
  · subst newline
    exact readAs_escape 'n' (by decide) (by decide) (by decide)
  by_cases carriage : letter = '\r'
  · subst carriage
    exact readAs_escape 'r' (by decide) (by decide) (by decide)
  by_cases tab : letter = '\t'
  · subst tab
    exact readAs_escape 't' (by decide) (by decide) (by decide)
  by_cases back : letter.toNat = 8
  · obtain rfl : letter = Char.ofNat 8 := back ▸ (Char.ofNat_toNat letter).symm
    exact readAs_escape 'b' (by decide) (by decide) (by decide)
  by_cases feed : letter.toNat = 12
  · obtain rfl : letter = Char.ofNat 12 := feed ▸ (Char.ofNat_toNat letter).symm
    exact readAs_escape 'f' (by decide) (by decide) (by decide)
  rw [if_neg quote, if_neg slash, if_neg newline, if_neg carriage, if_neg tab, if_neg back, if_neg feed]
  by_cases small : letter.toNat < 32
  · rw [if_pos small]
    exact readAs_control small
  · rw [if_neg small]
    exact readAs_plain quote slash (by omega)

theorem stringBytes_letters (letters : List Char) {bound : Nat} {read rest : Bytes}
    (room : (letters.flatMap fun letter => Utf8.encode (escapeLetter letter)).length < bound) :
    stringBytes bound read
        ((letters.flatMap fun letter => Utf8.encode (escapeLetter letter)) ++ code '"' :: rest) =
      .ok (read.reverse ++ letters.flatMap String.utf8EncodeChar, rest) := by
  induction letters generalizing bound read with
  | nil =>
      obtain ⟨bound, rfl⟩ := Nat.exists_eq_succ_of_ne_zero (Nat.ne_zero_of_lt room)
      rw [List.flatMap_nil, List.flatMap_nil, List.append_nil, List.nil_append]
      change (if code '"' = code '"' then _ else _) = _
      rw [if_pos rfl]
  | cons letter letters induction =>
      obtain ⟨steps, few, reads⟩ := readAs_escapeLetter letter
      rw [List.flatMap_cons, List.length_append] at room
      obtain ⟨left, rfl⟩ := Nat.exists_eq_add_of_le' (show steps ≤ bound by omega)
      rw [List.flatMap_cons, List.append_assoc, reads, induction (by omega), List.reverse_append,
        List.reverse_reverse, List.flatMap_cons, List.append_assoc]

theorem encode_quoted (text : String) : Utf8.encode (quoted text) =
    code '"' :: ((text.toList.flatMap fun letter => Utf8.encode (escapeLetter letter)) ++ [code '"']) := by
  have quote : Utf8.encode "\"" = [code '"'] := by decide
  rw [quoted, encode_append, encode_append, encode_join, quote, List.flatMap_map]
  rfl

theorem stringRest_quoted (text : String) (rest : Bytes) :
    stringRest ((text.toList.flatMap fun letter => Utf8.encode (escapeLetter letter)) ++
      code '"' :: rest) = .ok (text, rest) := by
  unfold stringRest
  rw [stringBytes_letters]
  · rw [List.reverse_nil, List.nil_append, ← encode_eq_flatMap]
    simp only [bind, Except.bind, Utf8.decode_encode]
    rfl
  · rw [List.length_append, List.length_cons]
    omega

theorem takes_string (expected text : String) :
    Takes (string expected) (Utf8.encode (quoted text)) text := by
  intro rest _
  rw [encode_quoted, List.cons_append, string, atValue_cons _ (by decide), if_pos rfl, List.append_assoc]
  exact stringRest_quoted text rest

/-! ## Numbers -/

/-- The number that digits stand for behind those of another. -/
def numberOf (start : Nat) (digits : Bytes) : Nat :=
  digits.foldl (fun number byte => number * 10 + digitValue byte) start

theorem le_numberOf (start : Nat) (digits : Bytes) : start ≤ numberOf start digits := by
  induction digits generalizing start with
  | nil => exact Nat.le_refl _
  | cons byte digits induction =>
      have first : start ≤ start * 10 + digitValue byte := by omega
      exact Nat.le_trans first (induction _)

/-- What closes a number is no part of it. -/
theorem integerDigits_closed {rest : Bytes} (closed : Closed rest) (number : Nat) :
    integerDigits true number rest = .ok (.whole number, rest) := by
  cases rest with
  | nil => rfl
  | cons byte rest =>
      rcases closed byte rfl with rfl | rfl
      · have none : isDigit (code ',') = false := by decide
        simp only [integerDigits, none, Bool.false_eq_true, false_and, if_false, signed, if_true]
        rfl
      · have none : isDigit (code '\x7d') = false := by decide
        simp only [integerDigits, none, Bool.false_eq_true, false_and, if_false, signed, if_true]
        rfl

theorem integerDigits_append {digits rest : Bytes} (all : ∀ byte ∈ digits, isDigit byte = true)
    {start : Nat} (some : start ≠ 0) (fits : numberOf start digits < Word.limit) :
    integerDigits true start (digits ++ rest) =
      integerDigits true (numberOf start digits) rest := by
  induction digits generalizing start with
  | nil => rfl
  | cons byte digits induction =>
      have below : start * 10 + digitValue byte < Word.limit :=
        Nat.lt_of_le_of_lt (le_numberOf _ digits) fits
      rw [List.cons_append, integerDigits, if_pos ⟨all byte List.mem_cons_self, some⟩]
      simp only [Nat.not_le.mpr below, if_false]
      exact induction (fun other member => all other (List.mem_cons_of_mem _ member)) (by omega) fits

/-- The digits of a number, as they are written. -/
theorem digits_cases (number : Nat) : ∃ first digits,
    Utf8.encode (toString number) = first :: digits ∧ isDigit first = true ∧
      (∀ byte ∈ digits, isDigit byte = true) ∧ (digits ≠ [] → digitValue first ≠ 0) ∧
        numberOf (digitValue first) digits = number := by
  have written (number : Nat) : Utf8.encode (toString number) =
      (Nat.toDigits 10 number).flatMap String.utf8EncodeChar := by
    rw [encode_eq_flatMap, Nat.toString_eq_repr, Nat.toList_repr]
  have single : ∀ digit < 10,
      String.utf8EncodeChar (Nat.digitChar digit) = [UInt8.ofNat (48 + digit)] ∧
        isDigit (UInt8.ofNat (48 + digit)) = true ∧ digitValue (UInt8.ofNat (48 + digit)) = digit := by
    decide
  induction number using Nat.strongRecOn with
  | ind number induction =>
      rw [written]
      by_cases small : number < 10
      · obtain ⟨same, digit, value⟩ := single number small
        rw [Nat.toDigits_of_lt_base small, List.flatMap_singleton, same]
        exact ⟨_, [], rfl, digit, nofun, (absurd rfl ·), value⟩
      · obtain ⟨same, last, value⟩ := single (number % 10) (Nat.mod_lt _ (by decide))
        obtain ⟨first, digits, front, digit, all, leading, total⟩ :=
          induction (number / 10) (by omega)
        rw [written] at front
        rw [Nat.toDigits_of_base_le (by decide) (Nat.not_lt.mp small), List.flatMap_append,
          List.flatMap_singleton, same, front]
        refine ⟨first, digits ++ [UInt8.ofNat (48 + number % 10)], rfl, digit, ?_, fun _ zero => ?_, ?_⟩
        · intro byte member
          rcases List.mem_append.mp member with before | final
          · exact all byte before
          · rw [List.mem_singleton.mp final]
            exact last
        · cases digits with
          | nil =>
              have none : digitValue first = number / 10 := total
              omega
          | cons second digits => exact leading (List.cons_ne_nil _ _) zero
        · rw [numberOf, List.foldl_append]
          change numberOf (digitValue first) digits * 10 + _ = number
          rw [total, value]
          omega

theorem isDigit_solid (digit : isDigit byte = true) : isBlank byte = false ∧ byte ≠ code '-' := by
  obtain ⟨low, high⟩ := Bool.and_eq_true_iff.mp digit
  have low := UInt8.le_iff_toNat_le.mp (of_decide_eq_true low)
  have high := UInt8.le_iff_toNat_le.mp (of_decide_eq_true high)
  have first : (code '0').toNat = 48 := by decide
  have last : (code '9').toNat = 57 := by decide
  have apart (other : UInt8) (outside : other.toNat < 48) : byte ≠ other := by
    rintro rfl
    omega
  have space := apart 0x20 (by decide)
  have feed := apart 0x0A (by decide)
  have carriage := apart 0x0D (by decide)
  have tab := apart 0x09 (by decide)
  exact ⟨by simp [isBlank, space, feed, carriage, tab], apart (code '-') (by decide)⟩

theorem takes_natural {bound number : Nat} (expected : String) (small : number < bound)
    (limit : bound ≤ Word.limit) :
    Takes (natural bound expected) (Utf8.encode (toString number)) number := by
  intro rest closed
  obtain ⟨first, digits, written, digit, all, leading, total⟩ := digits_cases number
  obtain ⟨visible, unsigned⟩ := isDigit_solid digit
  have read : integerDigits true (digitValue first) (digits ++ rest) = .ok (.whole number, rest) := by
    cases digits with
    | nil =>
        obtain rfl : digitValue first = number := total
        exact integerDigits_closed closed _
    | cons second digits =>
        rw [integerDigits_append all (leading (List.cons_ne_nil _ _)), total]
        · exact integerDigits_closed closed number
        · rw [total]
          exact Nat.lt_of_lt_of_le small limit
  have whole : Json.number expected (first :: (digits ++ rest)) = .ok (.whole number, rest) := by
    rw [Json.number, atValue_cons _ visible, if_neg unsigned, if_pos digit, Json.unsigned, if_pos digit,
      read]
  rw [written, List.cons_append, natural]
  simp only [whole, bind, Except.bind, if_pos small]
  rfl

end

/-! # Objects -/

section

open Utf8 (encode_append)

variable {Item Record : Type} {read : Reader Item} {fields : List (RecordField Record)}
  {documents : List (String × Document)} {bound : Nat} {rest : Bytes}

theorem takes_truth (truth : Bool) : Takes Json.truth (Utf8.encode (Document.truth truth).compact) truth := by
  intro rest _
  cases truth with
  | false =>
      have written : Utf8.encode (Document.truth false).compact =
          [code 'f', code 'a', code 'l', code 's', code 'e'] := by decide
      rw [written]
      rfl
  | true =>
      have written : Utf8.encode (Document.truth true).compact =
          [code 't', code 'r', code 'u', code 'e'] := by decide
      rw [written]
      rfl

/-! ## Fields -/

/-- What stands behind a field of a compact object, when these fields are still to come. -/
def behind : List (String × Document) → Bytes
  | [] => []
  | field :: fields => code ',' :: Utf8.encode (Document.compactFields (field :: fields))

/-- The fields of a compact object from one of them on. -/
def fieldsFrom (first : Bool) (documents : List (String × Document)) : Bytes :=
  if first then Utf8.encode (Document.compactFields documents) else behind documents

theorem closed_behind (documents : List (String × Document)) (rest : Bytes) :
    Closed (behind documents ++ code '\x7d' :: rest) := by
  cases documents with
  | nil => exact closed_brace rest
  | cons field fields => exact closed_comma _

theorem encode_compactFields_cons (name : String) (document : Document)
    (documents : List (String × Document)) :
    Utf8.encode (Document.compactFields ((name, document) :: documents)) =
      Utf8.encode (quoted name) ++
        code ':' :: (Utf8.encode document.compact ++ behind documents) := by
  have colon : Utf8.encode ":" = [code ':'] := by decide
  have comma : Utf8.encode "," = [code ','] := by decide
  cases documents with
  | nil =>
      rw [Document.compactFields, encode_append, encode_append, colon, behind]
      simp only [List.append_assoc, List.append_nil, List.cons_append, List.nil_append]
  | cons field fields =>
      rw [Document.compactFields, encode_append, encode_append, encode_append, encode_append, colon, comma,
        behind]
      simp only [List.append_assoc, List.cons_append, List.nil_append]

theorem nextKey_field (first : Bool) (name : String) (document : Document)
    (documents : List (String × Document)) (rest : Bytes) :
    nextKey first (fieldsFrom first ((name, document) :: documents) ++ rest) =
      .ok (some name, code ':' :: (Utf8.encode document.compact ++ (behind documents ++ rest))) := by
  have key := stringRest_quoted name
    (code ':' :: (Utf8.encode document.compact ++ (behind documents ++ rest)))
  have text : Utf8.encode (Document.compactFields ((name, document) :: documents)) ++ rest =
      code '"' :: ((name.toList.flatMap fun letter => Utf8.encode (escapeLetter letter)) ++
        code '"' :: code ':' :: (Utf8.encode document.compact ++ (behind documents ++ rest))) := by
    rw [encode_compactFields_cons, encode_quoted]
    simp only [List.append_assoc, List.cons_append, List.nil_append]
  have quote : isBlank (code '"') = false := by decide
  have comma : isBlank (code ',') = false := by decide
  cases first with
  | true =>
      rw [fieldsFrom, if_pos rfl, text, nextKey]
      simp only [skipBlanks_cons quote]
      rw [if_neg (by decide), if_pos trivial, if_pos trivial, key]
      rfl
  | false =>
      rw [fieldsFrom, if_neg Bool.false_ne_true, behind, List.cons_append, text, nextKey]
      simp only [skipBlanks_cons comma, skipBlanks_cons quote]
      rw [if_neg (by decide), if_neg Bool.false_ne_true, if_pos trivial, if_pos trivial, key]
      rfl

theorem nextKey_end (first : Bool) (rest : Bytes) :
    nextKey first (fieldsFrom first [] ++ code '\x7d' :: rest) = .ok (none, code '\x7d' :: rest) := by
  have none : fieldsFrom first [] = [] := by cases first <;> rfl
  rw [none, List.nil_append, nextKey, skipBlanks_cons (by decide)]
  dsimp only
  rw [if_pos rfl]

theorem colon_eq (rest : Bytes) : colon (code ':' :: rest) = .ok ((), rest) := by
  rw [colon, skipBlanks_cons (by decide)]
  dsimp only
  rw [if_pos rfl]

theorem closeObject_eq (rest : Bytes) : closeObject (code '\x7d' :: rest) = .ok ((), rest) := by
  rw [closeObject, skipBlanks_cons (by decide)]
  dsimp only
  rw [if_pos rfl]

/-- An object has more bytes than fields. -/
theorem length_le_compactFields (documents : List (String × Document)) :
    documents.length ≤ (Utf8.encode (Document.compactFields documents)).length := by
  have atMost (documents : List (String × Document)) : documents.length ≤ (behind documents).length := by
    induction documents with
    | nil => exact Nat.le_refl _
    | cons field documents induction =>
        rw [behind, List.length_cons, List.length_cons, encode_compactFields_cons]
        simp only [List.length_append, List.length_cons]
        omega
  cases documents with
  | nil => exact Nat.zero_le _
  | cons field documents =>
      have later := atMost documents
      rw [encode_compactFields_cons]
      simp only [List.length_append, List.length_cons]
      omega

theorem encode_object (documents : List (String × Document)) :
    Utf8.encode (Document.object documents).compact =
      code '\x7b' :: (fieldsFrom true documents ++ [code '\x7d']) := by
  have opening : Utf8.encode "\x7b" = [code '\x7b'] := by decide
  have closing : Utf8.encode "\x7d" = [code '\x7d'] := by decide
  rw [Document.compact, encode_append, encode_append, opening, closing]
  rfl

/-! ## Objects of one kind -/

theorem members_eq {items values : List (String × Item)} (first : Bool)
    (each : List.Forall₂ (fun field value => field.1 = value.1 ∧
      Takes read (Utf8.encode field.2.compact) value.2) documents values)
    (room : documents.length < bound) :
    members read bound first items (fieldsFrom first documents ++ code '\x7d' :: rest) =
      .ok (items.reverse ++ values, rest) := by
  induction each generalizing bound first items with
  | nil =>
      obtain ⟨bound, rfl⟩ := Nat.exists_eq_succ_of_ne_zero (Nat.ne_zero_of_lt room)
      rw [members, nextKey_end]
      simp only [bind, Except.bind, closeObject_eq, List.append_nil]
      rfl
  | @cons field value documents values own each induction =>
      obtain ⟨name, document⟩ := field
      obtain ⟨same, takes⟩ := own
      obtain ⟨bound, rfl⟩ := Nat.exists_eq_succ_of_ne_zero (Nat.ne_zero_of_lt room)
      have later : members read bound false ((name, value.2) :: items)
          (fieldsFrom false documents ++ code '\x7d' :: rest) = .ok (_, rest) :=
        induction false (Nat.lt_of_succ_lt_succ room)
      rw [members, nextKey_field]
      simp only [bind, Except.bind, colon_eq, takes _ (closed_behind documents rest)]
      rw [fieldsFrom, if_neg Bool.false_ne_true] at later
      rw [later, List.reverse_cons, List.append_assoc]
      cases value
      cases same
      rfl

theorem takes_objectOf {values : List (String × Item)}
    (each : List.Forall₂ (fun field value => field.1 = value.1 ∧
      Takes read (Utf8.encode field.2.compact) value.2) documents values) :
    Takes (objectOf read) (Utf8.encode (Document.object documents).compact) values := by
  intro rest _
  have room := length_le_compactFields documents
  rw [encode_object, List.cons_append, objectOf, atValue_cons _ (by decide), if_pos rfl, List.append_assoc,
    List.singleton_append]
  refine (members_eq true each ?_).trans rfl
  rw [List.length_append, fieldsFrom, if_pos rfl]
  omega

/-! ## Records -/

/-- The written fields, each read in its turn, change the record from one to the other. -/
inductive Fills (fields : List (RecordField Record)) :
    Record → List (String × Document) → Record → Prop
  | done (record : Record) : Fills fields record [] record
  | field {start next final : Record} {field : RecordField Record} {name : String} {document : Document}
      {documents : List (String × Document)}
      (known : fields.find? (·.name == name) = some field)
      (takes : Takes (field.read start) (Utf8.encode document.compact) next)
      (later : Fills fields next documents final) :
      Fills fields start ((name, document) :: documents) final

theorem recordMembers_eq {start final : Record} (fills : Fills fields start documents final)
    (first : Bool) {seen : List String} (apart : (documents.map Prod.fst).Nodup)
    (fresh : ∀ name ∈ documents.map Prod.fst, name ∉ seen)
    (complete : ∀ field ∈ fields, field.name ∈ seen ∨ field.name ∈ documents.map Prod.fst)
    (room : documents.length < bound) :
    recordMembers fields bound first seen start (fieldsFrom first documents ++ code '\x7d' :: rest) =
      .ok (final, rest) := by
  induction fills generalizing bound first seen with
  | done record =>
      obtain ⟨bound, rfl⟩ := Nat.exists_eq_succ_of_ne_zero (Nat.ne_zero_of_lt room)
      have none : fields.find? (fun field => !(field.optional || seen.contains field.name)) = none := by
        refine List.find?_eq_none.mpr fun field member => ?_
        rcases complete field member with there | missing
        · simp [there]
        · cases missing
      rw [recordMembers, nextKey_end]
      simp only [bind, Except.bind, none, closeObject_eq]
      rfl
  | @field start next final field name document documents known takes later induction =>
      obtain ⟨bound, rfl⟩ := Nat.exists_eq_succ_of_ne_zero (Nat.ne_zero_of_lt room)
      obtain ⟨own, others⟩ := List.nodup_cons.mp apart
      have unseen : seen.contains name = false := by
        simpa using fresh name List.mem_cons_self
      have rest : recordMembers fields bound false (name :: seen) next
          (fieldsFrom false documents ++ code '\x7d' :: rest) = .ok (final, rest) :=
        induction false others ?_ ?_ (Nat.lt_of_succ_lt_succ room)
      · rw [recordMembers, nextKey_field]
        simp only [bind, Except.bind, known, unseen, Bool.false_eq_true, if_false, colon_eq,
          takes _ (closed_behind documents _)]
        rw [fieldsFrom, if_neg Bool.false_ne_true] at rest
        exact rest
      · intro other member there
        rcases List.mem_cons.mp there with rfl | before
        · exact own member
        · exact fresh other (List.mem_cons_of_mem _ member) before
      · intro field member
        rcases complete field member with before | among
        · exact .inl (List.mem_cons_of_mem _ before)
        · rcases List.mem_cons.mp among with same | later
          · exact .inl (same ▸ List.mem_cons_self)
          · exact .inr later

theorem takes_record {start final : Record} (expected : String)
    (named : documents.map Prod.fst = fields.map RecordField.name)
    (apart : (fields.map RecordField.name).Nodup) (fills : Fills fields start documents final) :
    Takes (record expected fields start) (Utf8.encode (Document.object documents).compact) final := by
  intro rest _
  have room := length_le_compactFields documents
  rw [encode_object, List.cons_append, record, atValue_cons _ (by decide), if_pos rfl, List.append_assoc,
    List.singleton_append]
  have complete : ∀ field ∈ fields, field.name ∈ documents.map Prod.fst := fun field member =>
    named ▸ List.mem_map_of_mem member
  refine recordMembers_eq fills true (named ▸ apart) (fun _ _ => List.not_mem_nil)
    (fun field member => .inr (complete field member)) ?_
  rw [List.length_append, fieldsFrom, if_pos rfl]
  omega

theorem takes_field {start : Record} {item : Item} {text : Bytes} (name : String)
    (put : Record → Item → Record) (optional : Bool) (takes : Takes read text item) :
    Takes ((field name read put optional).read start) text (put start item) := by
  intro rest closed
  simp only [field, takes rest closed, bind, Except.bind]
  rfl

/-- A whole text is what its only value is. -/
theorem whole_eq {item : Item} {text : Bytes} (takes : Takes read text item) :
    whole read text = .ok item := by
  have read := takes [] closed_nil
  rw [List.append_nil] at read
  simp only [whole, read, bind, Except.bind]
  rfl

end

end TierVault.Json
