import TierVault.Proofs.FileSystem.Names
import TierVault.Store.Disk

/-!
Names of payload files.

A key's digest has 64 hexadecimal digits. They tell the directory and the file, so keys with different
digests have different files. The names are plain: nothing in them leads up, nowhere or further down.
-/

namespace TierVault

variable {key other : String}

/-! ## Hexadecimal text -/

namespace Hexadecimal

variable {left right : Bytes} {letter : Char}

theorem digit_mem : ∀ value < 16, digit value ∈ "0123456789abcdef".toList := by
  decide

theorem digit_inj : ∀ left < 16, ∀ right < 16, digit left = digit right → left = right := by
  decide

theorem mem_of_mem_ofBytes {bytes : Bytes} (member : letter ∈ (ofBytes bytes).toList) :
    letter ∈ "0123456789abcdef".toList := by
  rw [ofBytes, String.toList_ofList] at member
  obtain ⟨byte, -, pair⟩ := List.mem_flatMap.mp member
  have small := byte.toNat_lt
  rcases List.mem_cons.mp pair with rfl | second
  · exact digit_mem _ (by omega)
  · rw [List.mem_singleton.mp second]
    exact digit_mem _ (by omega)

theorem length_ofBytes (bytes : Bytes) : (ofBytes bytes).toList.length = 2 * bytes.length := by
  rw [ofBytes, String.toList_ofList]
  induction bytes with
  | nil => rfl
  | cons byte rest induction =>
      rw [List.flatMap_cons, List.length_append, induction, List.length_cons]
      simp only [List.length_cons, List.length_nil]
      omega

theorem ofBytes_inj (same : ofBytes left = ofBytes right) : left = right := by
  have letters := congrArg String.toList same
  simp only [ofBytes, String.toList_ofList] at letters
  clear same
  induction left generalizing right with
  | nil =>
      cases right with
      | nil => rfl
      | cons byte rest => cases letters
  | cons byte rest induction =>
      cases right with
      | nil => cases letters
      | cons last others =>
          simp only [List.flatMap_cons, List.cons_append, List.nil_append, List.cons.injEq] at letters
          obtain ⟨high, low, later⟩ := letters
          have small := byte.toNat_lt
          have limited := last.toNat_lt
          have upper := digit_inj _ (by omega) _ (by omega) high
          have lower := digit_inj _ (by omega) _ (by omega) low
          have equal : byte = last := UInt8.toNat.inj (by omega)
          rw [equal, induction later]

end Hexadecimal

/-! ## Digests -/

namespace Sha256

theorem length_mixBlock (words : List UInt32) (block : Bytes) (eight : words.length = 8) :
    (mixBlock words block).length = 8 := by
  unfold mixBlock
  simp only [List.length_map, List.length_zip, eight, State.words, List.length_cons, List.length_nil]
  rfl

theorem length_digest (message : Bytes) : (digest message).length = 32 := by
  have mixed (blocks : List Bytes) (words : List UInt32) (eight : words.length = 8) :
      (blocks.foldl mixBlock words).length = 8 := by
    induction blocks generalizing words with
    | nil => exact eight
    | cons block rest induction => exact induction _ (length_mixBlock words block eight)
  have four (words : List UInt32) : (words.flatMap bytesOfWord).length = 4 * words.length := by
    induction words with
    | nil => rfl
    | cons word rest induction =>
        rw [List.flatMap_cons, List.length_append, induction, List.length_cons]
        have one : (bytesOfWord word).length = 4 := rfl
        omega
  unfold digest
  rw [four, mixed _ _ rfl]

/-- Items that fill so many groups. -/
theorem length_groups {Item : Type} {size : Nat} (positive : 0 < size) {count : Nat} {items : List Item}
    (filled : items.length = size * count) : (groups size count items).length = count := by
  induction count generalizing items with
  | zero => rfl
  | succ count induction =>
      rw [Nat.mul_succ] at filled
      have some : items.isEmpty = false := List.isEmpty_eq_false_iff.mpr fun none => by
        rw [none, List.length_nil] at filled
        omega
      have rest : (items.drop size).length = size * count := by
        rw [List.length_drop]
        omega
      rw [groups, some]
      exact congrArg (· + 1) (induction rest)

/-- The word that follows others, of which the latest are first. -/
def nextWord (latest : List UInt32) : UInt32 :=
  let word (back : Nat) := latest.getD (back - 1) 0
  let early := word 15
  let late := word 2
  let small := rotate early 7 ^^^ rotate early 18 ^^^ (early >>> 3)
  let large := rotate late 17 ^^^ rotate late 19 ^^^ (late >>> 10)
  word 16 + small + word 7 + large

/-- So many words more, the latest first. -/
def expand (first : List UInt32) : (count : Nat) → List UInt32
  | 0 => first
  | count + 1 => nextWord (expand first count) :: expand first count

theorem length_expand (first : List UInt32) (count : Nat) :
    (expand first count).length = first.length + count := by
  induction count with
  | zero => rfl
  | succ count induction => exact congrArg (· + 1) induction

/-- Counted from the end, the words of an array are those of the list that has the latest first. -/
theorem getD_back {words : Array UInt32} {latest : List UInt32} {count back : Nat}
    (told : words.toList = latest.reverse) (length : latest.length = 16 + count)
    (within : 1 ≤ back ∧ back ≤ 16) : words.getD (count + 16 - back) 0 = latest.getD (back - 1) 0 := by
  have place : latest.length - 1 - (count + 16 - back) = back - 1 := by omega
  rw [Array.getD_eq_getD_getElem?, ← Array.getElem?_toList, told, List.getElem?_reverse (by omega), place,
    List.getD_eq_getElem?_getD]

theorem toList_schedule {block : Bytes} (whole : block.length = 64) : (schedule block).toList =
    (expand ((groups 4 16 block).map wordOfBytes).reverse 48).reverse := by
  have sixteen : ((groups 4 16 block).map wordOfBytes).reverse.length = 16 := by
    rw [List.length_reverse, List.length_map, length_groups (by decide) whole]
  unfold schedule
  generalize (groups 4 16 block).map wordOfBytes = first at sixteen ⊢
  generalize 48 = count
  induction count with
  | zero => exact first.reverse_reverse.symm
  | succ count induction =>
      have length := length_expand first.reverse count
      rw [sixteen] at length
      rw [List.range_succ, List.foldl_append, List.foldl_cons, List.foldl_nil, expand, List.reverse_cons,
        Array.toList_push, induction]
      simp (disch := decide) only [getD_back induction length]
      rfl

/-- Words that a block is mixed into, by the schedule of the block. -/
def mixSchedule (words schedule : List UInt32) : List UInt32 :=
  let mixed := (roundConstants.zip schedule).foldl
    (fun state (constant, word) => round state constant word) (State.ofWords words)
  (words.zip mixed.words).map fun (left, right) => left + right

/-- The digest of a message that is padded to one block, from lists only. -/
theorem digest_of_single {message : Bytes} (single : (pad message).length = 64) : digest message =
    (mixSchedule initialState
      (expand ((groups 4 16 (pad message)).map wordOfBytes).reverse 48).reverse).flatMap bytesOfWord := by
  have whole : groups 64 ((pad message).length / 64) (pad message) = [pad message] := by
    have some : (pad message).isEmpty = false := List.isEmpty_eq_false_iff.mpr fun none => by
      rw [none] at single
      cases single
    rw [single, groups, some]
    exact congrArg (fun block => [block]) (List.take_of_length_le (Nat.le_of_eq single))
  rw [digest, whole, ← toList_schedule single]
  rfl

end Sha256

/-! ## Plain names -/

theorem utf8ByteSize_ofList (letters : List Char) (narrow : ∀ letter ∈ letters, letter.utf8Size = 1) :
    (String.ofList letters).utf8ByteSize = letters.length := by
  induction letters with
  | nil => rfl
  | cons letter rest induction =>
      rw [String.ofList_cons, String.utf8ByteSize_append, String.utf8ByteSize_singleton,
        narrow letter List.mem_cons_self,
        induction fun other member => narrow other (List.mem_cons_of_mem _ member), List.length_cons,
        Nat.add_comm]

namespace DiskStore

variable {settings : DiskSettings} {name : String}

/-- Letters of the names of payload files. -/
def nameLetters : List Char := "0123456789abcdef.hemtp".toList

theorem narrow_of_mem (letter : Char) (member : letter ∈ nameLetters) : letter.utf8Size = 1 := by
  have all : nameLetters.all (fun letter => letter.utf8Size = 1) = true := by decide
  exact of_decide_eq_true (List.all_eq_true.mp all letter member)

theorem utf8ByteSize_eq (letters : ∀ letter ∈ name.toList, letter ∈ nameLetters) :
    name.utf8ByteSize = name.toList.length := by
  have narrow := utf8ByteSize_ofList name.toList fun letter member =>
    narrow_of_mem letter (letters letter member)
  rwa [String.ofList_toList] at narrow

theorem plain_of_letters (letters : ∀ letter ∈ name.toList, letter ∈ nameLetters)
    (some : 2 ≤ name.toList.length) (short : name.toList.length ≤ FileSystem.pieceLimit)
    (down : name ≠ "..") : FileSystem.Plain name where
  noSlash member := absurd (letters _ member) (by decide)
  noNull member := absurd (letters _ member) (by decide)
  busy := by
    refine Bool.or_eq_false_iff.mpr ⟨decide_eq_false ?_, decide_eq_false ?_⟩
    · rintro rfl
      exact absurd some (by decide)
    · rintro rfl
      exact absurd some (by decide)
  down := down
  short := utf8ByteSize_eq letters ▸ short

/-- The digits of a key's digest. -/
theorem toList_digits (key : String) : (shelf key).2.toList.length = 64 ∧
    ∀ letter ∈ (shelf key).2.toList, letter ∈ "0123456789abcdef".toList := by
  refine ⟨?_, fun letter => Hexadecimal.mem_of_mem_ofBytes⟩
  change (Hexadecimal.ofBytes _).toList.length = 64
  rw [Hexadecimal.length_ofBytes, Sha256.length_digest]

theorem digits_subset : "0123456789abcdef".toList ⊆ nameLetters := by
  have parts : nameLetters = ("0123456789abcdef" ++ ".hemtp").toList := by rfl
  rw [parts, String.toList_append]
  exact List.subset_append_left ..

/-- The name of the directory of a key's payload file. -/
def shelfName (key : String) : String := (shelf key).1

theorem toList_shelfName (key : String) : (shelfName key).toList = (shelf key).2.toList.take 2 := by
  simp [shelfName, shelf]

theorem length_shelfName (key : String) : (shelfName key).toList.length = 2 := by
  rw [toList_shelfName, List.length_take, (toList_digits key).1]
  rfl

theorem mem_shelfName {letter : Char} (member : letter ∈ (shelfName key).toList) :
    letter ∈ "0123456789abcdef".toList := by
  rw [toList_shelfName] at member
  exact (toList_digits key).2 letter (List.mem_of_mem_take member)

theorem plain_shelfName (key : String) : FileSystem.Plain (shelfName key) := by
  have length := length_shelfName key
  refine plain_of_letters (fun _ member => digits_subset (mem_shelfName member))
    (Nat.le_of_eq length.symm) (by rw [length]; decide) fun dots => ?_
  have member : '.' ∈ (shelfName key).toList := by
    rw [dots]
    decide
  exact absurd (mem_shelfName member) (by decide)

theorem utf8Length_shelfName (key : String) : utf8Length (shelfName key) = 2 :=
  (utf8ByteSize_eq fun _ member => digits_subset (mem_shelfName member)).trans
    (length_shelfName key)

/-- The name of a key's payload file in its directory. -/
def payloadName (key : String) : String := (shelf key).2 ++ ".cache"

/-- The name of the temporary file. -/
def draftName (key : String) : String := (shelf key).2 ++ ".tmp"

/-- The digits with an ending are a plain name. -/
theorem plain_digits_append {ending : String} (key : String)
    (letters : ending.toList ⊆ nameLetters) (short : ending.toList.length ≤ 6) :
    FileSystem.Plain ((shelf key).2 ++ ending) ∧
      ((shelf key).2 ++ ending).utf8ByteSize ≤ 70 := by
  obtain ⟨length, digits⟩ := toList_digits key
  have all : ∀ letter ∈ ((shelf key).2 ++ ending).toList, letter ∈ nameLetters := by
    rw [String.toList_append]
    intro letter member
    rcases List.mem_append.mp member with front | behind
    · exact digits_subset (digits letter front)
    · exact letters behind
  have whole : ((shelf key).2 ++ ending).toList.length = 64 + ending.toList.length := by
    rw [String.toList_append, List.length_append, length]
  have limit : FileSystem.pieceLimit = 255 := rfl
  refine ⟨plain_of_letters all (by omega) (by omega) fun dots => ?_, ?_⟩
  · rw [dots] at whole
    have few : "..".toList.length = 2 := by decide
    omega
  · rw [utf8ByteSize_eq all]
    omega

theorem payloadName_fits (key : String) :
    FileSystem.Plain (payloadName key) ∧ (payloadName key).utf8ByteSize ≤ 70 :=
  plain_digits_append key (by decide) (by decide)

theorem draftName_fits (key : String) :
    FileSystem.Plain (draftName key) ∧ (draftName key).utf8ByteSize ≤ 70 :=
  plain_digits_append key (by decide) (by decide)

theorem plain_payloadName (key : String) : FileSystem.Plain (payloadName key) := (payloadName_fits key).1

theorem plain_draftName (key : String) : FileSystem.Plain (draftName key) := (draftName_fits key).1

theorem utf8ByteSize_payloadName (key : String) : (payloadName key).utf8ByteSize ≤ 70 := (payloadName_fits key).2

theorem utf8ByteSize_draftName (key : String) : (draftName key).utf8ByteSize ≤ 70 := (draftName_fits key).2

/-- Keys with different digests have payload files of different names. -/
theorem digest_eq_of_payloadName_eq (same : payloadName key = payloadName other) :
    Sha256.digest (Utf8.encode key) = Sha256.digest (Utf8.encode other) := by
  have letters := congrArg String.toList same
  rw [payloadName, payloadName, String.toList_append, String.toList_append] at letters
  exact Hexadecimal.ofBytes_inj (String.toList_inj.mp (List.append_cancel_right letters))

theorem payloadName_ne_draftName (key other : String) : payloadName key ≠ draftName other := by
  intro same
  have letters := congrArg (fun name => name.toList.length) same
  simp only [payloadName, draftName, String.toList_append, List.length_append,
    (toList_digits _).1] at letters
  exact absurd letters (by decide)

theorem directoryFor_eq (settings : DiskSettings) (key : String) :
    directoryFor settings key = FileName.join settings.root (shelfName key) := rfl

theorem nameFor_eq (settings : DiskSettings) (key : String) : nameFor settings key =
    FileName.join settings.root (shelfName key ++ "/" ++ payloadName key) := by
  rw [nameFor, fileFor, shelfName, payloadName, String.append_assoc]

theorem draftFor_eq (settings : DiskSettings) (key : String) : draftFor settings key =
    FileName.join settings.root (shelfName key ++ "/" ++ draftName key) :=
  (plain_shelfName key).join_join (plain_draftName key) settings.root

-- From here on names are only compared, and no comparison may compute a digest.
attribute [irreducible] shelfName payloadName draftName

end DiskStore

end TierVault
