import TierVault.Proofs.Value.RoundTrip

/-!
What readers accept.

An accepted input begins with bytes that stand for what was read. For a value these are the encoding of the value
as it stands in the input, where the maps have their fields in any order; what is read has them made anew.
-/

namespace TierVault

/-! ## Accepting parts -/

namespace Codec

variable {Item Other : Type}

/-- An accepted input begins with bytes that stand for the item. -/
def Accepts (read : Reader Item) (stands : Bytes → Item → Prop) : Prop :=
  ∀ input item rest, read input = .ok (item, rest) →
    ∃ taken, input = taken ++ rest ∧ stands taken item

theorem of_bind_ok {First Second Failure : Type} {first : Except Failure First}
    {next : First → Except Failure Second} {result : Second} (ran : (first >>= next) = .ok result) :
    ∃ taken, first = .ok taken ∧ next taken = .ok result := by
  cases first with
  | error failure => cases ran
  | ok taken => exact ⟨taken, rfl, ran⟩

theorem accepts_giving {read : Reader Item} {stands : Bytes → Item → Prop} (accepts : Accepts read stands)
    {make : Item → Other} {makes : Bytes → Other → Prop}
    (made : ∀ taken item, stands taken item → makes taken (make item)) :
    Accepts (giving make read) makes := by
  intro input other rest accepted
  rw [giving] at accepted
  cases inner : read input with
  | error error =>
      rw [inner] at accepted
      cases accepted
  | ok result =>
      rw [inner] at accepted
      cases accepted
      obtain ⟨taken, split, standing⟩ := accepts input result.1 result.2 inner
      exact ⟨taken, split, made taken result.1 standing⟩

theorem accepts_number (width : Nat) : Accepts (readNumber width) fun taken number =>
    taken = LittleEndian.bytes width number ∧ number < Nat.pow 256 width := by
  induction width with
  | zero =>
      intro input number rest accepted
      cases accepted
      exact ⟨[], rfl, rfl, Nat.one_pos⟩
  | succ width induction =>
      intro input number rest accepted
      cases input with
      | nil => cases accepted
      | cons byte input =>
          obtain ⟨⟨high, left⟩, inner, made⟩ := of_bind_ok accepted
          cases made
          obtain ⟨taken, rfl, rfl, small⟩ := induction input high rest inner
          have low := byte.toNat_lt
          have quotient : (byte.toNat + 256 * high) / 256 = high := by omega
          have digit : UInt8.ofNat (byte.toNat + 256 * high) = byte := by
            apply UInt8.toNat_inj.mp
            rw [UInt8.toNat_ofNat']
            omega
          refine ⟨byte :: LittleEndian.bytes width high, rfl, ?_, ?_⟩
          · rw [LittleEndian.bytes, quotient, digit]
          · have step : Nat.pow 256 (width + 1) = Nat.pow 256 width * 256 := rfl
            rw [step]
            omega

theorem accepts_kind (bound : Nat) : Accepts (readKind bound) fun taken number =>
    taken = kind number ∧ number < bound := by
  intro input number rest accepted
  obtain ⟨⟨found, left⟩, inner, made⟩ := of_bind_ok accepted
  simp only at made
  split at made
  · rename_i known
    cases made
    obtain ⟨taken, split, stands, -⟩ := accepts_number 4 input number rest inner
    exact ⟨taken, split, stands, known⟩
  · cases made

theorem accepts_count : Accepts readCount fun taken number =>
    taken = count number ∧ number < Word.limit :=
  accepts_number 8

theorem accepts_word : Accepts readWord fun taken bits => taken = word bits := by
  intro input bits rest accepted
  obtain ⟨⟨found, left⟩, inner, made⟩ := of_bind_ok accepted
  cases made
  obtain ⟨taken, split, stands, small⟩ := accepts_number 8 input found rest inner
  refine ⟨taken, split, ?_⟩
  show taken = LittleEndian.bytes 8 (UInt64.ofNat found).toNat
  rw [UInt64.toNat_ofNat_of_lt' small]
  exact stands

theorem accepts_flag : Accepts readFlag fun taken truth => taken = flag truth := by
  intro input truth rest accepted
  unfold readFlag at accepted
  split at accepted
  · cases accepted
  · cases accepted
    exact ⟨[0], rfl, rfl⟩
  · cases accepted
    exact ⟨[1], rfl, rfl⟩
  · cases accepted

/-- The length of a text or of bytes, and as much of the input as it tells. -/
theorem accepts_counted {input : Bytes} {length : Nat} {rest : Bytes}
    (counted : readCount input = .ok (length, rest)) (enough : ¬rest.length < length) :
    input = count (rest.take length).length ++ rest.take length ++ rest.drop length ∧
      (rest.take length).length < Word.limit := by
  obtain ⟨taken, rfl, rfl, fits⟩ := accepts_count input length rest counted
  have whole : (rest.take length).length = length := by
    rw [List.length_take]
    omega
  rw [whole, List.append_assoc, List.take_append_drop]
  exact ⟨rfl, fits⟩

theorem accepts_text : Accepts readText fun taken content =>
    taken = text content ∧ utf8Length content < Word.limit := by
  intro input content rest accepted
  obtain ⟨⟨length, left⟩, counted, made⟩ := of_bind_ok accepted
  simp only at made
  split at made
  · cases made
  · rename_i enough
    obtain ⟨split, fits⟩ := accepts_counted counted enough
    cases decoded : Utf8.decode (left.take length) with
    | error defect =>
        rw [decoded] at made
        cases made
    | ok found =>
        rw [decoded] at made
        cases made
        rw [← Utf8.encode_decode decoded] at split fits
        exact ⟨text content, split, rfl, fits⟩

theorem accepts_bytes : Accepts readBytes fun taken content =>
    taken = count content.length ++ content ∧ content.length < Word.limit := by
  intro input content rest accepted
  obtain ⟨⟨length, left⟩, counted, made⟩ := of_bind_ok accepted
  simp only at made
  split at made
  · cases made
  · rename_i enough
    cases made
    obtain ⟨split, fits⟩ := accepts_counted counted enough
    exact ⟨_, split, rfl, fits⟩

/-! ## Accepting sequences -/

variable {read : Reader Item} {stands : Bytes → Item → Prop}

/-- Bytes stand for many items as the bytes of the single items tell. -/
theorem accepts_many (together : Bytes → List Item → Prop) (each : Accepts read stands)
    (none : together [] [])
    (more : ∀ first item others items, stands first item → together others items →
      together (first ++ others) (item :: items)) (length : Nat) :
    Accepts (readMany read length) fun taken items =>
      items.length = length ∧ together taken items := by
  induction length with
  | zero =>
      intro input items rest accepted
      cases accepted
      exact ⟨[], rfl, rfl, none⟩
  | succ length induction =>
      intro input items rest accepted
      obtain ⟨⟨item, left⟩, one, onward⟩ := of_bind_ok accepted
      obtain ⟨⟨later, behind⟩, many, made⟩ := of_bind_ok onward
      cases made
      obtain ⟨first, rfl, firstStands⟩ := each input item left one
      obtain ⟨others, rfl, counted, othersStand⟩ := induction left later rest many
      refine ⟨first ++ others, (List.append_assoc _ _ _).symm, ?_, ?_⟩
      · rw [List.length_cons, counted]
      · exact more first item others later firstStands othersStand

theorem accepts_sequence (together : Bytes → List Item → Prop) (each : Accepts read stands)
    (none : together [] [])
    (more : ∀ first item others items, stands first item → together others items →
      together (first ++ others) (item :: items)) :
    Accepts (readSequence read) fun taken items =>
      ∃ body, taken = count items.length ++ body ∧ items.length < Word.limit ∧
        together body items := by
  intro input items rest accepted
  obtain ⟨⟨length, left⟩, counted, many⟩ := of_bind_ok accepted
  obtain ⟨taken, rfl, rfl, fits⟩ := accepts_count input length left counted
  obtain ⟨body, rfl, rfl, stand⟩ := accepts_many together each none more length left items rest many
  exact ⟨count items.length ++ body, (List.append_assoc _ _ _).symm, body, rfl, fits, stand⟩

theorem accepts_plainSequence {bytesOf : Item → Bytes} {sound : Item → Prop}
    (each : Accepts read fun taken item => taken = bytesOf item ∧ sound item) :
    Accepts (readSequence read) fun taken items =>
      taken = sequence bytesOf items ∧ items.length < Word.limit ∧ ∀ item ∈ items, sound item := by
  intro input items rest accepted
  obtain ⟨taken, split, body, stands, fits, flat, good⟩ := accepts_sequence
    (fun taken items => taken = items.flatMap bytesOf ∧ ∀ item ∈ items, sound item)
    each ⟨rfl, fun _ member => nomatch member⟩ (by
      intro first item others items firstStands othersStand
      obtain ⟨rfl, firstSound⟩ := firstStands
      obtain ⟨rfl, othersSound⟩ := othersStand
      exact ⟨rfl, List.forall_mem_cons.mpr ⟨firstSound, othersSound⟩⟩) input items rest accepted
  refine ⟨taken, split, ?_, fits, good⟩
  rw [stands, flat, sequence]

theorem accepts_words : Accepts (readSequence readWord) fun taken items =>
    taken = sequence word items ∧ items.length < Word.limit := by
  intro input items rest accepted
  have each : Accepts readWord fun taken bits => taken = word bits ∧ True := by
    intro input bits rest accepted
    obtain ⟨taken, split, stands⟩ := accepts_word input bits rest accepted
    exact ⟨taken, split, stands, trivial⟩
  obtain ⟨taken, split, stands, few, -⟩ := accepts_plainSequence each input items rest accepted
  exact ⟨taken, split, stands, few⟩

/-! ## Accepting tables -/

theorem sequence_toUInt64 (items : List UInt64) :
    sequence (fun number : Int64 => word number.toUInt64) (items.map UInt64.toInt64) =
      sequence word items := by
  rw [sequence_map, List.map_map]
  congr 1
  simp [Function.comp_def]

theorem sequence_bits (items : List UInt64) :
    sequence (fun number : Binary64 => word number.bits) (items.map Binary64.mk) =
      sequence word items := by
  rw [sequence_map, List.map_map]
  congr 1
  simp [Function.comp_def]

theorem accepts_columnData : Accepts readColumnData fun taken data =>
    taken = columnData data ∧ data.Countable := by
  intro input data rest accepted
  obtain ⟨⟨number, left⟩, first, onward⟩ := of_bind_ok accepted
  obtain ⟨taken, rfl, rfl, known⟩ := accepts_kind 4 input number left first
  rcases number with _ | _ | _ | _ | number
  · obtain ⟨⟨items, behind⟩, many, made⟩ := of_bind_ok onward
    cases made
    obtain ⟨taken, rfl, rfl, few⟩ := accepts_words left items rest many
    refine ⟨_, (List.append_assoc _ _ _).symm, ?_, ?_⟩
    · rw [columnData, sequence_toUInt64]
    · simpa only [ColumnData.Countable, ColumnData.length, List.length_map] using few
  · obtain ⟨⟨items, behind⟩, many, made⟩ := of_bind_ok onward
    cases made
    obtain ⟨taken, rfl, rfl, few⟩ := accepts_words left items rest many
    refine ⟨_, (List.append_assoc _ _ _).symm, ?_, ?_⟩
    · rw [columnData, sequence_bits]
    · simpa only [ColumnData.Countable, ColumnData.length, List.length_map] using few
  · obtain ⟨⟨items, behind⟩, many, made⟩ := of_bind_ok onward
    cases made
    obtain ⟨taken, rfl, rfl, few⟩ := accepts_plainSequence accepts_text left items rest many
    exact ⟨_, (List.append_assoc _ _ _).symm, rfl, few⟩
  · obtain ⟨⟨items, behind⟩, many, made⟩ := of_bind_ok onward
    cases made
    have each : Accepts readFlag fun taken truth => taken = flag truth ∧ True := by
      intro input truth rest accepted
      obtain ⟨taken, split, stands⟩ := accepts_flag input truth rest accepted
      exact ⟨taken, split, stands, trivial⟩
    obtain ⟨taken, rfl, rfl, few, -⟩ := accepts_plainSequence each left items rest many
    exact ⟨_, (List.append_assoc _ _ _).symm, rfl, few⟩
  · omega

theorem accepts_column : Accepts readColumn fun taken content =>
    taken = column content ∧ content.Countable := by
  intro input content rest accepted
  obtain ⟨⟨name, left⟩, first, onward⟩ := of_bind_ok accepted
  obtain ⟨⟨data, behind⟩, second, made⟩ := of_bind_ok onward
  cases made
  obtain ⟨taken, rfl, rfl, named⟩ := accepts_text input name left first
  obtain ⟨taken, rfl, rfl, countable⟩ := accepts_columnData left data rest second
  exact ⟨_, (List.append_assoc _ _ _).symm, rfl, named, countable⟩

theorem accepts_table : Accepts readTable fun taken content =>
    taken = table content ∧ content.Countable := by
  intro input content rest accepted
  obtain ⟨⟨columns, left⟩, many, made⟩ := of_bind_ok accepted
  cases made
  obtain ⟨taken, rfl, rfl, few, each⟩ := accepts_plainSequence accepts_column input columns rest many
  exact ⟨_, rfl, rfl, few, each⟩

end Codec

/-! ## Accepting values -/

namespace Value

open Codec

variable {gather : List (String × Value) → Value}

/-- The bytes are the encoding of a value as it is written; the maps of what is read are made anew. -/
def Transcribes (gather : List (String × Value) → Value) (taken : Bytes) (value : Value) : Prop :=
  ∃ written : Value, written.Countable ∧ written.encode = .ok taken ∧
    value = written.rebuilt gather

def TranscribesItems (gather : List (String × Value) → Value) (taken : Bytes)
    (items : List Value) : Prop :=
  ∃ written, CountableItems written ∧ encodeItems written = .ok taken ∧
    written.length = items.length ∧ items = rebuiltItems gather written

def TranscribesFields (gather : List (String × Value) → Value) (taken : Bytes)
    (fields : List (String × Value)) : Prop :=
  ∃ written, CountableFields written ∧ encodeFields written = .ok taken ∧
    written.length = fields.length ∧ fields = rebuiltFields gather written

theorem TranscribesItems.cons {first others : Bytes} {item : Value} {items : List Value}
    (head : Transcribes gather first item) (tail : TranscribesItems gather others items) :
    TranscribesItems gather (first ++ others) (item :: items) := by
  obtain ⟨written, countable, encoded, rfl⟩ := head
  obtain ⟨more, countables, encodeds, counted, rfl⟩ := tail
  refine ⟨written :: more, ⟨countable, countables⟩, ?_, ?_, ?_⟩
  · rw [encodeItems, encoded, encodeds]
    rfl
  · rw [List.length_cons, List.length_cons, counted]
  · rw [rebuiltItems]

theorem TranscribesFields.cons {name : String} {first others : Bytes} {value : Value}
    {fields : List (String × Value)} (fits : utf8Length name < Word.limit)
    (head : Transcribes gather first value) (tail : TranscribesFields gather others fields) :
    TranscribesFields gather (Codec.text name ++ first ++ others) ((name, value) :: fields) := by
  obtain ⟨written, countable, encoded, rfl⟩ := head
  obtain ⟨more, countables, encodeds, counted, rfl⟩ := tail
  refine ⟨(name, written) :: more, ⟨fits, countable, countables⟩, ?_, ?_, ?_⟩
  · rw [encodeFields, encoded, encodeds]
    rfl
  · rw [List.length_cons, List.length_cons, counted]
  · rw [rebuiltFields]

theorem accepts_field {read : Reader Value} {stands : Bytes → Value → Prop}
    (accepts : Accepts read stands) : Accepts (readField read) fun taken field =>
      ∃ first, taken = Codec.text field.1 ++ first ∧ utf8Length field.1 < Word.limit ∧
        stands first field.2 := by
  intro input field rest accepted
  obtain ⟨⟨name, left⟩, first, onward⟩ := of_bind_ok accepted
  obtain ⟨⟨value, behind⟩, second, made⟩ := of_bind_ok onward
  cases made
  obtain ⟨taken, rfl, rfl, named⟩ := accepts_text input name left first
  obtain ⟨taken, rfl, standing⟩ := accepts left value rest second
  exact ⟨_, (List.append_assoc _ _ _).symm, taken, rfl, named, standing⟩

/-- What follows a kind is the content of a value of that kind. -/
theorem accepts_content {depth number : Nat} (known : number < 9)
    (inside : Accepts (readWith gather depth) (Transcribes gather)) :
    Accepts (readContent gather (readWith gather depth) number) fun taken value =>
      Transcribes gather (kind number ++ taken) value := by
  match number with
  | 0 =>
      intro input value rest accepted
      cases accepted
      refine ⟨[], rfl, null, trivial, rfl, ?_⟩
      simp only [rebuilt]
  | 1 =>
      apply accepts_giving accepts_flag
      intro taken truth stands
      subst stands
      refine ⟨flag truth, trivial, rfl, ?_⟩
      simp only [rebuilt]
  | 2 =>
      show Accepts (giving (fun bits => integer bits.toInt64) readWord) _
      apply accepts_giving accepts_word
      intro taken bits stands
      subst stands
      refine ⟨integer bits.toInt64, trivial, ?_, ?_⟩
      · rw [encode, UInt64.toUInt64_toInt64]
      · simp only [rebuilt]
  | 3 =>
      show Accepts (giving (fun bits => float ⟨bits⟩) readWord) _
      apply accepts_giving accepts_word
      intro taken bits stands
      subst stands
      refine ⟨float ⟨bits⟩, trivial, rfl, ?_⟩
      simp only [rebuilt]
  | 4 =>
      apply accepts_giving accepts_text
      intro taken content stands
      obtain ⟨rfl, fits⟩ := stands
      refine ⟨text content, fits, rfl, ?_⟩
      simp only [rebuilt]
  | 5 =>
      apply accepts_giving accepts_bytes
      intro taken content stands
      obtain ⟨rfl, fits⟩ := stands
      refine ⟨bytes content, fits, ?_, ?_⟩
      · rw [encode, List.append_assoc]
      · simp only [rebuilt]
  | 6 =>
      apply accepts_giving (accepts_sequence (TranscribesItems gather) inside
        ⟨[], trivial, rfl, rfl, rfl⟩ fun _ _ _ _ => TranscribesItems.cons)
      intro taken items stands
      obtain ⟨body, rfl, fits, written, countable, encoded, counted, rfl⟩ := stands
      rw [← counted] at fits ⊢
      refine ⟨list written, ⟨fits, countable⟩, ?_, ?_⟩
      · rw [encode, encoded, ← List.append_assoc]
        rfl
      · simp only [rebuilt]
  | 7 =>
      apply accepts_giving (accepts_sequence (TranscribesFields gather) (accepts_field inside)
        ⟨[], trivial, rfl, rfl, rfl⟩ (by
          intro first field others fields ⟨value, stands, fits, head⟩ tail
          rw [stands]
          exact TranscribesFields.cons fits head tail))
      intro taken fields stands
      obtain ⟨body, rfl, fits, written, countable, encoded, counted, rfl⟩ := stands
      rw [← counted] at fits ⊢
      refine ⟨map written, ⟨fits, countable⟩, ?_, ?_⟩
      · rw [encode, encoded, ← List.append_assoc]
        rfl
      · simp only [rebuilt]
  | 8 =>
      apply accepts_giving accepts_table
      intro taken content stands
      obtain ⟨rfl, countable⟩ := stands
      refine ⟨table content, countable, rfl, ?_⟩
      simp only [rebuilt]
  | number + 9 => omega

theorem accepts_value (depth : Nat) : Accepts (readWith gather depth) (Transcribes gather) := by
  induction depth with
  | zero =>
      intro input value rest accepted
      cases accepted
  | succ depth induction =>
      intro input value rest accepted
      obtain ⟨⟨number, left⟩, first, onward⟩ := of_bind_ok accepted
      obtain ⟨taken, rfl, rfl, known⟩ := accepts_kind 9 input number left first
      obtain ⟨body, rfl, stands⟩ := accepts_content known induction left value rest onward
      exact ⟨_, (List.append_assoc _ _ _).symm, stands⟩

end Value

end TierVault
