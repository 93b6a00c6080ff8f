import Mathlib.Data.List.Forall2
import TierVault.Proofs.Json.Records
import TierVault.Proofs.Keyed
import TierVault.Proofs.Store.Success
import TierVault.Store.Disk
import TierVault.Store.Disk.Index

/-!
The book of a disk store: its index, and its totals.

An index reads back from its text form as it was, if its numbers are words and its keys are distinct. Every call
adds to a count once, and not much. So the counts stay words through a run that is not too long.
-/

/-! # The text form of an index -/

namespace TierVault

open Json

variable {index : DiskIndex}

/-- The numbers of a record fit words. -/
structure DiskRecord.Words (record : DiskRecord) : Prop where
  size : record.size < Word.limit
  storedBytes : record.storedBytes < Word.limit
  createdAt : record.createdAt < Word.limit
  accessedAt : record.accessedAt < Word.limit
  accessCount : record.accessCount < Word.limit

/-- The numbers of an index fit words. -/
structure DiskIndex.Words (index : DiskIndex) : Prop where
  clock : index.clock < Word.limit
  records : ∀ pair ∈ index.records, pair.2.Words

theorem DiskIndex.Words.put {records : Keyed String DiskRecord} {key : String} {record : DiskRecord}
    {clock : Nat} (others : ∀ pair ∈ records, pair.2.Words) (own : record.Words)
    (fits : clock < Word.limit) : DiskIndex.Words ⟨Keyed.put key record records, clock⟩ := by
  refine ⟨fits, fun pair member => ?_⟩
  rcases Keyed.mem_of_mem_put member with rfl | kept
  · exact own
  · exact others pair kept

/-- Fewer records. -/
theorem DiskIndex.Words.fewer (words : index.Words) {records : Keyed String DiskRecord}
    (fewer : ∀ pair ∈ records, pair ∈ index.records) : DiskIndex.Words { index with records } :=
  ⟨words.clock, fun pair member => words.records pair (fewer pair member)⟩

theorem PayloadFormat.takes_reader (format : PayloadFormat) :
    Takes PayloadFormat.reader (Utf8.encode (Document.string format.name).compact) format := by
  intro rest closed
  have read := takes_string "a format" format.name rest closed
  rw [Document.compact]
  rw [encode_quoted, List.cons_append] at read ⊢
  rw [reader, atValue_cons _ (by decide), if_neg (by decide), read]
  cases format <;> rfl

theorem DiskRecord.takes_reader (record : DiskRecord) (words : record.Words) :
    Takes DiskRecord.reader (Utf8.encode record.document.compact) record := by
  have natural {number : Nat} (small : number < Word.limit) :
      Takes (natural Word.limit "a word") (Utf8.encode (Document.integer number).compact) number :=
    takes_natural "a word" small (Nat.le_refl _)
  refine takes_record "a record" rfl (by decide) ?_
  refine .field rfl (takes_field _ _ _ (takes_string _ record.file)) ?_
  refine .field rfl (takes_field _ _ _ (natural words.size)) ?_
  refine .field rfl (takes_field _ _ _ (natural words.storedBytes)) ?_
  refine .field rfl (takes_field _ _ _ (PayloadFormat.takes_reader record.format)) ?_
  refine .field rfl (takes_field _ _ _ (takes_truth record.compressed)) ?_
  refine .field rfl (takes_field _ _ _ (natural words.createdAt)) ?_
  refine .field rfl (takes_field _ _ _ (natural words.accessedAt)) ?_
  refine .field rfl (takes_field _ _ _ (natural words.accessCount)) ?_
  exact .done record

/-- Distinct keys come into an index in their order. -/
theorem foldl_put (before records : Keyed String DiskRecord)
    (distinct : Keyed.Distinct (before ++ records)) :
    records.foldl (fun records pair => Keyed.put pair.1 pair.2 records) before = before ++ records := by
  induction records generalizing before with
  | nil => exact (List.append_nil _).symm
  | cons pair records induction =>
      obtain ⟨key, record⟩ := pair
      have unknown : Keyed.find? key before = none := by
        refine Keyed.find?_eq_none_iff.mpr fun member => ?_
        rw [Keyed.Distinct, Keyed.keys, List.map_append] at distinct
        exact (List.nodup_append.mp distinct).2.2 key member key List.mem_cons_self rfl
      rw [List.append_cons] at distinct
      rw [List.foldl_cons, Keyed.put_of_find?_eq_none unknown, induction _ distinct]
      exact (List.append_cons ..).symm

namespace DiskIndex

theorem takes_recordsReader (distinct : Keyed.Distinct index.records)
    (words : ∀ pair ∈ index.records, pair.2.Words) :
    Takes recordsReader (Utf8.encode (Document.object (index.records.map fun (key, record) =>
      (key, record.document))).compact) index.records := by
  intro rest closed
  have each : List.Forall₂ (fun field value => field.1 = value.1 ∧
      Takes DiskRecord.reader (Utf8.encode field.2.compact) value.2)
      (index.records.map fun (key, record) => (key, record.document)) index.records := by
    rw [List.forall₂_map_left_iff]
    exact List.forall₂_same.mpr fun pair member => ⟨rfl, DiskRecord.takes_reader _ (words pair member)⟩
  rw [recordsReader]
  simp only [takes_objectOf each rest closed, bind, Except.bind]
  exact congrArg (fun records => Except.ok (records, rest))
    (foldl_put [] index.records distinct)

/-- An index is read back from its text form. -/
theorem parse_text (distinct : Keyed.Distinct index.records) (words : index.Words) :
    parse index.text = .ok index := by
  refine whole_eq (takes_record "an index" rfl (by decide) ?_)
  refine .field rfl (takes_field _ _ _ (takes_recordsReader distinct words.records)) ?_
  refine .field rfl (takes_field _ _ _ (takes_natural "a word" words.clock (Nat.le_refl _))) ?_
  exact .done index

end DiskIndex

end TierVault

/-! # What the steps do to the book -/

namespace TierVault.DiskStore

open StoreAction

variable {faults : Fault → Prop} {step rest count amount size : Nat} {key : String}
  {record : DiskRecord} {book : DiskBook} {world : DiskWorld} {written : WrittenPayload}
  {names : List String}

/-! ## Counts -/

/-- The count stays a word through so many more calls, unless a fault is expected. -/
def Bounded (faults : Fault → Prop) (step rest count : Nat) : Prop :=
  ¬faults .sumOverflow → count + rest * step < Word.limit

theorem Bounded.fits (bounded : Bounded faults step rest count) :
    ¬faults .sumOverflow → count < Word.limit :=
  fun unexpected => Nat.lt_of_le_of_lt (Nat.le_add_right _ _) (bounded unexpected)

theorem Bounded.of_le (bounded : Bounded faults step rest count) (less : amount ≤ count) :
    Bounded faults step rest amount :=
  fun unexpected => Nat.lt_of_le_of_lt (Nat.add_le_add_right less _) (bounded unexpected)

theorem Bounded.add (bounded : Bounded faults step (rest + 1) count) (small : amount ≤ step) :
    Bounded faults step rest (count + amount) := by
  intro unexpected
  have before := bounded unexpected
  rw [Nat.succ_mul] at before
  omega

theorem Bounded.later (bounded : Bounded faults step (rest + 1) count) :
    Bounded faults step rest count :=
  bounded.add (Nat.zero_le step)

/-- All counts of the book stay words. -/
structure BoundedBook (faults : Fault → Prop) (step rest : Nat) (book : DiskBook) : Prop where
  clock : Bounded faults step rest book.index.clock
  writes : Bounded faults step rest book.transfers.writes
  reads : Bounded faults step rest book.transfers.reads
  bytesWritten : Bounded faults step rest book.transfers.bytesWritten
  bytesRead : Bounded faults step rest book.transfers.bytesRead
  records : ∀ pair ∈ book.index.records,
    Bounded faults step rest pair.2.accessCount ∧ pair.2.storedBytes ≤ step

theorem BoundedBook.later (bounded : BoundedBook faults step (rest + 1) book) :
    BoundedBook faults step rest book where
  clock := bounded.clock.later
  writes := bounded.writes.later
  reads := bounded.reads.later
  bytesWritten := bounded.bytesWritten.later
  bytesRead := bounded.bytesRead.later
  records pair member := ⟨(bounded.records pair member).1.later, (bounded.records pair member).2⟩

/-- Only the index differs, and it has no new records. -/
theorem BoundedBook.change (bounded : BoundedBook faults step rest book) (dirty : Bool)
    {records : Keyed String DiskRecord} (fewer : ∀ pair ∈ records, pair ∈ book.index.records) :
    BoundedBook faults step rest ⟨{ book.index with records }, dirty, book.transfers⟩ where
  clock := bounded.clock
  writes := bounded.writes
  reads := bounded.reads
  bytesWritten := bounded.bytesWritten
  bytesRead := bounded.bytesRead
  records pair member := bounded.records pair (fewer pair member)

/-! ## Steps on the book -/

theorem succeeds_changeBook {change : DiskBook → DiskBook} {after : Unit → DiskWorld → Prop}
    (holds : after () { world with book := change world.book }) :
    Succeeds faults (changeBook change) world after :=
  succeeds_modify holds

theorem succeeds_records {after : Keyed String DiskRecord → DiskWorld → Prop}
    (holds : after world.book.index.records world) : Succeeds faults records world after :=
  succeeds_of_eq rfl holds

theorem nextTick_succeeds
    (fits : ¬faults .sumOverflow → world.book.index.clock + 1 < Word.limit)
    {after : Nat → DiskWorld → Prop}
    (holds : world.book.index.clock + 1 < Word.limit → after (world.book.index.clock + 1)
      { world with book := { world.book with index :=
        { world.book.index with clock := world.book.index.clock + 1 } } }) :
    Succeeds faults nextTick world after := by
  refine Succeeds.bind (succeeds_getThe (Succeeds.bind (succeeds_sum fits fun word => ?_)))
  exact Succeeds.bind (succeeds_changeBook (succeeds_pure (holds word)))

/-- The written payload is in the index in place of the victims, and it was used last. -/
theorem commit_succeeds (bounded : BoundedBook faults step (rest + 1) book) (some : 1 ≤ step)
    (light : written.storedBytes ≤ step) (files : FileSystem) :
    Succeeds faults (commit key size names written) ⟨book, files⟩ fun left after =>
      after.files = files ∧
        left = (book.index.records.filter fun pair => names.contains pair.1).map (·.2.file) ∧
          BoundedBook faults step rest after.book ∧ ∃ record,
            (record.file = fileFor key ∧ record.size = size ∧ record.format = written.format ∧
              record.storedBytes = written.storedBytes ∧ record.accessedAt = book.index.clock + 1) ∧
            after.book.index = ⟨Keyed.put key record (book.index.records.filter fun pair =>
              !names.contains pair.1), book.index.clock + 1⟩ ∧ after.book.dirty = true ∧
            (size < Word.limit → files.seconds < Word.limit → book.index.Words →
              after.book.index.Words) := by
  unfold commit
  refine Succeeds.bind (succeeds_records (Succeeds.bind (succeeds_changeBook ?_)))
  refine Succeeds.bind (nextTick_succeeds ?_ fun clock => ?_)
  · exact (bounded.clock.add some).fits
  refine Succeeds.bind (succeeds_getThe (Succeeds.bind (succeeds_changeBook ?_)))
  refine Succeeds.bind (succeeds_changeBook (Succeeds.bind (succeeds_getThe ?_)))
  have writes := bounded.writes.add some
  have bytesWritten := bounded.bytesWritten.add light
  refine Succeeds.bind (succeeds_sum writes.fits fun _ => ?_)
  refine Succeeds.bind (succeeds_sum bytesWritten.fits fun written_fits => ?_)
  refine Succeeds.bind (succeeds_changeBook (succeeds_pure ?_))
  refine ⟨rfl, rfl, ?_, _, ?_, rfl, rfl, ?_⟩
  · have later := bounded.later
    refine ⟨bounded.clock.add some, writes, later.reads, bytesWritten, later.bytesRead, ?_⟩
    intro pair member
    rcases Keyed.mem_of_mem_put member with rfl | kept
    · exact ⟨later.clock.of_le (Nat.zero_le _), light⟩
    · exact later.records pair (List.filter_sublist.subset kept)
  · exact ⟨rfl, rfl, rfl, rfl, rfl⟩
  · intro size now words
    refine .put (fun pair member => words.records pair (List.filter_sublist.subset member)) ?_ clock
    exact ⟨size, Nat.lt_of_le_of_lt (Nat.le_add_left _ _) written_fits, now, clock, (by decide : 0 < _)⟩

/-- The record was used last, and is otherwise what it was. -/
theorem noteRead_succeeds (bounded : BoundedBook faults step (rest + 1) book) (some : 1 ≤ step)
    (found : Keyed.find? key book.index.records = Option.some record) (files : FileSystem) :
    Succeeds faults (noteRead key record) ⟨book, files⟩ fun _ after =>
      after.files = files ∧ BoundedBook faults step rest after.book ∧ ∃ used : DiskRecord,
        (used.file = record.file ∧ used.size = record.size ∧ used.format = record.format ∧
          used.storedBytes = record.storedBytes ∧ used.accessedAt = book.index.clock + 1) ∧
        after.book.index = ⟨Keyed.put key used book.index.records, book.index.clock + 1⟩ ∧
          after.book.dirty = true ∧ (book.index.Words → after.book.index.Words) := by
  have own := bounded.records _ (Keyed.mem_of_find? found)
  have accesses := own.1.add some
  unfold noteRead
  refine Succeeds.bind (nextTick_succeeds ?_ fun clock => ?_)
  · exact (bounded.clock.add some).fits
  refine Succeeds.bind (succeeds_records ?_)
  simp only [found]
  refine Succeeds.bind (succeeds_changeBook (Succeeds.bind (succeeds_sum accesses.fits fun counted => ?_)))
  refine Succeeds.bind (succeeds_changeBook (Succeeds.bind (succeeds_changeBook ?_)))
  have reads := bounded.reads.add some
  have bytesRead := bounded.bytesRead.add own.2
  refine Succeeds.bind (succeeds_getThe ?_)
  refine Succeeds.bind (succeeds_sum reads.fits fun _ => ?_)
  refine Succeeds.bind (succeeds_sum bytesRead.fits fun _ => ?_)
  refine succeeds_changeBook ⟨rfl, ?_, _, ?_,
    congrArg (DiskIndex.mk · _) (Keyed.put_put _ _ _ _), rfl, fun words => ?_⟩
  · have later := bounded.later
    refine ⟨bounded.clock.add some, later.writes, reads, later.bytesWritten, bytesRead, ?_⟩
    intro pair member
    rcases Keyed.mem_of_mem_put member with rfl | kept
    · exact ⟨accesses, own.2⟩
    · rcases Keyed.mem_of_mem_put kept with rfl | before
      · exact ⟨own.1.later, own.2⟩
      · exact later.records pair before
  · exact ⟨rfl, rfl, rfl, rfl, rfl⟩
  · have same := words.records _ (Keyed.mem_of_find? found)
    change DiskIndex.Words ⟨Keyed.put key _ (Keyed.put key _ book.index.records), _⟩
    rw [Keyed.put_put]
    exact .put words.records ⟨same.size, same.storedBytes, same.createdAt, clock, counted⟩ clock

end TierVault.DiskStore
