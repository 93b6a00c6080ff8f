import TierVault.Columnar
import TierVault.Proofs.Compression
import TierVault.Proofs.Value.Encoding

/-!
What is written to a file is read back.

Regular tables come back from columnar files, and encodings of values come back from files in which they lie
as they are or in a frame. What a value weighs is the length of its encoding.
-/

namespace TierVault

open Codec

variable {table : Table} {value : Value} {encoded : Bytes}

theorem Value.weight_of_encode (encodes : value.encode = .ok encoded) :
    value.weight = encoded.length :=
  Value.weight_eq (Value.encodedSize_of_encode encodes)

/-! ## Tables in columnar files -/

namespace Table

theorem check_eq {expected : Nat} {columns : List Column} {seen : List String}
    (lengths : ∀ column ∈ columns, column.data.length = expected)
    (names : (columns.map Column.name).Nodup) (fresh : ∀ column ∈ columns, column.name ∉ seen) :
    check expected seen columns = .ok () := by
  induction columns generalizing seen with
  | nil => rfl
  | cons column rest induction =>
      obtain ⟨apart, later⟩ := List.nodup_cons.mp names
      have own := lengths column List.mem_cons_self
      rw [check, if_neg (not_not_intro own), if_neg (fresh column List.mem_cons_self)]
      refine induction (fun other member => lengths other (List.mem_cons_of_mem _ member)) later ?_
      intro other member known
      rcases List.mem_cons.mp known with same | before
      · exact apart (same ▸ List.mem_map_of_mem member)
      · exact fresh other (List.mem_cons_of_mem _ member) before

theorem Regular.ofColumns_eq (regular : table.Regular) : ofColumns table.columns = .ok table := by
  obtain ⟨columns⟩ := table
  cases columns with
  | nil => rfl
  | cons first rest =>
      obtain ⟨lengths, names⟩ := regular
      have checked := check_eq (fun column member => lengths column member first List.mem_cons_self)
        names fun column _ => List.not_mem_nil
      simp only [ofColumns, checked, bind, Except.bind, pure, Except.pure]

end Table

namespace Columnar

theorem write_eq (regular : table.Regular) (some : supports table = true) {level : Option Int}
    (known : level.any (!isLevel ·) = false) : write table level = .ok ⟨table.columns⟩ := by
  have even : isRagged table = false := by
    refine List.any_eq_false.mpr fun column member => ?_
    obtain ⟨columns⟩ := table
    cases columns with
    | nil => cases member
    | cons first rest =>
        have same := regular.1 column member first List.mem_cons_self
        simp [Table.rowCount, same]
  simp only [write, some, even, known, Bool.not_true, Bool.false_eq_true, if_false]

/-- A file that was written holds the columns of its table. -/
theorem eq_of_write {level : Option Int} {file : File} (written : write table level = .ok file) :
    file = ⟨table.columns⟩ := by
  unfold write at written
  split at written
  · cases written
  · split at written
    · cases written
    · split at written
      · cases written
      · exact (Except.ok.inj written).symm

theorem read_eq (regular : table.Regular) : read ⟨table.columns⟩ = .ok table := by
  rw [read, regular.ofColumns_eq]

end Columnar

end TierVault
