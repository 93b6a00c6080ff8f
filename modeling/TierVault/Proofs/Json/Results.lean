import TierVault.Json.Record

/-!
What the things that a reader gives have in common.

A number that is read lies below the bound it is read with. A record is read field by field, from the one it
starts with: what holds of that, and what no field takes away, holds of the record that is given.
-/

namespace TierVault.Json

variable {Item Record First Second : Type} {holds : Item → Prop} {keeps : Record → Prop}
  {fields : List (RecordField Record)}

/-- Whatever the reader gives, it holds of that. -/
def Gives (read : Reader Item) (holds : Item → Prop) : Prop :=
  ∀ input item rest, read input = .ok (item, rest) → holds item

theorem parts_of_ok {first : Except Stop First} {next : First → Except Stop Second} {result : Second}
    (ended : (first >>= next) = .ok result) : ∃ middle, first = .ok middle ∧ next middle = .ok result := by
  cases first with
  | error => cases ended
  | ok middle => exact ⟨middle, rfl, ended⟩

theorem gives_atValue {read : UInt8 → Reader Item} (gives : ∀ byte, Gives (read byte) holds) :
    Gives (atValue read) holds := by
  intro input item rest ended
  unfold atValue at ended
  split at ended
  · cases ended
  · exact gives _ _ _ _ ended

/-- What is not of the expected kind is never given. -/
theorem gives_unexpected (expected : String) : Gives (unexpected expected) holds := by
  intro input item rest ended
  unfold unexpected at ended
  simp only [stop] at ended
  split at ended
  · cases ended
  · repeat' split at ended
    all_goals
      first
      | cases ended
      | obtain ⟨_, _, ended⟩ := parts_of_ok ended
        cases ended

/-! ## Numbers -/

theorem refuse_ne_ok {number : Number} {expected : String} {input : Bytes} {result : Item × Bytes} :
    refuse number expected input ≠ .ok result := by
  intro ended
  unfold refuse at ended
  split at ended <;> cases ended

theorem gives_natural (bound : Nat) (expected : String) : Gives (natural bound expected) (· < bound) := by
  intro input item rest ended
  obtain ⟨⟨number, left⟩, -, ended⟩ := parts_of_ok ended
  cases number with
  | whole magnitude =>
      simp only [] at ended
      split at ended
      · rename_i small
        cases ended
        exact small
      · exact (refuse_ne_ok ended).elim
  | negative => exact (refuse_ne_ok ended).elim
  | fractional => exact (refuse_ne_ok ended).elim

/-- `null` is no item; anything else is one that the reader gives. -/
theorem gives_optional {read : Reader Item} (gives : Gives read holds) :
    Gives (optional read) fun item? => ∀ item ∈ item?, holds item := by
  refine gives_atValue fun byte input item? rest ended => ?_
  split at ended
  · obtain ⟨_, -, ended⟩ := parts_of_ok ended
    cases ended
    nofun
  · obtain ⟨⟨item, left⟩, taken, ended⟩ := parts_of_ok ended
    cases ended
    intro other same
    cases same
    exact gives _ _ _ taken

/-! ## Records -/

/-- Reading the field takes nothing from the record. -/
def RecordField.Keeps (field : RecordField Record) (keeps : Record → Prop) : Prop :=
  ∀ record, keeps record → Gives (field.read record) keeps

theorem keeps_field {read : Reader Item} {put : Record → Item → Record} (name : String) (optional : Bool)
    (gives : Gives read holds) (puts : ∀ record item, keeps record → holds item → keeps (put record item)) :
    (field name read put optional).Keeps keeps := by
  intro record held input next rest ended
  obtain ⟨⟨item, left⟩, taken, ended⟩ := parts_of_ok ended
  cases ended
  exact puts record item held (gives _ _ _ taken)

/-- A field that the property does not speak of. -/
theorem keeps_other {read : Reader Item} {put : Record → Item → Record} (name : String) (optional : Bool)
    (puts : ∀ record item, keeps record → keeps (put record item)) :
    (field name read put optional).Keeps keeps :=
  keeps_field name optional (show Gives read fun _ => True from fun _ _ _ _ => trivial) fun record item held _ =>
    puts record item held

theorem gives_recordMembers (each : ∀ field ∈ fields, field.Keeps keeps) (bound : Nat) (first : Bool)
    (seen : List String) {record : Record} (held : keeps record) :
    Gives (recordMembers fields bound first seen record) keeps := by
  induction bound generalizing first seen record with
  | zero =>
      intro input item rest ended
      cases ended
  | succ bound induction =>
      intro input item rest ended
      obtain ⟨⟨key?, left⟩, -, ended⟩ := parts_of_ok ended
      cases key? with
      | none =>
          simp only [] at ended
          split at ended
          · cases ended
          · obtain ⟨_, -, ended⟩ := parts_of_ok ended
            cases ended
            exact held
      | some key =>
          simp only [] at ended
          split at ended
          · rename_i field found
            split at ended
            · cases ended
            · obtain ⟨_, -, ended⟩ := parts_of_ok ended
              obtain ⟨⟨next, _⟩, taken, ended⟩ := parts_of_ok ended
              have kept := each field (List.mem_of_find?_eq_some found) record held _ next _ taken
              exact induction false (key :: seen) kept _ _ _ ended
          · obtain ⟨_, -, ended⟩ := parts_of_ok ended
            obtain ⟨_, -, ended⟩ := parts_of_ok ended
            exact induction false seen held _ _ _ ended

theorem gives_recordElements (each : ∀ field ∈ fields, field.Keeps keeps) (first : Bool) {record : Record}
    (held : keeps record) : Gives (recordElements fields first record) keeps := by
  induction fields generalizing first record with
  | nil =>
      intro input item rest ended
      obtain ⟨_, -, ended⟩ := parts_of_ok ended
      cases ended
      exact held
  | cons field later induction =>
      intro input item rest ended
      have others := fun other member => each other (List.mem_cons_of_mem field member)
      obtain ⟨⟨more, left⟩, -, ended⟩ := parts_of_ok ended
      simp only [] at ended
      split at ended
      · obtain ⟨⟨next, _⟩, taken, ended⟩ := parts_of_ok ended
        have kept := each field List.mem_cons_self record held _ next _ taken
        exact induction others false kept _ _ _ ended
      · split at ended
        · exact induction others first held _ _ _ ended
        · cases ended

theorem gives_record (expected : String) (each : ∀ field ∈ fields, field.Keeps keeps) {start : Record}
    (held : keeps start) : Gives (record expected fields start) keeps := by
  refine gives_atValue fun byte input item rest ended => ?_
  split at ended
  · exact gives_recordMembers each _ true [] held _ _ _ ended
  · split at ended
    · exact gives_recordElements each true held _ _ _ ended
    · exact gives_unexpected _ _ _ _ ended

/-- A whole text gives what its reader gives. -/
theorem whole_gives {read : Reader Item} (gives : Gives read holds) {text : Bytes} {item : Item}
    (ended : whole read text = .ok item) : holds item := by
  unfold whole at ended
  cases taken : read text with
  | error stop =>
      rw [taken] at ended
      cases ended
  | ok result =>
      obtain ⟨given, rest⟩ := result
      simp only [taken, bind, Except.bind] at ended
      split at ended
      · cases ended
        exact gives _ _ _ taken
      · cases ended

end TierVault.Json
