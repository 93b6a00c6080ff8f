import TierVault.Proofs.Store.SharedSections

/-!
What the sections of calls on a shared disk store do to the sizes in its index.

Only the section that commits a write brings bytes into the index. Every other section leaves each record at
its size, or takes records away. This is so whatever the files are.
-/

namespace TierVault

open DiskStore StoreAction TierVault.Action

/-! ## The bytes of records -/

/-- The bytes of the records under the keys that are told. -/
def bytesOf (keep : String → Bool) (records : Keyed String DiskRecord) : Nat :=
  sumOf (records.map fun (key, record) => if keep key then record.size else 0)

/-- The bytes of all records. -/
def DiskIndex.bytes (index : DiskIndex) : Nat := sumOf (index.records.map fun (_, record) => record.size)

section

variable {keep : String → Bool} {records before middle after : Keyed String DiskRecord} {key : String}
  {record held : DiskRecord}

@[simp] theorem bytesOf_nil (keep : String → Bool) : bytesOf keep [] = 0 := rfl

@[simp] theorem bytesOf_cons (keep : String → Bool) (key : String) (record : DiskRecord)
    (records : Keyed String DiskRecord) :
    bytesOf keep ((key, record) :: records) = (if keep key then record.size else 0) + bytesOf keep records :=
  rfl

theorem bytesOf_sublist (sublist : after.Sublist before) : bytesOf keep after ≤ bytesOf keep before :=
  sumOf_sublist (sublist.map _)

theorem bytesOf_put_le (keep : String → Bool) (key : String) (record : DiskRecord)
    (records : Keyed String DiskRecord) :
    bytesOf keep (Keyed.put key record records) ≤
      bytesOf keep records + if keep key then record.size else 0 := by
  induction records with
  | nil => simp [Keyed.put]
  | cons head rest induction =>
      obtain ⟨other, held⟩ := head
      rw [Keyed.put]
      split
      · simp only [bytesOf_cons]
        omega
      · simp only [bytesOf_cons]
        omega

theorem bytesOf_put_of_find? (found : Keyed.find? key records = some held)
    (same : record.size = held.size) :
    bytesOf keep (Keyed.put key record records) = bytesOf keep records := by
  induction records with
  | nil => cases found
  | cons head rest induction =>
      obtain ⟨other, first⟩ := head
      by_cases own : other = key
      · simp only [Keyed.find?, own, if_true, Option.some.injEq] at found
        simp only [Keyed.put, own, if_true, bytesOf_cons, found, same]
      · simp only [Keyed.find?, own, if_false] at found
        simp only [Keyed.put, own, if_false, bytesOf_cons, induction found]

/-- Where no record is under the key, it does not matter whether the key is told. -/
theorem bytesOf_of_fresh (fresh : key ∉ Keyed.keys records) :
    bytesOf (fun _ => true) records = bytesOf (· ≠ key) records := by
  refine congrArg sumOf (List.map_congr_left fun pair member => ?_)
  have different : pair.1 ≠ key := fun same => fresh (same ▸ List.mem_map_of_mem member)
  simp [different]

/-- A record takes the place of that of its key. -/
theorem bytesOf_put (distinct : Keyed.Distinct records) (key : String) (record : DiskRecord) :
    bytesOf (fun _ => true) (Keyed.put key record records) = bytesOf (· ≠ key) records + record.size := by
  induction records with
  | nil => simp [Keyed.put]
  | cons head rest induction =>
      obtain ⟨other, held⟩ := head
      have parts := List.nodup_cons.mp distinct
      by_cases own : other = key
      · subst own
        have others := bytesOf_of_fresh parts.1
        simp only [Keyed.put, if_true, bytesOf_cons, others, ne_eq, not_true, decide_false,
          Bool.false_eq_true, if_false]
        omega
      · have later := induction parts.2
        simp only [Keyed.put, own, if_false, bytesOf_cons, later, ne_eq, not_false_eq_true, decide_true, if_true]
        omega

theorem bytesOf_filter (keep stay : String → Bool) (records : Keyed String DiskRecord) :
    bytesOf keep (records.filter fun pair => stay pair.1) =
      bytesOf (fun key => keep key && stay key) records := by
  induction records with
  | nil => rfl
  | cons head rest induction =>
      obtain ⟨other, held⟩ := head
      cases stays : stay other <;> simp [stays, induction]

/-- No record grows and none comes. -/
structure Lightens (before after : Keyed String DiskRecord) : Prop where
  distinct : Keyed.Distinct before → Keyed.Distinct after
  bytes : ∀ keep, bytesOf keep after ≤ bytesOf keep before

namespace Lightens

theorem refl (records : Keyed String DiskRecord) : Lightens records records :=
  ⟨id, fun _ => Nat.le_refl _⟩

theorem trans (first : Lightens before middle) (second : Lightens middle after) : Lightens before after :=
  ⟨fun distinct => second.distinct (first.distinct distinct),
    fun keep => Nat.le_trans (second.bytes keep) (first.bytes keep)⟩

theorem of_sublist (sublist : after.Sublist before) : Lightens before after :=
  ⟨(sublist.map Prod.fst).nodup, fun _ => bytesOf_sublist sublist⟩

theorem put (found : Keyed.find? key records = some held) (same : record.size = held.size) :
    Lightens records (Keyed.put key record records) :=
  ⟨fun distinct => distinct.put key record, fun _ => Nat.le_of_eq (bytesOf_put_of_find? found same)⟩

end Lightens

end

/-! ## Actions that bring no bytes -/

namespace DiskStore

variable {Result Next : Type} {settings : DiskSettings} {world : DiskWorld}

def Lightening (action : DiskAction Result) : Prop :=
  ∀ world, Leads AnyFault action.run world fun _ after =>
    Lightens world.book.index.records after.book.index.records

theorem lightening_of_records {action : DiskAction Result}
    (same : ∀ world, Leads AnyFault action.run world fun _ after =>
      after.book.index.records = world.book.index.records) : Lightening action := by
  intro world
  refine (same world).imp fun answer after _ equal => ?_
  rw [equal]
  exact .refl _

theorem lightening_pure (result : Result) : Lightening (pure result) := fun _ => .refl _

theorem lightening_throw (error : StoreError) : Lightening (throw error : DiskAction Result) :=
  fun _ => .refl _

theorem lightening_getThe : Lightening (getThe DiskWorld) := fun _ => .refl _

theorem Lightening.bind {action : DiskAction Result} {next : Result → DiskAction Next}
    (first : Lightening action) (second : ∀ result, Lightening (next result)) :
    Lightening (action >>= next) := by
  intro world
  refine leads_run_bind ((first world).imp fun answer middle _ lighter => ?_)
  cases answer with
  | error error => exact lighter
  | ok result => exact (second result middle).imp fun _ _ _ further => lighter.trans further

theorem lightening_ofExcept {Error : Type} (wrap : Error → StoreError) (computation : Except Error Result) :
    Lightening (.ofExcept wrap computation) := by
  cases computation with
  | ok result => exact lightening_pure result
  | error error => exact lightening_throw (wrap error)

theorem lightening_onFiles (action : FileAction Result) : Lightening (onFiles action) := by
  intro world
  simp only [onFiles, StoreAction.within, StoreAction.onFiles, ExceptT.run, Leads]
  cases action world.files <;> exact Lightens.refl _

theorem lightening_changeBook {change : DiskBook → DiskBook}
    (same : ∀ book, (change book).index.records = book.index.records) : Lightening (changeBook change) := by
  refine lightening_of_records fun world => ?_
  exact same world.book

theorem Lightening.lift {action : DiskAction Result} (lightens : Lightening action) :
    Lightening (ExceptT.lift action.run : DiskAction (Except StoreError Result)) := by
  intro world
  rw [ExceptT.run_lift, map_eq_pure_bind, leads_bind]
  exact lightens world

theorem Lightening.attempt {action : DiskAction Unit} (lightens : Lightening action) :
    Lightening (.attempt action) :=
  lightens.lift.bind fun _ => lightening_pure ()

/-! ## The parts of calls -/

theorem lightening_records : Lightening records :=
  lightening_getThe.bind fun _ => lightening_pure _

theorem lightening_markDirty : Lightening markDirty := lightening_changeBook fun _ => rfl

theorem lightening_persist (settings : DiskSettings) : Lightening (persist settings) := by
  unfold persist
  refine lightening_getThe.bind fun world => ?_
  dsimp only
  split
  · exact lightening_pure ()
  · refine (lightening_onFiles _).bind fun _ => (lightening_onFiles _).bind fun _ => ?_
    exact lightening_changeBook fun _ => rfl

theorem lightening_removeFileOf (settings : DiskSettings) (file : String) :
    Lightening (removeFileOf settings file) :=
  (lightening_onFiles _).attempt

theorem lightening_remove (key : String) : Lightening (changeRecords (Keyed.remove key)) :=
  fun _ => .of_sublist List.filter_sublist

theorem lightening_readPayload (settings : DiskSettings) (name : String) (format : PayloadFormat) :
    Lightening (readPayload settings name format) := by
  cases format with
  | columnar =>
      refine (lightening_onFiles _).bind fun node => (lightening_ofExcept _ _).bind fun file => ?_
      exact (lightening_ofExcept _ _).bind fun table => lightening_pure _
  | binary =>
      refine (lightening_onFiles _).bind fun stored => (lightening_ofExcept _ _).bind fun content => ?_
      exact lightening_ofExcept _ _

/-- A read leaves every record at its size. -/
theorem noteRead_lightens (key : String) (record : DiskRecord) :
    Succeeds AnyFault (noteRead key record) world fun _ after =>
      Lightens world.book.index.records after.book.index.records := by
  have expected {property : Prop} : ¬AnyFault .sumOverflow → property := absurd trivial
  unfold noteRead
  refine Succeeds.bind (nextTick_succeeds expected fun _ => Succeeds.bind (succeeds_records ?_))
  cases found : Keyed.find? key world.book.index.records with
  | none =>
      refine Succeeds.bind (succeeds_changeBook (Succeeds.bind (succeeds_getThe ?_)))
      refine Succeeds.bind (succeeds_sum expected fun _ => Succeeds.bind (succeeds_sum expected fun _ => ?_))
      exact succeeds_changeBook (.refl _)
  | some held =>
      refine Succeeds.bind (succeeds_changeBook (Succeeds.bind (succeeds_sum expected fun _ => ?_)))
      refine Succeeds.bind (succeeds_changeBook (Succeeds.bind (succeeds_changeBook ?_)))
      refine Succeeds.bind (succeeds_getThe (Succeeds.bind (succeeds_sum expected fun _ => ?_)))
      refine Succeeds.bind (succeeds_sum expected fun _ => succeeds_changeBook ?_)
      dsimp only
      rw [Keyed.put_put]
      exact .put found rfl

theorem lightening_noteRead (key : String) (record : DiskRecord) : Lightening (noteRead key record) := by
  intro world
  refine (noteRead_lightens key record).leads.imp ?_
  rintro answer after - ⟨_, _, lighter⟩
  exact lighter

/-- The record of a write comes in place of its victims and of the key's old record. -/
theorem commit_replaces (key : String) (size : Nat) (victims : List String) (written : WrittenPayload) :
    Succeeds AnyFault (commit key size victims written) world fun _ after =>
      ∃ record, record.size = size ∧ after.book.index.records =
        Keyed.put key record (world.book.index.records.filter fun pair => !victims.contains pair.1) := by
  have expected {property : Prop} : ¬AnyFault .sumOverflow → property := absurd trivial
  unfold commit
  refine Succeeds.bind (succeeds_records (Succeeds.bind (succeeds_changeBook ?_)))
  refine Succeeds.bind (nextTick_succeeds expected fun _ => Succeeds.bind (succeeds_getThe ?_))
  refine Succeeds.bind (succeeds_changeBook (Succeeds.bind (succeeds_changeBook ?_)))
  refine Succeeds.bind (succeeds_getThe (Succeeds.bind (succeeds_sum expected fun _ => ?_)))
  refine Succeeds.bind (succeeds_sum expected fun _ => Succeeds.bind (succeeds_changeBook ?_))
  exact succeeds_pure ⟨_, rfl, rfl⟩

end DiskStore

/-! ## The sections of calls -/

namespace CallPlace

variable {settings : DiskSettings} {world : DiskWorld} {own? : Option DiskWrite} {Result : Type}

/-- The write that is to be committed. -/
def write? : CallPlace → Option DiskWrite
  | preparing write | drafting write | filling write _ | measuring write _ | placing write _
  | committing write _ => some write
  | _ => none

/-- The section brings no bytes, and the call goes on with the write if it goes on with one. -/
def Carries (own? : Option DiskWrite) (action : DiskAction CallPlace) : Prop :=
  ∀ world, Leads AnyFault action.run world fun answer after =>
    (∀ write ∈ (landing answer).write?, own? = some write) ∧
      Lightens world.book.index.records after.book.index.records

/-- A call that is on no write goes on with none. -/
theorem sticks_of_idle {place : CallPlace} (idle : place.write? = none) :
    ∀ write ∈ place.write?, own? = some write :=
  fun write own => absurd (idle.symm.trans own) (Option.some_ne_none write).symm

theorem carries_return {place : CallPlace} (same : ∀ write ∈ place.write?, own? = some write) :
    Carries own? (return place) := fun _ => ⟨same, .refl _⟩

theorem carries_idle {place : CallPlace} (idle : place.write? = none) : Carries own? (return place) :=
  carries_return (sticks_of_idle idle)

theorem carries_throw (error : StoreError) : Carries own? (throw error) := fun _ => ⟨nofun, .refl _⟩

theorem carries_bind {action : DiskAction Result} {next : Result → DiskAction CallPlace}
    (first : Lightening action) (second : ∀ result, Carries own? (next result)) :
    Carries own? (action >>= next) := by
  intro world
  refine leads_run_bind ((first world).imp fun answer middle _ lighter => ?_)
  cases answer with
  | error error => exact ⟨nofun, lighter⟩
  | ok result =>
      exact (second result middle).imp fun _ _ _ further => ⟨further.1, lighter.trans further.2⟩

theorem carries_guarded (write : DiskWrite) {action : DiskAction CallPlace}
    (carries : Carries own? action) : Carries own? (guarded write action) := by
  intro world
  have leads := carries world
  unfold Leads at leads
  split at leads
  · rename_i answer after ended
    cases answer with
    | ok next => exact (leads_of_eq (run_guarded_of_ok ended)).mpr leads
    | error error => exact (leads_of_eq (run_guarded_of_failed ended)).mpr ⟨nofun, leads.2⟩
  · rename_i fault after stopped
    have same : (guarded write action).run world = .error fault after := by
      change EStateM.bind action.run _ world = _
      unfold EStateM.bind
      rw [stopped]
    unfold Leads
    rw [same]
    exact trivial

/-- What a section does to the records of the index and to the write that its call is on. -/
inductive Turns (settings : DiskSettings) (records : Keyed String DiskRecord) :
    CallPlace → CallPlace → Keyed String DiskRecord → Prop
  | goesOn {place next : CallPlace} {after : Keyed String DiskRecord} :
    (∀ write ∈ next.write?, place.write? = some write) → Lightens records after →
    Turns settings records place next after
  | chooses {write : DiskWrite} : write.value.encodedSize = .ok write.size →
    write.size ≤ settings.budget →
    DiskStore.victims settings.budget records write.key write.size = .ok write.victims →
    Turns settings records (starting (.put write.key write.value)) (preparing write) records
  | commits {write : DiskWrite} {written : WrittenPayload} {next : CallPlace} {record : DiskRecord}
      {after : Keyed String DiskRecord} : next.write? = none → record.size = write.size →
    Lightens (Keyed.put write.key record (records.filter fun pair => !write.victims.contains pair.1))
      after →
    Turns settings records (committing write written) next after

theorem Carries.turns {place : CallPlace} (carries : Carries place.write? (place.advance settings)) :
    Leads AnyFault (place.advance settings).run world fun answer after =>
      Turns settings world.book.index.records place (landing answer) after.book.index.records :=
  (carries world).imp fun _ _ _ turn => .goesOn turn.1 turn.2

theorem write?_leaving (answer : Except StoreError DiskAnswer) (files : List String) :
    (leaving answer files).write? = none := by
  cases files <;> rfl

theorem committing_turns (settings : DiskSettings) (world : DiskWorld) (write : DiskWrite)
    (written : WrittenPayload) :
    Leads AnyFault ((committing write written).advance settings).run world fun answer after =>
      (landing answer).write? = none ∧ ∃ record, record.size = write.size ∧
        Lightens (Keyed.put write.key record
          (world.book.index.records.filter fun pair => !write.victims.contains pair.1))
          after.book.index.records := by
  refine leads_run_bind ?_
  refine (commit_replaces write.key write.size write.victims written).leads.imp ?_
  rintro answer middle - ⟨files, rfl, record, size, records⟩
  refine leads_run_bind (((lightening_persist settings).lift middle).imp ?_)
  intro persisted after _ lighter
  rw [records] at lighter
  cases persisted with
  | error error => exact ⟨rfl, record, size, lighter⟩
  | ok told => exact ⟨write?_leaving _ files, record, size, lighter⟩

theorem turns (settings : DiskSettings) (world : DiskWorld) (place : CallPlace) :
    Leads AnyFault (place.advance settings).run world fun answer after =>
      Turns settings world.book.index.records place (landing answer) after.book.index.records := by
  cases place with
  | starting call =>
      cases call with
      | get key =>
          refine Carries.turns (carries_bind lightening_records fun records => ?_)
          cases Keyed.find? key records <;> exact carries_idle rfl
      | put key value =>
          rw [advance]
          cases sized : value.encodedSize with
          | error error => exact .goesOn (sticks_of_idle rfl) (.refl _)
          | ok size =>
              refine (leads_congr (run_bind_of_ok (run_ofExcept _ _))).mpr ?_
              by_cases large : settings.budget < size
              · simp only [large, if_true]
                exact .goesOn (sticks_of_idle rfl) (.refl _)
              · simp only [large, if_false]
                refine (leads_congr (run_bind_of_ok run_records)).mpr ?_
                cases chosen : DiskStore.victims settings.budget world.book.index.records key size with
                | error fault => exact trivial
                | ok victims =>
                    let write : DiskWrite := ⟨key, value, size, victims⟩
                    have small : write.size ≤ settings.budget := Nat.not_lt.mp large
                    exact .chooses sized small chosen
      | delete key =>
          refine Carries.turns (carries_bind lightening_records fun records => ?_)
          cases Keyed.find? key records with
          | none => exact carries_idle rfl
          | some record =>
              refine carries_bind (lightening_remove key) fun _ => carries_bind lightening_markDirty fun _ => ?_
              exact carries_bind (lightening_persist settings) fun _ => carries_idle rfl
  | looking key record =>
      refine Carries.turns (carries_bind lightening_getThe fun world => ?_)
      split <;> exact carries_idle rfl
  | dropping key =>
      refine Carries.turns (carries_bind (lightening_remove key) fun _ => ?_)
      exact carries_bind lightening_markDirty fun _ => carries_idle rfl
  | reading key record =>
      refine Carries.turns (carries_bind (lightening_readPayload _ _ _) fun _ => carries_idle rfl)
  | counting key record value =>
      refine Carries.turns (carries_bind (lightening_noteRead key record) fun _ => carries_idle rfl)
  | preparing write =>
      rw [advance]
      -- The name must not be computed.
      generalize directoryFor settings write.key = name
      have carries : Carries (some write) (do
          onFiles (FileSystem.makeDirectories name)
          return drafting write) :=
        carries_bind (lightening_onFiles _) fun _ => carries_return fun _ => id
      exact (carries world).imp fun _ _ _ turn => .goesOn turn.1 turn.2
  | drafting write =>
      refine Carries.turns (carries_guarded write ?_)
      dsimp only
      split
      · exact carries_bind (lightening_onFiles _) fun _ => carries_return fun _ => id
      · refine carries_bind (lightening_ofExcept _ _) fun _ => ?_
        exact carries_bind (lightening_onFiles _) fun _ => carries_return fun _ => id
  | filling write table =>
      refine Carries.turns (carries_guarded write (carries_bind (lightening_ofExcept _ _) fun file => ?_))
      exact carries_bind (lightening_onFiles _) fun _ => carries_return fun _ => id
  | measuring write written => exact Carries.turns (carries_return fun _ => id)
  | placing write written =>
      refine Carries.turns (carries_guarded write ?_)
      exact carries_bind (lightening_onFiles _) fun _ => carries_return fun _ => id
  | abandoning write error =>
      exact Carries.turns (carries_bind (lightening_onFiles _).attempt fun _ => carries_throw error)
  | committing write written =>
      refine (committing_turns settings world write written).imp ?_
      rintro answer after - ⟨gone, record, size, lighter⟩
      exact .commits gone size lighter
  | removing file others answer =>
      refine Carries.turns (carries_bind (lightening_removeFileOf _ _) fun _ => ?_)
      exact carries_idle (write?_leaving _ _)
  | done answer => exact Carries.turns (carries_idle rfl)

end CallPlace

end TierVault
