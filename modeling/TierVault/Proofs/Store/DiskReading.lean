import TierVault.Proofs.FileSystem.Changes
import TierVault.Proofs.Store.DiskSections

/-!
What a disk store finds under a key.

That is told by the index and by what stands in the place of the key's payload file. It does not matter what
else is in the tree, or what the medium has refused before.
-/

namespace TierVault

open FileSystem

/-! ## A medium that refuses nothing -/

namespace FileSystem

variable {files : FileSystem} {root name : String} {home : Path} {node : Node}

/-- The same tree on a medium that refuses nothing. -/
def calmed (files : FileSystem) : FileSystem := { files with refuses := fun _ => none }

theorem quiet_calmed (files : FileSystem) : files.calmed.Quiet := fun _ => rfl

theorem follow_calmed (files : FileSystem) (start : Path) (pieces : List String) :
    files.calmed.follow start pieces = files.follow start pieces := by
  induction pieces generalizing start with
  | nil => rw [follow_nil, follow_nil]
  | cons piece pieces induction =>
      rw [follow_cons, follow_cons, induction, induction, induction]
      rfl

theorem find_calmed (files : FileSystem) (name : String) : files.calmed.find name = files.find name := by
  unfold find
  simp only [follow_calmed]
  rfl

theorem has_eq_named? (files : FileSystem) (name : String) : files.has name = (files.named? name).isSome := by
  unfold has named?
  cases found : files.find name with
  | error error => rfl
  | ok path =>
      obtain ⟨_, _, _, there⟩ := find_eq_ok_iff.mp found
      exact there.symm

theorem openNode_of_named? (quiet : files.Quiet) (named : files.named? name = some node) :
    openNode name files = .ok node files.counted := by
  unfold named? at named
  cases found : files.find name with
  | error error =>
      rw [found] at named
      cases named
  | ok path =>
      rw [found] at named
      have stands : files.counted.node? path = some node := named
      have still := ((extends_counted files).find found trivial).1
      simp only [openNode, bind, EStateM.bind, call_of_quiet quiet, get_eq, still, ofExcept, pure,
        EStateM.pure, stands]

end FileSystem

/-- The same store on a medium that refuses nothing. -/
def DiskWorld.calmed (world : DiskWorld) : DiskWorld := { world with files := world.files.calmed }

namespace DiskStore

open StoreAction TierVault.Action

variable {faults : Fault → Prop} {settings : DiskSettings} {home : Path} {key : String} {record : DiskRecord} {node : Node}
  {value : Value} {format : PayloadFormat} {world after : DiskWorld}

/-! ## Stores whose directory is there -/

/-- Each record tells the file of its key. -/
def OwnFiles (records : Keyed String DiskRecord) : Prop := ∀ pair ∈ records, pair.2.file = fileFor pair.1

theorem OwnFiles.filter {records : Keyed String DiskRecord} (filed : OwnFiles records)
    (keeps : String × DiskRecord → Bool) : OwnFiles (records.filter keeps) :=
  fun pair member => filed pair (List.mem_of_mem_filter member)

theorem OwnFiles.put {records : Keyed String DiskRecord} (filed : OwnFiles records)
    (file : record.file = fileFor key) : OwnFiles (Keyed.put key record records) := by
  intro pair member
  rcases Keyed.mem_of_mem_put member with rfl | kept
  · exact file
  · exact filed pair kept

theorem OwnFiles.map_file {records : Keyed String DiskRecord} (filed : OwnFiles records) :
    records.map (·.2.file) = (Keyed.keys records).map fileFor := by
  rw [Keyed.keys, List.map_map]
  exact List.map_congr_left filed

/-- The directory of the store is there, in an orderly tree, and each record tells the file of its key. -/
structure Tended (settings : DiskSettings) (home : Path) (world : DiskWorld) : Prop where
  holds : Home world.files settings.root home
  short : settings.root.utf8ByteSize + 74 < nameLimit
  orderly : world.files.Orderly
  filed : OwnFiles world.book.index.records

theorem Tended.calmed (tended : Tended settings home world) : Tended settings home world.calmed :=
  ⟨⟨(find_calmed _ _).trans tended.holds.find, tended.holds.isDirectory⟩, tended.short,
    ⟨tended.orderly.stands, tended.orderly.plain, tended.orderly.separate⟩, tended.filed⟩

/-- Nothing stands in the place of a payload file without its directory. -/
theorem Tended.shelved (tended : Tended settings home world) (key : String)
    (there : world.files.isThere (payloadPath home key) = true) :
    world.files.isDirectory (shelfPath home key) = true := by
  apply tended.orderly.stands (shelfPath home key) (payloadName key)
  rw [shelfPath, append_payloadName]
  exact there

/-- The name of a key's payload file names what stands in its place. -/
theorem Tended.named?_nameFor (tended : Tended settings home world) (key : String) :
    world.files.named? (nameFor settings key) = world.files.node? (payloadPath home key) := by
  rw [nameFor_eq]
  exact tended.holds.named?_below (plain_shelfName key) (plain_payloadName key)
    (fits_below tended.short key (utf8ByteSize_payloadName key)) (tended.shelved key)

theorem Tended.named?_of_find? (tended : Tended settings home world)
    (found : Keyed.find? key world.book.index.records = some record) :
    world.files.named? (FileName.join settings.root record.file) =
      world.files.node? (payloadPath home key) := by
  rw [tended.filed _ (Keyed.mem_of_find? found)]
  exact tended.named?_nameFor key

/-! ## Payloads -/

/-- What is read from a payload file. -/
def unpack (settings : DiskSettings) : PayloadFormat → Node → Except StoreError Value
  | .columnar, node => do
    let file ← node.columnar?.mapError .columnar
    return .table (← (Columnar.read file).mapError .columnar)
  | .binary, node => do
    let stored ← node.content?.elim (.error (.io .isADirectory)) .ok
    let content ← (settings.compressor.decompressIfFrame stored).mapError .compression
    (Value.decode content).mapError .codec

theorem unpack_of_stored (stored : Stored settings format node value) :
    unpack settings format node = .ok value := by
  cases format with
  | columnar =>
      obtain ⟨file, table, rfl, read, rfl⟩ := stored
      simp only [unpack, Node.columnar?, Except.mapError, read, bind, Except.bind, pure, Except.pure]
  | binary =>
      obtain ⟨content, encoded, rfl, unpacked, decodes⟩ := stored
      simp only [unpack, Node.content?, Option.elim, Except.mapError, unpacked, decodes, bind, Except.bind]

theorem run_readPayload {files : FileSystem} {name : String} (settings : DiskSettings) (quiet : files.Quiet)
    (named : files.named? name = some node) (book : DiskBook) (format : PayloadFormat) :
    (readPayload settings name format).run ⟨book, files⟩ =
      .ok (unpack settings format node) ⟨book, files.counted⟩ := by
  have opens := openNode_of_named? quiet named
  cases format with
  | columnar =>
      rw [readPayload, run_bind_of_ok (run_onFiles opens)]
      dsimp only [unpack]
      cases node.columnar? with
      | error error => rfl
      | ok file =>
          change (do return Value.table (← StoreAction.ofExcept .columnar (Columnar.read file))
              : DiskAction Value).run _ =
            .ok (do return Value.table (← (Columnar.read file).mapError .columnar)) _
          cases Columnar.read file <;> rfl
  | binary =>
      dsimp only [readPayload, unpack]
      cases content : node.content? with
      | none =>
          have fails : readFile name files = .error .isADirectory files.counted := by
            simp only [readFile, bind, EStateM.bind, opens, content]
            rfl
          exact run_bind_of_failed (run_onFiles_of_error fails)
      | some stored =>
          have reads : readFile name files = .ok stored files.counted := by
            simp only [readFile, bind, EStateM.bind, opens, content]
            rfl
          rw [run_bind_of_ok (run_onFiles reads)]
          change _ = EStateM.Result.ok (do
            let content ← (settings.compressor.decompressIfFrame stored).mapError StoreError.compression
            (Value.decode content).mapError StoreError.codec) _
          cases settings.compressor.decompressIfFrame stored with
          | error error => rfl
          | ok content =>
              change (StoreAction.ofExcept .codec (Value.decode content)).run _ =
                .ok ((Value.decode content).mapError StoreError.codec) _
              cases Value.decode content <;> rfl

/-! ## Reads -/

/-- A read of the key can be counted. -/
def Countable (book : DiskBook) (key : String) : Prop :=
  ∀ record, Keyed.find? key book.index.records = some record →
    book.index.clock + 1 < Word.limit ∧ record.accessCount + 1 < Word.limit ∧
      book.transfers.reads + 1 < Word.limit ∧
      book.transfers.bytesRead + record.storedBytes < Word.limit

theorem noteRead_counts {book : DiskBook} (found : Keyed.find? key book.index.records = some record)
    (counts : ¬faults .sumOverflow → Countable book key) (files : FileSystem) :
    Succeeds faults (noteRead key record) ⟨book, files⟩ fun _ _ => Countable book key := by
  have fits (unexpected : ¬faults .sumOverflow) := counts unexpected record found
  unfold noteRead
  refine Succeeds.bind (nextTick_succeeds (fun unexpected => (fits unexpected).1) fun clock => ?_)
  refine Succeeds.bind (succeeds_records ?_)
  simp only [found]
  refine Succeeds.bind (succeeds_changeBook ?_)
  refine Succeeds.bind (succeeds_sum (fun unexpected => (fits unexpected).2.1) fun accesses => ?_)
  refine Succeeds.bind (succeeds_changeBook (Succeeds.bind (succeeds_changeBook ?_)))
  refine Succeeds.bind (succeeds_getThe ?_)
  refine Succeeds.bind (succeeds_sum (fun unexpected => (fits unexpected).2.2.1) fun reads => ?_)
  refine Succeeds.bind (succeeds_sum (fun unexpected => (fits unexpected).2.2.2) fun bytes => ?_)
  refine succeeds_changeBook fun other same => ?_
  cases found.symm.trans same
  exact ⟨clock, accesses, reads, bytes⟩

/-- What the key reads as, as long as reads can be counted. -/
def reading (settings : DiskSettings) (home : Path) (world : DiskWorld) (key : String) :
    Except StoreError (Option Value) :=
  (Keyed.find? key world.book.index.records).elim (.ok none) fun record =>
    (world.files.node? (payloadPath home key)).elim (.ok none) fun node =>
      (unpack settings record.format node).map some

theorem reading_of_find? (settings : DiskSettings) (home : Path)
    (found : Keyed.find? key world.book.index.records = some record) :
    reading settings home world key = (world.files.node? (payloadPath home key)).elim (.ok none) fun node =>
      (unpack settings record.format node).map some := by
  rw [reading, found]
  rfl

theorem reading_of_stored (found : Keyed.find? key world.book.index.records = some record)
    (stands : world.files.node? (payloadPath home key) = some node)
    (stored : Stored settings record.format node value) :
    reading settings home world key = .ok (some value) := by
  rw [reading_of_find? settings home found, stands]
  exact congrArg (Except.map some) (unpack_of_stored stored)

/-- Where a key has the same record and the same payload, it reads the same. -/
theorem reading_congr
    (records : Keyed.find? key after.book.index.records = Keyed.find? key world.book.index.records)
    (payload : after.files.node? (payloadPath home key) = world.files.node? (payloadPath home key)) :
    reading settings home after key = reading settings home world key := by
  rw [reading, reading, records, payload]

theorem leads_get (tended : Tended settings home world) (quiet : world.files.Quiet)
    (counts : ¬faults .sumOverflow → (∃ value, reading settings home world key = .ok (some value)) →
      Countable world.book key) :
    Leads faults (get settings key).run world fun answer _ =>
      answer = reading settings home world key ∧
        ((∃ value, answer = .ok (some value)) → Countable world.book key) := by
  have asked : (records).run world = .ok (.ok world.book.index.records) world := rfl
  have looked : (getThe DiskWorld : DiskAction DiskWorld).run world = .ok (.ok world) world := rfl
  cases found : Keyed.find? key world.book.index.records with
  | none =>
      have ended : (get settings key).run world = .ok (.ok none) world := by
        unfold get
        rw [run_bind_of_ok asked, found]
        rfl
      refine (leads_of_eq ended).mpr ⟨by rw [reading, found]; rfl, ?_⟩
      rintro ⟨value, same⟩
      cases same
  | some record =>
      have told := tended.named?_of_find? found
      have tells := reading_of_find? settings home found
      have there : world.files.has (FileName.join settings.root record.file) =
          (world.files.node? (payloadPath home key)).isSome := by
        rw [has_eq_named?, told]
      unfold get
      rw [leads_congr (run_bind_of_ok asked), found]
      dsimp only
      rw [leads_congr (run_bind_of_ok looked), there]
      cases stands : world.files.node? (payloadPath home key) with
      | none =>
          rw [stands] at tells
          refine ⟨tells.symm, ?_⟩
          rintro ⟨value, same⟩
          cases same
      | some node =>
          rw [stands] at told tells
          have reads := run_readPayload settings quiet told world.book record.format
          refine leads_run_bind ((leads_of_eq reads).mpr ?_)
          cases unpacked : unpack settings record.format node with
          | error error =>
              rw [Option.elim_some, unpacked] at tells
              refine ⟨tells.symm, ?_⟩
              rintro ⟨value, same⟩
              cases same
          | ok value =>
              rw [Option.elim_some, unpacked] at tells
              have noted := noteRead_counts found (fun unexpected => counts unexpected ⟨value, tells⟩)
                world.files.counted
              refine leads_run_bind (noted.leads.imp ?_)
              rintro _ final - ⟨_, rfl, countable⟩
              exact ⟨tells.symm, fun _ => countable⟩

/-- A read tells what the key reads as, and ends unless it cannot be counted. -/
theorem run'_get_iff (tended : Tended settings home world) (quiet : world.files.Quiet)
    (answer : Except StoreError (Option Value)) :
    EStateM.run' (get settings key).run world = some answer ↔
      answer = reading settings home world key ∧
        ((∃ value, answer = .ok (some value)) → Countable world.book key) := by
  unfold EStateM.run' EStateM.run
  constructor
  · intro told
    cases ended : (get settings key).run world with
    | error fault final =>
        rw [ended] at told
        cases told
    | ok own final =>
        rw [ended] at told
        cases told
        have leads : Leads AnyFault (get settings key).run world _ :=
          leads_get tended quiet (absurd trivial)
        exact leads.of_ok ended
  · rintro ⟨rfl, countable⟩
    have leads : Leads (fun _ => False) (get settings key).run world _ :=
      leads_get tended quiet fun _ => countable
    obtain ⟨_, final, ended, rfl, -⟩ := leads.ends fun _ => id
    rw [ended]

/-- Where a key reads the same, and reads of it can be counted as before, a read answers the same. -/
theorem run'_get_congr (tended : Tended settings home world) (quiet : world.files.Quiet)
    (tended' : Tended settings home after) (quiet' : after.files.Quiet)
    (same : reading settings home after key = reading settings home world key)
    (counts : Countable after.book key ↔ Countable world.book key) :
    EStateM.run' (get settings key).run after = EStateM.run' (get settings key).run world := by
  apply Option.ext
  intro answer
  rw [run'_get_iff tended quiet, run'_get_iff tended' quiet', same, counts]

end DiskStore

end TierVault
