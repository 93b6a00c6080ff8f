import TierVault.Proofs.Store.Agreement
import TierVault.Proofs.Store.Database
import TierVault.Proofs.Store.DiskReopening

/-!
Stores that are closed and opened again with other settings.

A store that lies in files stands for a map of values. The settings tell how new payloads are written, but a
payload is read by what is recorded of it, so that whoever opens the store next finds the same map. This is shown
once for any kind of store that keeps to a map in each of its calls and over each reopening, and the two kinds
that lie in files are shown to do so.
-/

namespace TierVault

open FileSystem StoreAction TierVault.Action

/-! ## Kinds of stores that can be opened again -/

/-- A kind of store that outlives the one who opened it. -/
structure LastingStore (Settings World : Type) where
  store : Settings → Store World
  /-- Closes the store and opens it again. -/
  reopen : (settings other : Settings) → StoreAction World Unit

/-- What is done with a store in the course of time. -/
inductive StoreUse (Settings : Type)
  | call (call : StoreCall)
  | reopen (settings : Settings)

namespace StoreUse

variable {Settings : Type}

/-- The call is permitted, or the settings of the reopening belong to the store and work. -/
def Fitting (belongs works : Settings → Prop) (permits : StoreCall → Prop) : StoreUse Settings → Prop
  | .call own => permits own
  | .reopen other => belongs other ∧ works other

def call? : StoreUse Settings → Option StoreCall
  | .call own => some own
  | .reopen _ => none

def settings? : StoreUse Settings → Option Settings
  | .call _ => none
  | .reopen other => some other

/-- The calls among the uses. -/
def calls (uses : List (StoreUse Settings)) : List StoreCall := uses.filterMap call?

/-- The keys that are written. -/
def written (uses : List (StoreUse Settings)) : List String :=
  (calls uses).filterMap StoreCall.written?

/-- The settings of all reopenings. -/
def reopenings (uses : List (StoreUse Settings)) : List Settings := uses.filterMap settings?

theorem fitting_of_mem {belongs works : Settings → Prop} {permits : StoreCall → Prop}
    {uses : List (StoreUse Settings)} (permitted : ∀ call ∈ calls uses, permits call)
    (fit : ∀ settings ∈ reopenings uses, belongs settings ∧ works settings) :
    ∀ use ∈ uses, Fitting belongs works permits use := by
  intro use member
  cases use with
  | call call => exact permitted call (List.mem_filterMap.mpr ⟨_, member, rfl⟩)
  | reopen settings => exact fit settings (List.mem_filterMap.mpr ⟨_, member, rfl⟩)

end StoreUse

namespace LastingStore

variable {Settings World : Type} (lasting : LastingStore Settings World)

/-- Uses the store once, and tells the settings with which it is open then. What a call reports is its
answer. -/
def perform (settings : Settings) : StoreUse Settings → StoreAction World Settings
  | .call call => do
    let _ ← ExceptT.lift (call.run (lasting.store settings)).run
    return settings
  | .reopen other => do
    lasting.reopen settings other
    return other

/-- After the uses, readers are told the same by the store as it is open then, and by the store closed and opened
again with the other settings. No read reports an error. -/
def ReopensUnseen (faults : Fault → Prop) (settings : Settings) (uses : List (StoreUse Settings))
    (other : Settings) (reads : List StoreCall) (world : World) : Prop :=
  Succeeds faults (uses.foldlM lasting.perform settings) world fun last reached =>
    ∃ history : List StoreEvent, (∀ event ∈ history, ∃ answer, event.answer = .ok answer) ∧
      Leads faults ((lasting.store last).runAll reads) reached (fun told _ => told = history) ∧
      Succeeds faults (lasting.reopen last other) reached fun _ reopened =>
        Leads faults ((lasting.store other).runAll reads) reopened fun told _ => told = history

/-- The store keeps to a map: in each permitted call under working settings, in each read, and when it is opened
again with settings that belong to it. `stands` counts the uses to which the store is equal. -/
structure KeepsMap (faults : Fault → Prop) (belongs works : Settings → Prop) (permits : StoreCall → Prop)
    (stands : Settings → Nat → World → RecentMap → Prop) : Prop where
  call : ∀ {settings rest world map call}, works settings → permits call →
    stands settings (rest + 1) world map →
      Leads faults (call.run (lasting.store settings)).run world fun answer after =>
        answer = (RecentMap.step (lasting.store settings).budget map call).1 ∧
          stands settings rest after (RecentMap.step (lasting.store settings).budget map call).2
  read : ∀ {settings rest world map call}, StoreCall.IsRead call →
    stands settings (rest + 1) world map →
      Leads faults (call.run (lasting.store settings)).run world fun answer after =>
        answer = (RecentMap.step (lasting.store settings).budget map call).1 ∧
          stands settings rest after (RecentMap.step (lasting.store settings).budget map call).2
  reopen : ∀ {settings other rest world map}, belongs other → stands settings (rest + 1) world map →
    Succeeds faults (lasting.reopen settings other) world fun _ after => stands other rest after map

namespace KeepsMap

variable {lasting} {faults : Fault → Prop} {belongs works : Settings → Prop} {permits : StoreCall → Prop}
  {stands : Settings → Nat → World → RecentMap → Prop} {settings other : Settings} {world : World}
  {map : RecentMap} {rest : Nat}

/-- Through healthy uses, the store goes on to stand for a map. -/
theorem succeeds_uses (keeps : lasting.KeepsMap faults belongs works permits stands)
    {uses : List (StoreUse Settings)} (healthy : ∀ use ∈ uses, use.Fitting belongs works permits)
    (working : works settings) (start : stands settings (uses.length + rest) world map) :
    Succeeds faults (uses.foldlM lasting.perform settings) world fun last reached =>
      ∃ map, stands last rest reached map := by
  induction uses generalizing settings world map with
  | nil =>
      rw [List.length_nil, Nat.zero_add] at start
      exact succeeds_pure ⟨map, start⟩
  | cons use later induction =>
      have healthier : ∀ use ∈ later, use.Fitting belongs works permits :=
        fun use member => healthy use (List.mem_cons_of_mem _ member)
      rw [List.length_cons, Nat.add_right_comm] at start
      rw [List.foldlM_cons]
      apply Succeeds.bind
      cases use with
      | call call =>
          have permitted : permits call := healthy (.call call) List.mem_cons_self
          apply Succeeds.bind
          apply succeeds_lift
          apply (keeps.call working permitted start).imp
          rintro answer after - ⟨-, stands⟩
          exact succeeds_pure (induction healthier working stands)
      | reopen other =>
          obtain ⟨belonging, working⟩ := healthy (.reopen other) List.mem_cons_self
          apply Succeeds.bind
          apply (keeps.reopen belonging start).imp
          intro _ after stands
          exact succeeds_pure (induction healthier working stands)

/-- What readers are told is told by the map. -/
theorem leads_reads (keeps : lasting.KeepsMap faults belongs works permits stands)
    {reads : List StoreCall} (reading : ∀ call ∈ reads, call.IsRead)
    (start : stands settings (reads.length + rest) world map) :
    Leads faults ((lasting.store settings).runAll reads) world fun told _ =>
      told = RecentMap.runAll 0 map reads := by
  induction reads generalizing world map with
  | nil => rfl
  | cons call later induction =>
      have read := reading call List.mem_cons_self
      have further : ∀ call ∈ later, call.IsRead :=
        fun call member => reading call (List.mem_cons_of_mem _ member)
      rw [List.length_cons, Nat.add_right_comm] at start
      simp only [Store.runAll, leads_bind, leads_pure]
      apply (keeps.read read start).imp
      rintro answer after - ⟨rfl, stands⟩
      apply (induction further stands).imp
      rintro told final - rfl
      rw [RecentMap.runAll, (RecentMap.step_read read _ 0 map).1]

/-- A store that keeps to a map can be opened again, and readers do not notice. -/
theorem reopensUnseen (keeps : lasting.KeepsMap faults belongs works permits stands)
    {uses : List (StoreUse Settings)} (healthy : ∀ use ∈ uses, use.Fitting belongs works permits)
    {reads : List StoreCall} (reading : ∀ call ∈ reads, call.IsRead) (working : works settings)
    (belonging : belongs other) (start : stands settings (uses.length + (reads.length + 1)) world map) :
    lasting.ReopensUnseen faults settings uses other reads world := by
  apply (keeps.succeeds_uses healthy working start).imp
  rintro last reached ⟨map, remains⟩
  refine ⟨RecentMap.runAll 0 map reads, RecentMap.answers_of_reads reading, keeps.leads_reads reading remains, ?_⟩
  apply (keeps.reopen belonging remains).imp
  intro _ reopened remains
  have whole : stands other (reads.length + 0) reopened map := remains
  exact keeps.leads_reads reading whole

end KeepsMap

end LastingStore

/-! ## In a database -/

/-- The settings are for one directory, and frames are taken apart in one way. -/
structure DatabaseSettings.Shares (settings other : DatabaseSettings) : Prop where
  directory : other.directory = settings.directory
  codec : other.compressor.codec = settings.compressor.codec

theorem DatabaseSettings.Shares.through {start settings other : DatabaseSettings}
    (first : start.Shares settings) (second : start.Shares other) : settings.Shares other :=
  ⟨second.directory.trans first.directory.symm, second.codec.trans first.codec.symm⟩

namespace DatabaseStore

variable {settings other : DatabaseSettings} {above : Path} {world : DatabaseWorld} {map : RecentMap}

/-- Closes the connection and makes another one. -/
def reopen (other : DatabaseSettings) : DatabaseAction Unit := do
  let connection ← .within DatabaseWorld.files (fun world files => { world with files }) (openIn other)
  modify fun world => { world with connection }

def lasting : LastingStore DatabaseSettings DatabaseWorld := ⟨store, fun _ other => reopen other⟩

/-- What a row holds is told by the row. -/
theorem Holds.share (shares : settings.Shares other) {blob : Blob} {value : Value}
    (holds : Holds settings blob value) : Holds other blob value := by
  obtain ⟨encoded, encodes, wellFormed, held⟩ := holds
  refine ⟨encoded, encodes, wellFormed, ?_⟩
  unfold content at held ⊢
  rw [shares.codec]
  split at held
  · rw [if_pos ‹_›]
    exact held
  · rw [if_neg ‹_›]
    split at held
    · simp only [*]
    · cases held

theorem Stands.share (shares : settings.Shares other) (stands : Stands settings world map) :
    Stands other world map :=
  ⟨stands.usable, stands.mirrors.imp fun _ _ _ holds => holds.share shares⟩

theorem Settled.share (shares : settings.Shares other) {files : FileSystem}
    (settled : Settled settings files above) : Settled other files above := by
  refine ⟨shares.directory ▸ settled.seat, settled.rooted, ?_, settled.tidy⟩
  rw [DatabaseSettings.name, shares.directory]
  exact settled.path

/-- The database is open for writing, in its place below the directory, and stands for the map. -/
structure Resides (above : Path) (settings : DatabaseSettings) (world : DatabaseWorld) (map : RecentMap) :
    Prop where
  stands : Stands settings world map
  place : world.connection.place? = some (above ++ ["cache.db"])
  settled : Settled settings world.files above
  quiet : world.files.Quiet
  stored : ∃ rows, world.files.node? (above ++ ["cache.db"]) = some (.database rows)

/-- Changed rows change nothing else. -/
theorem Resides.setRows (resides : Resides above settings world map) {rows : Rows} {next : RecentMap}
    (stands : Stands settings (setRows world rows) next) :
    Resides above settings (setRows world rows) next := by
  obtain ⟨before, stored⟩ := resides.stored
  have inside : above ++ ["cache.db"] ≠ [] := by simp
  have plain : world.files.isDirectory (above ++ ["cache.db"]) = false := by
    rw [isDirectory, stored]
    rfl
  have keeps : Keeps (fun _ => False) world.files
      (world.files.place (above ++ ["cache.db"]) (.database rows)) :=
    (keeps_place world.files _ plain).mono fun _ impossible => impossible.elim
  have same : DatabaseStore.setRows world rows =
      { world with files := world.files.place (above ++ ["cache.db"]) (.database rows) } := by
    simp only [DatabaseStore.setRows, resides.place]
  rw [same] at stands ⊢
  refine ⟨stands, resides.place, resides.settled.keeps keeps ?_, keeps.quiet resides.quiet, rows,
    node?_place_same _ _ inside⟩
  intro ending some
  exact node?_place_other _ _ (Connection.companion_ne_path some inside)

theorem Resides.leads_call (resides : Resides above settings world map) {faults : Fault → Prop}
    {call : StoreCall} (offers : call.Offers Value.WellFormed) :
    Leads faults (call.run (store settings)).run world fun answer after =>
      answer = (RecentMap.step settings.budget map call).1 ∧
        Resides above settings after (RecentMap.step settings.budget map call).2 := by
  apply (DatabaseStore.leads_call resides.stands offers).imp
  rintro answer after - ⟨same, stands, rfl | ⟨rows, rfl⟩⟩
  · exact ⟨same, { resides with stands }⟩
  · exact ⟨same, resides.setRows stands⟩

/-- Whatever the other settings tell of new payloads, the rows are found again. -/
theorem Resides.reopened (resides : Resides above settings world map) {faults : Fault → Prop}
    (shares : settings.Shares other)
    (plain : DatabaseName.parse settings.name = .ok ⟨some settings.name, .create, false⟩) :
    Succeeds faults (reopen other) world fun _ after => Resides above other after map := by
  obtain ⟨rows, stored⟩ := resides.stored
  have settled := resides.settled.share shares
  have named : other.name = settings.name := by
    rw [DatabaseSettings.name, DatabaseSettings.name, shares.directory]
  obtain ⟨files, opened, recounts⟩ :=
    openIn_of_settled (named ▸ plain) resides.quiet settled stored
  unfold reopen
  apply Succeeds.bind
  apply succeeds_within
  apply succeeds_of_eq opened
  apply succeeds_modify
  have same := recounts.node? (above ++ ["cache.db"])
  have stands : Stands settings ⟨⟨some (above ++ ["cache.db"]), true, []⟩, files⟩ map :=
    resides.stands.of_node? resides.place rfl rfl same
  refine ⟨stands.share shares, rfl, ?_, recounts.extends.quiet resides.quiet, rows, same.trans stored⟩
  exact settled.keeps recounts.extends.weaken fun ending _ => recounts.node? _

/-- A database keeps to its map while it is opened with settings that share its directory. -/
theorem keepsMap {faults : Fault → Prop}
    (plain : DatabaseName.parse settings.name = .ok ⟨some settings.name, .create, false⟩) :
    lasting.KeepsMap faults settings.Shares (fun _ => True) (StoreCall.Offers Value.WellFormed)
      fun own _ world map => settings.Shares own ∧ Resides above own world map where
  call _ offers stands :=
    (stands.2.leads_call offers).imp fun _ _ _ kept => ⟨kept.1, stands.1, kept.2⟩
  read {own rest world map call} read stands := by
    have offers : call.Offers Value.WellFormed := by
      cases call with
      | put => exact read.elim
      | _ => trivial
    exact (stands.2.leads_call offers).imp fun _ _ _ kept => ⟨kept.1, stands.1, kept.2⟩
  reopen {own other rest world map} shares stands := by
    have named : own.name = settings.name := by
      rw [DatabaseSettings.name, DatabaseSettings.name, stands.1.directory]
    apply (stands.2.reopened (stands.1.through shares) (named ▸ plain)).imp
    exact fun _ _ resides => ⟨shares, resides⟩

/-- The database was opened in a file and had no rows, nothing but values of a running program is put, and the
reopenings share its directory. -/
structure Healthy (settings : DatabaseSettings) (uses : List (StoreUse DatabaseSettings))
    (world : DatabaseWorld) : Prop where
  opened : ∃ files, files.Rooted ∧ (openIn settings).run files = .ok (.ok world.connection) world.files
  plain : DatabaseName.parse settings.name = .ok ⟨some settings.name, .create, false⟩
  writable : world.connection.writable = true
  quiet : world.files.Quiet
  unused : rowsOf world = []
  offers : ∀ call ∈ StoreUse.calls uses, call.Offers Value.WellFormed
  shares : ∀ other ∈ StoreUse.reopenings uses, settings.Shares other

theorem Healthy.resides {uses : List (StoreUse DatabaseSettings)} (healthy : Healthy settings uses world) :
    ∃ above, Resides above settings world [] := by
  obtain ⟨files, rooted, opened⟩ := healthy.opened
  obtain ⟨above, rows, place, settled, stored⟩ :=
    settled_of_openIn healthy.plain rooted opened healthy.writable
  have fresh : Fresh settings world := ⟨⟨files, opened⟩, healthy.writable, healthy.unused⟩
  exact ⟨above, fresh.stands, place, settled, healthy.quiet, rows, stored⟩

end DatabaseStore

/-! ## In the files of a directory -/

/-- The settings are for one directory, and frames are taken apart in one way. -/
structure DiskSettings.Shares (settings other : DiskSettings) : Prop where
  root : other.root = settings.root
  codec : other.compressor.codec = settings.compressor.codec

theorem DiskSettings.Shares.through {start settings other : DiskSettings}
    (first : start.Shares settings) (second : start.Shares other) : settings.Shares other :=
  ⟨second.root.trans first.root.symm, second.codec.trans first.codec.symm⟩

namespace DiskStore

variable {settings other : DiskSettings} {opened : FileSystem} {home : Path} {keys : List String}
  {faults : Fault → Prop} {step rest : Nat} {residents : List (Resident DiskRecord)} {world : DiskWorld}
  {map : RecentMap}

/-- Writes the index, and reads it back. -/
def reopen (settings other : DiskSettings) : DiskAction Unit := do
  close settings
  let book ← .within DiskWorld.files (fun world files => { world with files }) (openIn other)
  modify fun world => { world with book }

def lasting : LastingStore DiskSettings DiskWorld := ⟨store, reopen⟩

/-- What a file holds is told by the file and its format. -/
theorem Stored.share (shares : settings.Shares other) {format : PayloadFormat} {node : Node} {value : Value}
    (stored : Stored settings format node value) : Stored other format node value := by
  cases format with
  | columnar => exact stored
  | binary =>
      obtain ⟨content, encoded, rfl, unpacked, decodes⟩ := stored
      refine ⟨content, encoded, rfl, ?_, decodes⟩
      rwa [Compressor.decompressIfFrame_congr shares.codec]

theorem Stands.share (shares : settings.Shares other)
    (stands : Stands settings opened home keys faults step rest residents world map) :
    Stands other opened home keys faults step rest residents world map := by
  have mirrors := stands.mirrors.imp fun _ _ _ (holds : Holds settings home world.files _ _ _) =>
    Holds.mk holds.file holds.directory
      (holds.stored.imp fun _ stored => ⟨stored.1, stored.2.share shares⟩)
  exact { stands with mirrors }

/-- Whatever the other settings tell of new payloads, the files are found again. -/
theorem Stands.opensAgain (vacant : Vacant opened settings.root home) (early : opened.seconds < Word.limit)
    (shares : settings.Shares other)
    (stands : Stands settings opened home keys faults step rest residents world map) :
    Succeeds faults (reopen settings other) world fun _ after =>
      Stands other opened home keys faults step rest residents after map := by
  unfold reopen
  apply Succeeds.bind
  apply (close_succeeds vacant stands).imp
  rintro _ ⟨book, files⟩ ⟨same, filed, stands⟩
  change book.index = world.book.index at same
  rw [← same] at filed
  apply Succeeds.bind
  apply succeeds_within
  have stands := stands.share shares
  have vacant : Vacant opened other.root home := shares.root ▸ vacant
  apply (openIn_succeeds vacant stands filed early).imp
  rintro reopened after ⟨rfl, recounts⟩
  exact succeeds_modify (stands.reopened filed recounts)

/-- A store of files keeps to its map while it is opened with settings that share its directory. -/
theorem keepsMap (ground : Ground settings opened home keys) (some : 1 ≤ step)
    (early : opened.seconds < Word.limit) :
    lasting.KeepsMap faults settings.Shares (fun own => Columnar.isLevel own.compressor.level = true)
      (Permits keys step) fun own rest world map => settings.Shares own ∧
        ∃ residents, Stands own opened home keys faults step rest residents world map where
  call {own rest world map call} level permits stands := by
    obtain ⟨shares, residents, stands⟩ := stands
    have vacant : Vacant opened own.root home := shares.root ▸ ground.vacant
    apply (stands.leads_call ⟨vacant, level, ground.apart⟩ some permits).imp
    exact fun _ _ _ kept => ⟨kept.1, shares, kept.2⟩
  read {own rest world map call} read stands := by
    obtain ⟨shares, residents, stands⟩ := stands
    have vacant : Vacant opened own.root home := shares.root ▸ ground.vacant
    exact (stands.leads_read vacant some read).imp fun _ _ _ kept => ⟨kept.1, shares, kept.2⟩
  reopen {own other rest world map} second stands := by
    obtain ⟨first, residents, stands⟩ := stands
    have vacant : Vacant opened own.root home := first.root ▸ ground.vacant
    apply (stands.later.opensAgain vacant early (first.through second)).imp
    exact fun _ _ stands => ⟨second, residents, stands⟩

/-- The store was opened in a directory with nothing in it, what is put can be written and read and has a file of
its own, and the reopenings share the directory. -/
structure Healthy (settings : DiskSettings) (uses : List (StoreUse DiskSettings)) (world : DiskWorld) :
    Prop where
  fresh : Fresh settings world
  early : world.files.seconds < Word.limit
  level : Columnar.isLevel settings.compressor.level = true
  storables : AllStorable (StoreUse.calls uses)
  apart : DigestsApart (StoreUse.calls uses)
  shares : ∀ other ∈ StoreUse.reopenings uses,
    settings.Shares other ∧ Columnar.isLevel other.compressor.level = true

theorem Healthy.stands {uses : List (StoreUse DiskSettings)} (healthy : Healthy settings uses world)
    (short : ¬faults .sumOverflow → rest * stepOf (StoreUse.calls uses) < Word.limit) :
    ∃ home, Ground settings world.files home (StoreUse.written uses) ∧
      Stands settings world.files home (StoreUse.written uses) faults (stepOf (StoreUse.calls uses))
        rest [] world [] := by
  obtain ⟨files, ends⟩ := healthy.fresh.opened
  obtain ⟨home, vacant⟩ := healthy.fresh.vacant
  obtain ⟨book, -⟩ := left_of_openIn vacant (.refl _ _) ends
  have stands : Stands settings world.files home (StoreUse.written uses) faults
      (stepOf (StoreUse.calls uses)) rest [] ⟨⟨.empty, false, default⟩, world.files⟩ [] :=
    stands_of_vacant vacant short
  rw [← book] at stands
  refine ⟨home, ⟨vacant, healthy.level, ?_⟩, stands⟩
  intro left first right second same
  exact healthy.apart left first right second (digest_eq_of_payloadName_eq same)

end DiskStore

/-! ## Both kinds -/

/-- A store in a database or in the files of a directory is used, and in the course of that perhaps opened again
under ever other settings. If it is then closed and opened again, readers are told the same as before: the same
keys, sizes and order, the same total and the same values. Only counts that are no words stop a store of files. -/
theorem stores_reopen_unseen {reads : List StoreCall} (reading : ∀ call ∈ reads, call.IsRead) :
    (∀ {settings other : DatabaseSettings} {uses : List (StoreUse DatabaseSettings)}
        {world : DatabaseWorld},
      DatabaseStore.Healthy settings uses world → settings.Shares other →
        DatabaseStore.lasting.ReopensUnseen (fun _ => False) settings uses other reads world) ∧
    ∀ {faults : Fault → Prop} {settings other : DiskSettings} {uses : List (StoreUse DiskSettings)}
        {world : DiskWorld},
      DiskStore.Healthy settings uses world → settings.Shares other →
        (¬faults .sumOverflow →
          (uses.length + (reads.length + 1)) * stepOf (StoreUse.calls uses) < Word.limit) →
        DiskStore.lasting.ReopensUnseen faults settings uses other reads world := by
  constructor
  · intro settings other uses world healthy shares
    obtain ⟨above, resides⟩ := healthy.resides
    have fitting := StoreUse.fitting_of_mem healthy.offers
      fun other member => ⟨healthy.shares other member, trivial⟩
    exact (DatabaseStore.keepsMap healthy.plain).reopensUnseen fitting reading trivial shares
      ⟨⟨rfl, rfl⟩, resides⟩
  · intro faults settings other uses world healthy shares short
    obtain ⟨home, ground, stands⟩ := healthy.stands short
    have fitting := StoreUse.fitting_of_mem
      (DiskStore.permits_of_allStorable healthy.storables) healthy.shares
    exact (DiskStore.keepsMap ground (Nat.le_add_right 1 _) healthy.early).reopensUnseen fitting reading
      healthy.level shares ⟨⟨rfl, rfl⟩, [], stands⟩

/-- A small table. -/
def squares : Value := .table ⟨[⟨"n", .integers [1, 4]⟩]⟩

theorem storable_squares : squares.WellFormed ∧ squares.RegularTables := by
  have countable : Table.Countable ⟨[⟨"n", .integers [1, 4]⟩]⟩ := by
    apply Table.countable_of_fits
    decide
  have regular : Table.Regular ⟨[⟨"n", .integers [1, 4]⟩]⟩ := by
    unfold Table.Regular
    decide
  exact ⟨⟨trivial, countable⟩, regular⟩

/-- Settings for one directory. -/
abbrev rowsAt (budget : Nat) (compress : Bool) : DatabaseSettings :=
  ⟨"", budget, ⟨Zstandard.codec, 3, 0⟩, compress⟩

abbrev filesAt (budget : Nat) (columnar compress : Bool) (level : Int) : DiskSettings :=
  ⟨"disk", budget, columnar, compress, ⟨Zstandard.codec, level, 0⟩⟩

/-- A table that was written as columns is replaced, and another one is written in a frame of bytes. -/
theorem stores_reopen_unseen_changed :
    let reads : List StoreCall := [.entries, .size, .has "left", .get "left", .get "right"]
    ∃ connected placed,
      (DatabaseStore.openIn (rowsAt 100 true)).run (.start []) =
        .ok (.ok connected.connection) connected.files ∧
      (DiskStore.openIn (filesAt 100 true true 3)).run (.start []) = .ok (.ok placed.book) placed.files ∧
      DatabaseStore.lasting.ReopensUnseen (fun _ => False) (rowsAt 100 true)
        [.call (.put "left" squares), .reopen (rowsAt 100 false), .call (.put "right" squares)]
        (rowsAt 1 true) reads connected ∧
      DiskStore.lasting.ReopensUnseen (fun _ => False) (filesAt 100 true true 3)
        [.call (.put "left" squares), .reopen (filesAt 100 false true 19), .call (.put "left" (.flag true)),
          .call (.put "right" squares)]
        (filesAt 1 true false 3) reads placed := by
  intro reads
  have connects : (DatabaseStore.openIn (rowsAt 100 true)).run (.start []) =
      .ok (.ok ⟨some ["cache.db"], true, []⟩)
        ((FileSystem.start []).place ["cache.db"] (.database [])) := by rfl
  have opens : (DiskStore.openIn (filesAt 100 true true 3)).run (.start []) =
      .ok (.ok ⟨.empty, false, default⟩)
        ((FileSystem.start []).counted.place ["disk"] .directory) := by rfl
  have reading : ∀ call ∈ reads, call.IsRead := by
    intro call member
    simp only [reads, List.mem_cons, List.not_mem_nil, or_false] at member
    rcases member with rfl | rfl | rfl | rfl | rfl <;> trivial
  have vacant : DiskStore.Fresh (filesAt 100 true true 3) _ := DiskStore.fresh_start rfl
  have apart : DigestsApart [.put "left" squares, .put "left" (.flag true), .put "right" squares] :=
    digestsApart_of_two (by decide)
  have rooted : (FileSystem.start []).Rooted := FileSystem.reaches_nil _
  obtain ⟨inDatabase, onDisk⟩ := stores_reopen_unseen reading
  refine ⟨⟨⟨some ["cache.db"], true, []⟩, _⟩, ⟨⟨.empty, false, default⟩, _⟩, connects, opens,
    inDatabase ⟨⟨_, rooted, connects⟩, by rfl, rfl, fun _ => rfl, rfl, ?_, ?_⟩ ⟨rfl, rfl⟩,
    onDisk ⟨vacant, by decide, by decide, ?_, apart, ?_⟩ ⟨rfl, rfl⟩ fun _ => by decide⟩
  · intro call member
    simp only [StoreUse.calls, StoreUse.call?, List.filterMap_cons, List.filterMap_nil, List.mem_cons,
      List.not_mem_nil, or_false] at member
    rcases member with rfl | rfl <;> exact storable_squares.1
  · intro other member
    rw [List.mem_singleton.mp member]
    exact ⟨rfl, rfl⟩
  · intro call member
    simp only [StoreUse.calls, StoreUse.call?, List.filterMap_cons, List.filterMap_nil, List.mem_cons,
      List.not_mem_nil, or_false] at member
    rcases member with rfl | rfl | rfl
    · exact storable_squares
    · exact ⟨⟨trivial, trivial⟩, trivial⟩
    · exact storable_squares
  · intro other member
    rw [List.mem_singleton.mp member]
    exact ⟨⟨rfl, rfl⟩, by decide⟩

end TierVault
