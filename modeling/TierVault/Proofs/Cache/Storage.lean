import TierVault.Cache.Opening
import TierVault.Proofs.Store.Database
import TierVault.Proofs.Store.DiskReopening
import TierVault.Proofs.Store.SideBySide

/-!
The stores of the four tiers below one directory, each of which stands for a map.

Every store keeps to its own part of the tree: the database to its file, the other two to their directories. So a
call of one store leaves what the others stand for as it was. Closed and opened again, the stores stand for their
maps as before, but for the one in memory, which begins empty.
-/

namespace TierVault

open FileSystem TierVault.Action

variable {World Local Result : Type} {faults : Fault → Prop} {world : World}

/-! ## Calls in a part of the world -/

theorem StoreCall.run_within (store : Store Local) (read : World → Local) (write : World → Local → World)
    (call : StoreCall) :
    call.run (store.within read write) = .within read write (call.run store) := by
  cases call <;> rfl

/-! ## Places side by side -/

theorem not_prefix_concat {above : Path} {left right : String} (different : left ≠ right) :
    ¬above ++ [left] <+: above ++ [right] := by
  rw [List.prefix_append_right_inj]
  intro front
  exact different (List.cons_prefix_cons.mp front).1

theorem last_eq {above : Path} {left right : String} (same : above ++ [left] = above ++ [right]) :
    left = right :=
  List.singleton_inj.mp (List.append_cancel_left same)

/-- A store in a directory leaves alone what is beside it. -/
theorem DiskStore.Confined.walk {base files after : FileSystem} {above : Path} {last other : String}
    (confined : Confined base (above ++ [last]) files after) (different : last ≠ other) :
    after.nodes.walk (above ++ [other]) = files.nodes.walk (above ++ [other]) :=
  confined.elsewhere _ (not_prefix_concat different) (not_prefix_concat different.symm)

theorem DiskStore.Confined.node? {base files after : FileSystem} {above : Path} {last other : String}
    (confined : Confined base (above ++ [last]) files after) (different : last ≠ other)
    (rest : List String) : after.node? (above ++ other :: rest) = files.node? (above ++ other :: rest) := by
  rw [List.append_cons]
  exact node?_of_walk (confined.walk different) rest

/-- What was there at the beginning is there, with a database beside it. -/
structure FileSystem.Laid (base : FileSystem) (above : Path) (files : FileSystem) : Prop where
  keeps : Keeps (fun _ => False) base files
  stored : ∃ rows, files.node? (above ++ ["cache.db"]) = some (.database rows)
  companions : ∀ ending, ending ≠ "" →
    files.node? (Connection.companion (above ++ ["cache.db"]) ending) =
      base.node? (Connection.companion (above ++ ["cache.db"]) ending)
  seconds : files.seconds = base.seconds

theorem Connection.companion_concat (above : Path) (last ending : String) :
    companion (above ++ [last]) ending = above ++ [last ++ ending] := by
  unfold companion
  rw [List.dropLast_concat, List.getLast?_concat, Option.getD_some]

namespace FileSystem.Laid

variable {base files after : FileSystem} {above : Path} {last : String} {rows : Rows}

/-- Rows that change are no matter of other places. -/
theorem place (laid : Laid base above files) (rows : Rows) :
    Laid base above (files.place (above ++ ["cache.db"]) (.database rows)) where
  keeps := by
    obtain ⟨before, stands⟩ := laid.stored
    have plain : files.isDirectory (above ++ ["cache.db"]) = false := by
      rw [isDirectory, stands]
      rfl
    exact laid.keeps.trans ((keeps_place files _ plain).mono fun _ impossible => impossible.elim)
  stored := ⟨rows, node?_place_same files _ (by simp)⟩
  companions ending some := by
    have inside : above ++ ["cache.db"] ≠ [] := by simp
    rw [node?_place_other files _ (Connection.companion_ne_path some inside)]
    exact laid.companions ending some
  seconds := laid.seconds

/-- A directory beside the database changes. -/
theorem confined (laid : Laid base above files)
    (confined : DiskStore.Confined base (above ++ [last]) files after)
    (apart : ∀ ending, last ≠ "cache.db" ++ ending) : Laid base above after := by
  have same (ending : String) := confined.node? (apart ending) []
  refine ⟨confined.keeps, ?_, fun ending some => ?_, confined.seconds.trans laid.seconds⟩
  · obtain ⟨rows, stands⟩ := laid.stored
    refine ⟨rows, Eq.trans ?_ stands⟩
    simpa only [String.append_empty] using same ""
  · rw [← laid.companions ending some, Connection.companion_concat]
    exact same ending

theorem recounts (laid : Laid base above files) (recounts : Recounts files after) :
    Laid base above after := by
  have kept := recounts.extends
  obtain ⟨calls, rfl⟩ := recounts
  exact ⟨laid.keeps.trans kept.weaken, laid.stored, laid.companions, laid.seconds⟩

end FileSystem.Laid

namespace Storage

/-- A place for the stores, in which no two of the keys have payload files of one name. No value that is put adds
more than `step` to a count. -/
structure Site (settings : StorageSettings) (keys : List String) (step : Nat) where
  /-- The tree when the stores had been opened for the first time. -/
  base : FileSystem
  above : Path
  plain : DatabaseName.parse settings.database.name =
    .ok ⟨some settings.database.name, .create, false⟩
  settled : DatabaseStore.Settled settings.database base above
  columnar : DiskStore.Ground settings.columnar base (above ++ ["parquet"]) keys
  compressed : DiskStore.Ground settings.compressed base (above ++ ["compressed"]) keys
  positive : 1 ≤ step
  early : base.seconds < Word.limit

variable {settings : StorageSettings} {files : FileSystem} {keys : List String} {step : Nat}

/-- The four stores stand for four maps of values that can be stored. -/
structure Stands (site : Site settings keys step) (storage : Storage) (maps : PerTier RecentMap) :
    Prop where
  memory : Mirrors (fun _ item value => item = value) storage.memory maps.memory
  database : DatabaseStore.Stands settings.database storage.databasePart maps.sqlite
  place : storage.database.place? = some (site.above ++ ["cache.db"])
  columnar : DiskStore.StandsIn settings.columnar (site.above ++ ["parquet"]) keys step
    storage.columnarPart maps.columnar
  compressed : DiskStore.StandsIn settings.compressed (site.above ++ ["compressed"]) keys step
    storage.compressedPart maps.compressed
  laid : Laid site.base site.above storage.files
  permitted : ∀ tier, ∀ pair ∈ maps.get tier, DiskStore.Permits keys step (.put pair.1 pair.2)

variable {site : Site settings keys step} {storage : Storage} {maps : PerTier RecentMap} {tier : Tier}

/-! ## Calls -/

theorem parquet_ne (ending : String) : "parquet" ≠ "cache.db" ++ ending := by
  intro same
  have letters := congrArg String.toList same
  rw [String.toList_append] at letters
  cases letters

theorem compressed_ne (ending : String) : "compressed" ≠ "cache.db" ++ ending := by
  intro same
  have letters := congrArg String.toList same
  rw [String.toList_append] at letters
  cases letters

/-- Values that were permitted when they were put go on to be. -/
theorem Stands.permitted_step (stands : Stands site storage maps)
    {call : StoreCall} (permits : DiskStore.Permits keys step call) (tier : Tier) (budget : Nat) :
    ∀ place, ∀ pair ∈ (maps.set tier (RecentMap.step budget (maps.get tier) call).2).get place,
      DiskStore.Permits keys step (.put pair.1 pair.2) := by
  intro place pair member
  by_cases own : place = tier
  · rw [own, PerTier.get_set_same] at member
    rcases RecentMap.mem_step member with before | rfl
    · exact stands.permitted tier pair before
    · exact permits
  · rw [PerTier.get_set_other _ _ own] at member
    exact stands.permitted place pair member

/-- The rows change, and nothing else does. -/
theorem Stands.onDatabase (stands : Stands site storage maps)
    {part : DatabaseWorld} {map : RecentMap} (database : DatabaseStore.Stands settings.database part map)
    (changed : part = storage.databasePart ∨ ∃ rows, part = DatabaseStore.setRows storage.databasePart rows)
    (permitted : ∀ tier, ∀ pair ∈ (maps.set .sqlite map).get tier,
      DiskStore.Permits keys step (.put pair.1 pair.2)) :
    Stands site (storage.setDatabasePart part) (maps.set .sqlite map) := by
  rcases changed with rfl | ⟨rows, rfl⟩
  · exact ⟨stands.memory, database, stands.place, stands.columnar, stands.compressed, stands.laid, permitted⟩
  · have part : DatabaseStore.setRows storage.databasePart rows =
        ⟨storage.database, storage.files.place (site.above ++ ["cache.db"]) (.database rows)⟩ := by
      simp only [DatabaseStore.setRows, databasePart, stands.place]
    rw [part] at database ⊢
    have walk {last : String} (different : "cache.db" ≠ last) :
        (storage.files.place (site.above ++ ["cache.db"]) (.database rows)).nodes.walk (site.above ++ [last]) =
          storage.files.nodes.walk (site.above ++ [last]) :=
      PathTree.walk_change_apart _ (not_prefix_concat different) (not_prefix_concat different.symm) _
    exact ⟨stands.memory, database, stands.place, stands.columnar.of_walk (walk (by decide)) rfl,
      stands.compressed.of_walk (walk (by decide)) rfl, stands.laid.place rows, permitted⟩

theorem Stands.onColumnar (stands : Stands site storage maps)
    {part : DiskWorld} {map : RecentMap}
    (columnar : DiskStore.StandsIn settings.columnar (site.above ++ ["parquet"]) keys step part map)
    (confined : DiskStore.Confined site.base (site.above ++ ["parquet"]) storage.files part.files)
    (permitted : ∀ tier, ∀ pair ∈ (maps.set .columnar map).get tier,
      DiskStore.Permits keys step (.put pair.1 pair.2)) :
    Stands site (storage.setColumnarPart part) (maps.set .columnar map) where
  memory := stands.memory
  database := stands.database.of_node? stands.place stands.place stands.database.usable.writable
    (confined.node? (by decide) [])
  place := stands.place
  columnar := columnar
  compressed := stands.compressed.of_walk (confined.walk (by decide)) confined.seconds
  laid := stands.laid.confined confined parquet_ne
  permitted := permitted

theorem Stands.onCompressed (stands : Stands site storage maps)
    {part : DiskWorld} {map : RecentMap}
    (compressed : DiskStore.StandsIn settings.compressed (site.above ++ ["compressed"]) keys step part map)
    (confined : DiskStore.Confined site.base (site.above ++ ["compressed"]) storage.files part.files)
    (permitted : ∀ tier, ∀ pair ∈ (maps.set .compressed map).get tier,
      DiskStore.Permits keys step (.put pair.1 pair.2)) :
    Stands site (storage.setCompressedPart part) (maps.set .compressed map) where
  memory := stands.memory
  database := stands.database.of_node? stands.place stands.place stands.database.usable.writable
    (confined.node? (by decide) [])
  place := stands.place
  columnar := stands.columnar.of_walk (confined.walk (by decide)) confined.seconds
  compressed := compressed
  laid := stands.laid.confined confined compressed_ne
  permitted := permitted

/-- Each call does to the map of its tier what it should, and nothing to the others. -/
theorem leads_call (stands : Stands site storage maps) (tier : Tier) {call : StoreCall}
    (permits : DiskStore.Permits keys step call) :
    Leads (· = .sumOverflow) (call.run ((stores settings).get tier)).run storage fun answer after =>
      answer = (RecentMap.step ((stores settings).get tier).budget (maps.get tier) call).1 ∧
        Stands site after
          (maps.set tier (RecentMap.step ((stores settings).get tier).budget (maps.get tier) call).2) := by
  have permitted := stands.permitted_step permits tier
  cases tier with
  | memory =>
      change Leads _ (call.run ((MemoryStore.store settings.memoryBudget).within _ _)).run _ _
      rw [StoreCall.run_within, StoreAction.leads_within]
      refine (MemoryStore.refines settings.memoryBudget call [] _ _ stands.memory).imp ?_
      rintro answer memory - ⟨same, mirrors⟩
      exact ⟨same, mirrors, stands.database, stands.place, stands.columnar, stands.compressed, stands.laid,
        permitted _⟩
  | sqlite =>
      change Leads _ (call.run ((DatabaseStore.store settings.database).within _ _)).run _ _
      rw [StoreCall.run_within, StoreAction.leads_within]
      have offers : call.Offers Value.WellFormed := by
        cases call with
        | put key value => exact permits.2.2.1
        | _ => trivial
      refine (DatabaseStore.leads_call stands.database offers).imp ?_
      rintro answer part - ⟨same, database, changed⟩
      exact ⟨same, stands.onDatabase database changed (permitted _)⟩
  | columnar =>
      change Leads _ (call.run ((DiskStore.store settings.columnar).within _ _)).run _ _
      rw [StoreCall.run_within, StoreAction.leads_within]
      refine (DiskStore.leads_call site.columnar site.positive stands.laid.keeps stands.columnar permits).imp ?_
      rintro answer part - ⟨same, columnar, confined⟩
      exact ⟨same, stands.onColumnar columnar confined (permitted _)⟩
  | compressed =>
      change Leads _ (call.run ((DiskStore.store settings.compressed).within _ _)).run _ _
      rw [StoreCall.run_within, StoreAction.leads_within]
      refine (DiskStore.leads_call site.compressed site.positive stands.laid.keeps stands.compressed permits).imp ?_
      rintro answer part - ⟨same, compressed, confined⟩
      exact ⟨same, stands.onCompressed compressed confined (permitted _)⟩

/-- Keys and sizes of what is stored, the least recently used first. -/
def listing (map : RecentMap) : List (String × Nat) := map.map fun (key, value) => (key, value.weight)

theorem Stands.run_entries (stands : Stands site storage maps) (tier : Tier) :
    ((stores settings).get tier).entries.run storage = .ok (.ok (listing (maps.get tier))) storage := by
  cases tier with
  | memory => exact congrArg (fun told => EStateM.Result.ok (Except.ok told) storage) stands.memory.listing
  | sqlite =>
      exact congrArg (fun told => EStateM.Result.ok (Except.ok told) storage) stands.database.mirrors.listing
  | columnar =>
      obtain ⟨residents, stands⟩ := stands.columnar
      exact congrArg (fun told => EStateM.Result.ok (Except.ok told) storage)
        (stands.ranks.listing.trans stands.mirrors.listing)
  | compressed =>
      obtain ⟨residents, stands⟩ := stands.compressed
      exact congrArg (fun told => EStateM.Result.ok (Except.ok told) storage)
        (stands.ranks.listing.trans stands.mirrors.listing)

/-! ## The end, and another beginning -/

/-- The indexes of both directories are in their files. -/
structure Filed (site : Site settings keys step) (storage : Storage) : Prop where
  columnar : DiskStore.Filed (site.above ++ ["parquet"]) storage.columnar.index storage.files
  compressed : DiskStore.Filed (site.above ++ ["compressed"]) storage.compressed.index storage.files

theorem Stands.closed (stands : Stands site storage maps) : ∃ after,
    (close settings).run storage = .ok (.ok ()) after ∧ Stands site after maps ∧ Filed site after := by
  obtain ⟨part, ended, columnar, filed, confined⟩ :=
    stands.columnar.closed site.columnar stands.laid.keeps
  have first : (StoreAction.within columnarPart setColumnarPart (DiskStore.close settings.columnar)).run
      storage = .ok (.ok ()) (storage.setColumnarPart part) := by
    refine StoreAction.run_within_of_ok ?_
    exact ended
  have stands := stands.onColumnar columnar confined stands.permitted
  obtain ⟨other, ended, compressed, also, confined⟩ :=
    stands.compressed.closed site.compressed stands.laid.keeps
  have second : (StoreAction.within compressedPart setCompressedPart
      (DiskStore.close settings.compressed)).run (storage.setColumnarPart part) =
      .ok (.ok ()) ((storage.setColumnarPart part).setCompressedPart other) := by
    refine StoreAction.run_within_of_ok ?_
    exact ended
  refine ⟨_, (StoreAction.run_bind_of_ok first).trans second,
    stands.onCompressed compressed confined stands.permitted, ?_, also⟩
  have same : other.files.node? (site.above ++ "parquet" :: ["metadata.json"]) = _ :=
    confined.node? (by decide) _
  rw [List.append_cons] at same
  exact filed.of_node? same

/-- Where both indexes are in their files, the stores are opened again as they were, and memory begins empty. -/
theorem Stands.reopened (stands : Stands site storage maps) (filed : Filed site storage) :
    ∃ opened after, (openIn settings).run storage.files = .ok (.ok opened) after ∧
      Stands site opened (maps.set .memory []) := by
  obtain ⟨rows, stored⟩ := stands.laid.stored
  have keeps := stands.laid.keeps
  have quiet := keeps.quiet site.columnar.vacant.quiet
  have settled := site.settled.keeps keeps stands.laid.companions
  obtain ⟨first, connected, once⟩ := DatabaseStore.openIn_of_settled site.plain quiet settled stored
  have laid := stands.laid.recounts once
  obtain ⟨columnar, second, told, more, shelved⟩ := (stands.columnar.recounts once).reopened site.columnar
    laid.keeps (filed.columnar.of_node? (once.node? _)) (laid.seconds.trans_lt site.early)
  have twice := once.trans more
  have laid := stands.laid.recounts twice
  obtain ⟨compressed, third, also, last, packed⟩ := (stands.compressed.recounts twice).reopened
    site.compressed laid.keeps (filed.compressed.of_node? (twice.node? _)) (laid.seconds.trans_lt site.early)
  have thrice := twice.trans last
  let opened : Storage := ⟨[], ⟨some (site.above ++ ["cache.db"]), true, []⟩, columnar, compressed, third⟩
  have ended : (openIn settings).run storage.files = .ok (.ok opened) third := by
    refine (StoreAction.run_bind_of_ok connected).trans ?_
    refine (StoreAction.run_bind_of_ok told).trans ?_
    exact (StoreAction.run_bind_of_ok also).trans rfl
  refine ⟨opened, third, ended, .nil, ?_, rfl, shelved.recounts last, packed, stands.laid.recounts thrice, ?_⟩
  · exact stands.database.of_node? stands.place rfl rfl (thrice.node? _)
  · intro place pair member
    cases place with
    | memory => cases member
    | sqlite => exact stands.permitted .sqlite pair member
    | columnar => exact stands.permitted .columnar pair member
    | compressed => exact stands.permitted .compressed pair member

/-! ## The first beginning -/

/-- The stores were opened for the first time: there are no rows, and nothing is in the two directories. -/
structure Fresh (settings : StorageSettings) (files : FileSystem) (storage : Storage) : Prop where
  opened : ∃ after, (openIn settings).run files = .ok (.ok storage) after
  rooted : files.Rooted
  plain : DatabaseName.parse settings.database.name =
    .ok ⟨some settings.database.name, .create, false⟩
  writable : storage.database.writable = true
  unused : DatabaseStore.rowsOf storage.databasePart = []
  columnar : ∃ home, Vacant storage.files settings.columnar.root home
  compressed : ∃ home, Vacant storage.files settings.compressed.root home

theorem plain_parquet : Plain "parquet" := ⟨by decide, by decide, by decide, by decide, by decide⟩

theorem plain_compressed : Plain "compressed" := ⟨by decide, by decide, by decide, by decide, by decide⟩

/-- Fresh stores stand for empty maps. -/
theorem Fresh.stands (fresh : Fresh settings files storage)
    (below : settings.columnar.root = FileName.join settings.database.directory "parquet" ∧
      settings.compressed.root = FileName.join settings.database.directory "compressed")
    (level : Columnar.isLevel settings.columnar.compressor.level = true ∧
      Columnar.isLevel settings.compressed.compressor.level = true)
    (apart : ∀ left ∈ keys, ∀ right ∈ keys,
      DiskStore.payloadName left = DiskStore.payloadName right → left = right)
    (positive : 1 ≤ step) (soon : storage.files.seconds < Word.limit) :
    ∃ site : Site settings keys step, Stands site storage (.const []) := by
  obtain ⟨third, ended⟩ := fresh.opened
  obtain ⟨shelves, shelved⟩ := fresh.columnar
  obtain ⟨parcels, packed⟩ := fresh.compressed
  obtain ⟨database, first, connected, ended⟩ := StoreAction.ended_of_bind ended
  obtain ⟨columnar, second, told, ended⟩ := StoreAction.ended_of_bind ended
  obtain ⟨compressed, _, also, ended⟩ := StoreAction.ended_of_bind ended
  cases ended
  obtain ⟨above, rows, place, settled, stored⟩ :=
    DatabaseStore.settled_of_openIn fresh.plain fresh.rooted connected fresh.writable
  obtain ⟨rfl, last⟩ := DiskStore.left_of_openIn packed (.refl _ _) also
  have later : Extends second third := extends_of_makeDirectories last
  obtain ⟨rfl, middle⟩ := DiskStore.left_of_openIn shelved later told
  have early : Extends first second := extends_of_makeDirectories middle
  have refuses : third.Quiet := packed.quiet
  rw [below.1] at middle
  rw [below.2] at last
  have kept := early.trans later
  obtain ⟨rfl, inside⟩ := settled.seat.left_of_makeDirectories plain_parquet
    (fun number => kept.refuses ▸ refuses number) middle later (below.1 ▸ shelved.holds)
  obtain ⟨rfl, outside⟩ := (settled.seat.keeps early).left_of_makeDirectories plain_compressed
    (fun number => later.refuses ▸ refuses number) last (.refl _ _) (below.2 ▸ packed.holds)
  have settled := settled.keeps kept.weaken fun ending _ => by
    rw [Connection.companion_concat, outside _ fun same => compressed_ne ending (last_eq same).symm,
      inside _ fun same => parquet_ne ending (last_eq same).symm]
  have stored := kept.node _ _ trivial stored
  have usable : DatabaseStore.Usable ⟨database, third⟩ := ⟨fresh.writable, by simp [place]⟩
  refine ⟨⟨third, above, fresh.plain, settled, ⟨shelved, level.1, apart⟩, ⟨packed, level.2, apart⟩, positive,
    soon⟩, .nil, ⟨usable, ?_⟩, place, DiskStore.standsIn_of_vacant shelved, DiskStore.standsIn_of_vacant packed,
    ⟨.refl _ _, ⟨rows, stored⟩, fun _ _ => rfl, rfl⟩, ?_⟩
  · rw [fresh.unused]
    exact .nil
  · intro tier pair member
    rw [PerTier.get_const] at member
    cases member

end Storage

end TierVault
