import TierVault.Proofs.FileSystem.Calls
import TierVault.Proofs.Store.Connection
import TierVault.Proofs.Store.Memory
import TierVault.Proofs.Store.Payload
import TierVault.Proofs.Store.RecentMap
import TierVault.Proofs.Store.Success
import TierVault.Proofs.Value.RoundTrip
import TierVault.Store.Database

/-!
Stores in memory and stores in a database are the map that they are meant to be, and a database is found again.

Both keep a list by recency, one of the values and one of the rows that hold them.

The path of a database is put together from the pieces of its name, without a look at what stands on the way. In
a tree where every directory on the way is there, this is where the name leads.
-/

namespace TierVault

/-! # The maps they stand for -/

section

open TierVault.Action

variable {faults : Fault → Prop} {key : String} {value : Value} {encoded : Bytes}

/-! ## In memory -/

theorem MemoryStore.refines (budget : Nat) :
    (MemoryStore.store budget).Refines budget faults fun _ world map =>
      Mirrors (fun _ item value => item = value) world map := by
  intro call later world map mirrors
  cases call with
  | get key =>
      refine (leads_of_eq run_get).mpr ⟨?_, mirrors.use fun _ _ same => same⟩
      rcases mirrors.find? key with ⟨missing, unknown⟩ | ⟨item, value, found, known, rfl⟩
      · rw [RecentMap.step_get_of_none unknown, missing]
        rfl
      · rw [RecentMap.step_get_of_some known, found]
        rfl
  | put key value =>
      cases sized : value.encodedSize with
      | error error =>
          rw [RecentMap.step_put_of_error sized]
          exact (leads_of_eq (run_put_of_error sized)).mpr ⟨rfl, mirrors⟩
      | ok size =>
          by_cases large : budget < size
          · rw [RecentMap.step_put_of_lt sized large]
            exact (leads_of_eq (run_put_of_lt sized large)).mpr ⟨rfl, mirrors⟩
          · have small := Nat.not_lt.mp large
            rw [RecentMap.step_put_of_le sized small]
            refine (leads_of_eq (run_put sized small)).mpr ⟨rfl, ?_⟩
            rw [← Value.weight_eq sized]
            exact mirrors.put budget rfl
  | has key => exact ⟨congrArg Except.ok (mirrors.has key), mirrors⟩
  | delete key => exact ⟨congrArg Except.ok (mirrors.has key), mirrors.remove key⟩
  | clear => exact ⟨rfl, .nil⟩
  | size => exact ⟨congrArg Except.ok mirrors.total, mirrors⟩
  | entries => exact ⟨congrArg Except.ok mirrors.listing, mirrors⟩

/-! ## In a database -/

namespace DatabaseStore

variable {settings : DatabaseSettings} {world : DatabaseWorld} {change : Rows → Rows}
  {Result : Type} {blob : Blob} {map : RecentMap}

/-- Rows can be changed, and they lie in a file that is not the root. -/
structure Usable (world : DatabaseWorld) : Prop where
  writable : world.connection.writable = true
  inside : world.connection.place? ≠ some []

theorem rowsOf_setRows (usable : Usable world) (rows : Rows) : rowsOf (setRows world rows) = rows := by
  unfold setRows rowsOf
  cases place : world.connection.place? with
  | none => simp only [place]
  | some path =>
      have inside : path ≠ [] := fun same => usable.inside (same ▸ place)
      simp only [place, rowsIn, FileSystem.node?_place_same _ _ inside]

theorem connection_setRows (rows : Rows) :
    (setRows world rows).connection.place? = world.connection.place? ∧
      (setRows world rows).connection.writable = world.connection.writable := by
  unfold setRows
  split <;> exact ⟨rfl, rfl⟩

theorem Usable.setRows (usable : Usable world) (rows : Rows) : Usable (setRows world rows) := by
  obtain ⟨place, writable⟩ : _ ∧ _ := connection_setRows rows
  exact ⟨writable.trans usable.writable, place ▸ usable.inside⟩

theorem update_bind (usable : Usable world) (next : Unit → DatabaseAction Result) :
    (update change >>= next).run world = (next ()).run (setRows world (change (rowsOf world))) := by
  have step : (update change >>= next).run world =
      ((if !world.connection.writable then throw (.database .readOnly)
        else set (setRows world (change (rowsOf world))) : DatabaseAction Unit) >>= next).run world := rfl
  rw [step, usable.writable]
  rfl

theorem run_update (usable : Usable world) :
    (update change).run world = .ok (.ok ()) (setRows world (change (rowsOf world))) := by
  rw [← bind_pure (update change), update_bind usable]
  rfl

/-- The payload is the value's encoding, perhaps in a frame. -/
def Holds (settings : DatabaseSettings) (blob : Blob) (value : Value) : Prop :=
  ∃ encoded, value.encode = .ok encoded ∧ value.WellFormed ∧ content settings blob = .ok encoded

/-- What is put into a row holds the value. -/
theorem holds_compressIfShorter (encodes : value.encode = .ok encoded) (wellFormed : value.WellFormed)
    (compress : Bool) :
    Holds settings ⟨(if compress then settings.compressor.compressIfShorter encoded
      else (encoded, false)).1, (if compress then settings.compressor.compressIfShorter encoded
      else (encoded, false)).2, 0⟩ value := by
  refine ⟨encoded, encodes, wellFormed, ?_⟩
  unfold content
  cases compress with
  | false => rfl
  | true =>
      rcases settings.compressor.compressIfShorter_cases encoded with raw | ⟨framed, -⟩
      · simp only [if_true, raw]
        rfl
      · simp only [if_true, framed, Bool.not_true, Bool.false_eq_true, if_false, Compressor.compress,
          settings.compressor.codec.unpack_pack]

theorem run_get_of_none (missing : RecencyList.find? key (rowsOf world) = none) :
    (get settings key).run world = .ok (.ok none) world := by
  unfold get rows
  simp only [bind_assoc, pure_bind, StoreAction.run_getThe_bind, missing]
  rfl

theorem run_get_of_some (usable : Usable world) {size : Nat}
    (found : RecencyList.find? key (rowsOf world) = some ⟨key, size, blob⟩)
    (holds : Holds settings blob value) :
    (get settings key).run world = .ok (.ok (some value)) (setRows world
      (RecencyList.use key (fun blob => { blob with accessCount := blob.accessCount + 1 })
        (rowsOf world))) := by
  obtain ⟨encoded, encodes, wellFormed, held⟩ := holds
  have decodes := Value.decode_encode encodes wellFormed []
  rw [List.append_nil] at decodes
  unfold get rows
  simp only [bind_assoc, pure_bind, StoreAction.run_getThe_bind, found]
  rw [update_bind usable, held]
  simp only [StoreAction.ofExcept, pure_bind, decodes]
  rfl

theorem run_put_of_error {error : CodecError} (unsized : value.encodedSize = .error error) :
    (put settings key value).run world = .ok (.error (.codec error)) world := by
  rw [Value.encodedSize_eq] at unsized
  unfold put
  cases encodes : value.encode with
  | ok encoded =>
      rw [encodes] at unsized
      cases unsized
  | error own =>
      rw [encodes] at unsized
      cases unsized
      rfl

theorem put_of_encode (encodes : value.encode = .ok encoded) :
    put settings key value = (do
      if settings.budget < encoded.length then throw (.tooLarge encoded.length settings.budget)
      let (payload, compressed) :=
        if settings.compress then settings.compressor.compressIfShorter encoded else (encoded, false)
      update (RecencyList.put settings.budget ⟨key, encoded.length, payload, compressed, 0⟩)) := by
  unfold put
  rw [encodes]
  rfl

theorem run_delete (usable : Usable world) : (delete key).run world =
    .ok (.ok (RecencyList.has key (rowsOf world)))
      (setRows world (RecencyList.remove key (rowsOf world))) :=
  update_bind usable fun _ => pure (RecencyList.has key (rowsOf world))

/-- The database is usable, and its rows stand for the map. -/
structure Stands (settings : DatabaseSettings) (world : DatabaseWorld) (map : RecentMap) : Prop where
  usable : Usable world
  mirrors : Mirrors (fun _ => Holds settings) (rowsOf world) map

theorem Stands.setRows {next : RecentMap} {rows : Rows} (stands : Stands settings world map)
    (mirrors : Mirrors (fun _ => Holds settings) rows next) :
    Stands settings (setRows world rows) next := by
  refine ⟨stands.usable.setRows rows, ?_⟩
  rw [rowsOf_setRows stands.usable]
  exact mirrors

/-- While the file of the database is left alone, the rows stand for the map, on whichever connection. -/
theorem Stands.of_node? {connection other : Connection} {files after : FileSystem} {path : Path}
    (stands : Stands settings ⟨connection, files⟩ map) (place : connection.place? = some path)
    (again : other.place? = some path) (writable : other.writable = true)
    (same : after.node? path = files.node? path) : Stands settings ⟨other, after⟩ map := by
  have inside := stands.usable.inside
  have rows : rowsOf ⟨other, after⟩ = rowsOf ⟨connection, files⟩ := by
    simp only [rowsOf, place, again, rowsIn, same]
  refine ⟨⟨writable, ?_⟩, ?_⟩
  · rw [again, ← place]
    exact inside
  · rw [rows]
    exact stands.mirrors

theorem place_of_openIn {files opened : FileSystem} {connection : Connection}
    (ends : (openIn settings).run files = .ok (.ok connection) opened) :
    connection.place? ≠ some [] := by
  obtain ⟨-, made, -, ends⟩ := StoreAction.ended_of_bind ends
  simp only [ExceptT.run] at ends
  cases opens : Connection.openNamed settings.name made with
  | error error final =>
      simp only [opens] at ends
      cases ends
  | ok own final =>
      simp only [opens] at ends
      cases ends
      exact Connection.place_of_openNamed opens

/-- The database was just opened for writing, and has no rows. -/
structure Fresh (settings : DatabaseSettings) (world : DatabaseWorld) : Prop where
  opened : ∃ files, (openIn settings).run files = .ok (.ok world.connection) world.files
  writable : world.connection.writable = true
  unused : rowsOf world = []

/-- A fresh database stands for the empty map. -/
theorem Fresh.stands (fresh : Fresh settings world) : Stands settings world [] := by
  obtain ⟨files, ends⟩ := fresh.opened
  refine ⟨⟨fresh.writable, place_of_openIn ends⟩, ?_⟩
  rw [fresh.unused]
  exact .nil

/-- Each call does what the map does, and changes nothing but the rows. -/
theorem leads_call (stands : Stands settings world map) {call : StoreCall}
    (offers : call.Offers Value.WellFormed) :
    Leads faults (call.run (store settings)).run world fun answer after =>
      answer = (RecentMap.step settings.budget map call).1 ∧
        Stands settings after (RecentMap.step settings.budget map call).2 ∧
          (after = world ∨ ∃ rows, after = setRows world rows) := by
  have mirrors := stands.mirrors
  cases call with
  | get key =>
      rcases mirrors.find? key with ⟨missing, unknown⟩ | ⟨blob, value, found, known, holds⟩
      · rw [RecentMap.step_get_of_none unknown]
        exact (leads_of_eq (run_get_of_none missing)).mpr ⟨rfl, stands, .inl rfl⟩
      · refine (leads_of_eq (run_get_of_some stands.usable found holds)).mpr
          ⟨?_, stands.setRows ?_, .inr ⟨_, rfl⟩⟩
        · rw [RecentMap.step_get_of_some known]
        · exact mirrors.use fun blob value holds => holds
  | put key value =>
      cases sized : value.encodedSize with
      | error error =>
          rw [RecentMap.step_put_of_error sized]
          exact (leads_of_eq (run_put_of_error sized)).mpr ⟨rfl, stands, .inl rfl⟩
      | ok size =>
          obtain ⟨encoded, encodes, rfl⟩ := Value.encode_of_encodedSize sized
          have wellFormed : value.WellFormed := offers
          change Leads _ ((put settings key value).run) _ _
          rw [put_of_encode encodes]
          by_cases large : settings.budget < encoded.length
          · rw [RecentMap.step_put_of_lt sized large, if_pos large]
            exact ⟨rfl, stands, .inl rfl⟩
          · rw [RecentMap.step_put_of_le sized (Nat.not_lt.mp large), if_neg large]
            refine (leads_of_eq (run_update stands.usable)).mpr
              ⟨rfl, stands.setRows ?_, .inr ⟨_, rfl⟩⟩
            rw [← Value.weight_of_encode encodes]
            exact mirrors.put settings.budget
              (holds_compressIfShorter encodes wellFormed settings.compress)
  | has key => exact ⟨congrArg Except.ok (mirrors.has key), stands, .inl rfl⟩
  | delete key =>
      change Leads _ (delete key).run _ _
      exact (leads_of_eq (run_delete stands.usable)).mpr
        ⟨congrArg Except.ok (mirrors.has key), stands.setRows (mirrors.remove key), .inr ⟨_, rfl⟩⟩
  | clear =>
      change Leads _ (update fun _ => []).run _ _
      exact (leads_of_eq (run_update stands.usable)).mpr ⟨rfl, stands.setRows .nil, .inr ⟨_, rfl⟩⟩
  | size => exact ⟨congrArg Except.ok mirrors.total, stands, .inl rfl⟩
  | entries => exact ⟨congrArg Except.ok mirrors.listing, stands, .inl rfl⟩

theorem refines (settings : DatabaseSettings) :
    (store settings).Refines settings.budget faults fun later world map =>
      Stands settings world map ∧ ∀ call ∈ later, call.Offers Value.WellFormed := by
  rintro call later world map ⟨stands, offers⟩
  refine (leads_call stands (offers call List.mem_cons_self)).imp ?_
  rintro answer after - ⟨same, onward, -⟩
  exact ⟨same, onward, fun call member => offers call (List.mem_cons_of_mem _ member)⟩

end DatabaseStore

end

/-! # Where a database lies -/

section

open FileSystem

variable {before files after : FileSystem} {name last : String} {start path above final : Path}
  {pieces front : List String}

theorem FileName.isAbsolute_iff (named : name ≠ "") :
    isAbsolute name = true ↔ (FileName.pieces name).head? = some "" := by
  obtain ⟨letter, rest, letters⟩ :=
    List.exists_cons_of_ne_nil fun empty => named (String.toList_eq_nil_iff.mp empty)
  unfold isAbsolute FileName.pieces
  rw [letters, splitAtSlashes]
  cases split : splitAtSlashes rest with
  | nil => exact absurd split (splitAtSlashes_ne_nil rest)
  | cons first others =>
      by_cases slash : letter = '/'
      · simp [slash]
      · simp [slash]

namespace FileSystem

/-! ## Paths without detours -/

/-- Every piece of the path leads down, and there is a directory at each of them. -/
structure Reaches (files : FileSystem) (path : Path) : Prop where
  pieces : ∀ piece ∈ path, FileName.isIdle piece = false ∧ piece ≠ ".." ∧ piece.utf8ByteSize ≤ pieceLimit
  directories : ∀ front, front <+: path → files.isDirectory front = true

theorem reaches_nil (files : FileSystem) : Reaches files [] := by
  refine ⟨nofun, fun front nothing => ?_⟩
  rw [List.prefix_nil.mp nothing]
  rfl

namespace Reaches

theorem isDirectory (reaches : Reaches files path) : files.isDirectory path = true :=
  reaches.directories path (List.prefix_refl path)

theorem of_prefix (reaches : Reaches files path) (front : above <+: path) : Reaches files above :=
  ⟨fun piece member => reaches.pieces piece (front.subset member),
    fun shorter begins => reaches.directories shorter (begins.trans front)⟩

theorem concat (reaches : Reaches files path) {piece : String}
    (leads : FileName.isIdle piece = false ∧ piece ≠ ".." ∧ piece.utf8ByteSize ≤ pieceLimit)
    (directory : files.isDirectory (path ++ [piece]) = true) : Reaches files (path ++ [piece]) := by
  constructor
  · intro other member
    rcases List.mem_append.mp member with before | own
    · exact reaches.pieces other before
    · exact List.mem_singleton.mp own ▸ leads
  · intro front begins
    rcases List.prefix_concat_iff.mp begins with rfl | shorter
    · exact directory
    · exact reaches.directories front shorter

theorem keeps {kept : Path → Prop} (reaches : Reaches files path) (keeps : Keeps kept files after) :
    Reaches after path :=
  ⟨reaches.pieces, fun front begins => keeps.directory front (reaches.directories front begins)⟩

/-- From the root, the pieces lead to the path. -/
theorem follow (reaches : Reaches files path) : files.follow [] path = .ok path := by
  induction path using List.reverseRecOn with
  | nil => exact follow_nil files []
  | append_singleton above piece induction =>
      obtain ⟨busy, down, short⟩ := reaches.pieces piece (by simp)
      have shorter := reaches.of_prefix (List.prefix_append above [piece])
      exact (follow_last ⟨busy, down⟩ above).mpr ⟨above, induction shorter, shorter.isDirectory, short, rfl⟩

theorem follow_concat (reaches : Reaches files path) {piece : String}
    (leads : FileName.isIdle piece = false ∧ piece ≠ ".." ∧ piece.utf8ByteSize ≤ pieceLimit) :
    files.follow [] (path ++ [piece]) = .ok (path ++ [piece]) :=
  (follow_last ⟨leads.1, leads.2.1⟩ path).mpr ⟨path, reaches.follow, reaches.isDirectory, leads.2.2, rfl⟩

end Reaches

/-- The working directory is there, with all directories above it. -/
def Rooted (files : FileSystem) : Prop := Reaches files files.workingDirectory

theorem Rooted.isDirectory (rooted : files.Rooted) : files.isDirectory files.workingDirectory = true :=
  Reaches.isDirectory rooted

theorem Rooted.keeps {kept : Path → Prop} (rooted : files.Rooted) (keeps : Keeps kept files after) :
    after.Rooted := by
  unfold Rooted
  rw [keeps.workingDirectory]
  exact Reaches.keeps rooted keeps

end FileSystem

namespace Connection

/-! ## The path of a database -/

/-- A piece that could be added once can be added again, if there is a directory now. -/
theorem extend_of_reaches {piece : String} (reaches : Reaches after path)
    (short : FileName.isIdle piece = false → piece ≠ ".." → piece.utf8ByteSize ≤ pieceLimit)
    (extended : extend before path piece = .ok final) : extend after path piece = .ok final ∧
      final = if FileName.isIdle piece then path else if piece = ".." then path.dropLast
        else path ++ [piece] := by
  unfold extend at extended ⊢
  cases idle : FileName.isIdle piece with
  | true =>
      rw [idle, if_pos rfl] at extended
      cases extended
      exact ⟨rfl, rfl⟩
  | false =>
      rw [idle, if_neg Bool.false_ne_true] at extended
      by_cases up : piece = ".."
      · rw [if_pos up] at extended
        cases extended
        simp [up]
      · rw [if_neg up] at extended
        have led := reaches.follow_concat ⟨idle, up, short idle up⟩
        by_cases long : pathLimit ≤ pathLength (path ++ [piece])
        · simp only [long, if_true] at extended
          cases extended
        · simp only [long, if_false] at extended
          have same : final = path ++ [piece] := by
            split at extended <;> cases extended <;> rfl
          simp [up, long, led, same]

/-- Pieces that lead from directory to directory extend the path in that very way. -/
theorem foldlM_extend_of_follow (reaches : Reaches after start)
    (led : after.follow start pieces = .ok final) (directory : after.isDirectory final = true)
    (extended : pieces.foldlM (extend before) start = .ok path) :
    pieces.foldlM (extend after) start = .ok final ∧ path = final ∧ Reaches after final := by
  induction pieces generalizing start with
  | nil =>
      rw [follow_nil] at led
      cases led
      cases extended
      exact ⟨rfl, rfl, reaches⟩
  | cons piece pieces induction =>
      rw [follow_cons] at led
      simp only [reaches.isDirectory, Bool.not_true, Bool.false_eq_true, if_false] at led
      rw [List.foldlM_cons] at extended ⊢
      cases began : extend before start piece with
      | error error =>
          rw [began] at extended
          cases extended
      | ok next =>
          rw [began] at extended
          have short (idle : FileName.isIdle piece = false) (down : piece ≠ "..") :
              piece.utf8ByteSize ≤ pieceLimit := by
            rw [idle, if_neg Bool.false_ne_true, if_neg down] at led
            split at led
            · cases led
            · exact Nat.le_of_not_lt ‹_›
          obtain ⟨again, same⟩ := extend_of_reaches reaches short began
          rw [again]
          cases idle : FileName.isIdle piece with
          | true =>
              rw [idle, if_pos rfl] at led same
              rw [same] at extended ⊢
              exact induction reaches led extended
          | false =>
              rw [idle, if_neg Bool.false_ne_true] at led same
              by_cases up : piece = ".."
              · rw [if_pos up] at led same
                rw [same] at extended ⊢
                exact induction (reaches.of_prefix (List.dropLast_prefix start)) led extended
              · rw [if_neg up] at led same
                rw [if_neg (Nat.not_lt.mpr (short idle up))] at led
                rw [same] at extended ⊢
                have here := isDirectory_of_follow led directory
                exact induction (reaches.concat ⟨idle, up, short idle up⟩ here) led extended

/-- The working directory, or the root for a name that begins there. -/
theorem origin_of_rooted (rooted : files.Rooted) (named : name ≠ "") :
    (if FileName.isAbsolute name then [] else files.workingDirectory) = files.origin (FileName.pieces name) ∧
      Reaches files (files.origin (FileName.pieces name)) := by
  unfold origin
  by_cases absolute : FileName.isAbsolute name = true
  · rw [if_pos absolute, if_pos ((FileName.isAbsolute_iff named).mp absolute)]
    exact ⟨rfl, reaches_nil files⟩
  · rw [if_neg absolute, if_neg (mt (FileName.isAbsolute_iff named).mpr absolute)]
    exact ⟨rfl, rooted⟩

/-- While the directories on the way stay, a name goes on to have the path that it had. -/
theorem pathOf_of_follow (rooted : after.Rooted) (still : after.workingDirectory = before.workingDirectory)
    (plain : Plain last) (split : FileName.pieces name = front ++ [last])
    (led : after.follow (after.origin (front ++ [last])) front = .ok above)
    (directory : after.isDirectory above = true) (found : pathOf before name = .ok path) :
    pathOf after name = .ok path ∧ path = above ++ [last] := by
  have named : name ≠ "" := by
    rintro rfl
    have whole : [] ++ [""] = front ++ [last] := split
    exact plain.ne_empty (List.singleton_inj.mp (List.append_inj_right' whole rfl)).symm
  obtain ⟨origin, reaches⟩ := origin_of_rooted rooted named
  rw [split] at origin reaches
  unfold pathOf at found ⊢
  rw [← still, origin] at found
  rw [origin]
  cases began : (after.origin (front ++ [last])).foldlM (extend before) [] with
  | error error =>
      simp only [began, bind, Except.bind] at found
      cases found
  | ok start =>
      obtain ⟨again, rfl, -⟩ :=
        foldlM_extend_of_follow (reaches_nil after) reaches.follow reaches.isDirectory began
      simp only [began, again, bind, Except.bind, split, List.foldlM_append] at found ⊢
      cases went : front.foldlM (extend before) (after.origin (front ++ [last])) with
      | error error =>
          simp only [went] at found
          cases found
      | ok way =>
          obtain ⟨again, rfl, arrived⟩ := foldlM_extend_of_follow reaches led directory went
          simp only [went, again, List.foldlM_cons, List.foldlM_nil, bind, Except.bind, pure,
            Except.pure] at found ⊢
          cases added : extend before way last with
          | error error =>
              simp only [added] at found
              cases found
          | ok own =>
              obtain ⟨again, same⟩ := extend_of_reaches arrived (fun _ _ => plain.short) added
              simp only [plain.busy, Bool.false_eq_true, if_false, plain.down] at same
              simp only [added, again] at found ⊢
              refine ⟨found, ?_⟩
              split at found
              · cases found
              · cases found
                exact same

end Connection

namespace DatabaseStore

open Connection

variable {settings : DatabaseSettings} {connection : Connection} {rows : Rows}

theorem plain_fileName : Plain "cache.db" :=
  ⟨by decide, by decide, by decide, by decide, by decide⟩

/-! ## Opening and opening again -/

/-- A directory was made. Without a name, it is the one that is worked in. -/
theorem seat_of_makeDirectories {directory : String} (rooted : files.Rooted)
    (ended : makeDirectories directory before = .ok () files) : ∃ above, Seat files directory above := by
  rcases home_of_makeDirectories ended with nameless | ⟨home, there⟩
  · exact ⟨_, .here nameless rfl rooted.isDirectory⟩
  · exact ⟨home, .named there⟩

/-- The directory of the database is there, its name has that path, and nothing is left to be tidied up. -/
structure Settled (settings : DatabaseSettings) (files : FileSystem) (above : Path) : Prop where
  seat : Seat files settings.directory above
  rooted : files.Rooted
  path : pathOf files settings.name = .ok (above ++ ["cache.db"])
  tidy : Tidy files (above ++ ["cache.db"])

/-- A name that has a path goes on to have it. -/
theorem pathOf_of_seat {directory : String} (seat : Seat after directory above) (rooted : after.Rooted)
    (still : after.workingDirectory = before.workingDirectory)
    (found : pathOf before (FileName.join directory "cache.db") = .ok path) :
    pathOf after (FileName.join directory "cache.db") = .ok path ∧ path = above ++ ["cache.db"] :=
  pathOf_of_follow rooted still plain_fileName (plain_fileName.pieces_join directory)
    (seat.follow plain_fileName) seat.isDirectory found

/-- While no directory is lost, and the companions are left alone, a database stays settled. -/
theorem Settled.keeps (settled : Settled settings files above) (keeps : Keeps (fun _ => False) files after)
    (same : ∀ ending, ending ≠ "" → after.node? (companion (above ++ ["cache.db"]) ending) =
      files.node? (companion (above ++ ["cache.db"]) ending)) : Settled settings after above := by
  have seat := settled.seat.keeps keeps
  have rooted := settled.rooted.keeps keeps
  exact ⟨seat, rooted, (pathOf_of_seat seat rooted keeps.workingDirectory settled.path).1,
    settled.tidy.of_node? same⟩

/-- What an opening for writing leaves behind. -/
theorem settled_of_openIn (plain : DatabaseName.parse settings.name = .ok ⟨some settings.name, .create, false⟩)
    (rooted : before.Rooted) (opened : (openIn settings).run before = .ok (.ok connection) after)
    (writable : connection.writable = true) : ∃ above rows,
      connection.place? = some (above ++ ["cache.db"]) ∧ Settled settings after above ∧
        after.node? (above ++ ["cache.db"]) = some (.database rows) := by
  obtain ⟨⟨⟩, made, directory, ended⟩ := StoreAction.ended_of_bind opened
  have named : openNamed settings.name made = .ok connection after := by
    simp only [ExceptT.run] at ended
    cases called : openNamed settings.name made with
    | error error final =>
        simp only [called] at ended
        cases ended
    | ok own final =>
        simp only [called] at ended
        cases ended
        rfl
  obtain ⟨path, rows, placed, found, tidy, stands, keeps⟩ := left_of_openNamed plain named writable
  have ensured := StoreAction.ended_of_onFiles directory
  have began := rooted.keeps (extends_of_makeDirectories ensured)
  have ended := began.keeps keeps
  obtain ⟨above, seat⟩ := seat_of_makeDirectories began ensured
  have later := seat.keeps keeps
  obtain ⟨still, rfl⟩ := pathOf_of_seat later ended keeps.workingDirectory found
  exact ⟨above, rows, placed, ⟨later, ended, still, tidy⟩, stands⟩

/-- A settled database is opened as it stands. -/
theorem openIn_of_settled (plain : DatabaseName.parse settings.name = .ok ⟨some settings.name, .create, false⟩)
    (quiet : files.Quiet) (settled : Settled settings files above)
    (stands : files.node? (above ++ ["cache.db"]) = some (.database rows)) : ∃ after,
      (openIn settings).run files = .ok (.ok ⟨some (above ++ ["cache.db"]), true, []⟩) after ∧
        Recounts files after := by
  have opens {made : FileSystem} (ensured : makeDirectories settings.directory files = .ok () made)
      (recounts : Recounts files made) :
      (openIn settings).run files = .ok (.ok ⟨some (above ++ ["cache.db"]), true, []⟩) made := by
    obtain ⟨calls, rfl⟩ := recounts
    have kept : Extends files { files with calls } :=
      ⟨rfl, rfl, fun _ there => there, fun _ _ _ there => there⟩
    have again := settled.keeps kept.weaken fun _ _ => rfl
    have same : ({ files with calls } : FileSystem).node? (above ++ ["cache.db"]) =
        some (.database rows) := stands
    have first : (StoreAction.onFiles (makeDirectories settings.directory)).run files =
        .ok (.ok ()) { files with calls } := by
      simp only [StoreAction.onFiles, ExceptT.run, ensured]
    refine (StoreAction.run_bind_of_ok first).trans ?_
    simp only [ExceptT.run, openNamed_eq plain again.path same again.tidy]
  rcases settled.seat with ⟨nameless, -, -⟩ | ⟨home⟩
  · refine ⟨files, opens ?_ (.refl files), .refl files⟩
    rw [nameless]
    rfl
  · exact ⟨files.counted, opens (home.makeDirectories_eq quiet) (recounts_counted files),
      recounts_counted files⟩

end DatabaseStore

end

end TierVault
