import TierVault.Proofs.FileSystem

/-!
Names of things in a directory.

A name that joins the name of a directory and a plain name leads to the path of the one below that of the
other, and it goes on to do so while the directory is there.
-/

namespace TierVault

variable {root name shelf directory last : String} {files after : FileSystem} {home path : Path}
  {kept : Path → Prop} {rest : List String}

namespace FileName

/-! ## Pieces of joined names -/

theorem pieces_of_plain (plain : '/' ∉ name.toList) : pieces name = [name] := by
  unfold pieces
  rw [splitAtSlashes_plain plain, List.map_singleton, String.ofList_toList]

theorem pieces_append_slash (front name : String) :
    pieces (front ++ "/" ++ name) = pieces front ++ pieces name := by
  have letters : (front ++ "/" ++ name).toList = front.toList ++ '/' :: name.toList := by
    rw [String.toList_append, String.toList_append, List.append_assoc]
    rfl
  unfold pieces
  rw [letters, splitAtSlashes_append, List.map_append]

theorem isAbsolute_eq_false (plain : '/' ∉ name.toList) : isAbsolute name = false :=
  decide_eq_false fun slash => plain (List.mem_of_head? slash)

/-- How the names of all things in a directory begin. -/
def opening (directory : String) : String :=
  if directory.isEmpty || directory.toList.getLast? = some '/' then directory else directory ++ "/"

theorem join_eq (relative : isAbsolute name = false) (directory : String) :
    join directory name = opening directory ++ name := by
  unfold join opening
  rw [relative, if_neg Bool.false_ne_true]
  split <;> rfl

theorem opening_cases (directory : String) :
    directory = "" ∧ opening directory = "" ∨ ∃ above, opening directory = above ++ "/" ∧
      (directory = above ∨ directory = above ++ "/") := by
  unfold opening
  split
  · rename_i bare
    rcases Bool.or_eq_true_iff.mp bare with empty | slash
    · exact .inl ⟨String.isEmpty_iff.mp empty, String.isEmpty_iff.mp empty⟩
    · obtain ⟨above, split⟩ := List.getLast?_eq_some_iff.mp (of_decide_eq_true slash)
      have whole : directory = String.ofList above ++ "/" := by
        apply String.toList_inj.mp
        rw [String.toList_append, String.toList_ofList, split]
        rfl
      exact .inr ⟨String.ofList above, whole, .inr whole⟩
  · exact .inr ⟨directory, rfl, .inl rfl⟩

/-- The pieces that stand before the name of a thing in the directory. -/
def frontOf (directory : String) : List String := (pieces (opening directory)).dropLast

theorem frontOf_eq {above : String} (opens : opening directory = above ++ "/") :
    frontOf directory = pieces above := by
  have whole := pieces_append_slash above ""
  rw [String.append_empty] at whole
  rw [frontOf, opens, whole]
  exact List.dropLast_concat

theorem pieces_join (relative : isAbsolute name = false) (directory : String) :
    pieces (join directory name) = frontOf directory ++ pieces name := by
  rw [join_eq relative]
  rcases opening_cases directory with ⟨-, empty⟩ | ⟨above, opens, -⟩
  · rw [frontOf, empty, String.empty_append]
    rfl
  · rw [frontOf_eq opens, opens, pieces_append_slash]

/-- A directory is named like the things in it, but for what stands last. -/
theorem pieces_directory (named : directory ≠ "") :
    pieces directory = frontOf directory ∨ pieces directory = frontOf directory ++ [""] := by
  rcases opening_cases directory with ⟨empty, -⟩ | ⟨above, opens, rfl | rfl⟩
  · exact absurd empty named
  · exact .inl (frontOf_eq opens).symm
  · have whole := pieces_append_slash above ""
    rw [String.append_empty] at whole
    rw [frontOf_eq opens, whole]
    exact .inr rfl

end FileName

namespace FileSystem

open FileName

/-! ## Plain names -/

/-- A text that can name a thing in a directory. -/
structure Plain (name : String) : Prop where
  noSlash : '/' ∉ name.toList
  noNull : '\x00' ∉ name.toList
  busy : isIdle name = false
  down : name ≠ ".."
  short : name.utf8ByteSize ≤ pieceLimit

theorem Plain.relative (plain : Plain name) : isAbsolute name = false :=
  isAbsolute_eq_false plain.noSlash

theorem Plain.pieces (plain : Plain name) : pieces name = [name] := pieces_of_plain plain.noSlash

theorem Plain.ne_empty (plain : Plain name) : name ≠ "" := by
  rintro rfl
  cases plain.busy

theorem Plain.toList_ne_nil (plain : Plain name) : name.toList ≠ [] :=
  fun empty => plain.ne_empty (String.toList_eq_nil_iff.mp empty)

/-- What ends with a plain name needs a slash. -/
theorem Plain.opening_append (plain : Plain name) (front : String) :
    opening (front ++ name) = front ++ name ++ "/" := by
  have last := List.getLast?_eq_some_getLast plain.toList_ne_nil
  have ends : (front ++ name).toList.getLast? = some (name.toList.getLast plain.toList_ne_nil) := by
    rw [String.toList_append, List.getLast?_append, last, Option.some_or]
  have bare : ¬((front ++ name).isEmpty || (front ++ name).toList.getLast? = some '/') = true := by
    intro bare
    rcases Bool.or_eq_true_iff.mp bare with empty | slash
    · rw [String.isEmpty_iff.mp empty] at ends
      cases ends
    · rw [← last.trans ends.symm] at slash
      exact plain.noSlash (List.mem_of_getLast? (of_decide_eq_true slash))
  exact if_neg bare

theorem Plain.relative_append (plain : Plain name) (rest : String) :
    isAbsolute (name ++ "/" ++ rest) = false := by
  refine decide_eq_false fun slash => plain.noSlash ?_
  obtain ⟨first, others, letters⟩ := List.exists_cons_of_ne_nil plain.toList_ne_nil
  rw [String.toList_append, String.toList_append, letters] at slash
  rw [letters]
  exact (Option.some.inj slash) ▸ List.mem_cons_self

/-- A thing in a directory within a directory is named by two plain names. -/
theorem Plain.join_join (shelf_plain : Plain shelf) (plain : Plain name) (root : String) :
    join (join root shelf) name = join root (shelf ++ "/" ++ name) := by
  rw [join_eq plain.relative, join_eq shelf_plain.relative,
    join_eq (shelf_plain.relative_append name), shelf_plain.opening_append]
  simp only [String.append_assoc]

/-! ## Where a name leads -/

theorem piecesOf_eq (noNull : '\x00' ∉ name.toList) (named : name ≠ "")
    (short : name.utf8ByteSize < nameLimit) : piecesOf name = .ok (FileName.pieces name) := by
  have absent : ¬name.toList.contains '\x00' = true := by simpa using noNull
  have some : ¬name.isEmpty = true := fun empty => named (String.isEmpty_iff.mp empty)
  unfold piecesOf
  rw [if_neg absent, if_neg some, if_neg (Nat.not_le.mpr short)]

theorem noNull_of_ok {pieces : List String} (split : piecesOf name = .ok pieces) :
    '\x00' ∉ name.toList ∧ name ≠ "" := by
  unfold piecesOf at split
  split at split
  · cases split
  · rename_i absent
    split at split
    · cases split
    · rename_i some
      exact ⟨by simpa using absent, fun empty => some (String.isEmpty_iff.mpr empty)⟩

/-- The name is that of a thing in a directory, whether or not the thing is there. -/
structure Names (files : FileSystem) (name : String) (above : Path) (last : String) : Prop where
  plain : Plain last
  isDirectory : files.isDirectory above = true
  leads : ∃ front, piecesOf name = .ok (front ++ [last]) ∧
    files.follow (files.origin (front ++ [last])) front = .ok above

variable {above : Path}

theorem Names.keeps (names : Names files name above last) (keeps : Keeps kept files after) :
    Names after name above last := by
  obtain ⟨front, split, led⟩ := names.leads
  refine ⟨names.plain, keeps.directory above names.isDirectory, front, split, ?_⟩
  unfold origin at led ⊢
  rw [keeps.workingDirectory]
  exact keeps.follow led

theorem Names.follow (names : Names files name above last) : ∃ pieces,
    piecesOf name = .ok pieces ∧
      files.follow (files.origin pieces) pieces = .ok (above ++ [last]) := by
  obtain ⟨front, split, led⟩ := names.leads
  refine ⟨_, split, (follow_last ⟨names.plain.busy, names.plain.down⟩ front).mpr ?_⟩
  exact ⟨above, led, names.isDirectory, names.plain.short, rfl⟩

theorem Names.find (names : Names files name above last)
    (there : files.isThere (above ++ [last]) = true) : files.find name = .ok (above ++ [last]) := by
  obtain ⟨pieces, split, led⟩ := names.follow
  exact find_eq_ok_iff.mpr ⟨pieces, split, led, there⟩

theorem Names.find_of_missing (names : Names files name above last)
    (missing : files.isThere (above ++ [last]) = false) : files.find name = .error .notFound := by
  obtain ⟨pieces, split, led⟩ := names.follow
  simp only [FileSystem.find, split, led, bind, Except.bind, missing, Bool.false_eq_true, if_false]

theorem Names.newPath (names : Names files name above last) (taken : IoError) : ∃ pieces,
    piecesOf name = .ok pieces ∧ files.newPath taken pieces = .ok (above ++ [last]) ∧
      pieces.getLast? = some last := by
  obtain ⟨front, split, led⟩ := names.leads
  obtain ⟨some, dot⟩ := Bool.or_eq_false_iff.mp names.plain.busy
  refine ⟨_, split, ?_, List.getLast?_concat⟩
  have ends : (front ++ [last]).reverse.dropWhile (· = "") = last :: front.reverse := by
    rw [List.reverse_append, List.reverse_singleton, List.singleton_append, List.dropWhile_cons, some]
    rfl
  unfold FileSystem.newPath
  rw [ends]
  simp only [List.reverse_reverse, led, bind, Except.bind, names.isDirectory, Bool.not_true,
    Bool.false_eq_true, if_false, dot, decide_eq_false names.plain.down, Bool.or_self,
    Nat.not_lt.mpr names.plain.short, pure, Except.pure]

theorem Names.newFile (names : Names files name above last) :
    files.newFile name = .ok (above ++ [last]) := by
  obtain ⟨pieces, split, placed, ends⟩ := names.newPath .isADirectory
  have named : ¬pieces.getLast? = some "" := by
    rw [ends]
    exact fun empty => names.plain.ne_empty (Option.some.inj empty)
  simp only [FileSystem.newFile, split, bind, Except.bind, placed, if_neg named, pure, Except.pure]

/-! ## Names in a home -/

theorem isThere_of_isDirectory (directory : files.isDirectory path = true) :
    files.isThere path = true := by
  unfold isThere
  cases stands : files.node? path with
  | none =>
      rw [isDirectory, stands] at directory
      cases directory
  | some node => rfl

/-- The name leads to a directory. -/
structure Home (files : FileSystem) (root : String) (home : Path) : Prop where
  find : files.find root = .ok home
  isDirectory : files.isDirectory home = true

theorem Home.keeps (holds : Home files root home) (keeps : Keeps kept files after) :
    Home after root home := by
  obtain ⟨pieces, split, led, -⟩ := find_eq_ok_iff.mp holds.find
  have directory := keeps.directory home holds.isDirectory
  refine ⟨find_eq_ok_iff.mpr ⟨pieces, split, ?_, isThere_of_isDirectory directory⟩, directory⟩
  unfold origin at led ⊢
  rw [keeps.workingDirectory]
  exact keeps.follow led

/-- The front pieces of the names in a home lead to it. -/
theorem Home.follow (holds : Home files root home) (rest : List String) :
    files.follow (files.origin (frontOf root ++ rest)) (frontOf root) = .ok home := by
  obtain ⟨pieces, split, led, -⟩ := find_eq_ok_iff.mp holds.find
  have named := (noNull_of_ok split).2
  have whole := pieces_of_ok split
  obtain ⟨first, others, begins⟩ : ∃ first others, frontOf root = first :: others := by
    rcases opening_cases root with ⟨empty, -⟩ | ⟨above, opens, -⟩
    · exact absurd empty named
    · rw [frontOf_eq opens]
      exact List.exists_cons_of_ne_nil fun nothing =>
        splitAtSlashes_ne_nil _ (List.map_eq_nil_iff.mp nothing)
  have origin (rest : List String) : files.origin (frontOf root ++ rest) =
      files.origin (frontOf root) := by
    unfold FileSystem.origin
    rw [begins]
    rfl
  rw [origin]
  rcases pieces_directory named with same | slash
  · rwa [whole, same] at led
  · rw [whole, slash, origin, follow_append] at led
    cases ended : files.follow (files.origin (frontOf root)) (frontOf root) with
    | error error =>
        rw [ended] at led
        cases led
    | ok path =>
        simp only [ended, Except.bind, follow_cons, follow_nil] at led
        split at led
        · cases led
        · exact led

theorem Home.piecesOf_join (holds : Home files root home) (relative : isAbsolute name = false)
    (noNull : '\x00' ∉ name.toList) (named : name ≠ "")
    (fits : root.utf8ByteSize + 1 + name.utf8ByteSize < nameLimit) :
    piecesOf (join root name) = .ok (frontOf root ++ FileName.pieces name) := by
  obtain ⟨pieces, split, -⟩ := find_eq_ok_iff.mp holds.find
  have clean : '\x00' ∉ (opening root).toList := by
    have own := (noNull_of_ok split).1
    unfold opening
    split
    · exact own
    · rw [String.toList_append]
      intro member
      rcases List.mem_append.mp member with inside | slash
      · exact own inside
      · exact absurd slash (by decide)
  have small : (opening root).utf8ByteSize ≤ root.utf8ByteSize + 1 := by
    unfold opening
    split
    · exact Nat.le_succ _
    · rw [String.utf8ByteSize_append]
      exact Nat.le_refl _
  rw [← pieces_join relative]
  refine piecesOf_eq ?_ ?_ ?_
  · rw [join_eq relative, String.toList_append]
    exact fun member => (List.mem_append.mp member).elim clean noNull
  · rw [join_eq relative]
    exact fun empty => named (String.append_eq_empty_iff.mp empty).2
  · rw [join_eq relative, String.utf8ByteSize_append]
    omega

/-- A plain name names a thing in the home. -/
theorem Home.names (holds : Home files root home) (plain : Plain last)
    (fits : root.utf8ByteSize + 1 + last.utf8ByteSize < nameLimit) :
    Names files (join root last) home last := by
  refine ⟨plain, holds.isDirectory, frontOf root, ?_, holds.follow [last]⟩
  rw [holds.piecesOf_join plain.relative plain.noNull plain.ne_empty fits, plain.pieces]

/-- Two plain names name a thing in a directory of the home. -/
theorem Home.names_below (holds : Home files root home) (shelf_plain : Plain shelf)
    (plain : Plain last) (directory : files.isDirectory (home ++ [shelf]) = true)
    (fits : root.utf8ByteSize + 1 + (shelf ++ "/" ++ last).utf8ByteSize < nameLimit) :
    Names files (join root (shelf ++ "/" ++ last)) (home ++ [shelf]) last := by
  have noNull : '\x00' ∉ (shelf ++ "/" ++ last).toList := by
    rw [String.toList_append, String.toList_append]
    intro member
    rcases List.mem_append.mp member with front | inside
    · rcases List.mem_append.mp front with inside | slash
      · exact shelf_plain.noNull inside
      · exact absurd slash (by decide)
    · exact plain.noNull inside
  have named : shelf ++ "/" ++ last ≠ "" :=
    fun empty => plain.ne_empty (String.append_eq_empty_iff.mp empty).2
  refine ⟨plain, directory, frontOf root ++ [shelf], ?_, ?_⟩
  · rw [holds.piecesOf_join (shelf_plain.relative_append last) noNull named fits,
      pieces_append_slash, shelf_plain.pieces, plain.pieces, List.append_assoc]
  · rw [List.append_assoc, follow_append, holds.follow]
    refine (follow_last ⟨shelf_plain.busy, shelf_plain.down⟩ []).mpr ?_
    exact ⟨home, follow_nil files home, holds.isDirectory, shelf_plain.short, rfl⟩

/-! ## Names in a directory that may have no name -/

/-- Things that are looked up in the directory stand below the path. Without a name, the directory is the one
that is worked in. -/
inductive Seat (files : FileSystem) (directory : String) (above : Path) : Prop
  | here (nameless : directory = "") (own : above = files.workingDirectory)
      (isDirectory : files.isDirectory above = true)
  | named (home : Home files directory above)

theorem Seat.isDirectory (seat : Seat files directory above) : files.isDirectory above = true := by
  rcases seat with ⟨-, -, isDirectory⟩ | ⟨home⟩
  · exact isDirectory
  · exact home.isDirectory

theorem Seat.keeps (seat : Seat files directory above) (keeps : Keeps kept files after) :
    Seat after directory above := by
  rcases seat with ⟨nameless, own, isDirectory⟩ | ⟨home⟩
  · exact .here nameless (own.trans keeps.workingDirectory.symm) (keeps.directory above isDirectory)
  · exact .named (home.keeps keeps)

/-- The pieces before the name of a thing in the directory lead there. -/
theorem Seat.follow (seat : Seat files directory above) (plain : Plain last) :
    files.follow (files.origin (frontOf directory ++ [last])) (frontOf directory) = .ok above := by
  rcases seat with ⟨rfl, rfl, -⟩ | ⟨home⟩
  · have relative : files.origin [last] = files.workingDirectory :=
      if_neg fun empty => plain.ne_empty (Option.some.inj empty)
    exact (follow_nil files _).trans (congrArg Except.ok relative)
  · exact home.follow [last]

theorem Plain.pieces_join (plain : Plain last) (directory : String) :
    FileName.pieces (join directory last) = frontOf directory ++ [last] := by
  rw [FileName.pieces_join plain.relative, plain.pieces]

theorem Seat.names (seat : Seat files directory above) (plain : Plain last) {pieces : List String}
    (split : piecesOf (join directory last) = .ok pieces) : Names files (join directory last) above last := by
  refine ⟨plain, seat.isDirectory, frontOf directory, ?_, seat.follow plain⟩
  rw [← plain.pieces_join, ← pieces_of_ok split]
  exact split

/-- A file that can be written in a directory stands right below it. -/
theorem names_of_newFile (ready : directory = "" ∨ ∃ home, Home files directory home)
    (noSlash : '/' ∉ last.toList) (busy : isIdle last = false) (down : last ≠ "..")
    (placed : files.newFile (join directory last) = .ok path) :
    ∃ above, Seat files directory above ∧ Names files (join directory last) above last ∧
      path = above ++ [last] := by
  have relative := isAbsolute_eq_false noSlash
  have pieces : FileName.pieces (join directory last) = frontOf directory ++ [last] := by
    rw [FileName.pieces_join relative, pieces_of_plain noSlash]
  obtain ⟨_, split, led⟩ := newFile_follow ⟨_, pieces, busy, down⟩ placed
  have same := (pieces_of_ok split).trans pieces
  subst same
  obtain ⟨above, began, isDirectory, short, ends⟩ := (follow_last ⟨busy, down⟩ _).mp led
  have noNull : '\x00' ∉ last.toList := by
    intro member
    apply (noNull_of_ok split).1
    rw [join_eq relative, String.toList_append]
    exact List.mem_append_right _ member
  have plain : Plain last := ⟨noSlash, noNull, busy, down, short⟩
  refine ⟨above, ?_, ⟨plain, isDirectory, _, split, began⟩, ends⟩
  rcases ready with nameless | ⟨home, holds⟩
  · subst nameless
    have origin : files.origin [last] = files.workingDirectory :=
      if_neg fun empty => plain.ne_empty (Option.some.inj empty)
    have here : files.follow (files.origin [last]) [] = .ok above := began
    rw [follow_nil, origin] at here
    exact .here rfl (Except.ok.inj here).symm isDirectory
  · cases (holds.follow [last]).symm.trans began
    exact .named holds

/-- A directory in the directory stands right below it. -/
theorem Seat.home_eq (seat : Seat files directory above) (plain : Plain last)
    (home : Home files (join directory last) path) : path = above ++ [last] := by
  obtain ⟨pieces, split, led, -⟩ := find_eq_ok_iff.mp home.find
  rw [pieces_of_ok split, plain.pieces_join] at led
  obtain ⟨_, began, -, -, rfl⟩ := (follow_last ⟨plain.busy, plain.down⟩ _).mp led
  cases began.symm.trans (seat.follow plain)
  rfl

end FileSystem

end TierVault
