import TierVault.FileSystem.Calls

/-!
What calls on files leave alone.

A directory that is made adds to what is there. A file that is written or removed changes one path, and no
directory. So a name that leads to another path goes on to name what it named.
-/

namespace TierVault.FileSystem

variable {Failure Result Next : Type} {before middle after files : FileSystem}
  {kept : Path → Prop} {path start : Path} {pieces : List String} {name : String} {node : Node}
  {content : Bytes}

/-- The medium refuses nothing. -/
def Quiet (files : FileSystem) : Prop := ∀ number, files.refuses number = none

/-- The bytes of the file of a name. -/
def content? (files : FileSystem) (name : String) : Option Bytes :=
  (files.named? name).bind Node.content?

/-- What stands at the kept paths stays, and so do all directories. -/
structure Keeps (kept : Path → Prop) (before after : FileSystem) : Prop where
  workingDirectory : after.workingDirectory = before.workingDirectory
  refuses : after.refuses = before.refuses
  directory : ∀ path, before.isDirectory path = true → after.isDirectory path = true
  node : ∀ path node, kept path → before.node? path = some node → after.node? path = some node

/-- Everything stays. -/
abbrev Extends : FileSystem → FileSystem → Prop := Keeps fun _ => True

theorem find_eq_ok_iff : files.find name = .ok path ↔ ∃ pieces, piecesOf name = .ok pieces ∧
    files.follow (files.origin pieces) pieces = .ok path ∧ files.isThere path = true := by
  unfold find
  cases split : piecesOf name with
  | error error => simp [Bind.bind, Except.bind]
  | ok pieces =>
      cases led : files.follow (files.origin pieces) pieces with
      | error error => simp [led, Bind.bind, Except.bind]
      | ok target =>
          cases there : files.isThere target with
          | true =>
              have same : target = path ∧ files.isThere path = true ↔ target = path :=
                ⟨fun both => both.1, fun same => ⟨same, same ▸ there⟩⟩
              simp [led, there, Bind.bind, Except.bind, pure, Except.pure, same]
          | false =>
              have never (same : target = path) : files.isThere path = false := same ▸ there
              simpa [led, there, Bind.bind, Except.bind] using never

namespace Keeps

theorem refl (kept : Path → Prop) (files : FileSystem) : Keeps kept files files :=
  ⟨rfl, rfl, fun _ there => there, fun _ _ _ there => there⟩

theorem trans (first : Keeps kept before middle) (second : Keeps kept middle after) :
    Keeps kept before after where
  workingDirectory := second.workingDirectory.trans first.workingDirectory
  refuses := second.refuses.trans first.refuses
  directory path there := second.directory path (first.directory path there)
  node path node keep there := second.node path node keep (first.node path node keep there)

theorem quiet (keeps : Keeps kept before after) (quiet : before.Quiet) : after.Quiet := by
  intro number
  rw [keeps.refuses]
  exact quiet number

/-- What is kept of more paths is kept of fewer. -/
theorem mono {fewer : Path → Prop} (keeps : Keeps kept before after)
    (among : ∀ path, fewer path → kept path) : Keeps fewer before after :=
  ⟨keeps.workingDirectory, keeps.refuses, keeps.directory,
    fun path node keep => keeps.node path node (among path keep)⟩

theorem weaken (keeps : Extends before after) : Keeps kept before after :=
  keeps.mono fun _ _ => trivial

/-- What pieces lead to, they lead to with more directories as well. -/
theorem follow (keeps : Keeps kept before after) (led : before.follow start pieces = .ok path) :
    after.follow start pieces = .ok path := by
  induction pieces generalizing start with
  | nil => simpa using led
  | cons piece pieces induction =>
      rw [follow_cons] at led ⊢
      cases directory : before.isDirectory start with
      | false =>
          rw [directory] at led
          cases led
      | true =>
          rw [directory] at led
          rw [keeps.directory start directory]
          simp only [Bool.not_true, Bool.false_eq_true, if_false] at led ⊢
          split
          · rename_i idle
            rw [if_pos idle] at led
            exact induction led
          · rename_i busy
            rw [if_neg busy] at led
            split
            · rename_i up
              rw [if_pos up] at led
              exact induction led
            · rename_i down
              rw [if_neg down] at led
              split
              · rename_i long
                rw [if_pos long] at led
                cases led
              · rename_i short
                rw [if_neg short] at led
                exact induction led

theorem find (keeps : Keeps kept before after) (found : before.find name = .ok path)
    (keep : kept path) : after.find name = .ok path ∧ after.node? path = before.node? path := by
  rcases find_eq_ok_iff.mp found with ⟨pieces, split, led, there⟩
  rcases Option.isSome_iff_exists.mp there with ⟨node, stands⟩
  have stays := keeps.node path node keep stands
  have origin : after.origin pieces = before.origin pieces := by
    unfold FileSystem.origin
    rw [keeps.workingDirectory]
  refine ⟨find_eq_ok_iff.mpr ⟨pieces, split, ?_, ?_⟩, stays.trans stands.symm⟩
  · rw [origin]
    exact keeps.follow led
  · rw [isThere, stays]
    rfl

/-- A name keeps its file, if it leads to a path that is kept. -/
theorem content? (keeps : Keeps kept before after)
    (keep : ∀ path, before.find name = .ok path → kept path)
    (holds : before.content? name = some content) : after.content? name = some content := by
  unfold FileSystem.content? named? at holds ⊢
  cases found : before.find name with
  | error error =>
      rw [found] at holds
      cases holds
  | ok path =>
      rcases keeps.find found (keep path found) with ⟨still, same⟩
      rw [found] at holds
      rw [still]
      simp only [Except.toOption, Option.bind_some, same] at holds ⊢
      exact holds

end Keeps

/-! ## Changes at one path -/

theorem keeps_place (files : FileSystem) (node : Node) (plain : files.isDirectory path = false) :
    Keeps (· ≠ path) files (files.place path node) where
  workingDirectory := rfl
  refuses := rfl
  directory other there := by
    have different : other ≠ path := by
      intro same
      rw [same, plain] at there
      cases there
    rw [isDirectory, node?_place_other files node different]
    exact there
  node other held different there := by
    rw [node?_place_other files node different]
    exact there

theorem keeps_discard (files : FileSystem) (plain : files.isDirectory path = false) :
    Keeps (· ≠ path) files (files.discard path) where
  workingDirectory := rfl
  refuses := rfl
  directory other there := by
    have different : other ≠ path := by
      intro same
      rw [same, plain] at there
      cases there
    rw [isDirectory, node?_discard_other files different]
    exact there
  node other held different there := by
    rw [node?_discard_other files different]
    exact there

/-- A new directory takes nothing away. -/
theorem extends_place (files : FileSystem) (free : files.isThere path = false) :
    Extends files (files.place path .directory) := by
  have missing : files.node? path = none := by simpa [isThere] using free
  have plain : files.isDirectory path = false := by rw [isDirectory, missing]; rfl
  have keeps := keeps_place files .directory plain
  refine ⟨rfl, rfl, keeps.directory, fun other held _ there => keeps.node other held ?_ there⟩
  rintro rfl
  cases missing.symm.trans there

/-- After one more call that changed nothing. -/
def counted (files : FileSystem) : FileSystem := { files with calls := files.calls + 1 }

theorem extends_counted (files : FileSystem) : Extends files files.counted :=
  ⟨rfl, rfl, fun _ there => there, fun _ _ _ there => there⟩

/-- Only calls were counted. -/
def Recounts (files after : FileSystem) : Prop := ∃ calls, after = { files with calls }

theorem Recounts.refl (files : FileSystem) : Recounts files files := ⟨files.calls, rfl⟩

theorem recounts_counted (files : FileSystem) : Recounts files files.counted := ⟨_, rfl⟩

theorem Recounts.trans (first : Recounts before middle) (second : Recounts middle after) :
    Recounts before after := by
  obtain ⟨_, rfl⟩ := first
  obtain ⟨calls, rfl⟩ := second
  exact ⟨calls, rfl⟩

theorem Recounts.node? (recounts : Recounts before after) (path : Path) :
    after.node? path = before.node? path := by
  obtain ⟨calls, rfl⟩ := recounts
  rfl

theorem Recounts.extends (recounts : Recounts before after) : Extends before after := by
  obtain ⟨calls, rfl⟩ := recounts
  exact ⟨rfl, rfl, fun _ there => there, fun _ _ _ there => there⟩

theorem find_of_counted (found : files.counted.find name = .ok path) :
    files.find name = .ok path := by
  have back : Extends files.counted files :=
    ⟨rfl, rfl, fun _ there => there, fun _ _ _ there => there⟩
  exact (back.find found trivial).1

/-- What ended well went well in both of its parts. -/
theorem parts_of_bind {action : EStateM Failure FileSystem Result}
    {next : Result → EStateM Failure FileSystem Next} {answer : Next}
    (ended : (action >>= next) files = .ok answer after) :
    ∃ result middle, action files = .ok result middle ∧ next result middle = .ok answer after := by
  change EStateM.bind action next files = _ at ended
  unfold EStateM.bind at ended
  cases called : action files with
  | error error final =>
      rw [called] at ended
      cases ended
  | ok result final =>
      rw [called] at ended
      exact ⟨result, final, rfl, ended⟩

/-! ## Whichever way an action ends -/

/-- The files that an action left, whichever way it ended. -/
def leftBy : EStateM.Result Failure FileSystem Result → FileSystem
  | .ok _ files => files
  | .error _ files => files

/-- Whichever way the action ends, files that are as they should be stay so. -/
def Maintains (proper : FileSystem → Prop) (action : EStateM Failure FileSystem Result) : Prop :=
  ∀ files, proper files → proper (leftBy (action files))

section

variable {proper : FileSystem → Prop}

theorem maintains_pure (result : Result) :
    Maintains proper (pure result : EStateM Failure FileSystem Result) := fun _ isProper => isProper

theorem maintains_throw (failure : Failure) :
    Maintains proper (throw failure : EStateM Failure FileSystem Result) := fun _ isProper => isProper

theorem get_eq (files : FileSystem) :
    (get : EStateM Failure FileSystem FileSystem) files = .ok files files := rfl

theorem maintains_get : Maintains proper (get : EStateM Failure FileSystem FileSystem) :=
  fun _ isProper => isProper

theorem Maintains.bind {action : EStateM Failure FileSystem Result}
    {next : Result → EStateM Failure FileSystem Next} (first : Maintains proper action)
    (further : ∀ result, Maintains proper (next result)) : Maintains proper (action >>= next) := by
  intro files isProper
  have here := first files isProper
  change proper (leftBy (EStateM.bind action next files))
  unfold EStateM.bind
  cases called : action files with
  | error failure final =>
      rw [called] at here
      exact here
  | ok result final =>
      rw [called] at here
      exact further result final here

theorem Maintains.tryCatch {action : EStateM Failure FileSystem Result}
    {handle : Failure → EStateM Failure FileSystem Result} (first : Maintains proper action)
    (further : ∀ failure, Maintains proper (handle failure)) :
    Maintains proper (tryCatch action handle) := by
  intro files isProper
  have here := first files isProper
  change proper (leftBy (EStateM.tryCatch action handle files))
  unfold EStateM.tryCatch
  cases called : action files with
  | ok result final =>
      rw [called] at here
      exact here
  | error failure final =>
      rw [called] at here
      exact further failure final here

theorem Maintains.ite {condition : Prop} [Decidable condition]
    {action other : EStateM Failure FileSystem Result} (yes : Maintains proper action)
    (no : Maintains proper other) : Maintains proper (if condition then action else other) := by
  split
  · exact yes
  · exact no

theorem maintains_ofExcept (computation : Except IoError Result) :
    Maintains proper (ofExcept computation) := by
  cases computation with
  | ok result => exact maintains_pure result
  | error error => exact maintains_throw error

section

variable (counted : ∀ files, proper files → proper files.counted)

include counted

theorem maintains_call : Maintains proper call := by
  intro files isProper
  unfold call
  split
  · exact counted files isProper
  · exact counted files isProper

/-- A directory that is made is new. -/
theorem maintains_makeDirectoryAt {pieces : List String}
    (placed : ∀ files path, proper files → files.newPath .alreadyExists pieces = .ok path →
      files.isThere path = false → proper (files.place path .directory)) :
    Maintains proper (makeDirectoryAt pieces) := by
  refine (maintains_call counted).bind fun _ files isProper => ?_
  cases wanted : files.newPath .alreadyExists pieces with
  | error error =>
      simp only [bind, EStateM.bind, get_eq, wanted]
      exact isProper
  | ok path =>
      cases there : files.isThere path with
      | true =>
          simp only [bind, EStateM.bind, get_eq, wanted,
            ofExcept, pure, EStateM.pure, there, if_true]
          exact isProper
      | false =>
          simp only [bind, EStateM.bind, get_eq, wanted,
            ofExcept, pure, EStateM.pure, there, Bool.false_eq_true, if_false]
          exact placed files path isProper wanted there

end

theorem Maintains.ensureDirectoryAt {pieces : List String}
    (made : Maintains proper (makeDirectoryAt pieces)) :
    Maintains proper (ensureDirectoryAt pieces) := by
  refine made.tryCatch fun error => maintains_get.bind fun files => ?_
  exact .ite (maintains_throw error) (maintains_pure ())

theorem maintains_ensureDirectories {names : List (List String)}
    (made : ∀ pieces ∈ names, Maintains proper (makeDirectoryAt pieces)) :
    Maintains proper (ensureDirectories names) := by
  induction names with
  | nil => exact maintains_pure ()
  | cons pieces above induction =>
      have first := (made pieces List.mem_cons_self).ensureDirectoryAt
      have further := induction fun other member => made other (List.mem_cons_of_mem _ member)
      have again : Maintains proper (do ensureDirectories above; FileSystem.ensureDirectoryAt pieces) :=
        further.bind fun _ => first
      refine first.tryCatch fun error => ?_
      exact Maintains.ite ((maintains_throw error).bind fun _ => again) again

/-- A directory is made with those above it, and nothing else is. -/
theorem maintains_makeDirectories
    (made : ∀ pieces, piecesOf name = .ok pieces →
      ∀ own ∈ pieces :: FileName.ancestors pieces.length pieces, Maintains proper (makeDirectoryAt own)) :
    Maintains proper (makeDirectories name) := by
  unfold makeDirectories
  refine .ite (maintains_pure ()) ?_
  cases split : piecesOf name with
  | error error =>
      intro files isProper
      exact isProper
  | ok pieces => exact maintains_ensureDirectories (made pieces split)

end

/-! ## Making directories -/

/-- Whichever way the action ends, everything that was there stays. -/
def Adds (action : EStateM Failure FileSystem Result) : Prop :=
  ∀ files, Extends files (leftBy (action files))

theorem Adds.maintains {action : EStateM Failure FileSystem Result} (adds : Adds action)
    (base : FileSystem) : Maintains (Extends base) action :=
  fun files extended => extended.trans (adds files)

theorem adds_of_maintains {action : EStateM Failure FileSystem Result}
    (maintains : ∀ base, Maintains (Extends base) action) : Adds action :=
  fun files => maintains files files (.refl _ files)

theorem adds_pure (result : Result) : Adds (pure result : EStateM Failure FileSystem Result) :=
  adds_of_maintains fun _ => maintains_pure result

theorem adds_throw (failure : Failure) :
    Adds (throw failure : EStateM Failure FileSystem Result) :=
  adds_of_maintains fun _ => maintains_throw failure

theorem Adds.bind {action : EStateM Failure FileSystem Result}
    {next : Result → EStateM Failure FileSystem Next} (first : Adds action)
    (further : ∀ result, Adds (next result)) : Adds (action >>= next) :=
  adds_of_maintains fun base => (first.maintains base).bind fun result => (further result).maintains base

theorem extends_counted_of (base : FileSystem) :
    ∀ files, Extends base files → Extends base files.counted :=
  fun files extended => extended.trans (extends_counted files)

theorem adds_makeDirectories (name : String) : Adds (makeDirectories name) := by
  refine adds_of_maintains fun base => maintains_makeDirectories fun _ _ _ _ => ?_
  apply maintains_makeDirectoryAt (extends_counted_of base)
  intro files path extended _ free
  exact extended.trans (extends_place files free)

theorem extends_of_makeDirectories (ended : makeDirectories name before = .ok () after) :
    Extends before after := by
  have adds := adds_makeDirectories name before
  rwa [ended] at adds

/-! ## Writing, reading and removing files -/

theorem pieces_of_ok (checked : piecesOf name = .ok pieces) : pieces = FileName.pieces name := by
  unfold piecesOf at checked
  split at checked
  · cases checked
  · split at checked
    · cases checked
    · split at checked
      · cases checked
      · exact (Except.ok.inj checked).symm

/-- A name whose last piece names a thing, and does not lead up or nowhere. -/
def NamesThing (name : String) (last : String) : Prop :=
  ∃ front, FileName.pieces name = front ++ [last] ∧ FileName.isIdle last = false ∧ last ≠ ".."

variable {last : String}

theorem follow_last (named : FileName.isIdle last = false ∧ last ≠ "..") (front : List String) :
    files.follow start (front ++ [last]) = .ok path ↔ ∃ directory,
      files.follow start front = .ok directory ∧ files.isDirectory directory = true ∧
        last.utf8ByteSize ≤ pieceLimit ∧ path = directory ++ [last] := by
  rw [follow_append]
  constructor
  · intro ended
    cases led : files.follow start front with
    | error error =>
        rw [led] at ended
        cases ended
    | ok directory =>
        simp only [led, Except.bind, follow_cons, follow_nil, named.1, named.2, if_false,
          Bool.false_eq_true] at ended
        split at ended
        · cases ended
        · split at ended
          · cases ended
          · rename_i there long
            cases ended
            exact ⟨directory, rfl, by simpa using there, Nat.le_of_not_lt long, rfl⟩
  · rintro ⟨directory, led, there, short, rfl⟩
    simp only [led, Except.bind, follow_cons, follow_nil, named.1, named.2, if_false, there,
      Bool.not_true, Bool.false_eq_true, Nat.not_lt.mpr short]

/-- A new file gets the path that its name will lead to. -/
theorem newFile_follow (names : NamesThing name last) (placed : files.newFile name = .ok path) :
    ∃ pieces, piecesOf name = .ok pieces ∧ files.follow (files.origin pieces) pieces = .ok path := by
  rcases names with ⟨front, split, busy, down⟩
  unfold newFile at placed
  cases checked : piecesOf name with
  | error error =>
      rw [checked] at placed
      cases placed
  | ok pieces =>
      cases (pieces_of_ok checked).trans split
      refine ⟨_, rfl, (follow_last ⟨busy, down⟩ front).mpr ?_⟩
      have some : last ≠ "" := by
        rintro rfl
        cases busy
      have plain : last ≠ "." := by
        rintro rfl
        cases busy
      simp only [checked, bind, Except.bind, newPath, List.reverse_append, List.reverse_singleton,
        List.singleton_append, List.dropWhile_cons, some, decide_false, Bool.false_eq_true, if_false,
        List.reverse_reverse, plain, down, Bool.or_self, pure, Except.pure,
        List.getLast?_concat, Option.some.injEq] at placed
      cases led : files.follow (files.origin (front ++ [last])) front with
      | error error =>
          rw [led] at placed
          cases placed
      | ok directory =>
          cases there : files.isDirectory directory with
          | false =>
              simp only [led, there] at placed
              cases placed
          | true =>
              by_cases long : pieceLimit < last.utf8ByteSize
              · simp only [led, there, long] at placed
                cases placed
              · simp only [led, there, long] at placed
                cases placed
                exact ⟨directory, rfl, there, Nat.le_of_not_lt long, rfl⟩

/-- Names of different things lead to different paths. -/
theorem find_last (names : NamesThing name last) (found : files.find name = .ok path) :
    ∃ directory, path = directory ++ [last] := by
  rcases names with ⟨front, split, named⟩
  rcases find_eq_ok_iff.mp found with ⟨pieces, checked, led, -⟩
  cases (pieces_of_ok checked).trans split
  rcases (follow_last named front).mp led with ⟨directory, -, -, -, same⟩
  exact ⟨directory, same⟩

theorem call_of_quiet (quiet : files.Quiet) : call files = .ok () files.counted := by
  unfold call
  rw [quiet]
  rfl

theorem call_cases (files : FileSystem) :
    (∃ error, call files = .error error files.counted) ∨ call files = .ok () files.counted := by
  unfold call
  cases refused : files.refuses files.calls with
  | none => exact .inr rfl
  | some error => exact .inl ⟨error, rfl⟩

/-- A write changes nothing, or puts the node at the path that the name leads to from now on. -/
theorem writeNode_cases (names : NamesThing name last) (node : Node) (files : FileSystem) :
    (∃ error after, writeNode name node files = .error error after ∧ Extends files after) ∨
      ∃ path after, writeNode name node files = .ok () after ∧ Keeps (· ≠ path) files after ∧
        (∃ directory, path = directory ++ [last]) ∧ after.find name = .ok path ∧
          after.node? path = some node := by
  have counted := extends_counted files
  unfold writeNode
  simp only [bind, EStateM.bind, get_eq]
  rcases call_cases files with ⟨error, refused⟩ | called
  · simp only [refused]
    exact .inl ⟨error, _, rfl, counted⟩
  cases placed : files.counted.newFile name with
  | error error =>
      simp only [called, placed, ofExcept]
      exact .inl ⟨error, _, rfl, counted⟩
  | ok path =>
      cases plain : files.counted.isDirectory path with
      | true =>
          simp only [called, placed, ofExcept, pure, EStateM.pure, plain]
          exact .inl ⟨.isADirectory, _, rfl, counted⟩
      | false =>
          simp only [called, placed, ofExcept, pure, EStateM.pure, plain]
          have keeps := keeps_place files.counted node plain
          rcases newFile_follow names placed with ⟨pieces, checked, led⟩
          have ends : ∃ directory, path = directory ++ [last] := by
            rcases names with ⟨front, split, named⟩
            cases (pieces_of_ok checked).trans split
            rcases (follow_last named front).mp led with ⟨directory, -, -, -, same⟩
            exact ⟨directory, same⟩
          have inside : path ≠ [] := by
            rcases ends with ⟨directory, rfl⟩
            simp
          have stands := node?_place_same files.counted node inside
          refine .inr ⟨path, _, rfl, counted.weaken.trans keeps, ends, ?_, stands⟩
          refine find_eq_ok_iff.mpr ⟨pieces, checked, keeps.follow led, ?_⟩
          rw [isThere, stands]
          rfl

theorem removeFile_cases (name : String) (files : FileSystem) :
    (∃ error after, removeFile name files = .error error after ∧ Extends files after) ∨
      ∃ path after, removeFile name files = .ok () after ∧ files.find name = .ok path ∧
        Keeps (· ≠ path) files after := by
  have counted := extends_counted files
  unfold removeFile
  simp only [bind, EStateM.bind, get_eq]
  rcases call_cases files with ⟨error, refused⟩ | called
  · simp only [refused]
    exact .inl ⟨error, _, rfl, counted⟩
  cases found : files.counted.find name with
  | error error =>
      simp only [called, found, ofExcept]
      exact .inl ⟨error, _, rfl, counted⟩
  | ok path =>
      cases plain : files.counted.isDirectory path with
      | true =>
          simp only [called, found, ofExcept, pure, EStateM.pure, plain]
          exact .inl ⟨.isADirectory, _, rfl, counted⟩
      | false =>
          simp only [called, found, ofExcept, pure, EStateM.pure, plain]
          exact .inr ⟨path, _, rfl, find_of_counted found, counted.weaken.trans (keeps_discard _ plain)⟩

theorem readFile_of_content? (quiet : files.Quiet) (holds : files.content? name = some content) :
    readFile name files = .ok content files.counted := by
  have later := (extends_counted files).content? (fun _ _ => trivial) holds
  unfold FileSystem.content? named? at later
  unfold readFile openNode
  simp only [bind, EStateM.bind, get_eq, call_of_quiet quiet]
  cases found : files.counted.find name with
  | error error =>
      rw [found] at later
      cases later
  | ok path =>
      simp only [found, Except.toOption, Option.bind_some] at later
      cases stands : files.counted.node? path with
      | none =>
          rw [stands] at later
          cases later
      | some node =>
          rw [stands, Option.bind_some] at later
          simp only [ofExcept, pure, EStateM.pure, stands, later]

/-- To read is to look and to be counted. -/
theorem maintains_openNode {proper : FileSystem → Prop}
    (counted : ∀ files, proper files → proper files.counted) (name : String) :
    Maintains proper (openNode name) := by
  refine (maintains_call counted).bind fun _ => maintains_get.bind fun files => ?_
  refine (maintains_ofExcept _).bind fun path => ?_
  split
  · exact maintains_pure _
  · exact maintains_throw _

theorem maintains_readFile {proper : FileSystem → Prop}
    (counted : ∀ files, proper files → proper files.counted) (name : String) :
    Maintains proper (readFile name) := by
  refine (maintains_openNode counted name).bind fun node => ?_
  split
  · exact maintains_pure _
  · exact maintains_throw _

theorem adds_readFile (name : String) : Adds (readFile name) :=
  adds_of_maintains fun base => maintains_readFile (extends_counted_of base) name

/-! ## Files of other names -/

/-- Files whose names end otherwise keep their bytes. -/
structure SparesOthers (last : String) (before after : FileSystem) : Prop where
  refuses : after.refuses = before.refuses
  content? : ∀ name other content, NamesThing name other → other ≠ last →
    before.content? name = some content → after.content? name = some content

theorem SparesOthers.trans (first : SparesOthers last before middle)
    (second : SparesOthers last middle after) : SparesOthers last before after where
  refuses := second.refuses.trans first.refuses
  content? name other content names different holds :=
    second.content? name other content names different
      (first.content? name other content names different holds)

theorem Keeps.sparesOthers {directory : Path}
    (keeps : Keeps (· ≠ directory ++ [last]) before after) : SparesOthers last before after := by
  refine ⟨keeps.refuses, fun name other content names different holds => ?_⟩
  refine keeps.content? (fun path found => ?_) holds
  rcases find_last names found with ⟨above, rfl⟩
  intro same
  exact different (List.append_inj_right' same rfl |> List.singleton_inj.mp)

theorem sparesOthers_of_extends (keeps : Extends before after) (last : String) :
    SparesOthers last before after where
  refuses := keeps.refuses
  content? _ _ _ _ _ holds := keeps.content? (fun _ _ => trivial) holds

theorem sparesOthers_writeFile (names : NamesThing name last) (content : Bytes)
    (files : FileSystem) :
    SparesOthers last files (leftBy (writeFile name content files)) ∧
      ∀ after, writeFile name content files = .ok () after → after.content? name = some content := by
  rcases writeNode_cases names (.file content) files with
    ⟨error, final, ended, keeps⟩ | ⟨path, final, ended, keeps, ⟨directory, rfl⟩, found, stands⟩
  · rw [writeFile, ended]
    refine ⟨sparesOthers_of_extends keeps last, fun after impossible => ?_⟩
    cases impossible
  · rw [writeFile, ended]
    refine ⟨keeps.sparesOthers, fun after same => ?_⟩
    cases same
    rw [FileSystem.content?, named?, found]
    simp only [Except.toOption, Option.bind_some, stands, Node.content?]

theorem sparesOthers_removeFile (names : NamesThing name last) (files : FileSystem) :
    SparesOthers last files (leftBy (removeFile name files)) := by
  rcases removeFile_cases name files with
    ⟨error, final, ended, keeps⟩ | ⟨path, final, ended, found, keeps⟩
  · rw [ended]
    exact sparesOthers_of_extends keeps last
  · rw [ended]
    rcases find_last names found with ⟨directory, rfl⟩
    exact keeps.sparesOthers

end TierVault.FileSystem
