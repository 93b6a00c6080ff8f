import TierVault.Proofs.FileSystem.Calls
import TierVault.Proofs.PathTree

/-!
Trees in which everything stands in a directory.

A thing has a name that can be asked for, and is the only one of that name in its directory. What comes into such
a tree comes into a directory, and what goes had nothing in it, or goes with all that is in it.
-/

namespace TierVault.FileSystem

open FileName

variable {name last : String} {pieces own : List String} {files after : FileSystem}
  {path other above home : Path} {node : Node}

theorem isDirectory_of_none (missing : files.node? path = none) : files.isDirectory path = false := by
  rw [isDirectory, missing]
  rfl

theorem isDirectory_of_free (free : files.isThere path = false) : files.isDirectory path = false := by
  rw [isThere, Option.isSome_eq_false_iff, Option.isNone_iff_eq_none] at free
  exact isDirectory_of_none free

/-! ## Trees without a part of them -/

theorem node?_cleared_apart (files : FileSystem) (apart : ¬path <+: other) :
    (files.cleared path).node? other = files.node? other := by
  unfold node? cleared
  split
  · rfl
  · exact PathTree.find?_cut_apart apart files.nodes

theorem node?_cleared_below (files : FileSystem) (inside : path ≠ []) (below : path <+: other) :
    (files.cleared path).node? other = none := by
  obtain ⟨inner, rfl⟩ := below
  have some : path ++ inner ≠ [] := fun empty => inside (List.append_eq_nil_iff.mp empty).1
  rw [node?, if_neg some]
  exact PathTree.find?_cut_below path inner files.nodes

/-- What is there was there, and is not of the part that went. -/
theorem isThere_of_cleared (inside : path ≠ []) (there : (files.cleared path).isThere other = true) :
    ¬path <+: other ∧ files.isThere other = true := by
  have apart : ¬path <+: other := by
    intro below
    rw [isThere, node?_cleared_below files inside below] at there
    cases there
  rw [isThere, node?_cleared_apart files apart] at there
  exact ⟨apart, there⟩

/-! ## Orderly trees -/

structure Orderly (files : FileSystem) : Prop where
  stands : ∀ path name, files.isThere (path ++ [name]) = true → files.isDirectory path = true
  plain : ∀ path name, files.isThere (path ++ [name]) = true → Plain name
  separate : ∀ path, (files.nodes.walk path).Separate

theorem orderly_of_empty (empty : files.nodes = .empty) : files.Orderly := by
  have missing (path : Path) (name : String) : files.isThere (path ++ [name]) = false := by
    rw [isThere, node?, if_neg (by simp), empty, PathTree.find?, PathTree.walk_empty]
    rfl
  refine ⟨fun path name there => ?_, fun path name there => ?_, fun path => ?_⟩
  · cases (missing path name).symm.trans there
  · cases (missing path name).symm.trans there
  · rw [empty]
    exact PathTree.separate_walk_empty path

theorem node?_append (files : FileSystem) (home : Path) (name : String) (rest : List String) :
    files.node? (home ++ name :: rest) = (files.nodes.walk home).find? (name :: rest) := by
  have inside : home ++ name :: rest ≠ [] := by simp
  rw [node?, if_neg inside, PathTree.find?, PathTree.walk_append, PathTree.find?]

/-- Things that are listed in a directory are there. -/
theorem isThere_of_mem_children (separate : (files.nodes.walk home).Separate)
    (listed : name ∈ files.children home) : files.isThere (home ++ [name]) = true := by
  rw [isThere, node?_append]
  exact separate.find?_of_mem_names listed

theorem mem_children_of_isThere (there : files.isThere (home ++ [name]) = true) :
    name ∈ files.children home := by
  rw [isThere, node?_append] at there
  exact PathTree.mem_names_of_find? there

/-- What is listed below a directory is what stands there. -/
theorem mem_below (separate : ∀ path, ((files.nodes.walk home).walk path).Separate) :
    (path, node) ∈ files.below home ↔
      ∃ name rest, path = home ++ name :: rest ∧ files.node? path = some node := by
  rw [below, PathTree.mem_entriesBelow separate]
  constructor
  · rintro ⟨name, rest, rfl, found⟩
    exact ⟨name, rest, rfl, (node?_append ..).trans found⟩
  · rintro ⟨name, rest, rfl, stands⟩
    exact ⟨name, rest, rfl, (node?_append ..).symm.trans stands⟩

theorem nodup_below (separate : ∀ path, ((files.nodes.walk home).walk path).Separate) :
    ((files.below home).map Prod.fst).Nodup :=
  PathTree.nodup_entriesBelow separate

namespace Orderly

theorem recounts (orderly : files.Orderly) (recounts : Recounts files after) : after.Orderly := by
  obtain ⟨calls, rfl⟩ := recounts
  exact ⟨orderly.stands, orderly.plain, orderly.separate⟩

theorem place (orderly : files.Orderly) (directory : files.isDirectory above = true) (plain : Plain last)
    (free : files.isDirectory (above ++ [last]) = false) (node : Node) :
    (files.place (above ++ [last]) node).Orderly := by
  have before {path : Path} {name : String}
      (there : (files.place (above ++ [last]) node).isThere (path ++ [name]) = true)
      (different : path ++ [name] ≠ above ++ [last]) : files.isThere (path ++ [name]) = true := by
    rwa [isThere, node?_place_other files node different] at there
  refine ⟨fun path name there => ?_, fun path name there => ?_, fun path => ?_⟩
  · apply (keeps_place files node free).directory
    by_cases same : path ++ [name] = above ++ [last]
    · rw [List.append_inj_left' same rfl]
      exact directory
    · exact orderly.stands path name (before there same)
  · by_cases same : path ++ [name] = above ++ [last]
    · cases List.append_inj_right' same rfl
      exact plain
    · exact orderly.plain path name (before there same)
  · exact PathTree.separate_walk_change _ path orderly.separate fun tree => PathTree.separate_walk_setItem _

theorem discard (orderly : files.Orderly) (plain : files.isDirectory path = false) :
    (files.discard path).Orderly := by
  have before {above : Path} {name : String}
      (there : (files.discard path).isThere (above ++ [name]) = true) : files.isThere (above ++ [name]) = true := by
    by_cases same : above ++ [name] = path
    · rw [isThere, ← same, node?_discard_same files (by simp)] at there
      cases there
    · rwa [isThere, node?_discard_other files same] at there
  refine ⟨fun above name there => ?_, fun above name there => ?_, fun other => ?_⟩
  · exact (keeps_discard files plain).directory above (orderly.stands above name (before there))
  · exact orderly.plain above name (before there)
  · exact PathTree.separate_walk_change _ other orderly.separate fun tree => PathTree.separate_walk_setItem _

theorem cleared (orderly : files.Orderly) (inside : path ≠ []) : (files.cleared path).Orderly := by
  refine ⟨fun above name there => ?_, fun above name there => ?_, fun other => ?_⟩
  · obtain ⟨apart, before⟩ := isThere_of_cleared inside there
    have aside : ¬path <+: above := fun below => apart (below.trans (List.prefix_append above [name]))
    rw [isDirectory, node?_cleared_apart files aside]
    exact orderly.stands above name before
  · exact orderly.plain above name (isThere_of_cleared inside there).2
  · exact PathTree.separate_walk_change _ other orderly.separate fun tree _ => PathTree.separate_walk_empty

end Orderly

/-! ## Making directories -/

theorem mem_of_mem_splitAtSlashes {letters piece : List Char} {letter : Char}
    (member : piece ∈ splitAtSlashes letters) (inside : letter ∈ piece) : letter ∈ letters ∧ letter ≠ '/' := by
  induction letters generalizing piece with
  | nil =>
      cases List.mem_singleton.mp member
      cases inside
  | cons first rest induction =>
      obtain ⟨head, others, split⟩ := List.exists_cons_of_ne_nil (splitAtSlashes_ne_nil rest)
      have later {piece : List Char} (member : piece ∈ head :: others) (inside : letter ∈ piece) :
          letter ∈ first :: rest ∧ letter ≠ '/' :=
        (induction (split ▸ member) inside).imp_left (List.mem_cons_of_mem first)
      simp only [splitAtSlashes, split] at member
      by_cases slash : first = '/'
      · rw [if_pos slash] at member
        rcases List.mem_cons.mp member with rfl | further
        · cases inside
        · exact later further inside
      · rw [if_neg slash] at member
        rcases List.mem_cons.mp member with rfl | further
        · rcases List.mem_cons.mp inside with rfl | within
          · exact ⟨List.mem_cons_self, slash⟩
          · exact later List.mem_cons_self within
        · exact later (List.mem_cons_of_mem _ further) inside

theorem clean_of_piecesOf (split : piecesOf name = .ok pieces) :
    ∀ piece ∈ pieces, '/' ∉ piece.toList ∧ '\x00' ∉ piece.toList := by
  intro piece member
  rw [pieces_of_ok split] at member
  obtain ⟨letters, inside, rfl⟩ := List.mem_map.mp member
  rw [String.toList_ofList]
  refine ⟨fun slash => (mem_of_mem_splitAtSlashes inside slash).2 rfl, fun null => ?_⟩
  exact (noNull_of_ok split).1 (mem_of_mem_splitAtSlashes inside null).1

/-- A new thing gets a plain name in a directory. -/
theorem plain_of_newPath {taken : IoError} (clean : ∀ piece ∈ pieces, '/' ∉ piece.toList ∧ '\x00' ∉ piece.toList)
    (placed : files.newPath taken pieces = .ok path) :
    ∃ above last, path = above ++ [last] ∧ files.isDirectory above = true ∧ Plain last := by
  unfold newPath at placed
  cases ends : pieces.reverse.dropWhile (· = "") with
  | nil =>
      rw [ends] at placed
      cases placed
  | cons last before =>
      obtain ⟨some, blanks, whole, -⟩ := pieces_of_dropWhile ends
      rw [ends] at placed
      cases began : files.follow (files.origin pieces) before.reverse with
      | error error =>
          simp only [began, bind, Except.bind] at placed
          cases placed
      | ok above =>
          simp only [began, bind, Except.bind] at placed
          split at placed
          · cases placed
          · rename_i proper
            split at placed
            · cases placed
            · rename_i named
              split at placed
              · cases placed
              · rename_i short
                cases placed
                obtain ⟨dot, up⟩ : last ≠ "." ∧ last ≠ ".." := by simpa using named
                obtain ⟨noSlash, noNull⟩ := clean last (by rw [whole]; simp)
                exact ⟨above, last, rfl, by simpa using proper, noSlash, noNull, by simp [isIdle, some, dot], up,
                  Nat.le_of_not_lt short⟩

theorem parent_concat_begins (busy : isIdle last = false) (front : List String) :
    parent (front ++ [last]) <+: front := by
  unfold parent
  rw [List.reverse_append, List.reverse_singleton, List.singleton_append, List.dropWhile_cons, busy]
  have ends := (List.dropWhile_suffix isIdle (l := front.reverse)).reverse
  rwa [List.reverse_reverse] at ends

theorem parent_begins (pieces : List String) : parent pieces <+: pieces := by
  have first := List.dropWhile_suffix isIdle (l := pieces.reverse)
  have second := List.drop_suffix 1 (pieces.reverse.dropWhile isIdle)
  have third := List.dropWhile_suffix isIdle (l := (pieces.reverse.dropWhile isIdle).drop 1)
  have ends := (third.trans (second.trans first)).reverse
  rwa [List.reverse_reverse] at ends

/-- Directories above are named by what the name begins with. -/
theorem prefix_of_mem_ancestors {bound : Nat} (member : own ∈ ancestors bound pieces) :
    own <+: parent pieces ∧ own ≠ [] := by
  induction bound generalizing pieces with
  | zero => cases member
  | succ bound induction =>
      unfold ancestors at member
      dsimp only at member
      split at member
      · cases member
      · rename_i named
        rcases List.mem_cons.mp member with rfl | above
        · exact ⟨List.prefix_refl _, fun empty => named (List.isEmpty_iff.mpr empty)⟩
        · obtain ⟨begins, some⟩ := induction above
          exact ⟨begins.trans (parent_begins _), some⟩

/-- Directories are made in directories, by names that can be asked for. -/
theorem maintains_orderly_makeDirectories (name : String) : Maintains Orderly (makeDirectories name) := by
  refine maintains_makeDirectories fun pieces split own member => ?_
  have begins : own <+: pieces := by
    rcases List.mem_cons.mp member with rfl | above
    · exact List.prefix_refl own
    · exact (prefix_of_mem_ancestors above).1.trans (parent_begins pieces)
  have clean := fun piece inside => clean_of_piecesOf split piece (begins.subset inside)
  refine maintains_makeDirectoryAt (fun files orderly => orderly.recounts (recounts_counted files)) ?_
  intro files path orderly placed free
  obtain ⟨above, last, rfl, directory, plain⟩ := plain_of_newPath clean placed
  exact orderly.place directory plain (isDirectory_of_free free) .directory

end TierVault.FileSystem
