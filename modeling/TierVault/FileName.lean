/-!
Names of files as texts.

Slashes part a name into pieces. Empty pieces and single dots lead nowhere, and two dots lead up. A name
that begins with a slash begins at the root, any other one at a working directory.
-/

namespace TierVault.FileName

/-! ## Joining -/

def isAbsolute (name : String) : Bool := name.toList.head? = some '/'

/-- A name that is looked up in a directory. -/
def join (directory name : String) : String :=
  if isAbsolute name then name
  else if directory.isEmpty || directory.toList.getLast? = some '/' then directory ++ name
  else directory ++ "/" ++ name

example : join "/a/" "spill" = "/a/spill" := by decide
example : join "" "spill" = "spill" := by decide
example : join "a" "/b" = "/b" := by decide

/-! ## Pieces -/

/-- What stands between the slashes. -/
def splitAtSlashes : List Char → List (List Char)
  | [] => [[]]
  | letter :: rest =>
    match splitAtSlashes rest with
    | [] => [[letter]]
    | first :: others =>
      if letter = '/' then [] :: first :: others else (letter :: first) :: others

/-- The pieces of a name. The first one is empty if the name begins at the root. -/
def pieces (name : String) : List String := (splitAtSlashes name.toList).map String.ofList

/-- The piece leads nowhere. -/
def isIdle (piece : String) : Bool := piece = "" || piece = "."

/-- The pieces of the directory that a thing of that name stands in. -/
def parent (pieces : List String) : List String :=
  (((pieces.reverse.dropWhile isIdle).drop 1).dropWhile isIdle).reverse

/-- The directories above, the nearest first, up to where the name begins. -/
def ancestors : (bound : Nat) → (pieces : List String) → List (List String)
  | 0, _ => []
  | bound + 1, pieces =>
    let above := parent pieces
    if above.isEmpty then [] else above :: ancestors bound above

theorem splitAtSlashes_ne_nil (letters : List Char) : splitAtSlashes letters ≠ [] := by
  cases letters with
  | nil => simp [splitAtSlashes]
  | cons letter rest =>
    unfold splitAtSlashes
    split
    · simp
    · split <;> simp

theorem splitAtSlashes_append (left right : List Char) :
    splitAtSlashes (left ++ '/' :: right) = splitAtSlashes left ++ splitAtSlashes right := by
  induction left with
  | nil =>
    obtain ⟨first, others, split⟩ := List.exists_cons_of_ne_nil (splitAtSlashes_ne_nil right)
    simp [splitAtSlashes, split]
  | cons letter rest induction =>
    obtain ⟨first, others, split⟩ := List.exists_cons_of_ne_nil (splitAtSlashes_ne_nil rest)
    simp only [List.cons_append, splitAtSlashes, induction, split]
    split <;> rfl

theorem splitAtSlashes_plain {letters : List Char} (plain : '/' ∉ letters) :
    splitAtSlashes letters = [letters] := by
  induction letters with
  | nil => rfl
  | cons letter rest induction =>
    simp only [List.mem_cons, not_or] at plain
    simp [splitAtSlashes, induction plain.2, Ne.symm plain.1]

example : pieces "/a//b/" = ["", "a", "", "b", ""] := by decide
example : parent (pieces "a/b/./") = ["a"] := by decide
example : ancestors 9 (pieces "/a/../b") = [["", "a", ".."], ["", "a"]] := by decide

end TierVault.FileName
