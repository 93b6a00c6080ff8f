import TierVault.Keyed

/-!
Items under paths.

A tree is the list of its branches, each under a name, and at the end of the list the item of the tree
itself. A change at a path goes down one branch a name and leaves all others as they are, so what
stands at a path does not depend on what stands above it. Branches without any item are not kept.
-/

namespace TierVault

/-- Names from the root. -/
abbrev Path := List String

inductive PathTree (Item : Type)
  | bare (item? : Option Item)
  | branch (name : String) (below rest : PathTree Item)
  deriving Inhabited

namespace PathTree

variable {Item : Type}

def empty : PathTree Item := bare none

def isEmpty : PathTree Item → Bool
  | bare none => true
  | _ => false

/-! ## One step -/

/-- The item of the tree itself. -/
def item? : PathTree Item → Option Item
  | bare item? => item?
  | branch _ _ rest => rest.item?

def setItem (item? : Option Item) : PathTree Item → PathTree Item
  | bare _ => bare item?
  | branch name below rest => branch name below (setItem item? rest)

/-- The branch of a name. -/
def step (name : String) : PathTree Item → PathTree Item
  | bare _ => empty
  | branch other below rest => if other = name then below else step name rest

def putBranch (tree : PathTree Item) (name : String) (new : PathTree Item) : PathTree Item :=
  match tree with
  | bare item? => branch name new (bare item?)
  | branch other below rest =>
    if other = name then branch name new rest else branch other below (rest.putBranch name new)

def removeBranch (name : String) : PathTree Item → PathTree Item
  | bare item? => bare item?
  | branch other below rest =>
    if other = name then rest.removeBranch name else branch other below (rest.removeBranch name)

def setBranch (tree : PathTree Item) (name : String) (new : PathTree Item) : PathTree Item :=
  if new.isEmpty then tree.removeBranch name else tree.putBranch name new

/-! ## Paths -/

/-- What stands at a path and below it. -/
def walk : Path → PathTree Item → PathTree Item
  | [], tree => tree
  | name :: path, tree => walk path (tree.step name)

def find? (path : Path) (tree : PathTree Item) : Option Item := (tree.walk path).item?

/-- Changes what stands at a path and below it. -/
def change (how : PathTree Item → PathTree Item) : Path → PathTree Item → PathTree Item
  | [], tree => how tree
  | name :: path, tree => tree.setBranch name (change how path (tree.step name))

def put (path : Path) (item : Item) (tree : PathTree Item) : PathTree Item :=
  tree.change (setItem (some item)) path

def remove (path : Path) (tree : PathTree Item) : PathTree Item :=
  tree.change (setItem none) path

/-- Removes what stands at a path and everything below it. -/
def cut (path : Path) (tree : PathTree Item) : PathTree Item :=
  tree.change (fun _ => empty) path

/-! ## Lists -/

/-- Names of the branches that have an item themselves. -/
def names : PathTree Item → List String
  | bare _ => []
  | branch name below rest => if below.item?.isSome then name :: names rest else names rest

/-- Everything below a tree that stands at a path. -/
def entriesBelow (path : Path) : PathTree Item → Keyed Path Item
  | bare _ => []
  | branch name below rest =>
    (below.item?.map fun item => (path ++ [name], item)).toList
      ++ entriesBelow (path ++ [name]) below ++ entriesBelow path rest

/-! ## What a step sees of a change -/

theorem eq_empty_of_isEmpty {tree : PathTree Item} (nothing : tree.isEmpty = true) : tree = empty := by
  unfold isEmpty at nothing
  split at nothing
  · rfl
  · cases nothing

@[simp] theorem item?_setItem (item? : Option Item) (tree : PathTree Item) :
    (tree.setItem item?).item? = item? := by
  induction tree with
  | bare => rfl
  | branch _ _ _ _ induction => simpa [setItem, PathTree.item?] using induction

@[simp] theorem step_setItem (name : String) (item? : Option Item) (tree : PathTree Item) :
    (tree.setItem item?).step name = tree.step name := by
  induction tree with
  | bare => rfl
  | branch other _ _ _ induction => simp [setItem, step, induction]

private theorem step_putBranch (name asked : String) (tree new : PathTree Item) :
    (tree.putBranch name new).step asked = if asked = name then new else tree.step asked := by
  induction tree with
  | bare => simp [putBranch, step, eq_comm]
  | branch other _ _ _ induction =>
    by_cases equal : other = name
    · by_cases same : name = asked <;> simp [putBranch, step, equal, same, eq_comm]
    · by_cases same : other = asked
      · subst same
        simp [putBranch, step, equal]
      · simp [putBranch, step, equal, same, induction]

private theorem step_removeBranch (name asked : String) (tree : PathTree Item) :
    (tree.removeBranch name).step asked = if asked = name then empty else tree.step asked := by
  induction tree with
  | bare => simp [removeBranch, step]
  | branch other _ _ _ induction =>
    by_cases equal : other = name
    · subst equal
      by_cases same : asked = other
      · simpa [removeBranch, same] using induction
      · simp [removeBranch, step, same, Ne.symm same, induction]
    · by_cases same : other = asked
      · subst same
        simp [removeBranch, step, equal]
      · simp [removeBranch, step, equal, same, induction]

/-- One branch is the new one, and all others stay. -/
theorem step_setBranch (name asked : String) (tree new : PathTree Item) :
    (tree.setBranch name new).step asked = if asked = name then new else tree.step asked := by
  unfold setBranch
  split
  · rename_i nothing
    rw [step_removeBranch, eq_empty_of_isEmpty nothing]
  · exact step_putBranch name asked tree new

@[simp] theorem item?_setBranch (name : String) (tree new : PathTree Item) :
    (tree.setBranch name new).item? = tree.item? := by
  unfold setBranch
  split
  · induction tree with
    | bare => rfl
    | branch other _ _ _ induction =>
      simp only [removeBranch]
      split <;> simpa [item?] using induction
  · induction tree with
    | bare => rfl
    | branch other _ _ _ induction =>
      simp only [putBranch]
      split
      · rfl
      · simpa [item?] using induction

/-! ## What a path sees of a change -/

@[simp] theorem walk_append (front path : Path) (tree : PathTree Item) :
    tree.walk (front ++ path) = (tree.walk front).walk path := by
  induction front generalizing tree with
  | nil => rfl
  | cons name front induction => exact induction (tree.step name)

theorem walk_change_same (how : PathTree Item → PathTree Item) (path : Path) (tree : PathTree Item) :
    (tree.change how path).walk path = how (tree.walk path) := by
  induction path generalizing tree with
  | nil => rfl
  | cons name path induction => simp [change, walk, step_setBranch, induction]

/-- A change that leaves the branches of a place alone changes nothing at other paths. -/
theorem find?_change_other {how : PathTree Item → PathTree Item} {path asked : Path}
    (keeps : ∀ (name : String) (tree : PathTree Item), (how tree).step name = tree.step name)
    (tree : PathTree Item) (different : asked ≠ path) :
    (tree.change how path).find? asked = tree.find? asked := by
  induction path generalizing tree asked with
  | nil =>
    cases asked with
    | nil => exact absurd rfl different
    | cons name asked => simp [change, find?, walk, keeps]
  | cons name path induction =>
    cases asked with
    | nil => simp [change, find?, walk]
    | cons other asked =>
      by_cases equal : other = name
      · subst equal
        have apart : asked ≠ path := fun same => different (by rw [same])
        simpa [change, find?, walk, step_setBranch] using induction (tree.step other) apart
      · simp [change, find?, walk, step_setBranch, equal]

@[simp] theorem find?_put_same (path : Path) (item : Item) (tree : PathTree Item) :
    (tree.put path item).find? path = some item := by
  simp [put, find?, walk_change_same]

@[simp] theorem find?_put_other {path asked : Path} (item : Item) (tree : PathTree Item)
    (different : asked ≠ path) : (tree.put path item).find? asked = tree.find? asked :=
  find?_change_other (fun name tree => step_setItem name (some item) tree) tree different

@[simp] theorem find?_remove_same (path : Path) (tree : PathTree Item) :
    (tree.remove path).find? path = none := by
  simp [remove, find?, walk_change_same]

@[simp] theorem find?_remove_other {path asked : Path} (tree : PathTree Item)
    (different : asked ≠ path) : (tree.remove path).find? asked = tree.find? asked :=
  find?_change_other (fun name tree => step_setItem name none tree) tree different

theorem walk_empty (path : Path) : (empty : PathTree Item).walk path = empty := by
  induction path with
  | nil => rfl
  | cons name path induction => exact induction

/-- Nothing is left at or below a path that was cut. -/
theorem find?_cut_below (path inner : Path) (tree : PathTree Item) :
    (tree.cut path).find? (path ++ inner) = none := by
  simp only [cut, find?, walk_append, walk_change_same, walk_empty]
  rfl

example : ((empty.put ["a", "b"] 1).put ["a"] 2).find? ["a", "b"] = some 1 := by decide
example : ((empty.put ["a", "b"] 1).put ["a"] 2).entriesBelow [] = [(["a"], 2), (["a", "b"], 1)] := by
  decide
example : ((empty.put ["a", "b"] 1).remove ["a", "b"]).isEmpty = true := by decide

end PathTree

end TierVault
