import TierVault.PathTree

/-!
What a tree looks like after a change, seen from a path above it, and which names it lists.
-/

namespace TierVault.PathTree

variable {Item : Type} {how : PathTree Item → PathTree Item} {front path asked : Path} {name : String}
  {tree new below rest : PathTree Item} {item : Item}

/-! ## Seen from above or aside -/

/-- A change further down is a change of what stands here and below. -/
theorem walk_change_append (how : PathTree Item → PathTree Item) (front path : Path)
    (tree : PathTree Item) :
    (tree.change how (front ++ path)).walk front = (tree.walk front).change how path := by
  induction front generalizing tree with
  | nil => rfl
  | cons name front induction =>
      simp only [List.cons_append, change, walk, step_setBranch, if_true]
      exact induction (tree.step name)

/-- Whatever is done at a path and below, it cannot be seen at paths that do not pass it. -/
theorem find?_change_apart (how : PathTree Item → PathTree Item) (apart : ¬path <+: asked)
    (tree : PathTree Item) : (tree.change how path).find? asked = tree.find? asked := by
  induction path generalizing tree asked with
  | nil => exact absurd List.nil_prefix apart
  | cons name path induction =>
      cases asked with
      | nil => simp only [change, find?, walk, item?_setBranch]
      | cons other asked =>
          by_cases same : other = name
          · subst same
            have below : ¬path <+: asked := fun front => apart ((List.prefix_cons_inj other).mpr front)
            simpa only [change, find?, walk, step_setBranch, if_true] using
              induction below (tree.step other)
          · simp only [change, find?, walk, step_setBranch, same, if_false]

/-- A change cannot be seen from a place that lies neither above nor below it. -/
theorem walk_change_apart (how : PathTree Item → PathTree Item) (below : ¬path <+: asked)
    (above : ¬asked <+: path) (tree : PathTree Item) : (tree.change how path).walk asked = tree.walk asked := by
  induction path generalizing tree asked with
  | nil => exact absurd List.nil_prefix below
  | cons name path induction =>
      cases asked with
      | nil => exact absurd List.nil_prefix above
      | cons other asked =>
          by_cases same : other = name
          · subst same
            simp only [change, walk, step_setBranch, if_true]
            exact induction (fun front => below ((List.prefix_cons_inj other).mpr front))
              (fun front => above ((List.prefix_cons_inj other).mpr front)) (tree.step other)
          · simp only [change, walk, step_setBranch, same, if_false]

theorem find?_cut_apart (apart : ¬path <+: asked) (tree : PathTree Item) :
    (tree.cut path).find? asked = tree.find? asked :=
  find?_change_apart _ apart tree

/-! ## Names -/

/-- Names of all branches, also of those without an item of their own. -/
def branches : PathTree Item → List String
  | bare _ => []
  | branch name _ rest => name :: rest.branches

/-- No two branches have one name. -/
def Separate (tree : PathTree Item) : Prop := tree.branches.Nodup

theorem branches_putBranch : (tree.putBranch name new).branches =
    if name ∈ tree.branches then tree.branches else tree.branches ++ [name] := by
  induction tree with
  | bare item? => simp [putBranch, branches]
  | branch other below rest _ induction =>
      by_cases same : other = name
      · simp [putBranch, branches, same]
      · by_cases member : name ∈ rest.branches <;>
          simp [putBranch, branches, same, Ne.symm same, member, induction]

theorem branches_removeBranch :
    (tree.removeBranch name).branches = tree.branches.filter (· ≠ name) := by
  induction tree with
  | bare item? => rfl
  | branch other below rest _ induction =>
      by_cases same : other = name
      · simp [removeBranch, branches, same, induction]
      · simp [removeBranch, branches, same, induction]

theorem Separate.setBranch (separate : Separate tree) (name : String) (new : PathTree Item) :
    Separate (tree.setBranch name new) := by
  unfold Separate PathTree.setBranch
  split
  · rw [branches_removeBranch]
    exact separate.filter _
  · rw [branches_putBranch]
    split
    · exact separate
    · rename_i fresh
      exact List.nodup_append.mpr ⟨separate, List.pairwise_singleton _ _,
        fun other member last single same =>
          fresh ((List.mem_singleton.mp single) ▸ same ▸ member)⟩

theorem branches_setItem (item? : Option Item) : (tree.setItem item?).branches = tree.branches := by
  induction tree with
  | bare => rfl
  | branch name below rest _ induction => exact congrArg (name :: ·) induction

/-- A change that leaves names apart at a place and below it leaves them apart everywhere. -/
theorem separate_walk_change (path asked : Path) (separate : ∀ path, (tree.walk path).Separate)
    (keeps : ∀ tree : PathTree Item, (∀ path, (tree.walk path).Separate) →
      ∀ path, ((how tree).walk path).Separate) : ((tree.change how path).walk asked).Separate := by
  induction path generalizing tree asked with
  | nil => exact keeps tree separate asked
  | cons name path induction =>
      cases asked with
      | nil => exact (separate []).setBranch name _
      | cons other asked =>
          simp only [PathTree.change, walk, step_setBranch]
          by_cases same : other = name
          · rw [if_pos same]
            exact induction asked fun inner => separate (name :: inner)
          · rw [if_neg same]
            exact separate (other :: asked)

theorem separate_walk_setItem (item? : Option Item) (separate : ∀ path, (tree.walk path).Separate)
    (path : Path) : ((tree.setItem item?).walk path).Separate := by
  cases path with
  | nil =>
      change (tree.setItem item?).branches.Nodup
      rw [branches_setItem]
      exact separate []
  | cons name path =>
      rw [walk, step_setItem]
      exact separate (name :: path)

theorem separate_walk_bare (item? : Option Item) (path : Path) : ((bare item?).walk path).Separate := by
  cases path with
  | nil => exact List.nodup_nil
  | cons name path =>
      change ((empty : PathTree Item).walk path).Separate
      rw [walk_empty]
      exact List.nodup_nil

theorem separate_walk_empty (path : Path) : ((empty : PathTree Item).walk path).Separate :=
  separate_walk_bare none path

theorem names_sublist : tree.names.Sublist tree.branches := by
  induction tree with
  | bare item? => exact List.Sublist.slnil
  | branch name below rest _ induction =>
      unfold names branches
      split
      · exact induction.cons_cons name
      · exact induction.cons name

theorem Separate.names_nodup (separate : Separate tree) : tree.names.Nodup :=
  names_sublist.nodup separate

/-- Things that are there are listed. -/
theorem mem_names_of_find? (there : (tree.find? [name]).isSome = true) : name ∈ tree.names := by
  change ((tree.step name).item?).isSome = true at there
  induction tree with
  | bare item? => cases there
  | branch other below rest _ induction =>
      unfold names
      by_cases same : other = name
      · rw [step, if_pos same] at there
        rw [if_pos there, same]
        exact List.mem_cons_self
      · rw [step, if_neg same] at there
        split
        · exact List.mem_cons_of_mem _ (induction there)
        · exact induction there

/-- Things that are listed are there. -/
theorem Separate.find?_of_mem_names (separate : Separate tree) (listed : name ∈ tree.names) :
    (tree.find? [name]).isSome = true := by
  change ((tree.step name).item?).isSome = true
  induction tree with
  | bare item? => cases listed
  | branch other below rest _ induction =>
      obtain ⟨fresh, apart⟩ := List.nodup_cons.mp separate
      unfold names at listed
      by_cases same : other = name
      · subst same
        have unlisted : other ∉ rest.names := fun member => fresh (names_sublist.subset member)
        split at listed
        · rename_i there
          simpa only [step, if_true] using there
        · exact absurd listed unlisted
      · simp only [step, same, if_false]
        split at listed
        · exact induction apart ((List.mem_cons.mp listed).resolve_left (Ne.symm same))
        · exact induction apart listed

/-! ## Lists -/

theorem step_of_not_mem (fresh : name ∉ tree.branches) : tree.step name = empty := by
  induction tree with
  | bare item? => rfl
  | branch other below rest _ induction =>
      obtain ⟨different, later⟩ := not_or.mp fun either => fresh (List.mem_cons.mpr either)
      rw [step, if_neg (Ne.symm different), induction later]

/-- In trees whose names are apart everywhere, the names of a branch and of the other branches are apart. -/
theorem separate_parts (separate : ∀ path, ((branch name below rest).walk path).Separate) :
    rest.step name = empty ∧ (∀ path, (below.walk path).Separate) ∧ ∀ path, (rest.walk path).Separate := by
  obtain ⟨fresh, apart⟩ := List.nodup_cons.mp (separate [])
  have nothing := step_of_not_mem fresh
  refine ⟨nothing, fun path => ?_, fun path => ?_⟩
  · have own := separate (name :: path)
    rwa [walk, step, if_pos rfl] at own
  · cases path with
    | nil => exact apart
    | cons other path =>
        by_cases same : name = other
        · rw [walk, ← same, nothing]
          exact separate_walk_empty path
        · have beside := separate (other :: path)
          rwa [walk, step, if_neg same] at beside

/-- What is listed below a tree is what can be found there. -/
theorem mem_entriesBelow (separate : ∀ path, (tree.walk path).Separate) :
    (asked, item) ∈ tree.entriesBelow front ↔
      ∃ name path, asked = front ++ name :: path ∧ tree.find? (name :: path) = some item := by
  induction tree generalizing front with
  | bare item? =>
      refine ⟨nofun, ?_⟩
      rintro ⟨name, path, -, found⟩
      rw [find?, walk, step, walk_empty] at found
      cases found
  | branch own below rest inBelow inRest =>
      obtain ⟨nothing, inner, beside⟩ := separate_parts separate
      rw [entriesBelow, List.mem_append, List.mem_append, inBelow inner, inRest beside]
      constructor
      · rintro ((here | ⟨name, path, rfl, found⟩) | ⟨name, path, rfl, found⟩)
        · simp only [Option.mem_toList, Option.map_eq_some_iff, Prod.mk.injEq] at here
          obtain ⟨_, there, rfl, rfl⟩ := here
          exact ⟨own, [], rfl, by rw [find?, walk, step, if_pos rfl]; exact there⟩
        · refine ⟨own, name :: path, List.append_assoc .., ?_⟩
          rw [find?, walk, step, if_pos rfl]
          exact found
        · refine ⟨name, path, rfl, ?_⟩
          have different : own ≠ name := by
            rintro rfl
            rw [find?, walk, nothing, walk_empty] at found
            cases found
          rw [find?, walk, step, if_neg different]
          exact found
      · rintro ⟨name, path, rfl, found⟩
        rw [find?, walk, step] at found
        by_cases same : own = name
        · subst same
          rw [if_pos rfl] at found
          left
          cases path with
          | nil =>
              rw [walk] at found
              exact .inl (by simpa using found)
          | cons next path => exact .inr ⟨next, path, List.append_cons .., found⟩
        · rw [if_neg same] at found
          exact .inr ⟨name, path, rfl, found⟩

/-- Nothing is listed twice. -/
theorem nodup_entriesBelow (separate : ∀ path, (tree.walk path).Separate) :
    ((tree.entriesBelow front).map Prod.fst).Nodup := by
  induction tree generalizing front with
  | bare item? => exact List.nodup_nil
  | branch own below rest inBelow inRest =>
      obtain ⟨nothing, inner, beside⟩ := separate_parts separate
      rw [entriesBelow, List.map_append, List.map_append]
      have here : ∀ path ∈ ((below.item?.map fun item => (front ++ [own], item)).toList).map Prod.fst,
          path = front ++ [own] := by
        cases below.item? <;> simp
      have inside : ∀ path ∈ (entriesBelow (front ++ [own]) below).map Prod.fst,
          ∃ name inner, path = front ++ own :: name :: inner := by
        intro path member
        obtain ⟨⟨_, item⟩, listed, rfl⟩ := List.mem_map.mp member
        obtain ⟨name, inner, rfl, -⟩ := (mem_entriesBelow inner).mp listed
        exact ⟨name, inner, List.append_assoc ..⟩
      have outside : ∀ path ∈ (entriesBelow front rest).map Prod.fst,
          ∃ name inner, path = front ++ name :: inner ∧ name ≠ own := by
        intro path member
        obtain ⟨⟨_, item⟩, listed, rfl⟩ := List.mem_map.mp member
        obtain ⟨name, inner, rfl, found⟩ := (mem_entriesBelow beside).mp listed
        refine ⟨name, inner, rfl, ?_⟩
        rintro rfl
        rw [find?, walk, nothing, walk_empty] at found
        cases found
      refine List.nodup_append.mpr ⟨List.nodup_append.mpr ⟨?_, inBelow inner, ?_⟩, inRest beside, ?_⟩
      · cases below.item? <;> simp
      · intro path first _ second same
        obtain rfl := here path first
        obtain ⟨name, inner, lies⟩ := inside _ second
        rw [← same] at lies
        exact absurd (congrArg List.length lies) (by simp)
      · intro path first other second same
        obtain ⟨name, inner, rfl, different⟩ := outside other second
        rcases List.mem_append.mp first with among | among
        · exact different (List.cons.inj (List.append_cancel_left ((here path among).symm.trans same))).1.symm
        · obtain ⟨next, deeper, rfl⟩ := inside path among
          exact different (List.cons.inj (List.append_cancel_left same)).1.symm

end TierVault.PathTree
