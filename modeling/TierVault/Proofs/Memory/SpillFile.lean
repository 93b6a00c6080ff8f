import TierVault.Memory.Spill
import TierVault.Proofs.Compression
import TierVault.Proofs.FileSystem
import TierVault.Proofs.Value.RoundTrip

/-!
Spill files hold what was written to them.

The identifiers in their names keep them apart, so a spill file is left alone when another one is written or
removed.
-/

namespace TierVault

/-- The numbers get distinct identifiers of letters, digits and hyphens. -/
structure Identifies (identifier : Nat → String) : Prop where
  distinct : ∀ left right, identifier left = identifier right → left = right
  plain : ∀ number letter, letter ∈ (identifier number).toList →
    letter.isAlphanum = true ∨ letter = '-'

/-- What stands behind the last separator is told by the whole. -/
theorem eq_of_append_cons_eq {Letter : Type} {front other left right : List Letter}
    {separator : Letter} (same : front ++ separator :: left = other ++ separator :: right)
    (leftPlain : separator ∉ left) (rightPlain : separator ∉ right) : left = right := by
  rcases List.append_eq_append_iff.mp same with ⟨more, -, ends⟩ | ⟨more, -, ends⟩
  · cases more with
    | nil => exact (List.cons.inj ends).2
    | cons letter more =>
        rw [(List.cons.inj ends).2] at leftPlain
        exact absurd (List.mem_append_right _ List.mem_cons_self) leftPlain
  · cases more with
    | nil => exact (List.cons.inj ends).2.symm
    | cons letter more =>
        rw [(List.cons.inj ends).2] at rightPlain
        exact absurd (List.mem_append_right _ List.mem_cons_self) rightPlain

theorem Identifies.not_mem {identifier : Nat → String} (identifies : Identifies identifier)
    {letter : Char} (special : letter.isAlphanum = false) (other : letter ≠ '-') (number : Nat) :
    letter ∉ (identifier number).toList := by
  intro member
  rcases identifies.plain number letter member with plain | hyphen
  · cases special.symm.trans plain
  · exact other hyphen

/-- A separator that is no letter of identifiers keeps them apart. -/
theorem Identifies.number_eq {identifier : Nat → String} (identifies : Identifies identifier)
    {separator : Char} (special : separator.isAlphanum = false) (other : separator ≠ '-')
    {front behind : List Char} {left right : Nat}
    (same : front ++ separator :: (identifier left).toList =
      behind ++ separator :: (identifier right).toList) : left = right := by
  apply identifies.distinct
  apply String.toList_inj.mp
  exact eq_of_append_cons_eq same (identifies.not_mem special other left)
    (identifies.not_mem special other right)

/-- As many letters as the number tells. -/
def unary (number : Nat) : String := String.ofList (List.replicate number 'x')

theorem identifies_unary : Identifies unary := by
  refine ⟨?_, ?_⟩
  · intro left right same
    have letters := congrArg String.toList same
    simp only [unary, String.toList_ofList] at letters
    simpa using congrArg List.length letters
  · intro number letter member
    rw [unary, String.toList_ofList] at member
    rw [List.eq_of_mem_replicate member]
    exact .inl (by decide)

/-- The value is one that its encoding can stand for: its fields are in order, and counts fit. -/
structure Value.Genuine (value : Value) : Prop where
  ordered : value.Ordered
  fits : ∀ bytes, value.encode = .ok bytes → bytes.length < Word.limit

theorem Value.Genuine.wellFormed {value : Value} (genuine : value.Genuine) {bytes : Bytes}
    (encodes : value.encode = .ok bytes) : value.WellFormed :=
  ⟨genuine.ordered, value.countable_of_fits encodes (genuine.fits bytes encodes)⟩

theorem Value.Genuine.flag (truth : Bool) : (Value.flag truth).Genuine := by
  refine ⟨trivial, ?_⟩
  intro bytes encodes
  cases encodes
  cases truth <;> decide

namespace SpillFile

variable {identifier : Nat → String} {name other file directory : String} {left right : Nat}
  {compressor : Compressor} {value : Value} {files after : FileSystem} {size : Nat}

/-! ## Names -/

theorem toList_nameFor (name identifier : String) : (nameFor name identifier).toList =
    (stem name).toList ++ ('_' :: (identifier.toList ++ ".spill".toList)) := by
  simp [nameFor, String.toList_append]

/-- A file's name tells its number. -/
theorem number_eq_of_nameFor_eq (identifies : Identifies identifier)
    (same : nameFor name (identifier left) = nameFor other (identifier right)) : left = right := by
  have letters := congrArg String.toList same
  simp only [toList_nameFor, ← List.cons_append, ← List.append_assoc] at letters
  have whole := List.append_cancel_right letters
  exact identifies.number_eq (by decide) (by decide) whole

theorem plain_stem (name : String) : ∀ letter ∈ (stem name).toList, isPlain letter = true := by
  intro letter member
  unfold stem at member
  simp only at member
  split at member
  · have plain : "value".toList.all isPlain = true := by decide
    exact List.all_eq_true.mp plain letter member
  · rw [String.toList_ofList] at member
    rcases List.mem_map.mp member with ⟨original, -, rfl⟩
    split
    · assumption
    · rfl

theorem no_slash (identifies : Identifies identifier) (name : String) (number : Nat) :
    '/' ∉ (nameFor name (identifier number)).toList := by
  rw [toList_nameFor]
  intro member
  rcases List.mem_append.mp member with inStem | later
  · cases plain_stem name _ inStem
  · rcases List.mem_cons.mp later with impossible | later
    · cases impossible
    · rcases List.mem_append.mp later with inIdentifier | ending
      · exact identifies.not_mem (by decide) (by decide) number inIdentifier
      · revert ending
        decide

theorem pieces_join {file : String} (plain : '/' ∉ file.toList) (directory : String) :
    ∃ front, FileName.pieces (FileName.join directory file) = front ++ [file] := by
  have relative : FileName.isAbsolute file = false := by
    refine decide_eq_false fun slash => plain ?_
    exact List.mem_of_head? slash
  have last (above : List Char) : ∃ front,
      (FileName.splitAtSlashes (above ++ '/' :: file.toList)).map String.ofList = front ++ [file] := by
    rw [FileName.splitAtSlashes_append, FileName.splitAtSlashes_plain plain, List.map_append]
    exact ⟨_, by rw [List.map_singleton, String.ofList_toList]⟩
  unfold FileName.pieces FileName.join
  rw [relative, if_neg Bool.false_ne_true]
  split
  · rename_i bare
    rcases Bool.or_eq_true_iff.mp bare with empty | slash
    · have none : directory = "" := String.isEmpty_iff.mp empty
      subst none
      refine ⟨[], ?_⟩
      rw [String.empty_append, FileName.splitAtSlashes_plain plain]
      simp
    · rcases List.getLast?_eq_some_iff.mp (of_decide_eq_true slash) with ⟨above, split⟩
      rw [String.toList_append, split, List.append_assoc]
      exact last above
  · rw [String.toList_append, String.toList_append, List.append_assoc]
    exact last directory.toList

/-- In its directory, a spill file's name names a thing. -/
theorem namesThing (identifies : Identifies identifier) (directory name : String) (number : Nat) :
    FileSystem.NamesThing (FileName.join directory (nameFor name (identifier number)))
      (nameFor name (identifier number)) := by
  rcases pieces_join (no_slash identifies name number) directory with ⟨front, split⟩
  have long : 2 < (nameFor name (identifier number)).toList.length := by
    rw [toList_nameFor, List.length_append, List.length_cons, List.length_append]
    have ending : ".spill".toList.length = 6 := by decide
    omega
  have differs (short : String) (few : short.toList.length ≤ 2) :
      nameFor name (identifier number) ≠ short := by
    intro same
    rw [same] at long
    omega
  refine ⟨front, split, ?_, differs ".." (by decide)⟩
  simp [FileName.isIdle, differs "" (by decide), differs "." (by decide)]

/-! ## Content -/

theorem decode_of_genuine (genuine : value.Genuine) {encoded : Bytes}
    (encodes : value.encode = .ok encoded) : Value.decode encoded = .ok value := by
  have decoded := Value.decode_encode encodes (genuine.wellFormed encodes) []
  rwa [List.append_nil] at decoded

/-- The file of that name holds the value. -/
def Holds (compressor : Compressor) (files : FileSystem) (file : String) (value : Value) : Prop :=
  ∃ frame encoded, files.content? file = some frame ∧ compressor.decompress frame = .ok encoded ∧
    Value.decode encoded = .ok value

theorem read_of_holds (quiet : files.Quiet) (holds : Holds compressor files file value) :
    read compressor file files = .ok value files.counted := by
  rcases holds with ⟨frame, encoded, content, unpacked, decoded⟩
  have reading := FileSystem.readFile_of_content? quiet content
  unfold read
  simp only [bind, EStateM.bind, SpillAction.onFiles, reading, unpacked, decoded,
    SpillAction.ofExcept, pure, EStateM.pure]

theorem adds_onFiles {Result : Type} {action : FileAction Result}
    (adds : FileSystem.Adds action) : FileSystem.Adds (SpillAction.onFiles action) := by
  intro files
  have here := adds files
  unfold SpillAction.onFiles
  cases called : action files with
  | ok result final =>
      rw [called] at here
      exact here
  | error error final =>
      rw [called] at here
      exact here

theorem adds_ofExcept {Error Result : Type} (wrap : Error → SpillError)
    (computation : Except Error Result) :
    FileSystem.Adds (SpillAction.ofExcept wrap computation) := by
  cases computation with
  | ok result => exact FileSystem.adds_pure result
  | error error => exact FileSystem.adds_throw _

theorem adds_read (compressor : Compressor) (file : String) :
    FileSystem.Adds (read compressor file) := by
  refine (adds_onFiles (FileSystem.adds_readFile file)).bind fun frame => ?_
  exact (adds_ofExcept _ _).bind fun encoded => adds_ofExcept _ _

/-- What a write does, after the value was encoded. -/
theorem write_eq {encoded : Bytes} (encodes : value.encode = .ok encoded) :
    write compressor directory file value = (do
      SpillAction.onFiles (FileSystem.makeDirectories directory)
      SpillAction.onFiles
        (FileSystem.writeFile (FileName.join directory file) (compressor.compress encoded))
      return (compressor.compress encoded).length) := by
  unfold write
  rw [encodes]
  rfl

/-- A write leaves the other files as they are, and its own holds the value. -/
theorem write_spec (named : FileSystem.NamesThing (FileName.join directory file) file)
    (compressor : Compressor) (value : Value) (files : FileSystem) :
    FileSystem.SparesOthers file files
        (FileSystem.leftBy (write compressor directory file value files)) ∧
      ∀ size after, write compressor directory file value files = .ok size after →
        value.Genuine → Holds compressor after (FileName.join directory file) value := by
  cases encodes : value.encode with
  | error error =>
      have failed : write compressor directory file value files = .error (.codec error) files := by
        unfold write
        rw [encodes]
        rfl
      rw [failed]
      refine ⟨FileSystem.sparesOthers_of_extends (.refl _ files) file, fun size after impossible => ?_⟩
      cases impossible
  | ok encoded =>
      rw [write_eq encodes]
      simp only [bind, EStateM.bind]
      have adds := adds_onFiles (FileSystem.adds_makeDirectories directory) files
      cases made : SpillAction.onFiles (FileSystem.makeDirectories directory) files with
      | error error middle =>
          rw [made] at adds
          refine ⟨FileSystem.sparesOthers_of_extends adds file, fun size after impossible => ?_⟩
          cases impossible
      | ok result middle =>
          rw [made] at adds
          rcases FileSystem.sparesOthers_writeFile named (compressor.compress encoded) middle with
            ⟨spares, holds⟩
          have both := (FileSystem.sparesOthers_of_extends adds file).trans spares
          simp only [SpillAction.onFiles]
          cases written : FileSystem.writeFile (FileName.join directory file)
              (compressor.compress encoded) middle with
          | error error final =>
              rw [written] at both
              refine ⟨both, fun size after impossible => ?_⟩
              cases impossible
          | ok result final =>
              rw [written] at both
              refine ⟨both, fun size after ended genuine => ?_⟩
              cases ended
              refine ⟨_, encoded, holds _ written, ?_, ?_⟩
              · exact compressor.decompress_compress encoded
              · exact decode_of_genuine genuine encodes

theorem Holds.more (holds : Holds compressor files file value)
    (adds : FileSystem.Extends files after) : Holds compressor after file value := by
  obtain ⟨frame, encoded, content, unpacked, decoded⟩ := holds
  exact ⟨frame, encoded, adds.content? (fun _ _ => trivial) content, unpacked, decoded⟩

theorem Holds.spares {last : String} (holds : Holds compressor files file value)
    (spares : FileSystem.SparesOthers last files after)
    (named : FileSystem.NamesThing file other) (different : other ≠ last) :
    Holds compressor after file value := by
  rcases holds with ⟨frame, encoded, content, unpacked, decoded⟩
  exact ⟨frame, encoded, spares.content? file other frame named different content, unpacked, decoded⟩

end SpillFile

end TierVault
