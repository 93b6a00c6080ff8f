import TierVault.Session.Classifier

/-!
Keywords in code.

Keywords and code are put in lower case apart from one another, and the lower case of a capital sigma depends on the
letters around it. So a keyword is found where its sigmas end words in the code just as they do in the keyword alone.
Keywords whose sigmas no surroundings change are found wherever they stand, and of every other keyword there is code
that mentions it unnoticed.
-/

namespace TierVault

namespace LetterCase

variable {before after other later front back letters : List Char} {letter : Char}

/-! ## Neighbours of a letter -/

theorem meetsCased_append (letters rest : List Char) :
    meetsCased (letters ++ rest) = if letters.all isIgnorable then meetsCased rest else meetsCased letters := by
  induction letters with
  | nil => rfl
  | cons letter letters induction =>
      cases passed : isIgnorable letter with
      | true => simpa [meetsCased, passed] using induction
      | false => simp [meetsCased, passed]

theorem meetsCased_of_all (passed : letters.all isIgnorable = true) : meetsCased letters = false := by
  have whole := meetsCased_append letters []
  rwa [List.append_nil, if_pos passed] at whole

/-- A capital sigma between these letters becomes a final one. -/
def endsWord (before rest : List Char) : Bool := meetsCased before && !meetsCased rest

/-! ## Lower case in its surroundings -/

/-- The lower case of one letter between these. -/
def lowerLetter (before : List Char) (letter : Char) (rest : List Char) : List Char :=
  if letter = capitalSigma then [Char.ofNat (if endsWord before rest then 962 else 963)]
  else lowerOfLetter letter

/-- The lower case of letters between these. -/
def lowerBetween : (before letters after : List Char) → List Char
  | _, [], _ => []
  | before, letter :: rest, after =>
    lowerLetter before letter (rest ++ after) ++ lowerBetween (letter :: before) rest after

theorem lowerFrom_append (before letters after : List Char) :
    lowerFrom before (letters ++ after) =
      lowerBetween before letters after ++ lowerFrom (letters.reverse ++ before) after := by
  induction letters generalizing before with
  | nil => rfl
  | cons letter letters induction =>
      calc
        _ = lowerLetter before letter (letters ++ after) ++ lowerFrom (letter :: before) (letters ++ after) := rfl
        _ = _ := by
          rw [induction, lowerBetween, List.append_assoc, List.reverse_cons, List.append_assoc]
          rfl

theorem lowerFrom_eq_between (before letters : List Char) :
    lowerFrom before letters = lowerBetween before letters [] := by
  have whole := lowerFrom_append before letters []
  rwa [List.append_nil, lowerFrom, List.append_nil] at whole

theorem lowerLetter_eq_iff :
    lowerLetter before letter after = lowerLetter other letter later ↔
      (letter = capitalSigma → endsWord before after = endsWord other later) := by
  unfold lowerLetter
  by_cases sigma : letter = capitalSigma
  · have apart : ∀ left right : Bool,
        [Char.ofNat (if left then 962 else 963)] = [Char.ofNat (if right then 962 else 963)] ↔ left = right := by
      decide
    rw [if_pos sigma, if_pos sigma, apart]
    exact ⟨fun same _ => same, fun alike => alike sigma⟩
  · rw [if_neg sigma, if_neg sigma]
    exact iff_of_true rfl fun same => absurd same sigma

theorem length_lowerLetter :
    (lowerLetter before letter after).length = (lowerLetter other letter later).length := by
  unfold lowerLetter
  split
  · rfl
  · rfl

theorem length_lowerBetween :
    (lowerBetween before letters after).length = (lowerBetween other letters later).length := by
  induction letters generalizing before other with
  | nil => rfl
  | cons letter letters induction =>
      rw [lowerBetween, lowerBetween, List.length_append, List.length_append, length_lowerLetter, induction]

theorem lowerBetween_eq_iff :
    lowerBetween before letters after = lowerBetween other letters later ↔
      ∀ front back, letters = front ++ capitalSigma :: back →
        endsWord (front.reverse ++ before) (back ++ after) = endsWord (front.reverse ++ other) (back ++ later) := by
  induction letters generalizing before other with
  | nil => exact iff_of_true rfl fun front back empty => absurd empty (by simp)
  | cons letter letters induction =>
      constructor
      · intro same front back parted
        obtain ⟨first, others⟩ := List.append_inj same length_lowerLetter
        cases front with
        | nil =>
            obtain ⟨sigma, rfl⟩ := List.cons.inj parted
            exact lowerLetter_eq_iff.mp first sigma
        | cons head front =>
            obtain ⟨rfl, rest⟩ := List.cons.inj parted
            rw [List.reverse_cons, List.append_assoc, List.append_assoc]
            exact induction.mp others front back rest
      · intro alike
        have first : lowerLetter before letter (letters ++ after) = lowerLetter other letter (letters ++ later) :=
          lowerLetter_eq_iff.mpr fun sigma => alike [] letters (sigma ▸ rfl)
        have others : lowerBetween (letter :: before) letters after = lowerBetween (letter :: other) letters later :=
          induction.mpr fun front back rest => by
            have further := alike (letter :: front) back (rest ▸ rfl)
            rwa [List.reverse_cons, List.append_assoc, List.append_assoc] at further
        rw [lowerBetween, lowerBetween, first, others]

/-! ## Sigmas -/

/-- Each capital sigma of the letters becomes a final one between these exactly if it does when they stand alone. -/
def SigmasAlike (before letters after : List Char) : Prop :=
  ∀ front back, letters = front ++ capitalSigma :: back →
    endsWord (front.reverse ++ before) (back ++ after) = endsWord front.reverse back

theorem lowerBetween_eq_alone_iff :
    lowerBetween before letters after = lowerFrom [] letters ↔ SigmasAlike before letters after := by
  simp only [lowerFrom_eq_between, lowerBetween_eq_iff, List.append_nil, SigmasAlike]

/-- Where the sigmas are alike, the lower case of the letters is a part of that of the whole. -/
theorem SigmasAlike.isInfix (alike : SigmasAlike before.reverse letters after) :
    lowerFrom [] letters <:+: lowerFrom [] (before ++ letters ++ after) := by
  rw [List.append_assoc, lowerFrom_append [] before, lowerFrom_append _ letters, List.append_nil,
    lowerBetween_eq_alone_iff.mpr alike, ← List.append_assoc]
  exact List.infix_append _ _ _

/-- Nothing around the letters can change what becomes of a capital sigma among them: where the letters on one side of
it are all passed over, the other side settles it. -/
def Steady (letters : List Char) : Prop :=
  ∀ front back, letters = front ++ capitalSigma :: back →
    (front.all isIgnorable = true → meetsCased back = true) ∧
      (back.all isIgnorable = true → meetsCased front.reverse = false)

theorem Steady.alike (steady : Steady letters) (before after : List Char) : SigmasAlike before letters after := by
  intro front back parted
  obtain ⟨first, last⟩ := steady front back parted
  rw [endsWord, endsWord, meetsCased_append, meetsCased_append, List.all_reverse]
  cases ahead : front.all isIgnorable with
  | true =>
      have cased := first ahead
      have stops : back.all isIgnorable = false := by
        rw [← Bool.not_eq_true]
        intro passed
        rw [meetsCased_of_all passed] at cased
        cases cased
      rw [stops, if_neg Bool.false_ne_true, cased, Bool.not_true, Bool.and_false, Bool.and_false]
  | false =>
      rw [if_neg Bool.false_ne_true]
      cases behind : back.all isIgnorable with
      | true => rw [last behind, Bool.false_and, Bool.false_and]
      | false => rw [if_neg Bool.false_ne_true]

theorem steady_of_not_mem (absent : capitalSigma ∉ letters) : Steady letters := by
  rintro front back rfl
  exact absurd (List.mem_append_right front List.mem_cons_self) absent

/-! ## Surroundings in which letters are missed -/

/-- A letter that has case, keeps it and is not passed over. -/
abbrev Settled (letter : Char) : Prop :=
  isIgnorable letter = false ∧ isCased letter = true ∧ letter ≠ capitalSigma ∧ lowerOfLetter letter = [letter]

theorem Settled.meetsCased (settled : Settled letter) (rest : List Char) : meetsCased (letter :: rest) = true := by
  obtain ⟨stops, cased, -, -⟩ := settled
  rw [LetterCase.meetsCased, List.dropWhile_cons, stops]
  exact cased

theorem Settled.lowerFrom (settled : Settled letter) (before rest : List Char) :
    lowerFrom before (letter :: rest) = letter :: lowerFrom (letter :: before) rest := by
  obtain ⟨-, -, different, kept⟩ := settled
  rw [LetterCase.lowerFrom, if_neg different, kept]
  rfl

theorem exists_settled_ne (avoided? : Option Char) : ∃ letter, Settled letter ∧ avoided? ≠ some letter := by
  by_cases same : avoided? = some 'a'
  · exact ⟨'b', by decide +kernel, by simp [same]⟩
  · exact ⟨'a', by decide +kernel, same⟩

section Infix

variable {part whole : List Char}

theorem not_infix_cons (long : part.length = whole.length) (different : part ≠ whole)
    (headed : part.head? ≠ some letter) : ¬part <:+: letter :: whole := by
  rw [List.infix_cons_iff, List.prefix_cons_iff]
  rintro ((empty | ⟨rest, begins, -⟩) | inside)
  · rw [empty] at long different
    exact different (List.eq_nil_of_length_eq_zero long.symm).symm
  · rw [begins] at headed
    exact headed rfl
  · exact different (inside.eq_of_length long)

theorem not_infix_concat (long : part.length = whole.length) (different : part ≠ whole)
    (closed : part.getLast? ≠ some letter) : ¬part <:+: whole ++ [letter] := by
  rw [List.infix_concat_iff, List.suffix_concat_iff]
  rintro ((empty | ⟨rest, ends, -⟩) | inside)
  · rw [empty] at long different
    exact different (List.eq_nil_of_length_eq_zero long.symm).symm
  · rw [ends] at closed
    exact closed List.getLast?_concat
  · exact different (inside.eq_of_length long)

end Infix

/-- Letters that are not steady have surroundings in which their lower case is nowhere to be found. -/
theorem exists_missed (unsteady : ¬Steady letters) :
    ∃ before after, ¬lowerFrom [] letters <:+: lowerFrom [] (before ++ letters ++ after) := by
  simp only [Steady, Classical.not_forall, Classical.not_and_iff_not_or_not, Bool.not_eq_true,
    Bool.not_eq_false] at unsteady
  obtain ⟨front, back, parted, ⟨passed, uncased⟩ | ⟨passed, cased⟩⟩ := unsteady
  · -- A letter with case in front makes the sigma a final one.
    obtain ⟨letter, settled, headed⟩ := exists_settled_ne (lowerFrom [] letters).head?
    refine ⟨[letter], [], ?_⟩
    rw [List.append_nil, List.singleton_append, settled.lowerFrom, lowerFrom_eq_between [letter]]
    refine not_infix_cons ?_ (fun same => ?_) headed
    · rw [lowerFrom_eq_between, length_lowerBetween]
    · have alike := lowerBetween_eq_alone_iff.mp same.symm front back parted
      have alone : meetsCased front.reverse = false := meetsCased_of_all (by rwa [List.all_reverse])
      rw [endsWord, endsWord, List.append_nil, meetsCased_append, List.all_reverse, if_pos passed,
        settled.meetsCased, uncased, alone] at alike
      cases alike
  · -- A letter with case behind keeps the sigma from being a final one.
    obtain ⟨letter, settled, closed⟩ := exists_settled_ne (lowerFrom [] letters).getLast?
    refine ⟨[], [letter], ?_⟩
    rw [List.nil_append, lowerFrom_append, settled.lowerFrom]
    refine not_infix_concat ?_ (fun same => ?_) closed
    · rw [lowerFrom_eq_between, length_lowerBetween]
    · have alike := lowerBetween_eq_alone_iff.mp same.symm front back parted
      rw [endsWord, endsWord, List.append_nil, meetsCased_append, if_pos passed, settled.meetsCased,
        meetsCased_of_all passed, cased] at alike
      cases alike

theorem toList_lowerCase (text : String) : (lowerCase text).toList = lowerFrom [] text.toList :=
  String.toList_ofList

end LetterCase

/-! ## Classification by keywords -/

namespace Classifier

open LetterCase

theorem ofConfig_eq_ok {config : SessionConfig} (fits : config.streamingFileMegabytes * 1024 * 1024 < Word.limit) :
    ofConfig config =
      .ok ⟨config.streamingKeywords.map lowerCase, config.streamingFileMegabytes * 1024 * 1024⟩ := by
  have kilobytes : config.streamingFileMegabytes * 1024 < Word.limit :=
    Nat.lt_of_le_of_lt (Nat.le_mul_of_pos_right _ (by decide)) fits
  rw [ofConfig, Word.product_eq_ok kilobytes]
  change (Word.product _ _ >>= _) = _
  rw [Word.product_eq_ok fits]
  rfl

theorem mentionsKeyword_iff {classifier : Classifier} {code : String} :
    classifier.mentionsKeyword code = true ↔
      ∃ keyword ∈ classifier.keywords, keyword.toList <:+: lowerFrom [] code.toList := by
  simp only [mentionsKeyword, List.any_eq_true, occursIn_iff, toList_lowerCase]

theorem classify_eq_streaming_iff {classifier : Classifier} {files : FileSystem} {code : String} :
    classifier.classify files code = .streaming ↔
      classifier.mentionsKeyword code = true ∨ classifier.namesLargeFile files code = true := by
  rw [classify, ← Bool.or_eq_true]
  split
  · rename_i found
    exact iff_of_true rfl found
  · rename_i missed
    exact iff_of_false nofun missed

section

variable {classifier : Classifier} {keyword before after : String}

theorem classify_of_alike (listed : lowerCase keyword ∈ classifier.keywords)
    (alike : SigmasAlike before.toList.reverse keyword.toList after.toList) (files : FileSystem) :
    classifier.classify files (before ++ keyword ++ after) = .streaming := by
  refine classify_eq_streaming_iff.mpr (.inl (mentionsKeyword_iff.mpr ⟨lowerCase keyword, listed, ?_⟩))
  rw [toList_lowerCase, String.toList_append, String.toList_append]
  exact alike.isInfix

theorem exists_unmentioned (only : classifier.keywords = [lowerCase keyword]) (unsteady : ¬Steady keyword.toList) :
    ∃ before after, ¬classifier.mentionsKeyword (before ++ keyword ++ after) = true := by
  obtain ⟨before, after, missed⟩ := exists_missed unsteady
  refine ⟨.ofList before, .ofList after, ?_⟩
  rw [mentionsKeyword_iff, only]
  rintro ⟨lowered, member, occurs⟩
  obtain rfl := List.mem_singleton.mp member
  rw [toList_lowerCase, String.toList_append, String.toList_append, String.toList_ofList,
    String.toList_ofList] at occurs
  exact missed occurs

end

/-- Code that mentions a keyword is streaming wherever the sigmas of the keyword are alike in the code and alone. A
steady keyword, such as one without a sigma, is found in all code that mentions it. Any other keyword stands unnoticed
in some code, where only a large file can decide. -/
theorem classify_keyword {config : SessionConfig} {keyword : String}
    (fits : config.streamingFileMegabytes * 1024 * 1024 < Word.limit) (listed : keyword ∈ config.streamingKeywords) :
    ∃ classifier, ofConfig config = .ok classifier ∧
      (∀ files before after, SigmasAlike before.toList.reverse keyword.toList after.toList →
        classifier.classify files (before ++ keyword ++ after) = .streaming) ∧
      (Steady keyword.toList → ∀ files before after,
        classifier.classify files (before ++ keyword ++ after) = .streaming) ∧
      (config.streamingKeywords = [keyword] → ¬Steady keyword.toList → ∃ before after, ∀ files,
        classifier.classify files (before ++ keyword ++ after) = .streaming ↔
          classifier.namesLargeFile files (before ++ keyword ++ after) = true) := by
  obtain ⟨classifier, made, keywords⟩ : ∃ classifier, ofConfig config = .ok classifier ∧
      classifier.keywords = config.streamingKeywords.map lowerCase := ⟨_, ofConfig_eq_ok fits, rfl⟩
  have member : lowerCase keyword ∈ classifier.keywords := keywords ▸ List.mem_map_of_mem listed
  refine ⟨classifier, made, ?_, ?_, ?_⟩
  · intro files before after alike
    exact classify_of_alike member alike files
  · intro steady files before after
    exact classify_of_alike member (steady.alike _ _) files
  · intro only unsteady
    obtain ⟨before, after, missed⟩ :=
      exists_unmentioned (keywords.trans (congrArg (List.map lowerCase) only)) unsteady
    exact ⟨before, after, fun files => classify_eq_streaming_iff.trans (or_iff_right missed)⟩

/-- One keyword, which ends with a sigma. -/
def wordEnd : SessionConfig := { streamingKeywords := ["ΑΣ"] }

/-- A keyword without a sigma is found inside a word. One that ends with a sigma is found at the end of a word, and
is missed in some code. -/
theorem classify_keyword_wordEnd :
    (∃ classifier, ofConfig {} = .ok classifier ∧
      ∀ files, classifier.classify files ("rechunked = re" ++ "chunk" ++ "ed()") = .streaming) ∧
    ∃ classifier, ofConfig wordEnd = .ok classifier ∧
      (∀ files, classifier.classify files ("" ++ "ΑΣ" ++ "(Α)") = .streaming) ∧
      ∃ before after, ∀ files, classifier.classify files (before ++ "ΑΣ" ++ after) = .streaming ↔
        classifier.namesLargeFile files (before ++ "ΑΣ" ++ after) = true := by
  constructor
  · obtain ⟨classifier, made, -, found, -⟩ :=
      @classify_keyword {} "chunk" (by decide) (by decide)
    exact ⟨classifier, made, fun files => found (steady_of_not_mem (by decide)) files _ _⟩
  · obtain ⟨classifier, made, found, -, missed⟩ :=
      @classify_keyword wordEnd "ΑΣ" (by decide) (by decide)
    have alike : SigmasAlike [] "ΑΣ".toList "(Α)".toList := lowerBetween_eq_alone_iff.mp (by decide +kernel)
    have unsteady : ¬Steady "ΑΣ".toList := fun steady => by
      have final := (steady ['Α'] [] (by decide)).2 rfl
      exact absurd final (by decide +kernel)
    exact ⟨classifier, made, fun files => found files "" "(Α)" alike, missed rfl unsteady⟩

/-- Inside a word the lower case of the keyword ends with the other sigma, and the code is not streaming. -/
theorem keyword_missed_inside_word :
    "ΑΣ" ∈ wordEnd.streamingKeywords ∧
      ∃ classifier, ofConfig wordEnd = .ok classifier ∧
        ∀ files, classifier.classify files ("ΑΣ" ++ "Α") = .immediate := by
  refine ⟨by decide, _, ofConfig_eq_ok (by decide), fun files => ?_⟩
  have missed : mentionsKeyword ⟨[lowerCase "ΑΣ"], 100 * 1024 * 1024⟩ ("ΑΣ" ++ "Α") = false := by decide +kernel
  have unquoted : Literal.contents ("ΑΣ" ++ "Α") = [] := by decide
  rw [classify, namesLargeFile, unquoted, List.any_nil, Bool.or_false]
  exact if_neg (Bool.not_eq_true _ ▸ missed)

end Classifier

end TierVault
