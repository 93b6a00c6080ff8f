import TierVault.Config.Basic
import TierVault.FileSystem.Lookup
import TierVault.Text.LetterCase

/-!
Whether code works through data piece by piece.

Code runs in streaming mode when it mentions a streaming keyword, in any letter case, or when a quoted
literal in it names a large file. A literal opens at a quote outside any literal and closes at the
next quote of its kind; a line end before that abandons it.
-/

namespace TierVault

inductive ExecutionMode
  | streaming
  | immediate
  deriving DecidableEq, Inhabited

def ExecutionMode.name : ExecutionMode → String
  | streaming => "Streaming"
  | immediate => "Immediate"

/-! ## Literals -/

namespace Literal

def isQuote (letter : Char) : Bool := letter = '"' || letter = '\''

/-- Inside a literal: its quote, and what was read of it in reverse. -/
abbrev Opened := Option (Char × List Char)

/-- The contents of the literals from here on; empty ones are left out. -/
def scan : Opened → List Char → List (List Char)
  | _, [] => []
  | none, letter :: rest =>
    if isQuote letter then scan (some (letter, [])) rest else scan none rest
  | some (quote, content), letter :: rest =>
    if letter = quote then
      if content.isEmpty then scan none rest else content.reverse :: scan none rest
    else if letter = '\n' then scan none rest
    else scan (some (quote, letter :: content)) rest

def contents (code : String) : List String :=
  (scan none code.toList).map String.ofList

example : contents "open('a.csv') + \"\" + \"b" = ["a.csv"] := by decide

/-! The contents can also be cut out of the code. Places in a text are counted in bytes then, and a content lies
between the place after its opening quote and the place of its closing one. -/

/-- The text between two places. There is none if one of them lies outside the text or inside a letter, or if they
come in the wrong order. -/
def cut (text : String) (start stop : Nat) : Option String := do
  let first ← text.pos? ⟨start⟩
  let last ← text.pos? ⟨stop⟩
  return (← text.slice? first last).copy

/-- The contents that are cut out from `place` on, where the letters follow. Inside a literal its quote is known, and
the place where its content starts. -/
def cutFrom (code : String) : Option (Char × Nat) → (place : Nat) → List Char → Option (List String)
  | _, _, [] => some []
  | none, place, letter :: rest =>
    cutFrom code (if isQuote letter then some (letter, place + 1) else none) (place + letter.utf8Size) rest
  | some (quote, start), place, letter :: rest =>
    if letter = quote then
      if start < place then do
        let content ← cut code start place
        return content :: (← cutFrom code none (place + letter.utf8Size) rest)
      else cutFrom code none (place + letter.utf8Size) rest
    else
      cutFrom code (if letter = '\n' then none else some (quote, start)) (place + letter.utf8Size) rest

def cutContents (code : String) : Option (List String) :=
  cutFrom code none 0 code.toList

example : cut "é'" 2 3 = some "'" := by decide
example : cut "é'" 1 3 = none := by decide

end Literal

/-! ## Classification -/

/-- `part` occurs in `whole` without a gap. -/
def occursIn (part : List Char) : List Char → Bool
  | [] => part.isEmpty
  | letter :: rest => part.isPrefixOf (letter :: rest) || occursIn part rest

theorem occursIn_iff {part whole : List Char} : occursIn part whole = true ↔ part <:+: whole := by
  induction whole with
  | nil => simp [occursIn]
  | cons letter rest induction =>
    simp [occursIn, induction, List.infix_cons_iff]

structure Classifier where
  /-- In lower case. -/
  keywords : List String
  fileThresholdBytes : Nat
  deriving Inhabited

namespace Classifier

def ofConfig (config : SessionConfig) : Except Fault Classifier := do
  let kilobytes ← Word.product config.streamingFileMegabytes 1024
  let bytes ← Word.product kilobytes 1024
  return ⟨config.streamingKeywords.map LetterCase.lowerCase, bytes⟩

def mentionsKeyword (classifier : Classifier) (code : String) : Bool :=
  let lowered := (LetterCase.lowerCase code).toList
  classifier.keywords.any fun keyword => occursIn keyword.toList lowered

def namesLargeFile (classifier : Classifier) (files : FileSystem) (code : String) : Bool :=
  (Literal.contents code).any fun name =>
    match (files.named? name).bind Node.length? with
    | some length => classifier.fileThresholdBytes < length
    | none => false

def classify (classifier : Classifier) (files : FileSystem) (code : String) : ExecutionMode :=
  if classifier.mentionsKeyword code || classifier.namesLargeFile files code then .streaming
  else .immediate

end Classifier

end TierVault
