import Mathlib.Algebra.GroupWithZero.Nat
import TierVault.Config.Text
import TierVault.Proofs.Action
import TierVault.Proofs.Json.Results
import TierVault.Proofs.Session.Keywords
import TierVault.Proofs.Stream.Totals
import TierVault.Session.Opening

/-!
Which settings are accepted, and which of those lead to a product that is no word.

Settings are read as words and not looked at again. Where a setting is multiplied, the product leaves the words from
some setting on; the classifier, the choice of values to offload, the reader of lines and the pool of workers each
have such a product.
-/

namespace TierVault

/-! ## Accepted settings -/

/-- All numbers are words. -/
def Word.Holds (numbers : List Nat) : Prop := ∀ number ∈ numbers, number < Word.limit

@[simp] theorem Word.holds_nil : Word.Holds [] := nofun

@[simp] theorem Word.holds_cons {number : Nat} {numbers : List Nat} :
    Word.Holds (number :: numbers) ↔ number < Word.limit ∧ Word.Holds numbers := List.forall_mem_cons

@[simp] theorem Word.holds_append {first second : List Nat} :
    Word.Holds (first ++ second) ↔ Word.Holds first ∧ Word.Holds second := List.forall_mem_append

instance Word.decidableHolds (numbers : List Nat) : Decidable (Word.Holds numbers) :=
  inferInstanceAs (Decidable (∀ number ∈ numbers, number < Word.limit))

/-! The whole numbers of each part of the settings. -/

def CacheConfig.numbers (config : CacheConfig) : List Nat := config.defaultLifetimeSeconds?.toList

def TierConfig.numbers (config : TierConfig) : List Nat :=
  config.memoryLimit :: config.sqliteLimit :: config.columnarLimit :: config.budgets.toList.map Prod.snd

def CompressionConfig.numbers (config : CompressionConfig) : List Nat := [config.minimumBytes]

def MemoryConfig.numbers (config : MemoryConfig) : List Nat :=
  [config.limitMegabytes, config.spillThresholdMegabytes, config.reclaimThresholdMegabytes,
    config.reclaimIntervalSeconds, config.objectThresholdMegabytes, config.spillFloorBytes, config.historyLength]

def StreamConfig.numbers (config : StreamConfig) : List Nat :=
  [config.chunkSize, config.bufferSize, config.pollMilliseconds, config.workers, config.parallelBatchSize]

def SessionConfig.numbers (config : SessionConfig) : List Nat := [config.streamingFileMegabytes]

def Config.numbers (config : Config) : List Nat :=
  config.cache.numbers ++ config.tiers.numbers ++ config.compression.numbers ++ config.memory.numbers ++
    config.stream.numbers ++ config.session.numbers

section

open Json

variable {Record Item : Type} {numbers : Record → List Nat}

/-- A field that holds a whole number, called by any name. -/
theorem keeps_number {put : Record → Nat → Record} (name : String) (expected : String)
    (puts : ∀ record number, Word.Holds (numbers record) → number < Word.limit →
      Word.Holds (numbers (put record number))) :
    (setting name (natural Word.limit expected) put).Keeps fun record => Word.Holds (numbers record) :=
  keeps_field name true (gives_natural Word.limit expected) puts

/-- A field that holds no whole number. -/
theorem keeps_setting {read : Reader Item} {put : Record → Item → Record} (name : String)
    (same : ∀ record item, numbers (put record item) = numbers record) :
    (setting name read put).Keeps fun record => Word.Holds (numbers record) :=
  keeps_other name true fun record item words => by rwa [same]

theorem CacheConfig.keeps_words :
    ∀ field ∈ CacheConfig.fields, field.Keeps fun config => Word.Holds config.numbers := by
  simp only [CacheConfig.fields, List.forall_mem_cons]
  refine ⟨keeps_setting _ fun _ _ => rfl, keeps_setting _ fun _ _ => rfl, ?_, nofun⟩
  exact keeps_field _ _ (gives_optional (gives_natural Word.limit "u64")) fun _ _ _ small number member =>
    small number (Option.mem_toList.mp member)

theorem TierConfig.keeps_words :
    ∀ field ∈ TierConfig.fields, field.Keeps fun config => Word.Holds config.numbers := by
  have budget (name : String) (tier : Tier) :
      (TierConfig.budgetField name tier).Keeps fun config => Word.Holds config.numbers := by
    refine keeps_number name "u64" ?_
    cases tier <;> simp +contextual [TierConfig.numbers, PerTier.toList, PerTier.set, PerTier.get, Tier.all]
  simp only [TierConfig.fields, List.forall_mem_cons]
  refine ⟨budget _ _, budget _ _, budget _ _, budget _ _, keeps_number _ _ ?_, keeps_number _ _ ?_,
    keeps_number _ _ ?_, keeps_setting _ fun _ _ => rfl, keeps_setting _ fun _ _ => rfl, nofun⟩
  all_goals simp +contextual [TierConfig.numbers]

theorem CompressionConfig.keeps_words :
    ∀ field ∈ CompressionConfig.fields, field.Keeps fun config => Word.Holds config.numbers := by
  simp only [CompressionConfig.fields, List.forall_mem_cons]
  refine ⟨keeps_setting _ fun _ _ => rfl, keeps_setting _ fun _ _ => rfl, keeps_setting _ fun _ _ => rfl,
    keeps_number _ _ ?_, nofun⟩
  simp +contextual [CompressionConfig.numbers]

theorem MemoryConfig.keeps_words :
    ∀ field ∈ MemoryConfig.fields, field.Keeps fun config => Word.Holds config.numbers := by
  simp only [MemoryConfig.fields, List.forall_mem_cons]
  refine ⟨keeps_number _ _ ?_, keeps_number _ _ ?_, keeps_number _ _ ?_, keeps_number _ _ ?_, keeps_number _ _ ?_,
    keeps_number _ _ ?_, keeps_setting _ fun _ _ => rfl, keeps_number _ _ ?_, nofun⟩
  all_goals simp +contextual [MemoryConfig.numbers]

theorem StreamConfig.keeps_words :
    ∀ field ∈ StreamConfig.fields, field.Keeps fun config => Word.Holds config.numbers := by
  simp only [StreamConfig.fields, List.forall_mem_cons]
  refine ⟨keeps_number _ _ ?_, keeps_number _ _ ?_, keeps_number _ _ ?_, keeps_number _ _ ?_, keeps_number _ _ ?_,
    nofun⟩
  all_goals simp +contextual [StreamConfig.numbers]

theorem SessionConfig.keeps_words :
    ∀ field ∈ SessionConfig.fields, field.Keeps fun config => Word.Holds config.numbers := by
  simp only [SessionConfig.fields, List.forall_mem_cons]
  refine ⟨keeps_setting _ fun _ _ => rfl, keeps_number _ _ ?_, keeps_setting _ fun _ _ => rfl, nofun⟩
  simp +contextual [SessionConfig.numbers]

theorem keeps_part {Part : Type} {numbers : Part → List Nat} {fields : List (RecordField Part)} {start : Part}
    {put : Config → Part → Config} (name expected : String)
    (each : ∀ field ∈ fields, field.Keeps fun part => Word.Holds (numbers part))
    (starts : Word.Holds (numbers start))
    (puts : ∀ config part, Word.Holds config.numbers → Word.Holds (numbers part) →
      Word.Holds (put config part).numbers) :
    (Config.part name expected fields start put).Keeps fun config => Word.Holds config.numbers :=
  keeps_field name true (gives_record _ each starts) puts

theorem Config.keeps_words : ∀ field ∈ Config.fields, field.Keeps fun config => Word.Holds config.numbers := by
  simp only [Config.fields, List.forall_mem_cons]
  refine ⟨keeps_part _ _ CacheConfig.keeps_words (by decide) ?_, keeps_part _ _ TierConfig.keeps_words (by decide) ?_,
    keeps_part _ _ CompressionConfig.keeps_words (by decide) ?_, keeps_part _ _ MemoryConfig.keeps_words (by decide) ?_,
    keeps_part _ _ StreamConfig.keeps_words (by decide) ?_, keeps_part _ _ SessionConfig.keeps_words (by decide) ?_,
    nofun⟩
  all_goals simp +contextual [Config.numbers]

/-- Settings that were read hold no number that is no word. -/
theorem Config.holds_of_load {files : FileSystem} {name : String} {config : Config}
    (loaded : Config.load files name = .ok config) : Word.Holds config.numbers := by
  have starts : Word.Holds ({} : Config).numbers := by decide
  unfold Config.load at loaded
  split at loaded
  · cases loaded
    exact starts
  · split at loaded
    · cases loaded
    · split at loaded
      · cases loaded
      · split at loaded
        · rename_i parsed
          cases loaded
          exact whole_gives (gives_record _ Config.keeps_words starts) parsed
        · cases loaded

end

/-! ## Products of settings -/

theorem Word.product_eq_error {left right : Nat} (beyond : Word.limit ≤ left * right) :
    Word.product left right = .error .productOverflow :=
  if_neg (Nat.not_lt.mpr beyond)

/-- From any state the action stops at a product that is no word if the condition holds, and ends if it does not. -/
structure Action.OverflowsIff {State Result : Type} (action : Action State Result) (condition : Prop) : Prop where
  stops : condition → ∀ state, ∃ final, action state = .error .productOverflow final
  ends : ¬condition → ∀ state, ∃ result final, action state = .ok result final

theorem Classifier.ofConfig_eq (config : SessionConfig) :
    Classifier.ofConfig config =
      if config.streamingFileMegabytes < 2 ^ 44 then
        .ok ⟨config.streamingKeywords.map LetterCase.lowerCase, config.streamingFileMegabytes * 1024 * 1024⟩
      else .error .productOverflow := by
  split
  · rename_i small
    refine Classifier.ofConfig_eq_ok ?_
    unfold Word.limit
    omega
  · rename_i large
    unfold Classifier.ofConfig
    by_cases kilobytes : config.streamingFileMegabytes * 1024 < Word.limit
    · rw [Word.product_eq_ok kilobytes]
      change (Word.product _ _ >>= _) = _
      rw [Word.product_eq_error (by unfold Word.limit; omega)]
      rfl
    · rw [Word.product_eq_error (Nat.not_lt.mp kilobytes)]
      rfl

theorem Stream.lineBuffer_eq (chunkSize : Nat) :
    Stream.lineBuffer chunkSize =
      if chunkSize < 2 ^ 58 then .ok (max chunkSize 1 * Stream.bufferBytesPerLine) else .error .productOverflow := by
  split
  · exact Word.product_eq_ok (by unfold Word.limit Stream.bufferBytesPerLine; omega)
  · exact Word.product_eq_error (by unfold Word.limit Stream.bufferBytesPerLine; omega)

namespace MemoryManager

open TierVault.Action

variable {setup : MemorySetup} {value : Value}

theorem leads_checkPressure (memory : ManagedMemory) :
    Leads (fun _ => False) (checkPressure setup) memory fun _ _ => True := by
  unfold checkPressure
  rw [leads_bind]
  trivial

/-- A value is judged unless it may leave memory and the size to compare it with is no word. -/
theorem leads_shouldSpill (memory : ManagedMemory)
    (fits : value.isSerializable = true → setup.config.spillFloorBytes ≤ value.footprint →
      setup.config.objectThresholdMegabytes * bytesPerMegabyte < Word.limit) :
    Leads (fun _ => False) (shouldSpill setup value) memory fun _ _ => True := by
  unfold shouldSpill
  simp only []
  split
  · trivial
  · rename_i leaves
    simp only [Bool.or_eq_true, decide_eq_true_eq, Bool.not_eq_true', not_or, Bool.not_eq_false, Nat.not_lt] at leaves
    rw [Word.product_eq_ok (fits leaves.2 leaves.1), leads_bind, leads_ofExcept_ok]
    split
    · trivial
    · rw [leads_bind]
      exact leads_checkPressure memory

theorem overflowsIff_shouldSpill (setup : MemorySetup) (value : Value) :
    OverflowsIff (shouldSpill setup value)
      (value.isSerializable = true ∧ setup.config.spillFloorBytes ≤ value.footprint ∧
        2 ^ 44 ≤ setup.config.objectThresholdMegabytes) := by
  have words : 2 ^ 44 ≤ setup.config.objectThresholdMegabytes ↔
      Word.limit ≤ setup.config.objectThresholdMegabytes * bytesPerMegabyte := by
    unfold Word.limit bytesPerMegabyte
    omega
  rw [words]
  constructor
  · rintro ⟨storable, above, large⟩ memory
    have leaves : ¬(value.footprint < setup.config.spillFloorBytes || !value.isSerializable) = true := by
      simp [storable, above]
    have weighed : shouldSpill setup value = _ := if_neg leaves
    rw [weighed, Word.product_eq_error large]
    exact ⟨memory, rfl⟩
  · intro fits memory
    have leads := leads_shouldSpill memory fun storable above =>
      Nat.not_le.mp fun large => fits ⟨storable, above, large⟩
    obtain ⟨result, final, ended, -⟩ := leads.ends fun _ => id
    exact ⟨result, final, ended⟩

end MemoryManager

namespace Processor

variable {Item Result : Type}

/-- A fault in a batch costs its results only. -/
theorem workBatch_ends (work : Item → Flow Result) (batch : List Item) (cancelled : Bool) :
    ∃ results final, workBatch work batch cancelled = .ok results final := by
  unfold workBatch
  split
  · exact ⟨_, _, rfl⟩
  · exact ⟨_, _, rfl⟩

theorem workBatches_ends (batches : Stream (List Item)) (work : Item → Flow Result) (bound : Nat)
    (position : batches.Position) (cancelled : Bool) :
    ∃ results final, workBatches batches work bound position cancelled = .ok results final := by
  induction bound generalizing position cancelled with
  | zero => exact ⟨[], cancelled, rfl⟩
  | succ bound induction =>
      unfold workBatches
      split
      · exact ⟨_, _, rfl⟩
      · exact ⟨_, _, rfl⟩
      · rename_i batch position cancelled pulled
        obtain ⟨results, between, worked⟩ := workBatch_ends work batch cancelled
        obtain ⟨others, final, ended⟩ := induction position between
        refine ⟨results :: others, final, ?_⟩
        simp only [bind, EStateM.bind, worked, ended, pure, EStateM.pure]

theorem channels_eq (processor : Processor) :
    processor.channels =
      if processor.workers * 2 < Word.limit ∧ processor.batchSize * processor.workers < Word.limit then
        .ok (processor.workers * 2, processor.batchSize * processor.workers)
      else .error .productOverflow := by
  unfold channels
  by_cases few : processor.workers * 2 < Word.limit
  · rw [Word.product_eq_ok few]
    change (Word.product _ _ >>= _) = _
    split
    · rename_i fits
      rw [Word.product_eq_ok fits.2]
      rfl
    · rename_i beyond
      rw [Word.product_eq_error (Nat.not_lt.mp fun small => beyond ⟨few, small⟩)]
      rfl
  · rw [Word.product_eq_error (Nat.not_lt.mp few), if_neg fun fits => few fits.1]
    rfl

/-- Once its channels are there the pool ends, whatever the work and the stream do. -/
theorem overflowsIff_workOn (config : StreamConfig) (stream : Stream Item) (work : Item → Flow Result) :
    Action.OverflowsIff ((ofConfig config).workOn stream work)
      (2 ^ 63 ≤ config.workers ∨ 2 ^ 64 ≤ max config.parallelBatchSize 1 * max config.workers 1) := by
  have limit : Word.limit = 2 ^ 64 := rfl
  have workers : (ofConfig config).workers = max config.workers 1 := rfl
  have batches : (ofConfig config).batchSize = max config.parallelBatchSize 1 := rfl
  constructor
  · intro beyond cancelled
    unfold workOn
    rw [channels_eq, workers, batches, if_neg (by omega)]
    exact ⟨cancelled, rfl⟩
  · intro fits cancelled
    unfold workOn
    rw [channels_eq, workers, batches, if_pos (by omega)]
    exact workBatches_ends _ _ _ _ cancelled

end Processor

/-! ## What accepted settings lead to -/

namespace Config

variable {files : FileSystem} {name : String} {config : Config}

/-- Every number among accepted settings is a word, and that is all that is known of it. A product of settings leaves
the words for the classifier, for the values that are large enough, for files of lines and for the pool of workers
from these settings on, and from no others. -/
theorem overflows_of_load (loaded : Config.load files name = .ok config) :
    Word.Holds config.numbers ∧
      (Classifier.ofConfig config.session =
        if config.session.streamingFileMegabytes < 2 ^ 44 then
          .ok ⟨config.session.streamingKeywords.map LetterCase.lowerCase,
            config.session.streamingFileMegabytes * 1024 * 1024⟩
        else .error .productOverflow) ∧
      (∀ (sources : SessionSources) (value : Value),
        Action.OverflowsIff (MemoryManager.shouldSpill (.ofConfig sources config) value)
          (value.isSerializable = true ∧ config.memory.spillFloorBytes ≤ value.footprint ∧
            2 ^ 44 ≤ config.memory.objectThresholdMegabytes)) ∧
      (∀ content : Bytes, (StreamHistory.ofLines content config.stream.chunkSize).run =
        if config.stream.chunkSize < 2 ^ 58 then .ok (.ofLines content config.stream.chunkSize, false)
        else .error .productOverflow) ∧
      ∀ {Item Result : Type} (stream : Stream Item) (work : Item → Flow Result),
        Action.OverflowsIff ((Processor.ofConfig config.stream).workOn stream work)
          (2 ^ 63 ≤ config.stream.workers ∨
            2 ^ 64 ≤ max config.stream.parallelBatchSize 1 * max config.stream.workers 1) := by
  refine ⟨holds_of_load loaded, Classifier.ofConfig_eq config.session, fun sources value =>
    MemoryManager.overflowsIff_shouldSpill (.ofConfig sources config) value, fun content => ?_, fun stream work =>
    Processor.overflowsIff_workOn config.stream stream work⟩
  rw [StreamHistory.run, Stream.lineBuffer_eq]
  by_cases small : config.stream.chunkSize < 2 ^ 58
  · simp only [if_pos small]
  · simp only [if_neg small]

deriving instance DecidableEq for Except, PerTier, TierConfig, Config

/-- The working directory with a file of settings in it. -/
def fileOf (text : String) : FileSystem :=
  (FileSystem.start []).place ["config.json"] (.file (Utf8.encode text))

/-- What is in the file is a text, and so it is only a matter of parsing it. -/
theorem load_fileOf (text : String) :
    Config.load (fileOf text) "config.json" = (parse (Utf8.encode text)).mapError .text := by
  have named : (fileOf text).named? "config.json" = some (.file (Utf8.encode text)) := by rfl
  rw [Config.load, named]
  simp only [Node.content?, Utf8.decode_encode]
  cases parse (Utf8.encode text) <;> rfl

/-- Settings of which one more would be too much for the classifier and for files of lines. The workers and their
batches are small, but not together. -/
def edge : Config where
  session := { streamingFileMegabytes := 17592186044415 }
  memory := { objectThresholdMegabytes := 17592186044416 }
  stream := { chunkSize := 288230376151711743, workers := 4294967296, parallelBatchSize := 4294967296 }

def edgeText : String :=
  "\x7b\"session\": \x7b\"streaming_file_threshold_mb\": 17592186044415\x7d, " ++
    "\"memory\": \x7b\"object_size_threshold_mb\": 17592186044416\x7d, " ++
    "\"stream\": \x7b\"chunk_size\": 288230376151711743, \"max_workers\": 4294967296, " ++
    "\"parallel_batch_size\": 4294967296\x7d\x7d"

theorem load_edge : Config.load (fileOf edgeText) "config.json" = .ok edge := by
  rw [load_fileOf]
  decide +kernel

/-- The classifier is made and files of lines open; large values that can be stored lead to an overflow, and so does
every pool. -/
theorem overflows_of_load_edge :
    Config.load (fileOf edgeText) "config.json" = .ok edge ∧
      (∃ classifier, Classifier.ofConfig edge.session = .ok classifier) ∧
      (∀ (sources : SessionSources) (value : Value),
        Action.OverflowsIff (MemoryManager.shouldSpill (.ofConfig sources edge) value)
          (value.isSerializable = true ∧ 1048576 ≤ value.footprint)) ∧
      (∀ content : Bytes, (StreamHistory.ofLines content edge.stream.chunkSize).run =
        .ok (.ofLines content edge.stream.chunkSize, false)) ∧
      ∀ {Item Result : Type} (stream : Stream Item) (work : Item → Flow Result),
        Action.OverflowsIff ((Processor.ofConfig edge.stream).workOn stream work) True := by
  obtain ⟨-, classifier, spills, lines, pool⟩ := overflows_of_load load_edge
  refine ⟨load_edge, ⟨_, classifier.trans (if_pos (by decide))⟩, fun sources value => ?_, fun content =>
    (lines content).trans (if_pos (by decide)), fun stream work => ?_⟩
  · have same : (value.isSerializable = true ∧ edge.memory.spillFloorBytes ≤ value.footprint ∧
        2 ^ 44 ≤ edge.memory.objectThresholdMegabytes) ↔
          value.isSerializable = true ∧ 1048576 ≤ value.footprint :=
      and_congr_right fun _ => and_iff_left (by decide)
    rw [← same]
    exact spills sources value
  · have always : (2 ^ 63 ≤ edge.stream.workers ∨
        2 ^ 64 ≤ max edge.stream.parallelBatchSize 1 * max edge.stream.workers 1) ↔ True := by decide
    rw [← always]
    exact pool stream work

/-- Settings that lead to all four overflows. -/
def steep : Config where
  session := { streamingFileMegabytes := 17592186044416 }
  memory := { objectThresholdMegabytes := 17592186044416, spillFloorBytes := 0 }
  stream := { chunkSize := 288230376151711744, workers := 9223372036854775808 }

def steepText : String :=
  "\x7b\"session\": \x7b\"streaming_file_threshold_mb\": 17592186044416\x7d, " ++
    "\"memory\": \x7b\"object_size_threshold_mb\": 17592186044416, \"spill_floor_bytes\": 0\x7d, " ++
    "\"stream\": \x7b\"chunk_size\": 288230376151711744, \"max_workers\": 9223372036854775808\x7d\x7d"

theorem load_steep : Config.load (fileOf steepText) "config.json" = .ok steep := by
  rw [load_fileOf]
  decide +kernel

/-- Accepted settings with which no classifier is made, the smallest value cannot be judged, no file of lines opens and
no pool starts. -/
theorem load_steep_overflows :
    Config.load (fileOf steepText) "config.json" = .ok steep ∧
      Classifier.ofConfig steep.session = .error .productOverflow ∧
      (∀ (sources : SessionSources) (memory : ManagedMemory), ∃ final,
        MemoryManager.shouldSpill (.ofConfig sources steep) .null memory = .error .productOverflow final) ∧
      (∀ content : Bytes, (StreamHistory.ofLines content steep.stream.chunkSize).run = .error .productOverflow) ∧
      ∀ (stream : Stream Value) (work : Value → Flow Value) (cancelled : Bool), ∃ final,
        (Processor.ofConfig steep.stream).workOn stream work cancelled = .error .productOverflow final := by
  refine ⟨load_steep, (Classifier.ofConfig_eq _).trans (if_neg (by decide)), fun sources memory => ?_,
    fun content => ?_, fun stream work cancelled => ?_⟩
  · have large : 2 ^ 44 ≤ steep.memory.objectThresholdMegabytes := by decide
    exact (MemoryManager.overflowsIff_shouldSpill _ _).stops ⟨rfl, Nat.zero_le _, large⟩ memory
  · rw [StreamHistory.run, Stream.lineBuffer_eq, if_neg (by decide)]
  · exact (Processor.overflowsIff_workOn steep.stream stream work).stops (.inl (by decide)) cancelled

end Config

end TierVault
