import TierVault.Config.Basic
import TierVault.FileSystem.Lookup
import TierVault.Json.Record
import TierVault.Json.Writer

/-!
Settings as JSON, and settings from a file.

Every part and every field may be missing and then has its default; unknown fields are ignored. A
part may also be written as a list of its fields in the order given here.
-/

namespace TierVault

open Json (RecordField field Reader Defect Document)

/-- A word; defects call it by its short name. -/
def wordReader : Reader Nat := Json.natural Word.limit "u64"

/-- A count of things in memory. -/
def countReader : Reader Nat := Json.natural Word.limit "usize"

def textsReader : Reader (List String) := Json.listOf (Json.string "a string")

/-- A field that may be missing. -/
def setting {Record Item : Type} (name : String) (read : Reader Item)
    (put : Record → Item → Record) : RecordField Record :=
  field name read put true

def CacheConfig.fields : List (RecordField CacheConfig) :=
  [setting "cache_dir" (Json.string "path string") fun config text =>
      { config with directory := text },
    setting "clear_on_open" Json.truth fun config truth => { config with clearOnOpen := truth },
    setting "default_ttl_secs" (Json.optional wordReader) fun config seconds? =>
      { config with defaultLifetimeSeconds? := seconds? }]

def TierConfig.budgetField (name : String) (tier : Tier) : RecordField TierConfig :=
  setting name wordReader fun config bytes =>
    { config with budgets := config.budgets.set tier bytes }

def TierConfig.fields : List (RecordField TierConfig) :=
  [budgetField "memory_budget" .memory,
    budgetField "sqlite_budget" .sqlite,
    budgetField "columnar_budget" .columnar,
    budgetField "compressed_budget" .compressed,
    setting "memory_max_entry" wordReader fun config bytes => { config with memoryLimit := bytes },
    setting "sqlite_max_entry" wordReader fun config bytes => { config with sqliteLimit := bytes },
    setting "columnar_max_entry" wordReader fun config bytes =>
      { config with columnarLimit := bytes },
    setting "promotion_threshold" (Json.float "f64") fun config number =>
      { config with promotionThreshold := number },
    setting "columnar_parquet" Json.truth fun config truth => { config with columnarFiles := truth }]

def CompressionConfig.fields : List (RecordField CompressionConfig) :=
  [setting "sqlite_compression" Json.truth fun config truth => { config with database := truth },
    setting "columnar_tier_compression" Json.truth fun config truth =>
      { config with columnarTier := truth },
    setting "zstd_level" (Json.integer 2147483648 "i32") fun config level =>
      { config with level := level },
    setting "min_compress_bytes" countReader fun config bytes =>
      { config with minimumBytes := bytes }]

def MemoryConfig.fields : List (RecordField MemoryConfig) :=
  [setting "memory_limit_mb" wordReader fun config amount => { config with limitMegabytes := amount },
    setting "spill_threshold_mb" wordReader fun config amount =>
      { config with spillThresholdMegabytes := amount },
    setting "gc_threshold_mb" wordReader fun config amount =>
      { config with reclaimThresholdMegabytes := amount },
    setting "gc_interval_secs" wordReader fun config amount =>
      { config with reclaimIntervalSeconds := amount },
    setting "object_size_threshold_mb" wordReader fun config amount =>
      { config with objectThresholdMegabytes := amount },
    setting "spill_floor_bytes" wordReader fun config amount =>
      { config with spillFloorBytes := amount },
    setting "pressure_ratio" (Json.float "f64") fun config number =>
      { config with pressureRatio := number },
    setting "history_len" countReader fun config amount => { config with historyLength := amount }]

def StreamConfig.fields : List (RecordField StreamConfig) :=
  [setting "chunk_size" countReader fun config amount => { config with chunkSize := amount },
    setting "buffer_size" countReader fun config amount => { config with bufferSize := amount },
    setting "poll_interval_ms" wordReader fun config amount =>
      { config with pollMilliseconds := amount },
    setting "max_workers" countReader fun config amount => { config with workers := amount },
    setting "parallel_batch_size" countReader fun config amount =>
      { config with parallelBatchSize := amount }]

def SessionConfig.fields : List (RecordField SessionConfig) :=
  [setting "streaming_keywords" textsReader fun config words =>
      { config with streamingKeywords := words },
    setting "streaming_file_threshold_mb" wordReader fun config amount =>
      { config with streamingFileMegabytes := amount },
    setting "skip_prefixes" textsReader fun config words =>
      { config with skippedBeginnings := words }]

namespace Config

/-- A part of the settings, which is a record of its own. -/
def part {Part : Type} (name : String) (expected : String) (fields : List (RecordField Part))
    (start : Part) (put : Config → Part → Config) : RecordField Config :=
  setting name (Json.record ("struct " ++ expected) fields start) put

def fields : List (RecordField Config) :=
  [part "cache" "CacheConfig" CacheConfig.fields {} fun config part => { config with cache := part },
    part "tiers" "TierConfig" TierConfig.fields {} fun config part => { config with tiers := part },
    part "compression" "CompressionConfig" CompressionConfig.fields {} fun config part =>
      { config with compression := part },
    part "memory" "MemoryConfig" MemoryConfig.fields {} fun config part =>
      { config with memory := part },
    part "stream" "StreamConfig" StreamConfig.fields {} fun config part =>
      { config with stream := part },
    part "session" "SessionConfig" SessionConfig.fields {} fun config part =>
      { config with session := part }]

/-- Reads settings from the bytes of a JSON text. -/
def parse (text : Bytes) : Except Defect Config :=
  Json.whole (Json.record "struct Config" fields {}) text

/-- Default settings for a cache in `directory`. -/
def inDirectory (directory : String) : Config := { cache := { directory } }

def document (config : Config) : Document :=
  let natural (number : Nat) : Document := .integer number
  .object
    [("cache", .object
      [("cache_dir", .string config.cache.directory),
        ("clear_on_open", .truth config.cache.clearOnOpen),
        ("default_ttl_secs", match config.cache.defaultLifetimeSeconds? with
          | some seconds => natural seconds
          | none => .null)]),
      ("tiers", .object
        [("memory_budget", natural config.tiers.budgets.memory),
          ("sqlite_budget", natural config.tiers.budgets.sqlite),
          ("columnar_budget", natural config.tiers.budgets.columnar),
          ("compressed_budget", natural config.tiers.budgets.compressed),
          ("memory_max_entry", natural config.tiers.memoryLimit),
          ("sqlite_max_entry", natural config.tiers.sqliteLimit),
          ("columnar_max_entry", natural config.tiers.columnarLimit),
          ("promotion_threshold", .float config.tiers.promotionThreshold),
          ("columnar_parquet", .truth config.tiers.columnarFiles)]),
      ("compression", .object
        [("sqlite_compression", .truth config.compression.database),
          ("columnar_tier_compression", .truth config.compression.columnarTier),
          ("zstd_level", .integer config.compression.level),
          ("min_compress_bytes", natural config.compression.minimumBytes)]),
      ("memory", .object
        [("memory_limit_mb", natural config.memory.limitMegabytes),
          ("spill_threshold_mb", natural config.memory.spillThresholdMegabytes),
          ("gc_threshold_mb", natural config.memory.reclaimThresholdMegabytes),
          ("gc_interval_secs", natural config.memory.reclaimIntervalSeconds),
          ("object_size_threshold_mb", natural config.memory.objectThresholdMegabytes),
          ("spill_floor_bytes", natural config.memory.spillFloorBytes),
          ("pressure_ratio", .float config.memory.pressureRatio),
          ("history_len", natural config.memory.historyLength)]),
      ("stream", .object
        [("chunk_size", natural config.stream.chunkSize),
          ("buffer_size", natural config.stream.bufferSize),
          ("poll_interval_ms", natural config.stream.pollMilliseconds),
          ("max_workers", natural config.stream.workers),
          ("parallel_batch_size", natural config.stream.parallelBatchSize)]),
      ("session", .object
        [("streaming_keywords", .list (config.session.streamingKeywords.map .string)),
          ("streaming_file_threshold_mb", natural config.session.streamingFileMegabytes),
          ("skip_prefixes", .list (config.session.skippedBeginnings.map .string))])]

end Config

end TierVault

/-! ## Settings from a file -/

namespace TierVault.Config

inductive LoadError
  | io (error : IoError)
  | text (defect : Json.Defect)
  deriving DecidableEq

/-- Settings in the file of that name; the defaults if there is none. -/
def load (files : FileSystem) (name : String) : Except LoadError Config :=
  match files.named? name with
  | none => .ok {}
  | some node =>
    match node.content? with
    | none => .error (.io .isADirectory)
    | some content =>
      match Utf8.decode content with
      | .error _ => .error (.io .invalidData)
      | .ok _ =>
        match parse content with
        | .ok config => .ok config
        | .error defect => .error (.text defect)

end TierVault.Config
