import TierVault.Binary64
import TierVault.Cache.Opening
import TierVault.Cache.Operations
import TierVault.Cache.State
import TierVault.Cache.Statistics
import TierVault.Columnar
import TierVault.CommandLine.Grammar
import TierVault.CommandLine.Invocation
import TierVault.CommandLine.Run
import TierVault.Compression.Frame
import TierVault.Config.Basic
import TierVault.Config.Text
import TierVault.Decimal
import TierVault.Digest
import TierVault.Duration
import TierVault.Entry
import TierVault.Eviction
import TierVault.Fault
import TierVault.FileName
import TierVault.FileSystem.Basic
import TierVault.FileSystem.Calls
import TierVault.FileSystem.Lookup
import TierVault.Json.Kinds
import TierVault.Json.Number
import TierVault.Json.Reader
import TierVault.Json.Record
import TierVault.Json.Skip
import TierVault.Json.Text
import TierVault.Json.Writer
import TierVault.Keyed
import TierVault.LittleEndian
import TierVault.Main
import TierVault.Memory.Manager
import TierVault.Memory.Reading
import TierVault.Memory.Report
import TierVault.Memory.Spill
import TierVault.Metrics
import TierVault.PathTree
import TierVault.Proofs.Action
import TierVault.Proofs.Cache.Accounting
import TierVault.Proofs.Cache.Adoption
import TierVault.Proofs.Cache.Ages
import TierVault.Proofs.Cache.Agreement
import TierVault.Proofs.Cache.Books
import TierVault.Proofs.Cache.Conservation
import TierVault.Proofs.Cache.Freshness
import TierVault.Proofs.Cache.Hits
import TierVault.Proofs.Cache.Lasting
import TierVault.Proofs.Cache.Leftovers
import TierVault.Proofs.Cache.Losses
import TierVault.Proofs.Cache.Mirrored
import TierVault.Proofs.Cache.Opening
import TierVault.Proofs.Cache.Operations
import TierVault.Proofs.Cache.Outcomes
import TierVault.Proofs.Cache.Rebuilding
import TierVault.Proofs.Cache.Rejections
import TierVault.Proofs.Cache.Relief
import TierVault.Proofs.Cache.Reopening
import TierVault.Proofs.Cache.Retreat
import TierVault.Proofs.Cache.Room
import TierVault.Proofs.Cache.Rounds
import TierVault.Proofs.Cache.Runs
import TierVault.Proofs.Cache.Space
import TierVault.Proofs.Cache.Steps
import TierVault.Proofs.Cache.Stocks
import TierVault.Proofs.Cache.Storage
import TierVault.Proofs.Cache.Twins
import TierVault.Proofs.Cache.Watching
import TierVault.Proofs.Compression
import TierVault.Proofs.Eviction
import TierVault.Proofs.Eviction.Order
import TierVault.Proofs.FileSystem
import TierVault.Proofs.FileSystem.Calls
import TierVault.Proofs.FileSystem.Changes
import TierVault.Proofs.FileSystem.Names
import TierVault.Proofs.FileSystem.Orderly
import TierVault.Proofs.Heap
import TierVault.Proofs.Json.Records
import TierVault.Proofs.Keyed
import TierVault.Proofs.Memory.Handles
import TierVault.Proofs.Memory.Latest
import TierVault.Proofs.Memory.Lifecycle
import TierVault.Proofs.Memory.Manager
import TierVault.Proofs.Memory.SpillDirectory
import TierVault.Proofs.Memory.SpillFile
import TierVault.Proofs.PathTree
import TierVault.Proofs.RecencyList
import TierVault.Proofs.Session.Execution
import TierVault.Proofs.Session.Runs
import TierVault.Proofs.Session.Storage
import TierVault.Proofs.Store.Agreement
import TierVault.Proofs.Store.Connection
import TierVault.Proofs.Store.Database
import TierVault.Proofs.Store.Disk
import TierVault.Proofs.Store.DiskBook
import TierVault.Proofs.Store.DiskErrors
import TierVault.Proofs.Store.DiskFiles
import TierVault.Proofs.Store.DiskReading
import TierVault.Proofs.Store.DiskRecords
import TierVault.Proofs.Store.DiskReopening
import TierVault.Proofs.Store.DiskSections
import TierVault.Proofs.Store.DiskSteps
import TierVault.Proofs.Store.DiskTending
import TierVault.Proofs.Store.DiskWeights
import TierVault.Proofs.Store.Faithful
import TierVault.Proofs.Store.Faltering
import TierVault.Proofs.Store.Memory
import TierVault.Proofs.Store.Payload
import TierVault.Proofs.Store.PayloadNames
import TierVault.Proofs.Store.RecentMap
import TierVault.Proofs.Store.Reluctant
import TierVault.Proofs.Store.Reopening
import TierVault.Proofs.Store.SharedBudget
import TierVault.Proofs.Store.SharedCalls
import TierVault.Proofs.Store.SharedDisk
import TierVault.Proofs.Store.SharedSections
import TierVault.Proofs.Store.SharedSteps
import TierVault.Proofs.Store.SideBySide
import TierVault.Proofs.Store.Sturdy
import TierVault.Proofs.Store.Success
import TierVault.Proofs.Stream.Buffer
import TierVault.Proofs.Stream.Cancellation
import TierVault.Proofs.Stream.Closures
import TierVault.Proofs.Stream.Lines
import TierVault.Proofs.Stream.Pipelines
import TierVault.Proofs.Stream.Pool
import TierVault.Proofs.Stream.PoolSteps
import TierVault.Proofs.Stream.Shadows
import TierVault.Proofs.Stream.Supply
import TierVault.Proofs.Stream.Totals
import TierVault.Proofs.Stream.Transforms
import TierVault.Proofs.Sums
import TierVault.Proofs.Tables
import TierVault.Proofs.TextOrder
import TierVault.Proofs.Value.Accepting
import TierVault.Proofs.Value.Canonical
import TierVault.Proofs.Value.Encoding
import TierVault.Proofs.Value.Maps
import TierVault.Proofs.Value.RoundTrip
import TierVault.Proofs.Value.Truncation
import TierVault.RecencyList
import TierVault.Session.Classifier
import TierVault.Session.Execution
import TierVault.Session.Opening
import TierVault.Session.State
import TierVault.Store.Basic
import TierVault.Store.Database
import TierVault.Store.Database.Connection
import TierVault.Store.Database.Error
import TierVault.Store.Database.Name
import TierVault.Store.Disk
import TierVault.Store.Disk.Index
import TierVault.Store.Disk.Sharing
import TierVault.Store.Faulty
import TierVault.Store.Image
import TierVault.Store.Memory
import TierVault.Stream.Basic
import TierVault.Stream.Buffer
import TierVault.Stream.Closure
import TierVault.Stream.Pipeline
import TierVault.Stream.Pool
import TierVault.Stream.Processor
import TierVault.Stream.Source
import TierVault.Stream.Transform
import TierVault.Sums
import TierVault.Text.Hexadecimal
import TierVault.Text.LetterCase
import TierVault.Text.Quoted
import TierVault.Text.Utf8
import TierVault.Tier
import TierVault.Value.Basic
import TierVault.Value.Codec
import TierVault.Value.Table
import TierVault.Zstandard.Codec
import TierVault.Zstandard.Copies
import TierVault.Zstandard.Frame
import TierVault.Zstandard.Literals
import TierVault.Zstandard.PrefixCode
import TierVault.Zstandard.Sequences
import TierVault.Zstandard.StateTable
import TierVault.Proofs.Stream.Windows
import TierVault.Proofs.Stream.Pieces
import TierVault.Proofs.Session.Keywords
import TierVault.Proofs.Session.Literals
import TierVault.Proofs.Cache.Cleaning
import TierVault.Proofs.Cache.Quiet
import TierVault.Proofs.Cache.Lifetimes
import TierVault.Proofs.Cache.Reconciliation
import TierVault.Proofs.Json.Results
import TierVault.Proofs.Settings
import TierVault.Proofs.Cache.Guarding
import TierVault.Proofs.Memory.Sealing
import TierVault.Proofs.Session.Offloading
import TierVault.Proofs.Session.LazyVariables
import TierVault.Proofs.Session.Endings
import TierVault.Proofs.Store.DiskListing
