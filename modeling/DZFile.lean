import DZFile.Library.Transition
import DZFile.Library.Interaction
import DZFile.Library.ByteSeq
import DZFile.Library.CBuffer
import DZFile.Names
import DZFile.Codec
import DZFile.Image
import DZFile.Metadata
import DZFile.Kernel
import DZFile.Api
import DZFile.WrittenBytes
import DZFile.FileMeta
import DZFile.Layout
import DZFile.Converter
import DZFile.Staging
import DZFile.Crash
import DZFile.ReadBack
import DZFile.Opening
import DZFile.Sequential
import DZFile.Publishing
import DZFile.Sharing
import DZFile.Writers
import DZFile.Unlink
import DZFile.Walker
import DZFile.HiddenNames
import DZFile.Protection
import DZFile.Reaching
import DZFile.Isolation
import DZFile.ThreadPool
import DZFile.Library.Locking
import DZFile.DbLock
import DZFile.DescriptorMap
import DZFile.Library.RangeLocks
import DZFile.Put
import DZFile.PutLocks
import DZFile.Scan
import DZFile.Dstat
import DZFile.Conversion
import DZFile.DiskUsage
import DZFile.Placeholder
import DZFile.Readers
import DZFile.PutContent
import DZFile.Race
import DZFile.Pread
import DZFile.Damaged
import DZFile.Boundaries
import DZFile.Retry
import DZFile.Cleanup
import DZFile.Deletion
import DZFile.Library.BoundedCalls
import DZFile.Get
import DZFile.GetContent
import DZFile.Library.Strtok
import DZFile.SysdirScan
import DZFile.SuffixReads
import DZFile.Listing
import DZFile.Blacklist
import DZFile.Library.Sql
import DZFile.Statements
import DZFile.Quoting
import DZFile.RowCount
import DZFile.Library.FileTree
import DZFile.ParentDir
import DZFile.HandedOut
import DZFile.Library.Scatter
import DZFile.Vectored
import DZFile.Library.Contracts
import DZFile.Backtrace
import DZFile.Library.Simulation
import DZFile.Library.WholeRuns
import DZFile.Confinement
import DZFile.Contents
import DZFile.StoreConversion
import DZFile.StorePut
import DZFile.StoreGet
import DZFile.StoreDeletion
import DZFile.Session
import DZFile.LogLine
import DZFile.Logging
import DZFile.Library.Interleaving
import DZFile.Separation
import DZFile.Parallel
import DZFile.ParallelTools
import DZFile.Library.Shares
import DZFile.Threads
import DZFile.WalkerStore
