import Panloader.PanwrapDecoder
import Panloader.MaliIoctl
import Panloader.IoctlDecode
import Panloader.PanwrapSyscall
import Panloader.QuietStatements
import Panloader.QuietDecoders
import Panloader.WrapperSpecs
import Panloader.Runs
import Panloader.Transparency
import Panloader.Translation
import Panloader.FirstMatch
import Panloader.OwnerLookup
import Panloader.FailedCalls
import Panloader.Unmapping
import Panloader.Provenance
import Panloader.PendingList
import Panloader.Decides
import Panloader.DecoderOutcome
import Panloader.JobChains
import Panloader.Submission
import Panloader.IntrusiveList
import Panloader.TrackerHeap
import Panloader.TrackerLists
import Panloader.PlainPrograms
import Panloader.DeviceDescriptors
import Panloader.CursorLoops
import Panloader.AttributeWalk
import Panloader.AttributeLists
import Panloader.Observers
import Panloader.AttributeRows
import Panloader.PrintedLines
import Panloader.ChainTraces
import Panloader.AtomDependencies
import Panloader.ArgumentBytes
import Panloader.CertainReads
import Panloader.IoctlCases
import Panloader.FrozenTime
import Panloader.MaskDecomposition
import Panloader.FlagNames
import Panloader.AbruptEnds
import Panloader.ExternalResources
import Panloader.CoreRequirements
import Panloader.IoctlTable
import Panloader.EventsAll
import Panloader.GpuProps
import Panloader.ReportedErrors
import Panloader.HexdumpLength
import Panloader.SyncDumps
import Panloader.MemoryAssertions
import Panloader.PeriodicWalks
import Panloader.ArithmeticFaults
import Panloader.LogStamps
import Panloader.HexText
import Panloader.PrintedText
import Panloader.HexdumpText
import Panloader.HexdumpReading
import Panloader.IntLoops
import Panloader.HexdumpIndex
import Panloader.LockedSections
import Panloader.PanwrapThreads
import Panloader.Interleavings
import Panloader.Outlines
import Panloader.LogOutline
import Panloader.NestedDecoders
import Panloader.LogForest
import Panloader.LogReplay
import Panloader.Erasure
import Panloader.Unstamped
import Panloader.Clients
import Panloader.WholePrograms
import Panloader.Pandev
import Panloader.TracedReads
import Panloader.SharedCells
import Panloader.PanwrapInit
import Panloader.PanwrapProlog
import Panloader.LockedParts
import Panloader.LogTimes
import Panloader.KernelFiles
import Panloader.DescriptorRaces
import Panloader.DeviceFollowed
import Panloader.ForwardedCalls
import Panloader.SubmissionReads
import Panloader.TracedAreas
