import WinDV.Transition
import WinDV.EndOfStream
import WinDV.Sha256
import WinDV.Sha256Stream
import WinDV.AVICheck
import WinDV.AVIWalk
import WinDV.AVIIndex
import WinDV.AVIVerdict
import WinDV.ChunkChain
import WinDV.AVISound
import WinDV.AVIRead
import WinDV.AVIEncode
import WinDV.AVIRoundTrip
import WinDV.Verification
import WinDV.CAVIWriter
import WinDV.CDV
import WinDV.CapturingThread
import WinDV.CaptureBlocks
import WinDV.CaptureLoop
import WinDV.RecordingTimes
import WinDV.FileSplit
import WinDV.FailureContainment
import WinDV.CaptureLog
import WinDV.CaptureWorker
import WinDV.Segments
import WinDV.LiveWorker
import WinDV.QueueFifo
import WinDV.QueueWakeups
import WinDV.CaptureFilename
import WinDV.UniqueNames
import WinDV.AVIJoiner
import WinDV.PlaybackOrder
import WinDV.DVTime
import WinDV.JoinerOrder
import WinDV.NamedByTime
import WinDV.Outcome
import WinDV.Pipeline
import WinDV.PipelineState
import WinDV.RecordingOrder
import WinDV.Sidecar
import WinDV.SidecarRoundTrip
import WinDV.BorrowedSlot
import WinDV.BlockFifo
import WinDV.DeliveredCounts
import WinDV.PaddingWrap
import WinDV.EachFile
import WinDV.OutputGraph
import WinDV.PresentationTimes
import WinDV.RecordingDate
import WinDV.AVIReport
import WinDV.CaptureDuration
import WinDV.FileHash
import WinDV.ShortestPrefix
import WinDV.TimedCapture
import WinDV.CaptureLogFile
import WinDV.CaptureBase
import WinDV.DVError
import WinDV.Monitor
import WinDV.PreviewHandOff
import WinDV.SessionErrors
import WinDV.PlaybackTape
import WinDV.ArchiveKept
import WinDV.EndCapture
import WinDV.CaptureReturns
import WinDV.CaptureSidecars
import WinDV.FramePath
import WinDV.FinalizeProgress
