import Chttpc.Program
import Chttpc.Ring
import Chttpc.Runs
import Chttpc.Hashmap
import Chttpc.HeaderKey
import Chttpc.CurlData
import Chttpc.HeaderCallback
import Chttpc.HeaderAccess
import Chttpc.RequestHeaders
import Chttpc.BodyCallback
import Chttpc.HeaderRun
import Chttpc.HeaderRings
import Chttpc.HeaderSlots
import Chttpc.HeaderBlocks
import Chttpc.HeaderLookup
import Chttpc.HeaderArray
import Chttpc.HeaderMap
import Chttpc.Transfer
import Chttpc.NativeCalls
import Chttpc.CallRules
import Chttpc.BusyLock
import Chttpc.PauseBits
import Chttpc.Redelivery
import Chttpc.Download
import Chttpc.Upload
import Chttpc.Streams
import Chttpc.FilledRead
import Chttpc.DeclaredLength
import Chttpc.Handover
import Chttpc.MutableUrl
import Chttpc.UrlText
import Chttpc.DoublyLinked
import Chttpc.CleanerRef
import Chttpc.RequestEdits
import Chttpc.RequestReadback
import Chttpc.ReadYourWrites
import Chttpc.UrlUpdate
import Chttpc.CurlConnection
import Chttpc.ConfigureProtocol
import Chttpc.RequestNames
import Chttpc.LoopRuns
import Chttpc.ShortReads
import Chttpc.ReadResult
import Chttpc.ByteReads
import Chttpc.Timeouts
import Chttpc.LineScan
import Chttpc.HeaderPositions
import Chttpc.HeaderLengths
import Chttpc.HeaderRelease
import Chttpc.FailedInsertion
import Chttpc.NumericHeaders
import Chttpc.HeaderPairs
import Chttpc.RequestProperties
import Chttpc.UrlSpace
import Chttpc.UrlSequence
import Chttpc.NumberChars
import Chttpc.AppendNumber
import Chttpc.RequestBuffer
import Chttpc.KeyCompare
import Chttpc.RequestScratch
import Chttpc.ExactDigits
import Chttpc.HashKey
import Chttpc.HashmapGrowth
import Chttpc.HashmapMemory
import Chttpc.NativeSteps
import Chttpc.Interleaving
import Chttpc.RequestMemory
import Chttpc.GivenHeaders
import Chttpc.StreamObjects
import Chttpc.HandleOptions
import Chttpc.ProxyOptions
import Chttpc.AgreedOptions
import Chttpc.Attempts
import Chttpc.JavaExceptions
import Chttpc.ReportedFailures
import Chttpc.SilentDrops
import Chttpc.SideBySide
import Chttpc.HashmapRelated
import Chttpc.HeaderTwins
import Chttpc.HeaderMerged
import Chttpc.HeaderAnswers
import Chttpc.ResponseStore
import Chttpc.SameResponse
import Chttpc.ResetConnection
import Chttpc.ForgottenResponse
