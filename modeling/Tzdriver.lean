import Tzdriver.DyadicTiling
import Tzdriver.MailboxPool
import Tzdriver.MailboxPartition
import Tzdriver.MailboxCoalescing
import Tzdriver.MailboxDoubleFree
import Tzdriver.ActionSystem
import Tzdriver.SmcQueue
import Tzdriver.SmcQueueOwnership
import Tzdriver.SmcQueueRelease
import Tzdriver.SmcReplies
import Tzdriver.TeecToken
import Tzdriver.ClientCall
import Tzdriver.TraceExtension
import Tzdriver.ClientCallTrace
import Tzdriver.ParkedCommand
import Tzdriver.CopyOut
import Tzdriver.AgentHandshake
import Tzdriver.AgentResponse
import Tzdriver.RefLedger
import Tzdriver.SessionManager
import Tzdriver.SessionLedger
import Tzdriver.SessionOps
import Tzdriver.SessionLists
import Tzdriver.SessionClosing
import Tzdriver.SessionRefs
import Tzdriver.SessionCounts
import Tzdriver.TimerNotify
import Tzdriver.SessionFrames
import Tzdriver.FirstMatch
import Tzdriver.AgentList
import Tzdriver.DeviceClose
import Tzdriver.DeviceTraces
import Tzdriver.CallOutcome
import Tzdriver.OpenedSessionId
import Tzdriver.CallInputs
import Tzdriver.TeeSessions
import Tzdriver.TeeAgreement
import Tzdriver.AgentRestart
import Tzdriver.CallResources
import Tzdriver.TimestampSync
import Tzdriver.TokenFrame
import Tzdriver.PendingWait
import Tzdriver.TimeoutSchedule
import Tzdriver.ShadowThread
import Tzdriver.NotifyTable
import Tzdriver.SharedMemory
import Tzdriver.SharedMemoryRefs
import Tzdriver.SharedMemoryIndex
import Tzdriver.TloggerRead
import Tzdriver.TloggerBounds
import Tzdriver.MemoryCells
import Tzdriver.ByteRange
import Tzdriver.TloggerRing
import Tzdriver.TloggerParse
import Tzdriver.TloggerDelivery
import Tzdriver.TloggerPoll
import Tzdriver.BoundsCheck
import Tzdriver.LoginInfo
import Tzdriver.LoginMessage
import Tzdriver.LoginEncryption
import Tzdriver.TeecdAuth
import Tzdriver.TaskHash
import Tzdriver.TokenResidue
import Tzdriver.MailboxDebug
import Tzdriver.CmdMonitor
import Tzdriver.AgentRegister
import Tzdriver.AgentRegistrations
import Tzdriver.TloggerArchive
import Tzdriver.LoadImage
import Tzdriver.WordMemory
import Tzdriver.PartialAccess
import Tzdriver.TimeoutSteps
import Tzdriver.TeekOperation
import Tzdriver.TeekLogin
import Tzdriver.TeekParams
import Tzdriver.MemoryPieces
import Tzdriver.Hibernation
import Tzdriver.HibernationRestore
import Tzdriver.HibernationLedger
import Tzdriver.PendingEntries
import Tzdriver.PendingRefs
import Tzdriver.PendingLookup
import Tzdriver.NotifyIrq
import Tzdriver.CallbackList
import Tzdriver.OwnedItems
import Tzdriver.MailboxCommands
import Tzdriver.MailboxUsers
import Tzdriver.FixedLayout
import Tzdriver.SecureParams
import Tzdriver.SecureExchange
import Tzdriver.SessionSecrets
import Tzdriver.CallCode
import Tzdriver.TeekSession
import Tzdriver.OpenCode
import Tzdriver.TeekOutcome
import Tzdriver.DeviceCalls
import Tzdriver.DeviceTable
import Tzdriver.SmcSend
import Tzdriver.SmcConformance
