import Adb.TransitionSystems
import Adb.EventInterest
import Adb.EventRegistry
import Adb.DescriptorIo
import Adb.FragmentedStreams
import Adb.LittleEndian
import Adb.ExactIo
import Adb.Numerals
import Adb.ProtocolStrings
import Adb.ShellProtocol
import Adb.ExactConsumers
import Adb.SyncMessages
import Adb.SyncService
import Adb.StoppingPrograms
import Adb.SyncClient
import Adb.SyncTransfers
import Adb.ServiceConnection
import Adb.SyncClientRuns
import Adb.SyncServiceRuns
import Adb.SendStates
import Adb.SyncLockstep
import Adb.TransferRules
import Adb.SyncSessions
import Adb.PushEndToEnd
import Adb.WirePackets
import Adb.ConnectionLimits
import Adb.TcpWire
import Adb.SocketTable
import Adb.SocketOperations
import Adb.SmartSockets
import Adb.SocketEvents
import Adb.ServerState
import Adb.ConnectNegotiation
import Adb.ServerRuns
import Adb.SocketClosing
import Adb.SocketGraph
import Adb.SocketEffects
import Adb.OperationEffects
import Adb.SmartEffects
import Adb.EnqueueContract
import Adb.StreamEffects
import Adb.CallbackEffects
import Adb.ServerEffects
import Adb.ReadAccounting
import Adb.Histories
import Adb.ClosingDrain
import Adb.TransportIsolation
import Adb.AuthEffects
import Adb.AuthGate
import Adb.ChallengeTokens
import Adb.KeyConfirmation
import Adb.PayloadBounds
import Adb.GraphInvariants
import Adb.Banners
import Adb.SendFileTermination
import Adb.ListenerRegistration
import Adb.SmartsocketProtection
import Adb.RunQueue
import Adb.TransportRegistry
import Adb.PullEndToEnd
import Adb.PullContainment
import Adb.HostSerials
import Adb.ShellQuoting
import Adb.FrameReassembly
import Adb.ShellSubprocess
import Adb.SelectSets
import Adb.ShellStreams
import Adb.UpToDate
import Adb.LocalListing
import Adb.RemoteListing
import Adb.PullListing
import Adb.DirectoryPush
import Adb.PushTruth
import Adb.HostReplies
import Adb.SingleReplies
import Adb.WireErrnos
import Adb.SideloadBlocks
import Adb.StdinEscapes
import Adb.TransportTargets
import Adb.TransportSelection
import Adb.EmulatorSlots
import Adb.OwningRemoval
import Adb.ListenerObjects
import Adb.TransportClosing
import Adb.JdwpHandoff
import Adb.WindowsDescriptors
import Adb.ConsoleUtf8
import Adb.BugreportLines
import Adb.UsbScan
import Adb.DirectoryCreation
import Adb.BulkPipes
import Adb.UsbFraming
import Adb.UsbReception
import Adb.KeyPasses
import Adb.AuthHandshake
import Adb.OfflineTransports
import Adb.StreamSends
import Adb.TransportThreads
import Adb.TransportDeletion
import Adb.StreamCallbacks
import Adb.StreamPacing
import Adb.StreamProtocol
import Adb.StreamViews
import Adb.StreamMessages
import Adb.FlowControl
import Adb.LinkedEndpoints
import Adb.CreditFlow
import Adb.StreamRests
import Adb.StreamLedger
import Adb.LedgerCallbacks
import Adb.StreamAccounts
import Adb.StreamCredit
