import Chiaki.Infra.Transition
import Chiaki.Infra.Serial
import Chiaki.Seqnum
import Chiaki.Common
import Chiaki.Infra.Window
import Chiaki.ReorderQueue
import Chiaki.Properties.ReorderQueue
import Chiaki.Infra.Segment
import Chiaki.KeyState
import Chiaki.Properties.Takion.SendBuffer
import Chiaki.Takion.Packet
import Chiaki.Infra.History
import Chiaki.Takion.Send
import Chiaki.Properties.Takion.Send
import Chiaki.Properties.Takion.SendAck
import Chiaki.Takion.Thread
import Chiaki.Properties.Takion.Packet
import Chiaki.Properties.Takion.Thread
import Chiaki.Properties.Takion.Authentication
import Chiaki.Properties.Takion.DataAck
import Chiaki.Properties.Takion.Delivery
import Chiaki.Properties.Takion.Reack
import Chiaki.Infra.LittleEndian
import Chiaki.GKCrypt
import Chiaki.Properties.GKCrypt.KeyStream
import Chiaki.Infra.Ring
import Chiaki.Properties.GKCrypt.KeyBuf
import Chiaki.Ctrl.Message
import Chiaki.Ctrl.Thread
import Chiaki.Infra.Framing
import Chiaki.Properties.Ctrl.Message
import Chiaki.Properties.Ctrl.WakeUp
import Chiaki.Properties.Ctrl.Framing
import Chiaki.FrameProcessor
import Chiaki.Properties.FrameProcessor
import Chiaki.Properties.Takion.KeyPosition
import Chiaki.Properties.Takion.Postponed
import Chiaki.GMac
import Chiaki.Infra.Memo
import Chiaki.Properties.GKCrypt.GMac
import Chiaki.Infra.RecursiveMutex
import Chiaki.Takion.Crypt
import Chiaki.Properties.Takion.Crypt
import Chiaki.Ecdh
import Chiaki.StreamConnection
import Chiaki.Properties.StreamConnection.Authentication
import Chiaki.Properties.StreamConnection.Step
import Chiaki.Properties.StreamConnection.SendBuffer
import Chiaki.Properties.StreamConnection.Streaminfo
import Chiaki.Properties.StreamConnection.Bang
import Chiaki.Properties.StreamConnection.WakeUp
import Chiaki.Http
import Chiaki.Infra.Search
import Chiaki.Properties.Http
import Chiaki.Properties.ReorderQueue.Window
import Chiaki.Properties.ReorderQueue.Conservation
import Chiaki.Properties.VideoReceiver.Order
import Chiaki.Properties.VideoReceiver.Assembly
import Chiaki.Properties.VideoReceiver.Units
import Chiaki.Session
import Chiaki.Properties.Session.Step
import Chiaki.Properties.Session.Deadlock
import Chiaki.Properties.Session.Release
import Chiaki.Properties.Takion.Ownership
import Chiaki.StreamRun
import Chiaki.Properties.StreamConnection.Resources
import Chiaki.Ctrl.Channel
import Chiaki.Properties.Ctrl.Channel
import Chiaki.Properties.ReorderQueue.Drop
import Chiaki.Properties.ReorderQueue.Assertions
import Chiaki.Properties.KeyState
import Chiaki.Properties.Takion.PacketMac
import Chiaki.Properties.Takion.AvPacket
import Chiaki.Properties.Takion.AvHeader
import Chiaki.Takion.Handshake
import Chiaki.Properties.Takion.Message
import Chiaki.Properties.Takion.Recheck
import Chiaki.Infra.StreamCipher
import Chiaki.Properties.GKCrypt.UsedStream
import Chiaki.Properties.GKCrypt.Decrypt
import Chiaki.Infra.SlotDiff
import Chiaki.PacketStats
import Chiaki.AudioReceiver
import Chiaki.FeedbackSender
import Chiaki.Properties.FrameProcessor.Counters
import Chiaki.Properties.VideoReceiver.Stats
import Chiaki.Properties.FrameProcessor.Frame
import Chiaki.Properties.VideoReceiver.CorruptFrames
import Chiaki.Properties.AudioReceiver
import Chiaki.Properties.PacketStats
import Chiaki.Properties.FeedbackSender
import Chiaki.Properties.Common
import Chiaki.Infra.PrefixCode
import Chiaki.FeedbackHistory
import Chiaki.Properties.FeedbackHistory
import Chiaki.Controller
import Chiaki.Properties.Controller
import Chiaki.Infra.Sextet
import Chiaki.Base64
import Chiaki.Properties.Base64
import Chiaki.Infra.CString
import Chiaki.Http.Header
import Chiaki.Properties.Http.Header
import Chiaki.Properties.Http.WellFormed
import Chiaki.Infra.StrTo
import Chiaki.Http.Response
import Chiaki.Properties.Http.Response
import Chiaki.Ctrl.Response
import Chiaki.Properties.Ctrl.Response
import Chiaki.Regist
import Chiaki.Properties.Http.Received
import Chiaki.Properties.Regist.Payload
import Chiaki.Properties.Regist.Framing
import Chiaki.Hex
import Chiaki.Properties.Hex
import Chiaki.Audio
import Chiaki.Properties.Audio
import Chiaki.Thread
import Chiaki.Properties.Thread
import Chiaki.Infra.Bisection
import Chiaki.Senkusha
import Chiaki.Properties.Senkusha
import Chiaki.Ctrl.Access
import Chiaki.Properties.Ctrl.Access
import Chiaki.Infra.Table
import Chiaki.DiscoveryService
import Chiaki.Properties.DiscoveryService
import Chiaki.Infra.Fifo
import Chiaki.Android.CircularBuffer
import Chiaki.Properties.Android.CircularBuffer
import Chiaki.Ctrl.Connect
import Chiaki.Properties.Ctrl.Connect
import Chiaki.Session.Request
import Chiaki.Session.Quit
import Chiaki.Properties.Session.Request
import Chiaki.Properties.Session.Quit
import Chiaki.Properties.Seqnum
import Chiaki.Properties.GKCrypt.Counter
import Chiaki.Infra.Brackets
import Chiaki.Setsu
import Chiaki.Properties.Setsu.Slot
import Chiaki.Properties.Setsu.Report
import Chiaki.Infra.Simulation
import Chiaki.Infra.AtomicQueue
import Chiaki.Android.CircularFifo
import Chiaki.Properties.Android.CircularFifo
import Chiaki.Infra.Cfb
import Chiaki.RPCrypt.Tables
import Chiaki.RPCrypt
import Chiaki.Properties.RPCrypt
import Chiaki.Regist.Request
import Chiaki.Properties.Regist.Request
import Chiaki.Regist.Thread
import Chiaki.Properties.Regist.Thread
import Chiaki.Setsu.Session
import Chiaki.Properties.Setsu.Session
import Chiaki.Discovery
import Chiaki.Properties.Discovery.Answer
import Chiaki.Properties.Discovery.Request
import Chiaki.Properties.Discovery.Run
import Chiaki.Infra.Regex
import Chiaki.Properties.Switch.File
