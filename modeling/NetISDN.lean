import NetISDN.General.Runs
import NetISDN.General.Pairing
import NetISDN.General.Mirror
import NetISDN.General.BitFields
import NetISDN.General.ByteMemory
import NetISDN.General.Reading
import NetISDN.General.CircularMemory
import NetISDN.General.Fifo
import NetISDN.General.SqlLiteral
import NetISDN.General.SlidingWindow
import NetISDN.Qt.QString
import NetISDN.Qt.QHostAddress
import NetISDN.Lib.Netconf
import NetISDN.Lib.EscapeString
import NetISDN.Server.Database
import NetISDN.Server.SipConnection
import NetISDN.Server.Netsipd
import NetISDN.Server.Spec
import NetISDN.Server.Dispatch
import NetISDN.Server.Switchboard
import NetISDN.Server.Calls
import NetISDN.Server.CallLinks
import NetISDN.Server.Accounts
import NetISDN.Server.LinkSafety
import NetISDN.Server.MediaOrder
import NetISDN.Server.CallLog
import NetISDN.Server.Identity
import NetISDN.Server.Presence
import NetISDN.Server.Zombie
import NetISDN.Server.Restrict
import NetISDN.Server.Strangers
import NetISDN.Server.NonInterference
import NetISDN.Rtp.Header
import NetISDN.Rtp.Reports
import NetISDN.Rtp.SourceDescription
import NetISDN.Rtp.ControlHeader
import NetISDN.Rtp.Examined
import NetISDN.Lib.Codec
import NetISDN.Lib.Rtcp
import NetISDN.Lib.RingBuffer
import NetISDN.Lib.AudioOutput
import NetISDN.Lib.Reception
import NetISDN.Lib.FrameAlignment
import NetISDN.Lib.AudioInput
import NetISDN.Lib.AudioSettings
import NetISDN.Client.ControlConnect
import NetISDN.Client.MirrorImages
import NetISDN.Server.SqlText
import NetISDN.General.Ledger
import NetISDN.Lib.CodecSession
import NetISDN.Lib.CodecSpec
import NetISDN.Lib.IdleCodec
import NetISDN.Rtp.Payload
import NetISDN.Lib.ReceiverStatistics
import NetISDN.Lib.DecodeOrder
import NetISDN.Server.Endpoints
import NetISDN.Admin.CreateDb
import NetISDN.General.Migration
import NetISDN.Admin.Upgrade
import NetISDN.Lib.Base64
import NetISDN.Client.Codebooks
import NetISDN.Client.Settings
import NetISDN.Lib.Base64Stores
import NetISDN.Lib.Base64Image
import NetISDN.Lib.CorruptHeader
import NetISDN.Client.MediaStart
import NetISDN.Client.Reconnect
import NetISDN.Server.TokenAccess
import NetISDN.Lib.SenderCounts
import NetISDN.Lib.MeterAverage
import NetISDN.Lib.PhaseLock
import NetISDN.Client.Rml
import NetISDN.Client.RmlPorts
import NetISDN.General.Removal
import NetISDN.Lib.HistoryBox
import NetISDN.Client.History
import NetISDN.Rtp.ChunkLists
import NetISDN.Lib.InputGain
import NetISDN.General.Sweep
import NetISDN.Lib.OneShot
import NetISDN.Server.Sweeps
import NetISDN.Lib.Gpio
import NetISDN.Client.Rates
import NetISDN.General.Framing
import NetISDN.General.Steering
import NetISDN.Client.Instructions
import NetISDN.Server.Lines
import NetISDN.System.Commands
import NetISDN.System.Told
import NetISDN.System.Station
import NetISDN.System.Network
import NetISDN.System.Agreement
import NetISDN.Server.Progress
import NetISDN.System.Frames
import NetISDN.System.AudioStream
import NetISDN.Server.Writes
import NetISDN.Server.AuditTrail
import NetISDN.General.Notices
import NetISDN.Admin.ListCalls
import NetISDN.System.Console
import NetISDN.Server.Replies
import NetISDN.System.Requests
import NetISDN.System.Conversation
import NetISDN.System.Login
