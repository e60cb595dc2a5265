import ImAcc.Lib.Transition
import ImAcc.Lib.Json
import ImAcc.Lib.RefCount
import ImAcc.Lib.JsonRefs
import ImAcc.Records
import ImAcc.ConfigPrase
import ImAcc.Timer
import ImAcc.JsonParse
import ImAcc.JsonMake
import ImAcc.CloudOps
import ImAcc.CloudReply
import ImAcc.MsgHandle
import ImAcc.System
import ImAcc.Control
import ImAcc.AlarmQueue
import ImAcc.Attended
import ImAcc.Requests
import ImAcc.Handles
import ImAcc.Session
import ImAcc.Operations
import ImAcc.Stored
import ImAcc.Renewal
import ImAcc.Counted
import ImAcc.StopAcc
import ImAcc.Delivery
import ImAcc.Ownership
import ImAcc.Capacity
import ImAcc.Acts
import ImAcc.History
import ImAcc.Broadcast
import ImAcc.WakeUp
import ImAcc.Subsystems
import ImAcc.Announced
import ImAcc.StateInfo
import ImAcc.Lib.JsonText
import ImAcc.Lib.TextCost
import ImAcc.Messages
import ImAcc.Embedded
import ImAcc.Coherence
import ImAcc.Devices
import ImAcc.Push
import ImAcc.Lib.Rounds
import ImAcc.Retries
import ImAcc.Answers
import ImAcc.TermCodes
import ImAcc.Figures
import ImAcc.Lib.Attempts
import ImAcc.Polling
import ImAcc.Lib.Draining
import ImAcc.RunAlarms
import ImAcc.Interfaces
import ImAcc.Traffic
import ImAcc.HttpClient
import ImAcc.NetChange
import ImAcc.Lib.Blocks
import ImAcc.Lib.Md5
import ImAcc.Md5c
import ImAcc.Signature
import ImAcc.Buffers
import ImAcc.Lib.Utf8
import ImAcc.NlsBase
import ImAcc.NlsCp54936
import ImAcc.UTF8Utils
import ImAcc.LookAhead
import ImAcc.Gb18030
import ImAcc.RoundTrip
import ImAcc.Lib.Journal
import ImAcc.Lib.Simulation
import ImAcc.Conduct
import ImAcc.Causes
import ImAcc.Service
import ImAcc.Serves
import ImAcc.Transcode
import ImAcc.Decoding
import ImAcc.Lib.Spacing
import ImAcc.Pacing
import ImAcc.Replies
import ImAcc.Lib.Ledger
import ImAcc.Descriptors
import ImAcc.Packages
import ImAcc.Lib.JsonStream
import ImAcc.Transfers
import ImAcc.Arrays
