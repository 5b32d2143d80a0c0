import CodexSdk.Client.Answers
import CodexSdk.Connection.AfterClose
import CodexSdk.Client.Handshake
import CodexSdk.Client.Resume
import CodexSdk.Transport.Ws
import CodexSdk.Luna.Exec
import CodexSdk.Thread.Announce
import CodexSdk.Client.HandlerCalls
import CodexSdk.Transport.OneServer
import CodexSdk.Luna.Sessions
import CodexSdk.Luna.Transcript
import CodexSdk.Transport.BlockingStart
import CodexSdk.Client.Leaks
import CodexSdk.Connection.Ownership
import CodexSdk.Transport.Loopback
import CodexSdk.Snapshots
import CodexSdk.Agx.Stream
import CodexSdk.Client.Frames
import CodexSdk.Turn.Usage
import CodexSdk.Luna.Redact
import CodexSdk.Luna.ConfigPaths
import CodexSdk.Agx.AgentConfig
import CodexSdk.Schema
import CodexSdk.Transport.RoundTrip
import CodexSdk.Luna.HumanOutput
import CodexSdk.Luna.History
import CodexSdk.Connection.NextEvent
import CodexSdk.Turn.Outcome
import CodexSdk.Luna.Requests
import CodexSdk.Delimited
import CodexSdk.Transport.Stdio
import CodexSdk.Thread.OnConnection
import CodexSdk.Agx.Lookup
import CodexSdk.Agx.Instructions
import CodexSdk.Interleave.Attempt
import CodexSdk.Luna.Connection
import CodexSdk.Luna.ExitCodes
import CodexSdk.ShownOnce
