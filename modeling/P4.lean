import P4.Dict.Basic
import P4.Run.Basic
import P4.Run.Product
import P4.Run.Reach
import P4.Run.Tally
import P4.Window.Basic
import P4.File.Basic
import P4.Heap.Basic
import P4.Heap.Logic
import P4.Base64.Basic
import P4.Stream.Basic
import P4.Cycle.Basic
import P4.Json.Basic
import P4.Json.Print
import P4.Json.Parse
import P4.Json.Equiv.Basic
import P4.Json.Equiv.RoundTrip
import P4.Json.Equiv.Loads
import P4.Core.Envelope
import P4.Core.Binding
import P4.Core.Laws
import P4.Core.Replay
import P4.Core.Abi
import P4.Core.Strings
import P4.Core.Equiv.Envelope
import P4.Core.Equiv.ReadBack
import P4.Core.Equiv.Binding
import P4.Core.Equiv.Payload
import P4.Core.Equiv.SignVerify
import P4.Core.Equiv.Faithful
import P4.Core.Equiv.Abi
import P4.Core.Equiv.Strings
import P4.Node.Contact
import P4.Session.Basic
import P4.Session.Equiv.Step
import P4.Session.Equiv.Basic
import P4.Session.Equiv.Progress
import P4.Session.Equiv.Connections
import P4.Session.Equiv.Connectivity
import P4.Session.Equiv.Superseded
import P4.Session.Equiv.Turns
import P4.Session.Equiv.Lock
import P4.Node.Replay
import P4.Node.Line
import P4.Node.Message
import P4.Node.Basic
import P4.Node.Equiv.Utf8
import P4.Node.Equiv.Line
import P4.Node.Equiv.Replay
import P4.Node.Equiv.SameWindow
import P4.Node.Equiv.Message
import P4.Node.Equiv.Build
import P4.Node.Equiv.Step
import P4.Node.Equiv.Acceptance
import P4.Node.Equiv.Interference
import P4.Node.Equiv.Window
import P4.Node.Equiv.Delivery
import P4.Node.Equiv.Contacts
import P4.Node.Equiv.Store
import P4.Node.Equiv.Atomic
import P4.Node.Equiv.History
import P4.Node.Equiv.Origin
import P4.Node.Equiv.Ledger
import P4.Node.Equiv.Memory
import P4.Node.Equiv.Sessions
import P4.Node.Equiv.Exchange
import P4.Sample.Basic
import P4.Sample.Equiv.Laws
import P4.System.Basic
import P4.System.Equiv.Basic
import P4.System.Equiv.Authentic
import P4.System.Equiv.Answer
import P4.System.Equiv.Agreement
import P4.System.Equiv.Glare
import P4.System.Equiv.Provenance
import P4.System.Equiv.Completion
import P4.Directory.Basic
import P4.Directory.Equiv.Basic
import P4.Directory.Equiv.Loadable
import P4.Directory.Equiv.Certified
import P4.Directory.Equiv.Updates
import P4.Directory.Disk
import P4.Directory.Equiv.Disk
import P4.Identity.Basic
import P4.Identity.Equiv.Continuity
import P4.Identity.Equiv.Authenticates
import P4.Onion.Basic
import P4.Onion.Equiv.Address
import P4.Control.Basic
import P4.Control.Equiv.Text
import P4.Control.Equiv.Replies
import P4.Control.Equiv.Relay
import P4.Control.Equiv.InStep
import P4.Socks.Basic
import P4.Socks.Equiv.Handshake
import P4.Relayrc.Confline
import P4.Relayrc.Basic
import P4.Relayrc.Equiv.Confline
import P4.Relayrc.Equiv.ReadBack
import P4.Control.Kvline
import P4.Control.Equiv.Kvline
import P4.Control.Command
import P4.Control.Equiv.Command
import P4.Control.Bootstrap
import P4.Control.Equiv.Bootstrap
import P4.Hs.Binascii
import P4.Hs.Equiv.Binascii
import P4.Hs.Address
import P4.Hs.Equiv.Address
import P4.Invite.Basic
import P4.Invite.Equiv.Encoding
import P4.Invite.Console
import P4.Invite.Equiv.Console
import P4.System.Equiv.Introduction
import P4.Ports.Basic
import P4.Ports.Equiv.Search
import P4.Turn.Basic
import P4.Turn.Equiv.CreatePc
import P4.Turn.Equiv.Expiry
