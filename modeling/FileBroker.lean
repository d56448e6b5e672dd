import FileBroker.Channel.Pair
import FileBroker.ErrorText
import FileBroker.FileSystem.Tree
import FileBroker.Helper.Serve
import FileBroker.Reply
import FileBroker.Config.Load
import FileBroker.Dispatch
import FileBroker.Guard
import FileBroker.Proxy.Basic
import FileBroker.FileService.Basic
import FileBroker.FileService.Direct
import FileBroker.Helper.Terminal
import FileBroker.Helper.Scripted
import FileBroker.Slot.Shared
import FileBroker.Binary64
import FileBroker.Command.Basic
import FileBroker.Command.Line
import FileBroker.Command.Program
import FileBroker.FileSystem.Change
import FileBroker.Helper.Address
import FileBroker.Helper.Program
import FileBroker.Log.Filter
import FileBroker.Log.Json
import FileBroker.Main
import FileBroker.Proofs.Text.Decimal
import FileBroker.Proofs.Text.Utf8
import FileBroker.Proofs.Channel.Stream
import FileBroker.Proofs.Channel.Reading
import FileBroker.Proofs.Channel.Segmentation
import FileBroker.Proofs.Channel.Computation
import FileBroker.Proofs.Channel.Link
import FileBroker.Proofs.Stat.Decoding
import FileBroker.Proofs.Stat.Record
import FileBroker.Proofs.Record.Layout
import FileBroker.Proofs.Record.RoundTrip
import FileBroker.Proofs.Reply.Grammar
import FileBroker.Proofs.Reply.Reading
import FileBroker.Proofs.Reply.ErrorText
import FileBroker.Proofs.Reply.RoundTrip
import FileBroker.Proofs.Helper.Serving
import FileBroker.Proofs.Proxy.Preparing
import FileBroker.Proofs.Proxy.Lifecycle
import FileBroker.Proofs.Proxy.Origin
import FileBroker.Proofs.Proxy.Plan
import FileBroker.Proofs.Proxy.Simulation
import FileBroker.Proofs.Helper.Answering
import FileBroker.Proofs.Text.Numeral
import FileBroker.Proofs.Channel.Frame
import FileBroker.Proofs.Channel.Parsing
import FileBroker.Proofs.Record.Grammar
import FileBroker.Proofs.Helper.Loop
import FileBroker.Proofs.Slot.Openness
import FileBroker.Proofs.Slot.Interleaving
import FileBroker.Proofs.Channel.Receiving
import FileBroker.Proofs.Channel.Sending
import FileBroker.Proofs.Dispatch.Course
import FileBroker.Proofs.Record.Attribution
import FileBroker.Proofs.Reply.Custody
import FileBroker.Proofs.Dispatch.Turn
import FileBroker.Proofs.Dispatch.Exchange
import FileBroker.Proofs.Reply.Shortage
import FileBroker.Proofs.FileService.Agreement
import FileBroker.Proofs.Slot.Succession
import FileBroker.Proofs.FileService.Escalation
import FileBroker.Proofs.FileService.Target
import FileBroker.Proofs.Reply.Extent
import FileBroker.Proofs.Channel.Retrying
import FileBroker.Proofs.Shell.Quoting
import FileBroker.Proofs.Stat.Chunks
import FileBroker.Proofs.Proxy.Rejection
import FileBroker.Proofs.Text.Canonical
import FileBroker.Proofs.Reply.ErrorNumber
import FileBroker.Proofs.Launch.Greeting
import FileBroker.Proofs.Text.Scanning
import FileBroker.Proofs.Toml.Writing
import FileBroker.Proofs.Config.Naming
import FileBroker.Proofs.Config.Layering
import FileBroker.Proofs.Config.Verbatim
import FileBroker.Proofs.Stat.Lossless
import FileBroker.Proofs.Record.Writer
import FileBroker.Proofs.Guard
import FileBroker.Proofs.Proxy.Teardown
import FileBroker.Proofs.Channel.Bounds
import FileBroker.Proofs.Channel.Capacity
