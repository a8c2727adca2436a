import ZWaveHost.Host
import ZWaveHost.Proofs.Link.Retry
import ZWaveHost.Proofs.Link.Delivery
import ZWaveHost.Proofs.Link.Timers
import ZWaveHost.Proofs.Link.Sleep
import ZWaveHost.Proofs.Link.Course
import ZWaveHost.Proofs.Link.Turn
import ZWaveHost.Proofs.Link.Grounds
import ZWaveHost.Proofs.Link.Outcome
import ZWaveHost.Proofs.Link.Answers
import ZWaveHost.Proofs.Station.Leftover
import ZWaveHost.Proofs.Station.Ending
import ZWaveHost.Proofs.Session.Conduct
import ZWaveHost.Proofs.Decoder.Backlog
import ZWaveHost.Proofs.Decoder.RoundTrip
import ZWaveHost.Proofs.Decoder.Block
import ZWaveHost.Proofs.Decoder.Segments
import ZWaveHost.Proofs.Decoder.Cuts
import ZWaveHost.Proofs.Message.NodeMask
import ZWaveHost.Proofs.Message.RoundTrip
import ZWaveHost.Proofs.Message.MaskBits
import ZWaveHost.Proofs.Network.Life
import ZWaveHost.Proofs.Network.Inclusion
import ZWaveHost.Proofs.Link.Planned
import ZWaveHost.Proofs.Station.Startup
import ZWaveHost.Proofs.Session.Opening
import ZWaveHost.Proofs.MessagePack.RoundTrip
import ZWaveHost.Proofs.MessagePack.Sizes
import ZWaveHost.Proofs.Archive.RoundTrip
import ZWaveHost.Proofs.Archive.File
import ZWaveHost.Proofs.Network.Shelf
import ZWaveHost.Proofs.Network.Reuse
import ZWaveHost.Proofs.Network.Refusals
import ZWaveHost.Proofs.Link.Ledger
import ZWaveHost.Proofs.Link.Sleeper
import ZWaveHost.Proofs.Link.Stamp
import ZWaveHost.Proofs.Decoder.Resync
import ZWaveHost.Proofs.Decoder.Confinement
import ZWaveHost.Proofs.Link.Admission
import ZWaveHost.Proofs.Station.Admission
import ZWaveHost.Proofs.Decoder.Resting
import ZWaveHost.Proofs.Message.Normal
import ZWaveHost.Proofs.Message.Grammar
import ZWaveHost.Proofs.Network.DeviceReport
import ZWaveHost.Proofs.Network.Reachability
import ZWaveHost.Proofs.Network.Addressee
import ZWaveHost.Proofs.Network.Identity
import ZWaveHost.Proofs.Archive.Keeping
import ZWaveHost.Proofs.Json.Grammar
import ZWaveHost.Proofs.Json.Lexer
import ZWaveHost.Proofs.Json.Object
import ZWaveHost.Proofs.Settings.RoundTrip
import ZWaveHost.Proofs.Link.Counters
import ZWaveHost.Proofs.Link.Lifecycle
import ZWaveHost.Proofs.Network.Registry
import ZWaveHost.Proofs.Line.Delivery
