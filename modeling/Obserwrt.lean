import Obserwrt.Lib.Run
import Obserwrt.Lib.Bytes
import Obserwrt.Lib.Pack
import Obserwrt.Lib.Buckets
import Obserwrt.Lib.Errors
import Obserwrt.Lib.Text
import Obserwrt.Lib.Quote
import Obserwrt.Lib.Json
import Obserwrt.Lib.Logfmt
import Obserwrt.Lib.Exposition
import Obserwrt.Lib.Calendar
import Obserwrt.Lib.Rfc5424
import Obserwrt.Lib.Files
import Obserwrt.Lib.Tally
import Obserwrt.Lib.Handles
import Obserwrt.Flow
import Obserwrt.Bpf.Parse
import Obserwrt.Bpf.Wire
import Obserwrt.Bpf.Observe
import Obserwrt.Bpf.ParseWire
import Obserwrt.Bpf.Accounting
import Obserwrt.Bpf.Concurrent
import Obserwrt.Bpf.Drops
import Obserwrt.Bpf.Octets
import Obserwrt.Bpf.Classes
import Obserwrt.Bpf.ExtHeaders
import Obserwrt.Bpf.L3Len
import Obserwrt.Bpf.Gso
import Obserwrt.Lifecycle.Run
import Obserwrt.Lifecycle.Pass
import Obserwrt.Lifecycle.Counters
import Obserwrt.Lifecycle.Conservation
import Obserwrt.Lifecycle.FailedWalk
import Obserwrt.Lifecycle.PassSpec
import Obserwrt.Agent.BatchWalk
import Obserwrt.Agent.DeviceCounters
import Obserwrt.Agent.DropDrain
import Obserwrt.Agent.Dispatch
import Obserwrt.Agent.LinkMessage
import Obserwrt.Agent.Netlink
import Obserwrt.Agent.Attach
import Obserwrt.Agent.Handles
import Obserwrt.Agent.OnLink
import Obserwrt.Agent.Views
import Obserwrt.Agent.Resync
import Obserwrt.Lifecycle.Recreation
import Obserwrt.Lifecycle.Race
import Obserwrt.Lifecycle.Lives
import Obserwrt.Ipfix.Exporter
import Obserwrt.Ipfix.Collector
import Obserwrt.Ipfix.Wire
import Obserwrt.Ipfix.RoundTrip
import Obserwrt.Ipfix.Sequence
import Obserwrt.Ipfix.Freshness
import Obserwrt.Ipfix.Timestamps
import Obserwrt.Config.Backends
import Obserwrt.Config.Agree
import Obserwrt.Config.Ini
import Obserwrt.Log
import Obserwrt.Syslog.Record
import Obserwrt.Syslog.Encode
import Obserwrt.Syslog.Frame
import Obserwrt.Metrics.Write
import Obserwrt.Metrics.Decode
import Obserwrt.Metrics.Textfile
import Obserwrt.Udp.Client
import Obserwrt.Syslog.Exporter
import Obserwrt.Agent.DropReasons
import Obserwrt.Daemon.Pass
import Obserwrt.Daemon.Keys
import Obserwrt.Daemon.Reports
import Obserwrt.Daemon.Flows
import Obserwrt.Daemon.Lag
import Obserwrt.Daemon.DropRecords
import Obserwrt.Daemon.EndToEnd
import Obserwrt.Daemon.Books
import Obserwrt.Daemon.Snapshot
import Obserwrt.Daemon.Textfile
