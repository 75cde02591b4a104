import Obserwrt.Flow
import Obserwrt.Lib.Exposition

/-!
# The Prometheus text

`PromExposition` of `prometheus.cpp` and the text that `Metrics::write` of
`metrics.cpp` builds with it, for any state of the members it reads.  The
setters of these members and what `write` does with the text (the temporary
file and its rename) are in `Metrics.Textfile`.  Strings that the builder takes
as `const char *` end at their first NUL.
-/

namespace Obserwrt
namespace Metrics

open Lib

/-! ## The builder -/

/-- A string as `const char *`. -/
def cString (s : Bytes) : Bytes := s.takeWhile (· != 0)

/-- `class PromExposition`: the text, and the families whose header is out. -/
structure PromExposition where
  out : Bytes
  declared : List Bytes

def PromExposition.empty : PromExposition where
  out := []
  declared := []

/-- `PromExposition::sample`. -/
def PromExposition.sample (px : PromExposition) (name kind help labels : Bytes) (value : UInt64) :
    PromExposition :=
  let header :=
    if px.declared.contains name then []
    else
      text "# HELP " ++ name ++ text " " ++ help ++ text "\n" ++
        text "# TYPE " ++ name ++ text " " ++ kind ++ text "\n"
  { out := px.out ++ header ++ name ++ labels ++ text " " ++ decimalBytes value.toNat ++ text "\n"
    declared := if px.declared.contains name then px.declared else name :: px.declared }

/-- `PromExposition::counter`. -/
def PromExposition.counter (px : PromExposition) (name help labels : Bytes) (value : UInt64) :
    PromExposition :=
  px.sample name (text "counter") help labels value

/-- `PromExposition::gauge`. -/
def PromExposition.gauge (px : PromExposition) (name help labels : Bytes) (value : UInt64) :
    PromExposition :=
  px.sample name (text "gauge") help labels value

/-- The spelling of a character of a label value. -/
def labelChar (c : UInt8) : Bytes :=
  if c = 92 then text "\\\\"
  else if c = 34 then text "\\\""
  else if c = 10 then text "\\n"
  else [c]

/-- The loop over the labels. -/
def labelLoop : Bool → Labels → Bytes
  | _, [] => []
  | first, p :: kv =>
      (if first then [] else text ",") ++ p.1 ++ text "=\"" ++ (cString p.2).flatMap labelChar ++
        text "\"" ++ labelLoop false kv

/-- `PromExposition::labels`. -/
def labels (kv : Labels) : Bytes :=
  if kv = [] then [] else text "\x7b" ++ labelLoop true kv ++ text "\x7d"

/-! ## The metrics -/

/-- `struct BuildInfo`, which the build injects. -/
structure BuildInfo where
  version : Bytes
  commit : Bytes
  os : Bytes
  arch : Bytes

/-- `struct DevCounters`. -/
structure DevCounters extends DevVal where
  ifindex : UInt32
  direction : UInt8

/-- `struct DeviceCounters`. -/
structure DeviceCounters where
  ifname : Bytes
  c : DevCounters

/-- The members of `class Metrics` that `write` reads. -/
structure State where
  totalFlows : UInt64
  totalErrors : UInt64
  flowsActive : UInt32
  mapEntries : UInt32
  bpfPackets : UInt64
  bpfBytes : UInt64
  bpfAccounted : UInt64
  bpfFlowsCreated : UInt64
  bpfDrops : UInt64
  bpfDropsUnparsed : UInt64
  mapLimit : UInt32
  devices : List Bytes
  devCounters : List DeviceCounters

/-- `OBSERWRT_CLASS_*` in the order of their values. -/
def classes : List PktClass := [.ipv4, .ipv6, .arp, .other]

/-- `CLASSES`. -/
def className : PktClass → Bytes
  | .ipv4 => text "ipv4"
  | .ipv6 => text "ipv6"
  | .arp => text "arp"
  | .other => text "other"

/-- The labels of a device's counters. -/
def deviceLabels (d : DeviceCounters) (cls : PktClass) : Labels :=
  [(text "ifname", d.ifname),
   (text "direction",
     if d.c.direction = Direction.ingress.code then text "ingress" else text "egress"),
   (text "class", className cls)]

/-- The labels of the build. -/
def buildLabels (b : BuildInfo) : Labels :=
  [(text "version", b.version), (text "commit", b.commit), (text "os", b.os),
   (text "arch", b.arch)]

/-- The text that `Metrics::write` builds. -/
def State.write (b : BuildInfo) (m : State) : Bytes :=
  let px := PromExposition.empty
  let px := px.gauge (text "obserwrt_build_info") (text "Build and version information.")
    (labels (buildLabels b)) 1
  let px := px.counter (text "obserwrt_flows_exported_total")
    (text "Flow records dispatched to exporters.") [] m.totalFlows
  let px := px.counter (text "obserwrt_export_errors_total") (text "Export/lifecycle failures.") []
    m.totalErrors
  let px := px.counter (text "obserwrt_packets_total")
    (text "Packets seen at TC (all, incl. non-IP).") [] m.bpfPackets
  let px := px.counter (text "obserwrt_bytes_total") (text "Bytes seen at TC (all).") [] m.bpfBytes
  let px := px.counter (text "obserwrt_packets_accounted_total")
    (text "Packets that entered flow accounting (IP).") [] m.bpfAccounted
  let px := px.counter (text "obserwrt_flows_created_total")
    (text "Flow entries created in the BPF map.") [] m.bpfFlowsCreated
  let px := px.counter (text "obserwrt_drops_total")
    (text "Packets the kernel dropped on attached devices (drop tracer).") [] m.bpfDrops
  let px := px.counter (text "obserwrt_drops_unparsed_total")
    (text "Dropped packets not exported (not IPv4/IPv6 or no network header).") []
    m.bpfDropsUnparsed
  let px := px.gauge (text "obserwrt_flows_active") (text "Currently live flows.") []
    m.flowsActive.toUInt64
  let px := px.gauge (text "obserwrt_bpf_map_entries") (text "Current flow map entries.") []
    m.mapEntries.toUInt64
  let px := px.gauge (text "obserwrt_bpf_map_limit") (text "Flow map capacity (LRU).") []
    m.mapLimit.toUInt64
  let px := px.gauge (text "obserwrt_devices_attached") (text "Number of attached netdevs.") []
    (UInt64.ofNat m.devices.length)
  let px := m.devices.foldl (fun px d =>
    px.gauge (text "obserwrt_device_attached") (text "Attached netdev (1 if attached).")
      (labels [(text "ifname", d)]) 1) px
  let px := m.devCounters.foldl (fun px d =>
    classes.foldl (fun px cls =>
      px.counter (text "obserwrt_device_packets_total")
        (text "Packets seen at TC per device, direction and class.")
        (labels (deviceLabels d cls)) (d.c.packets cls)) px) px
  let px := m.devCounters.foldl (fun px d =>
    classes.foldl (fun px cls =>
      px.counter (text "obserwrt_device_bytes_total")
        (text "Bytes seen at TC per device, direction and class.")
        (labels (deviceLabels d cls)) (d.c.bytes cls)) px) px
  px.out

end Metrics
end Obserwrt
