import Mathlib.Data.Vector.Basic
import Obserwrt.Lib.Store

/-!
# Flow keys and values

The record layouts of `bpf/obserwrt-flow.h`, shared by the eBPF programs and
the agent: the flow key, the flow value, the per-device counters and the
packet classes, with `flow.hpp`'s `Delta`.  Fields keep the widths of the C
structs, so arithmetic on them wraps exactly where the C arithmetic does.
The key keeps its `reserved` byte because key equality is byte equality; the
value's reserved bytes are never read and are left out.
-/

namespace Obserwrt

open Lib

/-- A 16-byte address field: an IPv6 address, or `::ffff:a.b.c.d`. -/
abbrev Addr := List.Vector UInt8 16

/-- The direction of a packet at the observation point. -/
inductive Direction
  | ingress
  | egress
  deriving DecidableEq

/-- `OBSERWRT_INGRESS` and `OBSERWRT_EGRESS`. -/
def Direction.code : Direction → UInt8
  | .ingress => 0
  | .egress => 1

/-- `struct flow_key`. -/
structure FlowKey where
  ifindex : UInt32
  direction : UInt8
  family : UInt8
  protocol : UInt8
  reserved : UInt8
  src : Addr
  dst : Addr
  sport : UInt16
  dport : UInt16
  icmpType : UInt8
  icmpCode : UInt8
  deriving DecidableEq

/-- `struct flow_val`. -/
structure FlowVal where
  packets : UInt64
  bytes : UInt64
  firstSeen : UInt64
  lastSeen : UInt64
  tcpFlags : UInt16
  vlanId : UInt16
  tos : UInt8
  deriving DecidableEq

/-- The growth of a flow since its last export. -/
structure Delta where
  packets : UInt64
  bytes : UInt64
  deriving DecidableEq

/-- Packets or bytes: the two counters every record of the program carries. -/
inductive Counter
  | packets
  | bytes
  deriving DecidableEq

def Counter.ofVal : Counter → FlowVal → UInt64
  | .packets, v => v.packets
  | .bytes, v => v.bytes

def Counter.ofDelta : Counter → Delta → UInt64
  | .packets, d => d.packets
  | .bytes, d => d.bytes

/-- The flow map `obserwrt_flows`. -/
abbrev FlowTable := Store FlowKey FlowVal

/-- `OBSERWRT_CLASS_*`: what a packet is to the device counters. -/
inductive PktClass
  | ipv4
  | ipv6
  | arp
  | other
  deriving DecidableEq

/-- `struct dev_key` (its padding is always zero). -/
structure DevKey where
  ifindex : UInt32
  direction : UInt8
  deriving DecidableEq

/-- `struct dev_val`: one counter pair for each packet class. -/
structure DevVal where
  packets : PktClass → UInt64
  bytes : PktClass → UInt64

/-- The zeroed `struct dev_val`. -/
def DevVal.zero : DevVal where
  packets := fun _ => 0
  bytes := fun _ => 0

def Counter.ofDev : Counter → DevVal → PktClass → UInt64
  | .packets, v => v.packets
  | .bytes, v => v.bytes

end Obserwrt
