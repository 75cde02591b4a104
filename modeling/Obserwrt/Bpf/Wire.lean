import Obserwrt.Bpf.Parse

/-!
# Packets as they are built

Descriptions of the packets the parser is meant for, and their bytes on the
wire: a framing (bare L3, or Ethernet with up to two VLAN tags), an IPv4 or
IPv6 header, an IPv6 extension-header chain, and the start of the transport
header with whatever follows it in the linear area.  The structures carry the
length constraints of the formats, so every description serialises to a
well-formed packet.  Nothing here refers to the parser.
-/

namespace Obserwrt
namespace Bpf

open Lib

/-! ## Framing -/

/-- The TPID of an outer tag. -/
inductive OuterTpid
  | dot1q
  | dot1ad
  | legacy
  deriving DecidableEq

def OuterTpid.code : OuterTpid → UInt16
  | .dot1q => 0x8100
  | .dot1ad => 0x88a8
  | .legacy => 0x9100

/-- The TPID of an inner tag. -/
inductive InnerTpid
  | dot1q
  | dot1ad
  deriving DecidableEq

def InnerTpid.code : InnerTpid → UInt16
  | .dot1q => 0x8100
  | .dot1ad => 0x88a8

/-- The VLAN tags of a frame, with their TCI. -/
inductive Tags
  | untagged
  | one (tpid : OuterTpid) (tci : UInt16)
  | two (outer : OuterTpid) (outerTci : UInt16) (inner : InnerTpid) (innerTci : UInt16)
  deriving DecidableEq

/-- The bytes between the MAC addresses and the payload. -/
def Tags.bytes (etherType : UInt16) : Tags → Bytes
  | .untagged => be16 etherType
  | .one tpid tci => be16 tpid.code ++ (be16 tci ++ be16 etherType)
  | .two outer outerTci inner innerTci =>
      be16 outer.code ++ (be16 outerTci ++ (be16 inner.code ++ (be16 innerTci ++ be16 etherType)))

/-- A MAC address. -/
abbrev Mac := List.Vector UInt8 6

/-- What precedes the IP header. -/
inductive Framing
  | l3
  | ethernet (dst src : Mac) (tags : Tags)
  deriving DecidableEq

def Framing.isEth : Framing → Bool
  | .l3 => false
  | .ethernet _ _ _ => true

def Framing.bytes (etherType : UInt16) : Framing → Bytes
  | .l3 => []
  | .ethernet dst src tags => dst.toList ++ (src.toList ++ tags.bytes etherType)

/-! ## IP headers -/

/-- An IPv4 header without its protocol field.  The options fill whole 32-bit
words, at most ten. -/
structure Ipv4 where
  tos : UInt8
  totalLength : UInt16
  ident : UInt16
  flags : Fin 8
  fragOffset : Fin 8192
  ttl : UInt8
  checksum : UInt16
  src : List.Vector UInt8 4
  dst : List.Vector UInt8 4
  optionWords : Fin 11
  options : Bytes
  options_length : options.length = 4 * optionWords

def Ipv4.bytes (h : Ipv4) (proto : UInt8) : Bytes :=
  [UInt8.ofNat (0x45 + h.optionWords), h.tos] ++ (be16 h.totalLength ++ (be16 h.ident ++
    (be16 (UInt16.ofNat (8192 * h.flags + h.fragOffset)) ++ ([h.ttl, proto] ++
      (be16 h.checksum ++ (h.src.toList ++ (h.dst.toList ++ h.options)))))))

/-- An IPv6 base header without its Next Header field. -/
structure Ipv6 where
  trafficClass : UInt8
  flowLabelHigh : Fin 16
  flowLabelLow : UInt16
  payloadLength : UInt16
  hopLimit : UInt8
  src : Addr
  dst : Addr

def Ipv6.bytes (h : Ipv6) (next : UInt8) : Bytes :=
  [UInt8.ofNat (0x60 + h.trafficClass.toNat / 16),
    UInt8.ofNat (h.trafficClass.toNat % 16 * 16 + h.flowLabelHigh)] ++
    (be16 h.flowLabelLow ++ (be16 h.payloadLength ++ ([next, h.hopLimit] ++
      (h.src.toList ++ h.dst.toList))))

/-! ## Extension headers -/

/-- The extension headers measured in 8-octet units. -/
inductive OptKind
  | hopByHop
  | routing
  | destination
  deriving DecidableEq

def OptKind.proto : OptKind → UInt8
  | .hopByHop => 0
  | .routing => 43
  | .destination => 60

/-- An extension header that is skipped, without its Next Header field: an
options or routing header, an authentication header (4-octet units), or the
Fragment header of a first fragment, with the low three bits of its offset
field. -/
inductive Ext
  | options (kind : OptKind) (len : UInt8) (body : Bytes)
      (body_length : body.length + 2 = (len.toNat + 1) * 8)
  | auth (len : UInt8) (body : Bytes) (body_length : body.length + 2 = (len.toNat + 2) * 4)
  | firstFragment (reserved : UInt8) (flags : Fin 8) (ident : UInt32)

def Ext.proto : Ext → UInt8
  | .options kind _ _ _ => kind.proto
  | .auth _ _ _ => 51
  | .firstFragment _ _ _ => 44

def Ext.isHopByHop : Ext → Bool
  | .options .hopByHop _ _ _ => true
  | _ => false

def Ext.bytes (next : UInt8) : Ext → Bytes
  | .options _ len body _ => [next, len] ++ body
  | .auth len body _ => [next, len] ++ body
  | .firstFragment reserved flags ident =>
      [next, reserved] ++ (be16 (UInt16.ofNat flags) ++ be32 ident)

/-- The Fragment header of a non-first fragment. -/
structure LaterFragment where
  reserved : UInt8
  flags : Fin 8
  offset : Fin 8192
  offset_pos : 0 < offset.val
  ident : UInt32

def LaterFragment.bytes (f : LaterFragment) (next : UInt8) : Bytes :=
  [next, f.reserved] ++ (be16 (UInt16.ofNat (8 * f.offset + f.flags)) ++ be32 f.ident)

/-- An extension-header chain: at most eight headers, Hop-by-Hop only first,
and a non-first Fragment header only last. -/
structure Chain where
  exts : List Ext
  later : Option LaterFragment
  size : exts.length + (if later.isSome then 1 else 0) ≤ 8
  hopByHop_first : ∀ e ∈ exts.tail, e.isHopByHop = false

/-- The protocol number that announces the rest of a chain. -/
def chainProto (later : Option LaterFragment) (upper : UInt8) : List Ext → UInt8
  | [] => if later.isSome then 44 else upper
  | e :: _ => e.proto

def chainBytes (later : Option LaterFragment) (upper : UInt8) : List Ext → Bytes
  | [] => later.elim [] fun f => f.bytes upper
  | e :: exts => e.bytes (chainProto later upper exts) ++ chainBytes later upper exts

/-! ## The transport header -/

/-- The first 14 octets of a TCP header. -/
structure Tcp where
  sport : UInt16
  dport : UInt16
  seq : UInt32
  ack : UInt32
  dataOffset : Fin 16
  reserved : Fin 16
  flags : UInt8

def Tcp.bytes (h : Tcp) : Bytes :=
  be16 h.sport ++ (be16 h.dport ++ (be32 h.seq ++ (be32 h.ack ++
    [UInt8.ofNat (16 * h.dataOffset + h.reserved), h.flags])))

/-- What follows the IP headers in the linear area. -/
inductive Upper
  | tcp (h : Tcp) (rest : Bytes)
  | udp (sport dport : UInt16) (rest : Bytes)
  | icmp (v6 : Bool) (type code : UInt8) (rest : Bytes)
  | raw (proto : UInt8) (bytes : Bytes)

def Upper.proto : Upper → UInt8
  | .tcp _ _ => 6
  | .udp _ _ _ => 17
  | .icmp v6 _ _ _ => if v6 then 58 else 1
  | .raw proto _ => proto

def Upper.bytes : Upper → Bytes
  | .tcp h rest => h.bytes ++ rest
  | .udp sport dport rest => be16 sport ++ (be16 dport ++ rest)
  | .icmp _ type code rest => [type, code] ++ rest
  | .raw _ bytes => bytes

/-- The protocol numbers whose transport header is read. -/
def hasTransport (proto : UInt8) : Bool :=
  proto == 6 || proto == 17 || proto == 1 || proto == 58

/-! ## Whole packets -/

inductive IpDesc
  | v4 (h : Ipv4)
  | v6 (h : Ipv6) (chain : Chain)

/-- The packet is a non-first fragment, without a transport header. -/
def IpDesc.isLater : IpDesc → Bool
  | .v4 h => decide (h.fragOffset.val ≠ 0)
  | .v6 _ chain => chain.later.isSome

def IpDesc.family : IpDesc → UInt8
  | .v4 _ => 4
  | .v6 _ _ => 6

def IpDesc.etherType : IpDesc → UInt16
  | .v4 _ => 0x0800
  | .v6 _ _ => 0x86dd

/-- The IP header with its extension headers. -/
def IpDesc.bytes (upper : UInt8) : IpDesc → Bytes
  | .v4 h => h.bytes upper
  | .v6 h chain =>
      h.bytes (chainProto chain.later upper chain.exts) ++
        chainBytes chain.later upper chain.exts

/-- A packet.  A protocol with a transport header has it, unless the packet is
a non-first fragment. -/
structure PacketDesc where
  framing : Framing
  ip : IpDesc
  upper : Upper
  upper_proto : isExtProto upper.proto = false
  upper_read : ip.isLater = false →
    ∀ proto bytes, upper = .raw proto bytes → hasTransport proto = false

/-- The serialised packet. -/
def PacketDesc.bytes (d : PacketDesc) : Bytes :=
  d.framing.bytes d.ip.etherType ++ (d.ip.bytes d.upper.proto ++ d.upper.bytes)

/-! ## The key a packet should be accounted to -/

/-- `::ffff:a.b.c.d`. -/
def mapped (a : List.Vector UInt8 4) : Addr :=
  ⟨[0, 0, 0, 0, 0, 0, 0, 0, 0, 0, 0xff, 0xff] ++ a.toList, by simp⟩

def Upper.ports : Upper → UInt16 × UInt16
  | .tcp h _ => (h.sport, h.dport)
  | .udp sport dport _ => (sport, dport)
  | _ => (0, 0)

def Upper.icmpTypeCode : Upper → UInt8 × UInt8
  | .icmp _ type code _ => (type, code)
  | _ => (0, 0)

def Upper.tcpFlags : Upper → UInt8
  | .tcp h _ => h.flags
  | _ => 0

/-- Octets of the transport header that every segment of a super-packet
repeats. -/
def Upper.headerLength : Upper → Nat
  | .tcp h _ => 4 * h.dataOffset
  | .udp _ _ _ => 8
  | _ => 0

/-- The flow key of a description. -/
def PacketDesc.key (d : PacketDesc) (ifindex : UInt32) (direction : Direction) : FlowKey where
  ifindex := ifindex
  direction := direction.code
  family := d.ip.family
  protocol := d.upper.proto
  reserved := 0
  src := match d.ip with
    | .v4 h => mapped h.src
    | .v6 h _ => h.src
  dst := match d.ip with
    | .v4 h => mapped h.dst
    | .v6 h _ => h.dst
  sport := if d.ip.isLater then 0 else d.upper.ports.1
  dport := if d.ip.isLater then 0 else d.upper.ports.2
  icmpType := if d.ip.isLater then 0 else d.upper.icmpTypeCode.1
  icmpCode := if d.ip.isLater then 0 else d.upper.icmpTypeCode.2

end Bpf
end Obserwrt
