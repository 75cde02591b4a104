import Obserwrt.Flow
import Obserwrt.Lib.Bytes

/-!
# The packet parser of `obserwrt-bpf.c`

`observe` reads the linear area of the skb between `data` and `data_end`.
Here the linear area is a byte string and every pointer is an offset into it,
so a bounds test `p + n > data_end` is `data.length < p + n`.  An early
`return TC_ACT_OK` is `none`.  The parser is cut into the stages the C
function runs through in order: `l3Offset` (framing and VLAN tags),
`parseIp` (the IP header and the bounded IPv6 extension-header walk) and
`parseL4` (ports, ICMP type and code, TCP flags).
-/

namespace Obserwrt
namespace Bpf

open Lib

/-- The `__sk_buff` fields the programs read.  `data` is the linear area,
`data_end - data` its length. -/
structure SkBuff where
  data : Bytes
  len : UInt32
  ifindex : UInt32
  gsoSegs : UInt32
  vlanPresent : Bool
  vlanTci : UInt32
  deriving DecidableEq

/-- `bpf_ntohs(*(__u16 *)p)`. -/
def ntohs (data : Bytes) (p : Nat) : UInt16 :=
  UInt16.ofNat (256 * (byteAt data p).toNat + (byteAt data (p + 1)).toNat)

/-- An outer tag: `ETH_P_8021Q`, `ETH_P_8021AD` or `0x9100`. -/
def isOuterTag (et : UInt16) : Bool :=
  et == 0x8100 || et == 0x88a8 || et == 0x9100

/-- An inner tag: `ETH_P_8021Q` or `ETH_P_8021AD`. -/
def isInnerTag (et : UInt16) : Bool :=
  et == 0x8100 || et == 0x88a8

/-- Offset of the IP header, from the framing: zero on an L3 device, behind
the Ethernet header and at most two VLAN tags otherwise. -/
def l3Offset (eth : Bool) (data : Bytes) : Option Nat :=
  if data.length < 2 then none
  -- an L3 device has no link-layer header
  else if eth = false then some 0
  else if data.length < 14 then none
  else
    let et := ntohs data 12
    if isOuterTag et then
      if data.length < 18 then none
      else
        let et := ntohs data 16
        if isInnerTag et then
          if data.length < 22 then none
          else
            let et := ntohs data 20
            if et ≠ 0x0800 ∧ et ≠ 0x86dd then none else some 22
        else if et ≠ 0x0800 ∧ et ≠ 0x86dd then none else some 18
    else if et ≠ 0x0800 ∧ et ≠ 0x86dd then none else some 14

/-- `ext_next`: the next-header value and the advanced `l4`; the value is 0 on
a bound fault. -/
def extNext (data : Bytes) (l4 : Nat) (ah : Bool) : UInt8 × Nat :=
  if data.length < l4 + 8 then (0, l4)
  else
    let nh := byteAt data l4
    let len := (byteAt data (l4 + 1)).toNat
    -- AH counts 4-octet units minus 2, the others 8-octet units beyond the first
    let hlen := if ah then (len + 2) * 4 else (len + 1) * 8
    if data.length < l4 + hlen then (0, l4 + hlen) else (nh, l4 + hlen)

/-- Where the transport header is, once the IP headers are walked. -/
structure L4Loc where
  proto : UInt8
  l4 : Nat
  haveL4 : Bool
  deriving DecidableEq

/-- `MAX_EXT_HDR`. -/
def maxExtHdr : Nat := 8

/-- The extension-header loop with `iter` iterations left. -/
def extWalk (data : Bytes) : Nat → UInt8 → Nat → Option L4Loc
  | 0, proto, l4 => some ⟨proto, l4, true⟩
  | iter + 1, proto, l4 =>
      if proto = 0 ∨ proto = 43 ∨ proto = 60 ∨ proto = 51 then
        let next := extNext data l4 (proto == 51)
        if next.1 = 0 then none else extWalk data iter next.1 next.2
      else if proto = 44 then
        if data.length < l4 + 8 then none
        -- a non-first fragment ends the walk without a transport header
        else if ntohs data (l4 + 2) >>> 3 ≠ 0 then some ⟨byteAt data l4, l4 + 8, false⟩
        else extWalk data iter (byteAt data l4) (l4 + 8)
      else if proto = 59 then none
      else some ⟨proto, l4, true⟩

/-- The protocol numbers that the loop does not take for an upper-layer protocol:
the extension headers and No Next Header. -/
def isExtProto (proto : UInt8) : Bool :=
  proto == 0 || proto == 43 || proto == 44 || proto == 51 || proto == 59 || proto == 60

/-- What the IP header stage leaves: the family and the transport location. -/
structure IpInfo extends L4Loc where
  family : UInt8
  deriving DecidableEq

/-- The IP header at `ip`. -/
def parseIp (data : Bytes) (ip : Nat) : Option IpInfo :=
  if data.length < ip + 2 then none
  else if byteAt data ip >>> 4 = 4 then
    if data.length < ip + 20 then none
    else
      let ihl := (byteAt data ip &&& 0x0f).toNat * 4
      -- the options must be linear too
      if ihl < 20 ∨ data.length < ip + ihl then none
      else
        let fragOff := ntohs data (ip + 6) &&& 0x1fff
        some { family := 4, proto := byteAt data (ip + 9), l4 := ip + ihl,
               haveL4 := fragOff == 0 }
  else if byteAt data ip >>> 4 = 6 then
    if data.length < ip + 40 then none
    else
      -- after eight headers the loop falls through with whatever protocol it has reached
      (extWalk data maxExtHdr (byteAt data (ip + 6)) (ip + 40)).map fun loc =>
        { loc with family := 6 }
  else none

/-- The transport fields of a packet; all zero where the code leaves them. -/
structure L4Info where
  sport : UInt16 := 0
  dport : UInt16 := 0
  icmpType : UInt8 := 0
  icmpCode : UInt8 := 0
  tcpf : UInt8 := 0
  l4hdr : UInt32 := 0
  deriving DecidableEq

/-- The transport header at `l4`.  Unknown protocols keep every field zero and
are still accounted. -/
def parseL4 (data : Bytes) (proto : UInt8) (l4 : Nat) : Option L4Info :=
  if proto = 6 then
    if data.length < l4 + 14 then none
    else some { sport := ntohs data l4, dport := ntohs data (l4 + 2),
                tcpf := byteAt data (l4 + 13),
                l4hdr := (byteAt data (l4 + 12) >>> 4).toUInt32 <<< 2 }
  else if proto = 17 then
    if data.length < l4 + 4 then none
    else some { sport := ntohs data l4, dport := ntohs data (l4 + 2), l4hdr := 8 }
  else if proto = 1 ∨ proto = 58 then
    if data.length < l4 + 2 then none
    else some { icmpType := byteAt data l4, icmpCode := byteAt data (l4 + 1) }
  else some {}

/-- Everything the accounting path uses of a parsed packet. -/
structure Parsed extends IpInfo, L4Info where
  ip : Nat
  deriving DecidableEq

/-- The parser of `observe`: `none` where the program returns before flow
accounting. -/
def parse (eth : Bool) (data : Bytes) : Option Parsed := do
  let ip ← l3Offset eth data
  let info ← parseIp data ip
  let l4 ← if info.haveL4 then parseL4 data info.proto info.l4 else some {}
  return { toIpInfo := info, toL4Info := l4, ip := ip }

/-- `pkt_class`: the EtherType after up to two VLAN tags, or the IP version
nibble on an L3 device. -/
def pktClass (eth : Bool) (data : Bytes) : PktClass :=
  let ofEtherType (et : UInt16) : PktClass :=
    if et = 0x0800 then .ipv4
    else if et = 0x86dd then .ipv6
    else if et = 0x0806 then .arp
    else .other
  if eth = false then
    if data.length < 1 then .other
    else if byteAt data 0 >>> 4 = 4 then .ipv4
    else if byteAt data 0 >>> 4 = 6 then .ipv6
    else .other
  else if data.length < 14 then .other
  else
    let et := ntohs data 12
    if isOuterTag et then
      if data.length < 18 then .other
      else
        let et := ntohs data 16
        if isInnerTag et then
          if data.length < 22 then .other
          else ofEtherType (ntohs data 20)
        else ofEtherType et
    else ofEtherType et

/-- `outer_vlan`: the offloaded tag, else the first in-packet tag, else 0. -/
def outerVlan (skb : SkBuff) : UInt16 :=
  if skb.vlanPresent then (skb.vlanTci &&& 0x0fff).toUInt16
  else if skb.data.length < 18 then 0
  else if isOuterTag (ntohs skb.data 12) = false then 0
  else ntohs skb.data 14 &&& 0x0fff

/-- `ip4_to_in6` on a zeroed field: `::ffff:a.b.c.d`. -/
def ip4ToIn6 (data : Bytes) (p : Nat) : Addr :=
  ⟨[0, 0, 0, 0, 0, 0, 0, 0, 0, 0, 0xff, 0xff,
    byteAt data p, byteAt data (p + 1), byteAt data (p + 2), byteAt data (p + 3)], rfl⟩

/-- `__builtin_memcpy(out, p, 16)`. -/
def copyAddr (data : Bytes) (p : Nat) : Addr :=
  ⟨(List.range 16).map fun i => byteAt data (p + i), by simp⟩

/-- The flow key `observe` builds for a parsed packet. -/
def flowKey (skb : SkBuff) (direction : Direction) (p : Parsed) : FlowKey where
  ifindex := skb.ifindex
  direction := direction.code
  family := p.family
  protocol := p.proto
  reserved := 0
  src := if p.family = 4 then ip4ToIn6 skb.data (p.ip + 12) else copyAddr skb.data (p.ip + 8)
  dst := if p.family = 4 then ip4ToIn6 skb.data (p.ip + 16) else copyAddr skb.data (p.ip + 24)
  sport := p.sport
  dport := p.dport
  icmpType := p.icmpType
  icmpCode := p.icmpCode

/-- A GRO/TSO super-packet stands for `gso_segs` wire packets. -/
def segsOf (skb : SkBuff) : UInt32 :=
  if skb.gsoSegs = 0 then 1 else skb.gsoSegs

/-- The L3 octets of a packet, in the program's 32-bit arithmetic: the link
layer is dropped and the headers are added back for every further segment. -/
def l3len (skb : SkBuff) (p : Parsed) : UInt32 :=
  let base := skb.len - UInt32.ofNat p.ip
  if 1 < segsOf skb then
    base + (segsOf skb - 1) * (UInt32.ofNat (p.l4 - p.ip) + p.l4hdr)
  else base

/-- IPv4 TOS, or the IPv6 Traffic Class gathered from two bytes. -/
def tosOf (skb : SkBuff) (p : Parsed) : UInt8 :=
  if p.family = 4 then byteAt skb.data (p.ip + 1)
  else (byteAt skb.data p.ip <<< 4) ||| (byteAt skb.data (p.ip + 1) >>> 4)

end Bpf
end Obserwrt
