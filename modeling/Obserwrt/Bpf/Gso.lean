import Obserwrt.Bpf.Accounting
import Obserwrt.Bpf.L3Len
import Obserwrt.Bpf.ParseWire

/-!
# Super-packets and their segments

A GRO or TSO super-packet carries the headers of its segments once and stands
for `gso_segs` packets.  The program adds the IP and transport headers back
for every segment beyond the first, so that the flow counts as if the segments
had been seen one by one.  A `Gso` is what the segments share; a `Segment` is
one piece of the payload with its own TCP flags.  Payloads need not be linear:
each packet has some prefix of its payload in the linear area.
-/

namespace Obserwrt
namespace Bpf

open Lib

/-- A complete TCP header (with everything behind the flags in `options`) or
UDP header. -/
inductive GsoHeader
  | tcp (h : Tcp) (options : Bytes) (offset_ge : 5 ≤ h.dataOffset.val)
      (options_length : options.length + 14 = 4 * h.dataOffset)
  | udp (sport dport : UInt16) (tail : Bytes) (tail_length : tail.length = 4)

/-- The transport part of a packet with this header and the given flags in
front of a payload. -/
def GsoHeader.upper (flags : UInt8) (payload : Bytes) : GsoHeader → Upper
  | .tcp h options _ _ => .tcp { h with flags := flags } (options ++ payload)
  | .udp sport dport tail _ => .udp sport dport (tail ++ payload)

def GsoHeader.length : GsoHeader → Nat
  | .tcp h _ _ _ => 4 * h.dataOffset
  | .udp _ _ _ _ => 8

/-- The flags of the super-packet. -/
def GsoHeader.flags : GsoHeader → UInt8
  | .tcp h _ _ _ => h.flags
  | .udp _ _ _ _ => 0

/-- What a super-packet and its segments share: the headers of an unfragmented
packet. -/
structure Gso where
  framing : Framing
  ip : IpDesc
  header : GsoHeader
  unfragmented : ip.isLater = false

/-- One segment: its piece of the payload, how much of it is linear, its TCP
flags, whether its `gso_segs` is 1 or 0, and the run of the program on it. -/
structure Segment (ncpu : Nat) where
  piece : Bytes
  linear : Nat
  flags : UInt8
  single : Bool
  cpu : Fin ncpu
  now : UInt64

namespace Gso

variable {ncpu : Nat}

/-- The packet with these headers in front of a linear payload. -/
def desc (g : Gso) (flags : UInt8) (payload : Bytes) : PacketDesc where
  framing := g.framing
  ip := g.ip
  upper := g.header.upper flags payload
  upper_proto := by cases g.header <;> rfl
  upper_read := by
    intro _ proto bytes hraw
    cases hheader : g.header <;> simp [hheader, GsoHeader.upper] at hraw

/-- The protocol number of the transport header. -/
def proto (g : Gso) : UInt8 :=
  match g.header with
  | .tcp _ _ _ _ => 6
  | .udp _ _ _ _ => 17

/-- Octets of the link-layer header. -/
def l2Length (g : Gso) : Nat := (g.framing.bytes g.ip.etherType).length

/-- Octets of the IP header with its extension headers. -/
def ipLength (g : Gso) : Nat := (g.ip.bytes g.proto).length

/-- Octets of all headers. -/
def headerLength (g : Gso) : Nat := g.l2Length + g.ipLength + g.header.length

/-- The super-packet: all of the payload behind one set of headers. -/
def super (g : Gso) (skb : SkBuff) (payload : Bytes) (linear segs : Nat) : SkBuff :=
  { skb with
    data := (g.desc g.header.flags (payload.take linear)).bytes
    len := UInt32.ofNat (g.headerLength + payload.length)
    gsoSegs := UInt32.ofNat segs }

/-- A segment: the same headers in front of its piece. -/
def segment (g : Gso) (skb : SkBuff) (s : Segment ncpu) : SkBuff :=
  { skb with
    data := (g.desc s.flags (s.piece.take s.linear)).bytes
    len := UInt32.ofNat (g.headerLength + s.piece.length)
    gsoSegs := if s.single then 1 else 0 }

/-- The hook of the device. -/
def hook (g : Gso) (direction : Direction) : Hook := ⟨direction, g.framing.isEth⟩

/-- The flow key of the super-packet and of every segment. -/
def key (g : Gso) (ifindex : UInt32) (direction : Direction) : FlowKey :=
  (g.desc g.header.flags []).key ifindex direction

/-- The run of the program on the super-packet. -/
def seenSuper (g : Gso) (skb : SkBuff) (direction : Direction) (payload : Bytes)
    (linear segs : Nat) (cpu : Fin ncpu) (now : UInt64) : Seen ncpu :=
  ⟨cpu, now, g.hook direction, g.super skb payload linear segs⟩

/-- The run of the program on a segment. -/
def seenSegment (g : Gso) (skb : SkBuff) (direction : Direction) (s : Segment ncpu) : Seen ncpu :=
  ⟨s.cpu, s.now, g.hook direction, g.segment skb s⟩

/-! ## Header lengths -/

theorem upper_proto_eq (g : Gso) (flags : UInt8) (payload : Bytes) :
    (g.header.upper flags payload).proto = g.proto := by
  unfold proto
  cases g.header <;> rfl

theorem upper_headerLength (g : Gso) (flags : UInt8) (payload : Bytes) :
    (g.header.upper flags payload).headerLength = g.header.length := by
  cases g.header <;> rfl

theorem header_length_le (g : Gso) : g.header.length ≤ 60 := by
  cases g.header with
  | tcp h options hoffset hoptions =>
      have := h.dataOffset.isLt
      simp only [GsoHeader.length]
      omega
  | udp sport dport tail htail => simp [GsoHeader.length]

end Gso

/-- An extension header takes at most 2048 octets. -/
theorem Ext.bytes_length_le (e : Ext) (next : UInt8) : (e.bytes next).length ≤ 2048 := by
  cases e with
  | options kind len body hbody =>
      have := len.toNat_lt
      simp only [Ext.bytes, List.length_append, List.length_cons, List.length_nil]
      omega
  | auth len body hbody =>
      have := len.toNat_lt
      simp only [Ext.bytes, List.length_append, List.length_cons, List.length_nil]
      omega
  | firstFragment reserved flags ident => simp [Ext.bytes]

theorem chainBytes_length_le (later : Option LaterFragment) (upper : UInt8) (exts : List Ext) :
    (chainBytes later upper exts).length ≤
      2048 * (exts.length + if later.isSome then 1 else 0) := by
  induction exts with
  | nil => cases later <;> simp [chainBytes]
  | cons e exts ih =>
      have := e.bytes_length_le (chainProto later upper exts)
      rw [chainBytes, List.length_append, List.length_cons]
      omega

theorem IpDesc.bytes_length_le (desc : IpDesc) (upper : UInt8) :
    (desc.bytes upper).length ≤ 40 + 8 * 2048 := by
  cases desc with
  | v4 h =>
      have := h.optionWords.isLt
      simp only [IpDesc.bytes, Ipv4.bytes_length]
      omega
  | v6 h chain =>
      have hchain := chainBytes_length_le chain.later upper chain.exts
      have hsize := chain.size
      simp only [IpDesc.bytes, List.length_append, Ipv6.bytes_length]
      omega

namespace Gso

variable {ncpu : Nat} (g : Gso)

/-! ## One packet -/

theorem desc_key (flags : UInt8) (payload : Bytes) (ifindex : UInt32) (direction : Direction) :
    (g.desc flags payload).key ifindex direction = g.key ifindex direction := by
  obtain ⟨framing, ip, header, hunfrag⟩ := g
  cases header <;> rfl

/-- What the parser makes of a packet with these headers. -/
theorem desc_parsed (flags : UInt8) (payload : Bytes) :
    (g.desc flags payload).parsed.ip = g.l2Length ∧
      (g.desc flags payload).parsed.l4 = g.l2Length + g.ipLength ∧
      (g.desc flags payload).parsed.l4hdr = UInt32.ofNat g.header.length ∧
      (g.desc flags payload).parsed.tcpf = (g.header.upper flags payload).tcpFlags := by
  have hunfrag : (g.desc flags payload).ip.isLater = false := g.unfragmented
  refine ⟨rfl, ?_, ?_, ?_⟩
  · show _ + (g.ip.bytes (g.header.upper flags payload).proto).length = _
    rw [g.upper_proto_eq]
    rfl
  · simp only [PacketDesc.parsed, hunfrag]
    show UInt32.ofNat (g.header.upper flags payload).headerLength = _
    rw [g.upper_headerLength]
  · simp only [PacketDesc.parsed, hunfrag]
    rfl

/-- The L3 octets the program counts: the payload, and the IP and transport
headers once for each segment. -/
theorem l3len_desc (flags : UInt8) (linear : Bytes) {skb : SkBuff} {n payload : Nat}
    (hsegs : segsOf skb = UInt32.ofNat n) (hn : 1 ≤ n) (hn' : n ≤ 65535)
    (hlen : skb.len = UInt32.ofNat (g.headerLength + payload))
    (hpacket : g.headerLength + payload < 2 ^ 31) :
    (l3len skb (g.desc flags linear).parsed).toNat =
      payload + n * (g.ipLength + g.header.length) := by
  obtain ⟨hip, hl4, hl4hdr, -⟩ := g.desc_parsed flags linear
  have hheader := g.header_length_le
  have hiplen : g.ipLength ≤ 40 + 8 * 2048 := g.ip.bytes_length_le g.proto
  have hheaders : g.headerLength = g.l2Length + (g.ipLength + g.header.length) := by
    unfold headerLength
    omega
  have hsize : UInt32.size = 4294967296 := rfl
  have hlen' : skb.len.toNat = g.headerLength + payload := by
    rw [hlen, UInt32.toNat_ofNat_of_lt' (by omega)]
  have hsegs' : (segsOf skb).toNat = n := by
    rw [hsegs, UInt32.toNat_ofNat_of_lt' (by omega)]
  have hl4hdr' : (g.desc flags linear).parsed.l4hdr.toNat = g.header.length := by
    rw [hl4hdr, UInt32.toNat_ofNat_of_lt' (by omega)]
  have hvalue : l3Octets skb (g.desc flags linear).parsed =
      payload + n * (g.ipLength + g.header.length) := by
    rw [l3Octets, hsegs', hlen', hip, hl4, hl4hdr', Nat.add_sub_cancel_left, hheaders]
    obtain ⟨k, rfl⟩ : ∃ k, n = k + 1 := ⟨n - 1, by omega⟩
    rw [Nat.add_sub_cancel, Nat.succ_mul]
    split
    · omega
    -- a single packet takes the branch without the correction
    · obtain rfl : k = 0 := by omega
      omega
  -- every term fits in 32 bits
  have hrepeat : n * (g.ipLength + g.header.length) ≤ 65535 * 16484 :=
    Nat.mul_le_mul hn' (by omega)
  have hfits : l3Octets skb (g.desc flags linear).parsed < 2 ^ 32 := by
    rw [hvalue]
    omega
  rw [l3len_toNat (by rw [hip, hlen']; omega) hfits, hvalue]

/-- The flow update of a run on a packet with these headers. -/
theorem flow?_desc (flags : UInt8) (linear : Bytes) {p : Seen ncpu} {direction : Direction}
    (hhook : p.hook = g.hook direction) (hdata : p.skb.data = (g.desc flags linear).bytes) :
    p.flow? = some (g.key p.skb.ifindex direction,
      flowUpdate p.hook p.skb (g.desc flags linear).parsed) := by
  have hparse : parse p.hook.eth p.skb.data = some (g.desc flags linear).parsed := by
    rw [hhook, hdata]
    exact parse_desc (g.desc flags linear)
  have hskb : (g.desc flags linear).skb p.skb = p.skb := by
    rw [PacketDesc.skb, ← hdata]
  have hkey := flowKey_desc (g.desc flags linear) p.skb direction
  rw [hskb, g.desc_key] at hkey
  rw [Seen.flow?, hparse, Option.map_some, hhook]
  simp only [hook, hkey]

end Gso

/-! ## Many packets of one flow -/

/-- The counters of a flow that may have no entry yet. -/
def countersAt (flows : FlowTable) (k : FlowKey) : UInt64 × UInt64 × UInt16 :=
  match flows.lookup k with
  | none => (0, 0, 0)
  | some v => (v.packets, v.bytes, v.tcpFlags)

/-- Accounting adds to the counters of its key. -/
theorem countersAt_account (k : FlowKey) (u : FlowUpdate) (now : UInt64) (flows : FlowTable) :
    countersAt (account k u now flows) k =
      ((countersAt flows k).1 + u.segs.toUInt64, (countersAt flows k).2.1 + u.l3len.toUInt64,
        (countersAt flows k).2.2 ||| u.tcpf.toUInt16) := by
  unfold countersAt
  rw [account_lookup, if_pos rfl]
  cases flows.lookup k with
  | none => simp [FlowUpdate.create]
  | some v => simp [FlowUpdate.apply]

variable {ncpu : Nat}

/-- `m'` is `m` with these amounts added to the flow `k` and to the aggregate
counters, and nothing else changed in the flow map. -/
structure AddedTo (k : FlowKey) (m m' : Maps ncpu) (packets bytes : Nat) (flags : UInt16) :
    Prop where
  counters : countersAt m'.flows k =
    ((countersAt m.flows k).1 + UInt64.ofNat packets,
      (countersAt m.flows k).2.1 + UInt64.ofNat bytes, (countersAt m.flows k).2.2 ||| flags)
  others : ∀ k', k' ≠ k → m'.flows.lookup k' = m.flows.lookup k'
  seen : statTotal m' .packets = statTotal m .packets + UInt64.ofNat packets
  parsed : statTotal m' .parsed = statTotal m .parsed + UInt64.ofNat packets

theorem AddedTo.refl (k : FlowKey) (m : Maps ncpu) : AddedTo k m m 0 0 0 where
  counters := by simp
  others := fun _ _ => rfl
  seen := by simp
  parsed := by simp

/-- One more packet of the flow. -/
theorem AddedTo.run {k : FlowKey} {m m' : Maps ncpu} {packets bytes : Nat} {flags : UInt16}
    (h : AddedTo k m m' packets bytes flags) {p : Seen ncpu} {u : FlowUpdate}
    (hflow : p.flow? = some (k, u)) :
    AddedTo k m (Seen.run m' p) (packets + u.segs.toNat) (bytes + u.l3len.toNat)
      (flags ||| u.tcpf.toUInt16) := by
  have hflows : (Seen.run m' p).flows = account k u p.now m'.flows := by
    rw [run_flows, hflow, Option.elim_some]
  have hsegs : u.segs = segsOf p.skb := flow?_segs hflow
  refine ⟨?_, ?_, ?_, ?_⟩
  · rw [hflows, countersAt_account, h.counters]
    simp only [UInt64.ofNat_add, UInt64.ofNat_uInt32ToNat, add_assoc, UInt16.or_assoc]
  · intro k' hk'
    rw [hflows, account_lookup, if_neg hk', h.others k' hk']
  · rw [run_statTotal, h.seen, hsegs, UInt64.ofNat_add, UInt64.ofNat_uInt32ToNat, add_assoc]
    rfl
  · rw [run_statTotal, h.parsed, hsegs, UInt64.ofNat_add, UInt64.ofNat_uInt32ToNat, add_assoc]
    simp [Seen.adds, hflow]

theorem run_lookup_isSome {m : Maps ncpu} {p : Seen ncpu} {k : FlowKey} {u : FlowUpdate}
    (hflow : p.flow? = some (k, u)) : ((Seen.run m p).flows.lookup k).isSome = true := by
  rw [run_flows, hflow, Option.elim_some, account_lookup, if_pos rfl]
  rfl

/-! ## The super-packet and its segments -/

namespace Gso

/-- The payload the segments carry. -/
def payloadOf (segs : List (Segment ncpu)) : Bytes :=
  (segs.map Segment.piece).flatten

/-- The union of the segments' flags. -/
def flagsUnion (segs : List (Segment ncpu)) : UInt8 :=
  segs.foldl (fun flags s => flags ||| s.flags) 0

def isTcp (g : Gso) : Bool :=
  match g.header with
  | .tcp _ _ _ _ => true
  | .udp _ _ _ _ => false

section Segments

variable (g : Gso) (skb : SkBuff) (direction : Direction)

/-- What one segment adds to the flow. -/
theorem segment_update (s : Segment ncpu)
    (hlen : g.headerLength + s.piece.length < 2 ^ 31) :
    ∃ u, (g.seenSegment skb direction s).flow? = some (g.key skb.ifindex direction, u) ∧
      u.segs.toNat = 1 ∧ u.l3len.toNat = s.piece.length + (g.ipLength + g.header.length) ∧
      u.tcpf = if g.isTcp then s.flags else 0 := by
  have hflow := g.flow?_desc s.flags (s.piece.take s.linear)
    (p := g.seenSegment skb direction s) rfl rfl
  have hone : segsOf (g.segment skb s) = UInt32.ofNat 1 := by
    unfold segsOf segment
    cases s.single <;> rfl
  refine ⟨_, hflow, ?_, ?_, ?_⟩
  · exact congrArg UInt32.toNat hone
  · have hl3 := g.l3len_desc s.flags (s.piece.take s.linear) hone le_rfl (by decide) rfl hlen
    rw [Nat.one_mul] at hl3
    exact hl3
  · obtain ⟨-, -, -, hflags⟩ := g.desc_parsed s.flags (s.piece.take s.linear)
    refine hflags.trans ?_
    unfold isTcp
    cases g.header <;> rfl

/-- What the super-packet adds to the flow. -/
theorem super_update (payload : Bytes) (linear n : Nat) (cpu : Fin ncpu) (now : UInt64)
    (hn : 1 ≤ n) (hn' : n ≤ 65535) (hlen : g.headerLength + payload.length < 2 ^ 31) :
    ∃ u, (g.seenSuper skb direction payload linear n cpu now).flow? =
        some (g.key skb.ifindex direction, u) ∧
      u.segs.toNat = n ∧
      u.l3len.toNat = payload.length + n * (g.ipLength + g.header.length) ∧
      u.tcpf = g.header.flags := by
  have hflow := g.flow?_desc g.header.flags (payload.take linear)
    (p := g.seenSuper skb direction payload linear n cpu now) rfl rfl
  have hbound : n < UInt32.size := lt_of_le_of_lt hn' (by decide)
  have hcount : segsOf (g.super skb payload linear n) = UInt32.ofNat n := by
    have hne : ¬ UInt32.ofNat n = 0 := by
      intro hzero
      have := congrArg UInt32.toNat hzero
      rw [UInt32.toNat_ofNat_of_lt' hbound] at this
      simp only [UInt32.toNat_zero] at this
      omega
    exact if_neg hne
  refine ⟨_, hflow, ?_, ?_, ?_⟩
  · exact (congrArg UInt32.toNat hcount).trans (UInt32.toNat_ofNat_of_lt' hbound)
  · exact g.l3len_desc g.header.flags (payload.take linear) hcount hn hn' rfl hlen
  · obtain ⟨-, -, -, hflags⟩ := g.desc_parsed g.header.flags (payload.take linear)
    refine hflags.trans ?_
    cases g.header <;> rfl

/-- The segments, one after another. -/
theorem segments_added (segs : List (Segment ncpu)) (m : Maps ncpu)
    (hlen : g.headerLength + (payloadOf segs).length < 2 ^ 31) :
    AddedTo (g.key skb.ifindex direction) m
      ((segs.map (g.seenSegment skb direction)).foldl Seen.run m) segs.length
      ((payloadOf segs).length + segs.length * (g.ipLength + g.header.length))
      (if g.isTcp then (flagsUnion segs).toUInt16 else 0) := by
  -- from the right, as the fold over the segments runs
  induction segs using List.reverseRecOn with
  | nil =>
      have hbytes : (payloadOf ([] : List (Segment ncpu))).length +
          ([] : List (Segment ncpu)).length * (g.ipLength + g.header.length) = 0 := by
        simp [payloadOf]
      have hunion : (if g.isTcp then (flagsUnion ([] : List (Segment ncpu))).toUInt16 else 0) =
          0 := by
        cases g.isTcp <;> rfl
      rw [hbytes, hunion]
      exact AddedTo.refl (g.key skb.ifindex direction) m
  | append_singleton segs s ih =>
      have hpayload : (payloadOf (segs ++ [s])).length =
          (payloadOf segs).length + s.piece.length := by
        simp [payloadOf]
      rw [hpayload] at hlen
      obtain ⟨u, hflow, hsegs, hl3, hflags⟩ := g.segment_update skb direction s (by omega)
      have hstep := (ih (by omega)).run hflow
      rw [List.map_append, List.foldl_append]
      have hunion : (if g.isTcp then (flagsUnion (segs ++ [s])).toUInt16 else 0) =
          (if g.isTcp then (flagsUnion segs).toUInt16 else 0) ||| u.tcpf.toUInt16 := by
        rw [hflags]
        cases g.isTcp <;> simp [flagsUnion]
      rw [hunion, hpayload, List.length_append, List.length_singleton, Nat.succ_mul]
      rw [hsegs, hl3, Nat.add_add_add_comm] at hstep
      exact hstep

theorem segments_lookup_isSome (segs : List (Segment ncpu)) (m : Maps ncpu) (hne : segs ≠ [])
    (hlen : g.headerLength + (payloadOf segs).length < 2 ^ 31) :
    (((segs.map (g.seenSegment skb direction)).foldl Seen.run m).flows.lookup
      (g.key skb.ifindex direction)).isSome = true := by
  obtain ⟨init, last, rfl⟩ := (List.eq_nil_or_concat' segs).resolve_left hne
  have hpiece : g.headerLength + last.piece.length < 2 ^ 31 := by
    simp only [payloadOf, List.map_append, List.flatten_append, List.length_append,
      List.map_cons, List.map_nil, List.flatten_singleton] at hlen
    omega
  obtain ⟨u, hflow, -⟩ := g.segment_update skb direction last hpiece
  rw [List.map_append, List.foldl_append]
  exact run_lookup_isSome hflow

end Segments

theorem lookup_of_countersAt {flows flows' : FlowTable} {k : FlowKey}
    (hsome : (flows.lookup k).isSome = true) (hsome' : (flows'.lookup k).isSome = true)
    (heq : countersAt flows k = countersAt flows' k) :
    ∃ v w, flows.lookup k = some v ∧ flows'.lookup k = some w ∧ v.packets = w.packets ∧
      v.bytes = w.bytes ∧ v.tcpFlags = w.tcpFlags := by
  obtain ⟨v, hv⟩ := Option.isSome_iff_exists.mp hsome
  obtain ⟨w, hw⟩ := Option.isSome_iff_exists.mp hsome'
  simp only [countersAt, hv, hw, Prod.mk.injEq] at heq
  exact ⟨v, w, hv, hw, heq⟩

/-- **A super-packet is accounted like its segments.**  From the same maps,
one run on the super-packet and one run on each segment leave the same key
with the same packets, bytes and flags, no other entry changed, and the same
aggregate counts of packets seen and parsed. -/
theorem gso_accounted_like_segments (g : Gso) (skb : SkBuff) (direction : Direction)
    (segs : List (Segment ncpu)) (linear : Nat) (cpu : Fin ncpu) (now : UInt64) (m : Maps ncpu)
    (hne : segs ≠ []) (hcount : segs.length ≤ 65535)
    (hlen : g.headerLength + (payloadOf segs).length < 2 ^ 31)
    (hflags : g.isTcp = true → flagsUnion segs = g.header.flags) :
    (∃ v w,
      (Seen.run m (g.seenSuper skb direction (payloadOf segs) linear segs.length cpu
        now)).flows.lookup (g.key skb.ifindex direction) = some v ∧
      ((segs.map (g.seenSegment skb direction)).foldl Seen.run m).flows.lookup
        (g.key skb.ifindex direction) = some w ∧
      v.packets = w.packets ∧ v.bytes = w.bytes ∧ v.tcpFlags = w.tcpFlags) ∧
    (∀ k, k ≠ g.key skb.ifindex direction →
      (Seen.run m (g.seenSuper skb direction (payloadOf segs) linear segs.length cpu
        now)).flows.lookup k = m.flows.lookup k ∧
      ((segs.map (g.seenSegment skb direction)).foldl Seen.run m).flows.lookup k =
        m.flows.lookup k) ∧
    (∀ idx, idx = .packets ∨ idx = .parsed →
      statTotal (Seen.run m (g.seenSuper skb direction (payloadOf segs) linear segs.length cpu
        now)) idx =
      statTotal ((segs.map (g.seenSegment skb direction)).foldl Seen.run m) idx) := by
  have hpos : 1 ≤ segs.length := List.length_pos_iff.mpr hne
  obtain ⟨u, hflow, hsegs, hl3, htcpf⟩ :=
    g.super_update skb direction (payloadOf segs) linear segs.length cpu now hpos hcount hlen
  have hsuper := (AddedTo.refl (g.key skb.ifindex direction) m).run hflow
  have hparts := g.segments_added skb direction segs m hlen
  rw [hsegs, hl3, htcpf, Nat.zero_add, Nat.zero_add, UInt16.zero_or] at hsuper
  have hunion : (if g.isTcp then (flagsUnion segs).toUInt16 else 0) =
      g.header.flags.toUInt16 := by
    cases htcp : g.isTcp with
    | true => rw [if_pos rfl, hflags htcp]
    | false =>
        unfold isTcp at htcp
        cases hheader : g.header with
        | tcp h options ho hl => simp [hheader] at htcp
        | udp sport dport tail hl => rfl
  rw [hunion] at hparts
  refine ⟨lookup_of_countersAt (run_lookup_isSome hflow)
    (g.segments_lookup_isSome skb direction segs m hne hlen)
    (hsuper.counters.trans hparts.counters.symm), ?_, ?_⟩
  · intro k hk
    exact ⟨hsuper.others k hk, hparts.others k hk⟩
  · rintro idx (rfl | rfl)
    · exact hsuper.seen.trans hparts.seen.symm
    · exact hsuper.parsed.trans hparts.parsed.symm

/-- An IPv4/TCP packet with four octets of IP options on a bare L3 device. -/
def demoGso : Gso where
  framing := .l3
  ip := .v4
    { tos := 0, totalLength := 0, ident := 7, flags := ⟨2, by decide⟩, fragOffset := 0, ttl := 64,
      checksum := 0, src := ⟨[192, 0, 2, 1], rfl⟩, dst := ⟨[198, 51, 100, 2], rfl⟩,
      optionWords := 1, options := [1, 1, 1, 0], options_length := rfl }
  header := .tcp
    { sport := 443, dport := 50000, seq := 1, ack := 2, dataOffset := ⟨5, by decide⟩,
      reserved := ⟨0, by decide⟩, flags := 0x18 }
    [0, 0, 0, 0, 0, 0] (by decide) rfl
  unfragmented := rfl

/-- Two segments, the second with PSH. -/
def demoSegments : List (Segment 1) :=
  [⟨[1, 2, 3], 3, 0x10, false, ⟨0, Nat.one_pos⟩, 5⟩, ⟨[4, 5], 0, 0x18, true, ⟨0, Nat.one_pos⟩, 6⟩]

theorem gso_accounted_like_segments_demo :
    statTotal (Seen.run (Maps.empty 1 8) (demoGso.seenSuper ⟨[], 0, 7, 0, false, 0⟩ .egress
        (payloadOf demoSegments) 5 2 0 9)) .packets =
      statTotal ((demoSegments.map
        (demoGso.seenSegment ⟨[], 0, 7, 0, false, 0⟩ .egress)).foldl Seen.run
          (Maps.empty 1 8)) .packets :=
  (gso_accounted_like_segments demoGso ⟨[], 0, 7, 0, false, 0⟩ .egress demoSegments 5 0 9
    (Maps.empty 1 8) (by decide) (by decide) (by decide) (by decide)).2.2 .packets (Or.inl rfl)

end Gso

end Bpf
end Obserwrt
