import Obserwrt.Bpf.Accounting
import Obserwrt.Bpf.L3Len

/-!
# The octets of a packet

The TC programs take a packet's L3 octets from `skb->len`, less the offset of
the IP header; the drop tracer takes them from the IP header.  A frame may
carry link-layer padding behind the IP packet, which the first count includes
and the second does not.
-/

namespace Obserwrt
namespace Bpf

open Lib

/-- The length the IP header at `ip` states: Total Length, or the fixed header
and Payload Length. -/
def ipLength (data : Bytes) (ip : Nat) : Nat :=
  if byteAt data ip >>> 4 = 4 then (ntohs data (ip + 2)).toNat
  else 40 + (ntohs data (ip + 4)).toNat

/-- The bytes of the transport header the parser reads. -/
def transportRead (p : Parsed) : Nat :=
  if p.haveL4 = false then 0
  else if p.proto = 6 then 14
  else if p.proto = 17 then 4
  else if p.proto = 1 ∨ p.proto = 58 then 2
  else 0

/-- The stated length covers the headers the parser went through and is not
beyond the end of the packet. -/
structure HeaderConsistent (skb : SkBuff) (p : Parsed) : Prop where
  covers : p.l4 - p.ip + transportRead p ≤ ipLength skb.data p.ip
  present : p.ip + ipLength skb.data p.ip ≤ skb.len.toNat

/-- The bytes of a frame behind the IP packet in it. -/
def padding (eth : Bool) (skb : SkBuff) : Nat :=
  (l3Offset eth skb.data).elim 0 fun ip => skb.len.toNat - (ip + ipLength skb.data ip)

/-! ## The tracer's length -/

section Tracer

variable {mem : Memory} {l3 ip : Nat} {data : Bytes} {info : IpInfo}

/-- The IP header stage of `drop_parse` reports the length of the header. -/
theorem dropParseIp_l3len {proto : UInt16} {t : DropTuple} {ihl : Nat} {haveL4 : Bool}
    (h : Mirrors mem l3 data ip) (hip : parseIp data ip = some info)
    (hdrop : dropParseIp mem l3 proto = some (t, ihl, haveL4)) :
    t.l3len.toNat = ipLength data ip := by
  have hbase : ip + 20 ≤ data.length ∧ (byteAt data ip >>> 4 = 6 → ip + 40 ≤ data.length) := by
    rcases parseIp_cases hip with ⟨hversion, hlength, -, -, -⟩ | ⟨-, hlength, -⟩
    · refine ⟨hlength, fun hsix => ?_⟩
      rw [hversion] at hsix
      exact absurd hsix (by decide)
    · exact ⟨by omega, fun _ => hlength⟩
  simp only [dropParseIp] at hdrop
  split at hdrop
  · obtain ⟨hdr, hread, hrest⟩ := Option.bind_eq_some_iff.mp hdrop
    have hcopy : Copies hdr 20 data ip := h.copies 0 hread
    have hfirst : byteAt hdr 0 = byteAt data ip := hcopy 0 (by omega) (by omega)
    have hfield : ntohs hdr 2 = ntohs data (ip + 2) := hcopy.ntohs (by omega) (by omega)
    rw [hfirst] at hrest
    split at hrest
    · simp at hrest
    · rename_i hversion
      split at hrest
      · simp at hrest
      · simp only [Option.some.injEq, Prod.mk.injEq] at hrest
        rw [← hrest.1, ipLength, if_pos (by simpa using hversion), hfield]
        exact UInt16.toNat_toUInt32 _
  split at hdrop
  · obtain ⟨hdr, hread, hrest⟩ := Option.bind_eq_some_iff.mp hdrop
    have hcopy : Copies hdr 40 data ip := h.copies 0 hread
    have hfirst : byteAt hdr 0 = byteAt data ip := hcopy 0 (by omega) (by omega)
    rw [hfirst] at hrest
    split at hrest
    · simp at hrest
    · rename_i hversion
      have hsix : byteAt data ip >>> 4 = 6 := by simpa using hversion
      have hlength := hbase.2 hsix
      have hfield : ntohs hdr 4 = ntohs data (ip + 4) := hcopy.ntohs (by omega) (by omega)
      have hsmall := (ntohs data (ip + 4)).toNat_lt
      simp only [Option.some.injEq, Prod.mk.injEq] at hrest
      rw [← hrest.1, ipLength, if_neg (by rw [hsix]; decide), hfield]
      show (40 + (ntohs data (ip + 4)).toUInt32).toNat = 40 + (ntohs data (ip + 4)).toNat
      rw [UInt32.toNat_add, UInt16.toNat_toUInt32]
      simp
      omega
  · simp at hdrop

/-- The transport header does not change the length. -/
theorem dropParse_l3len {proto : UInt16} {t : DropTuple} (h : Mirrors mem l3 data ip)
    (hip : parseIp data ip = some info) (hdrop : dropParse mem l3 proto = some t) :
    t.l3len.toNat = ipLength data ip := by
  obtain ⟨⟨t', ihl, haveL4⟩, hstage, rfl⟩ := Option.map_eq_some_iff.mp hdrop
  rw [← dropParseIp_l3len h hip hstage]
  simp only
  split
  · cases probeRead mem (l3 + ihl) 14 with
    | none => rfl
    | some l4 =>
        simp only [Option.elim_some, dropParseL4]
        split <;> rfl
  · rfl

end Tracer

/-! ## The length of the TC programs -/

variable {ncpu : Nat}

/-- Without segmentation, the octets are everything from the IP header on. -/
theorem l3len_single {skb : SkBuff} {p : Parsed} (hsegs : segsOf skb = 1)
    (hpresent : p.ip ≤ skb.len.toNat) : (l3len skb p).toNat = skb.len.toNat - p.ip := by
  have hlen := skb.len.toNat_lt
  have honce : l3Octets skb p = skb.len.toNat - p.ip := by
    rw [l3Octets, hsegs]
    exact if_neg (by decide)
  rw [l3len_toNat hpresent (by omega), honce]

/-- The octets of the packet's flow after the program run. -/
theorem observe_bytes (env : Env ncpu) (hook : Hook) (skb : SkBuff) (m : Maps ncpu) {p : Parsed}
    (hparse : parse hook.eth skb.data = some p) (hok : env.updateOk = true) :
    ((observe env hook skb m).flows.lookup (flowKey skb hook.direction p)).map FlowVal.bytes =
      some ((m.flows.lookup (flowKey skb hook.direction p)).elim 0 FlowVal.bytes +
        (l3len skb p).toUInt64) := by
  have hseen : (statAdd env.cpu .parsed (segsOf skb).toUInt64
      (countSeen env hook skb m)).flows = m.flows := countSeen_flows m env hook skb
  unfold observe
  simp only [hparse, accountFlow, hseen]
  cases hlookup : m.flows.lookup (flowKey skb hook.direction p) with
  | none => simp [hok, statAdd, FlowUpdate.create, flowUpdate]
  | some v => simp [FlowUpdate.apply, flowUpdate]

/-- **Flow octets and IP octets.**  For every packet without segmentation that
is accounted and whose IP header is consistent, on either framing: the tracer's
length is the length of the IP header, and the octets added to the flow are
that length if and only if nothing follows the IP packet in the frame. -/
theorem flow_octets_exact_iff (env : Env ncpu) (hook : Hook) (skb : SkBuff) (m : Maps ncpu)
    (p : Parsed) (hparse : parse hook.eth skb.data = some p) (hok : env.updateOk = true)
    (hsegs : segsOf skb = 1) (hheader : HeaderConsistent skb p) :
    (∀ mem l3 t, Mirrors mem l3 skb.data p.ip →
        dropParse mem l3 (etherTypeOf p.family) = some t →
        t.l3len.toNat = ipLength skb.data p.ip) ∧
      (((observe env hook skb m).flows.lookup (flowKey skb hook.direction p)).map FlowVal.bytes =
          some ((m.flows.lookup (flowKey skb hook.direction p)).elim 0 FlowVal.bytes +
            UInt64.ofNat (ipLength skb.data p.ip)) ↔
        padding hook.eth skb = 0) := by
  obtain ⟨hoffset, hip, -⟩ := parse_stages hparse
  obtain ⟨-, hpresent⟩ := hheader
  refine ⟨fun mem l3 t hmirror hdrop => dropParse_l3len hmirror hip hdrop, ?_⟩
  have hlen := l3len_single hsegs (p := p) (by omega)
  have hsmall := skb.len.toNat_lt
  have hstated : (UInt64.ofNat (ipLength skb.data p.ip)).toNat = ipLength skb.data p.ip :=
    UInt64.toNat_ofNat_of_lt' (lt_trans (by omega : _ < 2 ^ 32) (by decide))
  have hpadding : padding hook.eth skb = skb.len.toNat - (p.ip + ipLength skb.data p.ip) := by
    rw [padding, hoffset]
    rfl
  rw [observe_bytes env hook skb m hparse hok, Option.some.injEq, add_right_inj,
    ← UInt64.toNat_inj, UInt32.toNat_toUInt64, hlen, hstated, hpadding]
  omega

/-- A UDP packet of 28 octets in an Ethernet frame padded to 60 bytes. -/
def paddedFrame : SkBuff where
  data :=
    [2, 0, 0, 0, 0, 1, 2, 0, 0, 0, 0, 2, 8, 0,
      0x45, 0, 0, 28, 0, 0, 0, 0, 64, 17, 0, 0, 192, 0, 2, 1, 198, 51, 100, 2,
      0, 53, 0, 54, 0, 8, 0, 0] ++ List.replicate 18 0
  len := 60
  ifindex := 7
  gsoSegs := 0
  vlanPresent := false
  vlanTci := 0

/-- The same packet before a device padded it. -/
def unpaddedFrame : SkBuff :=
  { paddedFrame with data := paddedFrame.data.take 42, len := 42 }

/-- What the parser makes of both. -/
def framedUdp : Parsed where
  family := 4
  proto := 17
  l4 := 34
  haveL4 := true
  ip := 14
  sport := 53
  dport := 54
  l4hdr := 8

/-- **Padding is counted**: a consistent packet of 28 octets adds 46. -/
theorem padded_frame_counted_in_full :
    parse true paddedFrame.data = some framedUdp ∧ segsOf paddedFrame = 1 ∧
      HeaderConsistent paddedFrame framedUdp ∧ ipLength paddedFrame.data 14 = 28 ∧
      ((observe { cpu := 0, now := 5 } obserwrtIngressEth paddedFrame (Maps.empty 1 8)).flows.lookup
        (flowKey paddedFrame .ingress framedUdp)).map FlowVal.bytes = some 46 := by
  refine ⟨by decide +kernel, by decide, ⟨by decide +kernel, by decide +kernel⟩,
    by decide +kernel, by decide +kernel⟩

theorem flow_octets_exact_iff_demo :
    ((observe { cpu := 0, now := 5 } obserwrtIngressEth unpaddedFrame
      (Maps.empty 1 8)).flows.lookup (flowKey unpaddedFrame .ingress framedUdp)).map
        FlowVal.bytes = some 28 := by
  have hiff := (flow_octets_exact_iff { cpu := 0, now := 5 } obserwrtIngressEth unpaddedFrame
    (Maps.empty 1 8) framedUdp (by decide +kernel) rfl (by decide)
    ⟨by decide +kernel, by decide +kernel⟩).2
  have hexact := hiff.mpr (by decide +kernel)
  have hlength : ipLength unpaddedFrame.data framedUdp.ip = 28 := by decide +kernel
  rw [hlength] at hexact
  exact hexact

end Bpf
end Obserwrt
