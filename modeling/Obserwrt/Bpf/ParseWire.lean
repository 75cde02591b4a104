import Obserwrt.Bpf.Observe
import Obserwrt.Bpf.Wire

/-!
# Parsing undoes packet construction

The stages of the parser, each against the bytes of a description located in
the linear area: `l3Offset_framing`, `extWalk_chain` (by induction over the
chain), `parseIp_desc` and `parseL4_upper`.  `parse_desc` puts them together,
and `flowKey_desc` is the key built from the result.
-/

namespace Obserwrt
namespace Bpf

open Lib

/-! ## Reading located fields -/

theorem be16_eq (n : UInt16) : be16 n = [UInt8.ofNat (n.toNat / 256), UInt8.ofNat n.toNat] := rfl

section Read

variable {data : Bytes} {p : Nat}

/-- A located 16-bit field reads back. -/
theorem ntohs_be16 {n : UInt16} (h : HasAt data p (be16 n)) : ntohs data p = n := by
  have hlo := h.byteAt (i := 1) (by simp)
  rw [ntohs, h.byteAt_zero (by simp), hlo, be16_eq]
  apply UInt16.toNat_inj.mp
  have hn := n.toNat_lt
  simp only [byteAt, List.getD_cons_zero, List.getD_cons_succ, UInt16.toNat_ofNat',
    UInt8.toNat_ofNat']
  omega

theorem copyAddr_hasAt {a : Addr} (h : HasAt data p a.toList) : copyAddr data p = a := by
  apply Subtype.ext
  exact h.map_range (by simp)

theorem ip4ToIn6_hasAt {a : List.Vector UInt8 4} (h : HasAt data p a.toList) :
    ip4ToIn6 data p = mapped a := by
  have hread := h.map_range (n := 4) (by simp)
  apply Subtype.ext
  simp only [ip4ToIn6, mapped, ← hread]
  rfl

end Read

/-! ## Framing -/

theorem isOuterTag_code (t : OuterTpid) : isOuterTag t.code = true := by
  cases t <;> rfl

theorem isInnerTag_code (t : InnerTpid) : isInnerTag t.code = true := by
  cases t <;> rfl

theorem etherType_cases (ip : IpDesc) :
    isOuterTag ip.etherType = false ∧ isInnerTag ip.etherType = false ∧
      ¬ (ip.etherType ≠ 0x0800 ∧ ip.etherType ≠ 0x86dd) := by
  cases ip with
  | v4 h => exact ⟨rfl, rfl, fun h => h.1 rfl⟩
  | v6 h chain => exact ⟨rfl, rfl, fun h => h.2 rfl⟩

/-- The parser finds the IP header behind any framing. -/
theorem l3Offset_framing (f : Framing) (ip : IpDesc) {data : Bytes}
    (hframing : HasAt data 0 (f.bytes ip.etherType)) (hlen : 2 ≤ data.length) :
    l3Offset f.isEth data = some (f.bytes ip.etherType).length := by
  obtain ⟨houter, hinner, hip⟩ := etherType_cases ip
  have hlen2 : ¬ data.length < 2 := by omega
  cases f with
  | l3 => simp [l3Offset, Framing.isEth, Framing.bytes, hlen2]
  | ethernet dst src tags =>
      have htags : HasAt data 12 (tags.bytes ip.etherType) := by
        have h := HasAt.right (HasAt.right hframing)
        simpa using h
      have hlength := htags.le_length
      cases tags with
      | untagged =>
          have het : ntohs data 12 = ip.etherType := ntohs_be16 htags
          simp only [Tags.bytes, be16_length] at hlength
          have hlen14 : ¬ data.length < 14 := by omega
          simp only [l3Offset, Framing.isEth, hlen2, hlen14, het, houter, hip, if_false]
          simp [Framing.bytes, Tags.bytes]
      | one tpid tci =>
          have hout : ntohs data 12 = tpid.code := ntohs_be16 (HasAt.left htags)
          have het : ntohs data 16 = ip.etherType :=
            ntohs_be16 (HasAt.right (HasAt.right htags))
          simp only [Tags.bytes, List.length_append, be16_length] at hlength
          have hlen14 : ¬ data.length < 14 := by omega
          have hlen18 : ¬ data.length < 18 := by omega
          simp only [l3Offset, Framing.isEth, hlen2, hlen14, hlen18, hout, isOuterTag_code, het,
            hinner, hip, if_true, if_false]
          simp [Framing.bytes, Tags.bytes]
      | two outer outerTci inner innerTci =>
          have hout : ntohs data 12 = outer.code := ntohs_be16 (HasAt.left htags)
          have htags2 : HasAt data 16 (be16 inner.code ++ (be16 innerTci ++ be16 ip.etherType)) :=
            HasAt.right (HasAt.right htags)
          have hin : ntohs data 16 = inner.code := ntohs_be16 htags2.left
          have het : ntohs data 20 = ip.etherType :=
            ntohs_be16 (HasAt.right (HasAt.right htags2))
          simp only [Tags.bytes, List.length_append, be16_length] at hlength
          have hlen14 : ¬ data.length < 14 := by omega
          have hlen18 : ¬ data.length < 18 := by omega
          have hlen22 : ¬ data.length < 22 := by omega
          simp only [l3Offset, Framing.isEth, hlen2, hlen14, hlen18, hlen22, hout,
            isOuterTag_code, hin, isInnerTag_code, het, hip, if_true, if_false]
          simp [Framing.bytes, Tags.bytes]

/-! ## The extension-header chain -/

theorem Ext.bytes_length (e : Ext) (next : UInt8) : 8 ≤ (e.bytes next).length := by
  cases e with
  | options kind len body hbody => simp [Ext.bytes]; omega
  | auth len body hbody => simp [Ext.bytes]; omega
  | firstFragment reserved flags ident => simp [Ext.bytes]

@[simp] theorem LaterFragment.bytes_length (f : LaterFragment) (next : UInt8) :
    (f.bytes next).length = 8 := by
  simp [LaterFragment.bytes]

section Walk

variable {data : Bytes} {l4 : Nat} {next : UInt8}

/-- `ext_next` on a located header steps behind it. -/
theorem extNext_located {ah : Bool} {len : UInt8} {body : Bytes}
    (hbody : body.length + 2 = if ah then (len.toNat + 2) * 4 else (len.toNat + 1) * 8)
    (h : HasAt data l4 ([next, len] ++ body)) :
    extNext data l4 ah = (next, l4 + ([next, len] ++ body).length) := by
  have hsize : ([next, len] ++ body).length =
      if ah then (len.toNat + 2) * 4 else (len.toNat + 1) * 8 := by
    rw [← hbody, List.length_append]
    exact Nat.add_comm 2 _
  have hmin : 8 ≤ ([next, len] ++ body).length := by
    rw [hsize]
    split <;> omega
  have hlength := h.le_length
  have hnext : byteAt data l4 = next := h.byteAt_zero (by omega)
  have hlen : byteAt data (l4 + 1) = len := h.byteAt (by omega)
  rw [extNext, if_neg (by omega), hnext, hlen]
  simp only [← hsize]
  rw [if_neg (by omega)]

/-- The offset field of a located Fragment header. -/
theorem fragment_field {reserved : UInt8} {field : UInt16} {ident : UInt32}
    (h : HasAt data l4 ([next, reserved] ++ (be16 field ++ be32 ident))) :
    ¬ data.length < l4 + 8 ∧ byteAt data l4 = next ∧ ntohs data (l4 + 2) = field := by
  have hlength := h.le_length
  simp only [List.length_append, List.length_cons, List.length_nil, be16_length,
    be32_length] at hlength
  exact ⟨by omega, h.byteAt_zero (by simp), ntohs_be16 h.right.left⟩

theorem firstFragment_offset : ∀ flags : Fin 8, UInt16.ofNat flags >>> 3 = 0 := by
  decide

theorem laterFragment_offset (f : LaterFragment) :
    ¬ UInt16.ofNat (8 * f.offset + f.flags) >>> 3 = 0 := by
  intro hzero
  have hnat := congrArg UInt16.toNat hzero
  have hoffset := f.offset.isLt
  have hflags := f.flags.isLt
  have hpos := f.offset_pos
  simp only [UInt16.toNat_shiftRight, UInt16.toNat_ofNat', UInt16.reduceToNat, Nat.reduceMod,
    Nat.shiftRight_eq_div_pow] at hnat
  omega

/-- One iteration on a located header that is skipped. -/
theorem extWalk_ext (e : Ext) (iter : Nat) (h : HasAt data l4 (e.bytes next))
    (hnext : next ≠ 0) :
    extWalk data (iter + 1) e.proto l4 =
      extWalk data iter next (l4 + (e.bytes next).length) := by
  cases e with
  | options kind len body hbody =>
      have hstep : extNext data l4 false =
          (next, l4 + ((Ext.options kind len body hbody).bytes next).length) :=
        extNext_located hbody h
      cases kind <;> simp [extWalk, Ext.proto, OptKind.proto, hstep, hnext]
  | auth len body hbody =>
      have hstep : extNext data l4 true =
          (next, l4 + ((Ext.auth len body hbody).bytes next).length) :=
        extNext_located hbody h
      simp [extWalk, Ext.proto, hstep, hnext]
  | firstFragment reserved flags ident =>
      obtain ⟨h8, hproto, hfield⟩ := fragment_field h
      simp [extWalk, Ext.proto, h8, hproto, hfield, firstFragment_offset, Ext.bytes]

/-- The walk over a located non-first Fragment header ends behind it. -/
theorem extWalk_later (f : LaterFragment) (iter : Nat) (h : HasAt data l4 (f.bytes next)) :
    extWalk data (iter + 1) 44 l4 = some ⟨next, l4 + 8, false⟩ := by
  obtain ⟨h8, hproto, hfield⟩ := fragment_field h
  have hoffset : ¬ ntohs data (l4 + 2) >>> 3 = 0 := by
    rw [hfield]
    exact laterFragment_offset f
  simp [extWalk, h8, hproto, hoffset]

/-- The walk stops at an upper-layer protocol. -/
theorem extWalk_upper {upper : UInt8} (hupper : isExtProto upper = false) (iter : Nat) :
    extWalk data iter upper l4 = some ⟨upper, l4, true⟩ := by
  simp only [isExtProto, Bool.or_eq_false_iff, beq_eq_false_iff_ne] at hupper
  obtain ⟨⟨⟨⟨⟨h0, h43⟩, h44⟩, h51⟩, h59⟩, h60⟩ := hupper
  cases iter with
  | zero => rfl
  | succ iter => simp [extWalk, h0, h43, h44, h51, h59, h60]

theorem chainProto_ne_zero {later : Option LaterFragment} {upper : UInt8}
    (hupper : isExtProto upper = false) {exts : List Ext}
    (hhop : ∀ e ∈ exts, e.isHopByHop = false) : chainProto later upper exts ≠ 0 := by
  cases exts with
  | nil =>
      simp only [isExtProto, Bool.or_eq_false_iff, beq_eq_false_iff_ne] at hupper
      simp only [chainProto]
      split
      · decide
      · exact hupper.1.1.1.1.1
  | cons e exts =>
      have hhead := hhop e (by simp)
      cases e with
      | options kind len body hbody =>
          cases kind with
          | hopByHop => cases hhead
          | routing => simp [chainProto, Ext.proto, OptKind.proto]
          | destination => simp [chainProto, Ext.proto, OptKind.proto]
      | auth len body hbody => simp [chainProto, Ext.proto]
      | firstFragment reserved flags ident => simp [chainProto, Ext.proto]

/-- **The walk over a located chain** ends behind it, at the upper-layer
protocol, and knows whether a transport header follows. -/
theorem extWalk_chain {later : Option LaterFragment} {upper : UInt8}
    (hupper : isExtProto upper = false) (exts : List Ext) (iter : Nat)
    (hsize : exts.length + (if later.isSome then 1 else 0) ≤ iter)
    (hhop : ∀ e ∈ exts.tail, e.isHopByHop = false)
    (h : HasAt data l4 (chainBytes later upper exts)) :
    extWalk data iter (chainProto later upper exts) l4 =
      some ⟨upper, l4 + (chainBytes later upper exts).length, later.isNone⟩ := by
  -- over the chain, with one iteration of the loop spent on each header
  induction exts generalizing iter l4 with
  | nil =>
      cases later with
      | none => simpa [chainProto, chainBytes] using extWalk_upper hupper iter
      | some f =>
          obtain ⟨iter, rfl⟩ : ∃ n, iter = n + 1 := ⟨iter - 1, by simp at hsize; omega⟩
          simpa [chainProto, chainBytes] using extWalk_later f iter h
  | cons e exts ih =>
      rw [List.length_cons] at hsize
      obtain ⟨iter, rfl⟩ : ∃ n, iter = n + 1 := ⟨iter - 1, by omega⟩
      have hrest : ∀ e' ∈ exts, e'.isHopByHop = false := hhop
      -- next-header 0 is how `ext_next` reports a fault; only Hop-by-Hop has that number
      have hstep := extWalk_ext e iter h.left (chainProto_ne_zero hupper hrest)
      have htail := ih iter (by omega) (fun e' he' => hrest e' (List.mem_of_mem_tail he')) h.right
      rw [chainProto, hstep, htail, chainBytes, List.length_append, Nat.add_assoc]

end Walk

/-! ## The IP header -/

@[simp] theorem Ipv4.bytes_length (h : Ipv4) (proto : UInt8) :
    (h.bytes proto).length = 20 + 4 * h.optionWords := by
  simp only [Ipv4.bytes, List.length_append, List.length_cons, List.length_nil, be16_length,
    List.Vector.toList_length, h.options_length]
  omega

@[simp] theorem Ipv6.bytes_length (h : Ipv6) (next : UInt8) : (h.bytes next).length = 40 := by
  simp [Ipv6.bytes]

theorem ipv4_first_byte : ∀ words : Fin 11, UInt8.ofNat (0x45 + words) >>> 4 = 4 ∧
    (UInt8.ofNat (0x45 + words) &&& 0x0f).toNat * 4 = 20 + 4 * words := by
  decide

theorem ipv6_first_byte : ∀ high : Fin 16, UInt8.ofNat (0x60 + high) >>> 4 = 6 := by
  decide

theorem ipv4_fragment_field (flags : Fin 8) (offset : Fin 8192) :
    (UInt16.ofNat (8192 * flags + offset) &&& 0x1fff == 0) = decide (offset.val = 0) := by
  have hnat : (UInt16.ofNat (8192 * flags + offset) &&& 0x1fff).toNat = offset.val := by
    have hmask : (0x1fff : UInt16).toNat = 2 ^ 13 - 1 := rfl
    rw [UInt16.toNat_and, hmask, Nat.and_two_pow_sub_one_eq_mod, UInt16.toNat_ofNat']
    omega
  rw [Bool.eq_iff_iff, beq_iff_eq, decide_eq_true_iff, ← UInt16.toNat_inj, hnat]
  exact Iff.rfl

section Ip

variable {data : Bytes} {ip : Nat}

/-- A located IPv4 header. -/
theorem parseIp_ipv4 {h : Ipv4} {proto : UInt8} (hat : HasAt data ip (h.bytes proto)) :
    parseIp data ip =
      some { family := 4, proto := proto, l4 := ip + (h.bytes proto).length,
             haveL4 := decide (h.fragOffset.val = 0) } := by
  have hlength := hat.le_length
  rw [Ipv4.bytes_length] at hlength
  obtain ⟨hversion, hihl⟩ := ipv4_first_byte h.optionWords
  have hfirst : byteAt data ip = UInt8.ofNat (0x45 + h.optionWords) := hat.byteAt_zero (by simp)
  have hproto : byteAt data (ip + 9) = proto := hat.byteAt (by rw [Ipv4.bytes_length]; omega)
  have hfield : ntohs data (ip + 6) = UInt16.ofNat (8192 * h.flags + h.fragOffset) :=
    ntohs_be16 (HasAt.left (HasAt.right (HasAt.right (HasAt.right hat))))
  have h2 : ¬ data.length < ip + 2 := by omega
  have h20 : ¬ data.length < ip + 20 := by omega
  have hend : ¬ (20 + 4 * h.optionWords.val < 20 ∨
      data.length < ip + (20 + 4 * h.optionWords.val)) := by omega
  simp only [parseIp, h2, if_false, hfirst, hversion, if_true, h20, hihl, hend, hfield,
    ipv4_fragment_field, hproto, Ipv4.bytes_length]

/-- A located IPv6 header with its chain. -/
theorem parseIp_ipv6 {h : Ipv6} {chain : Chain} {upper : UInt8}
    (hupper : isExtProto upper = false)
    (hat : HasAt data ip ((IpDesc.v6 h chain).bytes upper)) :
    parseIp data ip =
      some { family := 6, proto := upper,
             l4 := ip + ((IpDesc.v6 h chain).bytes upper).length,
             haveL4 := chain.later.isNone } := by
  have hbase := HasAt.left hat
  have hchain := HasAt.right hat
  rw [Ipv6.bytes_length] at hchain
  have hlength := hbase.le_length
  rw [Ipv6.bytes_length] at hlength
  have hhigh : h.trafficClass.toNat / 16 < 16 := by
    have := h.trafficClass.toNat_lt
    omega
  have hversion : UInt8.ofNat (0x60 + h.trafficClass.toNat / 16) >>> 4 = 6 :=
    ipv6_first_byte ⟨_, hhigh⟩
  have hfirst : byteAt data ip = UInt8.ofNat (0x60 + h.trafficClass.toNat / 16) :=
    hbase.byteAt_zero (by simp)
  have hnext : byteAt data (ip + 6) = chainProto chain.later upper chain.exts :=
    hbase.byteAt (by simp)
  have hwalk := extWalk_chain hupper chain.exts maxExtHdr chain.size chain.hopByHop_first hchain
  have h2 : ¬ data.length < ip + 2 := by omega
  have h40 : ¬ data.length < ip + 40 := by omega
  have h64 : ¬ (6 : UInt8) = 4 := by decide
  simp only [parseIp, h2, if_false, hfirst, hversion, h64, if_true, h40, hnext, hwalk,
    Option.map_some, IpDesc.bytes, List.length_append, Ipv6.bytes_length, Nat.add_assoc]

theorem parseIp_desc (desc : IpDesc) {upper : UInt8} (hupper : isExtProto upper = false)
    (hat : HasAt data ip (desc.bytes upper)) :
    parseIp data ip =
      some { family := desc.family, proto := upper, l4 := ip + (desc.bytes upper).length,
             haveL4 := !desc.isLater } := by
  cases desc with
  | v4 h =>
      rw [parseIp_ipv4 hat]
      simp [IpDesc.family, IpDesc.isLater, IpDesc.bytes]
  | v6 h chain =>
      rw [parseIp_ipv6 hupper hat]
      cases hlater : chain.later <;> simp [IpDesc.family, IpDesc.isLater, hlater]

theorem IpDesc.bytes_length (desc : IpDesc) (upper : UInt8) : 20 ≤ (desc.bytes upper).length := by
  cases desc with
  | v4 h =>
      simp only [IpDesc.bytes, Ipv4.bytes_length]
      omega
  | v6 h chain =>
      simp only [IpDesc.bytes, List.length_append, Ipv6.bytes_length]
      omega

end Ip

/-! ## The transport header -/

/-- What the parser should read of a transport header. -/
def Upper.info (u : Upper) : L4Info where
  sport := u.ports.1
  dport := u.ports.2
  icmpType := u.icmpTypeCode.1
  icmpCode := u.icmpTypeCode.2
  tcpf := u.tcpFlags
  l4hdr := UInt32.ofNat u.headerLength

theorem tcp_header_length : ∀ offset reserved : Fin 16,
    (UInt8.ofNat (16 * offset + reserved) >>> 4).toUInt32 <<< 2 =
      UInt32.ofNat (4 * offset) := by
  decide

theorem parseL4_upper {data : Bytes} {l4 : Nat} (u : Upper)
    (hread : ∀ proto bytes, u = .raw proto bytes → hasTransport proto = false)
    (hat : HasAt data l4 u.bytes) : parseL4 data u.proto l4 = some u.info := by
  cases u with
  | tcp h rest =>
      have htcp : HasAt data l4 h.bytes := HasAt.left hat
      have hlength := htcp.le_length
      have hlen : h.bytes.length = 14 := by simp [Tcp.bytes]
      have h14 : ¬ data.length < l4 + 14 := by omega
      have hsport : ntohs data l4 = h.sport := ntohs_be16 (HasAt.left htcp)
      have hdport : ntohs data (l4 + 2) = h.dport := ntohs_be16 (HasAt.left (HasAt.right htcp))
      have hoffset : byteAt data (l4 + 12) = UInt8.ofNat (16 * h.dataOffset + h.reserved) :=
        htcp.byteAt (by omega)
      have hflags : byteAt data (l4 + 13) = h.flags := htcp.byteAt (by omega)
      simp only [parseL4, Upper.proto, if_true, h14, if_false, hsport, hdport, hoffset, hflags,
        tcp_header_length]
      rfl
  | udp sport dport rest =>
      have hlength := hat.le_length
      simp only [Upper.bytes, List.length_append, be16_length] at hlength
      have h4 : ¬ data.length < l4 + 4 := by omega
      have hsport : ntohs data l4 = sport := ntohs_be16 (HasAt.left hat)
      have hdport : ntohs data (l4 + 2) = dport := ntohs_be16 (HasAt.left (HasAt.right hat))
      simp [parseL4, Upper.proto, h4, hsport, hdport, Upper.info, Upper.ports,
        Upper.icmpTypeCode, Upper.tcpFlags, Upper.headerLength]
  | icmp v6 type code rest =>
      have hlength := hat.le_length
      simp only [Upper.bytes, List.length_append, List.length_cons, List.length_nil] at hlength
      have h2 : ¬ data.length < l4 + 2 := by omega
      have htype : byteAt data l4 = type := hat.byteAt_zero (by simp [Upper.bytes])
      have hcode : byteAt data (l4 + 1) = code := hat.byteAt (by simp [Upper.bytes])
      cases v6 <;>
        simp [parseL4, Upper.proto, h2, htype, hcode, Upper.info, Upper.ports,
          Upper.icmpTypeCode, Upper.tcpFlags, Upper.headerLength]
  | raw proto bytes =>
      have hproto := hread proto bytes rfl
      simp only [hasTransport, Bool.or_eq_false_iff, beq_eq_false_iff_ne] at hproto
      obtain ⟨⟨⟨h6, h17⟩, h1⟩, h58⟩ := hproto
      -- no transport header is read, and none is described
      simp [parseL4, Upper.proto, h6, h17, h1, h58, Upper.info, Upper.ports,
        Upper.icmpTypeCode, Upper.tcpFlags, Upper.headerLength]

/-! ## Whole packets -/

/-- What the parser should make of a packet. -/
def PacketDesc.parsed (d : PacketDesc) : Parsed where
  family := d.ip.family
  proto := d.upper.proto
  l4 := (d.framing.bytes d.ip.etherType).length + (d.ip.bytes d.upper.proto).length
  haveL4 := !d.ip.isLater
  toL4Info := if d.ip.isLater then {} else d.upper.info
  ip := (d.framing.bytes d.ip.etherType).length

section Desc

variable (d : PacketDesc)

theorem PacketDesc.hasAt_ip :
    HasAt d.bytes (d.framing.bytes d.ip.etherType).length (d.ip.bytes d.upper.proto) :=
  ⟨d.framing.bytes d.ip.etherType, d.upper.bytes, by simp [PacketDesc.bytes], rfl⟩

theorem PacketDesc.hasAt_upper :
    HasAt d.bytes
      ((d.framing.bytes d.ip.etherType).length + (d.ip.bytes d.upper.proto).length)
      d.upper.bytes :=
  ⟨d.framing.bytes d.ip.etherType ++ d.ip.bytes d.upper.proto, [], by simp [PacketDesc.bytes],
    by simp⟩

/-- **The parser undoes the serialisation.** -/
theorem parse_desc : parse d.framing.isEth d.bytes = some d.parsed := by
  have hframing : HasAt d.bytes 0 (d.framing.bytes d.ip.etherType) := ⟨[], _, rfl, rfl⟩
  have hlen : 2 ≤ d.bytes.length := by
    have := d.hasAt_ip.le_length
    have := d.ip.bytes_length d.upper.proto
    omega
  have hip := parseIp_desc d.ip d.upper_proto d.hasAt_ip
  rw [parse, l3Offset_framing d.framing d.ip hframing hlen]
  simp only [Option.bind_eq_bind, Option.bind_some, hip]
  cases hlater : d.ip.isLater with
  -- a later fragment has no transport header to read
  | true => simp [PacketDesc.parsed, hlater]
  | false =>
      have hl4 := parseL4_upper d.upper (d.upper_read hlater) d.hasAt_upper
      simp [PacketDesc.parsed, hlater, hl4]

/-- An skb that carries the packet, its other fields as in `skb`. -/
def PacketDesc.skb (d : PacketDesc) (skb : SkBuff) : SkBuff :=
  { skb with data := d.bytes }

/-- The hook of a device with the packet's framing. -/
def PacketDesc.hook (d : PacketDesc) (direction : Direction) : Hook :=
  ⟨direction, d.framing.isEth⟩

theorem ipv4_addrs {data : Bytes} {ip : Nat} {h : Ipv4} {proto : UInt8}
    (hat : HasAt data ip (h.bytes proto)) :
    ip4ToIn6 data (ip + 12) = mapped h.src ∧ ip4ToIn6 data (ip + 16) = mapped h.dst := by
  have hsrc : HasAt data (ip + 12) (h.src.toList ++ (h.dst.toList ++ h.options)) :=
    HasAt.right (HasAt.right (HasAt.right (HasAt.right (HasAt.right (HasAt.right hat)))))
  have hdst := hsrc.right.left
  rw [List.Vector.toList_length] at hdst
  exact ⟨ip4ToIn6_hasAt hsrc.left, ip4ToIn6_hasAt hdst⟩

theorem ipv6_addrs {data : Bytes} {ip : Nat} {h : Ipv6} {next : UInt8}
    (hat : HasAt data ip (h.bytes next)) :
    copyAddr data (ip + 8) = h.src ∧ copyAddr data (ip + 24) = h.dst := by
  have hsrc : HasAt data (ip + 8) (h.src.toList ++ h.dst.toList) :=
    HasAt.right (HasAt.right (HasAt.right (HasAt.right hat)))
  have hdst := hsrc.right
  rw [List.Vector.toList_length] at hdst
  exact ⟨copyAddr_hasAt hsrc.left, copyAddr_hasAt hdst⟩

/-- The key built from the parsed packet is the key of the description. -/
theorem flowKey_desc (skb : SkBuff) (direction : Direction) :
    flowKey (d.skb skb) direction d.parsed = d.key skb.ifindex direction := by
  have hat := d.hasAt_ip
  obtain ⟨framing, ip, upper, hproto, hread⟩ := d
  cases ip with
  | v4 h =>
      obtain ⟨hsrc, hdst⟩ := ipv4_addrs hat
      cases hlater : (IpDesc.v4 h).isLater <;>
        simp [flowKey, PacketDesc.skb, PacketDesc.parsed, PacketDesc.key, IpDesc.family, hsrc,
          hdst, hlater, Upper.info]
  | v6 h chain =>
      obtain ⟨hsrc, hdst⟩ := ipv6_addrs (HasAt.left hat)
      cases hlater : (IpDesc.v6 h chain).isLater <;>
        simp [flowKey, PacketDesc.skb, PacketDesc.parsed, PacketDesc.key, IpDesc.family, hsrc,
          hdst, hlater, Upper.info]

theorem accountFlow_lookup {ncpu : Nat} (env : Env ncpu) (hook : Hook) (skb : SkBuff) (p : Parsed)
    (m : Maps ncpu) (hok : env.updateOk = true) :
    ((accountFlow env hook skb p m).flows.lookup (flowKey skb hook.direction p)).isSome = true := by
  unfold accountFlow
  cases hlookup : m.flows.lookup (flowKey skb hook.direction p) with
  | some v => simp [hlookup]
  | none => simp [hlookup, hok, statAdd]

/-- **Parsing undoes construction.**  For every packet description, whatever
the other fields of the skb, the state of the maps and the environment:
`observe` on the serialised packet reaches flow accounting with exactly the
key of the description, and when the map takes the update the key has an
entry afterwards. -/
theorem observe_desc {ncpu : Nat} (skb : SkBuff) (direction : Direction) (env : Env ncpu)
    (m : Maps ncpu) :
    ∃ p, parse (d.hook direction).eth (d.skb skb).data = some p ∧
      flowKey (d.skb skb) direction p = d.key skb.ifindex direction ∧
      observe env (d.hook direction) (d.skb skb) m =
        accountFlow env (d.hook direction) (d.skb skb) p
          (statAdd env.cpu .parsed (segsOf skb).toUInt64
            (countSeen env (d.hook direction) (d.skb skb) m)) ∧
      (env.updateOk = true →
        ((observe env (d.hook direction) (d.skb skb) m).flows.lookup
          (d.key skb.ifindex direction)).isSome = true) := by
  have hparse : parse (d.hook direction).eth (d.skb skb).data = some d.parsed := parse_desc d
  have hkey := flowKey_desc d skb direction
  have hobserve : observe env (d.hook direction) (d.skb skb) m =
      accountFlow env (d.hook direction) (d.skb skb) d.parsed
        (statAdd env.cpu .parsed (segsOf skb).toUInt64
          (countSeen env (d.hook direction) (d.skb skb) m)) := by
    unfold observe
    simp only [hparse]
    rfl
  refine ⟨d.parsed, hparse, hkey, hobserve, fun hok => ?_⟩
  rw [hobserve, ← hkey]
  exact accountFlow_lookup env (d.hook direction) (d.skb skb) d.parsed _ hok

end Desc

/-- A double-tagged UDP packet behind a Hop-by-Hop header, an authentication
header and the Fragment header of a first fragment. -/
def demoDesc : PacketDesc where
  framing := .ethernet ⟨[2, 0, 0, 0, 0, 1], rfl⟩ ⟨[2, 0, 0, 0, 0, 2], rfl⟩
    (.two .dot1ad 100 .dot1q 200)
  ip := .v6
    { trafficClass := 0xb8, flowLabelHigh := 3, flowLabelLow := 0, payloadLength := 40,
      hopLimit := 64, src := List.Vector.replicate 16 1, dst := List.Vector.replicate 16 2 }
    { exts := [.options .hopByHop 0 [0, 0, 0, 0, 0, 0] rfl, .auth 1 (List.replicate 10 0) rfl,
        .firstFragment 0 1 5],
      later := none, size := by decide, hopByHop_first := by decide }
  upper := .udp 53 5353 [0, 8, 0, 0]
  upper_proto := rfl
  upper_read := by
    intro _ proto bytes hraw
    cases hraw

theorem observe_desc_demo :
    ((observe { cpu := 0, now := 5 } (demoDesc.hook .ingress)
      (demoDesc.skb ⟨[], 98, 7, 0, false, 0⟩) (Maps.empty 1 8)).flows.lookup
        (demoDesc.key 7 .ingress)).isSome = true := by
  obtain ⟨p, -, -, -, hentry⟩ := observe_desc demoDesc ⟨[], 98, 7, 0, false, 0⟩ .ingress
    { cpu := 0, now := 5 } (Maps.empty 1 8)
  exact hentry rfl

end Bpf
end Obserwrt
