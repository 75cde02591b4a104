import Obserwrt.Flow
import Obserwrt.Lib.Logfmt

/-!
# The syslog record and its two payloads

`make_record`, `encode_json` and `encode_logfmt` of `exporter_syslog.cpp`.  The
vendored JSON library writes strings in the standard escape, and its `dump`
fails on strings that are not UTF-8; with `JSON_NOEXCEPTION` that failure is an
abort of the daemon, which is `none` here.  `inet_ntop` and `inet_pton` are
parameters.
-/

namespace Obserwrt
namespace Syslog

open Lib

/-- The text form of IPv6 addresses: `inet_ntop` writes ASCII, and `inet_pton`
reads what it wrote. -/
structure InetText where
  ntop : Addr → Bytes
  pton : Bytes → Option Addr
  ntop_ascii : ∀ a, ∀ b ∈ ntop a, b < 128
  pton_ntop : ∀ a, pton (ntop a) = some a

/-- `struct DropInfo`. -/
structure DropInfo where
  forwardingStatus : UInt8
  reason : Bytes
  deriving DecidableEq

/-- `struct SyslogRecord`. -/
structure SyslogRecord where
  ifindex : UInt32
  ifname : Bytes
  direction : Bytes
  family : UInt8
  protocol : UInt8
  icmpType : UInt8
  icmpCode : UInt8
  src : Bytes
  dst : Bytes
  sport : UInt16
  dport : UInt16
  packets : UInt64
  bytes : UInt64
  firstSeenNs : UInt64
  lastSeenNs : UInt64
  tcpFlags : UInt16
  vlanId : UInt16
  dscp : UInt8
  expired : Bool
  forwardingStatus : UInt8
  dropReason : Bytes
  deriving DecidableEq

/-- `%u.%u.%u.%u` of four bytes. -/
def dottedQuad (a b c d : UInt8) : Bytes :=
  decimalBytes a.toNat ++ 46 :: (decimalBytes b.toNat ++ 46 ::
    (decimalBytes c.toNat ++ 46 :: decimalBytes d.toNat))

/-- `addr_text`. -/
def addrText (inet : InetText) (a : Addr) (family : UInt8) : Bytes :=
  if family = 4 then
    dottedQuad (byteAt a.toList 12) (byteAt a.toList 13) (byteAt a.toList 14) (byteAt a.toList 15)
  else inet.ntop a

/-- `make_record`. -/
def makeRecord (inet : InetText) (k : FlowKey) (v : FlowVal) (expired : Bool)
    (delta : Option Delta) (ifname : Bytes) (drop : Option DropInfo) : SyslogRecord where
  ifindex := k.ifindex
  ifname := ifname
  direction := if k.direction = Direction.ingress.code then text "ingress" else text "egress"
  family := k.family
  protocol := k.protocol
  icmpType := k.icmpType
  icmpCode := k.icmpCode
  src := addrText inet k.src k.family
  dst := addrText inet k.dst k.family
  sport := k.sport
  dport := k.dport
  packets := (delta.map Delta.packets).getD v.packets
  bytes := (delta.map Delta.bytes).getD v.bytes
  firstSeenNs := v.firstSeen
  lastSeenNs := v.lastSeen
  tcpFlags := v.tcpFlags
  vlanId := v.vlanId
  dscp := v.tos >>> 2
  expired := expired
  forwardingStatus := (drop.map DropInfo.forwardingStatus).getD 0
  dropReason := (drop.map DropInfo.reason).getD []

/-- The members of the `ordered_json` object, in insertion order. -/
def SyslogRecord.object (r : SyslogRecord) : Members :=
  [(text "ifindex", .num r.ifindex.toNat),
   (text "ifname", .str r.ifname),
   (text "direction", .str r.direction),
   (text "family", .num r.family.toNat),
   (text "protocol", .num r.protocol.toNat),
   (text "icmp_type", .num r.icmpType.toNat),
   (text "icmp_code", .num r.icmpCode.toNat),
   (text "src", .str r.src),
   (text "dst", .str r.dst),
   (text "sport", .num r.sport.toNat),
   (text "dport", .num r.dport.toNat),
   (text "packets", .num r.packets.toNat),
   (text "bytes", .num r.bytes.toNat),
   (text "first_seen_ns", .num r.firstSeenNs.toNat),
   (text "last_seen_ns", .num r.lastSeenNs.toNat),
   (text "tcp_flags", .num r.tcpFlags.toNat),
   (text "vlan_id", .num r.vlanId.toNat),
   (text "dscp", .num r.dscp.toNat),
   (text "expired", .bool r.expired),
   (text "forwarding_status", .num r.forwardingStatus.toNat),
   (text "drop_reason", .str r.dropReason)]

/-- `encode_json`. -/
def encodeJson (inet : InetText) (k : FlowKey) (v : FlowVal) (expired : Bool)
    (delta : Option Delta) (ifname : Bytes) (drop : Option DropInfo) : Option Bytes :=
  dumpObject (makeRecord inet k v expired delta ifname drop).object

/-- What `encode_logfmt` appends, one entry for each append; the four dumped
strings come in as their dumps. -/
def SyslogRecord.appends (r : SyslogRecord) (ifname src dst dropReason : Bytes) : List Bytes :=
  [text "ifindex=", decimalBytes r.ifindex.toNat,
   text " ifname=", ifname,
   text " direction=", r.direction,
   text " family=", decimalBytes r.family.toNat,
   text " protocol=", decimalBytes r.protocol.toNat,
   text " icmp_type=", decimalBytes r.icmpType.toNat,
   text " icmp_code=", decimalBytes r.icmpCode.toNat,
   text " src=", src,
   text " dst=", dst,
   text " sport=", decimalBytes r.sport.toNat,
   text " dport=", decimalBytes r.dport.toNat,
   text " packets=", decimalBytes r.packets.toNat,
   text " bytes=", decimalBytes r.bytes.toNat,
   text " first_seen_ns=", decimalBytes r.firstSeenNs.toNat,
   text " last_seen_ns=", decimalBytes r.lastSeenNs.toNat,
   text " tcp_flags=", decimalBytes r.tcpFlags.toNat,
   text " vlan_id=", decimalBytes r.vlanId.toNat,
   text " dscp=", decimalBytes r.dscp.toNat,
   text " expired=", if r.expired then text "1" else text "0",
   text " forwarding_status=", decimalBytes r.forwardingStatus.toNat,
   text " drop_reason=", dropReason]

/-- The line of a record. -/
def SyslogRecord.logfmt (r : SyslogRecord) : Option Bytes :=
  (dumpString r.ifname).bind fun ifname =>
    (dumpString r.src).bind fun src =>
      (dumpString r.dst).bind fun dst =>
        (dumpString r.dropReason).map fun reason =>
          (r.appends ifname src dst reason).flatten

/-- `encode_logfmt`. -/
def encodeLogfmt (inet : InetText) (k : FlowKey) (v : FlowVal) (expired : Bool)
    (delta : Option Delta) (ifname : Bytes) (drop : Option DropInfo) : Option Bytes :=
  (makeRecord inet k v expired delta ifname drop).logfmt

/-! ## The record behind a payload -/

/-- The 21 field names, in order. -/
def fieldNames : List Bytes :=
  ["ifindex", "ifname", "direction", "family", "protocol", "icmp_type", "icmp_code", "src", "dst",
    "sport", "dport", "packets", "bytes", "first_seen_ns", "last_seen_ns", "tcp_flags", "vlan_id",
    "dscp", "expired", "forwarding_status", "drop_reason"].map text

/-- The fields whose value is a flag. -/
def flagNames : List Bytes := [text "expired"]

/-- The record with the given values. -/
def SyslogRecord.ofValues : List Scalar → Option SyslogRecord
  | [.num ifindex, .str ifname, .str direction, .num family, .num protocol, .num icmpType,
      .num icmpCode, .str src, .str dst, .num sport, .num dport, .num packets, .num bytes,
      .num firstSeenNs, .num lastSeenNs, .num tcpFlags, .num vlanId, .num dscp, .bool expired,
      .num forwardingStatus, .str dropReason] =>
      some {
        ifindex := .ofNat ifindex, ifname := ifname, direction := direction
        family := .ofNat family, protocol := .ofNat protocol
        icmpType := .ofNat icmpType, icmpCode := .ofNat icmpCode, src := src, dst := dst
        sport := .ofNat sport, dport := .ofNat dport
        packets := .ofNat packets, bytes := .ofNat bytes
        firstSeenNs := .ofNat firstSeenNs, lastSeenNs := .ofNat lastSeenNs
        tcpFlags := .ofNat tcpFlags, vlanId := .ofNat vlanId, dscp := .ofNat dscp
        expired := expired, forwardingStatus := .ofNat forwardingStatus
        dropReason := dropReason }
  | _ => none

/-- The record of a list of fields: the 21 fields, in their order and of their kinds. -/
def SyslogRecord.ofFields (fields : Members) : Option SyslogRecord :=
  if fields.map Prod.fst = fieldNames then SyslogRecord.ofValues (fields.map Prod.snd) else none

theorem object_names (r : SyslogRecord) : r.object.map Prod.fst = fieldNames :=
  rfl

theorem ofFields_object (r : SyslogRecord) : SyslogRecord.ofFields r.object = some r := by
  rw [SyslogRecord.ofFields, if_pos (object_names r)]
  simp [SyslogRecord.object, SyslogRecord.ofValues]

/-! ## Addresses -/

/-- A number below 256. -/
def readByte (bs : Bytes) : Option (UInt8 × Bytes) :=
  (readNat bs).bind fun r => if r.1 < 256 then some (UInt8.ofNat r.1, r.2) else none

/-- Read a dotted quad. -/
def readQuad (bs : Bytes) : Option Bytes :=
  (readByte bs).bind fun a =>
    (expect [46] a.2).bind fun rest =>
      (readByte rest).bind fun b =>
        (expect [46] b.2).bind fun rest =>
          (readByte rest).bind fun c =>
            (expect [46] c.2).bind fun rest =>
              (readByte rest).bind fun d =>
                if d.2 = [] then some [a.1, b.1, c.1, d.1] else none

/-- Read an address of a record: the four octets of an IPv4 address, or all sixteen. -/
def readAddr (inet : InetText) (family : UInt8) (t : Bytes) : Option Bytes :=
  if family = 4 then readQuad t else (inet.pton t).map List.Vector.toList

/-- The octets of a key's address that say something. -/
def addrOctets (a : Addr) (family : UInt8) : Bytes :=
  if family = 4 then
    [byteAt a.toList 12, byteAt a.toList 13, byteAt a.toList 14, byteAt a.toList 15]
  else a.toList

theorem readByte_decimalBytes (b : UInt8) {rest : Bytes} (hrest : NoDigit rest) :
    readByte (decimalBytes b.toNat ++ rest) = some (b, rest) := by
  rw [readByte, readNat_decimalBytes b.toNat hrest, Option.bind_some, if_pos b.toNat_lt,
    UInt8.ofNat_toNat]

theorem readQuad_dottedQuad (a b c d : UInt8) :
    readQuad (dottedQuad a b c d) = some [a, b, c, d] := by
  have hdot : ∀ rest, NoDigit (46 :: rest) := fun rest => (noDigit_cons 46 rest).mpr (by decide)
  have hlast := readByte_decimalBytes d noDigit_nil
  rw [List.append_nil] at hlast
  simp only [readQuad, dottedQuad, readByte_decimalBytes _ (hdot _), expect_mark,
    Option.bind_some, hlast, if_true]

/-- An address is read back from its text. -/
theorem readAddr_addrText (inet : InetText) (a : Addr) (family : UInt8) :
    readAddr inet family (addrText inet a family) = some (addrOctets a family) := by
  by_cases hfamily : family = 4
  · simp only [readAddr, addrText, addrOctets, hfamily, if_true, readQuad_dottedQuad]
  · simp only [readAddr, addrText, addrOctets, hfamily, if_false, inet.pton_ntop, Option.map_some]

theorem digit_ascii : ∀ d : UInt8, isDigitByte d = true → d < 128 :=
  forall_byte (by decide +kernel)

theorem decimalBytes_ascii (n : Nat) : ∀ b ∈ decimalBytes n, b < 128 :=
  fun b hb => digit_ascii b (decimalBytes_isDigit n b hb)

/-- The text of an address is ASCII. -/
theorem addrText_ascii (inet : InetText) (a : Addr) (family : UInt8) :
    ∀ b ∈ addrText inet a family, b < 128 := by
  rw [addrText]
  split
  · intro b hb
    simp only [dottedQuad, List.mem_append, List.mem_cons] at hb
    rcases hb with hb | rfl | hb | rfl | hb | rfl | hb
    · exact decimalBytes_ascii _ b hb
    · decide
    · exact decimalBytes_ascii _ b hb
    · decide
    · exact decimalBytes_ascii _ b hb
    · decide
    · exact decimalBytes_ascii _ b hb
  · exact inet.ntop_ascii a

/-! ## Addresses in full -/

/-- Two hexadecimal digits. -/
def hexPair (b : UInt8) : Bytes := [hexByte (b.toNat / 16), hexByte (b.toNat % 16)]

/-- Sixteen octets in groups of four digits.  This is `inet_ntop` on addresses
without a group below `1000`. -/
def groupsText : Bytes → Bytes
  | a :: b :: c :: rest => hexPair a ++ (hexPair b ++ 58 :: groupsText (c :: rest))
  | rest => rest.flatMap hexPair

def readPairs : Bytes → Option Bytes
  | [] => some []
  | [_] => none
  | h :: l :: rest =>
      (hexValue h).bind fun high =>
        (hexValue l).bind fun low =>
          (readPairs rest).map fun bs => UInt8.ofNat (16 * high + low) :: bs

theorem hexPair_digits : ∀ b : UInt8,
    (hexPair b).all (fun d => d != 58 && d < 128) = true ∧
      hexValue (hexByte (b.toNat / 16)) = some (b.toNat / 16) ∧
      hexValue (hexByte (b.toNat % 16)) = some (b.toNat % 16) :=
  forall_byte (by decide +kernel)

theorem readPairs_hexPairs (bs : Bytes) : readPairs (bs.flatMap hexPair) = some bs := by
  induction bs with
  | nil => rfl
  | cons b bs ih =>
      obtain ⟨-, hhigh, hlow⟩ := hexPair_digits b
      have hpair : (b :: bs).flatMap hexPair =
          hexByte (b.toNat / 16) :: hexByte (b.toNat % 16) :: bs.flatMap hexPair := rfl
      rw [hpair, readPairs, hhigh, hlow, Option.bind_some, Option.bind_some, ih, Option.map_some,
        Nat.div_add_mod, UInt8.ofNat_toNat]

theorem hexPair_filter (b : UInt8) : (hexPair b).filter (· != 58) = hexPair b := by
  rw [List.filter_eq_self]
  intro d hd
  have hdigit := List.all_eq_true.mp (hexPair_digits b).1 d hd
  simp only [Bool.and_eq_true] at hdigit
  exact hdigit.1

theorem hexPairs_filter (bs : Bytes) :
    (bs.flatMap hexPair).filter (· != 58) = bs.flatMap hexPair := by
  induction bs with
  | nil => rfl
  | cons b bs ih => rw [List.flatMap_cons, List.filter_append, hexPair_filter, ih]

theorem groupsText_filter (bs : Bytes) :
    (groupsText bs).filter (· != 58) = bs.flatMap hexPair := by
  induction bs using groupsText.induct with
  | case1 a b c rest ih =>
      rw [groupsText, List.filter_append, List.filter_append, hexPair_filter, hexPair_filter,
        List.filter_cons_of_neg (by decide), ih]
      rfl
  | case2 rest hshort =>
      rw [groupsText]
      · exact hexPairs_filter rest
      · exact hshort

theorem groupsText_ascii (bs : Bytes) : ∀ d ∈ groupsText bs, d < 128 := by
  have hpair : ∀ b, ∀ d ∈ hexPair b, d < 128 := by
    intro b d hd
    have hdigit := List.all_eq_true.mp (hexPair_digits b).1 d hd
    simp only [Bool.and_eq_true, decide_eq_true_eq] at hdigit
    exact hdigit.2
  induction bs using groupsText.induct with
  | case1 a b c rest ih =>
      intro d hd
      rw [groupsText] at hd
      simp only [List.mem_append, List.mem_cons] at hd
      rcases hd with hd | hd | rfl | hd
      · exact hpair a d hd
      · exact hpair b d hd
      · decide
      · exact ih d hd
  | case2 rest hshort =>
      intro d hd
      rw [groupsText] at hd
      · obtain ⟨b, -, hd⟩ := List.mem_flatMap.mp hd
        exact hpair b d hd
      · exact hshort

/-- Addresses written out in full. -/
def fullForm : InetText where
  ntop a := groupsText a.toList
  pton t :=
    (readPairs (t.filter (· != 58))).bind fun bs =>
      if hlength : bs.length = 16 then some ⟨bs, hlength⟩ else none
  ntop_ascii a := groupsText_ascii a.toList
  pton_ntop a := by
    rw [groupsText_filter, readPairs_hexPairs, Option.bind_some, dif_pos a.toList_length]
    rfl

end Syslog
end Obserwrt
