import Obserwrt.Bpf.Observe

/-!
# The drop tracer

The program of `obserwrt-drops.c`, attached to the `kfree_skb` tracepoint.  It
reads the dropped packet's headers from kernel memory (every read may fault)
with a parser of its own, which is simpler than that of the TC programs, and
counts the packet under its flow and the raw drop reason.  The second half
shows that the two parsers name the same flow.
-/

namespace Obserwrt
namespace Bpf

open Lib

/-- `struct drop_key`. -/
structure DropKey where
  flow : FlowKey
  reserved : UInt16
  reason : UInt32
  deriving DecidableEq

/-- The map `obserwrt_drops`. -/
abbrev DropTable := Store DropKey FlowVal

/-- Kernel memory from some address on; `none` where a read faults. -/
abbrev Memory := Nat → Option UInt8

/-- `bpf_probe_read_kernel`. -/
def probeRead (mem : Memory) (addr n : Nat) : Option Bytes :=
  (List.range n).mapM fun i => mem (addr + i)

/-- The fields of `struct sk_buff` the tracer reads.  `dev` is the ifindex of
the device, `none` for a null pointer; `protocol` is in host order; `head` is
the memory behind the pointer. -/
structure TracedSkb where
  dev : Option UInt32
  skbIif : UInt32
  protocol : UInt16
  networkHeader : UInt16
  head : Option Memory

/-- What `drop_parse` leaves in its arguments, with the length it returns. -/
structure DropTuple where
  family : UInt8
  protocol : UInt8
  src : Addr
  dst : Addr
  sport : UInt16 := 0
  dport : UInt16 := 0
  icmpType : UInt8 := 0
  icmpCode : UInt8 := 0
  tcpf : UInt8 := 0
  tos : UInt8
  l3len : UInt32

/-- The IP header in `drop_parse`: the tuple so far, where the transport header
starts, and whether there is one. -/
def dropParseIp (mem : Memory) (l3 : Nat) (proto : UInt16) : Option (DropTuple × Nat × Bool) :=
  if proto = 0x0800 then do
    let hdr ← probeRead mem l3 20
    if byteAt hdr 0 >>> 4 ≠ 4 then none
    else
      let ihl := (byteAt hdr 0 &&& 0x0f).toNat * 4
      if ihl < 20 then none
      else
        some ({ family := 4, protocol := byteAt hdr 9, tos := byteAt hdr 1,
                src := ip4ToIn6 hdr 12, dst := ip4ToIn6 hdr 16,
                l3len := (ntohs hdr 2).toUInt32 },
              ihl, ntohs hdr 6 &&& 0x1fff == 0)
  else if proto = 0x86dd then do
    let hdr ← probeRead mem l3 40
    if byteAt hdr 0 >>> 4 ≠ 6 then none
    else
      some ({ family := 6, protocol := byteAt hdr 6,
              tos := (byteAt hdr 0 <<< 4) ||| (byteAt hdr 1 >>> 4),
              src := copyAddr hdr 8, dst := copyAddr hdr 24,
              l3len := 40 + (ntohs hdr 4).toUInt32 },
            40, true)
  else none

/-- A protocol whose transport header `drop_parse` looks at. -/
def hasL4Fields (proto : UInt8) : Prop :=
  proto = 6 ∨ proto = 17 ∨ proto = 1 ∨ proto = 58

instance (proto : UInt8) : Decidable (hasL4Fields proto) :=
  inferInstanceAs (Decidable (_ ∨ _))

/-- The transport header in `drop_parse`, with 14 bytes of it read. -/
def dropParseL4 (l4 : Bytes) (t : DropTuple) : DropTuple :=
  if t.protocol = 6 ∨ t.protocol = 17 then
    { t with sport := ntohs l4 0, dport := ntohs l4 2,
             tcpf := if t.protocol = 6 then byteAt l4 13 else t.tcpf }
  else
    { t with icmpType := byteAt l4 0, icmpCode := byteAt l4 1 }

/-- `drop_parse`; `none` where it returns 0 before the protocol is set.  A
fault on the transport header leaves the ports zero. -/
def dropParse (mem : Memory) (l3 : Nat) (proto : UInt16) : Option DropTuple :=
  (dropParseIp mem l3 proto).map fun (t, ihl, haveL4) =>
    if haveL4 ∧ hasL4Fields t.protocol then
      (probeRead mem (l3 + ihl) 14).elim t fun l4 => dropParseL4 l4 t
    else t

/-- The tuple of a dropped packet, if `drop_parse` returns a length. -/
def dropTuple (skb : TracedSkb) : Option DropTuple :=
  -- no head, or a network header that was never set
  if skb.networkHeader = 0xffff then none
  else
    (skb.head.bind fun mem => dropParse mem skb.networkHeader.toNat skb.protocol).filter
      fun t => t.l3len ≠ 0

/-- The key of a drop on the device `ifindex`. -/
def dropKey (ifindex : UInt32) (skb : TracedSkb) (reason : UInt32) (t : DropTuple) : DropKey where
  flow := {
    ifindex := ifindex
    direction := if skb.skbIif = ifindex then Direction.ingress.code else Direction.egress.code
    family := t.family
    protocol := t.protocol
    reserved := 0
    src := t.src
    dst := t.dst
    sport := t.sport
    dport := t.dport
    icmpType := t.icmpType
    icmpCode := t.icmpCode }
  reserved := 0
  reason := reason

/-- What a dropped packet adds to its record: one packet and its IP length. -/
def DropTuple.update (t : DropTuple) : FlowUpdate where
  segs := 1
  l3len := t.l3len
  tcpf := t.tcpf
  vlanId := 0
  tos := t.tos

/-- Count a drop under its key: add to the entry found, else create it. -/
def recordDrop (key : DropKey) (u : FlowUpdate) (now : UInt64) (drops : DropTable) : DropTable :=
  drops.insert key ((drops.lookup key).elim (u.create now) (u.apply now))

variable {ncpu : Nat}

/-- What the tracer reads and writes: the counters it shares with the TC
object, the marks of attached devices and the drop map. -/
structure TracerMaps (ncpu : Nat) where
  maps : Maps ncpu
  attached : Store UInt32 UInt8
  drops : DropTable

/-- `obserwrt_kfree_skb`. -/
def kfreeSkb (cpu : Fin ncpu) (now : UInt64) (skb : TracedSkb) (reason : UInt32)
    (m : TracerMaps ncpu) : TracerMaps ncpu :=
  match skb.dev with
  | none => m
  | some ifindex =>
      if (m.attached.lookup ifindex).isNone then m
      else
        let m := { m with maps := statAdd cpu .drops 1 m.maps }
        match dropTuple skb with
        | none => { m with maps := statAdd cpu .dropsUnparsed 1 m.maps }
        | some t =>
            { m with drops := recordDrop (dropKey ifindex skb reason t) t.update now m.drops }

/-! ## The two parsers agree -/

/-- The memory from `l3` on holds the packet from the offset `ip` on, wherever
it can be read.  What lies behind the packet is anything. -/
def Mirrors (mem : Memory) (l3 : Nat) (data : Bytes) (ip : Nat) : Prop :=
  ∀ i b, mem (l3 + i) = some b → ip + i < data.length → b = byteAt data (ip + i)

/-- `bs` holds the first `n` bytes of the packet from the offset `base` on, as
far as the packet goes. -/
def Copies (bs : Bytes) (n : Nat) (data : Bytes) (base : Nat) : Prop :=
  ∀ i < n, base + i < data.length → byteAt bs i = byteAt data (base + i)

namespace Copies

variable {bs data : Bytes} {n base : Nat}

theorem ntohs (h : Copies bs n data base) {p : Nat} (hn : p + 2 ≤ n)
    (hdata : base + p + 2 ≤ data.length) : Bpf.ntohs bs p = Bpf.ntohs data (base + p) := by
  rw [Bpf.ntohs, Bpf.ntohs, h p (by omega) (by omega), h (p + 1) (by omega) (by omega)]
  rfl

theorem ip4ToIn6 (h : Copies bs n data base) {p : Nat} (hn : p + 4 ≤ n)
    (hdata : base + p + 4 ≤ data.length) : Bpf.ip4ToIn6 bs p = Bpf.ip4ToIn6 data (base + p) := by
  apply Subtype.ext
  simp only [Bpf.ip4ToIn6, h p (by omega) (by omega), h (p + 1) (by omega) (by omega),
    h (p + 2) (by omega) (by omega), h (p + 3) (by omega) (by omega), Nat.add_assoc]

theorem copyAddr (h : Copies bs n data base) {p : Nat} (hn : p + 16 ≤ n)
    (hdata : base + p + 16 ≤ data.length) : Bpf.copyAddr bs p = Bpf.copyAddr data (base + p) := by
  apply Subtype.ext
  simp only [Bpf.copyAddr]
  refine List.map_congr_left fun i hi => ?_
  have hlt : i < 16 := List.mem_range.mp hi
  rw [h (p + i) (by omega) (by omega), Nat.add_assoc]

end Copies

/-- A read that succeeds returns the memory byte by byte. -/
theorem probeRead_bytes {mem : Memory} {addr n : Nat} {bs : Bytes}
    (hread : probeRead mem addr n = some bs) :
    bs.length = n ∧ ∀ i < n, mem (addr + i) = some (byteAt bs i) := by
  induction n generalizing bs with
  | zero =>
      simp only [probeRead, List.range_zero, List.mapM_nil, Option.pure_def,
        Option.some.injEq] at hread
      subst hread
      simp
  | succ n ih =>
      rw [probeRead, List.range_succ, List.mapM_append] at hread
      simp only [Option.bind_eq_bind, Option.bind_eq_some_iff, List.mapM_cons, List.mapM_nil,
        Option.pure_def, Option.some.injEq] at hread
      obtain ⟨front, hfront, back, ⟨b, hlast, rest, rfl, rfl⟩, rfl⟩ := hread
      obtain ⟨hlength, hbytes⟩ := ih hfront
      refine ⟨by simp [hlength], fun i hi => ?_⟩
      rcases Nat.lt_succ_iff_lt_or_eq.mp hi with hlt | rfl
      · rw [hbytes i hlt, byteAt_append_left _ (hlength ▸ hlt)]
      · rw [hlast]
        simp [byteAt, hlength]

/-- A probe read copies the packet. -/
theorem Mirrors.copies {mem : Memory} {l3 ip : Nat} {data : Bytes} (h : Mirrors mem l3 data ip)
    (off : Nat) {n : Nat} {bs : Bytes} (hread : probeRead mem (l3 + off) n = some bs) :
    Copies bs n data (ip + off) := by
  intro i hi hdata
  have hbyte := (probeRead_bytes hread).2 i hi
  rw [Nat.add_assoc] at hbyte hdata ⊢
  exact h (off + i) (byteAt bs i) hbyte hdata

/-- The EtherType the kernel puts into `skb->protocol` for an IP version. -/
def etherTypeOf (family : UInt8) : UInt16 :=
  if family = 4 then 0x0800 else 0x86dd

/-- The base header names the transport protocol itself. -/
def NoExtension (data : Bytes) (ip : Nat) : Prop :=
  byteAt data (ip + 6) ∉ [0, 43, 44, 51, 60]

/-- The bytes `drop_parse` reads of the IP header. -/
def baseLength (family : UInt8) : Nat :=
  if family = 4 then 20 else 40

/-- Every probe read `drop_parse` makes for the packet succeeds: the base
header, and 14 bytes of a transport header it looks at. -/
structure ProbesSucceed (mem : Memory) (l3 : Nat) (p : Parsed) : Prop where
  hbase : (probeRead mem l3 (baseLength p.family)).isSome
  hl4 : p.haveL4 → hasL4Fields p.proto → (probeRead mem (l3 + (p.l4 - p.ip)) 14).isSome

/-- The tuple the IP header stage should leave, with some length. -/
def ipTuple (data : Bytes) (ip : Nat) (info : IpInfo) (l3len : UInt32) : DropTuple where
  family := info.family
  protocol := info.proto
  src := if info.family = 4 then ip4ToIn6 data (ip + 12) else copyAddr data (ip + 8)
  dst := if info.family = 4 then ip4ToIn6 data (ip + 16) else copyAddr data (ip + 24)
  tos := if info.family = 4 then byteAt data (ip + 1)
    else (byteAt data ip <<< 4) ||| (byteAt data (ip + 1) >>> 4)
  l3len := l3len

section Agree

variable {mem : Memory} {l3 ip : Nat} {data : Bytes} {info : IpInfo}

/-- The packets that the IP header stage accepts, and what it leaves of them. -/
theorem parseIp_cases (hparse : parseIp data ip = some info) :
    (byteAt data ip >>> 4 = 4 ∧ ip + 20 ≤ data.length ∧
        20 ≤ (byteAt data ip &&& 0x0f).toNat * 4 ∧
        ip + (byteAt data ip &&& 0x0f).toNat * 4 ≤ data.length ∧
        info = { family := 4, proto := byteAt data (ip + 9),
                 l4 := ip + (byteAt data ip &&& 0x0f).toNat * 4,
                 haveL4 := ntohs data (ip + 6) &&& 0x1fff == 0 }) ∨
      (byteAt data ip >>> 4 = 6 ∧ ip + 40 ≤ data.length ∧
        ∃ loc, extWalk data maxExtHdr (byteAt data (ip + 6)) (ip + 40) = some loc ∧
          info = { loc with family := 6 }) := by
  simp only [parseIp] at hparse
  split at hparse
  · cases hparse
  split at hparse
  · rename_i hversion
    split at hparse
    · cases hparse
    split at hparse
    · cases hparse
    · exact Or.inl ⟨hversion, by omega, by omega, by omega, (Option.some.inj hparse).symm⟩
  split at hparse
  · rename_i hversion
    split at hparse
    · cases hparse
    · obtain ⟨loc, hwalk, hinfo⟩ := Option.map_eq_some_iff.mp hparse
      exact Or.inr ⟨hversion, by omega, loc, hwalk, hinfo.symm⟩
  · cases hparse

theorem parseIp_family (hparse : parseIp data ip = some info) :
    info.family = byteAt data ip >>> 4 ∧ (info.family = 4 ∨ info.family = 6) := by
  rcases parseIp_cases hparse with ⟨hversion, -, -, -, rfl⟩ | ⟨hversion, -, loc, -, rfl⟩
  · exact ⟨hversion.symm, Or.inl rfl⟩
  · exact ⟨hversion.symm, Or.inr rfl⟩

/-- The extension-header loop stops at once on a transport protocol. -/
theorem extWalk_transport {n l4 : Nat} {proto : UInt8} {loc : L4Loc}
    (hproto : proto ∉ [0, 43, 44, 51, 60]) (hwalk : extWalk data (n + 1) proto l4 = some loc) :
    loc = ⟨proto, l4, true⟩ := by
  simp only [List.mem_cons, List.not_mem_nil, or_false, not_or] at hproto
  obtain ⟨h0, h43, h44, h51, h60⟩ := hproto
  simp only [extWalk, h0, h43, h44, h51, h60, or_self, if_false] at hwalk
  split at hwalk
  · simp at hwalk
  · exact (Option.some.inj hwalk).symm

theorem dropParseIp_ipv4 {hdr : Bytes} (h : Mirrors mem l3 data ip)
    (hread : probeRead mem l3 20 = some hdr) (hparse : parseIp data ip = some info)
    (hfamily : info.family = 4) :
    ip ≤ info.l4 ∧ ∃ l3len, dropParseIp mem l3 0x0800 =
      some (ipTuple data ip info l3len, info.l4 - ip, info.haveL4) := by
  obtain ⟨hversion, hlength, hihl, -, rfl⟩ | ⟨-, -, loc, -, rfl⟩ := parseIp_cases hparse
  swap
  · have hsix : (6 : UInt8) = 4 := hfamily
    exact absurd hsix (by decide)
  have hcopy : Copies hdr 20 data ip := h.copies 0 hread
  have hbyte : ∀ i < 20, byteAt hdr i = byteAt data (ip + i) := fun i hi =>
    hcopy i hi (by omega)
  have hfirst : byteAt hdr 0 = byteAt data ip := hbyte 0 (by omega)
  refine ⟨Nat.le_add_right _ _, (ntohs hdr 2).toUInt32, ?_⟩
  rw [dropParseIp, if_pos rfl, hread]
  simp only [Option.bind_eq_bind, Option.bind_some, hfirst, hversion, ne_eq, not_true_eq_false,
    if_false, ipTuple, if_true, Nat.add_sub_cancel_left]
  rw [if_neg (by omega), hcopy.ntohs (p := 6) (by omega) (by omega),
    hcopy.ip4ToIn6 (p := 12) (by omega) (by omega), hcopy.ip4ToIn6 (p := 16) (by omega) (by omega),
    hbyte 9 (by omega), hbyte 1 (by omega)]

theorem dropParseIp_ipv6 {hdr : Bytes} (h : Mirrors mem l3 data ip)
    (hread : probeRead mem l3 40 = some hdr) (hnext : NoExtension data ip)
    (hparse : parseIp data ip = some info) (hfamily : info.family = 6) :
    ip ≤ info.l4 ∧ ∃ l3len, dropParseIp mem l3 0x86dd =
      some (ipTuple data ip info l3len, info.l4 - ip, info.haveL4) := by
  have hnot4 : ¬(6 : UInt8) = 4 := by decide
  obtain ⟨-, -, -, -, rfl⟩ | ⟨hversion, hlength, loc, hwalk, rfl⟩ := parseIp_cases hparse
  · have hfour : (4 : UInt8) = 6 := hfamily
    exact absurd hfour (by decide)
  obtain rfl := extWalk_transport (n := 7) hnext hwalk
  have hcopy : Copies hdr 40 data ip := h.copies 0 hread
  have hbyte : ∀ i < 40, byteAt hdr i = byteAt data (ip + i) := fun i hi =>
    hcopy i hi (by omega)
  have hfirst : byteAt hdr 0 = byteAt data ip := hbyte 0 (by omega)
  refine ⟨Nat.le_add_right _ _, 40 + (ntohs hdr 4).toUInt32, ?_⟩
  rw [dropParseIp, if_neg (by decide), if_pos rfl, hread]
  simp only [Option.bind_eq_bind, Option.bind_some, hfirst, hversion, ne_eq, not_true_eq_false,
    if_false, ipTuple, hnot4, Nat.add_sub_cancel_left]
  rw [hcopy.copyAddr (p := 8) (by omega) (by omega), hcopy.copyAddr (p := 24) (by omega) (by omega),
    hbyte 6 (by omega), hbyte 1 (by omega)]

/-- The IP header stage of both parsers. -/
theorem dropParseIp_agrees (h : Mirrors mem l3 data ip) (hparse : parseIp data ip = some info)
    (hread : (probeRead mem l3 (baseLength info.family)).isSome)
    (hnext : info.family = 6 → NoExtension data ip) :
    ip ≤ info.l4 ∧ ∃ l3len, dropParseIp mem l3 (etherTypeOf info.family) =
      some (ipTuple data ip info l3len, info.l4 - ip, info.haveL4) := by
  obtain ⟨hdr, hread⟩ := Option.isSome_iff_exists.mp hread
  rcases (parseIp_family hparse).2 with hfamily | hfamily
  · have hresult := dropParseIp_ipv4 h (by simpa [baseLength, hfamily] using hread) hparse hfamily
    simpa [etherTypeOf, hfamily] using hresult
  · have hresult := dropParseIp_ipv6 h (by simpa [baseLength, hfamily] using hread)
      (hnext hfamily) hparse hfamily
    simpa [etherTypeOf, hfamily] using hresult

/-- The transport fields of a tuple. -/
def DropTuple.l4Info (t : DropTuple) : UInt16 × UInt16 × UInt8 × UInt8 × UInt8 :=
  (t.sport, t.dport, t.icmpType, t.icmpCode, t.tcpf)

/-- The transport stage of both parsers: what the TC parser bounds-checked is
what the tracer uses of the bytes it read. -/
theorem dropParseL4_agrees {l4 : Nat} {bs : Bytes} {l4info : L4Info} {t : DropTuple}
    (hcopy : Copies bs 14 data l4) (hparse : parseL4 data t.protocol l4 = some l4info)
    (hproto : hasL4Fields t.protocol)
    (hzero : t.l4Info = (0, 0, 0, 0, 0)) :
    dropParseL4 bs t = { t with
      sport := l4info.sport, dport := l4info.dport, icmpType := l4info.icmpType,
      icmpCode := l4info.icmpCode, tcpf := l4info.tcpf } := by
  simp only [DropTuple.l4Info, Prod.mk.injEq] at hzero
  obtain ⟨hsport, hdport, htype, hcode, htcpf⟩ := hzero
  rcases hproto with h6 | h17 | hicmp
  · simp only [parseL4, h6, if_true] at hparse
    split at hparse
    · simp at hparse
    obtain rfl := Option.some.inj hparse
    simp [dropParseL4, h6, htype, hcode, hcopy.ntohs (p := 0) (by omega) (by omega),
      hcopy.ntohs (p := 2) (by omega) (by omega), hcopy 13 (by omega) (by omega)]
  · have hnot6 : ¬(17 : UInt8) = 6 := by decide
    simp only [parseL4, h17, hnot6, if_true, if_false] at hparse
    split at hparse
    · simp at hparse
    obtain rfl := Option.some.inj hparse
    simp [dropParseL4, h17, htype, hcode, htcpf, hcopy.ntohs (p := 0) (by omega) (by omega),
      hcopy.ntohs (p := 2) (by omega) (by omega)]
  · have hnot6 : ¬t.protocol = 6 := by rcases hicmp with hp | hp <;> rw [hp] <;> decide
    have hnot17 : ¬t.protocol = 17 := by rcases hicmp with hp | hp <;> rw [hp] <;> decide
    simp only [parseL4, hnot6, hnot17, hicmp, if_true, if_false] at hparse
    split at hparse
    · simp at hparse
    obtain rfl := Option.some.inj hparse
    have hfirst : byteAt bs 0 = byteAt data l4 := hcopy 0 (by omega) (by omega)
    simp [dropParseL4, hnot6, hnot17, hsport, hdport, htcpf, hfirst,
      hcopy 1 (by omega) (by omega)]

/-- The transport fields the TC parser leaves zero. -/
theorem parseL4_other {l4 : Nat} {proto : UInt8} (hproto : ¬hasL4Fields proto) :
    parseL4 data proto l4 = some {} := by
  simp only [hasL4Fields, not_or] at hproto
  obtain ⟨h6, h17, h1, h58⟩ := hproto
  simp [parseL4, h6, h17, h1, h58]

/-- What an accepted packet went through. -/
theorem parse_stages {eth : Bool} {p : Parsed} (hparse : parse eth data = some p) :
    l3Offset eth data = some p.ip ∧ parseIp data p.ip = some p.toIpInfo ∧
      (if p.haveL4 then parseL4 data p.proto p.l4 else some {}) = some p.toL4Info := by
  simp only [parse, Option.bind_eq_bind, Option.bind_eq_some_iff, Option.pure_def] at hparse
  obtain ⟨ip, hip, info, hinfo, hrest⟩ := hparse
  split at hrest
  · rename_i hhave
    obtain ⟨l4, hl4, hp⟩ := Option.bind_eq_some_iff.mp hrest
    obtain rfl := Option.some.inj hp
    exact ⟨hip, hinfo, by rw [if_pos hhave]; exact hl4⟩
  · rename_i hhave
    obtain rfl := Option.some.inj hrest
    exact ⟨hip, hinfo, if_neg hhave⟩

/-- The tuple `drop_parse` leaves for a packet the TC parser accepts. -/
theorem dropParse_agrees {eth : Bool} {p : Parsed} (hparse : parse eth data = some p)
    (h : Mirrors mem l3 data p.ip) (hprobes : ProbesSucceed mem l3 p)
    (hnext : p.family = 6 → NoExtension data p.ip) :
    ∃ l3len, dropParse mem l3 (etherTypeOf p.family) = some
      { ipTuple data p.ip p.toIpInfo l3len with
        sport := p.sport, dport := p.dport, icmpType := p.icmpType, icmpCode := p.icmpCode,
        tcpf := p.tcpf } := by
  obtain ⟨-, hip, hl4⟩ := parse_stages hparse
  obtain ⟨hle, l3len, hresult⟩ := dropParseIp_agrees h hip hprobes.hbase hnext
  refine ⟨l3len, ?_⟩
  rw [dropParse, hresult, Option.map_some]
  congr 1
  by_cases hfields : p.haveL4 = true ∧ hasL4Fields p.proto
  · obtain ⟨bs, hread⟩ := Option.isSome_iff_exists.mp (hprobes.hl4 hfields.1 hfields.2)
    have hcopy : Copies bs 14 data p.l4 := by
      have hcopy := h.copies _ hread
      rwa [Nat.add_sub_cancel' hle] at hcopy
    rw [if_pos hfields.1] at hl4
    show (if p.haveL4 = true ∧ hasL4Fields p.proto then _ else _) = _
    rw [if_pos hfields, hread]
    exact dropParseL4_agrees hcopy hl4 hfields.2 rfl
  · have hzero : p.toL4Info = {} := by
      by_cases hhave : p.haveL4
      · rw [if_pos hhave, parseL4_other fun hproto => hfields ⟨hhave, hproto⟩] at hl4
        exact (Option.some.inj hl4).symm
      · rw [if_neg hhave] at hl4
        exact (Option.some.inj hl4).symm
    show (if p.haveL4 = true ∧ hasL4Fields p.proto then _ else _) = _
    rw [if_neg hfields, hzero]
    rfl

/-- **The tracer and the TC parser name the same flow.**  For a packet that
`observe` accounts, on either framing, whose IP header the tracer finds in
kernel memory, `drop_parse` leaves the TCP flags and TOS of the flow update,
and the drop's key is the flow's key on every field but the direction, which
each program knows for itself. -/
theorem drop_key_joins_flow_key {hook : Hook} {skb : SkBuff} {p : Parsed}
    (hparse : parse hook.eth skb.data = some p) (hmirror : Mirrors mem l3 skb.data p.ip)
    (hprobes : ProbesSucceed mem l3 p) (hnext : p.family = 6 → NoExtension skb.data p.ip) :
    ∃ t, dropParse mem l3 (etherTypeOf p.family) = some t ∧
      t.tcpf = (flowUpdate hook skb p).tcpf ∧ t.tos = (flowUpdate hook skb p).tos ∧
      ∀ (traced : TracedSkb) (reason : UInt32),
        (dropKey skb.ifindex traced reason t).flow =
          { flowKey skb hook.direction p with
            direction := (dropKey skb.ifindex traced reason t).flow.direction } := by
  obtain ⟨l3len, hresult⟩ := dropParse_agrees hparse hmirror hprobes hnext
  exact ⟨_, hresult, rfl, rfl, fun traced reason => rfl⟩

/-- A TCP segment in IPv6 behind an Ethernet header, cut after the flags. -/
def ipv6Segment : SkBuff where
  data :=
    [2, 0, 0, 0, 0, 1, 2, 0, 0, 0, 0, 2, 0x86, 0xdd] ++
    [0x6b, 0x80, 0, 0, 0, 20, 6, 64] ++
    [0x20, 1, 0xd, 0xb8, 0, 0, 0, 0, 0, 0, 0, 0, 0, 0, 0, 1] ++
    [0x20, 1, 0xd, 0xb8, 0, 0, 0, 0, 0, 0, 0, 0, 0, 0, 0, 2] ++
    [0xc0, 0, 1, 0xbb, 0, 0, 0, 1, 0, 0, 0, 0, 0x50, 0x12]
  len := 74
  ifindex := 3
  gsoSegs := 0
  vlanPresent := false
  vlanTci := 0

/-- What the TC parser makes of it. -/
def ipv6SegmentParsed : Parsed where
  family := 6
  proto := 6
  l4 := 54
  haveL4 := true
  sport := 49152
  dport := 443
  tcpf := 0x12
  l4hdr := 20
  ip := 14

/-- Its buffer in kernel memory: 64 bytes of headroom, then the packet. -/
def ipv6SegmentHead : Memory := fun addr =>
  if addr < 64 then none else some (byteAt ipv6Segment.data (addr - 64))

theorem drop_key_joins_flow_key_demo :
    ∃ t, dropParse ipv6SegmentHead 78 0x86dd = some t ∧ t.tcpf = 0x12 ∧ t.tos = 0xb8 ∧
      t.sport = 49152 ∧ t.dport = 443 := by
  have hmirror : Mirrors ipv6SegmentHead 78 ipv6Segment.data 14 := by
    intro i b hread hlt
    have hget : ipv6SegmentHead (78 + i) = some (byteAt ipv6Segment.data (14 + i)) := by
      rw [ipv6SegmentHead, if_neg (by omega), show 78 + i - 64 = 14 + i by omega]
    exact (Option.some.inj (hget.symm.trans hread)).symm
  obtain ⟨t, hresult, htcpf, htos, hkey⟩ :=
    @drop_key_joins_flow_key ipv6SegmentHead 78 obserwrtIngressEth ipv6Segment
      ipv6SegmentParsed (by decide +kernel) hmirror
      ⟨by decide +kernel, by decide +kernel⟩ (fun _ => by rw [NoExtension]; decide +kernel)
  have hflow := hkey ⟨some 3, 3, 0x86dd, 78, some ipv6SegmentHead⟩ 2
  exact ⟨t, hresult, htcpf, htos, congrArg FlowKey.sport hflow, congrArg FlowKey.dport hflow⟩

end Agree

end Bpf
end Obserwrt
