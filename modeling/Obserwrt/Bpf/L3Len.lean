import Obserwrt.Bpf.ExtHeaders

/-!
# The 32-bit length arithmetic

`observe` computes the L3 octets of a packet with unsigned 32-bit operations:
a difference of two lengths, and for a super-packet a product of the segment
count and the length of the headers.  The length of the headers is bounded by
the extension-header loop, which takes eight headers of at most 2048 bytes.
-/

namespace Obserwrt
namespace Bpf

open Lib

/-! ## How far the walk gets -/

/-- An extension header is at most 2048 bytes long. -/
theorem extNext_le (data : Bytes) (l4 : Nat) (ah : Bool) :
    (extNext data l4 ah).2 ≤ l4 + 2048 := by
  have hlen := (byteAt data (l4 + 1)).toNat_lt
  unfold extNext
  simp only
  split
  · omega
  · cases ah with
    | true =>
        simp only [if_true]
        split <;> (simp only; omega)
    | false =>
        simp only [Bool.false_eq_true, if_false]
        split <;> (simp only; omega)

theorem walkStep_skip_le {data : Bytes} {proto proto' : UInt8} {l4 l4' : Nat}
    (hstep : walkStep data proto l4 = .skip proto' l4') : l4' ≤ l4 + 2048 := by
  rcases walkStep_skip_cases hstep with ⟨ah, -, rfl⟩ | ⟨-, rfl⟩
  · exact extNext_le data l4 ah
  · omega

/-- The walk ends where it stands, or behind the Fragment header there. -/
theorem walkStep_stop_bounds {data : Bytes} {proto : UInt8} {l4 : Nat} {loc : L4Loc}
    (hstep : walkStep data proto l4 = .stop (some loc)) (hl4 : l4 ≤ data.length) :
    l4 ≤ loc.l4 ∧ loc.l4 ≤ data.length ∧ loc.l4 ≤ l4 + 8 := by
  rcases walkStep_stop_cases hstep with ⟨hfragment, rfl⟩ | ⟨-, rfl⟩
  · show l4 ≤ l4 + 8 ∧ l4 + 8 ≤ data.length ∧ l4 + 8 ≤ l4 + 8
    omega
  · show l4 ≤ l4 ∧ l4 ≤ data.length ∧ l4 ≤ l4 + 8
    omega

/-- Every way through the loop ends inside the packet, at most 2048 bytes
further for each iteration. -/
theorem extWalk_bounds {data : Bytes} {iter : Nat} {proto : UInt8} {l4 : Nat} {loc : L4Loc}
    (hwalk : extWalk data iter proto l4 = some loc) (hl4 : l4 ≤ data.length) :
    l4 ≤ loc.l4 ∧ loc.l4 ≤ data.length ∧ loc.l4 ≤ l4 + iter * 2048 := by
  induction iter generalizing proto l4 with
  | zero =>
      obtain rfl := Option.some.inj hwalk
      show l4 ≤ l4 ∧ l4 ≤ data.length ∧ l4 ≤ l4 + 0 * 2048
      omega
  | succ iter ih =>
      rw [extWalk_succ] at hwalk
      cases hstep : walkStep data proto l4 with
      | stop result =>
          rw [hstep] at hwalk
          simp only at hwalk
          subst hwalk
          have hbounds := walkStep_stop_bounds hstep hl4
          omega
      | skip proto' l4' =>
          rw [hstep] at hwalk
          have hskip := walkStep_skip hstep
          have hstride := walkStep_skip_le hstep
          have hrest := ih hwalk hskip.2
          omega

/-! ## The offsets of an accounted packet -/

theorem parseIp_bounds {data : Bytes} {ip : Nat} {info : IpInfo}
    (hip : parseIp data ip = some info) :
    ip ≤ info.l4 ∧ info.l4 ≤ data.length ∧ info.l4 - ip ≤ 40 + 8 * 2048 := by
  rcases parseIp_cases hip with ⟨-, -, -, hlength, rfl⟩ | ⟨-, hlength, loc, hwalk, rfl⟩
  · have hnibble : (byteAt data ip &&& 0x0f).toNat ≤ 15 := by
      rw [UInt8.toNat_and]
      exact Nat.and_le_right
    simp only
    omega
  · have hbounds := extWalk_bounds hwalk hlength
    have hmax : maxExtHdr = 8 := rfl
    show ip ≤ loc.l4 ∧ loc.l4 ≤ data.length ∧ loc.l4 - ip ≤ 40 + 8 * 2048
    omega

theorem tcpHeader_le (b : UInt8) : ((b >>> 4).toUInt32 <<< 2).toNat ≤ 60 := by
  have hb := b.toNat_lt
  simp [UInt32.toNat_shiftLeft, Nat.shiftRight_eq_div_pow, Nat.shiftLeft_eq]
  omega

/-- The transport header that is repeated in every segment has at most 60
bytes. -/
theorem parseL4_l4hdr_le {data : Bytes} {proto : UInt8} {l4 : Nat} {info : L4Info}
    (hl4 : parseL4 data proto l4 = some info) : info.l4hdr.toNat ≤ 60 := by
  simp only [parseL4] at hl4
  split at hl4
  · split at hl4
    · cases hl4
    · obtain rfl := Option.some.inj hl4
      exact tcpHeader_le _
  split at hl4
  · split at hl4
    · cases hl4
    · obtain rfl := Option.some.inj hl4
      show (8 : UInt32).toNat ≤ 60
      decide
  split at hl4
  · split at hl4
    · cases hl4
    · obtain rfl := Option.some.inj hl4
      exact Nat.zero_le _
  · obtain rfl := Option.some.inj hl4
    exact Nat.zero_le _

/-- Where the headers of an accounted packet are, and how long the transport
header is. -/
theorem parse_bounds {eth : Bool} {data : Bytes} {p : Parsed} (hparse : parse eth data = some p) :
    p.ip ≤ p.l4 ∧ p.l4 ≤ data.length ∧ p.l4 - p.ip ≤ 40 + 8 * 2048 ∧ p.l4hdr.toNat ≤ 60 := by
  obtain ⟨-, hip, hl4⟩ := parse_stages hparse
  obtain ⟨hforward, hinside, hheaders⟩ := parseIp_bounds hip
  refine ⟨hforward, hinside, hheaders, ?_⟩
  split at hl4
  · exact parseL4_l4hdr_le hl4
  · have hzero := congrArg L4Info.l4hdr (Option.some.inj hl4)
    show p.toL4Info.l4hdr.toNat ≤ 60
    rw [← hzero]
    exact Nat.zero_le _

/-! ## The arithmetic -/

/-- The L3 octets of a packet as a number: everything from the IP header on, and
the headers once more for every further segment. -/
def l3Octets (skb : SkBuff) (p : Parsed) : Nat :=
  if 1 < (segsOf skb).toNat then
    skb.len.toNat - p.ip + ((segsOf skb).toNat - 1) * (p.l4 - p.ip + p.l4hdr.toNat)
  else skb.len.toNat - p.ip

theorem toNat_sub_ofNat {n : UInt32} {k : Nat} (hk : k ≤ n.toNat) :
    (n - UInt32.ofNat k).toNat = n.toNat - k := by
  have hvalue : (UInt32.ofNat k).toNat = k :=
    UInt32.toNat_ofNat_of_lt' (lt_of_le_of_lt hk n.toNat_lt)
  have hle : UInt32.ofNat k ≤ n := by
    rw [UInt32.le_iff_toNat_le, hvalue]
    exact hk
  rw [UInt32.toNat_sub_of_le _ _ hle, hvalue]

/-- The 32-bit computation gives this number as long as it has 32 bits. -/
theorem l3len_toNat {skb : SkBuff} {p : Parsed} (hip : p.ip ≤ skb.len.toNat)
    (hfits : l3Octets skb p < 2 ^ 32) : (l3len skb p).toNat = l3Octets skb p := by
  have hsize : UInt32.size = 2 ^ 32 := rfl
  have hbase := toNat_sub_ofNat hip
  by_cases hmany : 1 < segsOf skb
  · have hmany' : 1 < (segsOf skb).toNat := UInt32.lt_iff_toNat_lt.mp hmany
    rw [l3Octets, if_pos hmany'] at hfits ⊢
    have hrest : (segsOf skb - 1).toNat = (segsOf skb).toNat - 1 :=
      toNat_sub_ofNat (Nat.le_of_lt hmany')
    -- a factor is no larger than the product, for there is a further segment
    have hheaders : p.l4 - p.ip + p.l4hdr.toNat ≤
        ((segsOf skb).toNat - 1) * (p.l4 - p.ip + p.l4hdr.toNat) :=
      Nat.le_mul_of_pos_left _ (by omega)
    have hsum : (UInt32.ofNat (p.l4 - p.ip) + p.l4hdr).toNat = p.l4 - p.ip + p.l4hdr.toNat := by
      rw [UInt32.toNat_add, UInt32.toNat_ofNat_of_lt' (by omega), Nat.mod_eq_of_lt (by omega)]
    have hproduct : ((segsOf skb - 1) * (UInt32.ofNat (p.l4 - p.ip) + p.l4hdr)).toNat =
        ((segsOf skb).toNat - 1) * (p.l4 - p.ip + p.l4hdr.toNat) := by
      rw [UInt32.toNat_mul, hrest, hsum, Nat.mod_eq_of_lt (by omega)]
    rw [l3len, if_pos hmany, UInt32.toNat_add, hbase, hproduct, Nat.mod_eq_of_lt hfits]
  · have hone : ¬1 < (segsOf skb).toNat := fun h => hmany (UInt32.lt_iff_toNat_lt.mpr h)
    rw [l3len, if_neg hmany, hbase, l3Octets, if_neg hone]

theorem segsOf_le {skb : SkBuff} (hgso : skb.gsoSegs.toNat ≤ 65535) :
    (segsOf skb).toNat ≤ 65535 := by
  unfold segsOf
  split
  · show (1 : UInt32).toNat ≤ 65535
    decide
  · exact hgso

/-- **The length arithmetic does not wrap.**  For every packet that is accounted,
on either framing and behind any extension headers, with at most 65535 segments
and a length of 31 bits that covers the linear area: the offset of the IP header
is no more than the length, the transport offset is inside the packet and at
most 40 + 8 * 2048 bytes behind the IP header, and the 32-bit computation of the
L3 octets gives their number. -/
theorem l3len_does_not_wrap (eth : Bool) (skb : SkBuff) (p : Parsed)
    (hparse : parse eth skb.data = some p) (hgso : skb.gsoSegs.toNat ≤ 65535)
    (hlinear : skb.data.length ≤ skb.len.toNat) (hlen : skb.len.toNat < 2 ^ 31) :
    p.ip ≤ skb.len.toNat ∧
      p.ip ≤ p.l4 ∧ p.l4 - p.ip ≤ 40 + 8 * 2048 ∧ p.l4 ≤ skb.data.length ∧
      l3Octets skb p < 2 ^ 32 ∧ (l3len skb p).toNat = l3Octets skb p := by
  obtain ⟨hforward, hinside, hheaders, hl4hdr⟩ := parse_bounds hparse
  have hip : p.ip ≤ skb.len.toNat := by omega
  have hfits : l3Octets skb p < 2 ^ 32 := by
    have hsegs := segsOf_le hgso
    have hproduct : ((segsOf skb).toNat - 1) * (p.l4 - p.ip + p.l4hdr.toNat) ≤ 65534 * 16484 :=
      Nat.mul_le_mul (by omega) (by omega)
    unfold l3Octets
    split <;> omega
  exact ⟨hip, hforward, hheaders, hinside, hfits, l3len_toNat hip hfits⟩

/-- Three IPv6/TCP segments in one packet, with a Destination Options header. -/
def superPacket : SkBuff where
  data := [0x60, 0, 0, 0, 0x0b, 0xd4, 60, 64] ++ List.replicate 32 1 ++
    [6, 0, 1, 4, 0, 0, 0, 0] ++
      [0, 80, 0xc3, 0x50, 0, 0, 0, 1, 0, 0, 0, 2, 0x50, 0x10, 0, 0, 0, 0, 0, 0]
  len := 3068
  ifindex := 7
  gsoSegs := 3
  vlanPresent := false
  vlanTci := 0

/-- What the parser makes of it. -/
def superParsed : Parsed where
  family := 6
  proto := 6
  l4 := 48
  haveL4 := true
  ip := 0
  sport := 80
  dport := 50000
  tcpf := 0x10
  l4hdr := 20

theorem l3len_does_not_wrap_demo : (l3len superPacket superParsed).toNat = 3068 + 2 * 68 := by
  obtain ⟨-, -, -, -, -, hvalue⟩ := l3len_does_not_wrap false superPacket superParsed
    (by decide +kernel) (by decide) (by decide +kernel) (by decide)
  rw [hvalue]
  rfl

end Bpf
end Obserwrt
