import Obserwrt.Bpf.Drops

/-!
# The extension-header walk without its bound

`observe` follows at most `MAX_EXT_HDR` IPv6 extension headers.  The reference
walk follows the same rules for as many headers as there are.  Its steps are
those of the bounded loop, so the two differ only where the bound ends the loop:
the value reached by the last permitted header is then taken for a transport
protocol without being looked at.
-/

namespace Obserwrt
namespace Bpf

open Lib

/-- What the walk does at one Next Header value: go on behind a header, or end
with a result. -/
inductive WalkStep
  | skip (proto : UInt8) (l4 : Nat)
  | stop (result : Option L4Loc)
  deriving DecidableEq

/-- The rules of the walk at the value `proto` with the header at `l4`. -/
def walkStep (data : Bytes) (proto : UInt8) (l4 : Nat) : WalkStep :=
  if proto = 0 ∨ proto = 43 ∨ proto = 60 ∨ proto = 51 then
    let next := extNext data l4 (proto == 51)
    if next.1 = 0 then .stop none else .skip next.1 next.2
  else if proto = 44 then
    if data.length < l4 + 8 then .stop none
    else if ntohs data (l4 + 2) >>> 3 ≠ 0 then .stop (some ⟨byteAt data l4, l4 + 8, false⟩)
    else .skip (byteAt data l4) (l4 + 8)
  else if proto = 59 then .stop none
  else .stop (some ⟨proto, l4, true⟩)

/-- What a step skips: a header that `ext_next` gets over, or the Fragment header
of a first fragment. -/
theorem walkStep_skip_cases {data : Bytes} {proto proto' : UInt8} {l4 l4' : Nat}
    (hstep : walkStep data proto l4 = .skip proto' l4') :
    (∃ ah, (extNext data l4 ah).1 ≠ 0 ∧ l4' = (extNext data l4 ah).2) ∨
      (l4 + 8 ≤ data.length ∧ l4' = l4 + 8) := by
  simp only [walkStep] at hstep
  split at hstep
  · split at hstep
    · cases hstep
    · rename_i hnext
      cases hstep
      exact Or.inl ⟨_, hnext, rfl⟩
  split at hstep
  · split at hstep
    · cases hstep
    split at hstep
    · cases hstep
    · cases hstep
      exact Or.inr ⟨by omega, rfl⟩
  split at hstep <;> cases hstep

/-- Where a step ends the walk without rejecting the packet: behind the Fragment
header of a later fragment, or at a transport protocol. -/
theorem walkStep_stop_cases {data : Bytes} {proto : UInt8} {l4 : Nat} {loc : L4Loc}
    (hstep : walkStep data proto l4 = .stop (some loc)) :
    (l4 + 8 ≤ data.length ∧ loc = ⟨byteAt data l4, l4 + 8, false⟩) ∨
      (isExtProto proto = false ∧ loc = ⟨proto, l4, true⟩) := by
  simp only [walkStep] at hstep
  split at hstep
  · split at hstep <;> cases hstep
  split at hstep
  · split at hstep
    · cases hstep
    split at hstep
    · cases hstep
      exact Or.inl ⟨by omega, rfl⟩
    · cases hstep
  split at hstep
  · cases hstep
  · rename_i hext hfrag hnone
    cases hstep
    refine Or.inr ⟨?_, rfl⟩
    simp only [isExtProto, Bool.or_eq_false_iff, beq_eq_false_iff_ne]
    tauto

/-- A header that `ext_next` gets over lies inside the packet. -/
theorem extNext_bounds {data : Bytes} {l4 : Nat} {ah : Bool} (hnext : (extNext data l4 ah).1 ≠ 0) :
    l4 + 8 ≤ (extNext data l4 ah).2 ∧ (extNext data l4 ah).2 ≤ data.length := by
  unfold extNext at *
  by_cases hlength : data.length < l4 + 8
  · simp [hlength] at hnext
  · simp only [if_neg hlength] at hnext ⊢
    generalize hhlen : (if ah = true then ((byteAt data (l4 + 1)).toNat + 2) * 4
      else ((byteAt data (l4 + 1)).toNat + 1) * 8) = hlen at hnext ⊢
    have hmin : 8 ≤ hlen := by
      cases ah <;> simp at hhlen <;> omega
    by_cases hfits : data.length < l4 + hlen
    · simp [hfits] at hnext
    · simp only [if_neg hfits]
      omega

/-- A skipped header lies inside the packet and has at least eight bytes. -/
theorem walkStep_skip {data : Bytes} {proto proto' : UInt8} {l4 l4' : Nat}
    (hstep : walkStep data proto l4 = .skip proto' l4') : l4 + 8 ≤ l4' ∧ l4' ≤ data.length := by
  rcases walkStep_skip_cases hstep with ⟨ah, hnext, rfl⟩ | ⟨hlength, rfl⟩
  · exact extNext_bounds hnext
  · exact ⟨Nat.le_refl _, hlength⟩

/-- Where a walk ended: the headers it skipped, the Next Header value and the
offset it stopped at, and its result there. -/
structure WalkEnd where
  skipped : Nat
  value : UInt8
  l4 : Nat
  result : Option L4Loc

/-- The walk without a limit. -/
def refWalk (data : Bytes) (proto : UInt8) (l4 : Nat) : WalkEnd :=
  match _hstep : walkStep data proto l4 with
  | .stop result => ⟨0, proto, l4, result⟩
  | .skip proto' l4' =>
      let rest := refWalk data proto' l4'
      { rest with skipped := rest.skipped + 1 }
termination_by data.length - l4
decreasing_by
  have hbounds := walkStep_skip _hstep
  omega

theorem refWalk_eq (data : Bytes) (proto : UInt8) (l4 : Nat) :
    refWalk data proto l4 =
      match walkStep data proto l4 with
      | .stop result => ⟨0, proto, l4, result⟩
      | .skip proto' l4' =>
          { refWalk data proto' l4' with skipped := (refWalk data proto' l4').skipped + 1 } := by
  conv_lhs => rw [refWalk]
  split
  · rename_i hstep
    rw [hstep]
  · rename_i hstep
    rw [hstep]

theorem refWalk_stop {data : Bytes} {proto : UInt8} {l4 : Nat} {result : Option L4Loc}
    (hstep : walkStep data proto l4 = .stop result) :
    refWalk data proto l4 = ⟨0, proto, l4, result⟩ := by
  rw [refWalk_eq, hstep]

theorem refWalk_skip {data : Bytes} {proto proto' : UInt8} {l4 l4' : Nat}
    (hstep : walkStep data proto l4 = .skip proto' l4') :
    refWalk data proto l4 =
      { refWalk data proto' l4' with skipped := (refWalk data proto' l4').skipped + 1 } := by
  rw [refWalk_eq, hstep]

/-! ## The bounded loop takes the same steps -/

theorem extWalk_succ (data : Bytes) (iter : Nat) (proto : UInt8) (l4 : Nat) :
    extWalk data (iter + 1) proto l4 =
      match walkStep data proto l4 with
      | .stop result => result
      | .skip proto' l4' => extWalk data iter proto' l4' := by
  rw [extWalk, walkStep]
  split
  · simp only
    split <;> rfl
  split
  · split
    · rfl
    split <;> rfl
  split <;> rfl

/-- The reference walk ends where its last step says so. -/
theorem refWalk_ends (data : Bytes) (proto : UInt8) (l4 : Nat) :
    walkStep data (refWalk data proto l4).value (refWalk data proto l4).l4 =
      .stop (refWalk data proto l4).result := by
  induction proto, l4 using refWalk.induct data with
  | case1 proto l4 result hstep =>
      rw [refWalk_stop hstep]
      exact hstep
  | case2 proto l4 proto' l4' hstep ih =>
      rw [refWalk_skip hstep]
      exact ih

/-- A loop with more iterations than headers to skip is the reference walk; one
with exactly as many takes the value it ends at for a transport protocol. -/
theorem extWalk_eq_refWalk {data : Bytes} {proto : UInt8} {l4 iter : Nat}
    (hle : (refWalk data proto l4).skipped ≤ iter) :
    extWalk data iter proto l4 =
      if (refWalk data proto l4).skipped < iter then (refWalk data proto l4).result
      else some ⟨(refWalk data proto l4).value, (refWalk data proto l4).l4, true⟩ := by
  induction proto, l4 using refWalk.induct data generalizing iter with
  | case1 proto l4 result hstep =>
      rw [refWalk_stop hstep] at hle ⊢
      cases iter with
      | zero => rfl
      | succ iter => simp [extWalk_succ, hstep]
  | case2 proto l4 proto' l4' hstep ih =>
      rw [refWalk_skip hstep] at hle ⊢
      cases iter with
      | zero => simp at hle
      | succ iter =>
          rw [extWalk_succ, hstep]
          simp only at hle ⊢
          rw [ih (by omega)]
          simp only [Nat.add_lt_add_iff_right]

/-! ## The parser with the unbounded walk -/

/-- The IP header stage with the reference walk. -/
def refParseIp (data : Bytes) (ip : Nat) : Option IpInfo :=
  if byteAt data ip >>> 4 = 6 ∧ ip + 40 ≤ data.length then
    (refWalk data (byteAt data (ip + 6)) (ip + 40)).result.map fun loc => { loc with family := 6 }
  else parseIp data ip

/-- The parser of `observe` with the reference walk. -/
def refParse (eth : Bool) (data : Bytes) : Option Parsed := do
  let ip ← l3Offset eth data
  let info ← refParseIp data ip
  let l4 ← if info.haveL4 then parseL4 data info.proto info.l4 else some {}
  return { toIpInfo := info, toL4Info := l4, ip := ip }

/-- What the transport stage makes of a location: it is accounted unless the
transport header is truncated. -/
def accountedAt (data : Bytes) (loc : L4Loc) : Option L4Loc :=
  if loc.haveL4 then (parseL4 data loc.proto loc.l4).map fun _ => loc else some loc

theorem bind_accountedAt (data : Bytes) (ip : Nat) (found : Option IpInfo) :
    (found.bind fun info =>
      if info.haveL4 = true then
        (parseL4 data info.proto info.l4).bind fun l4 =>
          some ({ toIpInfo := info, toL4Info := l4, ip := ip } : Parsed)
      else some { toIpInfo := info, ip := ip }).map (fun p => p.toL4Loc) =
      (found.map fun info => info.toL4Loc).bind (accountedAt data) := by
  cases found with
  | none => rfl
  | some info =>
      simp only [Option.bind_some, Option.map_some, accountedAt]
      cases info.haveL4 with
      | false => rfl
      | true =>
          simp only [if_true]
          cases parseL4 data info.proto info.l4 <;> rfl

section Ipv6

variable {eth : Bool} {data : Bytes} {ip : Nat} (hoffset : l3Offset eth data = some ip)
  (hversion : byteAt data ip >>> 4 = 6) (hlength : ip + 40 ≤ data.length)

include hoffset hversion hlength

theorem parse_ipv6 :
    (parse eth data).map (fun p => p.toL4Loc) =
      (extWalk data maxExtHdr (byteAt data (ip + 6)) (ip + 40)).bind (accountedAt data) := by
  have hip : (parseIp data ip).map (fun info => info.toL4Loc) =
      extWalk data maxExtHdr (byteAt data (ip + 6)) (ip + 40) := by
    have hnot4 : ¬(6 : UInt8) = 4 := by decide
    simp only [parseIp, hversion, hnot4, if_false, if_true]
    rw [if_neg (by omega), if_neg (by omega), Option.map_map]
    exact congrFun Option.map_id _
  rw [← hip, ← bind_accountedAt data ip]
  simp only [parse, hoffset, Option.bind_eq_bind, Option.bind_some, Option.pure_def]

theorem refParse_ipv6 :
    (refParse eth data).map (fun p => p.toL4Loc) =
      (refWalk data (byteAt data (ip + 6)) (ip + 40)).result.bind (accountedAt data) := by
  have hip : (refParseIp data ip).map (fun info => info.toL4Loc) =
      (refWalk data (byteAt data (ip + 6)) (ip + 40)).result := by
    rw [refParseIp, if_pos ⟨hversion, hlength⟩, Option.map_map]
    exact congrFun Option.map_id _
  rw [← hip, ← bind_accountedAt data ip]
  simp only [refParse, hoffset, Option.bind_eq_bind, Option.bind_some, Option.pure_def]

end Ipv6

/-- Where the walk ends at a transport protocol, it ends with that protocol. -/
theorem result_of_transport {data : Bytes} {proto : UInt8} {l4 : Nat}
    (hvalue : isExtProto (refWalk data proto l4).value = false) :
    (refWalk data proto l4).result =
      some ⟨(refWalk data proto l4).value, (refWalk data proto l4).l4, true⟩ := by
  have hend := refWalk_ends data proto l4
  simp only [isExtProto, Bool.or_eq_false_iff, beq_eq_false_iff_ne] at hvalue
  obtain ⟨⟨⟨⟨⟨h0, h43⟩, h44⟩, h51⟩, h59⟩, h60⟩ := hvalue
  simp only [walkStep, h0, h43, h44, h51, h59, h60, or_self, if_false, WalkStep.stop.injEq] at hend
  exact hend.symm

/-- Where it ends at another value, it rejects the packet or has met a later
fragment. -/
theorem result_of_extProto {data : Bytes} {proto : UInt8} {l4 : Nat}
    (hvalue : isExtProto (refWalk data proto l4).value = true) (loc : L4Loc)
    (hresult : (refWalk data proto l4).result = some loc) : loc.haveL4 = false := by
  have hend := refWalk_ends data proto l4
  rw [hresult] at hend
  rcases walkStep_stop_cases hend with ⟨-, rfl⟩ | ⟨htransport, -⟩
  · rfl
  · rw [hvalue] at htransport
    cases htransport

/-- A location that the walk hands to the transport stage unexamined is
accounted as it is. -/
theorem accountedAt_of_extProto {data : Bytes} {proto : UInt8} {l4 : Nat}
    (hvalue : isExtProto proto = true) :
    accountedAt data ⟨proto, l4, true⟩ = some ⟨proto, l4, true⟩ := by
  have hother : ¬hasL4Fields proto := by
    rintro (rfl | rfl | rfl | rfl) <;> simp [isExtProto] at hvalue
  simp [accountedAt, parseL4_other hother]

/-- **The bound on extension headers.**  For every IPv6 packet whose reference
walk skips at most eight headers, `observe` reaches the verdict, protocol,
transport offset and transport flag of the reference walk if and only if fewer
than eight headers are skipped or the value behind the eighth is a transport
protocol. -/
theorem bounded_walk_exact_iff (eth : Bool) (data : Bytes) (ip : Nat)
    (hoffset : l3Offset eth data = some ip) (hversion : byteAt data ip >>> 4 = 6)
    (hlength : ip + 40 ≤ data.length)
    (hskipped : (refWalk data (byteAt data (ip + 6)) (ip + 40)).skipped ≤ 8) :
    (parse eth data).map (fun p => p.toL4Loc) = (refParse eth data).map (fun p => p.toL4Loc) ↔
      (refWalk data (byteAt data (ip + 6)) (ip + 40)).skipped < 8 ∨
        isExtProto (refWalk data (byteAt data (ip + 6)) (ip + 40)).value = false := by
  have hle : (refWalk data (byteAt data (ip + 6)) (ip + 40)).skipped ≤ maxExtHdr := hskipped
  rw [parse_ipv6 hoffset hversion hlength, refParse_ipv6 hoffset hversion hlength,
    extWalk_eq_refWalk hle]
  by_cases hfew : (refWalk data (byteAt data (ip + 6)) (ip + 40)).skipped < 8
  · have hmax : (refWalk data (byteAt data (ip + 6)) (ip + 40)).skipped < maxExtHdr := hfew
    simp [hfew, hmax]
  · have hmax : ¬(refWalk data (byteAt data (ip + 6)) (ip + 40)).skipped < maxExtHdr := hfew
    rw [if_neg hmax]
    cases hvalue : isExtProto (refWalk data (byteAt data (ip + 6)) (ip + 40)).value with
    | false => simp [result_of_transport hvalue]
    | true =>
        simp only [hfew, Bool.true_eq_false, or_self, iff_false]
        rw [Option.bind_some, accountedAt_of_extProto hvalue]
        cases hresult : (refWalk data (byteAt data (ip + 6)) (ip + 40)).result with
        | none => simp
        | some loc =>
            have hlater := result_of_extProto hvalue loc hresult
            rw [Option.bind_some, accountedAt, hlater]
            intro hsame
            have hloc := congrArg L4Loc.haveL4 (Option.some.inj hsame)
            rw [hlater] at hloc
            cases hloc

/-- A packet of eight Destination Options headers, the last with the Next
Header value `last`, and 8 bytes behind them. -/
def eightOptions (last : UInt8) : Bytes :=
  [0x60, 0, 0, 0, 0, 72, 60, 64] ++ List.replicate 32 1 ++
    (List.replicate 7 [60, 0, 1, 4, 0, 0, 0, 0]).flatten ++ [last, 0, 1, 4, 0, 0, 0, 0] ++
      [0, 53, 0, 54, 0, 8, 0, 0]

/-- **The value behind the eighth header is not looked at**: with No Next Header
there, the reference walk rejects the packet and `observe` accounts it under
the protocol 59. -/
theorem eighth_next_header_unread :
    l3Offset false (eightOptions 59) = some 0 ∧
      (refWalk (eightOptions 59) (byteAt (eightOptions 59) 6) 40).skipped = 8 ∧
      refParse false (eightOptions 59) = none ∧
      (parse false (eightOptions 59)).map (fun p => p.toL4Loc) = some ⟨59, 104, true⟩ := by
  decide +kernel

theorem bounded_walk_exact_iff_demo :
    (parse false (eightOptions 17)).map (fun p => p.toL4Loc) =
      (refParse false (eightOptions 17)).map (fun p => p.toL4Loc) :=
  (bounded_walk_exact_iff false (eightOptions 17) 0 (by decide +kernel) (by decide +kernel)
    (by decide +kernel) (by decide +kernel)).mpr (Or.inr (by decide +kernel))

end Bpf
end Obserwrt
