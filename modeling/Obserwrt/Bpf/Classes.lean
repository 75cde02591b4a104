import Obserwrt.Bpf.Accounting
import Obserwrt.Bpf.Drops

/-!
# Packet classes and flow families

A packet is classed for the device counters by a walk of its own over the VLAN
tags, which ends at the EtherType; the flow parser takes the family from the
version nibble of the IP header.  The two walks stop at the same place, so a
packet without an IP class reaches no flow.  Which of the two IP classes it has
and which family its flow has agree when the EtherType names the version in
the header, which the flow parser does not check.
-/

namespace Obserwrt
namespace Bpf

open Lib

variable {ncpu : Nat}

/-- The class that belongs to a flow family. -/
def classOf (family : UInt8) : PktClass :=
  if family = 4 then .ipv4 else .ipv6

/-- On an Ethernet device, the EtherType in front of the IP header names the
version of that header. -/
def VersionMatches (eth : Bool) (data : Bytes) : Prop :=
  eth = true → ∀ ip, l3Offset true data = some ip →
    (ntohs data (ip - 2) = 0x0800 ↔ byteAt data ip >>> 4 = 4)

/-! ## The two walks -/

/-- Where the flow parser finds an IP header, the class is read off the
EtherType in front of it. -/
theorem pktClass_eth {data : Bytes} {ip : Nat} (hoffset : l3Offset true data = some ip) :
    (ntohs data (ip - 2) = 0x0800 ∨ ntohs data (ip - 2) = 0x86dd) ∧
      pktClass true data = if ntohs data (ip - 2) = 0x0800 then .ipv4 else .ipv6 := by
  have hend : ∀ {et : UInt16} {off : Nat},
      (if et ≠ 0x0800 ∧ et ≠ 0x86dd then none else some off) = some ip →
        off = ip ∧ (et = 0x0800 ∨ et = 0x86dd) := by
    intro et off hsome
    by_cases hip : et ≠ 0x0800 ∧ et ≠ 0x86dd
    · simp [hip] at hsome
    · rw [if_neg hip] at hsome
      exact ⟨Option.some.inj hsome, by tauto⟩
  have hclass : ∀ {et : UInt16}, et = 0x0800 ∨ et = 0x86dd →
      (if et = 0x0800 then PktClass.ipv4 else if et = 0x86dd then .ipv6
        else if et = 0x0806 then .arp else .other) = if et = 0x0800 then .ipv4 else .ipv6 := by
    rintro et (rfl | rfl) <;> rfl
  simp only [l3Offset, Bool.true_eq_false, if_false] at hoffset
  split at hoffset
  · simp at hoffset
  split at hoffset
  · simp at hoffset
  rename_i hlength
  simp only [pktClass, Bool.true_eq_false, if_false, if_neg hlength]
  split at hoffset
  · rename_i houter
    split at hoffset
    · simp at hoffset
    rename_i hlength1
    split at hoffset
    · rename_i hinner
      split at hoffset
      · simp at hoffset
      · rename_i hlength2
        obtain ⟨rfl, het⟩ := hend hoffset
        simp only [houter, hinner, if_true, if_neg hlength1, if_neg hlength2]
        exact ⟨het, hclass het⟩
    · rename_i hinner
      obtain ⟨rfl, het⟩ := hend hoffset
      simp only [houter, if_true, if_neg hlength1, hinner]
      exact ⟨het, hclass het⟩
  · rename_i houter
    obtain ⟨rfl, het⟩ := hend hoffset
    simp only [houter]
    exact ⟨het, hclass het⟩

/-- On an L3 device both look at the same nibble. -/
theorem pktClass_l3 {data : Bytes} {p : Parsed} (hparse : parse false data = some p) :
    pktClass false data = classOf p.family := by
  obtain ⟨hoffset, hip, -⟩ := parse_stages hparse
  obtain ⟨hversion, hfamily⟩ := parseIp_family hip
  simp only [l3Offset, if_true] at hoffset
  split at hoffset
  · simp at hoffset
  rename_i hlength
  rw [← Option.some.inj hoffset] at hversion
  simp only [pktClass, if_true, classOf]
  rw [if_neg (by omega), ← hversion]
  rcases hfamily with hfour | hsix
  · simp [hfour]
  · simp [hsix]

/-- An accounted packet has the class of its family exactly when its EtherType
names the version of its IP header. -/
theorem pktClass_eq_iff {eth : Bool} {data : Bytes} {p : Parsed}
    (hparse : parse eth data = some p) :
    pktClass eth data = classOf p.family ↔ VersionMatches eth data := by
  cases eth with
  | false =>
      refine ⟨fun _ heth => ?_, fun _ => pktClass_l3 hparse⟩
      cases heth
  | true =>
      obtain ⟨hoffset, hip, -⟩ := parse_stages hparse
      obtain ⟨hversion, hfamily⟩ := parseIp_family hip
      obtain ⟨het, hclass⟩ := pktClass_eth hoffset
      have hmatches : VersionMatches true data ↔
          (ntohs data (p.ip - 2) = 0x0800 ↔ p.family = 4) := by
        rw [hversion]
        constructor
        · intro hall
          exact hall rfl p.ip hoffset
        · intro hone _ ip hsome
          rw [hoffset] at hsome
          obtain rfl := Option.some.inj hsome
          exact hone
      rw [hmatches, hclass, classOf]
      rcases het with het | het <;> rcases hfamily with hfam | hfam <;> simp [het, hfam]

/-- An accounted packet has one of the two IP classes. -/
theorem pktClass_of_parse {eth : Bool} {data : Bytes} {p : Parsed}
    (hparse : parse eth data = some p) :
    pktClass eth data = .ipv4 ∨ pktClass eth data = .ipv6 := by
  cases eth with
  | false =>
      rw [pktClass_l3 hparse, classOf]
      split
      · exact Or.inl rfl
      · exact Or.inr rfl
  | true =>
      rw [(pktClass_eth (parse_stages hparse).1).2]
      split
      · exact Or.inl rfl
      · exact Or.inr rfl

/-- A packet of another class leaves the flow map as it is. -/
theorem observe_flows_of_class (env : Env ncpu) (hook : Hook) (skb : SkBuff) (m : Maps ncpu)
    (hclass : pktClass hook.eth skb.data = .arp ∨ pktClass hook.eth skb.data = .other) :
    (observe env hook skb m).flows = m.flows := by
  have hnone : parse hook.eth skb.data = none := by
    cases hparse : parse hook.eth skb.data with
    | none => rfl
    | some p =>
        exfalso
        rcases pktClass_of_parse hparse with hip | hip <;> rw [hip] at hclass <;> simp at hclass
  unfold observe
  simp only [hnone]
  exact countSeen_flows m env hook skb

/-! ## Counting families and classes -/

/-- The family a packet is accounted under. -/
def Seen.family? (s : Seen ncpu) : Option UInt8 :=
  (parse s.hook.eth s.skb.data).map fun p => p.family

/-- `pkt_class` of a packet. -/
def Seen.pktClass (s : Seen ncpu) : PktClass :=
  Bpf.pktClass s.hook.eth s.skb.data

/-- The packets of a sequence accounted under a family on a device and
direction. -/
def accountedOn (key : DevKey) (family : UInt8) (ps : List (Seen ncpu)) : Nat :=
  sumOf (fun s => segsOf s.skb)
    (ps.filter fun s => decide (s.devKey = key ∧ s.family? = some family))

/-- The packets of a class on a device and direction. -/
def classedOn (key : DevKey) (cls : PktClass) (ps : List (Seen ncpu)) : Nat :=
  sumOf (fun s => segsOf s.skb)
    (ps.filter fun s => decide (s.devKey = key ∧ s.pktClass = cls))

/-- The packets of the flows of a family on a device and direction. -/
def flowPackets (key : DevKey) (family : UInt8) (flows : FlowTable) : UInt64 :=
  Store.total (fun k v => if k.ifindex = key.ifindex ∧ k.direction = key.direction ∧
    k.family = family then v.packets else 0) flows

theorem ofNat_sumOf_filter_concat {α : Type} (f : α → UInt32) (q : α → Bool) (l : List α) (a : α) :
    UInt64.ofNat (sumOf f ((l ++ [a]).filter q)) =
      UInt64.ofNat (sumOf f (l.filter q)) + if q a then (f a).toUInt64 else 0 := by
  rw [List.filter_append]
  cases hq : q a with
  | true => rw [List.filter_cons_of_pos hq, List.filter_nil, ofNat_sumOf_concat, if_pos rfl]
  | false => simp [hq]

theorem flowPackets_account (key : DevKey) (family : UInt8) (k : FlowKey) (u : FlowUpdate)
    (now : UInt64) (flows : FlowTable) :
    flowPackets key family (account k u now flows) =
      flowPackets key family flows +
        if k.ifindex = key.ifindex ∧ k.direction = key.direction ∧ k.family = family then
          u.segs.toUInt64 else 0 := by
  rw [account_eq]
  refine Store.total_upsert _ flows rfl fun v => ?_
  split
  · rfl
  · rw [add_zero]

/-- The flow map counts the packets accounted under a family. -/
def FamilyCounts (key : DevKey) (family : UInt8) (ps : List (Seen ncpu)) (m : Maps ncpu) : Prop :=
  flowPackets key family m.flows = UInt64.ofNat (accountedOn key family ps)

theorem familyCounts_empty (cap : Nat) (key : DevKey) (family : UInt8) :
    FamilyCounts key family [] (Maps.empty ncpu cap) :=
  rfl

theorem familyCounts_run (key : DevKey) (family : UInt8) (ps : List (Seen ncpu)) (m : Maps ncpu)
    (s : Seen ncpu) (hinv : FamilyCounts key family ps m) :
    FamilyCounts key family (ps ++ [s]) (Seen.run m s) := by
  unfold FamilyCounts accountedOn at *
  rw [ofNat_sumOf_filter_concat, run_flows]
  have hkey : ∀ q, (flowKey s.skb s.hook.direction q).ifindex = key.ifindex ∧
      (flowKey s.skb s.hook.direction q).direction = key.direction ∧
      (flowKey s.skb s.hook.direction q).family = family ↔ s.devKey = key ∧ q.family = family := by
    intro q
    cases key
    rw [Seen.devKey, DevKey.mk.injEq]
    exact and_assoc.symm
  unfold Seen.flow? Seen.family? at *
  cases hparse : parse s.hook.eth s.skb.data with
  | none => simpa using hinv
  | some q =>
      simp only [Option.map_some, Option.elim_some, flowPackets_account, hinv, hkey q,
        Option.some.injEq, decide_eq_true_eq]
      rfl

/-- One class of one device over all CPUs, with a packet added on one of them. -/
theorem devTotal_packets_add (slots : Fin ncpu → DevVal) (cpu : Fin ncpu) (cls cls' : PktClass)
    (segs len : UInt64) :
    (devTotal (Function.update slots cpu (DevVal.add (slots cpu) cls segs len))).packets cls' =
      (devTotal slots).packets cls' + if cls = cls' then segs else 0 := by
  simp only [devTotal, foldl_finRange_eq_sum]
  rw [← sum_update_add (fun i => (slots i).packets cls') cpu]
  refine Finset.sum_congr rfl fun i _ => ?_
  by_cases hi : i = cpu
  · subst hi
    by_cases hcls : cls = cls'
    · subst hcls
      simp [DevVal.add]
    · have hne : cls' ≠ cls := fun h => hcls h.symm
      simp [DevVal.add, hcls, hne]
  · simp [hi]

/-- All tables, and in the device counters the packets of a class. -/
structure ClassCounts (cap : Nat) (key : DevKey) (cls : PktClass) (ps : List (Seen ncpu))
    (m : Maps ncpu) : Prop extends Accounts cap ps m where
  classed : DevicesFit cap ps →
    (devTotal (slotsAt key m)).packets cls = UInt64.ofNat (classedOn key cls ps)

theorem classCounts_empty (cap : Nat) (key : DevKey) (cls : PktClass) :
    ClassCounts cap key cls [] (Maps.empty ncpu cap) :=
  { accounts_empty cap with
    classed := by
      intro _
      simp [slotsAt, Maps.empty, devTotal, DevVal.zero, classedOn, sumOf] }

theorem classCounts_run (cap : Nat) (key : DevKey) (cls : PktClass) (ps : List (Seen ncpu))
    (m : Maps ncpu) (s : Seen ncpu) (hinv : ClassCounts cap key cls ps m) :
    ClassCounts cap key cls (ps ++ [s]) (Seen.run m s) := by
  refine { accounts_run cap ps m s hinv.toAccounts with classed := fun hfit => ?_ }
  have hroom : HasRoom m s.devKey := by
    refine (hinv.devices hfit.of_concat).hasRoom ?_
    rw [hinv.capacity]
    exact hfit
  have hbefore := hinv.classed hfit.of_concat
  rw [classedOn] at hbefore
  rw [classedOn, ofNat_sumOf_filter_concat]
  by_cases hkey : key = s.devKey
  · subst hkey
    have hslots : slotsAt s.devKey (Seen.run m s) = s.newSlots m := by
      simp [slotsAt, run_devstats m s hroom]
    rw [hslots, Seen.newSlots, devTotal_packets_add, hbefore]
    simp [Seen.pktClass]
  · have hslots : slotsAt key (Seen.run m s) = slotsAt key m := by
      simp [slotsAt, run_devstats m s hroom, AList.lookup_insert_ne hkey]
    have hne : ¬ s.devKey = key := fun h => hkey h.symm
    rw [hslots, hbefore]
    simp [hne]

/-! ## Whole sequences -/

/-- Where every packet of a family has the class, there are no more packets of
the family than of the class. -/
theorem accountedOn_le {family : UInt8} {cls : PktClass} {ps : List (Seen ncpu)}
    (hagree : ∀ s ∈ ps, s.family? = some family → s.pktClass = cls) (key : DevKey) :
    accountedOn key family ps ≤ classedOn key cls ps := by
  unfold accountedOn classedOn
  induction ps with
  | nil => exact Nat.le_refl _
  | cons s ps ih =>
      have hrest := ih fun s' hs' => hagree s' (List.mem_cons_of_mem _ hs')
      by_cases hon : s.devKey = key ∧ s.family? = some family
      · have hcls : s.devKey = key ∧ s.pktClass = cls :=
          ⟨hon.1, hagree s List.mem_cons_self hon.2⟩
        rw [List.filter_cons_of_pos (by simpa using hon),
          List.filter_cons_of_pos (by simpa using hcls)]
        exact Nat.add_le_add_left hrest _
      · rw [List.filter_cons_of_neg (by simpa using hon)]
        have hmore := (List.sublist_cons_self s ps).filter
          fun s => decide (s.devKey = key ∧ s.pktClass = cls)
        exact hrest.trans (List.Sublist.sum_le_sum (hmore.map _) fun _ _ => Nat.zero_le _)

/-- **Families and classes.**  In every sequence of packets, a packet classed
ARP or OTHER changes no flow; the packets of the flows of a family and of the
device counters of a class are those accounted and classed so; and every
accounted packet has the class of its family, so that on every device and
direction no family has more packets than its class, if and only if the
EtherType of every accounted packet names the version of its IP header. -/
theorem families_within_classes_iff (cap : Nat) (ps : List (Seen ncpu)) :
    (∀ s ∈ ps, s.pktClass = .arp ∨ s.pktClass = .other →
        ∀ (env : Env ncpu) m, (observe env s.hook s.skb m).flows = m.flows) ∧
      (∀ key family, flowPackets key family (runAll cap ps).flows =
        UInt64.ofNat (accountedOn key family ps)) ∧
      (DevicesFit cap ps → ∀ key cls, (devTotal (slotsAt key (runAll cap ps))).packets cls =
        UInt64.ofNat (classedOn key cls ps)) ∧
      (((∀ s ∈ ps, ∀ p, parse s.hook.eth s.skb.data = some p →
            pktClass s.hook.eth s.skb.data = classOf p.family) ∧
          ∀ key, accountedOn key 4 ps ≤ classedOn key .ipv4 ps ∧
            accountedOn key 6 ps ≤ classedOn key .ipv6 ps) ↔
        ∀ s ∈ ps, (parse s.hook.eth s.skb.data).isSome = true →
          VersionMatches s.hook.eth s.skb.data) := by
  refine ⟨?_, ?_, ?_, ?_, ?_⟩
  · intro s _ hclass env m
    exact observe_flows_of_class env s.hook s.skb m hclass
  · intro key family
    have hcounts : FamilyCounts key family ps (runAll cap ps) :=
      foldl_invariant (familyCounts_empty cap key family) (familyCounts_run key family) ps
    exact hcounts
  · intro hfit key cls
    have hcounts : ClassCounts cap key cls ps (runAll cap ps) :=
      foldl_invariant (classCounts_empty cap key cls) (classCounts_run cap key cls) ps
    exact hcounts.classed hfit
  · rintro ⟨hagree, -⟩ s hs hsome
    obtain ⟨p, hparse⟩ := Option.isSome_iff_exists.mp hsome
    exact (pktClass_eq_iff hparse).mp (hagree s hs p hparse)
  · intro hmatches
    have hagree : ∀ s ∈ ps, ∀ p, parse s.hook.eth s.skb.data = some p →
        pktClass s.hook.eth s.skb.data = classOf p.family := by
      intro s hs p hparse
      exact (pktClass_eq_iff hparse).mpr (hmatches s hs (by rw [hparse]; rfl))
    have hfamily : ∀ family, ∀ s ∈ ps, s.family? = some family →
        s.pktClass = classOf family := by
      intro family s hs hsome
      obtain ⟨p, hparse, rfl⟩ := Option.map_eq_some_iff.mp hsome
      exact hagree s hs p hparse
    exact ⟨hagree, fun key => ⟨accountedOn_le (hfamily 4) key, accountedOn_le (hfamily 6) key⟩⟩

/-- An Ethernet frame whose EtherType says IPv4 in front of an IPv6 header. -/
def mislabelled : Seen 1 where
  cpu := ⟨0, Nat.one_pos⟩
  now := 5
  hook := obserwrtIngressEth
  skb :=
    { data := [2, 0, 0, 0, 0, 1, 2, 0, 0, 0, 0, 2, 8, 0,
        0x60, 0, 0, 0, 0, 8, 17, 64] ++ List.replicate 32 1 ++ [0, 53, 0, 54, 0, 8, 0, 0]
      len := 62
      ifindex := 7
      gsoSegs := 0
      vlanPresent := false
      vlanTci := 0 }

/-- **A packet of class IPv4 in an IPv6 flow**: it is accounted under the
family 6, and the device has seen no packet of the class IPv6. -/
theorem mislabelled_packet_crosses_classes :
    mislabelled.family? = some 6 ∧ mislabelled.pktClass = .ipv4 ∧
      classedOn ⟨7, 0⟩ .ipv6 [mislabelled] < accountedOn ⟨7, 0⟩ 6 [mislabelled] ∧
      (devTotal (slotsAt ⟨7, 0⟩ (runAll 8 [mislabelled]))).packets .ipv6 <
        flowPackets ⟨7, 0⟩ 6 (runAll 8 [mislabelled]).flows := by
  decide +kernel

end Bpf
end Obserwrt
