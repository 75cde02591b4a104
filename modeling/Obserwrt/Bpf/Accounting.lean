import Mathlib.Data.UInt
import Mathlib.Algebra.BigOperators.Fin
import Mathlib.Algebra.Order.BigOperators.Group.List
import Obserwrt.Lib.Run
import Obserwrt.Bpf.Observe

/-!
# Exact accounting of packet sequences

The flow map, the aggregate counters and the per-device class counters are
updated at different points of one program run, with early returns between
them.  Here the programs run over an arbitrary sequence of packets, on any
CPUs, with no eviction and no failed update of the flow map, and every table is
tied to the sequence: `flowOf` is the entry a list of packets of one flow
should leave, and the counters are sums over the packets.  Sums are taken in
`Nat`, and a 64-bit counter is the sum modulo `2 ^ 64`.
-/

namespace Obserwrt
namespace Bpf

open Lib

variable {ncpu : Nat}

/-- A packet at a hook, with the CPU and the time of the program run. -/
structure Seen (ncpu : Nat) where
  cpu : Fin ncpu
  now : UInt64
  hook : Hook
  skb : SkBuff

/-- The program run: nothing is evicted and updates succeed. -/
def Seen.run (m : Maps ncpu) (p : Seen ncpu) : Maps ncpu :=
  observe { cpu := p.cpu, now := p.now } p.hook p.skb m

/-- The maps after a sequence of packets. -/
def runAll (cap : Nat) (ps : List (Seen ncpu)) : Maps ncpu :=
  ps.foldl Seen.run (Maps.empty ncpu cap)

/-- The flow key and the update of a packet that reaches flow accounting. -/
def Seen.flow? (p : Seen ncpu) : Option (FlowKey × FlowUpdate) :=
  (parse p.hook.eth p.skb.data).map fun q =>
    (flowKey p.skb p.hook.direction q, flowUpdate p.hook p.skb q)

/-- The device counter of a packet. -/
def Seen.devKey (p : Seen ncpu) : DevKey :=
  ⟨p.skb.ifindex, p.hook.direction.code⟩

/-! ## What the tables should hold -/

/-- The exact sum of a 32-bit quantity over a list. -/
def sumOf {α : Type} (f : α → UInt32) (l : List α) : Nat :=
  (l.map fun a => (f a).toNat).sum

/-- The updates of the packets accounted to a key, in order, with their times. -/
def updatesOf (k : FlowKey) (ps : List (Seen ncpu)) : List (FlowUpdate × UInt64) :=
  ps.filterMap fun p =>
    match p.flow? with
    | some (key, u) => if key = k then some (u, p.now) else none
    | none => none

/-- The entry of a flow with these packets: sums of segments and octets, the
union of the flags, the times of the first and the last packet, and the VLAN
and TOS of the first. -/
def flowOf : List (FlowUpdate × UInt64) → Option FlowVal
  | [] => none
  | first :: rest =>
      some
        { packets := UInt64.ofNat (sumOf (fun u => u.1.segs) (first :: rest))
          bytes := UInt64.ofNat (sumOf (fun u => u.1.l3len) (first :: rest))
          firstSeen := first.2
          lastSeen := ((first :: rest).getLast (List.cons_ne_nil _ _)).2
          tcpFlags := (first :: rest).foldl (fun flags u => flags ||| u.1.tcpf.toUInt16) 0
          vlanId := first.1.vlanId
          tos := first.1.tos }

/-- The four classes of one counter, added up. -/
def classSum (g : PktClass → UInt64) : UInt64 :=
  g .ipv4 + g .ipv6 + g .arp + g .other

/-- The four class counters of a device entry, over all CPUs, added up. -/
def devSum (c : Counter) (slots : Fin ncpu → DevVal) : UInt64 :=
  classSum (c.ofDev (devTotal slots))

/-- The device map has room for every device and direction of the sequence. -/
def DevicesFit (cap : Nat) (ps : List (Seen ncpu)) : Prop :=
  (ps.map Seen.devKey).toFinset.card ≤ cap

theorem sumOf_concat {α : Type} (f : α → UInt32) (l : List α) (a : α) :
    sumOf f (l ++ [a]) = sumOf f l + (f a).toNat := by
  simp [sumOf]

theorem ofNat_sumOf_concat {α : Type} (f : α → UInt32) (l : List α) (a : α) :
    UInt64.ofNat (sumOf f (l ++ [a])) = UInt64.ofNat (sumOf f l) + (f a).toUInt64 := by
  rw [sumOf_concat, UInt64.ofNat_add, UInt64.ofNat_uInt32ToNat]

theorem updatesOf_concat (k : FlowKey) (ps : List (Seen ncpu)) (p : Seen ncpu) :
    updatesOf k (ps ++ [p]) = updatesOf k ps ++ updatesOf k [p] := by
  simp [updatesOf]

/-- One more packet creates the entry or is added to it. -/
theorem flowOf_concat (us : List (FlowUpdate × UInt64)) (u : FlowUpdate) (now : UInt64) :
    flowOf (us ++ [(u, now)]) = some ((flowOf us).elim (u.create now) (u.apply now)) := by
  cases us with
  | nil =>
      simp [flowOf, sumOf, FlowUpdate.create]
  | cons first rest =>
      have hsegs := ofNat_sumOf_concat (fun u : FlowUpdate × UInt64 => u.1.segs) (first :: rest)
        (u, now)
      have hbytes := ofNat_sumOf_concat (fun u : FlowUpdate × UInt64 => u.1.l3len) (first :: rest)
        (u, now)
      rw [List.cons_append] at hsegs hbytes ⊢
      simp only [flowOf, hsegs, hbytes, Option.elim_some, FlowUpdate.apply, Option.some.injEq,
        FlowVal.mk.injEq, true_and, and_true]
      refine ⟨?_, ?_⟩
      · simp
      · simp

/-! ## Counters over CPUs -/

theorem foldl_finRange_eq_sum (f : Fin ncpu → UInt64) :
    (List.finRange ncpu).foldl (fun acc cpu => acc + f cpu) 0 = ∑ cpu, f cpu := by
  rw [Fin.sum_univ_def, List.sum_eq_foldl, List.foldl_map]

/-- Adding to one CPU's slot adds to the sum. -/
theorem sum_update_add (f : Fin ncpu → UInt64) (cpu : Fin ncpu) (n : UInt64) :
    ∑ i, Function.update f cpu (f cpu + n) i = ∑ i, f i + n := by
  rw [Finset.sum_update_of_mem (Finset.mem_univ cpu), ← Finset.add_sum_erase _ f
    (Finset.mem_univ cpu), Finset.sdiff_singleton_eq_erase]
  ac_rfl

theorem statTotal_statAdd (m : Maps ncpu) (cpu : Fin ncpu) (idx idx' : Stat) (n : UInt64) :
    statTotal (statAdd cpu idx n m) idx' =
      statTotal m idx' + if idx' = idx then n else 0 := by
  simp only [statTotal, foldl_finRange_eq_sum, statAdd]
  by_cases hidx : idx' = idx
  · subst hidx
    rw [if_pos rfl, ← sum_update_add (fun i => m.stats i idx') cpu n]
    refine Finset.sum_congr rfl fun i _ => ?_
    by_cases hi : i = cpu
    · subst hi
      simp
    · simp [hi]
  · rw [if_neg hidx, add_zero]
    refine Finset.sum_congr rfl fun i _ => ?_
    by_cases hi : i = cpu
    · subst hi
      simp [hidx]
    · simp [hi]

theorem classSum_update (g : PktClass → UInt64) (cls : PktClass) (n : UInt64) :
    classSum (Function.update g cls (g cls + n)) = classSum g + n := by
  cases cls <;> simp [classSum, Function.update] <;> ac_rfl

theorem classSum_sum (g : Fin ncpu → PktClass → UInt64) :
    classSum (fun cls => ∑ i, g i cls) = ∑ i, classSum (g i) := by
  simp only [classSum, Finset.sum_add_distrib]

theorem devSum_eq (c : Counter) (slots : Fin ncpu → DevVal) :
    devSum c slots = ∑ i, classSum (c.ofDev (slots i)) := by
  rw [← classSum_sum]
  cases c
  · simp only [devSum, classSum, Counter.ofDev, devTotal, foldl_finRange_eq_sum]
  · simp only [devSum, classSum, Counter.ofDev, devTotal, foldl_finRange_eq_sum]

theorem devSum_zero (c : Counter) : devSum c (fun _ : Fin ncpu => DevVal.zero) = 0 := by
  have hzero : classSum (c.ofDev DevVal.zero) = 0 := by
    cases c <;> rfl
  simp [devSum_eq, hzero]

/-- A packet adds to the class sums of its device what it adds to the
aggregate counters. -/
theorem devSum_add (c : Counter) (slots : Fin ncpu → DevVal) (cpu : Fin ncpu) (cls : PktClass)
    (skb : SkBuff) :
    devSum c (Function.update slots cpu
        (DevVal.add (slots cpu) cls (segsOf skb).toUInt64 skb.len.toUInt64)) =
      devSum c slots + (c.ofSkb skb).toUInt64 := by
  have hslot : classSum (c.ofDev
      (DevVal.add (slots cpu) cls (segsOf skb).toUInt64 skb.len.toUInt64)) =
        classSum (c.ofDev (slots cpu)) + (c.ofSkb skb).toUInt64 := by
    cases c
    · exact classSum_update _ _ _
    · exact classSum_update _ _ _
  rw [devSum_eq, devSum_eq, ← sum_update_add (fun i => classSum (c.ofDev (slots i))) cpu]
  refine Finset.sum_congr rfl fun i _ => ?_
  by_cases hi : i = cpu
  · subst hi
    simp [hslot]
  · simp [hi]

/-! ## One program run -/

section Run

variable (m : Maps ncpu) (p : Seen ncpu)

theorem devCount_frame (cpu : Fin ncpu) (skb : SkBuff) (hook : Hook) :
    (devCount cpu skb hook m).flows = m.flows ∧ (devCount cpu skb hook m).stats = m.stats ∧
      (devCount cpu skb hook m).devCapacity = m.devCapacity := by
  have hensure : ∀ key, (devEnsure key m).flows = m.flows ∧ (devEnsure key m).stats = m.stats ∧
      (devEnsure key m).devCapacity = m.devCapacity := by
    intro key
    unfold devEnsure
    split
    · exact ⟨rfl, rfl, rfl⟩
    · split <;> exact ⟨rfl, rfl, rfl⟩
  unfold devCount
  simp only
  split
  · exact hensure _
  · exact hensure _

theorem statTotal_congr {m m' : Maps ncpu} (hstats : m'.stats = m.stats) (idx : Stat) :
    statTotal m' idx = statTotal m idx := by
  unfold statTotal
  rw [hstats]

theorem countSeen_flows (env : Env ncpu) (hook : Hook) (skb : SkBuff) :
    (countSeen env hook skb m).flows = m.flows :=
  (devCount_frame ..).1

theorem countSeen_statTotal (env : Env ncpu) (hook : Hook) (skb : SkBuff) (idx : Stat) :
    statTotal (countSeen env hook skb m) idx =
      statTotal m idx + (if idx = .packets then (segsOf skb).toUInt64 else 0) +
        if idx = .bytes then skb.len.toUInt64 else 0 := by
  rw [countSeen, statTotal_congr (devCount_frame ..).2.1, statTotal_statAdd, statTotal_statAdd]

/-- The flow map after a run: the packet is accounted when it parses. -/
theorem run_flows :
    (Seen.run m p).flows =
      p.flow?.elim m.flows fun flow => account flow.1 flow.2 p.now m.flows := by
  unfold Seen.run observe Seen.flow?
  have hseen := countSeen_flows m { cpu := p.cpu, now := p.now } p.hook p.skb
  cases hparse : parse p.hook.eth p.skb.data with
  -- an early return leaves the flow map alone
  | none => exact hseen
  | some q =>
      simp only [Option.map_some, Option.elim_some, accountFlow, account, statAdd, hseen]
      split <;> simp_all [Store.eraseAll]

theorem accountFlow_statTotal (m : Maps ncpu) (cpu : Fin ncpu) (now : UInt64) (hook : Hook)
    (skb : SkBuff) (q : Parsed) (idx : Stat) :
    statTotal (accountFlow { cpu := cpu, now := now } hook skb q m) idx = statTotal m idx +
      if idx = .flowsCreated ∧ (m.flows.lookup (flowKey skb hook.direction q)).isNone then 1
      else 0 := by
  unfold accountFlow
  cases hlookup : m.flows.lookup (flowKey skb hook.direction q) with
  | some v =>
      simp only [hlookup, Option.isNone_some, Bool.false_eq_true, and_false, if_false, add_zero]
      exact statTotal_congr rfl idx
  | none =>
      simp only [hlookup, if_true, statTotal_statAdd, Option.isNone_none, and_true]
      rfl

/-- What a run adds to the aggregate counters. -/
def Seen.adds (m : Maps ncpu) (p : Seen ncpu) : Stat → UInt64
  | .packets => (segsOf p.skb).toUInt64
  | .bytes => p.skb.len.toUInt64
  | .parsed => if p.flow?.isSome then (segsOf p.skb).toUInt64 else 0
  | .flowsCreated => if p.flow?.any fun flow => (m.flows.lookup flow.1).isNone then 1 else 0
  | .drops => 0
  | .dropsUnparsed => 0

theorem run_statTotal (idx : Stat) :
    statTotal (Seen.run m p) idx = statTotal m idx + p.adds m idx := by
  unfold Seen.run observe Seen.adds Seen.flow?
  have hseen := countSeen_flows m { cpu := p.cpu, now := p.now } p.hook p.skb
  cases hparse : parse p.hook.eth p.skb.data with
  | none =>
      simp only [countSeen_statTotal]
      cases idx <;> simp
  | some q =>
      simp only [accountFlow_statTotal, statTotal_statAdd, countSeen_statTotal]
      have hflows : (statAdd p.cpu .parsed (segsOf p.skb).toUInt64
          (countSeen { cpu := p.cpu, now := p.now } p.hook p.skb m)).flows = m.flows := hseen
      rw [hflows]
      cases idx <;> simp

/-- The slots of a device, zero when it has none yet. -/
def slotsAt (key : DevKey) (m : Maps ncpu) : Fin ncpu → DevVal :=
  (m.devstats.lookup key).getD fun _ => DevVal.zero

/-- The slots of a packet's device with the packet added. -/
def Seen.newSlots (m : Maps ncpu) (p : Seen ncpu) : Fin ncpu → DevVal :=
  Function.update (slotsAt p.devKey m) p.cpu
    (DevVal.add (slotsAt p.devKey m p.cpu) (pktClass p.hook.eth p.skb.data)
      (segsOf p.skb).toUInt64 p.skb.len.toUInt64)

/-- The device of the packet is in the map, or there is room for it. -/
def HasRoom (m : Maps ncpu) (key : DevKey) : Prop :=
  m.devstats.lookup key = none → m.devstats.entries.length < m.devCapacity

theorem devEnsure_devstats {key : DevKey} (hroom : HasRoom m key) :
    (devEnsure key m).devstats.lookup key = some (slotsAt key m) ∧
      ∀ slots, (devEnsure key m).devstats.insert key slots = m.devstats.insert key slots := by
  unfold devEnsure
  cases hlookup : m.devstats.lookup key with
  | none => simp [hroom hlookup, slotsAt, hlookup]
  | some slots => simp [hlookup, slotsAt]

theorem devCount_devstats (cpu : Fin ncpu) (skb : SkBuff) (hook : Hook)
    (hroom : HasRoom m ⟨skb.ifindex, hook.direction.code⟩) :
    (devCount cpu skb hook m).devstats =
      m.devstats.insert ⟨skb.ifindex, hook.direction.code⟩
        (Seen.newSlots m ⟨cpu, 0, hook, skb⟩) := by
  obtain ⟨hlookup, hinsert⟩ := devEnsure_devstats m hroom
  unfold devCount
  simp only [hlookup, hinsert]
  rfl

/-- Accounting a flow leaves the device counters alone. -/
theorem run_devices :
    let counted := countSeen { cpu := p.cpu, now := p.now } p.hook p.skb m
    (Seen.run m p).devstats = counted.devstats ∧
      (Seen.run m p).devCapacity = counted.devCapacity := by
  unfold Seen.run observe
  simp only
  split
  · exact ⟨rfl, rfl⟩
  · simp only [accountFlow, if_true]
    split <;> exact ⟨rfl, rfl⟩

/-- The device counters after a run: the packet is added to its device. -/
theorem run_devstats (hroom : HasRoom m p.devKey) :
    (Seen.run m p).devstats = m.devstats.insert p.devKey (p.newSlots m) := by
  rw [(run_devices m p).1]
  exact devCount_devstats
    (statAdd p.cpu .bytes p.skb.len.toUInt64 (statAdd p.cpu .packets (segsOf p.skb).toUInt64 m))
    p.cpu p.skb p.hook hroom

theorem run_devCapacity : (Seen.run m p).devCapacity = m.devCapacity := by
  rw [(run_devices m p).2]
  exact (devCount_frame
    (statAdd p.cpu .bytes p.skb.len.toUInt64 (statAdd p.cpu .packets (segsOf p.skb).toUInt64 m))
    p.cpu p.skb p.hook).2.2

end Run

/-! ## The flow map and the aggregate counters -/

/-- Accounting a packet adds its segments to the total over the entries. -/
theorem total_account (key : FlowKey) (u : FlowUpdate) (now : UInt64) (flows : FlowTable) :
    Store.total (fun _ v => v.packets) (account key u now flows) =
      Store.total (fun _ v => v.packets) flows + u.segs.toUInt64 := by
  rw [account_eq]
  exact Store.total_upsert _ flows rfl fun v => rfl

/-- Accounting a packet creates at most one entry. -/
theorem length_account (key : FlowKey) (u : FlowUpdate) (now : UInt64) (flows : FlowTable) :
    (account key u now flows).entries.length =
      flows.entries.length + if (flows.lookup key).isNone then 1 else 0 := by
  unfold account
  cases hlookup : flows.lookup key with
  | none => exact Store.length_insert_of_lookup_none hlookup
  | some v => exact Store.length_insert_of_lookup_some _ hlookup

/-- The flow map and the aggregate counters after a sequence of packets. -/
structure FlowAccounts (ps : List (Seen ncpu)) (m : Maps ncpu) : Prop where
  flows : ∀ k, m.flows.lookup k = flowOf (updatesOf k ps)
  seen : ∀ c : Counter, statTotal m c.stat = UInt64.ofNat (sumOf (fun p => c.ofSkb p.skb) ps)
  parsed : statTotal m .parsed =
    UInt64.ofNat (sumOf (fun p => segsOf p.skb) (ps.filter fun p => p.flow?.isSome))
  entries : Store.total (fun _ v => v.packets) m.flows = statTotal m .parsed
  created : UInt64.ofNat m.flows.entries.length = statTotal m .flowsCreated

theorem statTotal_empty (cap : Nat) (idx : Stat) : statTotal (Maps.empty ncpu cap) idx = 0 := by
  simp [statTotal, Maps.empty]

theorem flowAccounts_empty (cap : Nat) : FlowAccounts [] (Maps.empty ncpu cap) where
  flows := fun _ => rfl
  seen := fun c => statTotal_empty cap c.stat
  parsed := statTotal_empty cap .parsed
  entries := (statTotal_empty cap .parsed).symm
  created := (statTotal_empty cap .flowsCreated).symm

theorem flow?_segs {p : Seen ncpu} {flow : FlowKey × FlowUpdate} (hflow : p.flow? = some flow) :
    flow.2.segs = segsOf p.skb := by
  obtain ⟨q, -, rfl⟩ := Option.map_eq_some_iff.mp hflow
  rfl

theorem flowAccounts_run (ps : List (Seen ncpu)) (m : Maps ncpu) (p : Seen ncpu)
    (hinv : FlowAccounts ps m) : FlowAccounts (ps ++ [p]) (Seen.run m p) where
  flows := by
    intro k
    rw [run_flows, updatesOf_concat]
    cases hflow : p.flow? with
    | none => simpa [updatesOf, hflow] using hinv.flows k
    | some flow =>
        rw [Option.elim_some, account_lookup]
        by_cases hkey : k = flow.1
        · subst hkey
          have hupdates : updatesOf flow.1 [p] = [(flow.2, p.now)] := by
            simp [updatesOf, hflow]
          rw [if_pos rfl, hupdates, flowOf_concat, hinv.flows]
        · have hne : flow.1 ≠ k := fun h => hkey h.symm
          have hupdates : updatesOf k [p] = [] := by
            simp [updatesOf, hflow, hne]
          rw [if_neg hkey, hupdates, List.append_nil, hinv.flows]
  seen := by
    intro c
    rw [run_statTotal, ofNat_sumOf_concat, hinv.seen c]
    cases c <;> rfl
  parsed := by
    rw [run_statTotal, hinv.parsed, List.filter_append]
    cases hflow : p.flow?.isSome with
    | false => simp [Seen.adds, hflow]
    | true =>
        have hlast : [p].filter (fun p => p.flow?.isSome) = [p] := by
          simp [hflow]
        rw [hlast, ofNat_sumOf_concat]
        simp [Seen.adds, hflow]
  entries := by
    rw [run_statTotal, run_flows, ← hinv.entries]
    cases hflow : p.flow? with
    | none => simp [Seen.adds, hflow]
    | some flow =>
        rw [Option.elim_some, total_account, flow?_segs hflow]
        simp [Seen.adds, hflow]
  created := by
    rw [run_statTotal, run_flows, ← hinv.created]
    cases hflow : p.flow? with
    | none => simp [Seen.adds, hflow]
    | some flow =>
        rw [Option.elim_some, length_account, UInt64.ofNat_add]
        cases hnew : (m.flows.lookup flow.1).isNone <;> simp [Seen.adds, hflow, hnew]

/-! ## The device counters -/

/-- The device counters after a sequence of packets whose devices fit. -/
structure DevAccounts (ps : List (Seen ncpu)) (m : Maps ncpu) : Prop where
  keys : ∀ key, (m.devstats.lookup key).isSome = true ↔ key ∈ ps.map Seen.devKey
  sums : ∀ (c : Counter) key, devSum c (slotsAt key m) =
    UInt64.ofNat (sumOf (fun p => c.ofSkb p.skb) (ps.filter fun p => decide (p.devKey = key)))
  total : ∀ c : Counter, Store.total (fun _ slots => devSum c slots) m.devstats =
    UInt64.ofNat (sumOf (fun p => c.ofSkb p.skb) ps)

theorem devAccounts_empty (cap : Nat) : DevAccounts [] (Maps.empty ncpu cap) where
  keys := by
    intro key
    simp [Maps.empty]
  sums := by
    intro c key
    exact devSum_zero c
  total := fun c => rfl

theorem DevAccounts.length_eq {ps : List (Seen ncpu)} {m : Maps ncpu} (hinv : DevAccounts ps m) :
    m.devstats.entries.length = (ps.map Seen.devKey).toFinset.card := by
  have hset : m.devstats.keys.toFinset = (ps.map Seen.devKey).toFinset := by
    ext key
    rw [List.mem_toFinset, List.mem_toFinset, ← hinv.keys key, AList.lookup_isSome]
    exact Iff.rfl
  rw [← hset, List.toFinset_card_of_nodup m.devstats.keys_nodup]
  simp [AList.keys, List.keys]

/-- While the devices of the sequence fit, every packet finds room. -/
theorem DevAccounts.hasRoom {ps : List (Seen ncpu)} {m : Maps ncpu} {p : Seen ncpu}
    (hinv : DevAccounts ps m) (hfit : DevicesFit m.devCapacity (ps ++ [p])) :
    HasRoom m p.devKey := by
  intro hnone
  -- a device not in the map is a new one, so the devices so far leave room
  have hnew : p.devKey ∉ (ps.map Seen.devKey).toFinset := by
    rw [List.mem_toFinset, ← hinv.keys p.devKey, hnone]
    simp
  have hcard := Finset.card_insert_of_notMem hnew
  have hset : ((ps ++ [p]).map Seen.devKey).toFinset =
      insert p.devKey (ps.map Seen.devKey).toFinset := by
    ext key
    simp
  unfold DevicesFit at hfit
  rw [hset, hcard, ← hinv.length_eq] at hfit
  omega

theorem devAccounts_run (ps : List (Seen ncpu)) (m : Maps ncpu) (p : Seen ncpu)
    (hinv : DevAccounts ps m) (hroom : HasRoom m p.devKey) :
    DevAccounts (ps ++ [p]) (Seen.run m p) := by
  have hdev := run_devstats m p hroom
  have hnew : ∀ c : Counter, devSum c (p.newSlots m) =
      devSum c (slotsAt p.devKey m) + (c.ofSkb p.skb).toUInt64 :=
    fun c => devSum_add c (slotsAt p.devKey m) p.cpu _ p.skb
  refine ⟨?_, ?_, ?_⟩
  · intro key
    rw [hdev, Store.lookup_insert_eq]
    by_cases hkey : key = p.devKey
    · simp [hkey]
    · simp only [if_neg hkey, hinv.keys key, List.map_append, List.mem_append]
      simp [hkey]
  · intro c key
    by_cases hkey : key = p.devKey
    · subst hkey
      have hslots : slotsAt p.devKey (Seen.run m p) = p.newSlots m := by
        simp [slotsAt, hdev]
      rw [hslots, hnew, hinv.sums, List.filter_append,
        List.filter_cons_of_pos (by simp), List.filter_nil, ofNat_sumOf_concat]
    · have hslots : slotsAt key (Seen.run m p) = slotsAt key m := by
        simp [slotsAt, hdev, AList.lookup_insert_ne hkey]
      have hne : ¬ p.devKey = key := fun h => hkey h.symm
      rw [hslots, hinv.sums, List.filter_append, List.filter_cons_of_neg (by simp [hne]),
        List.filter_nil, List.append_nil]
  · intro c
    rw [hdev, ofNat_sumOf_concat, ← hinv.total c]
    cases hlookup : m.devstats.lookup p.devKey with
    | none =>
        have hzero : devSum c (slotsAt p.devKey m) = 0 := by
          simp [slotsAt, hlookup, devSum_zero]
        -- the first packet of the device: its slots start from zero
        rw [Store.total_insert_of_lookup_none _ hlookup, hnew, hzero, zero_add, add_comm]
    | some slots =>
        have hinsert := Store.total_insert_of_lookup_some (fun _ slots => devSum c slots)
          (p.newSlots m) hlookup
        have hold : slotsAt p.devKey m = slots := by
          simp [slotsAt, hlookup]
        rw [hnew, hold, add_comm (devSum c slots), ← add_assoc] at hinsert
        -- the old sum of the entry stands on both sides
        exact add_right_cancel hinsert

/-! ## Whole sequences -/

theorem DevicesFit.of_concat {cap : Nat} {ps : List (Seen ncpu)} {p : Seen ncpu}
    (hfit : DevicesFit cap (ps ++ [p])) : DevicesFit cap ps := by
  refine le_trans (Finset.card_le_card ?_) hfit
  intro key hkey
  simp only [List.map_append, List.toFinset_append, Finset.mem_union]
  exact Or.inl hkey

/-- All tables after a sequence of packets. -/
structure Accounts (cap : Nat) (ps : List (Seen ncpu)) (m : Maps ncpu) : Prop
    extends FlowAccounts ps m where
  capacity : m.devCapacity = cap
  devices : DevicesFit cap ps → DevAccounts ps m

theorem accounts_empty (cap : Nat) : Accounts cap [] (Maps.empty ncpu cap) :=
  { flowAccounts_empty cap with
    capacity := rfl
    devices := fun _ => devAccounts_empty cap }

theorem accounts_run (cap : Nat) (ps : List (Seen ncpu)) (m : Maps ncpu) (p : Seen ncpu)
    (hinv : Accounts cap ps m) : Accounts cap (ps ++ [p]) (Seen.run m p) :=
  { flowAccounts_run ps m p hinv.toFlowAccounts with
    capacity := (run_devCapacity m p).trans hinv.capacity
    devices := by
      intro hfit
      have hbefore := hinv.devices hfit.of_concat
      rw [← hinv.capacity] at hfit
      exact devAccounts_run ps m p hbefore (hbefore.hasRoom hfit) }

theorem runAll_accounts (cap : Nat) (ps : List (Seen ncpu)) : Accounts cap ps (runAll cap ps) :=
  foldl_invariant (accounts_empty cap) (accounts_run cap) ps

theorem sumOf_filter_le {α : Type} (f : α → UInt32) (q : α → Bool) (l : List α) :
    sumOf f (l.filter q) ≤ sumOf f l :=
  List.Sublist.sum_le_sum (List.filter_sublist.map _) fun _ _ => Nat.zero_le _

/-- **Exact flow accounting.**  After every sequence of packets on any CPUs:
the flow map holds, for each key, the entry of the packets accounted to it and
nothing else; `STAT_PARSED` is the sum of packets over the entries and
`STAT_FLOWS_CREATED` the number of entries; no more is parsed than seen; and,
while the devices fit in their map, the class counters of each device and
direction add up to what was seen there, and their totals over the devices are
`STAT_PACKETS` and `STAT_BYTES`. -/
theorem observe_accounts_exactly (cap : Nat) (ps : List (Seen ncpu)) :
    (∀ k, (runAll cap ps).flows.lookup k = flowOf (updatesOf k ps)) ∧
    Store.total (fun _ v => v.packets) (runAll cap ps).flows = statTotal (runAll cap ps) .parsed ∧
    UInt64.ofNat (runAll cap ps).flows.entries.length =
      statTotal (runAll cap ps) .flowsCreated ∧
    (∃ parsed seen : Nat, parsed ≤ seen ∧
      seen = sumOf (fun p => segsOf p.skb) ps ∧
      statTotal (runAll cap ps) .parsed = UInt64.ofNat parsed ∧
      statTotal (runAll cap ps) .packets = UInt64.ofNat seen ∧
      (seen < 2 ^ 64 → statTotal (runAll cap ps) .parsed ≤ statTotal (runAll cap ps) .packets)) ∧
    (DevicesFit cap ps → ∀ c : Counter,
      (∀ key, devSum c (slotsAt key (runAll cap ps)) =
        UInt64.ofNat (sumOf (fun p => c.ofSkb p.skb)
          (ps.filter fun p => decide (p.devKey = key)))) ∧
      Store.total (fun _ slots => devSum c slots) (runAll cap ps).devstats =
        statTotal (runAll cap ps) c.stat) := by
  have hacc := runAll_accounts cap ps
  have hle := sumOf_filter_le (fun p : Seen ncpu => segsOf p.skb) (fun p => p.flow?.isSome) ps
  have hseen : statTotal (runAll cap ps) .packets =
      UInt64.ofNat (sumOf (fun p => segsOf p.skb) ps) := hacc.seen .packets
  refine ⟨hacc.flows, hacc.entries, hacc.created,
    ⟨_, _, hle, rfl, hacc.parsed, hseen, fun hbound => ?_⟩, fun hfit c => ?_⟩
  · rw [UInt64.le_iff_toNat_le, hacc.parsed, hseen, UInt64.toNat_ofNat_of_lt' hbound,
      UInt64.toNat_ofNat_of_lt' (lt_of_le_of_lt hle hbound)]
    exact hle
  · have hdev := hacc.devices hfit
    exact ⟨hdev.sums c, (hdev.total c).trans (hacc.seen c).symm⟩

/-- Two UDP packets of one flow on a bare L3 device, the second a super-packet
of four segments, on different CPUs. -/
def demoSeen : List (Seen 2) :=
  let data : Bytes :=
    [0x45, 0, 0, 28, 0, 0, 0, 0, 64, 17, 0, 0, 192, 0, 2, 1, 198, 51, 100, 2,
      0, 53, 0, 54, 0, 8, 0, 0]
  [⟨0, 5, obserwrtIngressL3, ⟨data, 28, 7, 0, false, 0⟩⟩,
   ⟨1, 9, obserwrtIngressL3, ⟨data, 100, 7, 4, false, 0⟩⟩]

/-- The flow of the two packets. -/
def demoSeenKey : FlowKey where
  ifindex := 7
  direction := 0
  family := 4
  protocol := 17
  reserved := 0
  src := ⟨[0, 0, 0, 0, 0, 0, 0, 0, 0, 0, 255, 255, 192, 0, 2, 1], rfl⟩
  dst := ⟨[0, 0, 0, 0, 0, 0, 0, 0, 0, 0, 255, 255, 198, 51, 100, 2], rfl⟩
  sport := 53
  dport := 54
  icmpType := 0
  icmpCode := 0

theorem observe_accounts_exactly_demo :
    (runAll 8 demoSeen).flows.lookup demoSeenKey = some ⟨5, 212, 5, 9, 0, 0, 0⟩ ∧
      Store.total (fun _ slots => devSum .bytes slots) (runAll 8 demoSeen).devstats =
        statTotal (runAll 8 demoSeen) .bytes := by
  obtain ⟨hflows, -, -, -, hdevices⟩ := observe_accounts_exactly 8 demoSeen
  refine ⟨?_, (hdevices (by unfold DevicesFit; decide) .bytes).2⟩
  rw [hflows]
  decide

end Bpf
end Obserwrt
