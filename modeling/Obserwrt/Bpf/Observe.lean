import Mathlib.Logic.Function.Basic
import Obserwrt.Bpf.Parse

/-!
# The TC programs and their maps

The state the four classifier programs share: the LRU flow map, the per-CPU
aggregate counters and the per-CPU device counters.  One program run is
`observe`, a function of the packet, the hook it was seen on and the run's
environment (CPU, clock, and what the two bounded maps do with an insertion).
The per-CPU slots are separate here as they are in the kernel; the agent's
sums over CPUs (`Bpf::bpf_stats`, `read_dev_counters`) are `statTotal` and
`devTotal`.
-/

namespace Obserwrt
namespace Bpf

open Lib

/-- The slots of `obserwrt_stats`. -/
inductive Stat
  | packets
  | bytes
  | flowsCreated
  | parsed
  | drops
  | dropsUnparsed
  deriving DecidableEq

/-- The maps of the TC object on a machine with `ncpu` possible CPUs.
`devCapacity` is `max_entries` of `obserwrt_devstats`. -/
structure Maps (ncpu : Nat) where
  flows : FlowTable
  stats : Fin ncpu → Stat → UInt64
  devstats : Store DevKey (Fin ncpu → DevVal)
  devCapacity : Nat

/-- Freshly loaded maps. -/
def Maps.empty (ncpu devCapacity : Nat) : Maps ncpu where
  flows := ∅
  stats := fun _ _ => 0
  devstats := ∅
  devCapacity := devCapacity

/-- The environment of one program run.  `evicted` are the keys the LRU map
evicts to make room for a new entry, `updateOk` is whether
`bpf_map_update_elem` on the flow map returns 0. -/
structure Env (ncpu : Nat) where
  cpu : Fin ncpu
  now : UInt64
  evicted : List FlowKey := []
  updateOk : Bool := true

/-- The hook a program is attached to: direction, and the framing the agent
chose by link type. -/
structure Hook where
  direction : Direction
  eth : Bool
  deriving DecidableEq

/-- The four programs of the object. -/
def obserwrtIngressEth : Hook := ⟨.ingress, true⟩
def obserwrtEgressEth : Hook := ⟨.egress, true⟩
def obserwrtIngressL3 : Hook := ⟨.ingress, false⟩
def obserwrtEgressL3 : Hook := ⟨.egress, false⟩

variable {ncpu : Nat}

/-- `stat_add` on the slot of the running CPU. -/
def statAdd (cpu : Fin ncpu) (idx : Stat) (n : UInt64) (m : Maps ncpu) : Maps ncpu :=
  { m with
    stats := Function.update m.stats cpu
      (Function.update (m.stats cpu) idx (m.stats cpu idx + n)) }

/-- Add a packet to one class of a device counter. -/
def DevVal.add (v : DevVal) (cls : PktClass) (segs len : UInt64) : DevVal where
  packets := Function.update v.packets cls (v.packets cls + segs)
  bytes := Function.update v.bytes cls (v.bytes cls + len)

/-- The zeroed entry `BPF_NOEXIST` inserts for a device not yet in the map;
nothing when the map is full. -/
def devEnsure (key : DevKey) (m : Maps ncpu) : Maps ncpu :=
  match m.devstats.lookup key with
  | some _ => m
  -- a plain hash map: it does not evict, so a full one refuses the insertion
  | none =>
      if m.devstats.entries.length < m.devCapacity then
        { m with devstats := m.devstats.insert key fun _ => DevVal.zero }
      else m

/-- `obserwrt_dev_count`. -/
def devCount (cpu : Fin ncpu) (skb : SkBuff) (hook : Hook) (m : Maps ncpu) : Maps ncpu :=
  let key : DevKey := ⟨skb.ifindex, hook.direction.code⟩
  let m := devEnsure key m
  match m.devstats.lookup key with
  | none => m
  | some slots =>
      let v := DevVal.add (slots cpu) (pktClass hook.eth skb.data)
        (segsOf skb).toUInt64 skb.len.toUInt64
      { m with devstats := m.devstats.insert key (Function.update slots cpu v) }

/-- What one packet adds to its flow. -/
structure FlowUpdate where
  segs : UInt32
  l3len : UInt32
  tcpf : UInt8
  vlanId : UInt16
  tos : UInt8
  deriving DecidableEq

/-- The entry a flow's first packet creates. -/
def FlowUpdate.create (u : FlowUpdate) (now : UInt64) : FlowVal where
  packets := u.segs.toUInt64
  bytes := u.l3len.toUInt64
  firstSeen := now
  lastSeen := now
  tcpFlags := u.tcpf.toUInt16
  vlanId := u.vlanId
  tos := u.tos

/-- A further packet on an existing entry; `vlan_id` and `tos` stay the first
packet's. -/
def FlowUpdate.apply (u : FlowUpdate) (now : UInt64) (v : FlowVal) : FlowVal :=
  { v with
    packets := v.packets + u.segs.toUInt64
    bytes := v.bytes + u.l3len.toUInt64
    tcpFlags := v.tcpFlags ||| u.tcpf.toUInt16
    lastSeen := now }

/-- Account one packet in the flow map, when nothing is evicted and the update
succeeds: add to the entry found, else create it. -/
def account (key : FlowKey) (u : FlowUpdate) (now : UInt64) (flows : FlowTable) : FlowTable :=
  match flows.lookup key with
  | some v => flows.insert key (u.apply now v)
  | none => flows.insert key (u.create now)

theorem account_eq (key : FlowKey) (u : FlowUpdate) (now : UInt64) (flows : FlowTable) :
    account key u now flows =
      flows.insert key ((flows.lookup key).elim (u.create now) (u.apply now)) := by
  unfold account
  cases hlookup : flows.lookup key with
  | none => rfl
  | some v => rfl

theorem account_lookup (key : FlowKey) (u : FlowUpdate) (now : UInt64) (flows : FlowTable)
    (k : FlowKey) :
    (account key u now flows).lookup k =
      if k = key then some ((flows.lookup key).elim (u.create now) (u.apply now))
      else flows.lookup k := by
  rw [account_eq, Store.lookup_insert_eq]

/-- The update `observe` makes for a parsed packet. -/
def flowUpdate (hook : Hook) (skb : SkBuff) (p : Parsed) : FlowUpdate where
  segs := segsOf skb
  l3len := l3len skb p
  tcpf := p.tcpf
  vlanId := if hook.eth then outerVlan skb else 0
  tos := tosOf skb p

/-- The flow accounting at the end of `observe`, with the map's own behaviour
on an insertion: LRU victims go first, and only a successful insertion counts
as a created flow. -/
def accountFlow (env : Env ncpu) (hook : Hook) (skb : SkBuff) (p : Parsed)
    (m : Maps ncpu) : Maps ncpu :=
  let key := flowKey skb hook.direction p
  let u := flowUpdate hook skb p
  match m.flows.lookup key with
  | some v => { m with flows := m.flows.insert key (u.apply env.now v) }
  -- `vlan_id` and `tos` are written here and never again
  | none =>
      if env.updateOk then
        statAdd env.cpu .flowsCreated 1
          { m with flows := (Store.eraseAll m.flows env.evicted).insert key (u.create env.now) }
      else m

/-- What `observe` counts before it parses: the aggregate and the device
counters. -/
def countSeen (env : Env ncpu) (hook : Hook) (skb : SkBuff) (m : Maps ncpu) : Maps ncpu :=
  devCount env.cpu skb hook
    (statAdd env.cpu .bytes skb.len.toUInt64
      (statAdd env.cpu .packets (segsOf skb).toUInt64 m))

/-- One run of a classifier program. -/
def observe (env : Env ncpu) (hook : Hook) (skb : SkBuff) (m : Maps ncpu) : Maps ncpu :=
  let m := countSeen env hook skb m
  match parse hook.eth skb.data with
  | none => m
  | some p =>
      accountFlow env hook skb p (statAdd env.cpu .parsed (segsOf skb).toUInt64 m)

/-! ## The agent's view: sums over CPUs -/

/-- `bpf_stats`: one slot summed over the CPUs, in 64-bit arithmetic. -/
def statTotal (m : Maps ncpu) (idx : Stat) : UInt64 :=
  (List.finRange ncpu).foldl (fun acc cpu => acc + m.stats cpu idx) 0

/-- `read_dev_counters`: the counters of one entry summed over the CPUs. -/
def devTotal (slots : Fin ncpu → DevVal) : DevVal where
  packets := fun cls => (List.finRange ncpu).foldl (fun acc cpu => acc + (slots cpu).packets cls) 0
  bytes := fun cls => (List.finRange ncpu).foldl (fun acc cpu => acc + (slots cpu).bytes cls) 0

end Bpf

/-! ## One counter at a time -/

namespace Counter

/-- What a packet adds to a counter of its flow. -/
def ofUpdate : Counter → Bpf.FlowUpdate → UInt32
  | .packets, u => u.segs
  | .bytes, u => u.l3len

/-- What a packet adds to a counter of its device. -/
def ofSkb : Counter → Bpf.SkBuff → UInt32
  | .packets, skb => Bpf.segsOf skb
  | .bytes, skb => skb.len

/-- The aggregate counter of all packets seen. -/
def stat : Counter → Bpf.Stat
  | .packets => .packets
  | .bytes => .bytes

@[simp] theorem ofVal_create (c : Counter) (u : Bpf.FlowUpdate) (now : UInt64) :
    c.ofVal (u.create now) = (c.ofUpdate u).toUInt64 := by
  cases c <;> rfl

@[simp] theorem ofVal_apply (c : Counter) (u : Bpf.FlowUpdate) (now : UInt64) (v : FlowVal) :
    c.ofVal (u.apply now v) = c.ofVal v + (c.ofUpdate u).toUInt64 := by
  cases c <;> rfl

end Counter
end Obserwrt
