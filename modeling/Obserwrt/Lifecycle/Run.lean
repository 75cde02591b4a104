import Obserwrt.Bpf.Observe

/-!
# `Lifecycle::run` over the libbpf flow map

The periodic pass of the agent.  `BpfFlowMap` snapshots keys and values with a
batched walk of the kernel map, `Lifecycle::run` visits the snapshot in order
and hands each changed or expired flow to the exporter with the growth since
its last export, deletes the expired ones from the kernel map, and prunes the
tracker at the end.

The age test compares two `double`s.  It is a parameter here (`ageOver`), so
that what is proved of a pass does not depend on how the quotient rounds;
`exactAge` is the comparison of the exact quotient.
-/

namespace Obserwrt

open Lib

/-! ## The batched walk -/

/-- What one `BPF_MAP_LOOKUP_BATCH` call reports: entries with more to come,
entries together with `ENOENT` past the last bucket, `ENOSPC` with count 0
(the next bucket exceeds the buffer), or any other error. -/
inductive BatchReply (K V : Type)
  | more (entries : List (K × V))
  | last (entries : List (K × V))
  | noSpace
  | error

/-- `batch_walk`, collecting as `batch_read` does: the entries delivered and
whether the walk succeeded.  `none` while the kernel has not yet given the
reply that ends the loop. -/
def batchWalk {K V : Type} : List (BatchReply K V) → Option (List (K × V) × Bool)
  | [] => none
  | .more entries :: replies =>
      (batchWalk replies).map fun walk => (entries ++ walk.1, walk.2)
  | .last entries :: _ => some (entries, true)
  -- the buffer grows and the same call is made again
  | .noSpace :: replies => batchWalk replies
  | .error :: _ => some ([], false)

namespace Lifecycle

/-- The agent's view of the flow map: the kernel map and the snapshot the
current pass iterates over. -/
structure BpfFlowMap where
  flows : FlowTable
  keys : List FlowKey
  values : List FlowVal
  pos : Nat

/-- `BpfFlowMap::reset`: the key and value vectors are whatever the walk
delivered; its success flag is ignored. -/
def BpfFlowMap.reset (m : BpfFlowMap) (walk : List (FlowKey × FlowVal)) : BpfFlowMap :=
  { m with keys := walk.map Prod.fst, values := walk.map Prod.snd, pos := 0 }

/-- `BpfFlowMap::next_key`. -/
def BpfFlowMap.nextKey (m : BpfFlowMap) : Option (FlowKey × BpfFlowMap) :=
  match m.keys[m.pos]? with
  | none => none
  | some key => some (key, { m with pos := m.pos + 1 })

/-- `BpfFlowMap::get`: the snapshot value of the key just handed out, else a
lookup in the kernel map. -/
def BpfFlowMap.get (m : BpfFlowMap) (key : FlowKey) : Option FlowVal :=
  if 0 < m.pos ∧ m.keys[m.pos - 1]? = some key then m.values[m.pos - 1]?
  else m.flows.lookup key

/-- `BpfFlowMap::delete_key`, which acts on the kernel map. -/
def BpfFlowMap.deleteKey (m : BpfFlowMap) (key : FlowKey) : BpfFlowMap :=
  { m with flows := m.flows.erase key }

/-! ## The pass -/

/-- Per-protocol idle timeouts in seconds. -/
structure Timeouts where
  tcp : UInt64 := 300
  udp : UInt64 := 60
  icmp : UInt64 := 30
  general : UInt64 := 10

/-- What a `Lifecycle` is configured with: the timeouts and the comparison
`double(age_ns) / 1e9 > double(timeout)`. -/
structure Config where
  timeouts : Timeouts
  ageOver : UInt64 → UInt64 → Bool

/-- The age test with the exact quotient. -/
def exactAge (ageNs timeout : UInt64) : Bool :=
  decide (timeout.toNat * 10 ^ 9 < ageNs.toNat)

/-- `proto_timeout`. -/
def protoTimeout (t : Timeouts) (proto : UInt8) : UInt64 :=
  if proto = 6 then t.tcp
  else if proto = 17 then t.udp
  else if proto = 1 ∨ proto = 58 then t.icmp
  else t.general

/-- The tracker's record of a flow: the counters of its last visit. -/
structure Last where
  packets : UInt64
  bytes : UInt64
  lastSeen : UInt64
  deriving DecidableEq

/-- The record a visit leaves. -/
def Last.of (v : FlowVal) : Last :=
  ⟨v.packets, v.bytes, v.lastSeen⟩

/-- `last_`. -/
abbrev Tracker := Store FlowKey Last

/-- One call of the exporter callback. -/
structure Export where
  key : FlowKey
  val : FlowVal
  expired : Bool
  delta : Delta
  deriving DecidableEq

/-- `Lifecycle::Stats`.  The source counts in `unsigned`; each count is of
entries of one snapshot of a map of at most `2 ^ 32 - 1` entries, so it is
exact. -/
structure Stats where
  active : Nat := 0
  expired : Nat := 0
  map : Nat := 0
  deriving DecidableEq

/-- The growth of one counter, through the signed 64-bit subtraction of the
source: a counter that went down is taken to have restarted. -/
def counterDelta (cur prev : UInt64) : UInt64 :=
  let d := cur.toInt64 - prev.toInt64
  if d < 0 then cur.toInt64.toUInt64 else d.toUInt64

/-- The delta against the tracker's record, zero counters when untracked. -/
def deltaSince (prev : Option Last) (v : FlowVal) : Delta where
  packets := counterDelta v.packets ((prev.map Last.packets).getD 0)
  bytes := counterDelta v.bytes ((prev.map Last.bytes).getD 0)

/-- Whether anything changed since the last visit. -/
def changedSince (prev : Option Last) (v : FlowVal) : Bool :=
  match prev with
  | none => true
  | some l => v.lastSeen != l.lastSeen || v.packets != l.packets || v.bytes != l.bytes

/-- The age of a flow, saturating at zero for a `last_seen` after `now`. -/
def ageNs (now : UInt64) (v : FlowVal) : UInt64 :=
  if v.lastSeen ≤ now then now - v.lastSeen else 0

/-- Whether a visit finds the flow past its timeout. -/
def isExpired (cfg : Config) (now : UInt64) (key : FlowKey) (v : FlowVal) : Bool :=
  cfg.ageOver (ageNs now v) (protoTimeout cfg.timeouts key.protocol)

/-- Everything `run` reads and writes while it loops. -/
structure RunState where
  map : BpfFlowMap
  last : Tracker
  seen : List FlowKey
  exports : List Export
  stats : Stats

/-- One visit, up to and including the exporter call and the tracker update.
The deletion of an expired key from the kernel map comes after it. -/
def visit (cfg : Config) (now : UInt64) (key : FlowKey) (v : FlowVal) (s : RunState) : RunState :=
  let prev := s.last.lookup key
  let delta := deltaSince prev v
  -- the record is written before the age test, and an expired key loses it again
  let last := s.last.insert key (Last.of v)
  if isExpired cfg now key v then
    { s with
      last := last.erase key
      seen := key :: s.seen
      exports := s.exports ++ [⟨key, v, true, delta⟩]
      stats := { s.stats with expired := s.stats.expired + 1, map := s.stats.map + 1 } }
  else
    { s with
      last := last
      seen := key :: s.seen
      exports := if changedSince prev v then s.exports ++ [⟨key, v, false, delta⟩] else s.exports
      stats := { s.stats with active := s.stats.active + 1, map := s.stats.map + 1 } }

/-- `map.delete_key(key)` when the visit expired the flow. -/
def deleteExpired (cfg : Config) (now : UInt64) (key : FlowKey) (v : FlowVal)
    (s : RunState) : RunState :=
  if isExpired cfg now key v then { s with map := s.map.deleteKey key } else s

/-- The `while (map.next_key(key))` loop, for at most `fuel` iterations. -/
def loop (cfg : Config) (now : UInt64) : Nat → RunState → RunState
  | 0, s => s
  | fuel + 1, s =>
      match s.map.nextKey with
      | none => s
      | some (key, map) =>
          let s := { s with map := map }
          match map.get key with
          -- evicted between the iteration and the read
          | none => loop cfg now fuel s
          | some v => loop cfg now fuel (deleteExpired cfg now key v (visit cfg now key v s))

/-- The tracker entries of flows the pass did not see are dropped. -/
def prune (s : RunState) : Tracker :=
  Store.eraseAll s.last (s.last.keys.filter fun key => decide (key ∉ s.seen))

/-- The state before the loop, right after `map.reset()`. -/
def runStart (walk : List (FlowKey × FlowVal)) (flows : FlowTable) (last : Tracker) : RunState where
  map := BpfFlowMap.reset ⟨flows, [], [], 0⟩ walk
  last := last
  seen := []
  exports := []
  stats := {}

/-- What a pass leaves behind. -/
structure RunResult where
  flows : FlowTable
  last : Tracker
  exports : List Export
  stats : Stats

/-- `Lifecycle::run` over a `BpfFlowMap` whose walk delivers `walk`.  Each
iteration advances `pos_`, so as many iterations as there are keys end the
loop. -/
def run (cfg : Config) (now : UInt64) (walk : List (FlowKey × FlowVal))
    (flows : FlowTable) (last : Tracker) : RunResult :=
  let s := loop cfg now walk.length (runStart walk flows last)
  { flows := s.map.flows, last := prune s, exports := s.exports, stats := s.stats }

end Lifecycle
end Obserwrt
