import Obserwrt.Agent.BatchWalk
import Obserwrt.Agent.DropReasons
import Obserwrt.Agent.OnLink
import Obserwrt.Agent.Views
import Obserwrt.Bpf.Drops
import Obserwrt.Ipfix.RoundTrip
import Obserwrt.Metrics.Textfile
import Obserwrt.Syslog.Exporter

/-!
# The daemon

`main` as one machine over the kernel maps: the start up to the event loop, and
the branches of the loop.  Packets and drops are counted by the kernel between
any two operations of the daemon, so a lifecycle pass is not one step: it reads
the counters, walks the flow map, visits what the walk delivered, drains the
drop map and reads the device counters in as many operations as `main` makes on
the maps.  `Stage` says which comes next.  The rest of the loop (a link event,
the meter timer) runs only between two passes and is one step each.  What
`main` finds outside comes in with the steps.
-/

namespace Obserwrt

open Lib

/-! ## What `main` owns -/

/-- What is fixed before the event loop: from the configuration `devices`,
`timeouts`, `ipfix.enabled` and what `syslog.init` returned; the names of the
drop reasons, the functions of the C library, and the buckets of the kernel's
two hash maps. -/
structure Setup where
  devices : Agent.DeviceConfig
  lifecycle : Lifecycle.Config
  ipfixEnabled : Bool
  syslogActive : Bool
  reasons : Agent.DropReasons
  inet : Syslog.InetText
  build : Metrics.BuildInfo
  flowLayout : Layout FlowKey
  dropLayout : Layout Bpf.DropKey

/-- Where the records go.  `socket` is the IPFIX exporter's `udp_`; `sent` and
`lines` are what the two exporters gave away so far, with the answers of
`sendto`. -/
structure Sinks (w : Nat) where
  ipfix : Ipfix.Exporter
  socket : Udp.UdpClient w
  sent : List (Bytes × Option Nat)
  syslog : Syslog.SyslogExporter w
  lines : List (Syslog.Line × Option Nat)
  metrics : Metrics

/-- The next operation of a lifecycle pass: a slot of `bpf_stats`; a batch call
of the walk that `map.reset()` makes; an iteration of the loop in
`Lifecycle::run`, or the `delete_key` at its end; a batch call of `take_drops`;
a record of what the drain returned, and behind the last one `flush` and the
setters; a key of `read_dev_counters`. -/
inductive Stage
  | counting (left : List Bpf.Stat)
  | walking (walk : Agent.Walk FlowKey FlowVal)
  | visiting
  | deleting (key : FlowKey)
  | draining (walk : Agent.Walk Bpf.DropKey FlowVal)
  | dropping (left : List (Bpf.DropKey × FlowVal))
  | measuring (raw : List Metrics.DevCounters)

/-- The locals of a pass: `now_s` and `stat` of `main`, `keys_`, `values_` and
`pos_` of the `BpfFlowMap`, and `now`, `seen` and `n` of `Lifecycle::run`. -/
structure Job where
  nowS : UInt32
  stage : Stage
  stat : Bpf.Stat → UInt64 := fun _ => 0
  now : UInt64 := 0
  keys : List FlowKey := []
  values : List FlowVal := []
  pos : Nat := 0
  seen : List FlowKey := []
  stats : Lifecycle.Stats := {}

/-- The daemon and the kernel's maps, where an `unsigned long` has `w` bits and
the machine `ncpu` possible CPUs.  `job` is the pass under way; `textfile` is
what a reader finds there. -/
structure Daemon (w ncpu : Nat) where
  agent : Agent.AgentState ncpu
  drops : Bpf.DropTable
  last : Lifecycle.Tracker
  sinks : Sinks w
  textfile : Option Bytes
  job : Option Job

variable {w ncpu : Nat}

/-! ## One record -/

/-- A flow record, as the callback of `lifecycle.run` gets it. -/
def flowReport (e : Lifecycle.Export) : Syslog.Report where
  key := e.key
  val := e.val
  expired := e.expired
  delta := some e.delta
  drop := none

/-- A drop record. -/
def dropReport (reasons : Agent.DropReasons) (r : Bpf.DropKey × FlowVal) : Syslog.Report :=
  let reason := reasons.resolve r.1.reason
  { key := r.1.flow, val := r.2, expired := false, delta := none
    drop := some ⟨reason.forwardingStatus, reason.name⟩ }

/-- The same record as the IPFIX exporter gets it. -/
def ipfixReport (r : Syslog.Report) : Ipfix.Report where
  key := r.key
  val := r.val
  expired := r.expired
  delta := r.delta
  forwardingStatus := (r.drop.map Syslog.DropInfo.forwardingStatus).getD 0

/-- The function that `main` gives to `set_ifnames`. -/
def ifnameOf (names : Store UInt32 Bytes) (ifindex : UInt32) : Bytes :=
  (names.lookup ifindex).getD (decimalBytes ifindex.toNat)

/-- One record: the metrics count it, and the enabled exporters get it.  `now`
and `reply` are the clock and the answer of `sendto` in `syslog.emit`. -/
def Sinks.hand (st : Setup) (names : Store UInt32 Bytes) (r : Syslog.Report) (now : Int)
    (reply : Option Nat) (s : Sinks w) : Option (Sinks w) :=
  let s := { s with metrics := s.metrics.observe }
  let s := if st.ipfixEnabled then { s with ipfix := s.ipfix.emit (ipfixReport r) } else s
  if st.syslogActive then
    (s.syslog.emit st.inet ⟨r, some (ifnameOf names), now, reply⟩).map fun (syslog, lines) =>
      { s with syslog := syslog, lines := s.lines ++ lines.map fun l => (l, reply) }
  else some s

/-! ## One operation of a pass -/

/-- What an operation finds outside: the clock of `Lifecycle::run`, whether the
batch call fails, the clock and the answer of `sendto` in `syslog.emit`, the
answers of `sendto` in `ipfix.flush`, and what `get_next_key` finds. -/
structure Answer where
  now : UInt64 := 0
  fault : Bool := false
  clock : Int := 0
  lineReply : Option Nat := none
  dataReply : Nat → Option Nat := fun _ => none
  device : Option DevKey := none

/-- The calls of `syslog.emit` for some records. -/
def Answer.requests (names : Store UInt32 Bytes) (ans : Answer) (records : List Syslog.Report) :
    List Syslog.Request :=
  records.map fun r => ⟨r, some (ifnameOf names), ans.clock, ans.lineReply⟩

/-- Some records, one after the other. -/
def Sinks.handAll (st : Setup) (names : Store UInt32 Bytes) (ans : Answer)
    (records : List Syslog.Report) (s : Sinks w) : Option (Sinks w) :=
  records.foldlM (fun s r => s.hand st names r ans.clock ans.lineReply) s

/-- Datagrams of the IPFIX exporter leave on its socket. -/
def Sinks.transmit (reply : Nat → Option Nat) (datagrams : List Bytes) (s : Sinks w) : Sinks w :=
  datagrams.zipIdx.foldl
    (fun s d => { s with
      socket := (s.socket.send d.1 (reply d.2)).2
      sent := s.sent ++ [(d.1, reply d.2)] }) s

/-- `ipfix.flush`, where IPFIX is enabled. -/
def Sinks.flush (st : Setup) (nowS : UInt32) (reply : Nat → Option Nat) (s : Sinks w) : Sinks w :=
  if st.ipfixEnabled then
    let ipfix := s.ipfix.flush nowS
    ({ s with ipfix := ipfix }).transmit reply (ipfix.udp.sent.drop s.ipfix.udp.sent.length)
  else s

/-- `metrics.record_errors` with the failures of both sockets. -/
def Sinks.recordErrors (s : Sinks w) : Sinks w :=
  let (n, socket) := s.socket.takeFailures
  let (m, syslog) := s.syslog.takeFailures
  { s with socket := socket, syslog := syslog, metrics := s.metrics.recordErrors (n + m) }

/-- `set_state`, `set_bpf` and `set_drops`. -/
def Sinks.setTotals (job : Job) (names : List Bytes) (s : Sinks w) : Sinks w :=
  let m := s.metrics
  let m := m.setState (UInt32.ofNat job.stats.active) (UInt32.ofNat job.stats.map) names
  let m := m.setBpf (job.stat .packets) (job.stat .bytes) (job.stat .parsed)
    (job.stat .flowsCreated)
  { s with metrics := m.setDrops (job.stat .drops) (job.stat .dropsUnparsed) }

/-- The counters of the devices that have a name. -/
def namedCounters (names : Store UInt32 Bytes) (raw : List Metrics.DevCounters) :
    List Metrics.DeviceCounters :=
  raw.filterMap fun c => (names.lookup c.ifindex).map fun name => ⟨name, c⟩

/-- `obserwrt_flows`. -/
def Daemon.flows (d : Daemon w ncpu) : FlowTable := d.agent.bpf.maps.flows

/-- The daemon with other flows in the map. -/
def Daemon.setFlows (d : Daemon w ncpu) (flows : FlowTable) : Daemon w ncpu :=
  { d with agent := { d.agent with
      bpf := { d.agent.bpf with maps := { d.agent.bpf.maps with flows := flows } } } }

/-- The state of `Lifecycle::run` in a pass over the flow map. -/
def Job.run (job : Job) (flows : FlowTable) (last : Lifecycle.Tracker) : Lifecycle.RunState where
  map := ⟨flows, job.keys, job.values, job.pos⟩
  last := last
  seen := job.seen
  exports := []
  stats := job.stats

/-- One iteration of the loop in `Lifecycle::run` up to its `delete_key`, with
what comes next; `none` where the loop ends. -/
def Job.iterate (cfg : Lifecycle.Config) (job : Job) (flows : FlowTable)
    (last : Lifecycle.Tracker) : Option (Lifecycle.RunState × Stage) :=
  let s := job.run flows last
  match s.map.nextKey with
  | none => none
  | some (key, map) =>
      let s := { s with map := map }
      match map.get key with
      -- evicted between the iteration and the read
      | none => some (s, .visiting)
      | some v =>
          some (Lifecycle.visit cfg job.now key v s,
            if Lifecycle.isExpired cfg job.now key v then .deleting key else .visiting)

/-- A slot of `bpf_stats`; behind the last one `lifecycle.run` is called, and
its walk of the map begins. -/
def Daemon.count (ans : Answer) (job : Job) (left : List Bpf.Stat) (d : Daemon w ncpu) :
    Daemon w ncpu :=
  match left with
  | i :: left =>
      let stat := Function.update job.stat i (Bpf.statTotal d.agent.bpf.maps i)
      { d with job := some { job with stat := stat, stage := .counting left } }
  | [] => { d with job := some { job with now := ans.now, stage := .walking {} } }

/-- A batch call of the walk.  `reset` takes what it delivered, whether or not
it succeeded. -/
def Daemon.walk (st : Setup) (ans : Answer) (job : Job) (walk : Agent.Walk FlowKey FlowVal)
    (d : Daemon w ncpu) : Daemon w ncpu :=
  match walk.turn st.flowLayout false ans.fault d.flows with
  | (walk, none) => { d with job := some { job with stage := .walking walk } }
  | (walk, some _) =>
      { d with job := some { job with
          keys := walk.entries.map Prod.fst
          values := walk.entries.map Prod.snd
          pos := 0
          stage := .visiting } }

/-- The end of the loop in `Lifecycle::run`: the tracker is pruned, and the
drops follow if there is a tracer. -/
def Daemon.prune (job : Job) (d : Daemon w ncpu) : Daemon w ncpu :=
  { d with
    last := Lifecycle.prune (job.run d.flows d.last)
    job := some { job with
      stage := if d.agent.bpf.attached.isSome then .draining {} else .dropping [] } }

/-- The records that the next operation hands out. -/
def Daemon.due (st : Setup) (job : Job) (d : Daemon w ncpu) : List Syslog.Report :=
  match job.stage with
  | .visiting => (job.iterate st.lifecycle d.flows d.last).elim [] fun p =>
      p.1.exports.map flowReport
  | .dropping (r :: _) => [dropReport st.reasons r]
  | _ => []

/-- An iteration of the loop, or its end. -/
def Daemon.visit (st : Setup) (ans : Answer) (job : Job) (d : Daemon w ncpu) :
    Option (Daemon w ncpu) :=
  match job.iterate st.lifecycle d.flows d.last with
  | none => some (d.prune job)
  | some (s, stage) =>
      (d.sinks.handAll st d.agent.nameByIndex ans (d.due st job)).map fun sinks =>
        { d with
          last := s.last
          sinks := sinks
          job := some { job with
            pos := s.map.pos, seen := s.seen, stats := s.stats, stage := stage } }

/-- A batch call of `take_drops`.  What it returned before a failure counts. -/
def Daemon.drain (st : Setup) (ans : Answer) (job : Job)
    (walk : Agent.Walk Bpf.DropKey FlowVal) (d : Daemon w ncpu) : Daemon w ncpu :=
  let drops := if ans.fault then d.drops else (walk.reply st.dropLayout true d.drops).after
  match walk.turn st.dropLayout true ans.fault d.drops with
  | (walk, none) => { d with drops := drops, job := some { job with stage := .draining walk } }
  | (walk, some _) =>
      { d with drops := drops, job := some { job with stage := .dropping walk.entries } }

/-- A drop record. -/
def Daemon.drop (st : Setup) (ans : Answer) (job : Job) (left : List (Bpf.DropKey × FlowVal))
    (d : Daemon w ncpu) : Option (Daemon w ncpu) :=
  (d.sinks.handAll st d.agent.nameByIndex ans (d.due st job)).map fun sinks =>
    { d with sinks := sinks, job := some { job with stage := .dropping left } }

/-- Behind the last record: the flush, the errors and the setters.  The device
counters follow if there is a textfile. -/
def Daemon.close (st : Setup) (ans : Answer) (job : Job) (d : Daemon w ncpu) : Daemon w ncpu :=
  let sinks := ((d.sinks.flush st job.nowS ans.dataReply).recordErrors).setTotals job
    d.agent.attachedNames
  { d with
    sinks := sinks
    job := if sinks.metrics.active then some { job with stage := .measuring [] } else none }

/-- A key of `read_dev_counters`, which a `detach` may have deleted since; and
behind the last one `set_devices`. -/
def Daemon.measure (ans : Answer) (job : Job) (raw : List Metrics.DevCounters)
    (d : Daemon w ncpu) : Daemon w ncpu :=
  match ans.device with
  | some k =>
      let raw := raw ++ ((d.agent.bpf.maps.devstats.lookup k).map fun slots =>
        { Bpf.devTotal slots with ifindex := k.ifindex, direction := k.direction }).toList
      { d with job := some { job with stage := .measuring raw } }
  | none =>
      let devices := namedCounters d.agent.nameByIndex raw
      { d with
        sinks := { d.sinks with metrics := d.sinks.metrics.setDevices devices }
        job := none }

/-- The next operation of the pass; `none` where the daemon aborts. -/
def Daemon.advance (st : Setup) (ans : Answer) (job : Job) (d : Daemon w ncpu) :
    Option (Daemon w ncpu) :=
  match job.stage with
  | .counting left => some (d.count ans job left)
  | .walking walk => some (d.walk st ans job walk)
  | .visiting => d.visit st ans job
  | .deleting key =>
      some { d.setFlows (d.flows.erase key) with job := some { job with stage := .visiting } }
  | .draining walk => some (d.drain st ans job walk)
  | .dropping (_ :: left) => d.drop st ans job left
  | .dropping [] => some (d.close st ans job)
  | .measuring raw => some (d.measure ans job raw)

/-! ## The event loop -/

/-- What happens next.  The kernel runs a program on a packet or on a drop, or
the LRU map of the drops loses entries (an insertion that fails loses its own);
the daemon reconciles a link event, begins a pass at the lifecycle timer, makes
the next operation of the pass, or writes the metrics at the other timer. -/
inductive Event (ncpu : Nat)
  | packet (env : Bpf.Env ncpu) (hook : Bpf.Hook) (skb : Bpf.SkBuff)
  | kfree (cpu : Fin ncpu) (now : UInt64) (skb : Bpf.TracedSkb) (reason : UInt32)
  | evict (keys : List Bpf.DropKey)
  | link (ev : Agent.LinkEvent) (env : Agent.AttachEnv)
  | timer (nowS : UInt32) (monoMs : UInt64)
  | advance (ans : Answer)
  | meter (ok : Bool)

/-- A program of the TC object runs. -/
def Daemon.packet (d : Daemon w ncpu) (env : Bpf.Env ncpu) (hook : Bpf.Hook)
    (skb : Bpf.SkBuff) : Daemon w ncpu :=
  let maps := Bpf.observe env hook skb d.agent.bpf.maps
  { d with agent := { d.agent with bpf := { d.agent.bpf with maps := maps } } }

/-- The tracepoint fires; without the tracer nothing runs. -/
def Daemon.kfree (d : Daemon w ncpu) (cpu : Fin ncpu) (now : UInt64) (skb : Bpf.TracedSkb)
    (reason : UInt32) : Daemon w ncpu :=
  match d.agent.bpf.attached with
  | none => d
  | some attached =>
      let m := Bpf.kfreeSkb cpu now skb reason ⟨d.agent.bpf.maps, attached, d.drops⟩
      { d with
        agent := { d.agent with
          bpf := { d.agent.bpf with maps := m.maps, attached := some m.attached } }
        drops := m.drops }

/-- The slots in the order of their indices. -/
def statSlots : List Bpf.Stat :=
  [.packets, .bytes, .flowsCreated, .parsed, .drops, .dropsUnparsed]

/-- The lifecycle timer: the anchor is set, and the pass begins. -/
def Daemon.begin (d : Daemon w ncpu) (nowS : UInt32) (monoMs : UInt64) : Daemon w ncpu :=
  { d with
    sinks := { d.sinks with
      ipfix := d.sinks.ipfix.setOffsetMs (nowS.toUInt64 * 1000 - monoMs) }
    job := some { nowS := nowS, stage := .counting statSlots } }

/-- `metrics.write`, which replaces the textfile or leaves it. -/
def Daemon.meter (st : Setup) (ok : Bool) (d : Daemon w ncpu) : Daemon w ncpu :=
  if d.sinks.metrics.active && ok then
    { d with textfile := some (d.sinks.metrics.state.write st.build) }
  else d

/-- One event; `none` where it is not its turn, or the daemon aborts. -/
def Daemon.step (st : Setup) (d : Daemon w ncpu) : Event ncpu → Option (Daemon w ncpu)
  | .packet env hook skb => some (d.packet env hook skb)
  | .kfree cpu now skb reason => some (d.kfree cpu now skb reason)
  | .evict keys => some { d with drops := Store.eraseAll d.drops keys }
  | .link ev env =>
      if d.job.isNone then
        some { d with agent := (Agent.onLink st.devices env ev d.agent).2 }
      else none
  | .timer nowS monoMs => if d.job.isNone then some (d.begin nowS monoMs) else none
  | .advance ans => d.job.bind fun job => d.advance st ans job
  | .meter ok => if d.job.isNone then some (d.meter st ok) else none

/-- One event of a run, for as long as the daemon lives. -/
def Daemon.next (st : Setup) (d : Daemon w ncpu) (e : Event ncpu) : Daemon w ncpu :=
  (d.step st e).getD d

/-- The event is in its turn, and the daemon survives it. -/
def Lives (st : Setup) (d : Daemon w ncpu) (e : Event ncpu) : Prop :=
  (d.step st e).isSome = true

instance (st : Setup) (d : Daemon w ncpu) (e : Event ncpu) : Decidable (Lives st d e) :=
  inferInstanceAs (Decidable (_ = true))

theorem Lives.step {st : Setup} {d : Daemon w ncpu} {e : Event ncpu} (h : Lives st d e) :
    d.step st e = some (d.next st e) := by
  rw [Daemon.next]
  exact (Option.some_get h).symm.trans (congrArg some (Option.get_eq_getD (d.step st e)))

/-- The records that an event hands out, with what `syslog.emit` finds. -/
def requestsOf (st : Setup) (d : Daemon w ncpu) : Event ncpu → List Syslog.Request
  | .advance ans =>
      d.job.elim [] fun job => ans.requests d.agent.nameByIndex (d.due st job)
  | _ => []

/-- The records handed out along a run, in order. -/
def requested (st : Setup) : Daemon w ncpu → List (Event ncpu) → List Syslog.Request :=
  outputs (Daemon.next st) (requestsOf st)

/-! ## What an operation of a pass does -/

/-- The operations one by one, each with the stage it belongs to and the state it
leaves. -/
inductive PassStep (st : Setup) (ans : Answer) (job : Job) (d : Daemon w ncpu) :
    Daemon w ncpu → Prop
  | count {i : Bpf.Stat} {left : List Bpf.Stat} (hstage : job.stage = .counting (i :: left)) :
      PassStep st ans job d { d with job := some { job with
        stat := Function.update job.stat i (Bpf.statTotal d.agent.bpf.maps i)
        stage := .counting left } }
  | reset (hstage : job.stage = .counting []) :
      PassStep st ans job d { d with job := some { job with
        now := ans.now, stage := .walking {} } }
  | walk {walk walk' : Agent.Walk FlowKey FlowVal} (hstage : job.stage = .walking walk)
      (hturn : walk.turn st.flowLayout false ans.fault d.flows = (walk', none)) :
      PassStep st ans job d { d with job := some { job with stage := .walking walk' } }
  | snapshot {walk walk' : Agent.Walk FlowKey FlowVal} {ok : Bool}
      (hstage : job.stage = .walking walk)
      (hturn : walk.turn st.flowLayout false ans.fault d.flows = (walk', some ok)) :
      PassStep st ans job d { d with job := some { job with
        keys := walk'.entries.map Prod.fst
        values := walk'.entries.map Prod.snd
        pos := 0
        stage := .visiting } }
  | visit {s : Lifecycle.RunState} {stage : Stage} {sinks : Sinks w}
      (hstage : job.stage = .visiting)
      (hiterate : job.iterate st.lifecycle d.flows d.last = some (s, stage))
      (hall : d.sinks.handAll st d.agent.nameByIndex ans (s.exports.map flowReport) =
        some sinks) :
      PassStep st ans job d { d with
        last := s.last
        sinks := sinks
        job := some { job with
          pos := s.map.pos, seen := s.seen, stats := s.stats, stage := stage } }
  | prune (hstage : job.stage = .visiting)
      (hiterate : job.iterate st.lifecycle d.flows d.last = none) :
      PassStep st ans job d (d.prune job)
  | delete {key : FlowKey} (hstage : job.stage = .deleting key) :
      PassStep st ans job d
        { d.setFlows (d.flows.erase key) with job := some { job with stage := .visiting } }
  | drain {walk walk' : Agent.Walk Bpf.DropKey FlowVal} (hstage : job.stage = .draining walk)
      (hturn : walk.turn st.dropLayout true ans.fault d.drops = (walk', none)) :
      PassStep st ans job d { d with
        drops := if ans.fault then d.drops else (walk.reply st.dropLayout true d.drops).after
        job := some { job with stage := .draining walk' } }
  | drained {walk walk' : Agent.Walk Bpf.DropKey FlowVal} {ok : Bool}
      (hstage : job.stage = .draining walk)
      (hturn : walk.turn st.dropLayout true ans.fault d.drops = (walk', some ok)) :
      PassStep st ans job d { d with
        drops := if ans.fault then d.drops else (walk.reply st.dropLayout true d.drops).after
        job := some { job with stage := .dropping walk'.entries } }
  | drop {r : Bpf.DropKey × FlowVal} {left : List (Bpf.DropKey × FlowVal)} {sinks : Sinks w}
      (hstage : job.stage = .dropping (r :: left))
      (hall : d.sinks.handAll st d.agent.nameByIndex ans [dropReport st.reasons r] =
        some sinks) :
      PassStep st ans job d { d with
        sinks := sinks, job := some { job with stage := .dropping left } }
  | close (hstage : job.stage = .dropping []) : PassStep st ans job d (d.close st ans job)
  | measure {raw : List Metrics.DevCounters} {k : DevKey} (hstage : job.stage = .measuring raw)
      (hdevice : ans.device = some k) :
      PassStep st ans job d { d with job := some { job with
        stage := .measuring (raw ++ ((d.agent.bpf.maps.devstats.lookup k).map fun slots =>
          { Bpf.devTotal slots with ifindex := k.ifindex, direction := k.direction }).toList) } }
  | devices {raw : List Metrics.DevCounters} (hstage : job.stage = .measuring raw)
      (hdevice : ans.device = none) :
      PassStep st ans job d { d with
        sinks := { d.sinks with
          metrics := d.sinks.metrics.setDevices (namedCounters d.agent.nameByIndex raw) }
        job := none }

/-- **What the next operation of a pass does.** -/
theorem passStep {st : Setup} {ans : Answer} {job : Job} {d d' : Daemon w ncpu}
    (hstep : d.advance st ans job = some d') : PassStep st ans job d d' := by
  unfold Daemon.advance at hstep
  split at hstep
  · rename_i left hstage
    obtain rfl := Option.some.inj hstep
    cases left with
    | nil => exact PassStep.reset hstage
    | cons i left => exact PassStep.count hstage
  · rename_i walk hstage
    obtain rfl := Option.some.inj hstep
    unfold Daemon.walk
    split
    · rename_i hturn
      exact PassStep.walk hstage hturn
    · rename_i hturn
      exact PassStep.snapshot hstage hturn
  · rename_i hstage
    unfold Daemon.visit at hstep
    split at hstep
    · rename_i hiterate
      obtain rfl := Option.some.inj hstep
      exact PassStep.prune hstage hiterate
    · rename_i hiterate
      obtain ⟨sinks, hall, rfl⟩ := Option.map_eq_some_iff.mp hstep
      simp only [Daemon.due, hstage, hiterate, Option.elim_some] at hall
      exact PassStep.visit hstage hiterate hall
  · rename_i hstage
    obtain rfl := Option.some.inj hstep
    exact PassStep.delete hstage
  · rename_i walk hstage
    obtain rfl := Option.some.inj hstep
    unfold Daemon.drain
    simp only
    split
    · rename_i hturn
      exact PassStep.drain hstage hturn
    · rename_i hturn
      exact PassStep.drained hstage hturn
  · rename_i hstage
    obtain ⟨sinks, hall, rfl⟩ := Option.map_eq_some_iff.mp hstep
    simp only [Daemon.due, hstage] at hall
    exact PassStep.drop hstage hall
  · rename_i hstage
    obtain rfl := Option.some.inj hstep
    exact PassStep.close hstage
  · rename_i hstage
    obtain rfl := Option.some.inj hstep
    unfold Daemon.measure
    split
    · rename_i hdevice
      exact PassStep.measure hstage hdevice
    · rename_i hdevice
      exact PassStep.devices hstage hdevice

/-! ## What an event does -/

/-- The events one by one, each with the state it leaves.  What the daemon does
of its own accord waits for the end of the pass under way. -/
inductive EventStep (st : Setup) (d : Daemon w ncpu) : Event ncpu → Daemon w ncpu → Prop
  | packet (env : Bpf.Env ncpu) (hook : Bpf.Hook) (skb : Bpf.SkBuff) :
      EventStep st d (.packet env hook skb) (d.packet env hook skb)
  | kfree (cpu : Fin ncpu) (now : UInt64) (skb : Bpf.TracedSkb) (reason : UInt32) :
      EventStep st d (.kfree cpu now skb reason) (d.kfree cpu now skb reason)
  | evict (keys : List Bpf.DropKey) :
      EventStep st d (.evict keys) { d with drops := Store.eraseAll d.drops keys }
  | link (ev : Agent.LinkEvent) (env : Agent.AttachEnv) (hidle : d.job = none) :
      EventStep st d (.link ev env)
        { d with agent := (Agent.onLink st.devices env ev d.agent).2 }
  | timer (nowS : UInt32) (monoMs : UInt64) (hidle : d.job = none) :
      EventStep st d (.timer nowS monoMs) (d.begin nowS monoMs)
  | advance {ans : Answer} {job : Job} {d' : Daemon w ncpu} (hjob : d.job = some job)
      (hpass : PassStep st ans job d d') : EventStep st d (.advance ans) d'
  | meter (ok : Bool) (hidle : d.job = none) : EventStep st d (.meter ok) (d.meter st ok)

/-- **What one event does.** -/
theorem eventStep {st : Setup} {d d' : Daemon w ncpu} {e : Event ncpu}
    (hstep : d.step st e = some d') : EventStep st d e d' := by
  cases e with
  | packet env hook skb =>
      obtain rfl := Option.some.inj hstep
      exact EventStep.packet env hook skb
  | kfree cpu now skb reason =>
      obtain rfl := Option.some.inj hstep
      exact EventStep.kfree cpu now skb reason
  | evict keys =>
      obtain rfl := Option.some.inj hstep
      exact EventStep.evict keys
  | link ev env =>
      simp only [Daemon.step, Option.isNone_iff_eq_none, Option.ite_none_right_eq_some] at hstep
      obtain rfl := Option.some.inj hstep.2
      exact EventStep.link ev env hstep.1
  | timer nowS monoMs =>
      simp only [Daemon.step, Option.isNone_iff_eq_none, Option.ite_none_right_eq_some] at hstep
      obtain rfl := Option.some.inj hstep.2
      exact EventStep.timer nowS monoMs hstep.1
  | advance ans =>
      obtain ⟨job, hjob, hadvance⟩ := Option.bind_eq_some_iff.mp hstep
      exact EventStep.advance hjob (passStep hadvance)
  | meter ok =>
      simp only [Daemon.step, Option.isNone_iff_eq_none, Option.ite_none_right_eq_some] at hstep
      obtain rfl := Option.some.inj hstep.2
      exact EventStep.meter ok hstep.1

theorem Lives.eventStep {st : Setup} {d : Daemon w ncpu} {e : Event ncpu} (h : Lives st d e) :
    EventStep st d e (d.next st e) :=
  Obserwrt.eventStep h.step

/-! ## The start -/

/-- What `main` finds outside before its loop: the clocks, the resolver, the
kernel's host name file, the answer for the template datagram, the size of the
two maps, whether the drop tracer came up and which reasons BTF lists; and the
functions of the C library and the buckets of the kernel's hash maps. -/
structure BootEnv where
  startS : UInt32
  monoMs : UInt64
  ipfixResolved : Option (List Udp.Candidate)
  syslogResolved : Option (List Udp.Candidate)
  hostname : Option Bytes
  templateReply : Option Nat
  mapLimit : UInt32
  devCapacity : Nat
  tracerOk : Bool
  reasons : List (UInt32 × Bytes)
  fnmatch : Bytes → Bytes → Bool
  ageOver : UInt64 → UInt64 → Bool
  inet : Syslog.InetText
  build : Metrics.BuildInfo
  flowLayout : Layout FlowKey
  dropLayout : Layout Bpf.DropKey

/-- The IPFIX exporter in front of the loop, with its socket; `none` where
`main` gives up because the collector cannot be reached. -/
def bootIpfix (cfg : Config.Ipfix) (env : BootEnv) :
    Option (Ipfix.Exporter × Udp.UdpClient w) :=
  let ipfix := (Ipfix.Exporter.new cfg.enabled cfg.obsDomain).setEpoch env.startS
    (env.startS.toUInt64 * 1000 - env.monoMs)
  if cfg.enabled then
    match Udp.connect cfg.collectorHost cfg.sourceAddress env.ipfixResolved {} with
    | (.error _, _) => none
    | (.ok (), e) => some (ipfix.sendTemplates env.startS, e.client)
  else some (ipfix, {})

/-- `main` up to the dump of the links, with the TC object loaded. -/
def boot (w ncpu : Nat) (cfg : Config) (env : BootEnv) : Option (Setup × Daemon w ncpu) :=
  let metrics := ((Metrics.init cfg.prometheusTextfile cfg.prometheusInterval).setMapLimit 0)
  let ((syslogActive, _), syslog) :=
    Syslog.SyslogExporter.init cfg.syslog env.hostname env.syslogResolved
  (bootIpfix cfg.ipfix env).map fun (ipfix, socket) =>
    let tracer := cfg.trackDrops && env.tracerOk
    let st : Setup := {
      devices := ⟨cfg.devices, env.fnmatch⟩
      lifecycle := ⟨cfg.timeouts, env.ageOver⟩
      ipfixEnabled := cfg.ipfix.enabled
      syslogActive := syslogActive
      reasons := if tracer then Agent.DropReasons.load ∅ env.reasons else ∅
      inet := env.inet
      build := env.build
      flowLayout := env.flowLayout
      dropLayout := env.dropLayout }
    let sinks : Sinks w := {
      ipfix := ipfix, socket := socket, sent := [], syslog := syslog, lines := []
      metrics := metrics.setMapLimit env.mapLimit }
    (st, {
      agent := Agent.AgentState.start (Bpf.Maps.empty ncpu env.devCapacity) tracer
      drops := ∅
      last := ∅
      sinks := sinks.transmit (fun _ => env.templateReply) ipfix.udp.sent
      textfile := none
      job := none })

end Obserwrt
