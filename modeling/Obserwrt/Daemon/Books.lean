import Obserwrt.Agent.LinkMessage
import Obserwrt.Daemon.Reports

/-!
# The books of the daemon

The numbers that end up in the textfile are kept at different places: the
kernel's programs count per CPU, the sockets count what the kernel refused
until a pass takes the count over, and the metrics count records.  `Books`
holds them against the run that led here, in every state of it.  What the daemon
knows of the devices (the attached ones and their names) is kept beside them.
-/

namespace Obserwrt

open Lib

/-! ## What the kernel counts -/

namespace Bpf

variable {ncpu : Nat}

/-- The packet creates an entry of the flow map. -/
def creates (env : Env ncpu) (hook : Hook) (skb : SkBuff) (m : Maps ncpu) : Bool :=
  env.updateOk &&
    (Seen.flow? ⟨env.cpu, env.now, hook, skb⟩).any fun flow => (m.flows.lookup flow.1).isNone

/-- What a packet adds to an aggregate counter. -/
def packetAdds (env : Env ncpu) (hook : Hook) (skb : SkBuff) (m : Maps ncpu) : Stat → Nat
  | .packets => (segsOf skb).toNat
  | .bytes => skb.len.toNat
  | .parsed => if (parse hook.eth skb.data).isSome then (segsOf skb).toNat else 0
  | .flowsCreated => if creates env hook skb m then 1 else 0
  | .drops => 0
  | .dropsUnparsed => 0

/-- What a drop on an attached device adds. -/
def dropAdds (skb : TracedSkb) : Stat → Nat
  | .drops => 1
  | .dropsUnparsed => if (dropTuple skb).isNone then 1 else 0
  | _ => 0

theorem accountFlow_adds (env : Env ncpu) (hook : Hook) (skb : SkBuff) (q : Parsed)
    (m : Maps ncpu) (idx : Stat) :
    statTotal (accountFlow env hook skb q m) idx = statTotal m idx +
      if idx = .flowsCreated ∧
        (m.flows.lookup (flowKey skb hook.direction q)).isNone ∧ env.updateOk = true then 1
      else 0 := by
  unfold accountFlow
  cases hlookup : m.flows.lookup (flowKey skb hook.direction q) with
  | some v =>
      simp only [hlookup, Option.isNone_some, Bool.false_eq_true, false_and, and_false, if_false,
        add_zero]
      exact statTotal_congr rfl idx
  | none =>
      by_cases hok : env.updateOk = true
      · simp only [hlookup, hok, if_true, statTotal_statAdd, Option.isNone_none, and_true]
        rfl
      · simp only [hlookup, hok, if_false, Bool.false_eq_true, and_false, add_zero]

/-- **What one packet adds**, whatever the flow map answers. -/
theorem observe_adds (env : Env ncpu) (hook : Hook) (skb : SkBuff) (m : Maps ncpu) (idx : Stat) :
    statTotal (observe env hook skb m) idx =
      statTotal m idx + UInt64.ofNat (packetAdds env hook skb m idx) := by
  have hseen := countSeen_flows m env hook skb
  unfold observe
  cases hparse : parse hook.eth skb.data with
  | none =>
      simp only [countSeen_statTotal]
      cases idx <;> simp [packetAdds, hparse, creates, Seen.flow?]
  | some q =>
      have hflows : (statAdd env.cpu .parsed (segsOf skb).toUInt64
          (countSeen env hook skb m)).flows = m.flows := hseen
      simp only [accountFlow_adds, statTotal_statAdd, countSeen_statTotal, hflows]
      cases idx with
      | flowsCreated =>
          have hcreates : creates env hook skb m = true ↔
              (m.flows.lookup (flowKey skb hook.direction q)).isNone ∧ env.updateOk = true := by
            simp [creates, Seen.flow?, hparse, and_comm]
          simp only [packetAdds, hcreates, true_and, reduceCtorEq, if_false, add_zero]
          split <;> rfl
      | packets => simp [packetAdds]
      | bytes => simp [packetAdds]
      | parsed => simp [packetAdds, hparse]
      | drops => simp [packetAdds]
      | dropsUnparsed => simp [packetAdds]

end Bpf

/-! ## Words that count -/

/-- `n` counts `m` things in words of `w` bits, which may have lost whole turns. -/
def Wraps (w n m : Nat) : Prop := n ≤ m ∧ n ≡ m [MOD 2 ^ w]

namespace Wraps

variable {w a b c d : Nat}

theorem refl (n : Nat) : Wraps w n n := ⟨le_rfl, rfl⟩

theorem trans (h : Wraps w a b) (h' : Wraps w b c) : Wraps w a c :=
  ⟨h.1.trans h'.1, h.2.trans h'.2⟩

theorem add (h : Wraps w a b) (h' : Wraps w c d) : Wraps w (a + c) (b + d) :=
  ⟨Nat.add_le_add h.1 h'.1, h.2.add h'.2⟩

theorem toNat_add (x y : BitVec w) : Wraps w (x + y).toNat (x.toNat + y.toNat) := by
  rw [BitVec.toNat_add]
  exact ⟨Nat.mod_le _ _, Nat.mod_modEq _ _⟩

theorem toNat_ofNat (n : Nat) : Wraps w (BitVec.ofNat w n).toNat n := by
  rw [BitVec.toNat_ofNat]
  exact ⟨Nat.mod_le _ _, Nat.mod_modEq _ _⟩

/-- One more thing is counted, or none. -/
theorem count (x : BitVec w) (n : Nat) : Wraps w (x + BitVec.ofNat w n).toNat (x.toNat + n) :=
  (toNat_add x _).trans ((refl _).add (toNat_ofNat n))

end Wraps

/-! ## The sinks -/

variable {w ncpu : Nat}

/-- The failures that the two sockets hold. -/
def Sinks.failures (s : Sinks w) : Nat :=
  s.socket.failures.toNat + s.syslog.remote.client.failures.toNat

/-- The datagrams that the kernel did not take as a whole. -/
def Sinks.refused (s : Sinks w) : Nat :=
  s.sent.countP (fun d => !taken d) + s.lines.countP fun l => Syslog.lost l.1 l.2

/-- The books of the sinks after `handed` records. -/
structure SinkBooks (st : Setup) (limit : UInt32) (handed : Nat) (s : Sinks w) : Prop where
  connected : st.ipfixEnabled = true → s.socket.connected = true
  ready : st.syslogActive = true → s.syslog.Ready
  active : s.metrics.active = true
  limit : s.metrics.state.mapLimit = limit
  flows : s.metrics.state.totalFlows = UInt64.ofNat handed
  errors : ∃ taken, s.metrics.state.totalErrors = UInt64.ofNat taken ∧
    Wraps w (taken + s.failures) s.refused

namespace SinkBooks

variable {st : Setup} {limit : UInt32} {handed : Nat} {s s' : Sinks w}

theorem hand (h : SinkBooks st limit handed s) {names : Store UInt32 Bytes} {r : Syslog.Report}
    {now : Int} {reply : Option Nat} (hhand : s.hand st names r now reply = some s') :
    SinkBooks st limit (handed + 1) s' := by
  obtain ⟨hmetrics, -, hsocket, hsent, hsyslog⟩ := hand_parts hhand
  have hobserve : s'.metrics = { s.metrics with state := { s.metrics.state with
      totalFlows := s.metrics.state.totalFlows + 1 } } := by
    rw [hmetrics, Metrics.observe, Metrics.gated, if_pos h.active]
  -- a line that is lost is one more failure
  obtain ⟨hready, n, hlost, hfailures⟩ : (st.syslogActive = true → s'.syslog.Ready) ∧
      ∃ n, (s'.lines.countP fun l => Syslog.lost l.1 l.2) =
          (s.lines.countP fun l => Syslog.lost l.1 l.2) + n ∧
        s'.syslog.remote.client.failures =
          s.syslog.remote.client.failures + BitVec.ofNat w n := by
    by_cases hactive : st.syslogActive = true
    · rw [if_pos hactive] at hsyslog
      obtain ⟨lines, hemit, hlines⟩ := hsyslog
      rw [Syslog.emit_eq st.inet (h.ready hactive), Option.map_eq_some_iff] at hemit
      obtain ⟨payload, -, hpair⟩ := hemit
      obtain ⟨hx, rfl⟩ := Prod.mk.inj hpair
      refine ⟨fun _ => hx ▸ Syslog.Ready.addFailures (h.ready hactive) _, _, ?_, by rw [← hx]; rfl⟩
      rw [hlines, List.countP_append]
      simp only [List.map_cons, List.map_nil, List.countP_cons, List.countP_nil]
      cases Syslog.lost (s.syslog.line payload _) reply with
      | false => rfl
      | true => rfl
    · rw [if_neg hactive] at hsyslog
      rw [hsyslog.1, hsyslog.2]
      exact ⟨fun henabled => absurd henabled hactive, 0, rfl, by simp⟩
  refine ⟨?_, hready, ?_, ?_, ?_, ?_⟩
  · rw [hsocket]
    exact h.connected
  · rw [hobserve]
    exact h.active
  · rw [hobserve]
    exact h.limit
  · rw [hobserve, UInt64.ofNat_add, ← h.flows]
    rfl
  · obtain ⟨taken, htaken, hwraps⟩ := h.errors
    refine ⟨taken, ?_, ?_⟩
    · rw [hobserve]
      exact htaken
    · have hcount := Wraps.count s.syslog.remote.client.failures n
      have hmore := (Wraps.refl (taken + s.socket.failures.toNat)).add hcount
      rw [Sinks.failures, Sinks.refused, hsocket, hsent, hfailures, hlost, ← Nat.add_assoc,
        ← Nat.add_assoc]
      refine hmore.trans ?_
      rw [← Nat.add_assoc, Nat.add_assoc taken]
      exact hwraps.add (Wraps.refl n)

theorem handAll (h : SinkBooks st limit handed s) {names : Store UInt32 Bytes} {ans : Answer}
    {records : List Syslog.Report} (hall : s.handAll st names ans records = some s') :
    SinkBooks st limit (handed + records.length) s' := by
  induction records generalizing s handed with
  | nil =>
      obtain rfl : s = s' := by simpa [Sinks.handAll] using hall
      exact h
  | cons r records ih =>
      rw [Sinks.handAll, List.foldlM_cons, Option.bind_eq_bind, Option.bind_eq_some_iff] at hall
      obtain ⟨s₁, hfirst, hrest⟩ := hall
      have hend := ih (h.hand hfirst) hrest
      rwa [Nat.add_assoc, Nat.add_comm 1] at hend

/-- A datagram that the kernel refuses is a failure of the socket. -/
theorem transmit (h : SinkBooks st limit handed s) (hconnected : s.socket.connected = true)
    (reply : Nat → Option Nat) (datagrams : List Bytes) :
    SinkBooks st limit handed (s.transmit reply datagrams) := by
  unfold Sinks.transmit
  generalize datagrams.zipIdx = pairs
  induction pairs generalizing s with
  | nil => exact h
  | cons p pairs ih =>
      obtain ⟨fd, hfd⟩ := Option.isSome_iff_exists.mp hconnected
      have hsocket : s.socket.fd ≠ none := by
        rw [hfd]
        exact Option.some_ne_none fd
      have hsend : (s.socket.send p.1 (reply p.2)).2 = { s.socket with
          failures := s.socket.failures + BitVec.ofNat w (!taken (p.1, reply p.2)).toNat } := by
        rw [Udp.UdpClient.send, if_neg hsocket]
        by_cases hreply : reply p.2 = some p.1.length
        · simp [taken, hreply]
        · simp [taken, hreply]
      rw [List.foldl_cons, hsend]
      refine ih ⟨fun _ => hconnected, h.ready, h.active, h.limit, h.flows, ?_⟩ hconnected
      obtain ⟨taken', htaken, hwraps⟩ := h.errors
      refine ⟨taken', htaken, ?_⟩
      generalize hn : (!taken (p.1, reply p.2)).toNat = n
      have hcount := Wraps.count s.socket.failures n
      have hone : (s.sent ++ [(p.1, reply p.2)]).countP (fun d => !taken d) =
          s.sent.countP (fun d => !taken d) + n := by
        rw [List.countP_append, List.countP_singleton, ← hn]
        cases taken (p.1, reply p.2) with
        | false => rfl
        | true => rfl
      have hmore := ((Wraps.refl taken').add hcount).add
        (Wraps.refl s.syslog.remote.client.failures.toNat)
      rw [Sinks.failures, Sinks.refused] at hwraps ⊢
      have hsame : taken' + (s.socket.failures.toNat + n) +
          s.syslog.remote.client.failures.toNat =
            taken' + (s.socket.failures.toNat + s.syslog.remote.client.failures.toNat) + n := by
        omega
      rw [hsame] at hmore
      simp only [hone]
      rw [← Nat.add_assoc, Nat.add_right_comm (s.sent.countP _) n]
      exact hmore.trans (hwraps.add (Wraps.refl n))

theorem setIpfix (h : SinkBooks st limit handed s) (ipfix : Ipfix.Exporter) :
    SinkBooks st limit handed { s with ipfix := ipfix } :=
  ⟨h.connected, h.ready, h.active, h.limit, h.flows, h.errors⟩

theorem flush (h : SinkBooks st limit handed s) (nowS : UInt32) (reply : Nat → Option Nat) :
    SinkBooks st limit handed (s.flush st nowS reply) := by
  unfold Sinks.flush
  by_cases henabled : st.ipfixEnabled = true
  · rw [if_pos henabled]
    generalize s.ipfix.flush nowS = ipfix
    exact (h.setIpfix ipfix).transmit (h.connected henabled) _ _
  · rw [if_neg henabled]
    exact h

/-- A pass takes over the failures of both sockets. -/
theorem recordErrors (h : SinkBooks st limit handed s) :
    SinkBooks st limit handed s.recordErrors := by
  obtain ⟨taken, htaken, hwraps⟩ := h.errors
  have hmetrics : s.recordErrors.metrics = { s.metrics with state := { s.metrics.state with
      totalErrors := UInt64.ofNat
        (taken + (s.socket.failures + s.syslog.remote.client.failures).toNat) } } := by
    rw [UInt64.ofNat_add, ← htaken]
    show s.metrics.recordErrors _ = _
    rw [Metrics.recordErrors, Metrics.gated, if_pos h.active]
  refine ⟨h.connected, ?_, ?_, ?_, ?_, _, congrArg (fun m => m.state.totalErrors) hmetrics, ?_⟩
  · exact fun hactive => ⟨(h.ready hactive).enabled, (h.ready hactive).connected⟩
  · rw [hmetrics]
    exact h.active
  · rw [hmetrics]
    exact h.limit
  · rw [hmetrics]
    exact h.flows
  · exact ((Wraps.refl taken).add (Wraps.toNat_add _ _)).trans hwraps

/-- Where the metrics are active, the setters of a pass set these members. -/
theorem setTotals_state {job : Job} {names : List Bytes} (hactive : s.metrics.active = true) :
    s.setTotals job names = { s with metrics := { s.metrics with state := { s.metrics.state with
      flowsActive := UInt32.ofNat job.stats.active
      mapEntries := UInt32.ofNat job.stats.map
      devices := names
      bpfPackets := job.stat .packets
      bpfBytes := job.stat .bytes
      bpfAccounted := job.stat .parsed
      bpfFlowsCreated := job.stat .flowsCreated
      bpfDrops := job.stat .drops
      bpfDropsUnparsed := job.stat .dropsUnparsed } } } := by
  simp only [Sinks.setTotals, Metrics.setState, Metrics.setBpf, Metrics.setDrops, Metrics.gated,
    hactive, if_true]

/-- **Every step of the sinks** keeps the books, with the records of the step. -/
theorem step (h : SinkBooks st limit handed s) {requests : List Syslog.Request}
    (hstep : SinkStep st s requests s') :
    SinkBooks st limit (handed + requests.length) s' := by
  cases hstep with
  | same => exact h
  | anchor offsetMs => exact h.setIpfix _
  | hand hall =>
      rw [Answer.requests, List.length_map]
      exact h.handAll hall
  | close job names reply =>
      have hend := (h.flush job.nowS reply).recordErrors
      rw [setTotals_state hend.active]
      exact ⟨hend.connected, hend.ready, hend.active, hend.limit, hend.flows, hend.errors⟩
  | devices counters =>
      rw [Metrics.setDevices, Metrics.gated, if_pos h.active]
      exact ⟨h.connected, h.ready, h.active, h.limit, h.flows, h.errors⟩

end SinkBooks

/-! ## The daemon -/

/-- What an event adds to an aggregate counter of the kernel. -/
def Daemon.adds (d : Daemon w ncpu) (idx : Bpf.Stat) : Event ncpu → Nat
  | .packet env hook skb => Bpf.packetAdds env hook skb d.agent.bpf.maps idx
  | .kfree _ _ skb _ =>
      match d.agent.bpf.attached, skb.dev with
      | some attached, some ifindex =>
          if (attached.lookup ifindex).isNone then 0 else Bpf.dropAdds skb idx
      | _, _ => 0
  | _ => 0

/-- What a run adds to an aggregate counter. -/
def counted (st : Setup) (idx : Bpf.Stat) (d₀ : Daemon w ncpu) (events : List (Event ncpu)) : Nat :=
  (outputs (Daemon.next st) (fun d e => [d.adds idx e]) d₀ events).sum

/-- What the daemon knows of the devices. -/
structure Known (s : Agent.AgentState ncpu) : Prop extends Agent.Agree s where
  listed : s.attachedNames.Perm ((Store.pairs s.nameByIndex).map Prod.snd)

/-- The same links and names. -/
structure SameDevices (s s' : Agent.AgentState ncpu) : Prop where
  atts : s'.bpf.atts = s.bpf.atts
  nameByIndex : s'.nameByIndex = s.nameByIndex
  attachedNames : s'.attachedNames = s.attachedNames

theorem Known.same {s s' : Agent.AgentState ncpu} (h : Known s) (hsame : SameDevices s s') :
    Known s' where
  paired := by
    intro i l hlookup
    rw [hsame.atts] at hlookup
    exact h.paired i l hlookup
  named := by
    intro i
    rw [hsame.nameByIndex, h.named, Agent.BpfState.isAttached, Agent.BpfState.isAttached,
      hsame.atts]
  listed := by
    rw [hsame.attachedNames, hsame.nameByIndex]
    exact h.listed

/-- The books after a run. -/
structure Books (st : Setup) (limit : UInt32) (d₀ : Daemon w ncpu) (events : List (Event ncpu))
    (d : Daemon w ncpu) : Prop where
  state : d = events.foldl (Daemon.next st) d₀
  sinks : SinkBooks st limit (requested st d₀ events).length d.sinks
  stats : ∀ idx, Bpf.statTotal d.agent.bpf.maps idx = UInt64.ofNat (counted st idx d₀ events)
  known : Known d.agent

section Events

variable {st : Setup} {d d' : Daemon w ncpu}

theorem kfree_stats (cpu : Fin ncpu) (now : UInt64) (skb : Bpf.TracedSkb) (reason : UInt32)
    (idx : Bpf.Stat) :
    Bpf.statTotal (d.kfree cpu now skb reason).agent.bpf.maps idx =
      Bpf.statTotal d.agent.bpf.maps idx +
        UInt64.ofNat (d.adds idx (.kfree cpu now skb reason)) := by
  simp only [Daemon.kfree, Daemon.adds]
  cases d.agent.bpf.attached with
  | none => simp
  | some attached =>
      simp only [Bpf.kfreeSkb]
      cases skb.dev with
      | none => simp
      | some ifindex =>
          by_cases hmark : (attached.lookup ifindex).isNone = true
          · simp [hmark]
          · simp only [hmark, if_false, Bool.false_eq_true]
            cases htuple : Bpf.dropTuple skb with
            | none =>
                rw [Bpf.statTotal_statAdd, Bpf.statTotal_statAdd]
                cases idx <;> simp [Bpf.dropAdds, htuple]
            | some t =>
                rw [Bpf.statTotal_statAdd]
                cases idx <;> simp [Bpf.dropAdds, htuple]

/-- The tracer knows of no names and no links. -/
theorem kfree_devices (cpu : Fin ncpu) (now : UInt64) (skb : Bpf.TracedSkb) (reason : UInt32) :
    SameDevices d.agent (d.kfree cpu now skb reason).agent := by
  unfold Daemon.kfree
  split
  · exact ⟨rfl, rfl, rfl⟩
  · exact ⟨rfl, rfl, rfl⟩

/-- A pass changes nothing of the agent but the flow map. -/
theorem passStep_agent {ans : Answer} {job : Job} (hstep : PassStep st ans job d d') :
    ∃ flows, d'.agent = (d.setFlows flows).agent := by
  cases hstep with
  | @delete key _ => exact ⟨d.flows.erase key, rfl⟩
  | count | reset | walk | snapshot | visit | prune | drain | drained | drop | close | measure
  | devices => exact ⟨d.flows, rfl⟩

variable {limit : UInt32} {d₀ : Daemon w ncpu} {events : List (Event ncpu)}

/-- **One event**, for as long as the daemon lives. -/
theorem Books.next {e : Event ncpu} (h : Books st limit d₀ events d) (hlives : Lives st d e) :
    Books st limit d₀ (events ++ [e]) (d.next st e) := by
  have hstep := hlives.eventStep
  have hsinks := sinkStep hlives.step
  generalize hnext : d.next st e = d' at hstep hsinks ⊢
  have hstats : ∀ idx, Bpf.statTotal d'.agent.bpf.maps idx =
      Bpf.statTotal d.agent.bpf.maps idx + UInt64.ofNat (d.adds idx e) ∧
      Known d'.agent := by
    intro idx
    cases hstep with
    | packet env hook skb =>
        exact ⟨Bpf.observe_adds env hook skb d.agent.bpf.maps idx, h.known.same ⟨rfl, rfl, rfl⟩⟩
    | kfree cpu now skb reason =>
        exact ⟨kfree_stats cpu now skb reason idx, h.known.same (kfree_devices cpu now skb reason)⟩
    | evict keys => exact ⟨(add_zero _).symm, h.known⟩
    | link ev env hidle =>
        have hspec := Agent.onLink_spec st.devices env ev h.known.toAgree
        refine ⟨?_, hspec.agree h.known.toAgree, (List.mergeSort_perm _ _).map _⟩
        rw [Bpf.statTotal_congr hspec.frame.stats]
        exact (add_zero _).symm
    | timer nowS monoMs hidle => exact ⟨(add_zero _).symm, h.known⟩
    | advance hjob hpass =>
        obtain ⟨flows, hagent⟩ := passStep_agent hpass
        rw [hagent]
        exact ⟨(add_zero _).symm, h.known.same ⟨rfl, rfl, rfl⟩⟩
    | meter ok hidle =>
        unfold Daemon.meter
        split
        · exact ⟨(add_zero _).symm, h.known⟩
        · exact ⟨(add_zero _).symm, h.known⟩
  refine ⟨?_, ?_, fun idx => ?_, (hstats .packets).2⟩
  · rw [List.foldl_append, ← h.state, ← hnext]
    rfl
  · rw [requested, outputs_concat, ← h.state, List.length_append]
    exact h.sinks.step hsinks
  · rw [(hstats idx).1, h.stats, counted, counted, outputs_concat, ← h.state, List.sum_append,
      List.sum_singleton, UInt64.ofNat_add]

/-- The books hold along every run. -/
theorem Books.run {d₁ : Daemon w ncpu} {before later : List (Event ncpu)}
    (h : Books st limit d₀ before d₁) (hrun : Run (Daemon.next st) (Lives st) d₁ later d) :
    Books st limit d₀ (before ++ later) d := by
  induction hrun with
  | nil => rwa [List.append_nil]
  | snoc hrun hlives ih =>
      rw [← List.append_assoc]
      exact ih.next hlives

end Events

/-! ## The start -/

theorem init_failures (cfg : Config.Syslog) (file : Option Bytes)
    (resolved : Option (List Udp.Candidate)) :
    (Syslog.SyslogExporter.init (w := w) cfg file resolved).2.remote.client.failures = 0 := by
  have hconnect := (Udp.connect_endpoint (w := w) cfg.syslogHost cfg.sourceAddress resolved {}).1
  unfold Syslog.SyslogExporter.init
  simp only
  repeat' split
  all_goals first
    | rfl
    | rename_i hresult; rw [hresult] at hconnect; exact hconnect

/-- The socket when the loop begins; without IPFIX nothing was sent. -/
theorem bootIpfix_socket {cfg : Config.Ipfix} {env : BootEnv} {ipfix : Ipfix.Exporter}
    {socket : Udp.UdpClient w} (hboot : bootIpfix cfg env = some (ipfix, socket)) :
    socket.failures = 0 ∧ (cfg.enabled = false → ipfix.udp.sent = []) := by
  unfold bootIpfix at hboot
  by_cases henabled : cfg.enabled = true
  · have hfailures :=
      (Udp.connect_endpoint (w := w) cfg.collectorHost cfg.sourceAddress env.ipfixResolved {}).1
    rw [if_pos henabled] at hboot
    revert hboot hfailures
    rcases Udp.connect cfg.collectorHost cfg.sourceAddress env.ipfixResolved {} with ⟨result, e⟩
    cases result with
    | error err => exact fun hboot => absurd hboot (by simp)
    | ok value =>
        intro hboot hfailures
        obtain ⟨-, rfl⟩ := Prod.mk.inj (Option.some.inj hboot)
        exact ⟨hfailures, fun hoff => absurd henabled (by simp [hoff])⟩
  · rw [if_neg henabled] at hboot
    obtain ⟨rfl, rfl⟩ := Prod.mk.inj (Option.some.inj hboot)
    exact ⟨rfl, fun _ => rfl⟩

theorem SinkBooks.start {st : Setup} {file : Bytes} (hfile : file ≠ []) (interval limit : UInt32)
    (ipfix : Ipfix.Exporter) {socket : Udp.UdpClient w} {syslog : Syslog.SyslogExporter w}
    (hconnected : st.ipfixEnabled = true → socket.connected = true)
    (hready : st.syslogActive = true → syslog.Ready) (hsocket : socket.failures = 0)
    (hsyslog : syslog.remote.client.failures = 0) :
    SinkBooks st limit 0 ⟨ipfix, socket, [], syslog, [],
      ((Metrics.init file interval).setMapLimit 0).setMapLimit limit⟩ := by
  have hmetrics : ((Metrics.init file interval).setMapLimit 0).setMapLimit limit =
      ⟨true, file, interval, { Metrics.State.initial with mapLimit := limit }⟩ := by
    simp [Metrics.init, Metrics.setMapLimit, Metrics.gated, hfile]
  rw [hmetrics]
  refine ⟨hconnected, hready, rfl, rfl, rfl, 0, rfl, ?_⟩
  rw [Sinks.failures, hsocket, hsyslog]
  exact Wraps.refl 0

/-- **The books are balanced when the loop begins.** -/
theorem books_boot {cfg : Config} {env : BootEnv} {st : Setup} {d₀ : Daemon w ncpu}
    (hboot : boot w ncpu cfg env = some (st, d₀)) (hfile : cfg.prometheusTextfile ≠ []) :
    Books st env.mapLimit d₀ [] d₀ := by
  simp only [boot, Option.map_eq_some_iff, Prod.mk.injEq] at hboot
  obtain ⟨⟨ipfix, socket⟩, hipfix, hst, rfl⟩ := hboot
  have hipfixEnabled : st.ipfixEnabled = cfg.ipfix.enabled := by rw [← hst]
  have hsyslogActive : st.syslogActive = (Syslog.SyslogExporter.init (w := w) cfg.syslog
      env.hostname env.syslogResolved).1.1 := by rw [← hst]
  refine ⟨rfl, ?_, fun idx => ?_, ?_⟩
  · obtain ⟨hfailures, hsent⟩ := bootIpfix_socket hipfix
    have hconnected := fun henabled => ((bootIpfix_spec hipfix).2 henabled).2
    rw [← hipfixEnabled] at hconnected hsent
    have hready : st.syslogActive = true →
        (Syslog.SyslogExporter.init (w := w) cfg.syslog env.hostname
          env.syslogResolved).2.Ready := by
      rw [hsyslogActive]
      exact fun hactive => (Syslog.init_started hactive).ready
    have hstart := SinkBooks.start hfile cfg.prometheusInterval env.mapLimit ipfix hconnected
      hready hfailures (init_failures cfg.syslog env.hostname env.syslogResolved)
    show SinkBooks st env.mapLimit 0
      (Sinks.transmit (fun _ => env.templateReply) ipfix.udp.sent ⟨ipfix, socket, [], _, [], _⟩)
    cases henabled : st.ipfixEnabled with
    | true => exact hstart.transmit (hconnected henabled) _ _
    | false =>
        rw [hsent henabled]
        exact hstart
  · exact Bpf.statTotal_empty _ _
  · exact ⟨Agent.agree_start _ _, List.Perm.refl _⟩

end Obserwrt
