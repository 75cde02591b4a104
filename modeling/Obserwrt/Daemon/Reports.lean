import Mathlib.Data.List.Forall2
import Obserwrt.Daemon.Keys

/-!
# Two exporters, one list of records

Every record of a pass goes to the metrics, to the IPFIX exporter and to the
syslog exporter, in one order.  `Told` says so of every state: there is one
list of what was handed out, and the stream of datagrams, the syslog lines and
the counter of the metrics are three views of it.  Read back, the two streams
agree record by record, apart from the datagrams that the kernel did not take.
-/

namespace Obserwrt

open Lib

/-- A record as it was handed out, with the offset that IPFIX used. -/
structure Handed where
  offsetMs : UInt64
  request : Syslog.Request

/-- What the IPFIX exporter got. -/
def Handed.emission (h : Handed) : Ipfix.Emission where
  offsetMs := h.offsetMs
  report := ipfixReport h.request.toReport

theorem KeyOk.valid {r : Syslog.Report} (h : KeyOk r.key) : (ipfixReport r).Valid :=
  ⟨h.direction, h.family⟩

variable {w ncpu : Nat}

/-! ## What an event does to the sinks -/

/-- Nothing, or one of the calls that `main` makes on them. -/
inductive SinkStep (st : Setup) (s : Sinks w) : List Syslog.Request → Sinks w → Prop
  | same : SinkStep st s [] s
  | anchor (offsetMs : UInt64) :
      SinkStep st s [] { s with ipfix := s.ipfix.setOffsetMs offsetMs }
  | hand {names : Store UInt32 Bytes} {ans : Answer} {records : List Syslog.Report}
      {s' : Sinks w} (hall : s.handAll st names ans records = some s') :
      SinkStep st s (ans.requests names records) s'
  | close (job : Job) (names : List Bytes) (reply : Nat → Option Nat) :
      SinkStep st s [] (((s.flush st job.nowS reply).recordErrors).setTotals job names)
  | devices (counters : List Metrics.DeviceCounters) :
      SinkStep st s [] { s with metrics := s.metrics.setDevices counters }

section SinkStep

variable {st : Setup} {ans : Answer} {job : Job} {d d' : Daemon w ncpu} {e : Event ncpu}

theorem sinkStep_advance (hpass : PassStep st ans job d d') :
    SinkStep st d.sinks (ans.requests d.agent.nameByIndex (d.due st job)) d'.sinks := by
  cases hpass with
  | visit hstage hiterate hall =>
      simp only [Daemon.due, hstage, hiterate, Option.elim_some]
      exact SinkStep.hand hall
  | prune hstage hiterate =>
      simp only [Daemon.due, hstage, hiterate, Option.elim_none]
      exact SinkStep.same
  | drop hstage hall =>
      simp only [Daemon.due, hstage]
      exact SinkStep.hand hall
  | close hstage =>
      simp only [Daemon.due, hstage]
      exact SinkStep.close job d.agent.attachedNames ans.dataReply
  | devices hstage hdevice =>
      simp only [Daemon.due, hstage]
      exact SinkStep.devices _
  -- the other operations do not touch the sinks
  | count hstage | reset hstage | walk hstage | snapshot hstage | delete hstage | drain hstage
  | drained hstage | measure hstage =>
      simp only [Daemon.due, hstage]
      exact SinkStep.same

theorem kfree_sinks (cpu : Fin ncpu) (now : UInt64) (skb : Bpf.TracedSkb) (reason : UInt32) :
    (d.kfree cpu now skb reason).sinks = d.sinks := by
  unfold Daemon.kfree
  split <;> rfl

theorem meter_sinks (ok : Bool) : (d.meter st ok).sinks = d.sinks := by
  unfold Daemon.meter
  split <;> rfl

/-- **Every event makes one step of the sinks** with the records it hands out. -/
theorem sinkStep (hstep : d.step st e = some d') :
    SinkStep st d.sinks (requestsOf st d e) d'.sinks := by
  cases eventStep hstep with
  | packet env hook skb => exact SinkStep.same
  | kfree cpu now skb reason =>
      rw [kfree_sinks]
      exact SinkStep.same
  | evict keys => exact SinkStep.same
  | link ev env hidle => exact SinkStep.same
  | timer nowS monoMs hidle => exact SinkStep.anchor _
  | advance hjob hpass =>
      rw [requestsOf, hjob]
      exact sinkStep_advance hpass
  | meter ok hidle =>
      rw [meter_sinks]
      exact SinkStep.same

/-- A pass is under way that has not flushed yet. -/
def Daemon.handing (d : Daemon w ncpu) : Bool :=
  d.job.any fun job => match job.stage with
    | .measuring _ => false
    | _ => true

/-- A pass gets past its records only by a flush. -/
theorem handing_step (hstep : d.step st e = some d') (hdone : d'.handing = false) :
    (d.handing = false ∧ d'.sinks.ipfix = d.sinks.ipfix) ∨
      ∃ nowS reply, d'.sinks.ipfix = (d.sinks.flush st nowS reply).ipfix := by
  cases eventStep hstep with
  | packet env hook skb => exact Or.inl ⟨hdone, rfl⟩
  | kfree cpu now skb reason =>
      refine Or.inl ⟨?_, by rw [kfree_sinks]⟩
      unfold Daemon.kfree at hdone
      split at hdone <;> exact hdone
  | evict keys => exact Or.inl ⟨hdone, rfl⟩
  | link ev env hidle => exact Or.inl ⟨hdone, rfl⟩
  | timer nowS monoMs hidle => simp [Daemon.handing, Daemon.begin] at hdone
  | meter ok hidle =>
      refine Or.inl ⟨?_, by rw [meter_sinks]⟩
      unfold Daemon.meter at hdone
      split at hdone <;> exact hdone
  | @advance ans job _ hjob hpass =>
      cases hpass with
      | prune hstage hiterate =>
          simp only [Daemon.handing, Daemon.prune, Option.any_some] at hdone
          by_cases htracer : d.agent.bpf.attached.isSome = true <;> simp [htracer] at hdone
      | visit hstage hiterate hall =>
          obtain ⟨key, -, -, -, hnext⟩ := iterate_cases hiterate
          rcases hnext with rfl | rfl <;> simp [Daemon.handing] at hdone
      | close hstage => exact Or.inr ⟨job.nowS, ans.dataReply, rfl⟩
      | measure hstage hdevice => exact Or.inl ⟨by simp [Daemon.handing, hjob, hstage], rfl⟩
      | devices hstage hdevice => exact Or.inl ⟨by simp [Daemon.handing, hjob, hstage], rfl⟩
      | count | reset | walk | snapshot | delete | drain | drained | drop =>
          simp [Daemon.handing] at hdone

end SinkStep

/-! ## One record -/

/-- The part of a syslog exporter that no emission changes. -/
structure SameSetup (x x' : Syslog.SyslogExporter w) : Prop where
  enabled : x'.enabled = x.enabled
  isLocal : x'.isLocal = x.isLocal
  format : x'.format = x.format
  host : x'.host = x.host
  connected : x'.remote.client.connected = x.remote.client.connected

namespace SameSetup

variable {x x' x'' : Syslog.SyslogExporter w}

theorem refl (x : Syslog.SyslogExporter w) : SameSetup x x := ⟨rfl, rfl, rfl, rfl, rfl⟩

theorem trans (h : SameSetup x x') (h' : SameSetup x' x'') : SameSetup x x'' :=
  ⟨h'.1.trans h.1, h'.2.trans h.2, h'.3.trans h.3, h'.4.trans h.4, h'.5.trans h.5⟩

theorem addFailures (x : Syslog.SyslogExporter w) (n : Nat) : SameSetup x (x.addFailures n) :=
  ⟨rfl, rfl, rfl, rfl, rfl⟩

theorem takeFailures (x : Syslog.SyslogExporter w) : SameSetup x x.takeFailures.2 :=
  ⟨rfl, rfl, rfl, rfl, rfl⟩

theorem ready (h : SameSetup x x') (hready : x.Ready) : x'.Ready where
  enabled := h.enabled.trans hready.enabled
  connected := by
    intro hlocal
    rw [h.connected]
    exact hready.connected (by rw [← h.isLocal, hlocal])

theorem tells {inet : Syslog.InetText} {q : Syslog.Request} {line : Syslog.Line}
    (h : SameSetup x x') (htells : x'.Tells inet q line) : x.Tells inet q line := by
  obtain ⟨payload, hline, hpayload, hread⟩ := htells
  refine ⟨payload, ?_, by rw [← h.format]; exact hpayload, fun hreaches => ?_⟩
  · rw [hline, Syslog.SyslogExporter.line, Syslog.SyslogExporter.line, h.isLocal, h.host]
  · rw [← h.format]
    refine hread ?_
    rw [Syslog.SyslogExporter.Reaches, h.isLocal, h.host]
    exact hreaches

end SameSetup

/-- The views of what was handed out.  `wire` is the IPFIX exporter's view of its
socket. -/
structure Told (st : Setup) (x : Syslog.SyslogExporter w) (told : List Handed) (s : Sinks w) :
    Prop where
  keys : ∀ h ∈ told, KeyOk h.request.key
  ipfix : st.ipfixEnabled = true → ∃ sent pending,
    Ipfix.Tracks s.ipfix sent pending (told.map Handed.emission)
  wire : s.ipfix.udp = ⟨s.socket.connected, s.sent.map Prod.fst⟩
  connected : st.ipfixEnabled = true → s.socket.connected = true
  setup : SameSetup x s.syslog
  lines : st.syslogActive = true →
    List.Forall₂ (fun h l => x.Tells st.inet h.request l.1 ∧ l.2 = h.request.reply) told s.lines
  count : s.metrics.active = true →
    s.metrics.state.totalFlows = UInt64.ofNat told.length

section Hand

variable {st : Setup} {x : Syslog.SyslogExporter w} {told : List Handed} {s s' : Sinks w}

theorem observe_active (m : Metrics) : m.observe.active = m.active := by
  unfold Metrics.observe Metrics.gated
  split <;> rfl

theorem observe_totalFlows {m : Metrics} (hactive : m.active = true) :
    m.observe.state.totalFlows = m.state.totalFlows + 1 := by
  rw [Metrics.observe, Metrics.gated, if_pos hactive]

theorem emit_udp (e : Ipfix.Exporter) (r : Ipfix.Report) : (e.emit r).udp = e.udp := by
  unfold Ipfix.Exporter.emit
  split <;> rfl

/-- Handing out a record, sink by sink. -/
theorem hand_parts {names : Store UInt32 Bytes} {r : Syslog.Report} {now : Int}
    {reply : Option Nat} (hhand : s.hand st names r now reply = some s') :
    s'.metrics = s.metrics.observe ∧
      s'.ipfix = (if st.ipfixEnabled then s.ipfix.emit (ipfixReport r) else s.ipfix) ∧
      s'.socket = s.socket ∧ s'.sent = s.sent ∧
      (if st.syslogActive then
        ∃ lines, s.syslog.emit st.inet ⟨r, some (ifnameOf names), now, reply⟩ =
            some (s'.syslog, lines) ∧
          s'.lines = s.lines ++ lines.map fun l => (l, reply)
      else s'.syslog = s.syslog ∧ s'.lines = s.lines) := by
  unfold Sinks.hand at hhand
  by_cases hsyslog : st.syslogActive = true
  · simp only [hsyslog, if_true, Option.map_eq_some_iff] at hhand ⊢
    obtain ⟨⟨syslog, lines⟩, hemit, rfl⟩ := hhand
    by_cases hipfix : st.ipfixEnabled = true
    · simp only [hipfix, if_true] at hemit ⊢
      exact ⟨trivial, trivial, trivial, trivial, lines, hemit, rfl⟩
    · simp only [hipfix, if_false, Bool.false_eq_true] at hemit ⊢
      exact ⟨trivial, trivial, trivial, trivial, lines, hemit, rfl⟩
  · simp only [hsyslog, if_false, Bool.false_eq_true, Option.some.injEq] at hhand ⊢
    subst hhand
    by_cases hipfix : st.ipfixEnabled = true
    · simp [hipfix]
    · simp [hipfix]

/-- **A record reaches every sink.** -/
theorem Told.hand (h : Told st x told s) {names : Store UInt32 Bytes} {r : Syslog.Report}
    {now : Int} {reply : Option Nat} (hhand : s.hand st names r now reply = some s')
    (hkey : KeyOk r.key) (hready : st.syslogActive = true → x.Ready) :
    Told st x (told ++ [⟨s.ipfix.offsetMs, r, some (ifnameOf names), now, reply⟩]) s' := by
  obtain ⟨hmetrics, hipfix, hsocket, hsent, hsyslog⟩ := hand_parts hhand
  refine ⟨?_, ?_, ?_, ?_, ?_, ?_, ?_⟩
  · intro h' hmem
    rcases List.mem_append.mp hmem with hold | hnew
    · exact h.keys h' hold
    · rw [List.mem_singleton.mp hnew]
      exact hkey
  · intro henabled
    obtain ⟨sent, pending, htracks⟩ := h.ipfix henabled
    rw [hipfix, if_pos henabled, List.map_append]
    exact ⟨sent, _, htracks.emit (ipfixReport r)⟩
  · rw [hsocket, hsent, ← h.wire, hipfix]
    split
    · exact emit_udp _ _
    · rfl
  · rw [hsocket]
    exact h.connected
  · by_cases hactive : st.syslogActive = true
    · rw [if_pos hactive] at hsyslog
      obtain ⟨lines, hemit, -⟩ := hsyslog
      rw [Syslog.emit_eq st.inet (h.setup.ready (hready hactive)), Option.map_eq_some_iff] at hemit
      obtain ⟨payload, -, hpair⟩ := hemit
      rw [← (Prod.mk.inj hpair).1]
      exact h.setup.trans (SameSetup.addFailures _ _)
    · rw [if_neg hactive] at hsyslog
      rw [hsyslog.1]
      exact h.setup
  · intro hactive
    rw [if_pos hactive] at hsyslog
    obtain ⟨lines, hemit, hlines⟩ := hsyslog
    rw [Syslog.emit_eq st.inet (h.setup.ready (hready hactive)), Option.map_eq_some_iff] at hemit
    obtain ⟨payload, hpayload, hpair⟩ := hemit
    have hcarries := Syslog.encode_carries st.inet hpayload
    rw [hlines, ← (Prod.mk.inj hpair).2]
    refine List.rel_append (h.lines hactive) (List.Forall₂.cons ⟨?_, rfl⟩ List.Forall₂.nil)
    exact h.setup.tells (Syslog.tells_line st.inet hcarries)
  · intro hactive
    rw [hmetrics, observe_active] at hactive
    rw [hmetrics, observe_totalFlows hactive, h.count hactive, List.length_append,
      List.length_singleton, UInt64.ofNat_add]
    rfl

/-- **All records of one operation reach every sink**, in order. -/
theorem Told.handAll (h : Told st x told s) {names : Store UInt32 Bytes} {ans : Answer}
    {records : List Syslog.Report} (hall : s.handAll st names ans records = some s')
    (hkeys : ∀ r ∈ records, KeyOk r.key) (hready : st.syslogActive = true → x.Ready) :
    ∃ more, Told st x (told ++ more) s' ∧
      more.map Handed.request = ans.requests names records := by
  induction records generalizing s told with
  | nil =>
      obtain rfl : s = s' := by simpa [Sinks.handAll] using hall
      exact ⟨[], by simpa using h, rfl⟩
  | cons r records ih =>
      rw [Sinks.handAll, List.foldlM_cons, Option.bind_eq_bind, Option.bind_eq_some_iff] at hall
      obtain ⟨s₁, hfirst, hrest⟩ := hall
      have hstep := h.hand hfirst (hkeys r List.mem_cons_self) hready
      obtain ⟨more, hmore, hrequests⟩ :=
        ih hstep hrest fun r' hr' => hkeys r' (List.mem_cons_of_mem _ hr')
      rw [List.append_assoc, List.singleton_append] at hmore
      refine ⟨_, hmore, ?_⟩
      rw [List.map_cons, hrequests]
      rfl

end Hand

/-! ## The flush -/

section Flush

variable {st : Setup} {x : Syslog.SyslogExporter w} {told : List Handed} {s : Sinks w}

/-- What leaves on the socket, and what else changes: only its failures. -/
theorem transmit_spec (reply : Nat → Option Nat) (datagrams : List Bytes) (s : Sinks w) :
    ∃ socket : Udp.UdpClient w, socket.connected = s.socket.connected ∧
      s.transmit reply datagrams = { s with
        socket := socket
        sent := s.sent ++ datagrams.zipIdx.map fun d => (d.1, reply d.2) } := by
  unfold Sinks.transmit
  generalize datagrams.zipIdx = pairs
  induction pairs generalizing s with
  | nil => exact ⟨s.socket, rfl, by simp⟩
  | cons p pairs ih =>
      have hconnected : (s.socket.send p.1 (reply p.2)).2.connected = s.socket.connected := by
        unfold Udp.UdpClient.send
        split
        · rfl
        · split <;> rfl
      obtain ⟨socket, hsocket, hrest⟩ := ih { s with
        socket := (s.socket.send p.1 (reply p.2)).2
        sent := s.sent ++ [(p.1, reply p.2)] }
      refine ⟨socket, hsocket.trans hconnected, ?_⟩
      rw [List.foldl_cons, hrest, List.map_cons, List.append_assoc, List.singleton_append]

/-- **A flush leaves nothing pending.** -/
theorem Told.flush (h : Told st x told s) (nowS : UInt32) (reply : Nat → Option Nat) :
    Told st x told (s.flush st nowS reply) := by
  unfold Sinks.flush
  by_cases henabled : st.ipfixEnabled = true
  · rw [if_pos henabled]
    obtain ⟨sent, pending, htracks⟩ := h.ipfix henabled
    have hflush := htracks.flush nowS
    obtain ⟨hsame, datagrams, hsent⟩ := s.ipfix.flush_sends nowS
    generalize s.ipfix.flush nowS = e at hflush hsame hsent ⊢
    have hold : s.ipfix.udp.sent = s.sent.map Prod.fst := by rw [h.wire]
    have hnew : e.udp.sent.drop s.ipfix.udp.sent.length = datagrams := by
      rw [← hsent, List.drop_left]
    simp only [hnew]
    obtain ⟨socket, hsocket, htransmit⟩ := transmit_spec reply datagrams { s with ipfix := e }
    rw [htransmit]
    refine ⟨h.keys, fun _ => ⟨_, _, hflush⟩, ?_, ?_, h.setup, h.lines, h.count⟩
    · -- the exporter handed over what its client sent
      have hview : e.udp = ⟨e.udp.connected, e.udp.sent⟩ := rfl
      rw [hview, hsame, ← hsent, hold, hsocket, h.wire]
      simp [Function.comp_def, List.zipIdx_map_fst]
    · intro _
      rw [hsocket]
      exact h.connected henabled
  · rw [if_neg henabled]
    exact h

/-- Nothing waits for a flush. -/
def Flushed (st : Setup) (s : Sinks w) : Prop :=
  st.ipfixEnabled = true → ∀ f, s.ipfix.pending f = []

theorem flushed_flush (h : Told st x told s) (nowS : UInt32) (reply : Nat → Option Nat) :
    Flushed st (s.flush st nowS reply) := by
  intro henabled f
  obtain ⟨sent, pending, htracks⟩ := h.ipfix henabled
  have hflush := htracks.flush nowS
  unfold Sinks.flush
  rw [if_pos henabled]
  generalize s.ipfix.flush nowS = e at hflush ⊢
  obtain ⟨socket, -, htransmit⟩ := transmit_spec reply
    (e.udp.sent.drop s.ipfix.udp.sent.length) { s with ipfix := e }
  simp only [htransmit]
  exact hflush.hpending f

theorem recordErrors_totalFlows {v : Nat} (m : Metrics) (n : BitVec v) :
    (m.recordErrors n).active = m.active ∧
      (m.recordErrors n).state.totalFlows = m.state.totalFlows := by
  unfold Metrics.recordErrors Metrics.gated
  split <;> exact ⟨rfl, rfl⟩

theorem setTotals_totalFlows (job : Job) (names : List Bytes) (s : Sinks w) :
    (s.setTotals job names).metrics.active = s.metrics.active ∧
      (s.setTotals job names).metrics.state.totalFlows = s.metrics.state.totalFlows := by
  cases hactive : s.metrics.active with
  | false =>
      simp [Sinks.setTotals, Metrics.setState, Metrics.setBpf, Metrics.setDrops, Metrics.gated,
        hactive]
  | true =>
      simp [Sinks.setTotals, Metrics.setState, Metrics.setBpf, Metrics.setDrops, Metrics.gated,
        hactive]

/-- Other numbers in the metrics, and failures that were taken, change no view. -/
theorem Told.metrics (h : Told st x told s) {m : Metrics} (hactive : m.active = s.metrics.active)
    (htotal : m.state.totalFlows = s.metrics.state.totalFlows) (socket : Udp.UdpClient w)
    (hsocket : socket.connected = s.socket.connected) {syslog : Syslog.SyslogExporter w}
    (hsyslog : SameSetup s.syslog syslog) :
    Told st x told { s with socket := socket, syslog := syslog, metrics := m } where
  keys := h.keys
  ipfix := h.ipfix
  wire := by
    show s.ipfix.udp = ⟨socket.connected, _⟩
    rw [hsocket]
    exact h.wire
  connected := by
    intro henabled
    rw [hsocket]
    exact h.connected henabled
  setup := h.setup.trans hsyslog
  lines := h.lines
  count := by
    intro hm
    rw [hactive] at hm
    show m.state.totalFlows = _
    rw [htotal]
    exact h.count hm

/-- **Every step of the sinks** keeps the views, of one list that grows by the
records of the step. -/
theorem Told.step (h : Told st x told s) {requests : List Syslog.Request} {s' : Sinks w}
    (hstep : SinkStep st s requests s') (hkeys : ∀ q ∈ requests, KeyOk q.key)
    (hready : st.syslogActive = true → x.Ready) :
    ∃ more, Told st x (told ++ more) s' ∧ more.map Handed.request = requests := by
  cases hstep with
  | same => exact ⟨[], by rwa [List.append_nil], rfl⟩
  | anchor offsetMs =>
      refine ⟨[], ?_, rfl⟩
      rw [List.append_nil]
      refine ⟨h.keys, fun henabled => ?_, h.wire, h.connected, h.setup, h.lines, h.count⟩
      obtain ⟨sent, pending, htracks⟩ := h.ipfix henabled
      exact ⟨sent, pending, htracks.setOffsetMs offsetMs⟩
  | hand hall => exact h.handAll hall (fun r hr => hkeys _ (List.mem_map_of_mem hr)) hready
  | close job names reply =>
      refine ⟨[], ?_, rfl⟩
      rw [List.append_nil]
      have hflush := h.flush job.nowS reply
      generalize s.flush st job.nowS reply = s₁ at hflush
      obtain ⟨hactive, htotal⟩ := recordErrors_totalFlows s₁.metrics
        (s₁.socket.takeFailures.1 + s₁.syslog.takeFailures.1)
      have herrors := setTotals_totalFlows job names s₁.recordErrors
      exact hflush.metrics (herrors.1.trans hactive) (herrors.2.trans htotal)
        s₁.socket.takeFailures.2 rfl (SameSetup.takeFailures _)
  | devices counters =>
      refine ⟨[], ?_, rfl⟩
      rw [List.append_nil]
      have hset : (s.metrics.setDevices counters).active = s.metrics.active ∧
          (s.metrics.setDevices counters).state.totalFlows = s.metrics.state.totalFlows := by
        unfold Metrics.setDevices Metrics.gated
        split <;> exact ⟨rfl, rfl⟩
      exact h.metrics hset.1 hset.2 s.socket rfl (SameSetup.refl _)

end Flush

/-! ## Whole runs -/

section Run

variable {st : Setup} {x : Syslog.SyslogExporter w} {d₀ d : Daemon w ncpu}
  {events : List (Event ncpu)}

/-- What holds after every run from `d₀`. -/
structure Accounted (st : Setup) (x : Syslog.SyslogExporter w) (d₀ : Daemon w ncpu)
    (events : List (Event ncpu)) (d : Daemon w ncpu) : Prop where
  state : d = events.foldl (Daemon.next st) d₀
  keys : KeysOk d
  told : ∃ told, Told st x told d.sinks ∧
    told.map Handed.request = requested st d₀ events
  flushed : d.handing = false → Flushed st d.sinks

theorem requestsOf_keyOk (h : KeysOk d) (e : Event ncpu) :
    ∀ q ∈ requestsOf st d e, KeyOk q.key := by
  cases e with
  | advance ans =>
      cases hjob : d.job with
      | none => simp [requestsOf, hjob]
      | some job =>
          rw [requestsOf, hjob]
          exact List.forall_mem_map.mpr (due_keyOk (h.job job hjob))
  | packet | kfree | evict | link | timer | meter => simp [requestsOf]

theorem accounted_next (hready : st.syslogActive = true → x.Ready) {e : Event ncpu}
    (h : Accounted st x d₀ events d) (hlives : Lives st d e) :
    Accounted st x d₀ (events ++ [e]) (d.next st e) := by
  obtain ⟨told, htold, hrequests⟩ := h.told
  have hstep := hlives.step
  obtain ⟨more, hmore, hnew⟩ := htold.step (sinkStep hstep) (requestsOf_keyOk h.keys e) hready
  refine ⟨?_, keysOk_step h.keys hstep, ⟨_, hmore, ?_⟩, ?_⟩
  · rw [List.foldl_append, ← h.state]
    rfl
  · rw [List.map_append, hrequests, hnew, requested, outputs_concat, ← h.state]
  · intro hdone
    rcases handing_step hstep hdone with ⟨hbefore, hsame⟩ | ⟨nowS, reply, hflush⟩
    · intro henabled
      rw [hsame]
      exact h.flushed hbefore henabled
    · intro henabled
      rw [hflush]
      exact flushed_flush htold nowS reply henabled

/-- Along a run there is one list of what was handed out. -/
theorem accounted_run (hready : st.syslogActive = true → x.Ready) (hkeys : KeysOk d₀)
    (h₀ : Told st x [] d₀.sinks) (hflushed : Flushed st d₀.sinks)
    (hrun : Run (Daemon.next st) (Lives st) d₀ events d) : Accounted st x d₀ events d :=
  hrun.invariant ⟨rfl, hkeys, ⟨[], h₀, rfl⟩, fun _ => hflushed⟩
    fun _ _ _ h hlives => accounted_next hready h hlives

end Run

/-! ## The start -/

/-- The exporter in front of the loop, and its socket. -/
theorem bootIpfix_spec {cfg : Config.Ipfix} {env : BootEnv} {ipfix : Ipfix.Exporter}
    {socket : Udp.UdpClient w} (hboot : bootIpfix cfg env = some (ipfix, socket)) :
    ipfix.udp.connected = socket.connected ∧
      (cfg.enabled = true →
        Ipfix.Tracks ipfix [] (fun _ => []) [] ∧ socket.connected = true) := by
  unfold bootIpfix at hboot
  by_cases henabled : cfg.enabled = true
  · rw [if_pos henabled] at hboot
    have hok := @Syslog.connect_ok_connected w cfg.collectorHost cfg.sourceAddress
      env.ipfixResolved {}
    split at hboot
    · cases hboot
    · rename_i e hconnect
      obtain ⟨rfl, rfl⟩ := Prod.mk.inj (Option.some.inj hboot)
      rw [hconnect] at hok
      have hconnected : e.client.connected = true := hok rfl
      refine ⟨?_, fun _ => ⟨Ipfix.tracks_start _ _ _ _ _, hconnected⟩⟩
      rw [(Ipfix.Exporter.sendTemplates_sends _ _).connected, hconnected]
      exact henabled
  · rw [if_neg henabled] at hboot
    obtain ⟨rfl, rfl⟩ := Prod.mk.inj (Option.some.inj hboot)
    refine ⟨?_, fun henabled' => absurd henabled' henabled⟩
    show cfg.enabled = false
    simpa using henabled

theorem setMapLimit_initial (file : Bytes) (interval limit limit' : UInt32) :
    (((Metrics.init file interval).setMapLimit limit).setMapLimit limit').state.totalFlows = 0 := by
  unfold Metrics.setMapLimit Metrics.gated
  split <;> rfl

/-- What `boot` leaves: no pass, nothing told, and the syslog exporter as `init`
made it. -/
structure Booted (cfg : Config) (env : BootEnv) (st : Setup) (d : Daemon w ncpu) : Prop where
  keys : KeysOk d
  told : Told st (Syslog.SyslogExporter.init cfg.syslog env.hostname env.syslogResolved).2 []
    d.sinks
  flushed : Flushed st d.sinks
  syslog : d.sinks.syslog =
    (Syslog.SyslogExporter.init cfg.syslog env.hostname env.syslogResolved).2
  active : st.syslogActive =
    (Syslog.SyslogExporter.init (w := w) cfg.syslog env.hostname env.syslogResolved).1.1

theorem boot_booted {cfg : Config} {env : BootEnv} {st : Setup} {d : Daemon w ncpu}
    (hboot : boot w ncpu cfg env = some (st, d)) : Booted cfg env st d := by
  simp only [boot, Option.map_eq_some_iff, Prod.mk.injEq] at hboot
  obtain ⟨⟨ipfix, socket⟩, hipfix, rfl, rfl⟩ := hboot
  obtain ⟨hconnected, henabled⟩ := bootIpfix_spec hipfix
  set s : Sinks w := {
    ipfix := ipfix, socket := socket, sent := []
    syslog := (Syslog.SyslogExporter.init cfg.syslog env.hostname env.syslogResolved).2
    lines := []
    metrics := ((Metrics.init cfg.prometheusTextfile cfg.prometheusInterval).setMapLimit
      0).setMapLimit env.mapLimit } with hs
  obtain ⟨socket', hsocket, htransmit⟩ :=
    transmit_spec (fun _ => env.templateReply) ipfix.udp.sent s
  refine ⟨⟨Store.onKeys_empty _, Store.onKeys_empty _, by simp⟩, ?_, ?_, ?_, rfl⟩
  · show Told _ _ [] (s.transmit (fun _ => env.templateReply) ipfix.udp.sent)
    rw [htransmit]
    refine ⟨by simp, fun h => ⟨[], _, (henabled h).1⟩, ?_, ?_, SameSetup.refl _,
      fun _ => List.Forall₂.nil, fun _ => setMapLimit_initial _ _ _ _⟩
    · show ipfix.udp = ⟨socket'.connected, _⟩
      rw [hsocket, ← hconnected]
      simp [hs, Function.comp_def, List.zipIdx_map_fst]
    · intro h
      rw [hsocket]
      exact (henabled h).2
  · show Flushed _ (s.transmit (fun _ => env.templateReply) ipfix.udp.sent)
    rw [htransmit]
    exact fun h => (henabled h).1.hpending
  · show (s.transmit (fun _ => env.templateReply) ipfix.udp.sent).syslog = _
    rw [htransmit]

/-! ## What the collectors find -/

/-- An observation of the IPFIX collector and a record of the syslog reader say
the same; the collector's times are those of the record, moved by one offset. -/
structure Agrees (inet : Syslog.InetText) (o : Ipfix.Observation) (r : Syslog.SyslogRecord) :
    Prop where
  family : o.family = r.family.toNat
  protocol : o.protocol = r.protocol.toNat
  src : Syslog.readAddr inet r.family r.src =
    some (if r.family = 4 then o.src.drop 12 else o.src)
  dst : Syslog.readAddr inet r.family r.dst =
    some (if r.family = 4 then o.dst.drop 12 else o.dst)
  ports : o.sport = r.sport.toNat ∧ o.dport = r.dport.toNat
  icmp : o.icmpType = r.icmpType.toNat ∧ o.icmpCode = r.icmpCode.toNat
  device : o.ingress + o.egress = r.ifindex.toNat
  direction : r.direction = if o.direction = 0 then text "ingress" else text "egress"
  counters : o.packets = r.packets.toNat ∧ o.bytes = r.bytes.toNat
  times : ∃ offset, o.startMs = (offset + r.firstSeenNs.toNat / 10 ^ 6) % 2 ^ 64 ∧
    o.endMs = (offset + r.lastSeenNs.toNat / 10 ^ 6) % 2 ^ 64
  tcpFlags : o.tcpFlags = r.tcpFlags.toNat
  vlanId : o.vlanId = r.vlanId.toNat
  dscp : o.tos / 4 = r.dscp.toNat
  endReason : o.endReason = if r.expired then 1 else 2
  status : o.forwardingStatus = r.forwardingStatus.toNat

theorem addrOctets_eq (a : Addr) (family : UInt8) :
    Syslog.addrOctets a family = if family = 4 then a.toList.drop 12 else a.toList := by
  have hlength : a.toList.length = 16 := a.toList_length
  unfold Syslog.addrOctets
  split
  · refine List.ext_getElem (by simp) fun i hi hi' => ?_
    have hbound : i < 4 := by simpa using hi
    interval_cases i <;> simp [byteAt, hlength]
  · rfl

theorem agrees_handed (inet : Syslog.InetText) {h : Handed} (hkey : KeyOk h.request.key) :
    Agrees inet h.emission.observation (h.request.record inet) where
  family := rfl
  protocol := rfl
  src := (Syslog.readAddr_addrText inet h.request.key.src h.request.key.family).trans
    (congrArg some (addrOctets_eq _ _))
  dst := (Syslog.readAddr_addrText inet h.request.key.dst h.request.key.family).trans
    (congrArg some (addrOctets_eq _ _))
  ports := ⟨rfl, rfl⟩
  icmp := ⟨rfl, rfl⟩
  device := by
    show (if h.request.key.direction = 0 then _ else 0) +
      (if h.request.key.direction = 0 then 0 else _) = _
    split
    · exact Nat.add_zero _
    · exact Nat.zero_add _
  direction := by
    show (if h.request.key.direction = Direction.ingress.code then _ else _) =
      if h.request.key.direction.toNat = 0 then _ else _
    rcases hkey.direction with hdir | hdir
    · simp [hdir, Direction.code]
    · simp [hdir, Direction.code]
  counters := by
    obtain ⟨offsetMs, ⟨⟨key, val, expired, delta, drop⟩, ifnames, now, reply⟩⟩ := h
    cases delta with
    | none => exact ⟨rfl, rfl⟩
    | some delta => exact ⟨rfl, rfl⟩
  times := ⟨h.offsetMs.toNat, rfl, rfl⟩
  tcpFlags := rfl
  vlanId := rfl
  dscp := by
    show h.request.val.tos.toNat / 4 = (h.request.val.tos >>> 2).toNat
    rw [UInt8.toNat_shiftRight, Nat.shiftRight_eq_div_pow]
    rfl
  endReason := rfl
  status := rfl

theorem agrees_family {inet : Syslog.InetText} {o : Ipfix.Observation} {r : Syslog.SyslogRecord}
    (h : Agrees inet o r) (n : Nat) : o.family = n ↔ r.family.toNat = n := by
  rw [h.family]

/-- With nothing pending, the collector's records are those emitted, up to the
order between the families. -/
theorem tracks_perm {e : Ipfix.Exporter} {sent emitted : List Ipfix.Emission}
    (h : Ipfix.Tracks e sent (fun _ => []) emitted) : sent.Perm emitted := by
  have hsplit : ∀ l : List Ipfix.Emission,
      (l.filter (fun em => em.family = .v4) ++ l.filter (fun em => em.family = .v6)).Perm l := by
    intro l
    have hboth := List.filter_append_perm (fun em : Ipfix.Emission => em.family = .v4) l
    have hnot : l.filter (fun em => em.family = .v6) =
        l.filter (fun em => !decide (em.family = .v4)) := by
      refine List.filter_congr fun em _ => ?_
      cases em.family <;> rfl
    rw [hnot]
    exact hboth
  have h4 := h.hsplit .v4
  have h6 := h.hsplit .v6
  rw [List.append_nil] at h4 h6
  have hleft := hsplit sent
  rw [h4, h6] at hleft
  exact hleft.symm.trans (hsplit emitted)

/-- The kernel took the datagram as a whole. -/
def taken (d : Bytes × Option Nat) : Bool :=
  decide (d.2 = some d.1.length)

/-- The datagrams that are on their way to the collector. -/
def Sinks.received (s : Sinks w) : List Bytes :=
  (s.sent.filter taken).map Prod.fst

/-- Part of a list is related to part of a related list. -/
theorem sublistForall₂_of_sublist {α β : Type*} {R : α → β → Prop} {part l : List α}
    {l' : List β} (hsub : part.Sublist l) (h : List.Forall₂ R l l') :
    List.SublistForall₂ R part l' := by
  induction h generalizing part with
  | nil =>
      rw [List.sublist_nil.mp hsub]
      exact List.SublistForall₂.nil
  | cons hR hrest ih =>
      cases hsub with
      | cons _ hsub => exact List.SublistForall₂.cons_right (ih hsub)
      | cons_cons _ hsub => exact List.SublistForall₂.cons hR (ih hsub)

/-- What the two collectors have between two passes, if the templates arrived. -/
theorem collectors_agree {st : Setup} {x : Syslog.SyslogExporter w} {told : List Handed}
    {s : Sinks w} (h : Told st x told s) (hflushed : Flushed st s)
    (henabled : st.ipfixEnabled = true) (hfirst : ∀ first ∈ s.sent.head?, taken first = true) :
    ∃ observations, Ipfix.collect s.received = some observations ∧
      (∀ n : Nat, List.SublistForall₂ (Agrees st.inet)
        (observations.filter fun o => o.family = n)
        ((told.map fun h => h.request.record st.inet).filter fun r => r.family.toNat = n)) ∧
      ((∀ p ∈ s.sent, taken p = true) →
        observations.Perm (told.map fun h => h.emission.observation) ∧
        ∀ n : Nat, List.Forall₂ (Agrees st.inet)
          (observations.filter fun o => o.family = n)
          ((told.map fun h => h.request.record st.inet).filter fun r => r.family.toNat = n)) := by
  obtain ⟨sent, pending, htracks⟩ := h.ipfix henabled
  have hnone : pending = fun _ => [] := by
    funext f
    have hpending := htracks.hpending f
    rw [hflushed henabled f] at hpending
    exact List.map_eq_nil_iff.mp hpending.symm
  subst hnone
  have hperm := tracks_perm htracks
  have hvalid : ∀ em ∈ told.map Handed.emission, em.report.Valid := by
    intro em hem
    obtain ⟨h', hh', rfl⟩ := List.mem_map.mp hem
    exact (h.keys h' hh').valid
  have hsent : ∀ em ∈ sent, em.report.Valid := fun em hem => hvalid em (hperm.mem_iff.mp hem)
  -- all records of one family, as the exporter sent them and as they were told
  have hall : ∀ n : Nat, List.Forall₂ (Agrees st.inet)
      ((sent.map Ipfix.Emission.observation).filter fun o => o.family = n)
      ((told.map fun h => h.request.record st.inet).filter fun r => r.family.toNat = n) := by
    intro n
    have hsplit : ∀ f, sent.filter (fun em => em.family = f) =
        (told.map Handed.emission).filter fun em => em.family = f := by
      intro f
      have hf := htracks.hsplit f
      rwa [List.append_nil] at hf
    rw [Ipfix.filter_observation_congr n hsent hvalid hsplit, List.map_map]
    have hboth : List.Forall₂ (Agrees st.inet)
        (told.map (Ipfix.Emission.observation ∘ Handed.emission))
        (told.map fun h => h.request.record st.inet) := by
      rw [List.forall₂_map_left_iff, List.forall₂_map_right_iff, List.forall₂_same]
      exact fun h' hh' => agrees_handed st.inet (h.keys h' hh')
    refine List.rel_filter ?_ hboth
    intro o r hagrees
    simpa using agrees_family hagrees n
  have hstream : s.ipfix.stream = s.sent.map Prod.fst := by
    rw [Ipfix.Exporter.stream, h.wire]
    simp [h.connected henabled]
  have hhead : s.received.head? = s.ipfix.stream.head? := by
    rw [hstream, Sinks.received]
    cases hsent : s.sent with
    | nil => rfl
    | cons first rest =>
        rw [hsent] at hfirst
        rw [List.filter_cons_of_pos (hfirst first rfl)]
        rfl
  have hsub : s.received.Sublist s.ipfix.stream := by
    rw [hstream]
    exact List.filter_sublist.map _
  obtain ⟨known, heard, hcollect, hheard⟩ := htracks.hcollected.sublist hsub hhead
  refine ⟨heard.map Ipfix.Emission.observation, ?_, ?_, ?_⟩
  · rw [Ipfix.collect, hcollect]
    exact Ipfix.mapM_observation fun em hem => hsent em (hheard.subset hem)
  · exact fun n => sublistForall₂_of_sublist ((hheard.map _).filter _) (hall n)
  · intro htaken
    have hwhole : s.received = s.ipfix.stream := by
      rw [hstream, Sinks.received, List.filter_eq_self.mpr htaken]
    obtain ⟨known', hcollect'⟩ := htracks.hcollected.stream
    rw [hwhole, hcollect'] at hcollect
    have hsame : heard.map Ipfix.Emission.dataRecord = sent.map Ipfix.Emission.dataRecord :=
      (Prod.mk.inj (Option.some.inj hcollect)).2.symm
    obtain rfl : heard = sent := hheard.eq_of_length (by simpa using congrArg List.length hsame)
    refine ⟨?_, hall⟩
    have hobservations := hperm.map Ipfix.Emission.observation
    rwa [List.map_map] at hobservations

/-- **The exporters agree.**  For every configuration that enables both and
every run of the daemon (any packets, drops, link events, timers, interleavings
of a pass with the kernel and answers of the kernel, as long as it does not
abort), whenever no pass is under way: a syslog line left for each record that
the passes handed out, in order; its payload is read as the record, and so is
the line where its reader finds the payload.  The metrics count these records.
From the datagrams that the kernel took, once it took the first one, with the
templates, the IPFIX collector gets part of the records, in order within each
address family, and all of them if the kernel took every datagram. -/
theorem exporters_agree (w ncpu : Nat) (cfg : Config) (env : BootEnv) (st : Setup)
    (d₀ d : Daemon w ncpu) (events : List (Event ncpu))
    (hboot : boot w ncpu cfg env = some (st, d₀))
    (hipfix : st.ipfixEnabled = true) (hsyslog : st.syslogActive = true)
    (hrun : Run (Daemon.next st) (Lives st) d₀ events d) (hidle : d.job = none) :
    let records := (requested st d₀ events).map (Syslog.Request.record st.inet)
    List.Forall₂ (fun q line => line.2 = q.reply ∧
        (∃ payload, line.1 = d₀.sinks.syslog.line payload q ∧
          Syslog.readPayload cfg.syslog.format payload = some (q.record st.inet)) ∧
        (Syslog.LineReadable cfg.syslog env.hostname q →
          Syslog.readLine cfg.syslog.format line.1 = some (q.record st.inet)))
      (requested st d₀ events) d.sinks.lines ∧
    (d.sinks.metrics.active = true →
      d.sinks.metrics.state.totalFlows = UInt64.ofNat records.length) ∧
    ((∀ first ∈ d.sinks.sent.head?, taken first = true) →
      ∃ observations, Ipfix.collect d.sinks.received = some observations ∧
        (∀ n : Nat, List.SublistForall₂ (Agrees st.inet)
          (observations.filter fun o => o.family = n)
          (records.filter fun r => r.family.toNat = n)) ∧
        ((∀ p ∈ d.sinks.sent, taken p = true) → ∀ n : Nat, List.Forall₂ (Agrees st.inet)
          (observations.filter fun o => o.family = n)
          (records.filter fun r => r.family.toNat = n))) := by
  intro records
  have hbooted := boot_booted hboot
  have hstarted := Syslog.init_started (hbooted.active ▸ hsyslog)
  obtain ⟨-, -, ⟨told, htold, hrequests⟩, hflushed⟩ :=
    accounted_run (fun _ => hstarted.ready) hbooted.keys hbooted.told hbooted.flushed hrun
  have hdone : d.handing = false := by simp [Daemon.handing, hidle]
  have hrecords : records = told.map fun h => h.request.record st.inet := by
    show (requested st d₀ events).map _ = _
    rw [← hrequests, List.map_map]
    rfl
  refine ⟨?_, ?_, ?_⟩
  · rw [← hrequests, List.forall₂_map_left_iff]
    refine (htold.lines hsyslog).imp ?_
    rintro h line ⟨⟨payload, hline, hpayload, hread⟩, hreply⟩
    rw [hstarted.format] at hpayload hread
    refine ⟨hreply, ⟨payload, by rw [hbooted.syslog]; exact hline, hpayload⟩, fun hreadable => ?_⟩
    exact hread ((hstarted.reaches_iff h.request).mpr hreadable)
  · intro hactive
    rw [htold.count hactive, hrecords, List.length_map]
  · intro hfirst
    obtain ⟨observations, hcollect, hpart, hwhole⟩ :=
      collectors_agree htold (hflushed hdone) hipfix hfirst
    rw [hrecords]
    exact ⟨observations, hcollect, hpart, fun htaken => (hwhole htaken).2⟩

/-- All keys in one bucket. -/
def oneBucket (K : Type) : Layout K where
  buckets := 1
  bucketOf := fun _ => 0
  hlt := fun _ => Nat.zero_lt_one

/-- Both exporters, the textfile and the drop tracer, for concrete runs. -/
def fullConfig : Config where
  devices := [text "*"]
  trackDrops := true
  prometheusTextfile := text "m"
  ipfix := { enabled := true, collectorHost := text "c" }
  syslog := Syslog.collectorConfig

/-- Everything is there when the daemon starts. -/
def fullEnv : BootEnv where
  startS := 1700000000
  monoMs := 1000
  ipfixResolved := some [⟨.inet, text "c", some 4, true, true⟩]
  syslogResolved := some [⟨.inet, text "c", some 5, true, true⟩]
  hostname := none
  templateReply := some 184
  mapLimit := 4096
  devCapacity := 8
  tracerOk := true
  reasons := [(2, text "SKB_DROP_REASON_NO_SOCKET")]
  fnmatch := fun _ _ => true
  ageOver := Lifecycle.exactAge
  inet := Syslog.fullForm
  build := ⟨[], [], [], []⟩
  flowLayout := oneBucket FlowKey
  dropLayout := oneBucket Bpf.DropKey

theorem fullBoot_isSome : (boot 32 2 fullConfig fullEnv).isSome = true := by
  decide +kernel

/-- The daemon when its loop begins. -/
def fullBoot : Setup × Daemon 32 2 := (boot 32 2 fullConfig fullEnv).get fullBoot_isSome

/-- Device 7 comes up, two packets of a flow arrive on it, and one of another
flow is dropped. -/
def trafficEvents : List (Event 2) :=
  [.link ⟨7, text "wan", 1, true, true⟩ {}] ++
    Bpf.demoSeen.map (fun p => .packet { cpu := p.cpu, now := p.now } p.hook p.skb) ++
    [.kfree (Fin.last 1) 11 ⟨some 7, 7, 0x86dd, 78, some Bpf.ipv6SegmentHead⟩ 2]

/-- The operations of a pass: `n` of them up to the flush, one for each device
counter, and the last one. -/
def passEvents (n : Nat) (ans : Answer) (devices : List DevKey) : List (Event 2) :=
  (List.replicate n ans ++ devices.map (fun k => { ans with device := some k }) ++
    [ans]).map .advance

/-- The traffic, and a pass whose two datagrams the kernel takes. -/
def passedEvents : List (Event 2) :=
  trafficEvents ++ .timer 1700000005 6000 :: passEvents 13
    { now := 6000000000, clock := 1700000005, dataReply := fun i => [87, 111][i]? }
    [⟨7, 0⟩, ⟨7, 1⟩]

/-- The daemon behind the pass. -/
def passedDaemon : Daemon 32 2 := passedEvents.foldl (Daemon.next fullBoot.1) fullBoot.2

theorem exporters_agree_demo :
    ∃ observations, Ipfix.collect passedDaemon.sinks.received = some observations ∧
      List.Forall₂ (Agrees fullBoot.1.inet) (observations.filter fun o => o.family = 4)
        (((requested fullBoot.1 fullBoot.2 passedEvents).map
          (Syslog.Request.record fullBoot.1.inet)).filter fun r => r.family.toNat = 4) ∧
      passedDaemon.sinks.metrics.state.totalFlows = 2 := by
  have hrun : Run (Daemon.next fullBoot.1) (Lives fullBoot.1) fullBoot.2 passedEvents
      passedDaemon := Run.of_check (by decide +kernel)
  have htaken : ∀ p ∈ passedDaemon.sinks.sent, taken p = true :=
    List.all_eq_true.mp (by decide +kernel)
  obtain ⟨-, -, hipfix⟩ := exporters_agree 32 2 fullConfig fullEnv fullBoot.1 fullBoot.2
    passedDaemon passedEvents (Option.some_get fullBoot_isSome).symm (by decide +kernel)
    (by decide +kernel) hrun (Option.isNone_iff_eq_none.mp (by decide +kernel))
  obtain ⟨observations, hcollect, -, hwhole⟩ :=
    hipfix fun first hfirst => htaken first (List.mem_of_head? hfirst)
  exact ⟨observations, hcollect, hwhole htaken 4, by decide +kernel⟩

end Obserwrt
