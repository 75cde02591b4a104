import Obserwrt.Daemon.DropRecords
import Obserwrt.Daemon.Lag

/-!
# From the packet to the collector

What the kernel counts and what the IPFIX collector adds up, for one flow key
and one counter.  Between the two stand the flow map with the tracker, the drop
map, a pass under way, and the exporter; here the ledgers of the maps meet the
one of the exporter.
-/

namespace Obserwrt

open Lib Lifecycle

variable {w ncpu : Nat}

/-! ## The collector -/

/-- An observation tells the flow `k`. -/
def Ipfix.Observation.About (k : FlowKey) (o : Ipfix.Observation) : Prop :=
  o.direction = k.direction.toNat ∧
    (if k.direction = 0 then o.ingress else o.egress) = k.ifindex.toNat ∧
    o.family = k.family.toNat ∧ o.protocol = k.protocol.toNat ∧
    o.src = k.src.toList ∧ o.dst = k.dst.toList ∧
    o.sport = k.sport.toNat ∧ o.dport = k.dport.toNat ∧
    o.icmpType = k.icmpType.toNat ∧ o.icmpCode = k.icmpCode.toNat

instance (k : FlowKey) (o : Ipfix.Observation) : Decidable (o.About k) := by
  unfold Ipfix.Observation.About
  infer_instance

def Counter.ofObservation : Counter → Ipfix.Observation → Nat
  | .packets, o => o.packets
  | .bytes, o => o.bytes

/-- The observation says that the packets were dropped (RFC 7270). -/
def Ipfix.Observation.dropped (o : Ipfix.Observation) : Bool := o.forwardingStatus / 64 == 2

/-- What the collector adds up for a flow: its traffic, or its drops. -/
def collected (drops : Bool) (c : Counter) (k : FlowKey) (observations : List Ipfix.Observation) :
    Nat :=
  ((observations.filter fun o => decide (o.About k) && (o.dropped == drops)).map
    c.ofObservation).sum

/-- A record tells the flow of its key and no other. -/
theorem about_iff {k : FlowKey} (em : Ipfix.Emission) (hkey : em.report.key.reserved = 0)
    (hk : k.reserved = 0) : em.observation.About k ↔ em.report.key = k := by
  constructor
  · rintro ⟨hdirection, hindex, hfamily, hprotocol, hsrc, hdst, hsport, hdport, htype, hcode⟩
    have hdirection' := UInt8.toNat_inj.mp hdirection
    have hindex' : em.report.key.ifindex = k.ifindex := by
      apply UInt32.toNat_inj.mp
      rw [← hindex]
      by_cases hzero : em.report.key.direction = 0
      · simp [Ipfix.Emission.observation, ← hdirection', hzero]
      · simp [Ipfix.Emission.observation, ← hdirection', hzero]
    have hfamily' := UInt8.toNat_inj.mp hfamily
    have hprotocol' := UInt8.toNat_inj.mp hprotocol
    have hsrc' := Subtype.ext hsrc
    have hdst' := Subtype.ext hdst
    have hsport' := UInt16.toNat_inj.mp hsport
    have hdport' := UInt16.toNat_inj.mp hdport
    have htype' := UInt8.toNat_inj.mp htype
    have hcode' := UInt8.toNat_inj.mp hcode
    generalize em.report.key = k' at *
    cases k'
    cases k
    simp_all
  · rintro rfl
    refine ⟨rfl, ?_, rfl, rfl, rfl, rfl, rfl, rfl, rfl, rfl⟩
    show (if em.report.key.direction = 0 then (if em.report.key.direction = 0 then _ else _)
      else (if em.report.key.direction = 0 then _ else _)) = _
    split <;> rfl

/-- A drop record says so, and a flow record does not. -/
def Marked (r : Syslog.Report) : Prop :=
  (r.drop.map Syslog.DropInfo.forwardingStatus).elim True fun status => status.toNat / 64 = 2

theorem dropped_observation {em : Ipfix.Emission} {r : Syslog.Report}
    (hreport : em.report = ipfixReport r) (hmarked : Marked r) :
    em.observation.dropped = r.drop.isSome := by
  have hstatus : em.observation.forwardingStatus =
      ((r.drop.map Syslog.DropInfo.forwardingStatus).getD 0).toNat := by
    show em.report.forwardingStatus.toNat = _
    rw [hreport]
    rfl
  rw [Ipfix.Observation.dropped, hstatus]
  cases hdrop : r.drop with
  | none => rfl
  | some drop =>
      rw [Marked, hdrop] at hmarked
      have hmarked' : drop.forwardingStatus.toNat / 64 = 2 := hmarked
      simp [hmarked']

/-- What the collector adds up is what the records say. -/
theorem collected_emissions {told : List Handed} (hkeys : ∀ h ∈ told, KeyOk h.request.key)
    (hmarked : ∀ h ∈ told, Marked h.request.toReport) (drops : Bool) (c : Counter) {k : FlowKey}
    (hk : k.reserved = 0) :
    collected drops c k (told.map fun h => h.emission.observation) =
      reportSum drops c k (told.map fun h => h.request.toReport) := by
  rw [collected, reportSum, tally, List.filter_filter, List.filter_map, List.filter_map,
    List.map_map, List.map_map]
  have hsame : told.filter ((fun o => decide (o.About k) && (o.dropped == drops)) ∘
      fun h => h.emission.observation) =
        told.filter ((fun r => decide (r.key = k) && decide (r.drop.isSome = drops)) ∘
          fun h => h.request.toReport) := by
    refine List.filter_congr fun h hh => ?_
    have habout := about_iff h.emission (hkeys h hh).reserved hk
    have hdropped := @dropped_observation h.emission _ rfl (hmarked h hh)
    simp only [Function.comp_apply, hdropped]
    have hkey : decide (h.emission.observation.About k) = decide (h.request.key = k) :=
      decide_eq_decide.mpr habout
    have hflag : (h.request.drop.isSome == drops) = decide (h.request.drop.isSome = drops) := rfl
    rw [hkey, hflag]
  rw [hsame]
  refine congrArg List.sum (List.map_congr_left fun h _ => ?_)
  obtain ⟨offsetMs, ⟨⟨key, val, expired, delta, drop⟩, ifnames, now, reply⟩⟩ := h
  cases c with
  | packets => cases delta <;> rfl
  | bytes => cases delta <;> rfl

theorem collected_perm {observations observations' : List Ipfix.Observation}
    (hperm : observations.Perm observations') (drops : Bool) (c : Counter) (k : FlowKey) :
    collected drops c k observations = collected drops c k observations' :=
  ((hperm.filter _).map _).sum_eq

/-- The statuses of the drop records come from the table of the reasons. -/
theorem due_marked {st : Setup} (hreasons : st.reasons.Dropped) (d : Daemon w ncpu) (job : Job) :
    ∀ r ∈ d.due st job, Marked r := by
  intro r hr
  unfold Daemon.due at hr
  split at hr
  · cases hiterate : job.iterate st.lifecycle d.flows d.last with
    | none =>
        rw [hiterate] at hr
        exact absurd hr List.not_mem_nil
    | some p =>
        rw [hiterate, Option.elim_some] at hr
        obtain ⟨e, -, rfl⟩ := List.mem_map.mp hr
        exact trivial
  · rw [List.mem_singleton.mp hr]
    exact Agent.dropped_of_mem (Agent.DropReasons.resolve_dropped hreasons _)
  · exact absurd hr List.not_mem_nil

theorem reported_marked {st : Setup} (hreasons : st.reasons.Dropped) (d₀ : Daemon w ncpu)
    (events : List (Event ncpu)) : ∀ r ∈ reported st d₀ events, Marked r := by
  intro r hr
  obtain ⟨q, hq, rfl⟩ := List.mem_map.mp hr
  obtain ⟨d, e, hmem⟩ := mem_outputs hq
  cases e with
  | advance ans =>
      have hreport : q.toReport ∈ reportsOf st d (.advance ans) := List.mem_map_of_mem hmem
      cases hjob : d.job with
      | none =>
          rw [requestsOf, hjob] at hmem
          exact absurd hmem List.not_mem_nil
      | some job =>
          rw [reportsOf_advance st hjob] at hreport
          exact due_marked hreasons d job _ hreport
  | packet env hook skb => exact absurd hmem List.not_mem_nil
  | kfree cpu now skb reason => exact absurd hmem List.not_mem_nil
  | evict keys => exact absurd hmem List.not_mem_nil
  | link ev env => exact absurd hmem List.not_mem_nil
  | timer nowS monoMs => exact absurd hmem List.not_mem_nil
  | meter ok => exact absurd hmem List.not_mem_nil

/-! ## Whole runs -/

/-- The event loses nothing on the way to the exporters. -/
def Lossless (st : Setup) (d : Daemon w ncpu) (e : Event ncpu) : Prop :=
  FlowsKept st d e ∧ DropsKept st d e

instance (st : Setup) (d : Daemon w ncpu) (e : Event ncpu) : Decidable (Lossless st d e) :=
  inferInstanceAs (Decidable (_ ∧ _))

/-- Nothing is counted when the loop begins. -/
theorem boot_counted {cfg : Config} {env : BootEnv} {st : Setup} {d₀ : Daemon w ncpu}
    (hboot : boot w ncpu cfg env = some (st, d₀)) :
    FlowsOk st (fun _ _ => 0) (fun _ _ => 0) d₀ ∧ DropsOk (fun _ _ => 0) (fun _ _ => 0) d₀ ∧
      st.reasons.Dropped := by
  simp only [boot, Option.map_eq_some_iff, Prod.mk.injEq] at hboot
  obtain ⟨p, -, rfl, rfl⟩ := hboot
  refine ⟨⟨⟨[], [], ?_, fun _ _ => rfl, fun _ _ => rfl⟩, all_of_idle rfl⟩,
    ⟨fun e he => absurd he (by simp), fun c k => rfl⟩, ?_⟩
  · exact raceInv_empty _
  · show Agent.DropReasons.Dropped (if _ then _ else _)
    split
    · exact Agent.DropReasons.load_dropped Agent.DropReasons.empty_dropped _
    · exact Agent.DropReasons.empty_dropped

/-- **What the kernel counted reaches the collector.**  In every run of the
daemon that loses nothing on the way in, whenever no pass is under way and the
kernel took every datagram, for each flow key and each counter: what the
collector adds up over the flow records, with what is pending in the flow map,
is what the packets of the run added to the flow; what it adds up over the drop
records, with what waits in the drop map, is what the drops on attached devices
added.  Of a flow no more is pending than what its packets added since the last
pass began. -/
theorem counted_reaches_collector (w ncpu : Nat) (cfg : Config) (env : BootEnv) (st : Setup)
    (d₀ d : Daemon w ncpu) (events : List (Event ncpu))
    (hboot : boot w ncpu cfg env = some (st, d₀)) (hipfix : st.ipfixEnabled = true)
    (hrun : Run (Daemon.next st) (fun d e => Lives st d e ∧ Lossless st d e) d₀ events d)
    (hidle : d.job = none) (htaken : ∀ p ∈ d.sinks.sent, taken p = true) :
    ∃ observations, Ipfix.collect d.sinks.received = some observations ∧
      ∀ (c : Counter) (k : FlowKey), k.reserved = 0 →
        collected false c k observations + pending c d.world k = seenSum c k events ∧
        collected true c k observations + waiting c k d.drops =
          droppedSum st c k d₀ events ∧
        ∀ earlier nowS monoMs later, events = earlier ++ .timer nowS monoMs :: later →
          pending c d.world k ≤ seenSum c k later := by
  have hbooted := boot_booted hboot
  obtain ⟨hflows₀, hdrops₀, hreasons⟩ := boot_counted hboot
  have hready : st.syslogActive = true →
      (Syslog.SyslogExporter.init (w := w) cfg.syslog env.hostname env.syslogResolved).2.Ready :=
    fun hsyslog => (Syslog.init_started (hbooted.active ▸ hsyslog)).ready
  obtain ⟨-, -, ⟨told, htold, hrequests⟩, hflushed⟩ :=
    accounted_run hready hbooted.keys hbooted.told hbooted.flushed (hrun.mono fun _ _ h => h.1)
  have hdone : d.handing = false := by simp [Daemon.handing, hidle]
  obtain ⟨observations, hcollect, -, hwhole⟩ :=
    collectors_agree htold (hflushed hdone) hipfix fun first hfirst =>
      htaken first (List.mem_of_head? hfirst)
  obtain ⟨hperm, -⟩ := hwhole htaken
  have hreported : told.map (fun h => h.request.toReport) = reported st d₀ events := by
    rw [reported, ← hrequests, List.map_map]
    rfl
  have hmarked : ∀ h ∈ told, Marked h.request.toReport := by
    intro h hh
    refine reported_marked hreasons d₀ events _ ?_
    rw [← hreported]
    exact List.mem_map_of_mem hh
  have hflowrun := hrun.mono fun _ _ h => (⟨h.1, h.2.1⟩ : Lives st _ _ ∧ FlowsKept st _ _)
  have hflows := flows_run hflows₀ hflowrun
  have hdrops := drops_run hdrops₀
    (hrun.mono fun _ _ h => (⟨h.1, h.2.2⟩ : Lives st _ _ ∧ DropsKept st _ _))
  refine ⟨observations, hcollect, fun c k hk => ⟨?_, ?_, ?_⟩⟩
  · rw [collected_perm hperm, collected_emissions htold.keys hmarked false c hk, hreported]
    exact hflows.balance (all_of_idle hidle) c k
  · have hbalance := hdrops.balance c k
    rw [Daemon.held, hidle, Option.elim_none] at hbalance
    rw [collected_perm hperm, collected_emissions htold.keys hmarked true c hk, hreported]
    exact hbalance
  · rintro earlier nowS monoMs later rfl
    have hlags := lags_run hflows₀ hflowrun c k
    have hbehind := (lags_done (all_of_idle hidle)).mp hlags
    exact Nat.sub_le_iff_le_add'.mpr hbehind

/-- The flow of the packet that the concrete run drops. -/
def droppedKey : FlowKey :=
  ((outputs (Daemon.next fullBoot.1) Daemon.dropped fullBoot.2 trafficEvents).map
    Prod.fst).headD Bpf.demoSeenKey

theorem counted_reaches_collector_demo :
    ∃ observations, Ipfix.collect passedDaemon.sinks.received = some observations ∧
      collected false .packets Bpf.demoSeenKey observations = 5 ∧
      collected true .bytes droppedKey observations = 60 := by
  have hrun : Run (Daemon.next fullBoot.1)
      (fun d e => Lives fullBoot.1 d e ∧ Lossless fullBoot.1 d e)
      fullBoot.2 passedEvents passedDaemon := Run.of_check (by decide +kernel)
  have htaken : ∀ p ∈ passedDaemon.sinks.sent, taken p = true :=
    List.all_eq_true.mp (by decide +kernel)
  obtain ⟨observations, hcollect, hcounted⟩ :=
    counted_reaches_collector 32 2 fullConfig fullEnv fullBoot.1 fullBoot.2 passedDaemon
      passedEvents (Option.some_get fullBoot_isSome).symm (by decide +kernel) hrun
      (Option.isNone_iff_eq_none.mp (by decide +kernel)) htaken
  obtain ⟨hflows, -, hpending⟩ := hcounted .packets Bpf.demoSeenKey rfl
  obtain ⟨-, hdrops, -⟩ := hcounted .bytes droppedKey (by decide +kernel)
  have hseen : seenSum .packets Bpf.demoSeenKey passedEvents = 5 := by decide +kernel
  have hlast : pending .packets passedDaemon.world Bpf.demoSeenKey ≤ 0 :=
    hpending trafficEvents _ _ _ rfl
  have hdropped : droppedSum fullBoot.1 .bytes droppedKey fullBoot.2 passedEvents = 60 := by
    decide +kernel
  have hwaiting : waiting .bytes droppedKey passedDaemon.drops = 0 := by decide +kernel
  refine ⟨observations, hcollect, ?_, ?_⟩
  · rw [hseen, Nat.le_zero.mp hlast] at hflows
    exact hflows
  · rw [hwaiting, hdropped] at hdrops
    exact hdrops

end Obserwrt
