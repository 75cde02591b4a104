import Obserwrt.Daemon.Books
import Obserwrt.Daemon.Flows

/-!
# What a pass puts into the metrics

A pass reads its numbers one after the other while the kernel goes on counting:
the aggregate counters slot by slot, the flow map in several batch calls, the
device counters key by key.  `PassInv` says of every state of a pass what was
read so far, and in which states of the pass; behind the flush all but the
device counters is in the metrics.
-/

namespace Obserwrt

open Lib Lifecycle

variable {w ncpu : Nat}

/-! ## The states of a pass -/

/-- A state that the daemon is in while `during` happens from `d₁` on. -/
def Moment (st : Setup) (d₁ : Daemon w ncpu) (during : List (Event ncpu)) (d : Daemon w ncpu) :
    Prop :=
  ∃ part, part <+: during ∧ d = part.foldl (Daemon.next st) d₁

section Moment

variable {st : Setup} {d₁ d : Daemon w ncpu} {during : List (Event ncpu)}

theorem Moment.later (h : Moment st d₁ during d) (e : Event ncpu) :
    Moment st d₁ (during ++ [e]) d := by
  obtain ⟨part, hpart, hd⟩ := h
  exact ⟨part, hpart.trans (List.prefix_append _ _), hd⟩

theorem moment_now (hd : d = during.foldl (Daemon.next st) d₁) : Moment st d₁ during d :=
  ⟨during, List.prefix_rfl, hd⟩

end Moment

/-- A slot of `bpf_stats` as it was in some state of the pass. -/
def Counted (st : Setup) (d₁ : Daemon w ncpu) (during : List (Event ncpu)) (i : Bpf.Stat)
    (value : UInt64) : Prop :=
  ∃ d, Moment st d₁ during d ∧ value = Bpf.statTotal d.agent.bpf.maps i

/-- No batch call of the flow walk fails. -/
def Faultless (st : Setup) (d₁ : Daemon w ncpu) (during : List (Event ncpu)) : Prop :=
  ∀ part ans, part ++ [.advance ans] <+: during →
    (part.foldl (Daemon.next st) d₁).walking = true → ans.fault = false

/-- The flow is in the map in every state of the walk. -/
def Stays (st : Setup) (d₁ : Daemon w ncpu) (during : List (Event ncpu)) (k : FlowKey) : Prop :=
  ∀ d, Moment st d₁ during d → d.walking = true → k ∈ d.flows

/-- What the batch calls read of the flow map: each flow once, as it was in some
state of the pass, and if none fails all flows of the buckets passed that were
there throughout. -/
structure Walked (st : Setup) (d₁ : Daemon w ncpu) (during : List (Event ncpu))
    (passed : FlowKey → Prop) (entries : List (FlowKey × FlowVal)) : Prop where
  nodup : (entries.map Prod.fst).Nodup
  current : ∀ e ∈ entries, ∃ d, Moment st d₁ during d ∧ d.flows.lookup e.1 = some e.2
  complete : Faultless st d₁ during → ∀ k, Stays st d₁ during k → passed k →
    k ∈ entries.map Prod.fst

section Later

variable {st : Setup} {d₁ : Daemon w ncpu} {during : List (Event ncpu)}

theorem Counted.later {i : Bpf.Stat} {value : UInt64} (h : Counted st d₁ during i value)
    (e : Event ncpu) : Counted st d₁ (during ++ [e]) i value := by
  obtain ⟨d, hd, hvalue⟩ := h
  exact ⟨d, hd.later e, hvalue⟩

theorem Faultless.earlier {e : Event ncpu} (h : Faultless st d₁ (during ++ [e])) :
    Faultless st d₁ during :=
  fun part ans hpart => h part ans (hpart.trans (List.prefix_append _ _))

theorem Stays.earlier {k : FlowKey} {e : Event ncpu} (h : Stays st d₁ (during ++ [e]) k) :
    Stays st d₁ during k :=
  fun d hd => h d (hd.later e)

theorem Walked.later {passed : FlowKey → Prop} {entries : List (FlowKey × FlowVal)}
    (h : Walked st d₁ during passed entries) (e : Event ncpu) :
    Walked st d₁ (during ++ [e]) passed entries where
  nodup := h.nodup
  current := by
    intro e' he'
    obtain ⟨d, hd, hlookup⟩ := h.current e' he'
    exact ⟨d, hd.later e, hlookup⟩
  complete := fun hfaultless k hstays => h.complete hfaultless.earlier k hstays.earlier

end Later

/-! ## What was read so far -/

/-- The device counters that an event reads. -/
def Daemon.measuredBy (d : Daemon w ncpu) : Event ncpu → List Metrics.DevCounters
  | .advance ans =>
      match d.job.map Job.stage, ans.device with
      | some (.measuring _), some k =>
          ((d.agent.bpf.maps.devstats.lookup k).map fun slots =>
            { Bpf.devTotal slots with ifindex := k.ifindex, direction := k.direction }).toList
      | _, _ => []
  | _ => []

/-- The device counters that a pass reads, in order. -/
def measured (st : Setup) : Daemon w ncpu → List (Event ncpu) → List Metrics.DevCounters :=
  outputs (Daemon.next st) Daemon.measuredBy

/-- What `Lifecycle::run` counted of the flows that it visited. -/
structure Tallied (cfg : Lifecycle.Config) (now : UInt64) (entries : List (FlowKey × FlowVal))
    (stats : Stats) : Prop where
  map : stats.map = entries.length
  active : stats.active = entries.countP fun e => !isExpired cfg now e.1 e.2

/-- The pass read its clock for the age test. -/
def Clocked (during : List (Event ncpu)) (now : UInt64) : Prop :=
  ∃ ans, .advance ans ∈ during ∧ ans.now = now

/-- Where a pass stands in front of its flush, stage by stage. -/
def Job.Sound (st : Setup) (d₁ : Daemon w ncpu) (during : List (Event ncpu)) (job : Job) :
    Prop :=
  match job.stage with
  | .counting left => job.stats = {} ∧ ∀ i ∉ left, Counted st d₁ during i (job.stat i)
  | .walking walk =>
      job.stats = {} ∧ (∀ i, Counted st d₁ during i (job.stat i)) ∧ Clocked during job.now ∧
        walk.cursor ≤ st.flowLayout.buckets ∧
        (∀ e ∈ walk.entries, st.flowLayout.bucketOf e.1 < walk.cursor) ∧
        Walked st d₁ during (fun k => st.flowLayout.bucketOf k < walk.cursor) walk.entries
  | .visiting | .deleting _ =>
      (∀ i, Counted st d₁ during i (job.stat i)) ∧ Clocked during job.now ∧
        ∃ entries, Walked st d₁ during (fun _ => True) entries ∧
          job.keys = entries.map Prod.fst ∧ job.values = entries.map Prod.snd ∧
          Tallied st.lifecycle job.now (entries.take job.pos) job.stats
  | .draining _ | .dropping _ =>
      (∀ i, Counted st d₁ during i (job.stat i)) ∧ Clocked during job.now ∧
        ∃ entries, Walked st d₁ during (fun _ => True) entries ∧
          Tallied st.lifecycle job.now entries job.stats
  | .measuring _ => False

/-- The member of the metrics that shows a slot of `bpf_stats`. -/
def Metrics.State.slot (m : Metrics.State) : Bpf.Stat → UInt64
  | .packets => m.bpfPackets
  | .bytes => m.bpfBytes
  | .flowsCreated => m.bpfFlowsCreated
  | .parsed => m.bpfAccounted
  | .drops => m.bpfDrops
  | .dropsUnparsed => m.bpfDropsUnparsed

/-- What the flush and the setters behind it leave. -/
structure Taken (st : Setup) (d₁ : Daemon w ncpu) (during : List (Event ncpu))
    (d : Daemon w ncpu) : Prop where
  failures : d.sinks.failures = 0
  stats : ∀ i, Counted st d₁ during i (d.sinks.metrics.state.slot i)
  flows : ∃ entries now, Walked st d₁ during (fun _ => True) entries ∧ Clocked during now ∧
    d.sinks.metrics.state.mapEntries = UInt32.ofNat entries.length ∧
    d.sinks.metrics.state.flowsActive =
      UInt32.ofNat (entries.countP fun e => !isExpired st.lifecycle now e.1 e.2)
  devices : d.sinks.metrics.state.devices = d.agent.attachedNames

/-- Where a pass stands. -/
def PassInv (st : Setup) (d₁ : Daemon w ncpu) (during : List (Event ncpu))
    (d : Daemon w ncpu) : Prop :=
  match d.job with
  | none => Taken st d₁ during d ∧ d.sinks.metrics.state.devCounters =
      namedCounters d.agent.nameByIndex (measured st d₁ during)
  | some job =>
      match job.stage with
      | .measuring raw => Taken st d₁ during d ∧ measured st d₁ during = raw
      | _ => job.Sound st d₁ during ∧ measured st d₁ during = []

section Step

variable {st : Setup} {d₁ d d' : Daemon w ncpu} {during : List (Event ncpu)} {job : Job}

theorem Clocked.later {now : UInt64} (h : Clocked during now) (e : Event ncpu) :
    Clocked (during ++ [e]) now := by
  obtain ⟨ans, hmem, hnow⟩ := h
  exact ⟨ans, List.mem_append_left _ hmem, hnow⟩

/-- Further events take nothing back. -/
theorem Job.Sound.later (h : job.Sound st d₁ during) (e : Event ncpu) :
    job.Sound st d₁ (during ++ [e]) := by
  unfold Job.Sound at h ⊢
  cases hstage : job.stage with
  | counting left =>
      rw [hstage] at h
      exact ⟨h.1, fun i hi => (h.2 i hi).later e⟩
  | walking walk =>
      rw [hstage] at h
      obtain ⟨hstats, hcounted, hclock, hcursor, hbelow, hwalked⟩ := h
      exact ⟨hstats, fun i => (hcounted i).later e, hclock.later e, hcursor, hbelow,
        hwalked.later e⟩
  | visiting | deleting key =>
      rw [hstage] at h
      obtain ⟨hcounted, hclock, entries, hwalked, hrest⟩ := h
      exact ⟨fun i => (hcounted i).later e, hclock.later e, entries, hwalked.later e, hrest⟩
  | draining walk | dropping left =>
      rw [hstage] at h
      obtain ⟨hcounted, hclock, entries, hwalked, htallied⟩ := h
      exact ⟨fun i => (hcounted i).later e, hclock.later e, entries, hwalked.later e, htallied⟩
  | measuring raw =>
      rw [hstage] at h
      exact h.elim

theorem Taken.later (h : Taken st d₁ during d) (e : Event ncpu) {m : Metrics}
    (hstate : m.state = { d.sinks.metrics.state with devCounters := m.state.devCounters })
    (hsinks : d'.sinks = { d.sinks with metrics := m })
    (hnames : d'.agent.attachedNames = d.agent.attachedNames) :
    Taken st d₁ (during ++ [e]) d' := by
  have hmetrics : d'.sinks.metrics.state = { d.sinks.metrics.state with
      devCounters := m.state.devCounters } := by
    rw [hsinks]
    exact hstate
  have hslot : ∀ i, d'.sinks.metrics.state.slot i = d.sinks.metrics.state.slot i := by
    intro i
    rw [hmetrics]
    cases i <;> rfl
  obtain ⟨entries, now, hwalked, hclock, hentries, hactive⟩ := h.flows
  refine ⟨?_, fun i => ?_, ⟨entries, now, hwalked.later e, hclock.later e, ?_, ?_⟩, ?_⟩
  · rw [hsinks]
    exact h.failures
  · rw [hslot]
    exact (h.stats i).later e
  · rw [hmetrics]
    exact hentries
  · rw [hmetrics]
    exact hactive
  · rw [hmetrics, hnames]
    exact h.devices

theorem measured_concat (hstate : d = during.foldl (Daemon.next st) d₁) (e : Event ncpu) :
    measured st d₁ (during ++ [e]) = measured st d₁ during ++ d.measuredBy e := by
  rw [measured, outputs_concat, ← hstate]

/-- A batch call of the flow walk. -/
theorem Walked.turn (hstate : d = during.foldl (Daemon.next st) d₁) (hwalking : d.walking = true)
    {walk walk' : Agent.Walk FlowKey FlowVal} (hcursor : walk.cursor ≤ st.flowLayout.buckets)
    (hbelow : ∀ e ∈ walk.entries, st.flowLayout.bucketOf e.1 < walk.cursor)
    (h : Walked st d₁ during (fun k => st.flowLayout.bucketOf k < walk.cursor) walk.entries)
    {ans : Answer} {result : Option Bool}
    (hturn : walk.turn st.flowLayout false ans.fault d.flows = (walk', result)) :
    result = none ∧ walk'.cursor ≤ st.flowLayout.buckets ∧
        (∀ e ∈ walk'.entries, st.flowLayout.bucketOf e.1 < walk'.cursor) ∧
        Walked st d₁ (during ++ [.advance ans])
          (fun k => st.flowLayout.bucketOf k < walk'.cursor) walk'.entries ∨
      ∃ ok, result = some ok ∧
        Walked st d₁ (during ++ [.advance ans]) (fun _ => True) walk'.entries := by
  have hlater := h.later (.advance ans)
  cases hfault : ans.fault with
  | true =>
      rw [hfault] at hturn
      obtain ⟨rfl, rfl⟩ := Prod.mk.inj hturn
      refine Or.inr ⟨false, rfl, hlater.nodup, hlater.current, fun hfaultless => ?_⟩
      have hnone := hfaultless during ans List.prefix_rfl (hstate ▸ hwalking)
      exact absurd hfault (by simp [hnone])
  | false =>
      rw [hfault] at hturn
      obtain ⟨next, hnext, hbuckets, hentries, hresult⟩ :=
        walk.turn_spans false d.flows hcursor
      simp only [hturn] at hentries hresult
      have hwalked : Walked st d₁ (during ++ [.advance ans])
          (fun k => st.flowLayout.bucketOf k < next) walk'.entries := by
        rw [hentries]
        refine ⟨Layout.append_span_nodup h.nodup hbelow next, ?_, fun hfaultless k hstays hk => ?_⟩
        · intro e he
          rcases List.mem_append.mp he with he | he
          · exact hlater.current e he
          · exact ⟨d, (moment_now hstate).later _, Agent.lookup_of_mem_span he⟩
        · rw [List.map_append]
          by_cases hold : st.flowLayout.bucketOf k < walk.cursor
          · exact List.mem_append_left _ (hlater.complete hfaultless k hstays hold)
          · have hthere := hstays d ((moment_now hstate).later _) hwalking
            exact List.mem_append_right _
              (Agent.mem_span_keys.mpr ⟨hthere, Nat.le_of_not_lt hold, hk⟩)
      rcases hresult with ⟨rfl, rfl⟩ | ⟨rfl, rfl⟩
      · refine Or.inl ⟨rfl, hbuckets, ?_, hwalked⟩
        rw [hentries]
        exact Layout.append_span_below hnext hbelow
      · exact Or.inr ⟨true, rfl, hwalked.nodup, hwalked.current, fun hfaultless k hstays _ =>
          hwalked.complete hfaultless k hstays (st.flowLayout.hlt k)⟩

/-- A visit counts its flow. -/
theorem Tallied.visit {cfg : Lifecycle.Config} {now : UInt64} {entries : List (FlowKey × FlowVal)}
    {s : RunState} (h : Tallied cfg now entries s.stats) (k : FlowKey) (v : FlowVal) :
    Tallied cfg now (entries ++ [(k, v)]) (visit cfg now k v s).stats := by
  unfold Lifecycle.visit
  by_cases hexp : isExpired cfg now k v = true
  · simp only [hexp, if_true]
    refine ⟨?_, ?_⟩
    · rw [List.length_append, h.map]
      rfl
    · simp [List.countP_append, h.active, hexp]
  · simp only [hexp, if_false, Bool.false_eq_true]
    refine ⟨?_, ?_⟩
    · rw [List.length_append, h.map]
      rfl
    · simp [List.countP_append, h.active, hexp]

/-- In front of the flush. -/
theorem passInv_sound {job' : Job} (hjob : d'.job = some job') (hsound : job'.Sound st d₁ during)
    (hmeasured : measured st d₁ during = []) : PassInv st d₁ during d' := by
  unfold PassInv
  rw [hjob]
  have hearly : ∀ raw, job'.stage ≠ .measuring raw := by
    intro raw hraw
    unfold Job.Sound at hsound
    rw [hraw] at hsound
    exact hsound
  cases hstage : job'.stage with
  | measuring raw => exact absurd hstage (hearly raw)
  | counting | walking | visiting | deleting | draining | dropping =>
      simp only [hstage]
      exact ⟨hsound, hmeasured⟩

/-- What a pass holds in front of its flush. -/
theorem PassInv.sound (h : PassInv st d₁ during d) (hjob : d.job = some job)
    (hearly : ∀ raw, job.stage ≠ .measuring raw) :
    job.Sound st d₁ during ∧ measured st d₁ during = [] := by
  unfold PassInv at h
  rw [hjob] at h
  cases hstage : job.stage with
  | measuring raw => exact absurd hstage (hearly raw)
  | counting | walking | visiting | deleting | draining | dropping =>
      simp only [hstage] at h
      exact h

theorem recordErrors_failures (s : Sinks w) : s.recordErrors.failures = 0 := by
  simp [Sinks.failures, Sinks.recordErrors, Udp.UdpClient.takeFailures,
    Syslog.SyslogExporter.takeFailures]

/-- The kernel counts, and the daemon does nothing. -/
theorem PassInv.outside {e : Event ncpu} (h : PassInv st d₁ during d)
    (hstate : d = during.foldl (Daemon.next st) d₁) (hjob : d'.job = d.job)
    (hsinks : d'.sinks = d.sinks) (hnames : d'.agent.nameByIndex = d.agent.nameByIndex)
    (hlisted : d'.agent.attachedNames = d.agent.attachedNames)
    (hnone : d.measuredBy e = []) :
    PassInv st d₁ (during ++ [e]) d' := by
  have hmeasured := measured_concat hstate e
  rw [hnone, List.append_nil] at hmeasured
  have htaken : Taken st d₁ during d → Taken st d₁ (during ++ [e]) d' :=
    fun h => h.later e rfl hsinks hlisted
  unfold PassInv at h ⊢
  rw [hjob]
  cases hd : d.job with
  | none =>
      rw [hd] at h
      obtain ⟨ht, hcounters⟩ := h
      refine ⟨htaken ht, ?_⟩
      rw [hsinks, hnames, hmeasured]
      exact hcounters
  | some job =>
      rw [hd] at h
      cases hstage : job.stage with
      | measuring raw =>
          simp only [hstage] at h ⊢
          exact ⟨htaken h.1, hmeasured.trans h.2⟩
      | counting | walking | visiting | deleting | draining | dropping =>
          simp only [hstage] at h ⊢
          exact ⟨h.1.later e, hmeasured.trans h.2⟩

/-- An operation of a pass. -/
theorem PassInv.advance (h : PassInv st d₁ during d)
    (hstate : d = during.foldl (Daemon.next st) d₁) (hjob : d.job = some job)
    {limit : UInt32} {handed : Nat} (hbooks : SinkBooks st limit handed d.sinks)
    {ans : Answer} (hstep : PassStep st ans job d d') :
    PassInv st d₁ (during ++ [.advance ans]) d' := by
  have hnow := moment_now hstate
  have hmeasured := measured_concat hstate (.advance ans)
  have hearly : (∀ raw, job.stage ≠ .measuring raw) →
      job.Sound st d₁ (during ++ [.advance ans]) ∧
        measured st d₁ (during ++ [.advance ans]) = [] := by
    intro hstage
    obtain ⟨hsound, hnone⟩ := h.sound hjob hstage
    refine ⟨hsound.later _, ?_⟩
    rw [hmeasured, hnone, List.nil_append, Daemon.measuredBy, hjob, Option.map_some]
    split
    · rename_i raw k hraw hdevice
      exact absurd (Option.some.inj hraw) (hstage raw)
    · rfl
  cases hstep with
  | @count i left hstage =>
      obtain ⟨hsound, hnone⟩ := hearly (by simp [hstage])
      refine passInv_sound rfl ?_ hnone
      unfold Job.Sound at hsound ⊢
      rw [hstage] at hsound
      refine ⟨hsound.1, fun j hj => ?_⟩
      by_cases hsame : j = i
      · subst hsame
        simp only [Function.update_self]
        exact ⟨d, hnow.later _, rfl⟩
      · simp only [Function.update_of_ne hsame]
        exact hsound.2 j (by simp [hsame, hj])
  | reset hstage =>
      obtain ⟨hsound, hnone⟩ := hearly (by simp [hstage])
      refine passInv_sound rfl ?_ hnone
      unfold Job.Sound at hsound ⊢
      rw [hstage] at hsound
      refine ⟨hsound.1, fun i => hsound.2 i List.not_mem_nil,
        ⟨ans, List.mem_append_right _ (List.mem_singleton_self _), rfl⟩, Nat.zero_le _, ?_, ?_⟩
      · simp [Agent.Walk.entries]
      · exact ⟨List.nodup_nil, by simp [Agent.Walk.entries],
          fun _ _ _ hpassed => absurd hpassed (Nat.not_lt_zero _)⟩
  | walk hstage hturn =>
      obtain ⟨hsound, hnone⟩ := hearly (by simp [hstage])
      obtain ⟨hbefore, -⟩ := h.sound hjob (by simp [hstage])
      refine passInv_sound rfl ?_ hnone
      unfold Job.Sound at hsound hbefore ⊢
      rw [hstage] at hsound hbefore
      obtain ⟨hstats, hcounted, hclock, -⟩ := hsound
      obtain ⟨-, -, -, hcursor, hbelow, hwalked⟩ := hbefore
      have hwalking : d.walking = true := by
        rw [Daemon.walking, hjob, Option.map_some, hstage]
      rcases hwalked.turn hstate hwalking hcursor hbelow hturn with
        ⟨-, hcursor', hbelow', hwalked'⟩ | ⟨ok, hsome, -⟩
      · exact ⟨hstats, hcounted, hclock, hcursor', hbelow', hwalked'⟩
      · cases hsome
  | @snapshot walk walk' ok hstage hturn =>
      obtain ⟨hsound, hnone⟩ := hearly (by simp [hstage])
      obtain ⟨hbefore, -⟩ := h.sound hjob (by simp [hstage])
      refine passInv_sound rfl ?_ hnone
      unfold Job.Sound at hsound hbefore ⊢
      rw [hstage] at hsound hbefore
      obtain ⟨hstats, hcounted, hclock, -⟩ := hsound
      obtain ⟨-, -, -, hcursor, hbelow, hwalked⟩ := hbefore
      have hwalking : d.walking = true := by
        rw [Daemon.walking, hjob, Option.map_some, hstage]
      rcases hwalked.turn hstate hwalking hcursor hbelow hturn with ⟨hcontinues, -⟩ |
        ⟨ok', -, hwalked'⟩
      · cases hcontinues
      · refine ⟨hcounted, hclock, walk'.entries, hwalked', rfl, rfl, ?_⟩
        rw [hstats]
        exact ⟨rfl, rfl⟩
  | @visit s stage sinks hstage hiterate hall =>
      obtain ⟨hsound, hnone⟩ := hearly (by simp [hstage])
      refine passInv_sound rfl ?_ hnone
      unfold Job.Sound at hsound
      rw [hstage] at hsound
      obtain ⟨hcounted, hclock, entries, hwalked, hkeys, hvalues, htallied⟩ := hsound
      have hzip : job.keys.zip job.values = entries := by
        rw [hkeys, hvalues]
        exact (List.zip_of_prod rfl rfl).symm
      obtain ⟨gone, -, -, -, hstage'⟩ := iterate_cases hiterate
      rw [iterate_eq _ _ _ (by rw [hkeys, hvalues, List.length_map, List.length_map]), hzip]
        at hiterate
      cases hrest : entries.drop job.pos with
      | nil =>
          rw [hrest] at hiterate
          cases hiterate
      | cons e rest =>
          obtain ⟨k, v⟩ := e
          rw [hrest] at hiterate
          obtain ⟨rfl, -⟩ := Prod.mk.inj (Option.some.inj hiterate)
          have htake : entries.take (job.pos + 1) = entries.take job.pos ++ [(k, v)] := by
            rw [List.take_add_one, ← List.head?_drop, hrest]
            rfl
          have htallied' := Tallied.visit (s := { job.run d.flows d.last with
            map := { (job.run d.flows d.last).map with pos := job.pos + 1 } }) htallied k v
          rw [← htake] at htallied'
          rcases hstage' with rfl | rfl
          · exact ⟨hcounted, hclock, entries, hwalked, hkeys, hvalues, by rwa [visit_map]⟩
          · exact ⟨hcounted, hclock, entries, hwalked, hkeys, hvalues, by rwa [visit_map]⟩
  | prune hstage hiterate =>
      obtain ⟨hsound, hnone⟩ := hearly (by simp [hstage])
      refine passInv_sound rfl ?_ hnone
      unfold Job.Sound at hsound
      rw [hstage] at hsound
      obtain ⟨hcounted, hclock, entries, hwalked, hkeys, hvalues, htallied⟩ := hsound
      have hzip : job.keys.zip job.values = entries := by
        rw [hkeys, hvalues]
        exact (List.zip_of_prod rfl rfl).symm
      rw [iterate_eq _ _ _ (by rw [hkeys, hvalues, List.length_map, List.length_map]), hzip]
        at hiterate
      have hall : entries.take job.pos = entries := by
        cases hrest : entries.drop job.pos with
        | nil => exact List.take_of_length_le (List.drop_eq_nil_iff.mp hrest)
        | cons e rest =>
            rw [hrest] at hiterate
            cases hiterate
      rw [hall] at htallied
      by_cases htracer : d.agent.bpf.attached.isSome = true
      · rw [if_pos htracer]
        exact ⟨hcounted, hclock, entries, hwalked, htallied⟩
      · rw [if_neg htracer]
        exact ⟨hcounted, hclock, entries, hwalked, htallied⟩
  -- what is left to do with the flows and the drops reads nothing for the metrics
  | delete hstage | drain hstage hturn | drained hstage hturn | drop hstage hall =>
      obtain ⟨hsound, hnone⟩ := hearly (by simp [hstage])
      refine passInv_sound rfl ?_ hnone
      unfold Job.Sound at hsound ⊢
      rw [hstage] at hsound
      exact hsound
  | close hstage =>
      obtain ⟨hsound, hnone⟩ := hearly (by simp [hstage])
      unfold Job.Sound at hsound
      rw [hstage] at hsound
      obtain ⟨hcounted, hclock, entries, hwalked, htallied⟩ := hsound
      have hend := (hbooks.flush job.nowS ans.dataReply).recordErrors
      have hfailures := recordErrors_failures (d.sinks.flush st job.nowS ans.dataReply)
      unfold PassInv
      simp only [Daemon.close, SinkBooks.setTotals_state hend.active, hend.active, if_true]
      refine ⟨⟨hfailures, fun i => ?_, ⟨entries, job.now, hwalked, hclock, ?_, ?_⟩, rfl⟩, hnone⟩
      · cases i with
        | packets | bytes | flowsCreated | parsed | drops | dropsUnparsed => exact hcounted _
      · rw [← htallied.map]
      · rw [← htallied.active]
  | @measure raw k hstage hdevice =>
      unfold PassInv at h ⊢
      rw [hjob] at h
      simp only [hstage] at h
      obtain ⟨htaken, hraw⟩ := h
      refine ⟨htaken.later _ rfl rfl rfl, ?_⟩
      rw [hmeasured, hraw, Daemon.measuredBy, hjob, Option.map_some, hstage, hdevice]
  | @devices raw hstage hdevice =>
      unfold PassInv at h ⊢
      rw [hjob] at h
      simp only [hstage] at h
      obtain ⟨htaken, hraw⟩ := h
      have hset : d.sinks.metrics.setDevices (namedCounters d.agent.nameByIndex raw) =
          { d.sinks.metrics with state := { d.sinks.metrics.state with
            devCounters := namedCounters d.agent.nameByIndex raw } } := by
        rw [Metrics.setDevices, Metrics.gated, if_pos hbooks.active]
      have hnone : d.measuredBy (.advance ans) = [] := by
        rw [Daemon.measuredBy, hjob, Option.map_some, hstage, hdevice]
      refine ⟨htaken.later _ ?_ rfl rfl, ?_⟩
      · rw [hset]
      · simp only [hset, hmeasured, hraw, hnone, List.append_nil]

/-- An event of the pass; a link event or a timer has to wait for its end. -/
theorem PassInv.next {e : Event ncpu} (h : PassInv st d₁ during d)
    (hstate : d = during.foldl (Daemon.next st) d₁) {limit : UInt32} {handed : Nat}
    (hbooks : SinkBooks st limit handed d.sinks) (hlives : Lives st d e) (hjob : d.job ≠ none) :
    PassInv st d₁ (during ++ [e]) (d.next st e) := by
  have hstep := hlives.eventStep
  generalize d.next st e = d' at hstep ⊢
  cases hstep with
  | packet env hook skb => exact h.outside hstate rfl rfl rfl rfl rfl
  | kfree cpu now skb reason =>
      obtain ⟨-, hnames, hlisted⟩ := @kfree_devices _ _ d cpu now skb reason
      exact h.outside hstate (kfree_flows d cpu now skb reason).2.2 (kfree_sinks _ _ _ _)
        hnames hlisted rfl
  | evict keys => exact h.outside hstate rfl rfl rfl rfl rfl
  | advance hunder hpass => exact h.advance hstate hunder hbooks hpass
  | link _ _ hidle | timer _ _ hidle | meter _ hidle => exact absurd hidle hjob

/-- A pass begins with nothing read. -/
theorem passInv_begin (d : Daemon w ncpu) (nowS : UInt32) (monoMs : UInt64) :
    PassInv st (d.begin nowS monoMs) [] (d.begin nowS monoMs) := by
  refine passInv_sound rfl ⟨rfl, fun i hi => ?_⟩ rfl
  cases i <;> exact absurd (by decide) hi

end Step

/-! ## A whole pass -/

/-- The pass is under way, and the daemon survives the event. -/
def InPass (st : Setup) (d : Daemon w ncpu) (e : Event ncpu) : Prop := Lives st d e ∧ d.job.isSome

instance (st : Setup) (d : Daemon w ncpu) (e : Event ncpu) : Decidable (InPass st d e) :=
  inferInstanceAs (Decidable (_ ∧ _))

/-- **What a finished pass leaves in the metrics.** -/
theorem pass_run {st : Setup} {limit : UInt32} {d₀ d₁ d : Daemon w ncpu}
    {before during : List (Event ncpu)} (hbegin : PassInv st d₁ [] d₁)
    (hbooks : Books st limit d₀ before d₁) (hrun : Run (Daemon.next st) (InPass st) d₁ during d)
    (hend : d.job = none) :
    Books st limit d₀ (before ++ during) d ∧ Taken st d₁ during d ∧
      d.sinks.metrics.state.devCounters =
        namedCounters d.agent.nameByIndex (measured st d₁ during) := by
  have hpass : PassInv st d₁ during d := by
    clear hend
    induction hrun with
    | nil => exact hbegin
    | snoc hrun hok ih =>
        have hnow := hbooks.run (hrun.mono fun _ _ h => h.1)
        exact ih.next hrun.eq_foldl hnow.sinks hok.1 (Option.isSome_iff_ne_none.mp hok.2)
  unfold PassInv at hpass
  rw [hend] at hpass
  exact ⟨hbooks.run (hrun.mono fun _ _ h => h.1), hpass⟩

end Obserwrt
