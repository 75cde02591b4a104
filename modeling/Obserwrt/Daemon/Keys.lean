import Obserwrt.Bpf.Accounting
import Obserwrt.Daemon.Pass
import Obserwrt.Lifecycle.Pass

/-!
# The keys of the daemon's maps

Every key in the flow map and in the drop map was built from a packet, by the
parser of the TC programs or by that of the tracer.  So it names a direction
and a family that fits its addresses, in every state the daemon reaches; and so
do the keys that a pass has read, since its batch calls hand over entries that
are current at the call.
-/

namespace Obserwrt

open Lib

/-- What a key built from a packet satisfies. -/
structure KeyOk (k : FlowKey) : Prop where
  direction : k.direction = 0 ∨ k.direction = 1
  family : (k.family = 4 ∧ Ipfix.IsMapped k.src ∧ Ipfix.IsMapped k.dst) ∨ k.family = 6
  reserved : k.reserved = 0

namespace Bpf

theorem isMapped_ip4ToIn6 (data : Bytes) (p : Nat) : Ipfix.IsMapped (ip4ToIn6 data p) :=
  rfl

theorem direction_code (d : Direction) : d.code = 0 ∨ d.code = 1 := by
  cases d with
  | ingress => exact Or.inl rfl
  | egress => exact Or.inr rfl

theorem keyOk_flowKey {eth : Bool} {skb : SkBuff} {p : Parsed} (d : Direction)
    (hparse : parse eth skb.data = some p) : KeyOk (flowKey skb d p) := by
  have hinfo := (parse_stages hparse).2.1
  refine ⟨direction_code d, ?_, rfl⟩
  rcases (parseIp_family hinfo).2 with hfamily | hfamily
  · left
    refine ⟨hfamily, ?_, ?_⟩
    · simp only [flowKey, hfamily, if_true]
      exact isMapped_ip4ToIn6 _ _
    · simp only [flowKey, hfamily, if_true]
      exact isMapped_ip4ToIn6 _ _
  · exact Or.inr hfamily

theorem dropParseIp_ok {mem : Memory} {l3 : Nat} {proto : UInt16} {t : DropTuple} {ihl : Nat}
    {haveL4 : Bool} (hparse : dropParseIp mem l3 proto = some (t, ihl, haveL4)) :
    (t.family = 4 ∧ Ipfix.IsMapped t.src ∧ Ipfix.IsMapped t.dst) ∨ t.family = 6 := by
  unfold dropParseIp at hparse
  split at hparse
  · simp only [Option.bind_eq_bind, Option.bind_eq_some_iff] at hparse
    obtain ⟨hdr, -, hparse⟩ := hparse
    split at hparse
    · cases hparse
    · split at hparse
      · cases hparse
      · cases hparse
        exact Or.inl ⟨rfl, rfl, rfl⟩
  · split at hparse
    · simp only [Option.bind_eq_bind, Option.bind_eq_some_iff] at hparse
      obtain ⟨hdr, -, hparse⟩ := hparse
      split at hparse
      · cases hparse
      · cases hparse
        exact Or.inr rfl
    · cases hparse

/-- The transport header decides neither the family nor the addresses. -/
theorem dropParseL4_frame (l4 : Bytes) (t : DropTuple) :
    (dropParseL4 l4 t).family = t.family ∧ (dropParseL4 l4 t).src = t.src ∧
      (dropParseL4 l4 t).dst = t.dst := by
  unfold dropParseL4
  split <;> exact ⟨rfl, rfl, rfl⟩

theorem dropTuple_ok {skb : TracedSkb} {t : DropTuple} (htuple : dropTuple skb = some t) :
    (t.family = 4 ∧ Ipfix.IsMapped t.src ∧ Ipfix.IsMapped t.dst) ∨ t.family = 6 := by
  unfold dropTuple at htuple
  split at htuple
  · cases htuple
  · obtain ⟨hparse, -⟩ := Option.filter_eq_some_iff.mp htuple
    obtain ⟨mem, -, hparse⟩ := Option.bind_eq_some_iff.mp hparse
    obtain ⟨⟨t₀, ihl, haveL4⟩, hip, ht⟩ := Option.map_eq_some_iff.mp hparse
    have hok := dropParseIp_ok hip
    simp only at ht
    split at ht
    · cases hread : probeRead mem (skb.networkHeader.toNat + ihl) 14 with
      | none =>
          rw [hread, Option.elim_none] at ht
          rw [← ht]
          exact hok
      | some l4 =>
          rw [hread, Option.elim_some] at ht
          obtain ⟨hfamily, hsrc, hdst⟩ := dropParseL4_frame l4 t₀
          rw [← ht, hfamily, hsrc, hdst]
          exact hok
    · rw [← ht]
      exact hok

theorem keyOk_dropKey {ifindex : UInt32} {skb : TracedSkb} {t : DropTuple} (reason : UInt32)
    (htuple : dropTuple skb = some t) : KeyOk (dropKey ifindex skb reason t).flow := by
  refine ⟨?_, dropTuple_ok htuple, rfl⟩
  simp only [dropKey]
  split
  · exact direction_code .ingress
  · exact direction_code .egress

variable {ncpu : Nat}

/-- A program run adds at most the key of its packet. -/
theorem onKeys_observe (env : Env ncpu) (hook : Hook) (skb : SkBuff) {m : Maps ncpu}
    (h : Store.OnKeys KeyOk m.flows) : Store.OnKeys KeyOk (observe env hook skb m).flows := by
  have hseen := countSeen_flows m env hook skb
  unfold observe
  cases hparse : parse hook.eth skb.data with
  | none =>
      show Store.OnKeys KeyOk (countSeen env hook skb m).flows
      rw [hseen]
      exact h
  | some p =>
      have hkey := keyOk_flowKey hook.direction hparse
      have hflows : (statAdd env.cpu .parsed (segsOf skb).toUInt64
          (countSeen env hook skb m)).flows = m.flows := hseen
      simp only [accountFlow, hflows]
      split
      · exact h.insert hkey _
      · split
        · exact (h.eraseAll env.evicted).insert hkey _
        · show Store.OnKeys KeyOk (countSeen env hook skb m).flows
          rw [hseen]
          exact h

end Bpf

/-! ## Link events -/

namespace Agent

variable {ncpu : Nat}

theorem attach_flows (ifindex : UInt32) (ethernet : Bool) (env : AttachEnv) (b : BpfState ncpu) :
    (attach ifindex ethernet env b).2.maps.flows = b.maps.flows := by
  have hfinish : ∀ b' : BpfState ncpu,
      (finishAttach ifindex env b').2.maps.flows = b'.maps.flows := by
    intro b'
    simp only [finishAttach, markAttached_spec]
  unfold attach
  simp only
  repeat' split
  all_goals first
    | rfl
    | exact hfinish _

theorem detach_flows (ifindex : UInt32) (b : BpfState ncpu) :
    (detach ifindex b).maps.flows = b.maps.flows := by
  unfold detach
  split <;> rfl

/-- A link event adds no flow. -/
theorem onLink_flows_sub (cfg : DeviceConfig) (env : AttachEnv) (ev : LinkEvent)
    (s : AgentState ncpu) (k : FlowKey) (v : FlowVal)
    (hlookup : (onLink cfg env ev s).2.bpf.maps.flows.lookup k = some v) :
    s.bpf.maps.flows.lookup k = some v := by
  change (reconcileLink cfg env ev s).2.bpf.maps.flows.lookup k = some v at hlookup
  unfold reconcileLink at hlookup
  split at hlookup
  · split at hlookup
    · change ((detach ev.ifindex s.bpf).purge ev.ifindex).maps.flows.lookup k = some v at hlookup
      rw [purge_flows_lookup, detach_flows] at hlookup
      split at hlookup
      · exact absurd hlookup (by simp)
      · exact hlookup
    · simp only at hlookup
      split at hlookup
      · exact hlookup
      · exact hlookup
  · split at hlookup
    · have hflows := attach_flows ev.ifindex (linkIsEthernet ev.type) env s.bpf
      simp only at hlookup
      split at hlookup
      · rename_i hresult
        rw [hresult] at hflows
        rw [← hflows]
        exact hlookup
      · rename_i hresult
        rw [hresult] at hflows
        rw [← hflows]
        exact hlookup
    · exact hlookup

end Agent

/-! ## Every state of the daemon -/

variable {w ncpu : Nat}

/-- The flow keys that a stage of a pass holds. -/
def Stage.keys : Stage → List FlowKey
  | .walking walk => walk.entries.map Prod.fst
  | .draining walk => walk.entries.map fun e => e.1.flow
  | .dropping left => left.map fun e => e.1.flow
  | _ => []

/-- A pass holds keys built from packets. -/
structure Job.KeysOk (job : Job) : Prop where
  snapshot : ∀ k ∈ job.keys, KeyOk k
  stage : ∀ k ∈ job.stage.keys, KeyOk k

/-- The keys of both maps, and of the pass under way, are built from packets. -/
structure KeysOk (d : Daemon w ncpu) : Prop where
  flows : Store.OnKeys KeyOk d.flows
  drops : Store.OnKeys (fun k : Bpf.DropKey => KeyOk k.flow) d.drops
  job : ∀ job ∈ d.job, job.KeysOk

/-! ## One operation of a pass -/

section Advance

variable {st : Setup} {ans : Answer} {job : Job} {d d' : Daemon w ncpu}

/-- An iteration of the loop takes a key of the snapshot, and it leaves the map
as it is. -/
theorem iterate_cases {cfg : Lifecycle.Config} {flows : FlowTable} {last : Lifecycle.Tracker}
    {s : Lifecycle.RunState} {stage : Stage}
    (hiterate : job.iterate cfg flows last = some (s, stage)) :
    ∃ key ∈ job.keys, (∀ e ∈ s.exports, e.key = key) ∧ s.map.flows = flows ∧
      (stage = .visiting ∨ stage = .deleting key) := by
  unfold Job.iterate at hiterate
  simp only at hiterate
  split at hiterate
  · cases hiterate
  · rename_i key map hnext
    unfold Lifecycle.BpfFlowMap.nextKey at hnext
    split at hnext
    · cases hnext
    · rename_i key' hget
      obtain ⟨rfl, rfl⟩ := Prod.mk.inj (Option.some.inj hnext)
      refine ⟨key', List.mem_of_getElem? hget, ?_⟩
      split at hiterate
      · obtain ⟨rfl, rfl⟩ := Prod.mk.inj (Option.some.inj hiterate)
        exact ⟨by simp [Job.run], rfl, Or.inl rfl⟩
      · obtain ⟨rfl, rfl⟩ := Prod.mk.inj (Option.some.inj hiterate)
        refine ⟨?_, ?_, ?_⟩
        · intro e he
          rw [Lifecycle.visit_exports] at he
          exact Lifecycle.record_key _ _ (by simpa [Job.run] using he)
        · rw [Lifecycle.visit_map]
          rfl
        · split
          · exact Or.inr rfl
          · exact Or.inl rfl

/-- The records of an operation are about keys built from packets. -/
theorem due_keyOk (h : job.KeysOk) : ∀ r ∈ d.due st job, KeyOk r.key := by
  intro r hr
  unfold Daemon.due at hr
  cases hstage : job.stage with
  | visiting =>
      simp only [hstage] at hr
      cases hiterate : job.iterate st.lifecycle d.flows d.last with
      | none =>
          rw [hiterate] at hr
          exact absurd hr (by simp)
      | some p =>
          rw [hiterate, Option.elim_some] at hr
          obtain ⟨e, he, rfl⟩ := List.mem_map.mp hr
          obtain ⟨key, hkey, hexports, -⟩ := iterate_cases hiterate
          show KeyOk e.key
          rw [hexports e he]
          exact h.snapshot key hkey
  | dropping left =>
      have hleft := h.stage
      rw [hstage] at hleft
      cases left with
      | nil =>
          simp only [hstage] at hr
          exact absurd hr (by simp)
      | cons e left =>
          simp only [hstage, List.mem_singleton] at hr
          rw [hr]
          exact hleft e.1.flow (List.mem_map_of_mem List.mem_cons_self)
  | counting left => exact absurd (by simpa only [hstage] using hr) List.not_mem_nil
  | walking walk => exact absurd (by simpa only [hstage] using hr) List.not_mem_nil
  | deleting key => exact absurd (by simpa only [hstage] using hr) List.not_mem_nil
  | draining walk => exact absurd (by simpa only [hstage] using hr) List.not_mem_nil
  | measuring raw => exact absurd (by simpa only [hstage] using hr) List.not_mem_nil

/-- A batch call of either walk adds keys of current entries. -/
theorem turn_keys {K : Type} [DecidableEq K] (key : K → FlowKey) {m : Store K FlowVal}
    (hm : Store.OnKeys (fun k => KeyOk (key k)) m) {L : Layout K} {drain fault : Bool}
    {walk walk' : Agent.Walk K FlowVal} {result : Option Bool}
    (hold : ∀ e ∈ walk.entries, KeyOk (key e.1))
    (hturn : walk.turn L drain fault m = (walk', result)) :
    ∀ e ∈ walk'.entries, KeyOk (key e.1) := by
  obtain ⟨taken, -, hcurrent, hentries, -⟩ := walk.turn_takes L drain fault m
  rw [hturn] at hentries
  intro e he
  rw [hentries] at he
  rcases List.mem_append.mp he with he | he
  · exact hold e he
  · exact hm e.1 e.2 (hcurrent e he)

theorem keysOk_advance (h : KeysOk d) (hjob : job ∈ d.job)
    (hpass : PassStep st ans job d d') : KeysOk d' := by
  have hold := h.job job hjob
  have hstageKeys := hold.stage
  -- a drain leaves fewer keys
  have hdrops : ∀ walk : Agent.Walk Bpf.DropKey FlowVal,
      Store.OnKeys (fun k : Bpf.DropKey => KeyOk k.flow)
        (if ans.fault then d.drops else (walk.reply st.dropLayout true d.drops).after) := by
    intro walk
    obtain ⟨taken, -, -, -, hafter⟩ := walk.turn_takes st.dropLayout true ans.fault d.drops
    rw [hafter, if_pos rfl]
    exact h.drops.eraseAll _
  cases hpass with
  | count hstage =>
      refine ⟨h.flows, h.drops, ?_⟩
      rintro _ ⟨⟩
      exact ⟨hold.snapshot, by simp [Stage.keys]⟩
  | reset hstage =>
      refine ⟨h.flows, h.drops, ?_⟩
      rintro _ ⟨⟩
      exact ⟨hold.snapshot, by simp [Stage.keys, Agent.Walk.entries]⟩
  | walk hstage hturn =>
      rw [hstage] at hstageKeys
      have hkeys := turn_keys id h.flows
        (fun e he => hstageKeys e.1 (List.mem_map_of_mem he)) hturn
      refine ⟨h.flows, h.drops, ?_⟩
      rintro _ ⟨⟩
      exact ⟨hold.snapshot, List.forall_mem_map.mpr hkeys⟩
  | snapshot hstage hturn =>
      rw [hstage] at hstageKeys
      have hkeys := turn_keys id h.flows
        (fun e he => hstageKeys e.1 (List.mem_map_of_mem he)) hturn
      refine ⟨h.flows, h.drops, ?_⟩
      rintro _ ⟨⟩
      exact ⟨List.forall_mem_map.mpr hkeys, by simp [Stage.keys]⟩
  | visit hstage hiterate hall =>
      obtain ⟨key, -, -, -, hnext⟩ := iterate_cases hiterate
      refine ⟨h.flows, h.drops, ?_⟩
      rintro _ ⟨⟩
      refine ⟨hold.snapshot, ?_⟩
      rcases hnext with rfl | rfl <;> simp [Stage.keys]
  | prune hstage hiterate =>
      refine ⟨h.flows, h.drops, ?_⟩
      rintro _ ⟨⟩
      refine ⟨hold.snapshot, ?_⟩
      show ∀ k ∈ Stage.keys (if d.agent.bpf.attached.isSome then _ else _), KeyOk k
      split <;> simp [Stage.keys, Agent.Walk.entries]
  | delete hstage =>
      refine ⟨h.flows.eraseAll [_], h.drops, ?_⟩
      rintro _ ⟨⟩
      exact ⟨hold.snapshot, by simp [Stage.keys]⟩
  | drain hstage hturn =>
      rw [hstage] at hstageKeys
      have hkeys := turn_keys Bpf.DropKey.flow h.drops
        (fun e he => hstageKeys e.1.flow (List.mem_map_of_mem he)) hturn
      refine ⟨h.flows, hdrops _, ?_⟩
      rintro _ ⟨⟩
      exact ⟨hold.snapshot, List.forall_mem_map.mpr hkeys⟩
  | drained hstage hturn =>
      rw [hstage] at hstageKeys
      have hkeys := turn_keys Bpf.DropKey.flow h.drops
        (fun e he => hstageKeys e.1.flow (List.mem_map_of_mem he)) hturn
      refine ⟨h.flows, hdrops _, ?_⟩
      rintro _ ⟨⟩
      exact ⟨hold.snapshot, List.forall_mem_map.mpr hkeys⟩
  | drop hstage hall =>
      rw [hstage] at hstageKeys
      refine ⟨h.flows, h.drops, ?_⟩
      rintro _ ⟨⟩
      exact ⟨hold.snapshot, fun k hk => hstageKeys k (List.mem_cons_of_mem _ hk)⟩
  | close hstage =>
      refine ⟨h.flows, h.drops, ?_⟩
      intro job' hjob'
      simp only [Daemon.close, Option.mem_def] at hjob'
      split at hjob'
      · obtain rfl := Option.some.inj hjob'
        exact ⟨hold.snapshot, by simp [Stage.keys]⟩
      · cases hjob'
  | measure hstage hdevice =>
      refine ⟨h.flows, h.drops, ?_⟩
      rintro _ ⟨⟩
      exact ⟨hold.snapshot, by simp [Stage.keys]⟩
  | devices hstage hdevice =>
      refine ⟨h.flows, h.drops, ?_⟩
      rintro _ ⟨⟩

end Advance

/-! ## One event -/

theorem keysOk_kfree {d : Daemon w ncpu} (h : KeysOk d) (cpu : Fin ncpu) (now : UInt64)
    (skb : Bpf.TracedSkb) (reason : UInt32) : KeysOk (d.kfree cpu now skb reason) := by
  unfold Daemon.kfree
  split
  · exact h
  · unfold Bpf.kfreeSkb
    split
    · exact ⟨h.flows, h.drops, h.job⟩
    · split
      · exact ⟨h.flows, h.drops, h.job⟩
      · simp only
        split
        · exact ⟨h.flows, h.drops, h.job⟩
        · rename_i htuple
          exact ⟨h.flows, h.drops.insert (Bpf.keyOk_dropKey reason htuple) _, h.job⟩

theorem keysOk_step {st : Setup} {d d' : Daemon w ncpu} {e : Event ncpu} (h : KeysOk d)
    (hstep : d.step st e = some d') : KeysOk d' := by
  cases eventStep hstep with
  | packet env hook skb =>
      exact ⟨Bpf.onKeys_observe env hook skb h.flows, h.drops, h.job⟩
  | kfree cpu now skb reason => exact keysOk_kfree h cpu now skb reason
  | evict keys => exact ⟨h.flows, h.drops.eraseAll keys, h.job⟩
  | link ev env hidle =>
      exact ⟨h.flows.anti (Agent.onLink_flows_sub st.devices env ev d.agent), h.drops, h.job⟩
  | timer nowS monoMs hidle =>
      refine ⟨h.flows, h.drops, ?_⟩
      rintro job' ⟨⟩
      exact ⟨by simp, by simp [Stage.keys]⟩
  | advance hjob hpass => exact keysOk_advance h hjob hpass
  | meter ok hidle =>
      unfold Daemon.meter
      split <;> exact ⟨h.flows, h.drops, h.job⟩

end Obserwrt
