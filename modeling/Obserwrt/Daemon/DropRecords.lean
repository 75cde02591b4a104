import Obserwrt.Daemon.Flows

/-!
# The drop records of the daemon

A drop on an attached device is counted in the drop map, taken out of it by a
batch call, and handed out behind the flow records of the pass.  `DropsOk` is
the ledger of the three places.
-/

namespace Obserwrt

open Lib Lifecycle

variable {w ncpu : Nat}

/-! ## What is counted -/

/-- The flow and the update of a drop on a device that the agent attached. -/
def Daemon.dropped (d : Daemon w ncpu) : Event ncpu → List (FlowKey × Bpf.FlowUpdate)
  | .kfree _ _ skb reason =>
      match d.agent.bpf.attached, skb.dev with
      | some attached, some ifindex =>
          if (attached.lookup ifindex).isNone then []
          else ((Bpf.dropTuple skb).map fun t =>
            ((Bpf.dropKey ifindex skb reason t).flow, t.update)).toList
      | _, _ => []
  | _ => []

/-- The drops of a run on attached devices. -/
def droppedSum (st : Setup) (c : Counter) (k : FlowKey) (d₀ : Daemon w ncpu)
    (events : List (Event ncpu)) : Nat :=
  updateSum c k (outputs (Daemon.next st) Daemon.dropped d₀ events)

theorem droppedSum_concat (st : Setup) (c : Counter) (k : FlowKey) (d₀ : Daemon w ncpu)
    (events : List (Event ncpu)) (e : Event ncpu) :
    droppedSum st c k d₀ (events ++ [e]) = droppedSum st c k d₀ events +
      updateSum c k ((events.foldl (Daemon.next st) d₀).dropped e) := by
  rw [droppedSum, outputs_concat, updateSum_append]
  rfl

/-! ## Where a drop can be -/

/-- What an entry of the drop map adds to a flow. -/
def dropCount (c : Counter) (k : FlowKey) (dk : Bpf.DropKey) (v : FlowVal) : Nat :=
  if dk.flow = k then (c.ofVal v).toNat else 0

/-- What the drop map holds for a flow. -/
def waiting (c : Counter) (k : FlowKey) (drops : Bpf.DropTable) : Nat :=
  Store.total (dropCount c k) drops

/-- What the pass took out of the drop map and did not hand out yet. -/
def Job.held (job : Job) : List (Bpf.DropKey × FlowVal) :=
  match job.stage with
  | .draining walk => walk.entries
  | .dropping left => left
  | _ => []

/-- What is held by the pass under way, if there is one. -/
def Daemon.held (d : Daemon w ncpu) : List (Bpf.DropKey × FlowVal) := d.job.elim [] Job.held

/-- What a list of entries adds to a flow. -/
def entrySum (c : Counter) (k : FlowKey) (entries : List (Bpf.DropKey × FlowVal)) : Nat :=
  (entries.map fun e => dropCount c k e.1 e.2).sum

theorem entrySum_append (c : Counter) (k : FlowKey) (xs ys : List (Bpf.DropKey × FlowVal)) :
    entrySum c k (xs ++ ys) = entrySum c k xs + entrySum c k ys := by
  rw [entrySum, List.map_append, List.sum_append]
  rfl

theorem reportSum_dropReport (reasons : Agent.DropReasons) (c : Counter) (k : FlowKey)
    (r : Bpf.DropKey × FlowVal) :
    reportSum true c k [dropReport reasons r] = entrySum c k [r] := by
  show tally Syslog.Report.key c.ofReport k [dropReport reasons r] = _
  rw [tally_singleton, entrySum, List.map_singleton, List.sum_singleton]
  rfl

/-- Every counter of the drop map is below `2 ^ 63`. -/
def DropsBelow (drops : Bpf.DropTable) : Prop :=
  ∀ e ∈ Store.pairs drops, ∀ c : Counter, (c.ofVal e.2).toNat < 2 ^ 63

instance (drops : Bpf.DropTable) : Decidable (DropsBelow drops) :=
  decidable_of_iff (∀ e ∈ Store.pairs drops, e.2.packets.toNat < 2 ^ 63 ∧ e.2.bytes.toNat < 2 ^ 63)
    ⟨fun h e he c => c.casesOn (h e he).1 (h e he).2,
      fun h e he => ⟨h e he .packets, h e he .bytes⟩⟩

/-- Below `2 ^ 63` a drop adds its counters without wrapping. -/
theorem waiting_recordDrop {drops : Bpf.DropTable} (hbelow : DropsBelow drops) (dk : Bpf.DropKey)
    (u : Bpf.FlowUpdate) (now : UInt64) (c : Counter) (k : FlowKey) :
    waiting c k (Bpf.recordDrop dk u now drops) =
      waiting c k drops + updateSum c k [(dk.flow, u)] := by
  rw [updateSum_singleton, waiting, waiting, Bpf.recordDrop]
  cases hlookup : drops.lookup dk with
  | none =>
      rw [Option.elim_none, Store.total_insert_of_lookup_none _ hlookup, Nat.add_comm]
      simp [dropCount]
  | some v =>
      have hv : (c.ofVal v).toNat < 2 ^ 63 := hbelow (dk, v) (Store.mem_pairs.mpr hlookup) c
      have hu := (c.ofUpdate u).toNat_lt
      have hnew : dropCount c k dk (u.apply now v) =
          dropCount c k dk v + if dk.flow = k then (c.ofUpdate u).toNat else 0 := by
        unfold dropCount
        split
        · rw [Counter.ofVal_apply, UInt64.toNat_add, UInt32.toNat_toUInt64,
            Nat.mod_eq_of_lt (by omega)]
        · rfl
      have htotal := Store.total_insert_of_lookup_some (dropCount c k) (u.apply now v) hlookup
      rw [hnew] at htotal
      rw [Option.elim_some]
      omega

/-! ## The ledger -/

/-- What was handed out (`told`), what the pass holds and what waits is what was
dropped. -/
structure DropsOk (told dropped : Counter → FlowKey → Nat) (d : Daemon w ncpu) : Prop where
  below : DropsBelow d.drops
  balance : ∀ c k, told c k + entrySum c k d.held + waiting c k d.drops = dropped c k

namespace DropsOk

variable {st : Setup} {told dropped : Counter → FlowKey → Nat} {d d' : Daemon w ncpu} {job : Job}

/-- Nothing that the ledger speaks about changes. -/
theorem congr (h : DropsOk told dropped d) (hheld : d'.held = d.held)
    (hdrops : d'.drops = d.drops) : DropsOk told dropped d' := by
  refine ⟨hdrops ▸ h.below, fun c k => ?_⟩
  rw [hheld, hdrops]
  exact h.balance c k

/-- A batch call moves entries from the map into the hands of the pass. -/
theorem drained {ans : Answer} {walk : Agent.Walk Bpf.DropKey FlowVal} (h : DropsOk told dropped d)
    (hheld : d.held = walk.entries)
    (hheld' : d'.held = (walk.turn st.dropLayout true ans.fault d.drops).1.entries)
    (hdrops : d'.drops =
      if ans.fault then d.drops else (walk.reply st.dropLayout true d.drops).after) :
    DropsOk told dropped d' := by
  obtain ⟨taken, hnodup, hcurrent, hentries, hafter⟩ :=
    walk.turn_takes st.dropLayout true ans.fault d.drops
  rw [hafter, if_pos rfl] at hdrops
  refine ⟨?_, fun c k => ?_⟩
  · rw [hdrops]
    intro e he
    have hlookup := Store.mem_pairs.mp he
    rw [Store.lookup_eraseAll] at hlookup
    split at hlookup
    · cases hlookup
    · exact h.below e (Store.mem_pairs.mpr hlookup)
  · have hbalance := h.balance c k
    have htotal : waiting c k d.drops = entrySum c k taken + waiting c k d'.drops := by
      rw [hdrops]
      exact Store.total_eraseAll (dropCount c k) hnodup hcurrent
    rw [hheld', hentries, entrySum_append]
    rw [hheld] at hbalance
    omega

/-- An operation of a pass, with the records it hands out. -/
theorem advance {ans : Answer} (h : DropsOk told dropped d) (hjob : d.job = some job)
    (hstep : PassStep st ans job d d') :
    DropsOk (fun c k => told c k + reportSum true c k (d.due st job)) dropped d' := by
  have hheld : d.held = job.held := by rw [Daemon.held, hjob, Option.elim_some]
  have hsilent : (∀ c k, reportSum true c k (d.due st job) = 0) → DropsOk told dropped d' →
      DropsOk (fun c k => told c k + reportSum true c k (d.due st job)) dropped d' := by
    intro hnone hnext
    simp only [hnone]
    exact hnext
  cases hstep with
  | count hstage | reset hstage | walk hstage hturn | snapshot hstage hturn | delete hstage
  | measure hstage hdevice | devices hstage hdevice =>
      refine hsilent (fun c k => by rw [Daemon.due, hstage]; rfl) (h.congr ?_ rfl)
      rw [hheld, Job.held, hstage]
      rfl
  | visit hstage hiterate hall =>
      refine hsilent (fun c k => ?_) (h.congr ?_ rfl)
      · simp only [Daemon.due, hstage, hiterate, Option.elim_some]
        exact (reportSum_flowReport c k _).2
      · rw [hheld, Job.held, hstage]
        -- a visit goes on with the next one, or with a deletion
        obtain ⟨key, -, -, -, rfl | rfl⟩ := iterate_cases hiterate
        · rfl
        · rfl
  | prune hstage hiterate =>
      refine hsilent (fun c k => ?_) (h.congr ?_ rfl)
      · simp only [Daemon.due, hstage, hiterate, Option.elim_none]
        rfl
      · rw [hheld, Job.held, hstage]
        simp only [Daemon.held, Daemon.prune, Option.elim_some, Job.held]
        by_cases htracer : d.agent.bpf.attached.isSome = true
        · rw [if_pos htracer]
          rfl
        · rw [if_neg htracer]
  | drain hstage hturn =>
      refine hsilent (fun c k => by rw [Daemon.due, hstage]; rfl) (h.drained ?_ ?_ rfl)
      · rw [hheld, Job.held, hstage]
      · rw [hturn]
        rfl
  | drained hstage hturn =>
      refine hsilent (fun c k => by rw [Daemon.due, hstage]; rfl) (h.drained ?_ ?_ rfl)
      · rw [hheld, Job.held, hstage]
      · rw [hturn]
        rfl
  | drop hstage hall =>
      rename_i r left sinks
      have hdue : d.due st job = [dropReport st.reasons r] := by rw [Daemon.due, hstage]
      refine ⟨h.below, fun c k => ?_⟩
      have hbalance := h.balance c k
      have hsplit : entrySum c k (r :: left) = entrySum c k [r] + entrySum c k left :=
        entrySum_append c k [r] left
      rw [hheld, Job.held, hstage] at hbalance
      rw [hdue, reportSum_dropReport]
      show _ + entrySum c k left + waiting c k d.drops = _
      simp only [hsplit] at hbalance
      omega
  | close hstage =>
      refine hsilent (fun c k => by rw [Daemon.due, hstage]; rfl) (h.congr ?_ rfl)
      rw [hheld, Job.held, hstage, Daemon.held, Daemon.close]
      split
      · rfl
      · rfl

end DropsOk

/-! ## One event -/

/-- What the event does to the drops is in order: the drop map evicts nothing, and no
counter reaches `2 ^ 63`. -/
def DropsKept (st : Setup) (d : Daemon w ncpu) (e : Event ncpu) : Prop :=
  match e with
  | .kfree .. => DropsBelow (d.next st e).drops
  | .evict keys => keys = []
  | _ => True

instance (st : Setup) (d : Daemon w ncpu) (e : Event ncpu) : Decidable (DropsKept st d e) :=
  match e with
  | .packet .. => inferInstanceAs (Decidable True)
  | .kfree .. => inferInstanceAs (Decidable (DropsBelow _))
  | .evict keys => inferInstanceAs (Decidable (keys = []))
  | .link .. => inferInstanceAs (Decidable True)
  | .timer .. => inferInstanceAs (Decidable True)
  | .advance _ => inferInstanceAs (Decidable True)
  | .meter _ => inferInstanceAs (Decidable True)

/-- The tracer records the drop, if there is one. -/
theorem kfree_drops (d : Daemon w ncpu) (cpu : Fin ncpu) (now : UInt64) (skb : Bpf.TracedSkb)
    (reason : UInt32) :
    (d.dropped (.kfree cpu now skb reason) = [] ∧
        (d.kfree cpu now skb reason).drops = d.drops) ∨
      ∃ dk u, d.dropped (.kfree cpu now skb reason) = [(dk.flow, u)] ∧
        (d.kfree cpu now skb reason).drops = Bpf.recordDrop dk u now d.drops := by
  simp only [Daemon.kfree, Daemon.dropped, Bpf.kfreeSkb]
  cases hattached : d.agent.bpf.attached with
  | none => exact Or.inl ⟨rfl, rfl⟩
  | some attached =>
      cases hdev : skb.dev with
      | none => exact Or.inl ⟨rfl, rfl⟩
      | some ifindex =>
          by_cases hmark : (attached.lookup ifindex).isNone = true
          · simp only [hmark, if_true]
            exact Or.inl ⟨trivial, trivial⟩
          · simp only [hmark]
            cases htuple : Bpf.dropTuple skb with
            | none => exact Or.inl ⟨rfl, rfl⟩
            | some t => exact Or.inr ⟨_, _, rfl, rfl⟩

/-- An event keeps the balance. -/
theorem DropsOk.next {st : Setup} {told dropped : Counter → FlowKey → Nat} {d : Daemon w ncpu}
    {e : Event ncpu} (h : DropsOk told dropped d) (hlives : Lives st d e)
    (hkept : DropsKept st d e) :
    DropsOk (fun c k => told c k + reportSum true c k (reportsOf st d e))
      (fun c k => dropped c k + updateSum c k (d.dropped e)) (d.next st e) := by
  have hstep := hlives.eventStep
  generalize hnext : d.next st e = d' at hstep ⊢
  cases hstep with
  | packet env hook skb => exact h.congr rfl rfl
  | kfree cpu now skb reason =>
      simp only [DropsKept, hnext] at hkept
      have hheld : (d.kfree cpu now skb reason).held = d.held := by
        rw [Daemon.held, (kfree_flows d cpu now skb reason).2.2]
        rfl
      rcases kfree_drops d cpu now skb reason with ⟨hnone, hdrops⟩ | ⟨dk, u, hone, hdrops⟩
      · rw [hnone]
        exact h.congr hheld hdrops
      · refine ⟨hkept, fun c k => ?_⟩
        have hbalance := h.balance c k
        have hadded := waiting_recordDrop h.below dk u now c k
        rw [hheld, hdrops, hone]
        show told c k + 0 + _ + _ = _
        omega
  | evict keys =>
      obtain rfl : keys = [] := hkept
      exact h.congr rfl rfl
  | link ev env hidle => exact h.congr rfl rfl
  | timer nowS monoMs hidle =>
      refine h.congr ?_ rfl
      rw [Daemon.held, Daemon.held, hidle]
      rfl
  | advance hjob hpass =>
      rw [reportsOf_advance st hjob]
      exact h.advance hjob hpass
  | meter ok hidle =>
      unfold Daemon.meter
      split
      · exact h.congr rfl rfl
      · exact h

/-- What was dropped on attached devices is what the drop records say and what waits. -/
theorem drops_run {st : Setup} {d₀ d : Daemon w ncpu} {events : List (Event ncpu)}
    (hstart : DropsOk (fun _ _ => 0) (fun _ _ => 0) d₀)
    (hrun : Run (Daemon.next st) (fun d e => Lives st d e ∧ DropsKept st d e) d₀ events d) :
    DropsOk (fun c k => reportSum true c k (reported st d₀ events))
      (fun c k => droppedSum st c k d₀ events) d := by
  induction hrun with
  | nil => exact hstart
  | snoc hrun hok ih =>
      have hnext := ih.next hok.1 hok.2
      simp only [reported_concat, reportSum_append, droppedSum_concat, ← hrun.eq_foldl]
      exact hnext

end Obserwrt
