import Obserwrt.Daemon.Flows

/-!
# How far the exports lag

A pass exports what it read, not what the flow map holds when it ends.  `Lags`
bounds the difference in every state of a pass by what was accounted since the
pass began, for each flow alone: the bucket of the flow was read once in
between, and what was read is what the tracker gets.
-/

namespace Obserwrt

open Lib Lifecycle

variable {w ncpu : Nat}

/-! ## What is left behind -/

/-- The pass under way has read the bucket of the flow. -/
def Daemon.Passed (st : Setup) (d : Daemon w ncpu) (k : FlowKey) : Prop :=
  match d.job.map Job.stage with
  | some (.counting _) => False
  | some (.walking walk) => st.flowLayout.bucketOf k < walk.cursor
  | _ => True

/-- A counter of a flow is at most `since` ahead of what was exported, or of an
entry that was read and will be. -/
def Recent (c : Counter) (k : FlowKey) (since : Nat) (flows : FlowTable) (last : Tracker)
    (unvisited : List (FlowKey × FlowVal)) : Prop :=
  c.entry (flows.lookup k) ≤ c.tracked (last.lookup k) + since ∨
    ∃ v, (k, v) ∈ unvisited ∧ c.entry (flows.lookup k) ≤ (c.ofVal v).toNat + since

/-- The pass under way, or the one that ended, leaves at most `since` of a flow
behind.  A flow exported as expired is left out until it is deleted. -/
def Lags (st : Setup) (c : Counter) (k : FlowKey) (since : Nat) (d : Daemon w ncpu) : Prop :=
  d.Passed st k → d.job.bind Job.gone ≠ some k →
    Recent c k since d.flows d.last (d.job.elim [] Job.unvisited)

section Lag

variable {st : Setup} {c : Counter} {k : FlowKey} {since : Nat} {flows : FlowTable}
  {last : Tracker} {unvisited : List (FlowKey × FlowVal)}

theorem Recent.packet (h : Recent c k since flows last unvisited) (hbelow : Below63 flows)
    (key : FlowKey) (u : Bpf.FlowUpdate) (now : UInt64) :
    Recent c k (since + if key = k then (c.ofUpdate u).toNat else 0)
      (Bpf.account key u now flows) last unvisited := by
  have hentry := entry_account key u now hbelow c k
  rcases h with h | ⟨v, hmem, h⟩
  · exact Or.inl (by omega)
  · exact Or.inr ⟨v, hmem, by omega⟩

/-- What the flow has now was read as it is. -/
theorem recent_turn {walk : Agent.Walk FlowKey FlowVal} {next : Nat}
    (hlags : st.flowLayout.bucketOf k < walk.cursor → Recent c k since flows last walk.entries)
    (hbelow : st.flowLayout.bucketOf k < next) :
    Recent c k since flows last
      (walk.entries ++ st.flowLayout.span flows walk.cursor next) := by
  by_cases hold : st.flowLayout.bucketOf k < walk.cursor
  · rcases hlags hold with h | ⟨v, hmem, h⟩
    · exact Or.inl h
    · exact Or.inr ⟨v, List.mem_append_left _ hmem, h⟩
  · cases hlookup : flows.lookup k with
    | none => exact Or.inl (by rw [hlookup, Counter.entry_none]; exact Nat.zero_le _)
    | some v =>
        refine Or.inr ⟨v, List.mem_append_right _ ?_, ?_⟩
        · exact Layout.mem_span.mpr ⟨Store.mem_pairs.mpr hlookup, Nat.le_of_not_lt hold, hbelow⟩
        · rw [hlookup, Counter.entry_some]
          exact Nat.le_add_right _ _

/-- A visit exports its entry, and leaves the other flows as they are. -/
theorem Recent.visit {cfg : Lifecycle.Config} {history : List RaceStep} {s : Race} {now : UInt64}
    {key : FlowKey} {v : FlowVal} {entries : List (FlowKey × FlowVal)}
    (hinv : RaceInv cfg history s) (hremaining : s.remaining = (key, v) :: entries)
    (h : Recent c k since s.run.map.flows s.run.last s.remaining)
    (hspared : ¬(k = key ∧ isExpired cfg now key v = true)) :
    Recent c k since s.run.map.flows (s.visited cfg now key v).run.last entries := by
  have hnodup := hinv.nodup
  rw [hremaining, List.map_cons, List.nodup_cons] at hnodup
  rw [Recent, visited_last_lookup]
  by_cases hk : k = key
  · subst hk
    have hexp : isExpired cfg now k v = false := by simpa using hspared
    rw [if_pos rfl, hexp]
    left
    rw [if_neg Bool.false_ne_true, Counter.tracked_some, Counter.ofLast_of]
    rcases h with h | ⟨v', hmem, h⟩
    · -- the tracker moves on to what the pass has read
      obtain ⟨live, -, hle⟩ := hinv.ahead k v (by simp [hremaining])
      have htracked := tracked_le_of_forall c (hle c).2
      omega
    · rw [hremaining] at hmem
      rcases List.mem_cons.mp hmem with hsame | hmem
      · obtain ⟨-, rfl⟩ := Prod.mk.inj hsame
        exact h
      · exact absurd (List.mem_map.mpr ⟨_, hmem, rfl⟩) hnodup.1
  · rw [if_neg hk]
    rcases h with h | ⟨v', hmem, h⟩
    · exact Or.inl h
    · rw [hremaining] at hmem
      rcases List.mem_cons.mp hmem with hsame | hmem
      · exact absurd (Prod.mk.inj hsame).1 hk
      · exact Or.inr ⟨v', hmem, h⟩

end Lag

/-- The visits are over. -/
def Stage.Done : Stage → Prop
  | .draining _ | .dropping _ | .measuring _ => True
  | _ => False

section Lags

variable {st : Setup} {c : Counter} {k : FlowKey} {since : Nat} {d d' : Daemon w ncpu}

theorem lags_done (hdone : ∀ job ∈ d.job, job.stage.Done) :
    Lags st c k since d ↔ c.entry (d.flows.lookup k) ≤ c.tracked (d.last.lookup k) + since := by
  have hthere : d.Passed st k ∧ d.job.bind Job.gone = none ∧ d.job.elim [] Job.unvisited = [] := by
    unfold Daemon.Passed
    cases hjob : d.job with
    | none => exact ⟨trivial, rfl, rfl⟩
    | some job =>
        have hstage := hdone job hjob
        simp only [Option.map_some, Option.bind_some, Option.elim_some, Job.gone, Job.unvisited]
        cases hcase : job.stage with
        | draining | dropping | measuring => exact ⟨trivial, rfl, rfl⟩
        | counting | walking | visiting | deleting =>
            rw [hcase] at hstage
            exact hstage.elim
  obtain ⟨hpassed, hgone, hnone⟩ := hthere
  rw [Lags, hgone, hnone, Recent]
  constructor
  · intro hlags
    rcases hlags hpassed (by simp) with h | ⟨v, hmem, -⟩
    · exact h
    · exact absurd hmem List.not_mem_nil
  · exact fun h _ _ => Or.inl h

/-- From one state behind the visits to another one. -/
theorem Lags.done (h : Lags st c k since d) (hdone : ∀ job ∈ d.job, job.stage.Done)
    (hdone' : ∀ job ∈ d'.job, job.stage.Done) (hflows : d'.flows.lookup k = d.flows.lookup k)
    (hlast : d'.last = d.last) : Lags st c k since d' := by
  rw [lags_done hdone', hflows, hlast]
  exact (lags_done hdone).mp h

/-- An operation of a pass. -/
theorem Lags.advance {told seen : Counter → FlowKey → Nat} {job : Job} {ans : Answer}
    (hlags : Lags st c k since d) (h : FlowsOk st told seen d) (hjob : d.job = some job)
    (hstep : PassStep st ans job d d') (hread : d.walking = true → ans.fault = false) :
    Lags st c k since d' := by
  have hwalking : ∀ walk, job.stage = .walking walk → ans.fault = false := by
    intro walk hstage
    refine hread ?_
    rw [Daemon.walking, hjob, Option.map_some, hstage]
  have hdone : job.stage.Done → ∀ job' ∈ d.job, job'.stage.Done := by
    intro hstage job' hmem
    obtain rfl : job = job' := Option.some.inj (hjob.symm.trans hmem)
    exact hstage
  -- before the loop: what was read of the flow is what the map has
  have hturned : ∀ walk next, job.stage = .walking walk → st.flowLayout.bucketOf k < next →
      Recent c k since d.flows d.last
        (walk.entries ++ st.flowLayout.span d.flows walk.cursor next) := by
    intro walk next hstage hbelow
    refine recent_turn (fun hold => ?_) hbelow
    simp only [Lags, Daemon.Passed, hjob, Option.map_some, Option.bind_some, Option.elim_some,
      Job.gone, Job.unvisited, hstage] at hlags
    exact hlags hold (by simp)
  -- in the loop
  have hvisiting : ∀ log, job.stage = .visiting →
      Recent c k since d.flows d.last (d.race log).remaining := by
    intro log hstage
    rw [race_visiting log hjob hstage]
    simp only [Lags, Daemon.Passed, hjob, Option.map_some, Option.bind_some, Option.elim_some,
      Job.gone, Job.unvisited, hstage] at hlags
    exact hlags trivial (by simp)
  cases hstep with
  | count hstage => exact fun hpassed => hpassed.elim
  | reset hstage => exact fun hpassed => absurd hpassed (Nat.not_lt_zero _)
  | walk hstage hturn =>
      rw [hwalking _ hstage] at hturn
      obtain ⟨next, -, hentries, -, hresult⟩ := (h.reading job hjob _ hstage).turn h.tracker hturn
      intro hpassed _
      rcases hresult with ⟨-, hcursor⟩ | ⟨hsome, -⟩
      · show Recent c k since d.flows d.last (Agent.Walk.entries _)
        rw [hentries]
        exact hturned _ _ hstage (hcursor ▸ hpassed)
      · cases hsome
  | snapshot hstage hturn =>
      rename_i walk walk' ok
      rw [hwalking _ hstage] at hturn
      obtain ⟨next, -, hentries, -, hresult⟩ := (h.reading job hjob _ hstage).turn h.tracker hturn
      intro _ _
      have hzip : (walk'.entries.map Prod.fst).zip (walk'.entries.map Prod.snd) =
          walk'.entries := by
        simpa using List.zip_unzip walk'.entries
      have hbuckets : next = st.flowLayout.buckets := by
        rcases hresult with ⟨hnone, -⟩ | ⟨-, hbuckets⟩
        · cases hnone
        · exact hbuckets
      simp only [Option.elim_some, Job.unvisited, List.drop_zero]
      rw [hzip, hentries]
      exact hturned _ _ hstage (hbuckets ▸ st.flowLayout.hlt k)
  | visit hstage hiterate hall =>
      obtain ⟨log, history, hinv, -, -⟩ := h.race
      have hrecent := hvisiting log hstage
      rw [race_visiting log hjob hstage] at hinv hrecent
      rw [iterate_eq _ _ _ hinv.aligned] at hiterate
      cases hremaining : (job.keys.zip job.values).drop job.pos with
      | nil =>
          rw [hremaining] at hiterate
          cases hiterate
      | cons e entries =>
          obtain ⟨key, v⟩ := e
          rw [hremaining] at hiterate
          obtain ⟨hs, rfl⟩ := Prod.mk.inj (Option.some.inj hiterate)
          intro _ hgone
          have hspared : ¬(k = key ∧ isExpired st.lifecycle job.now key v = true) := by
            rintro ⟨rfl, hexp⟩
            exact hgone (by simp [Job.gone, hexp])
          have hrest : (job.keys.zip job.values).drop (job.pos + 1) = entries := by
            rw [← List.tail_drop, hremaining, List.tail_cons]
          have hvisited := Recent.visit hinv hremaining hrecent hspared
          subst hs
          by_cases hexp : isExpired st.lifecycle job.now key v = true
          · simp only [Option.elim_some, Job.unvisited, hexp, if_pos, visit_map, hrest]
            exact hvisited
          · simp only [Option.elim_some, Job.unvisited, hexp, visit_map, hrest]
            exact hvisited
  | prune hstage hiterate =>
      obtain ⟨log, history, hinv, -, -⟩ := h.race
      have hrecent := hvisiting log hstage
      rw [race_visiting log hjob hstage] at hinv hrecent
      rw [iterate_eq _ _ _ hinv.aligned] at hiterate
      cases hremaining : (job.keys.zip job.values).drop job.pos with
      | cons e entries =>
          rw [hremaining] at hiterate
          cases hiterate
      | nil =>
          refine (lags_done ?_).mpr ?_
          · rintro _ ⟨⟩
            split <;> trivial
          · have hkept := prune_lookup_kept hinv rfl hremaining k
            rw [Daemon.prune, hkept]
            rcases hrecent with h | ⟨v, hmem, -⟩
            · exact h
            · rw [Race.remaining, Job.run, hremaining] at hmem
              exact absurd hmem List.not_mem_nil
  | delete hstage =>
      rename_i key
      intro _ _
      simp only [Lags, Daemon.Passed, hjob, Option.map_some, Option.bind_some, Option.elim_some,
        Job.gone, Job.unvisited, hstage] at hlags
      by_cases hk : k = key
      · subst hk
        left
        show c.entry ((d.flows.erase k).lookup k) ≤ _
        simp
      · have hsame : (d.flows.erase key).lookup k = d.flows.lookup k := by simp [hk]
        show Recent c k since (d.flows.erase key) d.last _
        rw [Recent, hsame]
        exact hlags trivial (fun hgone => hk (Option.some.inj hgone).symm)
  | drain hstage hturn =>
      exact hlags.done (hdone (by rw [hstage]; trivial)) (by rintro _ ⟨⟩; trivial) rfl rfl
  | drained hstage hturn =>
      exact hlags.done (hdone (by rw [hstage]; trivial)) (by rintro _ ⟨⟩; trivial) rfl rfl
  | drop hstage hall =>
      exact hlags.done (hdone (by rw [hstage]; trivial)) (by rintro _ ⟨⟩; trivial) rfl rfl
  | close hstage =>
      refine hlags.done (hdone (by rw [hstage]; trivial)) ?_ rfl rfl
      intro job' hmem
      simp only [Daemon.close, Option.mem_def, Option.ite_none_right_eq_some] at hmem
      obtain rfl := Option.some.inj hmem.2
      trivial
  | measure hstage hdevice =>
      exact hlags.done (hdone (by rw [hstage]; trivial)) (by rintro _ ⟨⟩; trivial) rfl rfl
  | devices hstage hdevice =>
      exact hlags.done (hdone (by rw [hstage]; trivial)) (all_of_idle rfl) rfl rfl

/-- An event leaves the exports behind by what it accounts. -/
theorem Lags.next {told seen : Counter → FlowKey → Nat} {e : Event ncpu}
    (hlags : Lags st c k since d) (h : FlowsOk st told seen d) (hlives : Lives st d e)
    (hkept : FlowsKept st d e) :
    Lags st c k (since + updateSum c k e.seen) (d.next st e) := by
  have hcongr : ∀ d' : Daemon w ncpu, d'.job = d.job → d'.flows = d.flows → d'.last = d.last →
      Lags st c k since d' := by
    intro d' hjob hflows hlast
    rw [Lags, Daemon.Passed, hjob, hflows, hlast]
    exact hlags
  have hstep := hlives.eventStep
  generalize hnext : d.next st e = d' at hstep ⊢
  cases hstep with
  | packet env hook skb =>
      obtain ⟨hevicted, hok, -, -⟩ := hkept
      have hflows := packet_flows hook skb d hevicted hok
      simp only [Event.seen]
      cases hflow : Bpf.Seen.flow? ⟨env.cpu, env.now, hook, skb⟩ with
      | none =>
          rw [hflow, Option.elim_none] at hflows
          exact hcongr _ rfl hflows rfl
      | some flow =>
          obtain ⟨key, u⟩ := flow
          rw [hflow, Option.elim_some] at hflows
          rw [Option.toList_some, updateSum_singleton]
          intro hpassed hgone
          rw [hflows]
          exact (hlags hpassed hgone).packet h.tracker.below key u env.now
  | kfree cpu now skb reason =>
      obtain ⟨hflows, hlast, hjob⟩ := kfree_flows d cpu now skb reason
      exact hcongr _ hjob hflows hlast
  | evict keys => exact hcongr _ rfl rfl rfl
  | link ev env hidle =>
      simp only [FlowsKept, hnext] at hkept
      refine hlags.done (all_of_idle hidle) (all_of_idle hidle) (Option.ext fun v => ⟨?_, ?_⟩) rfl
      · exact Agent.onLink_flows_sub st.devices env ev d.agent k v
      · exact fun hlookup => hkept (k, v) (Store.mem_pairs.mpr hlookup)
  | timer nowS monoMs hidle => exact fun hpassed => hpassed.elim
  | advance hjob hpass => exact hlags.advance h hjob hpass hkept
  | meter ok hidle =>
      unfold Daemon.meter
      split
      · exact hcongr _ rfl rfl rfl
      · exact hlags

end Lags

/-! ## Whole runs -/

/-- Behind the start of a pass the exports lag by at most what was accounted since. -/
theorem lags_run {nowS : UInt32} {monoMs : UInt64} {earlier later : List (Event ncpu)}
    {st : Setup} {d₀ d : Daemon w ncpu}
    (hstart : FlowsOk st (fun _ _ => 0) (fun _ _ => 0) d₀)
    (hrun : Run (Daemon.next st) (fun d e => Lives st d e ∧ FlowsKept st d e) d₀
      (earlier ++ .timer nowS monoMs :: later) d) (c : Counter) (k : FlowKey) :
    Lags st c k (seenSum c k later) d := by
  obtain ⟨before, hbefore, hafter⟩ := hrun.split
  obtain ⟨⟨hlives, hkept⟩, hrest⟩ := hafter.first_step
  have hok := (flows_run hstart hbefore).next hlives hkept
  have hlags : Lags st c k 0 (before.next st (.timer nowS monoMs)) := by
    have hstep := hlives.eventStep
    generalize before.next st (.timer nowS monoMs) = d₁ at hstep ⊢
    cases hstep with
    | timer _ _ hidle => exact fun hpassed => hpassed.elim
  clear hrun hafter
  have hledger : (∃ told seen, FlowsOk st told seen d) ∧ Lags st c k (seenSum c k later) d := by
    induction hrest with
    | nil => exact ⟨⟨_, _, hok⟩, hlags⟩
    | snoc hrun hnext ih =>
        obtain ⟨⟨told, seen, h⟩, hlags⟩ := ih
        rw [seenSum_concat]
        exact ⟨⟨_, _, h.next hnext.1 hnext.2⟩, hlags.next h hnext.1 hnext.2⟩
  exact hledger.2

end Obserwrt
