import Obserwrt.Daemon.Reports
import Obserwrt.Lib.Tally
import Obserwrt.Lifecycle.Race

/-!
# The flow records of the daemon

A pass of the daemon reads the flow map in several batch calls and visits and
deletes later, while packets are counted.  Seen from the flow map it is a
`Race`, whose snapshot was read a while ago: `FlowsOk` says so of every state
of the daemon and carries the balance of the race over to the records handed
out.
-/

namespace Obserwrt

open Lib Lifecycle

variable {w ncpu : Nat}

/-! ## What is counted -/

/-- The flow and the update of a packet that is accounted. -/
def Event.seen : Event ncpu → List (FlowKey × Bpf.FlowUpdate)
  | .packet env hook skb => (Bpf.Seen.flow? ⟨env.cpu, env.now, hook, skb⟩).toList
  | _ => []

/-- What a list of updates adds up to. -/
def updateSum (c : Counter) (k : FlowKey) (updates : List (FlowKey × Bpf.FlowUpdate)) : Nat :=
  tally Prod.fst (fun p => (c.ofUpdate p.2).toNat) k updates

theorem updateSum_append (c : Counter) (k : FlowKey) (xs ys : List (FlowKey × Bpf.FlowUpdate)) :
    updateSum c k (xs ++ ys) = updateSum c k xs + updateSum c k ys :=
  tally_append xs ys

theorem updateSum_singleton (c : Counter) (k key : FlowKey) (u : Bpf.FlowUpdate) :
    updateSum c k [(key, u)] = if key = k then (c.ofUpdate u).toNat else 0 :=
  tally_singleton _

/-- The packets of a run that were accounted to a flow. -/
def seenSum (c : Counter) (k : FlowKey) (events : List (Event ncpu)) : Nat :=
  updateSum c k (events.flatMap Event.seen)

theorem seenSum_concat (c : Counter) (k : FlowKey) (events : List (Event ncpu)) (e : Event ncpu) :
    seenSum c k (events ++ [e]) = seenSum c k events + updateSum c k e.seen := by
  rw [seenSum, List.flatMap_append, updateSum_append, List.flatMap_singleton]
  rfl

/-! ## What is reported -/

/-- A counter of a record, as the exporters send it. -/
def Counter.ofReport (c : Counter) (r : Syslog.Report) : Nat :=
  (r.delta.elim (c.ofVal r.val) c.ofDelta).toNat

/-- What the flow records, or the drop records, of a list add up to. -/
def reportSum (drops : Bool) (c : Counter) (k : FlowKey) (reports : List Syslog.Report) : Nat :=
  tally Syslog.Report.key c.ofReport k (reports.filter fun r => r.drop.isSome = drops)

theorem reportSum_append (drops : Bool) (c : Counter) (k : FlowKey)
    (xs ys : List Syslog.Report) :
    reportSum drops c k (xs ++ ys) = reportSum drops c k xs + reportSum drops c k ys := by
  rw [reportSum, List.filter_append, tally_append]
  rfl

/-- The flow records of a list of exports say what the lifecycle exported. -/
theorem reportSum_flowReport (c : Counter) (k : FlowKey) (exports : List Export) :
    reportSum false c k (exports.map flowReport) = exported c k exports ∧
      reportSum true c k (exports.map flowReport) = 0 := by
  constructor
  · have hall : (exports.map flowReport).filter (fun r => decide (r.drop.isSome = false)) =
        exports.map flowReport := by
      rw [List.filter_eq_self]
      intro r hr
      obtain ⟨e, -, rfl⟩ := List.mem_map.mp hr
      rfl
    rw [reportSum, hall, tally_map]
    rfl
  · have hnone : (exports.map flowReport).filter (fun r => decide (r.drop.isSome = true)) = [] := by
      rw [List.filter_eq_nil_iff]
      intro r hr
      obtain ⟨e, -, rfl⟩ := List.mem_map.mp hr
      exact Bool.false_ne_true
    rw [reportSum, hnone]
    rfl

/-- The records that an event hands out. -/
def reportsOf (st : Setup) (d : Daemon w ncpu) (e : Event ncpu) : List Syslog.Report :=
  (requestsOf st d e).map Syslog.Request.toReport

/-- The records handed out along a run. -/
def reported (st : Setup) (d₀ : Daemon w ncpu) (events : List (Event ncpu)) :
    List Syslog.Report :=
  (requested st d₀ events).map Syslog.Request.toReport

theorem reported_concat (st : Setup) (d₀ : Daemon w ncpu) (events : List (Event ncpu))
    (e : Event ncpu) :
    reported st d₀ (events ++ [e]) =
      reported st d₀ events ++ reportsOf st (events.foldl (Daemon.next st) d₀) e := by
  rw [reported, requested, outputs_concat, List.map_append]
  rfl

theorem reportsOf_advance (st : Setup) {d : Daemon w ncpu} {job : Job} (hjob : d.job = some job)
    (ans : Answer) : reportsOf st d (.advance ans) = d.due st job := by
  rw [reportsOf, requestsOf, hjob, Option.elim_some, Answer.requests, List.map_map]
  exact List.map_id _

/-! ## What a pass has read -/

/-- The entries that the pass has read and not visited. -/
def Job.unvisited (job : Job) : List (FlowKey × FlowVal) :=
  match job.stage with
  | .walking walk => walk.entries
  | .visiting => (job.keys.zip job.values).drop job.pos
  | .deleting _ => (job.keys.zip job.values).drop job.pos
  | _ => []

/-- The flow that was just exported as expired. -/
def Job.gone (job : Job) : Option FlowKey :=
  match job.stage with
  | .deleting key => some key
  | _ => none

/-- The pass under way will still delete this flow. -/
def Daemon.Doomed (cfg : Lifecycle.Config) (d : Daemon w ncpu) (key : FlowKey) : Prop :=
  ∃ job ∈ d.job, job.gone = some key ∨
    ∃ e ∈ job.unvisited, e.1 = key ∧ isExpired cfg job.now e.1 e.2 = true

instance (cfg : Lifecycle.Config) (d : Daemon w ncpu) (key : FlowKey) :
    Decidable (d.Doomed cfg key) :=
  inferInstanceAs (Decidable (∃ job ∈ d.job, _ ∨ _))

/-- Without a pass under way there is nothing to show of one. -/
theorem all_of_idle {d : Daemon w ncpu} (hidle : d.job = none) {P : Job → Prop} :
    ∀ job ∈ d.job, P job := by
  intro job hmem
  rw [hidle] at hmem
  cases hmem

/-- The walk of the flow map is under way. -/
def Daemon.walking (d : Daemon w ncpu) : Bool :=
  match d.job.map Job.stage with
  | some (.walking _) => true
  | _ => false

/-- The pass is in front of its first visit, or behind its last one. -/
def Job.Resting (job : Job) : Prop :=
  job.stage ≠ .visiting ∧ ∀ key, job.stage ≠ .deleting key

/-- A stage that neither reads nor visits the flow map. -/
def Stage.Quiet : Stage → Prop
  | .counting _ | .draining _ | .dropping _ | .measuring _ => True
  | _ => False

/-- The daemon as a pass that races with packets; `log` are the flow records
handed out so far. -/
def Daemon.race (log : List Export) (d : Daemon w ncpu) : Race :=
  match d.job with
  | none => ⟨log, runStart [] d.flows d.last, .idle⟩
  | some job =>
      match job.stage with
      | .visiting => ⟨log, job.run d.flows d.last, .walking job.now⟩
      | .deleting key => ⟨log, job.run d.flows d.last, .deleting job.now key⟩
      | _ => ⟨log, runStart [] d.flows d.last, .idle⟩

section Race

variable {d d' : Daemon w ncpu} {job : Job} (log : List Export)

theorem race_idle (hrest : ∀ job ∈ d.job, job.Resting) :
    d.race log = ⟨log, runStart [] d.flows d.last, .idle⟩ := by
  unfold Daemon.race
  cases hjob : d.job with
  | none => rfl
  | some job =>
      obtain ⟨hvisiting, hdeleting⟩ := hrest job hjob
      cases hstage : job.stage with
      | visiting => exact absurd hstage hvisiting
      | deleting key => exact absurd hstage (hdeleting key)
      | counting | walking | draining | dropping | measuring => simp only [hstage]

theorem race_visiting (hjob : d.job = some job) (hstage : job.stage = .visiting) :
    d.race log = ⟨log, job.run d.flows d.last, .walking job.now⟩ := by
  simp only [Daemon.race, hjob, hstage]

theorem race_deleting {key : FlowKey} (hjob : d.job = some job)
    (hstage : job.stage = .deleting key) :
    d.race log = ⟨log, job.run d.flows d.last, .deleting job.now key⟩ := by
  simp only [Daemon.race, hjob, hstage]

theorem race_congr (hjob : d'.job = d.job) (hflows : d'.flows = d.flows)
    (hlast : d'.last = d.last) : d'.race log = d.race log := by
  simp only [Daemon.race, hjob, hflows, hlast]

theorem race_world : (d.race log).run.map.flows = d.flows ∧ (d.race log).run.last = d.last ∧
    (d.race log).told = log := by
  have htold : ∀ run phase, run.exports = [] → Race.told ⟨log, run, phase⟩ = log := by
    intro run phase hnone
    rw [Race.told, hnone, List.append_nil]
  unfold Daemon.race
  split
  · exact ⟨rfl, rfl, htold _ _ rfl⟩
  · split <;> exact ⟨rfl, rfl, htold _ _ rfl⟩

/-- A packet of the daemon is a packet of the race. -/
theorem race_packet {key : FlowKey} {u : Bpf.FlowUpdate} {now : UInt64} (hjob : d'.job = d.job)
    (hflows : d'.flows = Bpf.account key u now d.flows) (hlast : d'.last = d.last) :
    d'.race log = (d.race log).packet key u now := by
  simp only [Daemon.race, hjob, hflows, hlast]
  cases d.job with
  | none => rfl
  | some job =>
      obtain ⟨nowS, stage, stat⟩ := job
      cases stage <;> rfl

theorem doomed_of_race {cfg : Lifecycle.Config} {key : FlowKey}
    (h : (d.race log).Doomed cfg key) : d.Doomed cfg key := by
  cases hjob : d.job with
  | none =>
      rw [race_idle log (by simp [hjob])] at h
      exact h.elim
  | some job =>
      refine ⟨job, hjob, ?_⟩
      by_cases hvisiting : job.stage = .visiting
      · rw [race_visiting log hjob hvisiting] at h
        right
        rw [Job.unvisited, hvisiting]
        exact h
      · by_cases hdeleting : ∃ gone, job.stage = .deleting gone
        · obtain ⟨gone, hstage⟩ := hdeleting
          rw [race_deleting log hjob hstage] at h
          rcases h with rfl | h
          · exact Or.inl (by rw [Job.gone, hstage])
          · right
            rw [Job.unvisited, hstage]
            exact h
        · rw [race_idle log (by
            rintro job' hjob'
            obtain rfl : job = job' := Option.some.inj (hjob.symm.trans hjob')
            exact ⟨hvisiting, fun gone hgone => hdeleting ⟨gone, hgone⟩⟩)] at h
          exact h.elim

/-- The loop takes the next entry that is left. -/
theorem iterate_eq (cfg : Lifecycle.Config) (flows : FlowTable) (last : Tracker)
    (haligned : job.keys.length = job.values.length) :
    job.iterate cfg flows last = match (job.keys.zip job.values).drop job.pos with
      | [] => none
      | (k, v) :: _ => some (visit cfg job.now k v { job.run flows last with
            map := { (job.run flows last).map with pos := job.pos + 1 } },
          if isExpired cfg job.now k v then .deleting k else .visiting) := by
  set s : Race := ⟨[], job.run flows last, .idle⟩ with hs
  have hremaining : (job.keys.zip job.values).drop job.pos = s.remaining := rfl
  rw [hremaining]
  cases h : s.remaining with
  | nil =>
      have hnext : (job.run flows last).map.nextKey = none :=
        nextKey_none_of_remaining (s := s) haligned h
      simp only [Job.iterate, hnext]
  | cons e entries =>
      obtain ⟨k, v⟩ := e
      obtain ⟨hnext, hget⟩ := nextKey_get_of_remaining h
      have hnext' : (job.run flows last).map.nextKey =
          some (k, { (job.run flows last).map with pos := job.pos + 1 }) := hnext
      have hget' : BpfFlowMap.get { (job.run flows last).map with pos := job.pos + 1 } k =
          some v := hget
      simp only [Job.iterate, hnext', hget']

end Race

/-! ## The walk that reads -/

/-- The flow map with the tracker, as a world of the lifecycle. -/
def Daemon.world (d : Daemon w ncpu) : World := ⟨d.flows, d.last, []⟩

/-- What a walk under way has read, of the buckets behind its cursor: it has every
tracked flow of them. -/
structure Reading (st : Setup) (d : Daemon w ncpu) (job : Job)
    (walk : Agent.Walk FlowKey FlowVal) : Prop where
  cursor : walk.cursor ≤ st.flowLayout.buckets
  below : ∀ e ∈ walk.entries, st.flowLayout.bucketOf e.1 < walk.cursor
  read : ReadOk st.lifecycle job.now d.flows d.last walk.entries
  kept : ∀ k l, d.last.lookup k = some l → st.flowLayout.bucketOf k < walk.cursor →
    k ∈ walk.entries.map Prod.fst

section Reading

variable {st : Setup} {d : Daemon w ncpu} {job : Job} {walk walk' : Agent.Walk FlowKey FlowVal}

theorem reading_start : Reading st d job {} where
  cursor := Nat.zero_le _
  below := by simp [Agent.Walk.entries]
  read := ⟨List.nodup_nil, by simp [Agent.Walk.entries], by simp [Agent.Walk.entries]⟩
  kept := fun _ _ _ hbelow => absurd hbelow (Nat.not_lt_zero _)

/-- A batch call adds the current entries of the buckets it passes. -/
theorem Reading.turn (h : Reading st d job walk) (htracker : TrackerOk d.world)
    {result : Option Bool}
    (hturn : walk.turn st.flowLayout false false d.flows = (walk', result)) :
    ∃ next, walk.cursor ≤ next ∧ walk'.entries = walk.entries ++
        st.flowLayout.span d.flows walk.cursor next ∧
      Reading st d job { walk' with inBatch := next, first := false } ∧
      (result = none ∧ walk'.cursor = next ∨
        result = some true ∧ next = st.flowLayout.buckets) := by
  obtain ⟨next, hnext, hbuckets, hentries, hresult⟩ :=
    walk.turn_spans false d.flows h.cursor
  simp only [hturn] at hentries hresult
  have hcurrent : ∀ e ∈ st.flowLayout.span d.flows walk.cursor next,
      d.flows.lookup e.1 = some e.2 := fun e he => Agent.lookup_of_mem_span he
  have hnew : ReadOk st.lifecycle job.now d.flows d.last
      (st.flowLayout.span d.flows walk.cursor next) :=
    readOk_of_current (w := d.world) htracker (Layout.span_keys_nodup _ _) hcurrent
  have hwhole : Agent.Walk.entries { walk' with inBatch := next, first := false } =
      walk.entries ++ st.flowLayout.span d.flows walk.cursor next := hentries
  refine ⟨next, hnext, hentries, ⟨hbuckets, ?_, ?_, ?_⟩, ?_⟩
  · rw [hwhole]
    exact Layout.append_span_below hnext h.below
  · rw [hwhole]
    refine ⟨Layout.append_span_nodup h.read.nodup h.below next, ?_, ?_⟩
    · intro k v hmem
      rcases List.mem_append.mp hmem with hmem | hmem
      · exact h.read.ahead k v hmem
      · exact hnew.ahead k v hmem
    · intro k v hmem
      rcases List.mem_append.mp hmem with hmem | hmem
      · exact h.read.doomed k v hmem
      · exact hnew.doomed k v hmem
  · intro k l hlast hbelow
    rw [hwhole, List.map_append]
    by_cases hold : st.flowLayout.bucketOf k < walk.cursor
    · exact List.mem_append_left _ (h.kept k l hlast hold)
    · refine List.mem_append_right _ (Agent.mem_span_keys.mpr ⟨?_, by omega, hbelow⟩)
      -- a tracked flow is in the map
      obtain ⟨v, hlookup, -⟩ := htracker.tracked k l hlast
      exact AList.lookup_isSome.mp (Option.isSome_iff_exists.mpr ⟨v, hlookup⟩)
  · exact hresult

end Reading

/-! ## The ledger -/

/-- What was exported (`told`) and what was accounted (`seen`), for the flow map of
the daemon: they balance as in a race. -/
structure FlowsOk (st : Setup) (told seen : Counter → FlowKey → Nat) (d : Daemon w ncpu) :
    Prop where
  race : ∃ log history, RaceInv st.lifecycle history (d.race log) ∧
    (∀ c k, exported c k log = told c k) ∧ ∀ c k, accounted c k history = seen c k
  reading : ∀ job ∈ d.job, ∀ walk, job.stage = .walking walk → Reading st d job walk

/-- The flow map is not in use by a pass. -/
def Daemon.Resting (d : Daemon w ncpu) : Prop := ∀ job ∈ d.job, job.Resting

namespace FlowsOk

variable {st : Setup} {told seen : Counter → FlowKey → Nat} {d d' : Daemon w ncpu} {job : Job}

theorem tracker (h : FlowsOk st told seen d) : TrackerOk d.world := by
  obtain ⟨log, history, hinv, -, -⟩ := h.race
  obtain ⟨hflows, hlast, -⟩ := race_world (d := d) log
  have htracker := hinv.tracker
  rw [Race.world, hflows, hlast] at htracker
  exact ⟨htracker.below, htracker.tracked⟩

/-- Outside its use, what was exported and what is pending is what was accounted. -/
theorem balance (h : FlowsOk st told seen d) (hrest : d.Resting) (c : Counter) (k : FlowKey) :
    told c k + pending c d.world k = seen c k := by
  obtain ⟨log, history, hinv, hlog, hhistory⟩ := h.race
  obtain ⟨hflows, hlast, htold⟩ := race_world (d := d) log
  have hbalance := hinv.idle_balance (by rw [race_idle log hrest]) c k
  rw [htold, hlog, hhistory, Race.world, hflows, hlast] at hbalance
  exact hbalance

/-- From one state outside its use to another one. -/
theorem rest (h : FlowsOk st told seen d) (hrest : d.Resting) (hrest' : d'.Resting)
    (hflows : ∀ k, d'.flows.lookup k = d.flows.lookup k) (hlast : d'.last = d.last)
    (hreading : ∀ job ∈ d'.job, ∀ walk, job.stage = .walking walk → Reading st d' job walk) :
    FlowsOk st told seen d' := by
  have htracker := h.tracker
  obtain ⟨log, history, -, hlog, hhistory⟩ := h.race
  refine ⟨⟨log, history, ?_, hlog, hhistory⟩, hreading⟩
  rw [race_idle log hrest']
  refine raceInv_idle ⟨?_, ?_⟩ fun c k => ?_
  · intro k v hlookup
    rw [hflows] at hlookup
    exact htracker.below k v hlookup
  · intro k l hlookup
    rw [hlast] at hlookup
    rw [hflows]
    exact htracker.tracked k l hlookup
  · rw [hlog, hhistory, ← h.balance hrest c k]
    simp only [pending, Daemon.world, hflows, hlast]

/-- From one quiet stage to another, or to the end of the pass. -/
theorem quiet (h : FlowsOk st told seen d) (hjob : d.job = some job) (hquiet : job.stage.Quiet)
    (hquiet' : ∀ job' ∈ d'.job, job'.stage.Quiet) (hflows : d'.flows = d.flows)
    (hlast : d'.last = d.last) : FlowsOk st told seen d' := by
  have hresting : ∀ job' : Job, job'.stage.Quiet → job'.Resting := fun job' hstage =>
    ⟨fun hvisiting => by rw [hvisiting] at hstage; exact hstage,
      fun key hdeleting => by rw [hdeleting] at hstage; exact hstage⟩
  refine h.rest ?_ (fun job' hmem => hresting job' (hquiet' job' hmem))
    (fun _ => by rw [hflows]) hlast ?_
  · intro job' hmem
    obtain rfl : job = job' := Option.some.inj (hjob.symm.trans hmem)
    exact hresting job hquiet
  · intro job' hmem walk hwalking
    have hstage := hquiet' job' hmem
    rw [hwalking] at hstage
    exact hstage.elim

/-- Nothing that the ledger speaks about changes. -/
theorem congr (h : FlowsOk st told seen d) (hjob : d'.job = d.job) (hflows : d'.flows = d.flows)
    (hlast : d'.last = d.last) : FlowsOk st told seen d' := by
  obtain ⟨log, history, hinv, hlog, hhistory⟩ := h.race
  refine ⟨⟨log, history, by rwa [race_congr log hjob hflows hlast], hlog, hhistory⟩, ?_⟩
  intro job hmem walk hstage
  rw [hjob] at hmem
  have hreading := h.reading job hmem walk hstage
  exact ⟨hreading.cursor, hreading.below, by rw [hflows, hlast]; exact hreading.read,
    by rw [hlast]; exact hreading.kept⟩

/-- A packet for a flow that the pass will not delete. -/
theorem packet (h : FlowsOk st told seen d) {key : FlowKey} {u : Bpf.FlowUpdate} {now : UInt64}
    (hjob : d'.job = d.job) (hflows : d'.flows = Bpf.account key u now d.flows)
    (hlast : d'.last = d.last) (hbelow : Below63 d'.flows)
    (hspared : ¬d.Doomed st.lifecycle key) :
    FlowsOk st told (fun c k => seen c k + if key = k then (c.ofUpdate u).toNat else 0) d' := by
  have htracker := h.tracker
  obtain ⟨log, history, hinv, hlog, hhistory⟩ := h.race
  rw [hflows] at hbelow
  refine ⟨⟨log, history ++ [.packet key u now], ?_, hlog, ?_⟩, ?_⟩
  · rw [race_packet log hjob hflows hlast]
    refine raceInv_packet key u now hinv ?_ fun hdoomed => hspared (doomed_of_race log hdoomed)
    rw [(race_world log).1]
    exact hbelow
  · intro c k
    rw [accounted_concat, hhistory]
    rfl
  · intro job hmem walk hstage
    rw [hjob] at hmem
    have hreading := h.reading job hmem walk hstage
    refine ⟨hreading.cursor, hreading.below, ?_, by rw [hlast]; exact hreading.kept⟩
    rw [hflows, hlast]
    refine hreading.read.packet htracker.below key u ?_
    rintro ⟨e, he, hkey, hexp⟩
    exact hspared ⟨job, hmem, Or.inr ⟨e, by rw [Job.unvisited, hstage]; exact he, hkey, hexp⟩⟩

section Advance

variable (h : FlowsOk st told seen d) (hjob : d.job = some job)

include hjob in
theorem resting_of_stage (hvisiting : job.stage ≠ .visiting)
    (hdeleting : ∀ key, job.stage ≠ .deleting key) : d.Resting := by
  intro job' hmem
  obtain rfl : job = job' := Option.some.inj (hjob.symm.trans hmem)
  exact ⟨hvisiting, hdeleting⟩

include h hjob

/-- A batch call of the walk that is not the last one. -/
theorem walked {walk walk' : Agent.Walk FlowKey FlowVal} (hstage : job.stage = .walking walk)
    (hturn : walk.turn st.flowLayout false false d.flows = (walk', none)) :
    FlowsOk st told seen { d with job := some { job with stage := .walking walk' } } := by
  obtain ⟨next, -, -, hreading, hresult⟩ := (h.reading job hjob walk hstage).turn h.tracker hturn
  have hcursor : walk'.cursor = next := by
    rcases hresult with ⟨-, hcursor⟩ | ⟨hsome, -⟩
    · exact hcursor
    · cases hsome
  subst hcursor
  refine h.rest (resting_of_stage hjob (by simp [hstage]) (by simp [hstage]))
    (resting_of_stage rfl (by simp) (by simp)) (fun _ => rfl) rfl ?_
  rintro _ ⟨⟩ _ ⟨⟩
  exact ⟨hreading.cursor, hreading.below, hreading.read, hreading.kept⟩

/-- The last batch call, with which the visits begin. -/
theorem snapshot {walk walk' : Agent.Walk FlowKey FlowVal} {ok : Bool}
    (hstage : job.stage = .walking walk)
    (hturn : walk.turn st.flowLayout false false d.flows = (walk', some ok)) :
    FlowsOk st told seen { d with job := some { job with
      keys := walk'.entries.map Prod.fst
      values := walk'.entries.map Prod.snd
      pos := 0
      stage := .visiting } } := by
  obtain ⟨next, -, -, hreading, hresult⟩ := (h.reading job hjob walk hstage).turn h.tracker hturn
  have hbuckets : next = st.flowLayout.buckets := by
    rcases hresult with ⟨hnone, -⟩ | ⟨-, hbuckets⟩
    · cases hnone
    · exact hbuckets
  obtain ⟨log, history, hinv, hlog, hhistory⟩ := h.race
  rw [race_idle log (resting_of_stage hjob (by simp [hstage]) (by simp [hstage]))] at hinv
  have hkept : ∀ k l, d.last.lookup k = some l → k ∈ walk'.entries.map Prod.fst :=
    fun k l hlast => hreading.kept k l hlast (hbuckets ▸ st.flowLayout.hlt k)
  have hreset := raceInv_reset job.now hinv rfl hreading.read hkept
  refine ⟨⟨log, history, ?_, hlog, hhistory⟩, ?_⟩
  · rw [race_visiting log rfl rfl]
    exact hreset.moved rfl rfl (List.nil_subset _) rfl (by simp [Race.told, Race.snapshot,
      runStart, Job.run])
  · rintro _ ⟨⟩ _ ⟨⟩

/-- A visit, with the record it hands out. -/
theorem visited {s : RunState} {stage : Stage} (hstage : job.stage = .visiting)
    (hiterate : job.iterate st.lifecycle d.flows d.last = some (s, stage)) (sinks : Sinks w) :
    FlowsOk st (fun c k => told c k + exported c k s.exports) seen { d with
      last := s.last
      sinks := sinks
      job := some { job with
        pos := s.map.pos, seen := s.seen, stats := s.stats, stage := stage } } := by
  obtain ⟨log, history, hinv, hlog, hhistory⟩ := h.race
  rw [race_visiting log hjob hstage] at hinv
  rw [iterate_eq _ _ _ hinv.aligned] at hiterate
  cases hremaining : (job.keys.zip job.values).drop job.pos with
  | nil =>
      rw [hremaining] at hiterate
      cases hiterate
  | cons e entries =>
      obtain ⟨k, v⟩ := e
      rw [hremaining] at hiterate
      obtain ⟨hs, rfl⟩ := Prod.mk.inj (Option.some.inj hiterate)
      have hvisited := raceInv_visited st.lifecycle job.now hinv rfl hremaining
      refine ⟨⟨log ++ s.exports, history, ?_, fun c k => ?_, hhistory⟩, ?_⟩
      · subst hs
        by_cases hexp : isExpired st.lifecycle job.now k v = true
        · rw [race_deleting _ rfl (by simp [hexp] : _ = Stage.deleting k)]
          refine hvisited.moved ?_ rfl (List.Subset.refl _) (by simp [Race.visited, hexp]) ?_
          · simp only [Race.visited, visit_map]
            rfl
          · simp [Race.visited, Race.told, Job.run]
        · rw [race_visiting _ rfl (by simp [hexp])]
          refine hvisited.moved ?_ rfl (List.Subset.refl _) (by simp [Race.visited, hexp]) ?_
          · simp only [Race.visited, visit_map]
            rfl
          · simp [Race.visited, Race.told, Job.run]
      · rw [exported_append, hlog]
      · rintro _ ⟨⟩ walk hwalking
        simp only at hwalking
        split at hwalking <;> cases hwalking

/-- The end of the loop. -/
theorem pruned (hstage : job.stage = .visiting)
    (hiterate : job.iterate st.lifecycle d.flows d.last = none) :
    FlowsOk st told seen (d.prune job) := by
  obtain ⟨log, history, hinv, hlog, hhistory⟩ := h.race
  rw [race_visiting log hjob hstage] at hinv
  rw [iterate_eq _ _ _ hinv.aligned] at hiterate
  cases hremaining : (job.keys.zip job.values).drop job.pos with
  | cons e entries =>
      rw [hremaining] at hiterate
      cases hiterate
  | nil =>
      have hpruned := raceInv_prune hinv rfl hremaining
      refine ⟨⟨log, history, ?_, hlog, hhistory⟩, ?_⟩
      · rw [race_idle log (resting_of_stage rfl (by split <;> simp) (by split <;> simp))]
        refine raceInv_idle ⟨hpruned.tracker.below, hpruned.tracker.tracked⟩ fun c k => ?_
        have hbalance := hpruned.idle_balance rfl c k
        simp only [Race.told, Job.run, List.append_nil] at hbalance
        exact hbalance
      · rintro _ ⟨⟩ walk hwalking
        simp only at hwalking
        split at hwalking <;> cases hwalking

/-- The deletion of an expired flow. -/
theorem deleted {key : FlowKey} (hstage : job.stage = .deleting key) :
    FlowsOk st told seen
      { d.setFlows (d.flows.erase key) with job := some { job with stage := .visiting } } := by
  obtain ⟨log, history, hinv, hlog, hhistory⟩ := h.race
  rw [race_deleting log hjob hstage] at hinv
  refine ⟨⟨log, history, ?_, hlog, hhistory⟩, ?_⟩
  · rw [race_visiting log rfl rfl]
    exact raceInv_delete hinv rfl
  · rintro _ ⟨⟩ _ ⟨⟩

end Advance

/-- An operation of a pass, with the records it hands out. -/
theorem advance {ans : Answer} (h : FlowsOk st told seen d) (hjob : d.job = some job)
    (hstep : PassStep st ans job d d') (hread : d.walking = true → ans.fault = false) :
    FlowsOk st (fun c k => told c k + reportSum false c k (d.due st job)) seen d' := by
  have hsilent : d.due st job = [] → FlowsOk st told seen d' →
      FlowsOk st (fun c k => told c k + reportSum false c k (d.due st job)) seen d' := by
    intro hnone hnext
    rw [hnone]
    exact hnext
  have hwalking : ∀ walk, job.stage = .walking walk → ans.fault = false := by
    intro walk hstage
    refine hread ?_
    rw [Daemon.walking, hjob, Option.map_some, hstage]
  cases hstep with
  | count hstage =>
      refine hsilent (by rw [Daemon.due, hstage])
        (h.quiet hjob (by rw [hstage]; trivial) ?_ rfl rfl)
      rintro _ ⟨⟩
      trivial
  | reset hstage =>
      refine hsilent (by rw [Daemon.due, hstage])
        (h.rest (resting_of_stage hjob (by simp [hstage]) (by simp [hstage]))
          (resting_of_stage rfl (by simp) (by simp)) (fun _ => rfl) rfl ?_)
      rintro _ ⟨⟩ _ ⟨⟩
      exact reading_start
  | walk hstage hturn =>
      rw [hwalking _ hstage] at hturn
      exact hsilent (by rw [Daemon.due, hstage]) (h.walked hjob hstage hturn)
  | snapshot hstage hturn =>
      rw [hwalking _ hstage] at hturn
      exact hsilent (by rw [Daemon.due, hstage]) (h.snapshot hjob hstage hturn)
  | visit hstage hiterate hall =>
      rename_i s stage sinks
      have hdue : d.due st job = s.exports.map flowReport := by
        simp only [Daemon.due, hstage, hiterate, Option.elim_some]
      rw [hdue]
      simp only [(reportSum_flowReport _ _ _).1]
      exact h.visited hjob hstage hiterate _
  | prune hstage hiterate =>
      exact hsilent (by simp only [Daemon.due, hstage, hiterate, Option.elim_none])
        (h.pruned hjob hstage hiterate)
  | delete hstage => exact hsilent (by rw [Daemon.due, hstage]) (h.deleted hjob hstage)
  | drain hstage hturn =>
      refine hsilent (by rw [Daemon.due, hstage])
        (h.quiet hjob (by rw [hstage]; trivial) ?_ rfl rfl)
      rintro _ ⟨⟩
      trivial
  | drained hstage hturn =>
      refine hsilent (by rw [Daemon.due, hstage])
        (h.quiet hjob (by rw [hstage]; trivial) ?_ rfl rfl)
      rintro _ ⟨⟩
      trivial
  | drop hstage hall =>
      rename_i r left sinks
      have hdue : d.due st job = [dropReport st.reasons r] := by rw [Daemon.due, hstage]
      have hnone : ∀ c k, reportSum false c k [dropReport st.reasons r] = 0 := fun _ _ => rfl
      rw [hdue]
      simp only [hnone, Nat.add_zero]
      refine h.quiet hjob (by rw [hstage]; trivial) ?_ rfl rfl
      rintro _ ⟨⟩
      trivial
  | close hstage =>
      refine hsilent (by rw [Daemon.due, hstage])
        (h.quiet hjob (by rw [hstage]; trivial) ?_ rfl rfl)
      intro job' hmem
      simp only [Daemon.close, Option.mem_def, Option.ite_none_right_eq_some] at hmem
      obtain rfl := Option.some.inj hmem.2
      trivial
  | measure hstage hdevice =>
      refine hsilent (by rw [Daemon.due, hstage])
        (h.quiet hjob (by rw [hstage]; trivial) ?_ rfl rfl)
      rintro _ ⟨⟩
      trivial
  | devices hstage hdevice =>
      exact hsilent (by rw [Daemon.due, hstage])
        (h.quiet hjob (by rw [hstage]; trivial) (all_of_idle rfl) rfl rfl)

end FlowsOk

/-! ## One event -/

/-- What the event does to the flows is in order: the map takes the packet without
evicting a flow, no counter reaches `2 ^ 63`, and no pass under way will still
delete the packet's flow; a link event takes no flow away; no batch call of the
walk fails. -/
def FlowsKept (st : Setup) (d : Daemon w ncpu) (e : Event ncpu) : Prop :=
  match e with
  | .packet env _ _ => env.evicted = [] ∧ env.updateOk = true ∧ Below63 (d.next st e).flows ∧
      ∀ p ∈ e.seen, ¬d.Doomed st.lifecycle p.1
  | .link .. => ∀ f ∈ Store.pairs d.flows, (d.next st e).flows.lookup f.1 = some f.2
  | .advance ans => d.walking = true → ans.fault = false
  | _ => True

instance (st : Setup) (d : Daemon w ncpu) (e : Event ncpu) : Decidable (FlowsKept st d e) :=
  match e with
  | .packet .. => inferInstanceAs (Decidable (_ ∧ _ ∧ Below63 _ ∧ ∀ p ∈ _, _))
  | .kfree .. => inferInstanceAs (Decidable True)
  | .evict _ => inferInstanceAs (Decidable True)
  | .link .. => inferInstanceAs (Decidable (∀ f ∈ Store.pairs d.flows, _))
  | .timer .. => inferInstanceAs (Decidable True)
  | .advance _ => inferInstanceAs (Decidable (_ → _))
  | .meter _ => inferInstanceAs (Decidable True)

theorem packet_flows {env : Bpf.Env ncpu} (hook : Bpf.Hook) (skb : Bpf.SkBuff)
    (d : Daemon w ncpu) (hevicted : env.evicted = []) (hok : env.updateOk = true) :
    (d.packet env hook skb).flows =
      (Bpf.Seen.flow? ⟨env.cpu, env.now, hook, skb⟩).elim d.flows
        fun flow => Bpf.account flow.1 flow.2 env.now d.flows := by
  obtain ⟨cpu, now, evicted, updateOk⟩ := env
  obtain rfl : evicted = [] := hevicted
  obtain rfl : updateOk = true := hok
  exact Bpf.run_flows d.agent.bpf.maps ⟨cpu, now, hook, skb⟩

/-- The tracer leaves the flows alone. -/
theorem kfree_flows (d : Daemon w ncpu) (cpu : Fin ncpu) (now : UInt64) (skb : Bpf.TracedSkb)
    (reason : UInt32) :
    (d.kfree cpu now skb reason).flows = d.flows ∧ (d.kfree cpu now skb reason).last = d.last ∧
      (d.kfree cpu now skb reason).job = d.job := by
  simp only [Daemon.kfree, Daemon.flows, Bpf.kfreeSkb]
  cases d.agent.bpf.attached with
  | none => exact ⟨rfl, rfl, rfl⟩
  | some attached =>
      cases skb.dev with
      | none => exact ⟨rfl, rfl, rfl⟩
      | some ifindex =>
          by_cases hmark : (attached.lookup ifindex).isNone = true
          · simp only [hmark, if_true]
            exact ⟨trivial, trivial, trivial⟩
          · simp only [hmark]
            cases Bpf.dropTuple skb <;> simp [Bpf.statAdd]

/-- An event keeps the balance. -/
theorem FlowsOk.next {st : Setup} {told seen : Counter → FlowKey → Nat} {d : Daemon w ncpu}
    {e : Event ncpu} (h : FlowsOk st told seen d) (hlives : Lives st d e)
    (hkept : FlowsKept st d e) :
    FlowsOk st (fun c k => told c k + reportSum false c k (reportsOf st d e))
      (fun c k => seen c k + updateSum c k e.seen) (d.next st e) := by
  have hstep := hlives.eventStep
  generalize hnext : d.next st e = d' at hstep ⊢
  cases hstep with
  | packet env hook skb =>
      obtain ⟨hevicted, hok, hbelow, hspared⟩ := hkept
      rw [hnext] at hbelow
      have hflows := packet_flows hook skb d hevicted hok
      simp only [Event.seen] at hspared ⊢
      cases hflow : Bpf.Seen.flow? ⟨env.cpu, env.now, hook, skb⟩ with
      | none =>
          rw [hflow, Option.elim_none] at hflows
          exact h.congr rfl hflows rfl
      | some flow =>
          obtain ⟨key, u⟩ := flow
          rw [hflow] at hspared hflows
          simp only [Option.toList_some, updateSum_singleton]
          exact h.packet rfl hflows rfl hbelow (hspared (key, u) (List.mem_singleton_self _))
  | kfree cpu now skb reason =>
      obtain ⟨hflows, hlast, hjob⟩ := kfree_flows d cpu now skb reason
      exact h.congr hjob hflows hlast
  | evict keys => exact h.congr rfl rfl rfl
  | link ev env hidle =>
      have hrest : d.Resting := all_of_idle hidle
      simp only [FlowsKept, hnext] at hkept
      refine h.rest hrest hrest (fun k => Option.ext fun v => ⟨?_, ?_⟩) rfl ?_
      · exact Agent.onLink_flows_sub st.devices env ev d.agent k v
      · exact fun hlookup => hkept (k, v) (Store.mem_pairs.mpr hlookup)
      · exact all_of_idle hidle
  | timer nowS monoMs hidle =>
      refine h.rest (all_of_idle hidle) (FlowsOk.resting_of_stage rfl (by simp) (by simp))
        (fun _ => rfl) rfl ?_
      rintro _ ⟨⟩ _ ⟨⟩
  | advance hjob hpass =>
      rw [reportsOf_advance st hjob]
      exact h.advance hjob hpass hkept
  | meter ok hidle =>
      unfold Daemon.meter
      split
      · exact h.congr rfl rfl rfl
      · exact h

/-! ## Whole runs -/

section Run

variable {st : Setup} {d₀ d : Daemon w ncpu} {events : List (Event ncpu)}

/-- What was accounted to a flow is what its records say and what is pending. -/
theorem flows_run (hstart : FlowsOk st (fun _ _ => 0) (fun _ _ => 0) d₀)
    (hrun : Run (Daemon.next st) (fun d e => Lives st d e ∧ FlowsKept st d e) d₀ events d) :
    FlowsOk st (fun c k => reportSum false c k (reported st d₀ events))
      (fun c k => seenSum c k events) d := by
  induction hrun with
  | nil => exact hstart
  | snoc hrun hok ih =>
      have hnext := ih.next hok.1 hok.2
      simp only [reported_concat, reportSum_append, seenSum_concat, ← hrun.eq_foldl]
      exact hnext

end Run

end Obserwrt
