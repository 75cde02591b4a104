import Obserwrt.Lifecycle.Conservation

/-!
# The records of a flow, life by life

What a collector gets for one key is a sequence of lives.  A life is a list of
records of which exactly the last one is marked expired; all of them tell the
same start, the counters of each record are the sums of the deltas sent in this
life so far, and nothing a record says is taken back by a later one.  A flow
that comes again after its expiry begins a new life from zero.
-/

namespace Obserwrt
namespace Lifecycle

open Lib

/-! ## Lives -/

/-- A later state of one entry of the flow map. -/
structure Grown (v v' : FlowVal) : Prop where
  start : v'.firstSeen = v.firstSeen
  vlan : v'.vlanId = v.vlanId
  tos : v'.tos = v.tos
  flags : v.tcpFlags ||| v'.tcpFlags = v'.tcpFlags
  counters : ∀ c : Counter, (c.ofVal v).toNat ≤ (c.ofVal v').toNat

theorem Grown.refl (v : FlowVal) : Grown v v where
  start := rfl
  vlan := rfl
  tos := rfl
  flags := UInt16.or_self
  counters := fun _ => Nat.le_refl _

/-- A packet makes the entry grow. -/
theorem Grown.apply {v v' : FlowVal} (h : Grown v v') (u : Bpf.FlowUpdate) (now : UInt64)
    (hbelow : ∀ c : Counter, (c.ofVal v').toNat < 2 ^ 63) : Grown v (u.apply now v') where
  start := h.start
  vlan := h.vlan
  tos := h.tos
  flags := by
    show v.tcpFlags ||| (v'.tcpFlags ||| u.tcpf.toUInt16) = v'.tcpFlags ||| u.tcpf.toUInt16
    rw [← UInt16.or_assoc, h.flags]
  counters := by
    intro c
    have hv := h.counters c
    have hbound := hbelow c
    have hu := (c.ofUpdate u).toNat_lt
    rw [Counter.ofVal_apply, UInt64.toNat_add, UInt32.toNat_toUInt64, Nat.mod_eq_of_lt (by omega)]
    omega

/-- Records that tell one growing entry, each with what its life sent so far. -/
structure Life (records : List Export) : Prop where
  grows : records.Pairwise fun e e' => Grown e.val e'.val
  sums : ∀ front e back, records = front ++ e :: back → ∀ c : Counter,
    (c.ofVal e.val).toNat = deltaSum c (front ++ [e])

/-- Exactly the last record is marked expired. -/
def Ended (records : List Export) : Prop :=
  ∃ front e, records = front ++ [e] ∧ e.expired = true ∧ ∀ e' ∈ front, e'.expired = false

theorem Life.nil : Life [] where
  grows := List.Pairwise.nil
  sums := by
    intro front e back h
    exact absurd h (by simp)

/-- One more record. -/
theorem Life.concat {records : List Export} (h : Life records) {e : Export}
    (hgrown : ∀ e' ∈ records, Grown e'.val e.val)
    (hsum : ∀ c : Counter, (c.ofVal e.val).toNat = deltaSum c (records ++ [e])) :
    Life (records ++ [e]) where
  grows := by
    rw [List.pairwise_append]
    refine ⟨h.grows, List.pairwise_singleton _ _, fun e' he' e'' he'' => ?_⟩
    rw [List.mem_singleton.mp he'']
    exact hgrown e' he'
  sums := by
    intro front e' back hsplit c
    -- the record is the new one or an old one
    rcases List.eq_nil_or_concat back with rfl | ⟨back, last, rfl⟩
    · obtain ⟨rfl, hlast⟩ := List.append_inj' hsplit rfl
      obtain rfl : e = e' := List.singleton_inj.mp hlast
      exact hsum c
    · have hfront : records = front ++ e' :: back := by
        have hassoc : records ++ [e] = (front ++ e' :: back) ++ [last] := by
          rw [hsplit, List.append_assoc, List.cons_append, List.concat_eq_append]
        exact (List.append_inj' hassoc rfl).1
      exact h.sums front e' back hfront c

/-! ## The invariant -/

/-- The life of a key that is going on, with the tracker and the entry it is
about. -/
structure Alive (w : World) (k : FlowKey) (current : List Export) : Prop where
  life : Life current
  unexpired : ∀ e ∈ current, e.expired = false
  known : w.last.lookup k = none ↔ current = []
  tracked : ∀ c : Counter, c.tracked (w.last.lookup k) = deltaSum c current
  grown : ∀ v, w.flows.lookup k = some v → ∀ e ∈ current, Grown e.val v

/-- What was exported for a key so far: the lives that ended, and the current
one. -/
structure Lived (w : World) (k : FlowKey) (lives : List (List Export)) (current : List Export) :
    Prop where
  records : exportsOf k w.log = lives.flatten ++ current
  ended : ∀ life ∈ lives, Life life ∧ Ended life
  alive : Alive w k current

theorem lived_empty (k : FlowKey) : Lived World.empty k [] [] where
  records := rfl
  ended := by simp
  alive :=
    { life := Life.nil
      unexpired := by simp
      known := by simp [World.empty]
      tracked := by simp [World.empty]
      grown := by simp }

section Step

variable {w : World} {k : FlowKey} {lives : List (List Export)} {current : List Export}

/-- A packet exports nothing, and what was told of its flow stays true. -/
theorem Lived.packet (h : Lived w k lives current) (hok : TrackerOk w) (key : FlowKey)
    (u : Bpf.FlowUpdate) (now : UInt64) :
    Lived { w with flows := Bpf.account key u now w.flows } k lives current where
  records := h.records
  ended := h.ended
  alive :=
    { life := h.alive.life
      unexpired := h.alive.unexpired
      known := h.alive.known
      tracked := h.alive.tracked
      grown := by
        intro v' hlookup e he
        rw [Bpf.account_lookup] at hlookup
        split at hlookup
        · rename_i hkey
          subst hkey
          -- the life is not empty, so the tracker knows the flow and it has an entry
          obtain ⟨l, hlast⟩ : ∃ l, w.last.lookup k = some l := by
            refine Option.ne_none_iff_exists'.mp fun hnone => ?_
            rw [h.alive.known.mp hnone] at he
            exact absurd he List.not_mem_nil
          obtain ⟨v, hentry, -⟩ := hok.tracked k l hlast
          rw [hentry, Option.elim_some] at hlookup
          rw [← Option.some.inj hlookup]
          exact (h.alive.grown v hentry e he).apply u now (hok.below k v hentry)
        · exact h.alive.grown v' hlookup e he }

/-- The record of a visit continues the current life. -/
theorem Alive.continues (h : Alive w k current) (hok : TrackerOk w) {v : FlowVal}
    (hlookup : w.flows.lookup k = some v) (expired : Bool) :
    Life (current ++ [⟨k, v, expired, deltaSince (w.last.lookup k) v⟩]) ∧
      ∀ c : Counter, (c.ofVal v).toNat =
        deltaSum c (current ++ [⟨k, v, expired, deltaSince (w.last.lookup k) v⟩]) := by
  have hsum : ∀ c : Counter, (c.ofVal v).toNat =
      deltaSum c (current ++ [⟨k, v, expired, deltaSince (w.last.lookup k) v⟩]) := by
    intro c
    have hle : ∀ l ∈ w.last.lookup k, (c.ofLast l).toNat ≤ (c.ofVal v).toNat := by
      intro l hl
      obtain ⟨v', hentry, hle⟩ := hok.tracked k l hl
      rw [hlookup] at hentry
      cases hentry
      exact hle c
    have hdelta := ofDelta_deltaSince_toNat c hle (hok.below k v hlookup c)
    have htracked := tracked_le_of_forall c hle
    rw [h.tracked c] at hdelta htracked
    have hlast : deltaSum c (current ++ [⟨k, v, expired, deltaSince (w.last.lookup k) v⟩]) =
        deltaSum c current + (c.ofDelta (deltaSince (w.last.lookup k) v)).toNat := by
      simp [deltaSum]
    rw [hlast, hdelta]
    omega
  exact ⟨h.life.concat (h.grown v hlookup) hsum, hsum⟩

/-- **A pass continues the life of a flow, ends it, or leaves it alone.** -/
theorem Lived.pass {cfg : Config} {now : UInt64} {walk : List (FlowKey × FlowVal)}
    (h : Lived w k lives current) (hok : TrackerOk w) (hwalk : IsFullWalk w.flows walk) :
    ∃ lives' current', Lived (w.pass cfg now walk) k lives' current' := by
  have hlog : exportsOf k (w.pass cfg now walk).log =
      lives.flatten ++ current ++ exportsOf k (run cfg now walk w.flows w.last).exports := by
    rw [World.pass, exportsOf_append, h.records]
  rcases mem_walk_cases walk k with ⟨v, hmem⟩ | hkey
  · obtain ⟨hflows, hlast, hexports⟩ := run_at_mem cfg now w.flows w.last hwalk.nodup hmem
    have hlookup := hwalk.current k v hmem
    rw [hexports, record] at hlog
    by_cases hexp : isExpired cfg now k v = true
    · -- the last record of this life
      rw [if_pos hexp] at hflows hlast hlog
      refine ⟨lives ++ [current ++ [⟨k, v, true, deltaSince (w.last.lookup k) v⟩]], [], ?_, ?_, ?_⟩
      · rw [hlog]
        simp
      · intro life hlife
        rcases List.mem_append.mp hlife with hold | hnew
        · exact h.ended life hold
        · rw [List.mem_singleton.mp hnew]
          exact ⟨(h.alive.continues hok hlookup true).1, _, _, rfl, rfl, h.alive.unexpired⟩
      · refine ⟨Life.nil, by simp, ?_, ?_, by simp⟩
        · simp only [World.pass, hlast]
        · intro c
          simp only [World.pass, hlast]
          rfl
    · rw [if_neg hexp] at hflows hlast hlog
      obtain ⟨hlife, hsum⟩ := h.alive.continues hok hlookup false
      by_cases hchanged : changedSince (w.last.lookup k) v = true
      · rw [if_pos hchanged] at hlog
        refine ⟨lives, current ++ [⟨k, v, false, deltaSince (w.last.lookup k) v⟩], ?_, h.ended, ?_⟩
        · rw [hlog, List.append_assoc]
        · refine ⟨hlife, ?_, ?_, ?_, ?_⟩
          · intro e he
            rcases List.mem_append.mp he with hold | hnew
            · exact h.alive.unexpired e hold
            · rw [List.mem_singleton.mp hnew]
          · simp [World.pass, hlast]
          · intro c
            simp only [World.pass, hlast, Counter.tracked_some, Counter.ofLast_of]
            exact hsum c
          · intro v' hv' e he
            simp only [World.pass, hflows, hlookup, Option.some.injEq] at hv'
            subst hv'
            rcases List.mem_append.mp he with hold | hnew
            · exact h.alive.grown v hlookup e hold
            · rw [List.mem_singleton.mp hnew]
              exact Grown.refl v
      · -- nothing new: the tracker reads the same counters again
        rw [if_neg hchanged, List.append_nil] at hlog
        have hsame := Bool.eq_false_of_not_eq_true hchanged
        refine ⟨lives, current, hlog, h.ended, h.alive.life, h.alive.unexpired, ?_, ?_, ?_⟩
        · have hknown : w.last.lookup k ≠ none := by
            intro hnone
            rw [hnone, changedSince] at hsame
            cases hsame
          have hne := mt h.alive.known.mpr hknown
          simp [World.pass, hlast, hne]
        · intro c
          have htracked := eq_tracked_of_not_changed c hsame
          rw [h.alive.tracked c] at htracked
          simp only [World.pass, hlast, Counter.tracked_some, Counter.ofLast_of]
          exact htracked.symm
        · intro v' hv'
          simp only [World.pass, hflows] at hv'
          exact h.alive.grown v' hv'
  · -- a full walk passes over no entry, so there is none and the tracker knows none
    obtain ⟨hflows, hlast, hexports⟩ := run_at_notMem cfg now w.flows w.last hkey
    have hnone : w.last.lookup k = none := by
      refine Option.eq_none_iff_forall_ne_some.mpr fun l hl => ?_
      exact hkey (tracked_mem_full hok hwalk hl)
    have hempty := h.alive.known.mp hnone
    subst hempty
    rw [hexports, List.append_nil] at hlog
    refine ⟨lives, [], hlog, h.ended, Life.nil, by simp, ?_, ?_, by simp⟩
    · simp [World.pass, hlast]
    · intro c
      simp [World.pass, hlast]

end Step

/-- The records of every key are lives. -/
structure Chronicle (w : World) : Prop extends TrackerOk w where
  lives : ∀ k, ∃ lives current, Lived w k lives current

theorem chronicle_empty : Chronicle World.empty where
  toTrackerOk := trackerOk_empty
  lives := fun k => ⟨[], [], lived_empty k⟩

theorem chronicle_step (cfg : Config) (_ : List Step) (w : World) (a : Step) (h : Chronicle w)
    (hquiet : QuietStep w a) : Chronicle (w.step cfg a) := by
  cases a with
  | packet key u now =>
      refine ⟨trackerOk_packet key u now h.toTrackerOk hquiet, fun k => ?_⟩
      obtain ⟨lives, current, hlived⟩ := h.lives k
      exact ⟨lives, current, hlived.packet h.toTrackerOk key u now⟩
  | pass now replies =>
      obtain ⟨walk, hreplies, hperm⟩ := hquiet
      have hwalk := IsFullWalk.of_perm hperm
      have hpass : w.step cfg (.pass now replies) = w.pass cfg now walk := by
        simp [World.step, hreplies]
      rw [hpass]
      refine ⟨trackerOk_pass now h.toTrackerOk hwalk.toIsWalk, fun k => ?_⟩
      obtain ⟨lives, current, hlived⟩ := h.lives k
      exact hlived.pass h.toTrackerOk hwalk

/-- **The records of a flow form lives.**  In every run of packets and complete
passes, what was exported for a key is a sequence of lives that ended, each
with exactly its last record marked expired, and the records of the current
life, none of them marked; within a life the start, the VLAN and the TOS stay
the same, flags and counters only grow, and the counters of every record are
the sums of the deltas of its life up to it.  There is a current life exactly
where the tracker knows the flow. -/
theorem flow_records_form_lives (cfg : Config) (history : List Step) (w : World)
    (hrun : Run (World.step cfg) QuietStep World.empty history w) (k : FlowKey) :
    ∃ (lives : List (List Export)) (current : List Export),
      exportsOf k w.log = lives.flatten ++ current ∧
      (∀ life ∈ lives, Life life ∧ Ended life) ∧
      Life current ∧ (∀ e ∈ current, e.expired = false) ∧
      (w.last.lookup k = none ↔ current = []) := by
  obtain ⟨lives, current, h⟩ := (hrun.invariant chronicle_empty (chronicle_step cfg)).lives k
  exact ⟨lives, current, h.records, h.ended, h.alive.life, h.alive.unexpired, h.alive.known⟩

theorem flow_records_form_lives_demo :
    ∃ (lives : List (List Export)) (current : List Export),
      exportsOf demoKey demoEnd.log = lives.flatten ++ current ∧
      (∀ life ∈ lives, Life life ∧ Ended life) ∧ lives ≠ [] ∧ current = [] := by
  have hrun : Run (World.step demoConfig) QuietStep World.empty demoHistory demoEnd :=
    Run.of_check (by decide)
  obtain ⟨lives, current, hrecords, hended, -, -, hcurrent⟩ :=
    flow_records_form_lives demoConfig demoHistory demoEnd hrun demoKey
  have hnone : current = [] := hcurrent.mp (by decide)
  refine ⟨lives, current, hrecords, hended, ?_, hnone⟩
  rintro rfl
  rw [hnone] at hrecords
  have hsome : exportsOf demoKey demoEnd.log ≠ [] := by decide
  exact hsome hrecords

end Lifecycle
end Obserwrt
