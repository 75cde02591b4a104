import Obserwrt.Lib.Run
import Obserwrt.Agent.OnLink

/-!
# The agent's views over whole runs of link events

The tcx links, the names, the marks of the drop tracer and the flow map are
updated by different code.  The runs here are arbitrary sequences of link
events with arbitrary answers to the attach calls, and between events the
kernel maps may change in any way (traffic, evictions, lifecycle passes).
The trace keeps each event with its outcome, so that "the last event of a
device" and "the attach attempts since its last detach" are functions of it.
-/

namespace Obserwrt
namespace Agent

open Lib

variable {ncpu : Nat}

/-- The events handled so far, with their outcomes. -/
abbrev Trace := List (LinkEvent × Outcome)

/-- The agent with the trace of its events. -/
structure Traced (ncpu : Nat) where
  agent : AgentState ncpu
  trace : Trace

/-- A link event with the kernel's answers, or a change of the kernel maps
behind the agent's back. -/
inductive AgentStep (ncpu : Nat)
  | link (ev : LinkEvent) (env : AttachEnv)
  | kernel (maps : Bpf.Maps ncpu)

/-- The agent right after `bpf.load`. -/
def AgentState.start (maps : Bpf.Maps ncpu) (tracer : Bool) : AgentState ncpu where
  bpf := { maps := maps, atts := ∅, attached := if tracer then some ∅ else none }
  nameByIndex := ∅
  attachedNames := []

def Traced.start (maps : Bpf.Maps ncpu) (tracer : Bool) : Traced ncpu :=
  ⟨AgentState.start maps tracer, []⟩

def Traced.step (cfg : DeviceConfig) (s : Traced ncpu) : AgentStep ncpu → Traced ncpu
  | .link ev env =>
      let (outcome, agent) := onLink cfg env ev s.agent
      ⟨agent, s.trace ++ [(ev, outcome)]⟩
  | .kernel maps => { s with agent := { s.agent with bpf := { s.agent.bpf with maps := maps } } }

/-- `bpf.attached(i)`. -/
def Traced.attached (s : Traced ncpu) (i : UInt32) : Bool :=
  s.agent.bpf.isAttached i

/-- The last event for a device. -/
def lastEvent (i : UInt32) (trace : Trace) : Option LinkEvent :=
  ((trace.map Prod.fst).filter fun ev => decide (ev.ifindex = i)).getLast?

/-- One more event seen by the list of attach attempts since the last detach. -/
def attemptsStep (i : UInt32) (attempts : List Outcome) (e : LinkEvent × Outcome) : List Outcome :=
  if e.1.ifindex = i then
    if e.2 = .detached then []
    else if e.2.isAttempt then attempts ++ [e.2]
    else attempts
  else attempts

/-- The attach attempts for a device since the start or its last detach. -/
def attemptsSinceDetach (i : UInt32) (trace : Trace) : List Outcome :=
  trace.foldl (attemptsStep i) []

theorem lastEvent_concat (i : UInt32) (trace : Trace) (e : LinkEvent × Outcome) :
    lastEvent i (trace ++ [e]) = if e.1.ifindex = i then some e.1 else lastEvent i trace := by
  unfold lastEvent
  by_cases hi : e.1.ifindex = i
  · simp [List.filter_append, hi]
  · simp [List.filter_append, hi]

theorem attemptsSinceDetach_concat (i : UInt32) (trace : Trace) (e : LinkEvent × Outcome) :
    attemptsSinceDetach i (trace ++ [e]) = attemptsStep i (attemptsSinceDetach i trace) e := by
  simp [attemptsSinceDetach]

theorem attemptsStep_isAttempt {i : UInt32} {attempts : List Outcome}
    (hold : ∀ o ∈ attempts, o.isAttempt = true) (e : LinkEvent × Outcome) :
    ∀ o ∈ attemptsStep i attempts e, o.isAttempt = true := by
  intro o hmem
  unfold attemptsStep at hmem
  split at hmem
  · split at hmem
    · cases hmem
    · split at hmem
      · rename_i hattempt
        rcases List.mem_append.mp hmem with hmem | hmem
        · exact hold o hmem
        · rw [List.mem_singleton.mp hmem]
          exact hattempt
      · exact hold o hmem
  · exact hold o hmem

/-- The link events of a history with the kernel's answers, in order. -/
def linkCalls (history : List (AgentStep ncpu)) : List (LinkEvent × AttachEnv) :=
  history.filterMap fun
    | .link ev env => some (ev, env)
    | .kernel _ => none

theorem linkCalls_link (history : List (AgentStep ncpu)) (ev : LinkEvent) (env : AttachEnv) :
    linkCalls (history ++ [.link ev env]) = linkCalls history ++ [(ev, env)] := by
  simp [linkCalls]

theorem linkCalls_kernel (history : List (AgentStep ncpu)) (maps : Bpf.Maps ncpu) :
    linkCalls (history ++ [.kernel maps]) = linkCalls history := by
  simp [linkCalls]

/-- An entry of the trace is about the event of a call, and an attempt failed
exactly when the answers of that call refuse it. -/
def Answered (call : LinkEvent × AttachEnv) (entry : LinkEvent × Outcome) : Prop :=
  entry.1 = call.1 ∧
    (entry.2.isAttempt = true →
      ∀ err, entry.2 = .attachFailed err ↔ call.2.refusal call.1.ifindex = some err)

/-- Every update of `obserwrt_attached` finds room. -/
def MarksFit (history : List (AgentStep ncpu)) : Prop :=
  ∀ a ∈ history, ∀ ev env, a = .link ev env → env.markOk = true

/-- What every reachable state satisfies.  `tried` and `failed` are the two
halves of "a wanted device is attached unless all attempts failed". -/
structure ViewsInv (cfg : DeviceConfig) (history : List (AgentStep ncpu)) (s : Traced ncpu) :
    Prop extends Agree s.agent where
  followed : ∀ i, s.attached i = true →
    ∃ ev, lastEvent i s.trace = some ev ∧ wanted cfg ev = true ∧
      s.agent.nameByIndex.lookup i = some ev.ifname
  tried : ∀ i ev, lastEvent i s.trace = some ev → wanted cfg ev = true →
    s.attached i = true ∨ attemptsSinceDetach i s.trace ≠ []
  failed : ∀ i, s.attached i = true ∨
    ∀ o ∈ attemptsSinceDetach i s.trace, o.succeeded = false
  attempts : ∀ i, ∀ o ∈ attemptsSinceDetach i s.trace, o.isAttempt = true
  markedLive : ∀ i, s.agent.bpf.isMarked i = true → s.attached i = true
  marked : MarksFit history → s.agent.bpf.attached.isSome = true →
    ∀ i, s.agent.bpf.isMarked i = s.attached i
  listed : s.agent.attachedNames.Perm ((Store.pairs s.agent.nameByIndex).map Prod.snd)
  answered : List.Forall₂ Answered (linkCalls history) s.trace

theorem viewsInv_start (cfg : DeviceConfig) (maps : Bpf.Maps ncpu) (tracer : Bool) :
    ViewsInv cfg [] (Traced.start maps tracer) where
  paired := by
    intro i l hlookup
    simp [Traced.start, AgentState.start] at hlookup
  named := by
    intro i
    simp [Traced.start, AgentState.start, BpfState.isAttached]
  followed := by
    intro i hatt
    simp [Traced.attached, Traced.start, AgentState.start, BpfState.isAttached] at hatt
  tried := by
    intro i ev hlast
    simp [Traced.start, lastEvent] at hlast
  failed := by
    intro i
    exact Or.inr (by simp [Traced.start, attemptsSinceDetach])
  attempts := by
    intro i
    simp [Traced.start, attemptsSinceDetach]
  markedLive := by
    intro i hmark
    cases tracer <;> simp [Traced.start, AgentState.start, BpfState.isMarked] at hmark
  marked := by
    intro _ _ i
    cases tracer <;>
      simp [Traced.attached, Traced.start, AgentState.start, BpfState.isAttached,
        BpfState.isMarked]
  listed := List.Perm.nil
  answered := List.Forall₂.nil

theorem marksFit_concat {history : List (AgentStep ncpu)} {a : AgentStep ncpu}
    (hfit : MarksFit (history ++ [a])) :
    MarksFit history ∧ ∀ ev env, a = .link ev env → env.markOk = true :=
  ⟨fun b hmem => hfit b (List.mem_append_left _ hmem), hfit a (by simp)⟩

theorem viewsInv_kernel {cfg : DeviceConfig} {history : List (AgentStep ncpu)} {s : Traced ncpu}
    (hinv : ViewsInv cfg history s) (maps : Bpf.Maps ncpu) :
    ViewsInv cfg (history ++ [.kernel maps]) (s.step cfg (.kernel maps)) where
  paired := hinv.paired
  named := hinv.named
  followed := hinv.followed
  tried := hinv.tried
  failed := hinv.failed
  attempts := hinv.attempts
  markedLive := hinv.markedLive
  marked := fun hfit => hinv.marked (marksFit_concat hfit).1
  listed := hinv.listed
  answered := by
    rw [linkCalls_kernel]
    exact hinv.answered

section Link

variable {cfg : DeviceConfig} {history : List (AgentStep ncpu)} {s : Traced ncpu}
  (ev : LinkEvent) (env : AttachEnv)

/-- The attempts of a device after an event for it. -/
theorem failed_step (hinv : ViewsInv cfg history s) {outcome : Outcome} {s' : AgentState ncpu}
    (h : OnLinkSpec cfg env ev s.agent outcome s')
    (hnot : s'.bpf.isAttached ev.ifindex = false) :
    ∀ o ∈ attemptsStep ev.ifindex (attemptsSinceDetach ev.ifindex s.trace) (ev, outcome),
      o.succeeded = false := by
  have hlive := h.live
  rw [hnot] at hlive
  intro o hmem
  unfold attemptsStep at hmem
  rw [if_pos rfl] at hmem
  split at hmem
  · cases hmem
  · rename_i hkept
    -- a device that stays attached would still be attached, so it was not
    have hbefore : s.agent.bpf.isAttached ev.ifindex = false := by
      cases hatt : s.agent.bpf.isAttached ev.ifindex with
      | false => rfl
      | true =>
          cases hwanted : wanted cfg ev with
          | false => exact absurd (h.detached.mpr ⟨hatt, hwanted⟩) hkept
          | true => simp [hatt, hwanted] at hlive
    have hold := (hinv.failed ev.ifindex).resolve_left (by simp [Traced.attached, hbefore])
    split at hmem
    · rename_i hattempt
      have hwanted : wanted cfg ev = true := by
        have hiff := h.attempt
        simp only at hattempt
        rw [hattempt] at hiff
        simpa [hbefore] using hiff.symm
      rcases List.mem_append.mp hmem with hmem | hmem
      · exact hold o hmem
      · simp only [List.mem_singleton] at hmem
        subst hmem
        simpa [hwanted, hbefore] using hlive.symm
    · exact hold o hmem

/-- A device attached after an event for it was wanted by that event and has
its name. -/
theorem followed_step {outcome : Outcome} {s₀ s' : AgentState ncpu}
    (h : OnLinkSpec cfg env ev s₀ outcome s') (hatt : s'.bpf.isAttached ev.ifindex = true) :
    wanted cfg ev = true ∧ s'.nameByIndex.lookup ev.ifindex = some ev.ifname := by
  have hlive := h.live
  rw [hatt] at hlive
  simp only [Bool.and_eq_true, Bool.true_eq] at hlive
  refine ⟨hlive.1, ?_⟩
  rw [h.name, if_pos hatt]

/-- A wanted event leaves its device attached, or records an attempt. -/
theorem tried_step {outcome : Outcome} {s₀ s' : AgentState ncpu}
    (h : OnLinkSpec cfg env ev s₀ outcome s') (hwanted : wanted cfg ev = true)
    (attempts : List Outcome) :
    s'.bpf.isAttached ev.ifindex = true ∨ attemptsStep ev.ifindex attempts (ev, outcome) ≠ [] := by
  cases hatt : s₀.bpf.isAttached ev.ifindex with
  | true => exact Or.inl (h.live.trans (by simp [hatt, hwanted]))
  | false =>
      right
      have hattempt : outcome.isAttempt = true := h.attempt.trans (by rw [hatt, hwanted]; rfl)
      have hkept : outcome ≠ .detached := by
        rintro rfl
        cases hattempt
      rw [attemptsStep, if_pos rfl, if_neg hkept, if_pos hattempt]
      simp

/-- With room in `obserwrt_attached`, a device is marked exactly when it is
attached. -/
theorem marked_step {outcome : Outcome} {s₀ s' : AgentState ncpu}
    (h : OnLinkSpec cfg env ev s₀ outcome s') (hroom : env.markOk = true)
    (htracer : s₀.bpf.attached.isSome = true)
    (hbefore : s₀.bpf.isMarked ev.ifindex = s₀.bpf.isAttached ev.ifindex) :
    s'.bpf.isMarked ev.ifindex = s'.bpf.isAttached ev.ifindex := by
  have hlive : s₀.bpf.isMarked ev.ifindex = true → s₀.bpf.isAttached ev.ifindex = true :=
    fun hmark => hbefore ▸ hmark
  rw [h.mark hlive, h.live, hbefore, hroom, htracer]
  cases s₀.bpf.isAttached ev.ifindex <;> simp

/-- An event keeps the invariant: for its own device by what `on_link` does,
for every other device because nothing of it changes. -/
theorem viewsInv_link (hinv : ViewsInv cfg history s) :
    ViewsInv cfg (history ++ [.link ev env]) (s.step cfg (.link ev env)) := by
  have h := onLink_spec cfg env ev hinv.toAgree
  simp only [Traced.step]
  generalize houtcome : (onLink cfg env ev s.agent).1 = outcome at h
  generalize hagent : (onLink cfg env ev s.agent).2 = s' at h
  have helse : ∀ i, i ≠ ev.ifindex → s'.bpf.isAttached i = s.attached i :=
    fun i hi => h.frame.isAttached hi
  have hlast : ∀ i, i ≠ ev.ifindex →
      lastEvent i (s.trace ++ [(ev, outcome)]) = lastEvent i s.trace := by
    intro i hi
    rw [lastEvent_concat, if_neg fun heq => hi heq.symm]
  have hattempts : ∀ i, i ≠ ev.ifindex →
      attemptsSinceDetach i (s.trace ++ [(ev, outcome)]) = attemptsSinceDetach i s.trace := by
    intro i hi
    rw [attemptsSinceDetach_concat, attemptsStep, if_neg fun heq => hi heq.symm]
  refine ⟨h.agree hinv.toAgree, ?_, ?_, ?_, ?_, h.marked_live hinv.markedLive, ?_, ?_, ?_⟩
  · intro i hatt
    -- the event's own device first, then any other
    by_cases hi : i = ev.ifindex
    · subst hi
      exact ⟨ev, by rw [lastEvent_concat, if_pos rfl], followed_step ev env h hatt⟩
    · obtain ⟨ev', hev, hwanted, hname⟩ := hinv.followed i ((helse i hi).symm.trans hatt)
      exact ⟨ev', (hlast i hi).trans hev, hwanted, (h.names i hi).trans hname⟩
  · intro i ev' hev hwanted
    by_cases hi : i = ev.ifindex
    · subst hi
      rw [lastEvent_concat, if_pos rfl] at hev
      cases hev
      rw [attemptsSinceDetach_concat]
      exact tried_step ev env h hwanted _
    · rw [hlast i hi] at hev
      rw [hattempts i hi]
      exact (hinv.tried i ev' hev hwanted).imp_left (helse i hi).trans
  · intro i
    by_cases hi : i = ev.ifindex
    · subst hi
      cases hatt : s'.bpf.isAttached ev.ifindex with
      | true => exact Or.inl hatt
      | false =>
          right
          rw [attemptsSinceDetach_concat]
          exact failed_step ev env hinv h hatt
    · rw [hattempts i hi]
      exact (hinv.failed i).imp_left (helse i hi).trans
  · intro i
    rw [attemptsSinceDetach_concat]
    exact attemptsStep_isAttempt (hinv.attempts i) (ev, outcome)
  · intro hfit htracer i
    obtain ⟨hfit, hroom⟩ := marksFit_concat hfit
    have htracer : s.agent.bpf.attached.isSome = true := h.tracer.symm.trans htracer
    by_cases hi : i = ev.ifindex
    · subst hi
      exact marked_step ev env h (hroom ev env rfl) htracer (hinv.marked hfit htracer ev.ifindex)
    · exact (h.frame.isMarked hi).trans
        ((hinv.marked hfit htracer i).trans (helse i hi).symm)
  · subst hagent
    exact (List.mergeSort_perm _ _).map Prod.snd
  · have hlast : List.Forall₂ Answered [(ev, env)] [(ev, outcome)] :=
      List.Forall₂.cons ⟨rfl, h.refused⟩ List.Forall₂.nil
    rw [linkCalls_link]
    exact List.rel_append hinv.answered hlast

end Link

theorem viewsInv_step (cfg : DeviceConfig) (history : List (AgentStep ncpu)) (s : Traced ncpu)
    (a : AgentStep ncpu) (hinv : ViewsInv cfg history s) :
    ViewsInv cfg (history ++ [a]) (s.step cfg a) := by
  cases a with
  | link ev env => exact viewsInv_link ev env hinv
  | kernel maps => exact viewsInv_kernel hinv maps

/-! ## Whole runs -/

theorem viewsInv_run {cfg : DeviceConfig} {maps : Bpf.Maps ncpu} {tracer : Bool}
    {history : List (AgentStep ncpu)} {s : Traced ncpu}
    (hrun : Run (Traced.step cfg) (fun _ _ => True) (Traced.start maps tracer) history s) :
    ViewsInv cfg history s :=
  hrun.invariant (viewsInv_start cfg maps tracer) fun history s a hinv _ =>
    viewsInv_step cfg history s a hinv

/-- An attempt that did not succeed failed. -/
theorem attachFailed_of_attempt {o : Outcome} (hattempt : o.isAttempt = true)
    (hfailed : o.succeeded = false) : ∃ err, o = .attachFailed err := by
  cases o with
  | attachFailed err => exact ⟨err, rfl⟩
  | attached eth warn => cases hfailed
  | detached => cases hattempt
  | renamed => cases hattempt
  | unchanged => cases hattempt
  | ignored => cases hattempt

/-- **Attachment follows the last link event, and the views agree.**  After
every sequence of events: an attached device was wanted by its last event, and
a device wanted by its last event is attached unless every attempt since the
start or its last detach failed, which each attempt did exactly when the
answers to its event's attach calls refused it; the names are those of the
attached devices' last events; the marks of the drop tracer, while they fit, are the attached
devices.  The next event, whatever it is, leaves no flow of a device it
detaches and changes nothing of any other device. -/
theorem attachment_follows_last_event (cfg : DeviceConfig) (maps : Bpf.Maps ncpu) (tracer : Bool)
    (history : List (AgentStep ncpu)) (s : Traced ncpu)
    (hrun : Run (Traced.step cfg) (fun _ _ => True) (Traced.start maps tracer) history s) :
    (∀ i, s.attached i = true →
      ∃ ev, lastEvent i s.trace = some ev ∧ wanted cfg ev = true) ∧
    (∀ i ev, lastEvent i s.trace = some ev → wanted cfg ev = true →
      s.attached i = true ∨
        (attemptsSinceDetach i s.trace ≠ [] ∧
          ∀ o ∈ attemptsSinceDetach i s.trace, ∃ err, o = .attachFailed err)) ∧
    List.Forall₂ Answered (linkCalls history) s.trace ∧
    (∀ i name, s.agent.nameByIndex.lookup i = some name ↔
      s.attached i = true ∧ ∃ ev, lastEvent i s.trace = some ev ∧ ev.ifname = name) ∧
    (MarksFit history → ∀ m, s.agent.bpf.attached = some m →
      ∀ i, i ∈ m ↔ s.attached i = true) ∧
    (∀ ev env, s.attached ev.ifindex = true →
      (s.step cfg (.link ev env)).attached ev.ifindex = false →
        ∀ k v, (s.step cfg (.link ev env)).agent.bpf.maps.flows.lookup k = some v →
          k.ifindex ≠ ev.ifindex) ∧
    (∀ ev env, SameElsewhere ev.ifindex s.agent.bpf (s.step cfg (.link ev env)).agent.bpf ∧
      ∀ j, j ≠ ev.ifindex → (s.step cfg (.link ev env)).agent.nameByIndex.lookup j =
        s.agent.nameByIndex.lookup j) := by
  have hinv := viewsInv_run hrun
  refine ⟨?_, ?_, hinv.answered, ?_, ?_, ?_, ?_⟩
  · intro i hatt
    obtain ⟨ev, hev, hwanted, -⟩ := hinv.followed i hatt
    exact ⟨ev, hev, hwanted⟩
  · intro i ev hev hwanted
    cases hatt : s.attached i with
    | true => exact Or.inl rfl
    | false =>
        have hnot : ¬ s.attached i = true := by simp [hatt]
        exact Or.inr ⟨(hinv.tried i ev hev hwanted).resolve_left hnot, fun o hmem =>
          attachFailed_of_attempt (hinv.attempts i o hmem)
            ((hinv.failed i).resolve_left hnot o hmem)⟩
  · intro i name
    constructor
    · intro hname
      have hatt : s.attached i = true := by
        rw [Traced.attached, ← hinv.named i, hname]
        rfl
      obtain ⟨ev, hev, -, hname'⟩ := hinv.followed i hatt
      exact ⟨hatt, ev, hev, Option.some.inj (hname'.symm.trans hname)⟩
    · rintro ⟨hatt, ev, hev, rfl⟩
      obtain ⟨ev', hev', -, hname⟩ := hinv.followed i hatt
      cases hev.symm.trans hev'
      exact hname
  · intro hfit m hm i
    have hmark := hinv.marked hfit (by rw [hm]; rfl) i
    rw [BpfState.isMarked, hm, Option.bind_some] at hmark
    rw [← hmark, AList.lookup_isSome]
  · intro ev env hatt hnot k v hlookup hk
    have hpurged := (onLink_spec cfg env ev hinv.toAgree).purged hatt hnot k hk
    cases hlookup.symm.trans hpurged
  · intro ev env
    have h := onLink_spec cfg env ev hinv.toAgree
    exact ⟨h.frame, h.names⟩

/-- A configuration that observes every device, for concrete runs. -/
def demoDevices : DeviceConfig := ⟨[[42]], fun _ _ => true⟩

/-- Device 3 comes up while the egress hook is refused, comes up again, and is
renamed. -/
def demoEvents : List (AgentStep 1) :=
  [.link ⟨3, [101], 1, true, true⟩ { egressOk := false },
   .link ⟨3, [101], 1, true, true⟩ {},
   .link ⟨3, [102], 1, true, true⟩ {}]

theorem attachment_follows_last_event_demo :
    (demoEvents.foldl (Traced.step demoDevices)
        (Traced.start (Bpf.Maps.empty 1 8) true)).agent.nameByIndex.lookup 3 = some [102] := by
  have hrun : Run (Traced.step demoDevices) (fun _ _ => True)
      (Traced.start (Bpf.Maps.empty 1 8) true) demoEvents
      (demoEvents.foldl (Traced.step demoDevices) (Traced.start (Bpf.Maps.empty 1 8) true)) :=
    Run.of_check (by decide)
  have hviews := attachment_follows_last_event demoDevices (Bpf.Maps.empty 1 8) true _ _ hrun
  exact (hviews.2.2.2.1 3 [102]).mpr ⟨by decide, ⟨3, [102], 1, true, true⟩, by decide, rfl⟩

end Agent
end Obserwrt
