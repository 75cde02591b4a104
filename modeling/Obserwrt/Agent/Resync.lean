import Obserwrt.Agent.Views

/-!
# Resynchronisation after lost notifications

When a receive on the netlink socket fails, the agent replays a fresh
`RTM_GETLINK` dump through `on_link`.  The dump has one event for each link
the kernel has now and none for links that are gone, so it brings every
existing device to the state it should be in and leaves every other device as
it was.  A device that vanished while notifications were lost therefore stays
attached, named and marked, and its flows stay in the map.  A device that is
attached without a mark (its map was full at the time) and still wanted is not
marked by the dump either.  Otherwise agreement with the kernel is restored.
-/

namespace Obserwrt
namespace Agent

open Lib

variable {ncpu : Nat}

/-- A link as the kernel has it. -/
structure Link where
  ifindex : UInt32
  name : Bytes
  type : UInt16
  up : Bool
  ifindex_ne_zero : ifindex ≠ 0
  name_ne_nil : name ≠ []

/-- The links the kernel has, with distinct ifindexes. -/
structure KernelLinks where
  links : List Link
  distinct : (links.map Link.ifindex).Nodup

/-- The event a dump reports for a link. -/
def Link.event (l : Link) : LinkEvent :=
  ⟨l.ifindex, l.name, l.type, true, l.up⟩

/-- `Reconcile::dump` with `on_link` as its callback, every call of the kernel
succeeding.  Messages without a name are skipped. -/
def dump (cfg : DeviceConfig) (links : List Link) (s : AgentState ncpu) : AgentState ncpu :=
  links.foldl (fun s l => if l.name ≠ [] then (onLink cfg {} l.event s).2 else s) s

/-- The device exists, is up and matches a configured pattern. -/
def Observable (cfg : DeviceConfig) (kernel : KernelLinks) (i : UInt32) : Prop :=
  ∃ l ∈ kernel.links, l.ifindex = i ∧ l.up = true ∧ matchDevice cfg l.name = true

/-- What a resynchronisation from `s` to `s'` should achieve: attached, named
and marked are exactly the observable devices, each under the name its link has
now, and a device that was attached
and is no longer observable has no name and no flow left. -/
structure Resynced (cfg : DeviceConfig) (kernel : KernelLinks) (s s' : AgentState ncpu) :
    Prop where
  attached : ∀ i, s'.bpf.isAttached i = true ↔ Observable cfg kernel i
  named : ∀ i, (s'.nameByIndex.lookup i).isSome = true ↔ Observable cfg kernel i
  current : ∀ l ∈ kernel.links, ∀ name, s'.nameByIndex.lookup l.ifindex = some name →
    name = l.name
  marked : s'.bpf.attached.isSome = true →
    ∀ i, s'.bpf.isMarked i = true ↔ Observable cfg kernel i
  dropped : ∀ i, s.bpf.isAttached i = true → ¬ Observable cfg kernel i →
    s'.nameByIndex.lookup i = none ∧
      ∀ k : FlowKey, k.ifindex = i → s'.bpf.maps.flows.lookup k = none

section Dump

variable (cfg : DeviceConfig) {s : AgentState ncpu}

/-- With every call succeeding, a wanted device that is not attached gets
attached. -/
theorem onLink_succeeded_of_ok {ev : LinkEvent} (hagree : Agree s) (hindex : ev.ifindex ≠ 0)
    (hwanted : wanted cfg ev = true) (hnot : s.bpf.isAttached ev.ifindex = false) :
    (onLink cfg {} ev s).1.succeeded = true := by
  have hattach := attach_unlinked hagree.paired hnot (linkIsEthernet ev.type) {}
  simp only [if_neg hindex, Bool.true_eq_false, if_false, finishAttach] at hattach
  simp [onLink, reconcileLink, hnot, hwanted, hattach, Outcome.succeeded]

/-- With every call succeeding, an event decides the attachment of its device. -/
theorem onLink_live_of_ok {ev : LinkEvent} (hagree : Agree s) (hindex : ev.ifindex ≠ 0) :
    (onLink cfg {} ev s).2.bpf.isAttached ev.ifindex = wanted cfg ev := by
  rw [(onLink_spec cfg {} ev hagree).live]
  cases hwanted : wanted cfg ev with
  | false => rfl
  | true =>
      cases hatt : s.bpf.isAttached ev.ifindex with
      | true => rfl
      | false => rw [onLink_succeeded_of_ok cfg hagree hindex hwanted hatt]; rfl

/-- An event marks a device it attaches and leaves the mark of one that stays
attached. -/
theorem onLink_marked_of_ok (ev : LinkEvent) (hagree : Agree s) (hindex : ev.ifindex ≠ 0)
    (hlive : ∀ i, s.bpf.isMarked i = true → s.bpf.isAttached i = true) :
    (onLink cfg {} ev s).2.bpf.isMarked ev.ifindex =
      (wanted cfg ev && if s.bpf.isAttached ev.ifindex then s.bpf.isMarked ev.ifindex
        else s.bpf.attached.isSome) := by
  rw [(onLink_spec cfg {} ev hagree).mark (hlive ev.ifindex)]
  cases hwanted : wanted cfg ev with
  | false => rfl
  | true =>
      cases hatt : s.bpf.isAttached ev.ifindex with
      | true => rfl
      | false => simp [onLink_succeeded_of_ok cfg hagree hindex hwanted hatt]

theorem dump_cons (l : Link) (links : List Link) :
    dump cfg (l :: links) s = dump cfg links (onLink cfg {} l.event s).2 := by
  simp [dump, l.name_ne_nil]

/-- A dump leaves alone the devices it does not list. -/
theorem dump_notMem {links : List Link} (hagree : Agree s) {i : UInt32}
    (hi : i ∉ links.map Link.ifindex) :
    (dump cfg links s).bpf.isAttached i = s.bpf.isAttached i ∧
      (dump cfg links s).bpf.isMarked i = s.bpf.isMarked i ∧
      (dump cfg links s).nameByIndex.lookup i = s.nameByIndex.lookup i ∧
      ∀ k : FlowKey, k.ifindex = i →
        (dump cfg links s).bpf.maps.flows.lookup k = s.bpf.maps.flows.lookup k := by
  induction links generalizing s with
  | nil => exact ⟨rfl, rfl, rfl, fun _ _ => rfl⟩
  | cons l links ih =>
      simp only [List.map_cons, List.mem_cons, not_or] at hi
      have h := onLink_spec cfg {} l.event hagree
      obtain ⟨hatt, hmark, hname, hflows⟩ := ih (h.agree hagree) hi.2
      rw [dump_cons]
      refine ⟨hatt.trans (h.frame.isAttached hi.1), hmark.trans (h.frame.isMarked hi.1),
        hname.trans (h.names i hi.1), fun k hk => (hflows k hk).trans ?_⟩
      exact h.frame.flows k (by rw [hk]; exact hi.1)

/-- A dump decides the attachment and the name of every device it lists, purges
those it detaches, and marks those it attaches. -/
theorem dump_mem {links : List Link} (hagree : Agree s)
    (hlive : ∀ i, s.bpf.isMarked i = true → s.bpf.isAttached i = true)
    (hdistinct : (links.map Link.ifindex).Nodup) {l : Link} (hl : l ∈ links) :
    (dump cfg links s).bpf.isAttached l.ifindex = wanted cfg l.event ∧
      (dump cfg links s).bpf.isMarked l.ifindex =
        (wanted cfg l.event && if s.bpf.isAttached l.ifindex then s.bpf.isMarked l.ifindex
          else s.bpf.attached.isSome) ∧
      ((dump cfg links s).nameByIndex.lookup l.ifindex =
        if wanted cfg l.event then some l.name else none) ∧
      (s.bpf.isAttached l.ifindex = true → wanted cfg l.event = false →
        ∀ k : FlowKey, k.ifindex = l.ifindex →
          (dump cfg links s).bpf.maps.flows.lookup k = none) := by
  induction links generalizing s with
  | nil => cases hl
  | cons first links ih =>
      rw [List.map_cons, List.nodup_cons] at hdistinct
      have h := onLink_spec cfg {} first.event hagree
      rw [dump_cons]
      rcases List.mem_cons.mp hl with rfl | htail
      · -- decided here, and not touched by the rest of the dump
        obtain ⟨hatt, hmark, hname, hflows⟩ := dump_notMem cfg (h.agree hagree) hdistinct.1
        have hdecided : (onLink cfg {} l.event s).2.bpf.isAttached l.ifindex =
            wanted cfg l.event := onLink_live_of_ok cfg hagree l.ifindex_ne_zero
        have hcurrent : (onLink cfg {} l.event s).2.nameByIndex.lookup l.ifindex =
            if wanted cfg l.event then some l.name else none := by
          rw [← hdecided]
          exact h.name
        refine ⟨hatt.trans hdecided,
          hmark.trans (onLink_marked_of_ok cfg l.event hagree l.ifindex_ne_zero hlive),
          hname.trans hcurrent, fun hbefore hunwanted k hk => (hflows k hk).trans ?_⟩
        exact h.purged hbefore (hdecided.trans hunwanted) k hk
      · have hne : l.ifindex ≠ first.ifindex := by
          intro heq
          exact hdistinct.1 (List.mem_map.mpr ⟨l, htail, heq⟩)
        obtain ⟨hatt, hmark, hname, hpurged⟩ :=
          ih (h.agree hagree) (h.marked_live hlive) hdistinct.2 htail
        rw [h.frame.isAttached hne, h.frame.isMarked hne, h.tracer] at hmark
        exact ⟨hatt, hmark, hname, fun hbefore => hpurged ((h.frame.isAttached hne).trans hbefore)⟩

theorem dump_agree (links : List Link) (hagree : Agree s) :
    Agree (dump cfg links s) ∧
      (dump cfg links s).bpf.attached.isSome = s.bpf.attached.isSome := by
  induction links generalizing s with
  | nil => exact ⟨hagree, rfl⟩
  | cons l links ih =>
      have h := onLink_spec cfg {} l.event hagree
      obtain ⟨hrest, htracer⟩ := ih (h.agree hagree)
      rw [dump_cons]
      exact ⟨hrest, htracer.trans h.tracer⟩

theorem wanted_event_iff (l : Link) :
    wanted cfg l.event = true ↔ l.up = true ∧ matchDevice cfg l.name = true := by
  simp [wanted, Link.event]

/-- A dump attaches exactly the observable devices, when no attached device
vanished. -/
theorem dump_attached_iff {kernel : KernelLinks} (hagree : Agree s)
    (hlive : ∀ i, s.bpf.isMarked i = true → s.bpf.isAttached i = true)
    (hexist : ∀ i, s.bpf.isAttached i = true → ∃ l ∈ kernel.links, l.ifindex = i) (i : UInt32) :
    (dump cfg kernel.links s).bpf.isAttached i = true ↔ Observable cfg kernel i := by
  constructor
  · intro hatt
    by_cases hmem : i ∈ kernel.links.map Link.ifindex
    · obtain ⟨l, hl, rfl⟩ := List.mem_map.mp hmem
      rw [(dump_mem cfg hagree hlive kernel.distinct hl).1, wanted_event_iff] at hatt
      exact ⟨l, hl, rfl, hatt⟩
    · rw [(dump_notMem cfg hagree hmem).1] at hatt
      obtain ⟨l, hl, heq⟩ := hexist i hatt
      exact absurd (List.mem_map.mpr ⟨l, hl, heq⟩) hmem
  · rintro ⟨l, hl, rfl, hobservable⟩
    rw [(dump_mem cfg hagree hlive kernel.distinct hl).1, wanted_event_iff]
    exact hobservable

/-- The marks after a dump, at an observable device. -/
theorem dump_marked_of_observable {kernel : KernelLinks} (hagree : Agree s)
    (hlive : ∀ i, s.bpf.isMarked i = true → s.bpf.isAttached i = true) {i : UInt32}
    (hobservable : Observable cfg kernel i) :
    (dump cfg kernel.links s).bpf.isMarked i =
      if s.bpf.isAttached i then s.bpf.isMarked i else s.bpf.attached.isSome := by
  obtain ⟨l, hl, rfl, hwanted⟩ := hobservable
  rw [(dump_mem cfg hagree hlive kernel.distinct hl).2.1, (wanted_event_iff cfg l).mpr hwanted,
    Bool.true_and]

/-- A dump marks exactly the observable devices, when no attached device
vanished and no observable one lacked its mark. -/
theorem dump_marked_iff {kernel : KernelLinks} (hagree : Agree s)
    (hlive : ∀ i, s.bpf.isMarked i = true → s.bpf.isAttached i = true)
    (hexist : ∀ i, s.bpf.isAttached i = true → ∃ l ∈ kernel.links, l.ifindex = i)
    (hactive : s.bpf.attached.isSome = true)
    (hmarks : ∀ i, s.bpf.isAttached i = true → Observable cfg kernel i → s.bpf.isMarked i = true)
    (i : UInt32) :
    (dump cfg kernel.links s).bpf.isMarked i = true ↔ Observable cfg kernel i := by
  constructor
  · intro hmark
    by_cases hmem : i ∈ kernel.links.map Link.ifindex
    · obtain ⟨l, hl, rfl⟩ := List.mem_map.mp hmem
      rw [(dump_mem cfg hagree hlive kernel.distinct hl).2.1, Bool.and_eq_true,
        wanted_event_iff] at hmark
      exact ⟨l, hl, rfl, hmark.1⟩
    · rw [(dump_notMem cfg hagree hmem).2.1] at hmark
      obtain ⟨l, hl, heq⟩ := hexist i (hlive i hmark)
      exact absurd (List.mem_map.mpr ⟨l, hl, heq⟩) hmem
  · intro hobservable
    rw [dump_marked_of_observable cfg hagree hlive hobservable]
    cases hatt : s.bpf.isAttached i with
    | true => exact hmarks i hatt hobservable
    | false => exact hactive

end Dump

/-! ## Reachable states -/

/-- **When a resynchronisation restores agreement.**  From every reachable
state and for every set of links the kernel has by then, the dump restores
agreement with the kernel if and only if every attached device still exists
and, with the drop tracer, every attached device that is still observable had
its mark. -/
theorem resynced_iff_attached_exist (cfg : DeviceConfig) (maps : Bpf.Maps ncpu) (tracer : Bool)
    (history : List (AgentStep ncpu)) (s : Traced ncpu)
    (hrun : Run (Traced.step cfg) (fun _ _ => True) (Traced.start maps tracer) history s)
    (kernel : KernelLinks) :
    Resynced cfg kernel s.agent (dump cfg kernel.links s.agent) ↔
      (∀ i, s.attached i = true → ∃ l ∈ kernel.links, l.ifindex = i) ∧
        (s.agent.bpf.attached.isSome = true →
          ∀ i, s.attached i = true → Observable cfg kernel i → s.agent.bpf.isMarked i = true) := by
  have hinv := viewsInv_run hrun
  have hlive := hinv.markedLive
  obtain ⟨hagree, htracer⟩ := dump_agree cfg kernel.links hinv.toAgree
  constructor
  · intro hsync
    refine ⟨?_, ?_⟩
    · intro i hatt
      by_contra hgone
      -- not listed, so still attached after the dump
      have hnot : i ∉ kernel.links.map Link.ifindex := by
        intro hmem
        obtain ⟨l, hl, heq⟩ := List.mem_map.mp hmem
        exact hgone ⟨l, hl, heq⟩
      have hstill := (dump_notMem cfg hinv.toAgree hnot).1.trans hatt
      obtain ⟨l, hl, heq, -⟩ := (hsync.attached i).mp hstill
      exact hgone ⟨l, hl, heq⟩
    · intro hactive i hatt hobservable
      have hmark := (hsync.marked (htracer.trans hactive) i).mpr hobservable
      rw [dump_marked_of_observable cfg hinv.toAgree hlive hobservable] at hmark
      have hatt : s.agent.bpf.isAttached i = true := hatt
      rwa [if_pos hatt] at hmark
  · rintro ⟨hexist, hmarks⟩
    have hattached := dump_attached_iff cfg hinv.toAgree hlive hexist
    refine ⟨hattached, ?_, ?_, ?_, ?_⟩
    · intro i
      rw [hagree.named i]
      exact hattached i
    · intro l hl name hname
      rw [(dump_mem cfg hinv.toAgree hlive kernel.distinct hl).2.2.1] at hname
      split at hname
      · exact (Option.some.inj hname).symm
      · cases hname
    · intro hactive
      have hactive := htracer.symm.trans hactive
      exact dump_marked_iff cfg hinv.toAgree hlive hexist hactive (hmarks hactive)
    · intro i hbefore hunobservable
      have hafter : (dump cfg kernel.links s.agent).bpf.isAttached i = false :=
        Bool.eq_false_of_not_eq_true (mt (hattached i).mp hunobservable)
      refine ⟨?_, ?_⟩
      · have hiff := hagree.named i
        rw [hafter] at hiff
        simpa using hiff
      · obtain ⟨l, hl, rfl⟩ := hexist i hbefore
        obtain ⟨hatt, -, -, hpurged⟩ := dump_mem cfg hinv.toAgree hlive kernel.distinct hl
        -- it exists, so the dump had an event for it, and that event detached it
        exact hpurged hbefore (hatt.symm.trans hafter)

/-! ## Concrete resynchronisations -/

/-- A kernel with one link. -/
def oneLink (up : Bool) : KernelLinks :=
  ⟨[⟨3, [101], 1, up, by decide, by decide⟩], by simp⟩

/-- Device 3 is attached. -/
def attachedEvents : List (AgentStep 1) :=
  [.link ⟨3, [101], 1, true, true⟩ {}]

/-- The state with device 3 attached. -/
def attachedState : Traced 1 :=
  attachedEvents.foldl (Traced.step demoDevices) (Traced.start (Bpf.Maps.empty 1 8) true)

/-- The device went down while notifications were lost: the dump lists it, and
agreement is restored. -/
theorem resynced_iff_attached_exist_demo :
    Resynced demoDevices (oneLink false) attachedState.agent
      (dump demoDevices (oneLink false).links attachedState.agent) := by
  have hrun : Run (Traced.step demoDevices) (fun _ _ => True)
      (Traced.start (Bpf.Maps.empty 1 8) true) attachedEvents attachedState :=
    Run.of_check (by decide)
  refine (resynced_iff_attached_exist demoDevices _ _ _ _ hrun (oneLink false)).mpr ⟨?_, ?_⟩
  · intro i hatt
    refine ⟨_, List.mem_singleton_self _, ?_⟩
    by_contra hne
    have hother : attachedState.attached i =
        (Traced.start (Bpf.Maps.empty 1 8) true).attached i :=
      (onLink_spec demoDevices {} ⟨3, [101], 1, true, true⟩
        (viewsInv_start demoDevices (Bpf.Maps.empty 1 8) true).toAgree).frame.isAttached
          fun heq => hne heq.symm
    cases hother.symm.trans hatt
  · rintro _ i _ ⟨l, hl, -, hup, -⟩
    simp only [oneLink, List.mem_singleton] at hl
    subst hl
    cases hup

/-- A flow of device 3. -/
def deviceFlow : FlowKey where
  ifindex := 3
  direction := 0
  family := 6
  protocol := 17
  reserved := 0
  src := List.Vector.replicate 16 1
  dst := List.Vector.replicate 16 2
  sport := 53
  dport := 53
  icmpType := 0
  icmpCode := 0

/-- Device 3 is attached and has a flow. -/
def vanishingEvents : List (AgentStep 1) :=
  attachedEvents ++
    [.kernel { Bpf.Maps.empty 1 8 with
      flows := AList.insert deviceFlow ⟨5, 500, 1, 1, 0, 0, 0⟩ ∅ }]

/-- The state when the notifications of device 3 are lost. -/
def vanishingState : Traced 1 :=
  vanishingEvents.foldl (Traced.step demoDevices) (Traced.start (Bpf.Maps.empty 1 8) true)

/-- **A device that vanished unnoticed survives the resynchronisation**: the
kernel has no link left, and device 3 is still attached, named and marked with
its flow in the map. -/
theorem vanished_device_survives_dump :
    Run (Traced.step demoDevices) (fun _ _ => True) (Traced.start (Bpf.Maps.empty 1 8) true)
        vanishingEvents vanishingState ∧
      ¬ Resynced demoDevices ⟨[], List.nodup_nil⟩ vanishingState.agent
        (dump demoDevices [] vanishingState.agent) ∧
      (dump demoDevices [] vanishingState.agent).bpf.isAttached 3 = true ∧
      (dump demoDevices [] vanishingState.agent).nameByIndex.lookup 3 = some [101] ∧
      (dump demoDevices [] vanishingState.agent).bpf.isMarked 3 = true ∧
      (dump demoDevices [] vanishingState.agent).bpf.maps.flows.lookup deviceFlow =
        some ⟨5, 500, 1, 1, 0, 0, 0⟩ := by
  have hstill : (dump demoDevices [] vanishingState.agent).bpf.isAttached 3 = true := by decide
  refine ⟨Run.of_check (by decide), ?_, hstill, by decide, by decide, by decide⟩
  intro hsync
  obtain ⟨l, hl, -⟩ := (hsync.attached 3).mp hstill
  cases hl

end Agent
end Obserwrt
