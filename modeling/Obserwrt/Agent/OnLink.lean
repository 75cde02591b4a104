import Mathlib.Data.List.Sort
import Obserwrt.Lib.Bytes
import Obserwrt.Agent.Attach

/-!
# `on_link`: attachment driven by link events

One link event reconciles one ifindex: an attached device is detached and its
flows purged when it is gone, down or renamed out of the configured patterns,
its stored name follows a rename, and a wanted device that is not attached is
attached.  `onLink_spec` is everything the run-level modules use of it.
-/

namespace Obserwrt
namespace Agent

open Lib

/-- `struct LinkEvent`. -/
structure LinkEvent where
  ifindex : UInt32
  ifname : Bytes
  type : UInt16
  present : Bool
  up : Bool
  deriving DecidableEq

/-- `link_is_ethernet`: `ARPHRD_ETHER` or `ARPHRD_LOOPBACK`. -/
def linkIsEthernet (arphrd : UInt16) : Bool :=
  arphrd == 1 || arphrd == 772

/-- The configured device patterns, with the C library's `fnmatch`. -/
structure DeviceConfig where
  devices : List Bytes
  fnmatch : Bytes → Bytes → Bool

/-- `match_device`. -/
def matchDevice (cfg : DeviceConfig) (name : Bytes) : Bool :=
  cfg.devices.any fun pattern => cfg.fnmatch pattern name

/-- The device of an event should be attached. -/
def wanted (cfg : DeviceConfig) (ev : LinkEvent) : Bool :=
  ev.present && ev.up && matchDevice cfg ev.ifname

/-- The agent's state about devices. -/
structure AgentState (ncpu : Nat) where
  bpf : BpfState ncpu
  nameByIndex : Store UInt32 Bytes
  attachedNames : List Bytes

/-- What one event led to, with what the agent logs about it. -/
inductive Outcome
  | detached
  | renamed
  | unchanged
  | attached (ethernet : Bool) (warn : String)
  | attachFailed (err : AttachError)
  | ignored
  deriving DecidableEq

variable {ncpu : Nat}

/-- `refresh_names`: the names in the order of the `std::map`. -/
def refreshNames (s : AgentState ncpu) : AgentState ncpu :=
  { s with
    attachedNames :=
      ((Store.pairs s.nameByIndex).mergeSort fun a b => decide (a.1 ≤ b.1)).map Prod.snd }

/-- `name_by_index[ifindex]` as `std::map` reads it: an absent key is inserted
with an empty name. -/
def indexName (ifindex : UInt32) (names : Store UInt32 Bytes) : Bytes × Store UInt32 Bytes :=
  match names.lookup ifindex with
  | some name => (name, names)
  | none => ([], names.insert ifindex [])

/-- The body of `on_link` before `refresh_names`. -/
def reconcileLink (cfg : DeviceConfig) (env : AttachEnv) (ev : LinkEvent) (s : AgentState ncpu) :
    Outcome × AgentState ncpu :=
  if s.bpf.isAttached ev.ifindex then
    if wanted cfg ev = false then
      (.detached,
        { s with
          bpf := (detach ev.ifindex s.bpf).purge ev.ifindex
          nameByIndex := s.nameByIndex.erase ev.ifindex })
    else
      -- still wanted: only the name may have changed
      let (name, names) := indexName ev.ifindex s.nameByIndex
      if name ≠ ev.ifname then
        (.renamed, { s with nameByIndex := names.insert ev.ifindex ev.ifname })
      else (.unchanged, { s with nameByIndex := names })
  else if wanted cfg ev then
    let eth := linkIsEthernet ev.type
    match attach ev.ifindex eth env s.bpf with
    | (.ok warn, bpf) =>
        (.attached eth warn,
          { s with bpf := bpf, nameByIndex := s.nameByIndex.insert ev.ifindex ev.ifname })
    -- logged, and not tried again before the next event of this device
    | (.error err, bpf) => (.attachFailed err, { s with bpf := bpf })
  else (.ignored, s)

/-- `on_link`. -/
def onLink (cfg : DeviceConfig) (env : AttachEnv) (ev : LinkEvent) (s : AgentState ncpu) :
    Outcome × AgentState ncpu :=
  let (outcome, s) := reconcileLink cfg env ev s
  (outcome, refreshNames s)

/-! ## The agent's views of a device -/

/-- The device has an entry in `obserwrt_attached`. -/
def BpfState.isMarked (b : BpfState ncpu) (ifindex : UInt32) : Bool :=
  (b.attached.bind (AList.lookup ifindex)).isSome

theorem SameElsewhere.isMarked {i j : UInt32} {b b' : BpfState ncpu} (h : SameElsewhere i b b')
    (hj : j ≠ i) : b'.isMarked j = b.isMarked j := by
  unfold BpfState.isMarked
  rw [h.marks j hj]

/-- The four stores agree on which devices are attached, up to the marks, which
need the drop tracer and room in its map. -/
structure Agree (s : AgentState ncpu) : Prop where
  paired : Paired s.bpf
  named : ∀ i, (s.nameByIndex.lookup i).isSome = s.bpf.isAttached i

/-- An attach succeeded. -/
def Outcome.succeeded : Outcome → Bool
  | .attached _ _ => true
  | _ => false

/-- The event led to a call of `attach`. -/
def Outcome.isAttempt : Outcome → Bool
  | .attached _ _ => true
  | .attachFailed _ => true
  | _ => false

/-- What an event does to the ifindex it is about and what it leaves alone. -/
structure OnLinkSpec (cfg : DeviceConfig) (env : AttachEnv) (ev : LinkEvent)
    (s : AgentState ncpu) (outcome : Outcome) (s' : AgentState ncpu) : Prop where
  frame : SameElsewhere ev.ifindex s.bpf s'.bpf
  names : ∀ j, j ≠ ev.ifindex → s'.nameByIndex.lookup j = s.nameByIndex.lookup j
  paired : Paired s'.bpf
  live : s'.bpf.isAttached ev.ifindex =
    (wanted cfg ev && (s.bpf.isAttached ev.ifindex || outcome.succeeded))
  name : s'.nameByIndex.lookup ev.ifindex =
    if s'.bpf.isAttached ev.ifindex then some ev.ifname else none
  tracer : s'.bpf.attached.isSome = s.bpf.attached.isSome
  mark : (s.bpf.isMarked ev.ifindex = true → s.bpf.isAttached ev.ifindex = true) →
    s'.bpf.isMarked ev.ifindex =
      (wanted cfg ev && if s.bpf.isAttached ev.ifindex then s.bpf.isMarked ev.ifindex
        else outcome.succeeded && env.markOk && s.bpf.attached.isSome)
  purged : s.bpf.isAttached ev.ifindex = true → s'.bpf.isAttached ev.ifindex = false →
    ∀ k : FlowKey, k.ifindex = ev.ifindex → s'.bpf.maps.flows.lookup k = none
  detached : outcome = .detached ↔
    s.bpf.isAttached ev.ifindex = true ∧ wanted cfg ev = false
  attempt : outcome.isAttempt = (!s.bpf.isAttached ev.ifindex && wanted cfg ev)
  refused : outcome.isAttempt = true →
    ∀ err, outcome = .attachFailed err ↔ env.refusal ev.ifindex = some err

theorem OnLinkSpec.agree {cfg : DeviceConfig} {env : AttachEnv} {ev : LinkEvent}
    {s s' : AgentState ncpu} {outcome : Outcome} (hagree : Agree s)
    (h : OnLinkSpec cfg env ev s outcome s') : Agree s' where
  paired := h.paired
  named := by
    intro i
    by_cases hi : i = ev.ifindex
    · subst hi
      rw [h.name]
      cases s'.bpf.isAttached ev.ifindex <;> rfl
    · rw [h.names i hi, hagree.named i, h.frame.isAttached hi]

/-- A mark needs live hooks, before and after. -/
theorem OnLinkSpec.marked_live {cfg : DeviceConfig} {env : AttachEnv} {ev : LinkEvent}
    {s s' : AgentState ncpu} {outcome : Outcome} (h : OnLinkSpec cfg env ev s outcome s')
    (hlive : ∀ i, s.bpf.isMarked i = true → s.bpf.isAttached i = true) (i : UInt32)
    (hmark : s'.bpf.isMarked i = true) : s'.bpf.isAttached i = true := by
  by_cases hi : i = ev.ifindex
  · subst hi
    rw [h.mark (hlive ev.ifindex)] at hmark
    rw [h.live]
    cases hatt : s.bpf.isAttached ev.ifindex <;> simp_all
  · rw [h.frame.isMarked hi] at hmark
    rw [h.frame.isAttached hi]
    exact hlive i hmark

section Spec

variable {cfg : DeviceConfig} {env : AttachEnv} {ev : LinkEvent} {s : AgentState ncpu}

theorem isMarked_of_insert (i : UInt32) {b b' : BpfState ncpu}
    (hmarks : b'.attached = b.attached.map fun m => m.insert i 1) :
    b'.isMarked i = b.attached.isSome := by
  rw [BpfState.isMarked, hmarks]
  cases b.attached <;> simp

theorem isMarked_of_erase (i : UInt32) {b b' : BpfState ncpu}
    (hmarks : b'.attached = b.attached.map fun m => m.erase i) : b'.isMarked i = false := by
  rw [BpfState.isMarked, hmarks]
  cases b.attached <;> simp

theorem spec_of_detach (hagree : Agree s) (hatt : s.bpf.isAttached ev.ifindex = true)
    (hunwanted : wanted cfg ev = false) :
    OnLinkSpec cfg env ev s .detached
      { s with
        bpf := (detach ev.ifindex s.bpf).purge ev.ifindex
        nameByIndex := s.nameByIndex.erase ev.ifindex } := by
  obtain ⟨hframe, hpaired, hlive, -, hmarks⟩ := detach_spec hagree.paired hatt
  have hgone : ((detach ev.ifindex s.bpf).purge ev.ifindex).isAttached ev.ifindex = false := hlive
  refine
    { frame := hframe.trans (SameElsewhere.purge ev.ifindex _)
      names := fun j hj => AList.lookup_erase_ne hj
      paired := hpaired
      live := by rw [hgone, hunwanted, Bool.false_and]
      name := by simp [hgone]
      tracer := ?_
      mark := fun _ => by
        rw [hunwanted, Bool.false_and]
        exact isMarked_of_erase ev.ifindex hmarks
      purged := ?_
      detached := by simp [hatt, hunwanted]
      attempt := by simp [Outcome.isAttempt, hunwanted]
      refused := by simp [Outcome.isAttempt] }
  · show (detach ev.ifindex s.bpf).attached.isSome = _
    rw [hmarks, Option.isSome_map]
  · intro _ _ k hk
    show ((detach ev.ifindex s.bpf).purge ev.ifindex).maps.flows.lookup k = none
    rw [purge_flows_lookup, if_pos hk]

/-- An attached device that stays wanted keeps its links and has the name of
the event afterwards, renamed or not. -/
theorem spec_of_keep (hagree : Agree s) (hatt : s.bpf.isAttached ev.ifindex = true)
    (hwanted : wanted cfg ev = true) {outcome : Outcome} {names : Store UInt32 Bytes}
    (houtcome : outcome = .renamed ∨ outcome = .unchanged)
    (hname : names.lookup ev.ifindex = some ev.ifname)
    (helse : ∀ j, j ≠ ev.ifindex → names.lookup j = s.nameByIndex.lookup j) :
    OnLinkSpec cfg env ev s outcome { s with nameByIndex := names } where
  frame := SameElsewhere.refl _ _
  names := helse
  paired := hagree.paired
  live := by simp [hatt, hwanted]
  name := by simp [hname, hatt]
  tracer := rfl
  mark := fun _ => by rw [hwanted, hatt, if_pos rfl, Bool.true_and]
  purged := by
    intro _ hnot
    rw [hatt] at hnot
    cases hnot
  detached := by rcases houtcome with rfl | rfl <;> simp [hwanted]
  attempt := by rcases houtcome with rfl | rfl <;> simp [Outcome.isAttempt, hatt]
  refused := by rcases houtcome with rfl | rfl <;> simp [Outcome.isAttempt]

theorem spec_of_attach (hagree : Agree s) (hnot : s.bpf.isAttached ev.ifindex = false)
    (hwanted : wanted cfg ev = true) {r : Except AttachError String} {bpf : BpfState ncpu}
    (hspec : AttachSpec ev.ifindex env s.bpf r bpf) {outcome : Outcome}
    (hattempt : outcome.isAttempt = true) (hsucceeded : outcome.succeeded = r.isOk)
    (hfailed : ∀ err, outcome = .attachFailed err ↔ r = .error err)
    {names : Store UInt32 Bytes}
    (hnames : names = if r.isOk then s.nameByIndex.insert ev.ifindex ev.ifname else s.nameByIndex) :
    OnLinkSpec cfg env ev s outcome { s with bpf := bpf, nameByIndex := names } where
  frame := hspec.frame
  names := by
    intro j hj
    subst hnames
    cases r.isOk <;> simp [AList.lookup_insert_ne hj]
  paired := hspec.paired
  live := by
    show bpf.isAttached ev.ifindex = _
    simp [hnot, hwanted, hsucceeded, hspec.live]
  name := by
    have hnone : s.nameByIndex.lookup ev.ifindex = none := by
      have hiff := hagree.named ev.ifindex
      rw [hnot] at hiff
      simpa using hiff
    show names.lookup ev.ifindex = if bpf.isAttached ev.ifindex = true then _ else _
    subst hnames
    rw [hspec.live]
    cases r.isOk <;> simp [hnone]
  tracer := by
    show bpf.attached.isSome = _
    rw [hspec.marks]
    split
    · rw [Option.isSome_map]
    · rfl
  mark := by
    intro hmark
    have hunmarked : s.bpf.isMarked ev.ifindex = false := by
      refine Bool.eq_false_of_not_eq_true fun h => ?_
      cases hnot.symm.trans (hmark h)
    have hmarks := hspec.marks
    show bpf.isMarked ev.ifindex = _
    rw [hwanted, hnot, hsucceeded]
    by_cases hput : (r.isOk && env.markOk) = true
    · rw [if_pos hput] at hmarks
      rw [isMarked_of_insert ev.ifindex hmarks, hput]
      rfl
    · rw [if_neg hput] at hmarks
      rw [BpfState.isMarked, hmarks, Bool.eq_false_of_not_eq_true hput]
      exact hunmarked
  purged := by
    intro hatt
    rw [hnot] at hatt
    cases hatt
  detached := by
    have hne : outcome ≠ .detached := by
      rintro rfl
      cases hattempt
    simp [hne, hnot]
  attempt := by rw [hattempt, hnot, hwanted]; rfl
  refused := fun _ err => (hfailed err).trans (hspec.refused err)

theorem spec_of_ignore (hagree : Agree s) (hnot : s.bpf.isAttached ev.ifindex = false)
    (hunwanted : wanted cfg ev = false) : OnLinkSpec cfg env ev s .ignored s where
  frame := SameElsewhere.refl _ _
  names := fun _ _ => rfl
  paired := hagree.paired
  live := by simp [hnot, hunwanted]
  name := by
    have hiff := hagree.named ev.ifindex
    rw [hnot] at hiff
    simpa [hnot] using hiff
  tracer := rfl
  mark := by
    intro hmark
    rw [hunwanted, Bool.false_and]
    refine Bool.eq_false_of_not_eq_true fun h => ?_
    cases hnot.symm.trans (hmark h)
  purged := by
    intro hatt
    rw [hnot] at hatt
    cases hatt
  detached := by simp [hnot]
  attempt := by simp [Outcome.isAttempt, hunwanted]
  refused := by simp [Outcome.isAttempt]

theorem reconcileLink_spec (cfg : DeviceConfig) (env : AttachEnv) (ev : LinkEvent)
    (hagree : Agree s) :
    OnLinkSpec cfg env ev s (reconcileLink cfg env ev s).1 (reconcileLink cfg env ev s).2 := by
  unfold reconcileLink
  cases hatt : s.bpf.isAttached ev.ifindex with
  | true =>
      cases hwanted : wanted cfg ev with
      | false =>
          simp only [if_true]
          exact spec_of_detach hagree hatt hwanted
      | true =>
          -- an attached device has a name, so the lookup inserts nothing
          obtain ⟨name, hname⟩ : ∃ name, s.nameByIndex.lookup ev.ifindex = some name := by
            have hiff := hagree.named ev.ifindex
            rw [hatt] at hiff
            exact Option.isSome_iff_exists.mp hiff
          have hindex : indexName ev.ifindex s.nameByIndex = (name, s.nameByIndex) := by
            simp [indexName, hname]
          simp only [if_true, hindex]
          by_cases hsame : name = ev.ifname
          · subst hsame
            simpa using spec_of_keep hagree hatt hwanted (Or.inr rfl) hname fun _ _ => rfl
          · simp only [ne_eq, hsame, not_false_eq_true, if_true]
            exact spec_of_keep hagree hatt hwanted (Or.inl rfl) (by simp)
              fun j hj => AList.lookup_insert_ne hj
  | false =>
      cases hwanted : wanted cfg ev with
      | false => simpa using spec_of_ignore hagree hatt hwanted
      | true =>
          have hspec := attach_spec hagree.paired hatt (linkIsEthernet ev.type) env
          simp only [Bool.false_eq_true, if_false, if_true]
          split
          · rename_i warn bpf hresult
            rw [hresult] at hspec
            exact spec_of_attach hagree hatt hwanted hspec rfl rfl (by simp) rfl
          · rename_i err bpf hresult
            rw [hresult] at hspec
            exact spec_of_attach hagree hatt hwanted hspec rfl rfl (by simp) rfl

/-- **What one link event does**, whatever the attach calls answer. -/
theorem onLink_spec (cfg : DeviceConfig) (env : AttachEnv) (ev : LinkEvent)
    (hagree : Agree s) :
    OnLinkSpec cfg env ev s (onLink cfg env ev s).1 (onLink cfg env ev s).2 := by
  have h := reconcileLink_spec cfg env ev hagree
  exact ⟨h.frame, h.names, h.paired, h.live, h.name, h.tracer, h.mark, h.purged, h.detached,
    h.attempt, h.refused⟩

end Spec

end Agent
end Obserwrt
