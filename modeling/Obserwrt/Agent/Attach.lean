import Obserwrt.Bpf.Observe

/-!
# The agent's `Bpf` object: attach, detach, purge

The kernel maps together with what the agent keeps about attachments: the tcx
links of each ifindex and, when the drop tracer is loaded, the map
`obserwrt_attached`.  What the kernel answers to the calls of one attach is
its `AttachEnv`.  A link records the program it runs.
-/

namespace Obserwrt
namespace Agent

open Lib

/-- The tcx links of a device; `none` is a null pointer. -/
structure Links where
  inn : Option Bpf.Hook := none
  eg : Option Bpf.Hook := none
  deriving DecidableEq

/-- Both hooks are live. -/
def Links.live (l : Links) : Bool :=
  l.inn.isSome && l.eg.isSome

/-- The state of a loaded `Bpf` object.  `attached` is `obserwrt_attached`,
`none` without the drop tracer. -/
structure BpfState (ncpu : Nat) where
  maps : Bpf.Maps ncpu
  atts : Store UInt32 Links
  attached : Option (Store UInt32 UInt8)

/-- The kernel's answers during one attach: the two `attach_tcx` calls, and
the update of `obserwrt_attached`, which fails when that map is full. -/
structure AttachEnv where
  ingressOk : Bool := true
  egressOk : Bool := true
  markOk : Bool := true
  deriving DecidableEq

/-- Why `attach` returned false. -/
inductive AttachError
  | invalidIfindex
  | ingress
  | egress
  deriving DecidableEq

/-- The fixed part of the error text. -/
def AttachError.what : AttachError → String
  | .invalidIfindex => "attach: invalid ifindex"
  | .ingress => "attach_tcx ingress"
  | .egress => "attach_tcx egress"

variable {ncpu : Nat}

/-- `Bpf::attached`. -/
def BpfState.isAttached (b : BpfState ncpu) (ifindex : UInt32) : Bool :=
  match b.atts.lookup ifindex with
  | none => false
  | some l => l.live

/-- `drop_dev_counters`: both directions of the device. -/
def dropDevCounters (ifindex : UInt32) (b : BpfState ncpu) : BpfState ncpu :=
  { b with
    maps := { b.maps with
      devstats := Store.eraseAll b.maps.devstats
        [⟨ifindex, Direction.ingress.code⟩, ⟨ifindex, Direction.egress.code⟩] } }

/-- `live_count`. -/
def liveCount (b : BpfState ncpu) : Nat :=
  ((Store.pairs b.atts).filter fun e => e.2.live).length

/-- The warning about the capacity of `obserwrt_devstats`, empty when there is
headroom. -/
def capacityWarning (live cap : Nat) : String :=
  if cap < live then
    "obserwrt_devstats full: " ++ toString live ++ " devices attached, map holds " ++
      toString cap ++ "; per-device counters are not measured for all of them"
  else if 0 < cap ∧ cap * 9 ≤ live * 10 then
    "obserwrt_devstats near capacity: " ++ toString live ++ " of " ++ toString cap ++ " devices"
  else ""

/-- Two warnings in one text. -/
def joinWarnings (first second : String) : String :=
  if second = "" then first
  else if first = "" then second
  else first ++ "; " ++ second

def setLinks (ifindex : UInt32) (l : Links) (b : BpfState ncpu) : BpfState ncpu :=
  { b with atts := b.atts.insert ifindex l }

/-- The update of `obserwrt_attached`, with its warning. -/
def markAttached (ifindex : UInt32) (env : AttachEnv) (b : BpfState ncpu) :
    String × BpfState ncpu :=
  match b.attached with
  | none => ("", b)
  | some m =>
      -- both hooks are live by now, so a failed attach leaves no mark
      if env.markOk then ("", { b with attached := some (m.insert ifindex 1) })
      else ("obserwrt_attached full: drops on this device are not recorded", b)

/-- The part of `attach` behind the two `attach_tcx` calls. -/
def finishAttach (ifindex : UInt32) (env : AttachEnv) (b : BpfState ncpu) :
    Except AttachError String × BpfState ncpu :=
  let (warn, b) := markAttached ifindex env b
  (.ok (joinWarnings warn (capacityWarning (liveCount b) (b.maps.devCapacity / 2))), b)

/-- `Bpf::attach`.  A failed egress attach destroys the ingress link again. -/
def attach (ifindex : UInt32) (ethernet : Bool) (env : AttachEnv) (b : BpfState ncpu) :
    Except AttachError String × BpfState ncpu :=
  if ifindex = 0 then (.error .invalidIfindex, b)
  else
    let l := (b.atts.lookup ifindex).getD {}
    let b := setLinks ifindex l b
    if l.live then (.ok "", b)
    else
      -- the ifindex may be a reused one whose old counters are still there
      let b := if l.inn.isNone && l.eg.isNone then dropDevCounters ifindex b else b
      if l.inn.isNone && !env.ingressOk then (.error .ingress, b)
      else
        let l : Links := if l.inn.isNone then { l with inn := some ⟨.ingress, ethernet⟩ } else l
        -- no half-attached device: the ingress link goes again
        if l.eg.isNone && !env.egressOk then
          (.error .egress, setLinks ifindex { l with inn := none } b)
        else
          let l : Links := if l.eg.isNone then { l with eg := some ⟨.egress, ethernet⟩ } else l
          finishAttach ifindex env (setLinks ifindex l b)

/-- `Bpf::detach`. -/
def detach (ifindex : UInt32) (b : BpfState ncpu) : BpfState ncpu :=
  match b.atts.lookup ifindex with
  | none => b
  | some _ =>
      let b := dropDevCounters ifindex (setLinks ifindex {} b)
      { b with attached := b.attached.map fun m => m.erase ifindex }

/-- The keys of a device among those a walk delivered. -/
def victims (ifindex : UInt32) (walk : List (FlowKey × FlowVal)) : List FlowKey :=
  (walk.map Prod.fst).filter fun key => decide (key.ifindex = ifindex)

/-- `Bpf::purge_ifindex` on the flow map, over a walk that delivers `walk`. -/
def purgeIfindex (ifindex : UInt32) (walk : List (FlowKey × FlowVal)) (flows : FlowTable) :
    FlowTable :=
  Store.eraseAll flows (victims ifindex walk)

/-- After a purge over a walk that delivers every entry, the map holds the
other devices' entries, unchanged. -/
theorem purgeIfindex_lookup (ifindex : UInt32) {walk : List (FlowKey × FlowVal)}
    {flows : FlowTable} (hfull : ∀ k v, flows.lookup k = some v → (k, v) ∈ walk) (k : FlowKey) :
    (purgeIfindex ifindex walk flows).lookup k =
      if k.ifindex = ifindex then none else flows.lookup k := by
  unfold purgeIfindex
  rw [Store.lookup_eraseAll]
  by_cases hidx : k.ifindex = ifindex
  · cases hlookup : flows.lookup k with
    | none => simp
    | some v =>
        have hmem : k ∈ victims ifindex walk := by
          simp only [victims, List.mem_filter, decide_eq_true_eq]
          exact ⟨List.mem_map.mpr ⟨_, hfull k v hlookup, rfl⟩, hidx⟩
        simp [hmem, hidx]
  · have hmem : k ∉ victims ifindex walk := by
      simp [victims, hidx]
    simp [hmem, hidx]

/-- `Bpf::purge_ifindex` with a walk that succeeds. -/
def BpfState.purge (ifindex : UInt32) (b : BpfState ncpu) : BpfState ncpu :=
  { b with
    maps := { b.maps with flows := purgeIfindex ifindex (Store.pairs b.maps.flows) b.maps.flows } }

theorem purge_flows_lookup (ifindex : UInt32) (b : BpfState ncpu) (k : FlowKey) :
    (b.purge ifindex).maps.flows.lookup k =
      if k.ifindex = ifindex then none else b.maps.flows.lookup k :=
  purgeIfindex_lookup ifindex (fun _ _ => Store.mem_pairs.mpr) k

/-! ## The frame of one device -/

/-- Nothing of any other device differs between two states, and neither do the
aggregate counters. -/
structure SameElsewhere (ifindex : UInt32) (b b' : BpfState ncpu) : Prop where
  links : ∀ j, j ≠ ifindex → b'.atts.lookup j = b.atts.lookup j
  marks : ∀ j, j ≠ ifindex → b'.attached.bind (AList.lookup j) = b.attached.bind (AList.lookup j)
  counters : ∀ key : DevKey, key.ifindex ≠ ifindex →
    b'.maps.devstats.lookup key = b.maps.devstats.lookup key
  flows : ∀ k : FlowKey, k.ifindex ≠ ifindex → b'.maps.flows.lookup k = b.maps.flows.lookup k
  stats : b'.maps.stats = b.maps.stats

namespace SameElsewhere

variable {ifindex : UInt32} {b b' b'' : BpfState ncpu}

theorem refl (ifindex : UInt32) (b : BpfState ncpu) : SameElsewhere ifindex b b :=
  ⟨fun _ _ => rfl, fun _ _ => rfl, fun _ _ => rfl, fun _ _ => rfl, rfl⟩

theorem trans (h : SameElsewhere ifindex b b') (h' : SameElsewhere ifindex b' b'') :
    SameElsewhere ifindex b b'' where
  links := fun j hj => (h'.links j hj).trans (h.links j hj)
  marks := fun j hj => (h'.marks j hj).trans (h.marks j hj)
  counters := fun key hkey => (h'.counters key hkey).trans (h.counters key hkey)
  flows := fun k hk => (h'.flows k hk).trans (h.flows k hk)
  stats := h'.stats.trans h.stats

theorem isAttached (h : SameElsewhere ifindex b b') {j : UInt32} (hj : j ≠ ifindex) :
    b'.isAttached j = b.isAttached j := by
  unfold BpfState.isAttached
  rw [h.links j hj]

theorem setLinks (ifindex : UInt32) (l : Links) (b : BpfState ncpu) :
    SameElsewhere ifindex b (setLinks ifindex l b) :=
  { refl ifindex b with links := fun j hj => by simp [Agent.setLinks, AList.lookup_insert_ne hj] }

theorem dropDevCounters (ifindex : UInt32) (b : BpfState ncpu) :
    SameElsewhere ifindex b (dropDevCounters ifindex b) :=
  { refl ifindex b with
    counters := by
      intro key hkey
      have hne : ∀ d, key ≠ ⟨ifindex, d⟩ := by
        rintro d rfl
        exact hkey rfl
      simp [Agent.dropDevCounters, Store.lookup_eraseAll, hne] }

theorem setMarks (ifindex : UInt32) (b : BpfState ncpu) {marks : Option (Store UInt32 UInt8)}
    (hmarks : ∀ j, j ≠ ifindex →
      marks.bind (AList.lookup j) = b.attached.bind (AList.lookup j)) :
    SameElsewhere ifindex b { b with attached := marks } :=
  { refl ifindex b with marks := hmarks }

theorem purge (ifindex : UInt32) (b : BpfState ncpu) :
    SameElsewhere ifindex b (b.purge ifindex) :=
  { refl ifindex b with
    flows := fun k hk => by rw [purge_flows_lookup, if_neg hk] }

end SameElsewhere

/-! ## What attach and detach do -/

/-- No device has exactly one live hook. -/
def Paired (b : BpfState ncpu) : Prop :=
  ∀ i l, b.atts.lookup i = some l → l.inn.isSome = l.eg.isSome

section Attach

variable {ifindex : UInt32} {b : BpfState ncpu}

theorem Paired.setLinks (hpaired : Paired b) {l : Links} (hl : l.inn.isSome = l.eg.isSome) :
    Paired (setLinks ifindex l b) := by
  intro i l' hlookup
  simp only [Agent.setLinks, Store.lookup_insert_eq] at hlookup
  split at hlookup
  · cases hlookup
    exact hl
  · exact hpaired i l' hlookup

/-- Without half-attached devices, a device that is not attached has no link. -/
theorem getD_lookup_of_not_attached (hpaired : Paired b) (hnot : b.isAttached ifindex = false) :
    (b.atts.lookup ifindex).getD {} = {} := by
  unfold BpfState.isAttached at hnot
  cases hlookup : b.atts.lookup ifindex with
  | none => rfl
  | some l =>
      obtain ⟨inn, eg⟩ := l
      have hboth := hpaired ifindex _ hlookup
      rw [hlookup] at hnot
      cases inn <;> cases eg <;> simp_all [Links.live]

/-- `attach` on a device without links, branch by branch. -/
theorem attach_unlinked (hpaired : Paired b) (hnot : b.isAttached ifindex = false)
    (ethernet : Bool) (env : AttachEnv) :
    attach ifindex ethernet env b =
      if ifindex = 0 then (.error .invalidIfindex, b)
      else if env.ingressOk = false then
        (.error .ingress, dropDevCounters ifindex (setLinks ifindex {} b))
      else if env.egressOk = false then
        (.error .egress,
          setLinks ifindex {} (dropDevCounters ifindex (setLinks ifindex {} b)))
      else
        finishAttach ifindex env (setLinks ifindex
          ⟨some ⟨.ingress, ethernet⟩, some ⟨.egress, ethernet⟩⟩
          (dropDevCounters ifindex (setLinks ifindex {} b))) := by
  unfold attach
  rw [getD_lookup_of_not_attached hpaired hnot]
  cases env.ingressOk <;> cases env.egressOk <;> simp [Links.live]

/-- The answer that makes an attach of a device without links fail. -/
def AttachEnv.refusal (env : AttachEnv) (ifindex : UInt32) : Option AttachError :=
  if ifindex = 0 then some .invalidIfindex
  else if env.ingressOk = false then some .ingress
  else if env.egressOk = false then some .egress
  else none

/-- The effect of an attach with result `r`. -/
structure AttachSpec (ifindex : UInt32) (env : AttachEnv) (b : BpfState ncpu)
    (r : Except AttachError String) (b' : BpfState ncpu) : Prop where
  frame : SameElsewhere ifindex b b'
  paired : Paired b'
  live : b'.isAttached ifindex = r.isOk
  flows : b'.maps.flows = b.maps.flows
  marks : b'.attached =
    if r.isOk && env.markOk then b.attached.map fun m => m.insert ifindex 1 else b.attached
  refused : ∀ err, r = .error err ↔ env.refusal ifindex = some err

theorem isAttached_setLinks (l : Links) (b : BpfState ncpu) :
    (setLinks ifindex l b).isAttached ifindex = l.live := by
  simp [BpfState.isAttached, setLinks]

theorem markAttached_spec (env : AttachEnv) (b : BpfState ncpu) :
    (markAttached ifindex env b).2 =
      { b with
        attached := if env.markOk then b.attached.map fun m => m.insert ifindex 1
          else b.attached } := by
  obtain ⟨maps, atts, attached⟩ := b
  unfold markAttached
  cases attached with
  | none => simp
  | some m => cases env.markOk <;> simp

theorem marks_insert_elsewhere (marks : Option (Store UInt32 UInt8)) {j : UInt32}
    (hj : j ≠ ifindex) :
    (marks.map fun m => m.insert ifindex 1).bind (AList.lookup j) =
      marks.bind (AList.lookup j) := by
  cases marks with
  | none => rfl
  | some m => simp [AList.lookup_insert_ne hj]

/-- **What `attach` does** to a device that is not attached: on success both
hooks are live and the device is marked, on failure no hook is. -/
theorem attach_spec (hpaired : Paired b) (hnot : b.isAttached ifindex = false)
    (ethernet : Bool) (env : AttachEnv) :
    AttachSpec ifindex env b (attach ifindex ethernet env b).1
      (attach ifindex ethernet env b).2 := by
  have hclear : SameElsewhere ifindex b (dropDevCounters ifindex (setLinks ifindex {} b)) :=
    (SameElsewhere.setLinks ifindex {} b).trans (SameElsewhere.dropDevCounters ifindex _)
  have hclearPaired : Paired (dropDevCounters ifindex (setLinks ifindex {} b)) :=
    hpaired.setLinks rfl
  -- ifindex 0, ingress refused, egress refused, success
  rw [attach_unlinked hpaired hnot]
  by_cases hzero : ifindex = 0
  · rw [if_pos hzero]
    exact ⟨SameElsewhere.refl _ _, hpaired, hnot, rfl, rfl, by simp [AttachEnv.refusal, hzero]⟩
  rw [if_neg hzero]
  by_cases hingress : env.ingressOk = false
  · rw [if_pos hingress]
    refine ⟨hclear, hclearPaired, ?_, rfl, rfl, ?_⟩
    · exact isAttached_setLinks {} b
    · simp [AttachEnv.refusal, hzero, hingress]
  rw [if_neg hingress]
  by_cases hegress : env.egressOk = false
  · rw [if_pos hegress]
    refine ⟨hclear.trans (SameElsewhere.setLinks ifindex {} _), hclearPaired.setLinks rfl, ?_,
      rfl, rfl, ?_⟩
    · exact isAttached_setLinks {} _
    · simp [AttachEnv.refusal, hzero, hingress, hegress]
  rw [if_neg hegress]
  simp only [finishAttach, markAttached_spec]
  refine ⟨(hclear.trans (SameElsewhere.setLinks ifindex _ _)).trans
    (SameElsewhere.setMarks ifindex _ ?_), hclearPaired.setLinks rfl, ?_, rfl, ?_, ?_⟩
  · intro j hj
    split
    · exact marks_insert_elsewhere _ hj
    · rfl
  · exact isAttached_setLinks _ _
  · simp [Except.isOk, Except.toBool, setLinks, dropDevCounters]
  · simp [AttachEnv.refusal, hzero, hingress, hegress]

/-- **What `detach` does** to an attached device. -/
theorem detach_spec (hpaired : Paired b) (hatt : b.isAttached ifindex = true) :
    SameElsewhere ifindex b (detach ifindex b) ∧ Paired (detach ifindex b) ∧
      (detach ifindex b).isAttached ifindex = false ∧
      (detach ifindex b).maps.flows = b.maps.flows ∧
      (detach ifindex b).attached = b.attached.map fun m => m.erase ifindex := by
  unfold detach
  cases hlookup : b.atts.lookup ifindex with
  | none => simp [BpfState.isAttached, hlookup] at hatt
  | some l =>
      refine ⟨?_, hpaired.setLinks rfl, isAttached_setLinks {} b, rfl, rfl⟩
      refine ((SameElsewhere.setLinks ifindex {} b).trans
        (SameElsewhere.dropDevCounters ifindex _)).trans (SameElsewhere.setMarks ifindex _ ?_)
      intro j hj
      show (b.attached.map fun m => m.erase ifindex).bind _ = b.attached.bind _
      cases b.attached with
      | none => rfl
      | some m => simp [AList.lookup_erase_ne hj]

end Attach

end Agent
end Obserwrt
