import Obserwrt.Bpf.Accounting
import Obserwrt.Agent.OnLink

/-!
# Device counters through attach and detach

`attach` and `detach` call by call, with packets between the calls: the two
`attach_tcx` of an attach, its rollback, the destruction of the links on a
detach and the removal of the counters.  A packet is counted only on a hook
whose link is live.  The device counters of `obserwrt_devstats` are created by
the eBPF program and deleted by the agent.
-/

namespace Obserwrt
namespace Agent

open Lib Bpf

variable {ncpu : Nat}

/-! ## The calls of attach and detach -/

/-- What an attach or detach in progress does next: attach the ingress or the
egress program, mark the device, or destroy the egress link, drop the counters,
remove the mark. -/
inductive Stage
  | ingress (ethernet : Bool)
  | egress (ethernet : Bool)
  | mark
  | dropEgress
  | dropCounters
  | unmark
  deriving DecidableEq

/-- The loaded object, the attach or detach in progress and, to speak about
them, the packets seen on each device since its last attach began. -/
structure AttachWorld (ncpu : Nat) where
  bpf : BpfState ncpu
  op : Option (UInt32 × Stage)
  recent : UInt32 → List (Seen ncpu)

/-- A packet on a device, the beginning of an attach or detach, or the answer
of the kernel to the next call of the one in progress. -/
inductive CounterEvent (ncpu : Nat)
  | packet (env : Env ncpu) (direction : Direction) (skb : SkBuff)
  | attach (ifindex : UInt32) (ethernet : Bool)
  | detach (ifindex : UInt32)
  | next (ok : Bool)

/-- The links of a device, none when it was never attached. -/
def BpfState.linksOf (b : BpfState ncpu) (i : UInt32) : Links :=
  (b.atts.lookup i).getD {}

/-- The program a packet runs through. -/
def Links.hookAt (l : Links) : Direction → Option Hook
  | .ingress => l.inn
  | .egress => l.eg

namespace AttachWorld

def start (ncpu devCapacity : Nat) (tracer : Bool) : AttachWorld ncpu where
  bpf := {
    maps := Maps.empty ncpu devCapacity
    atts := ∅
    attached := if tracer then some ∅ else none }
  op := none
  recent := fun _ => []

/-- `attach` up to its first `attach_tcx`. -/
def beginAttach (w : AttachWorld ncpu) (i : UInt32) (ethernet : Bool) : AttachWorld ncpu :=
  if i = 0 then w
  else
    let l := w.bpf.linksOf i
    let b := setLinks i l w.bpf
    if l.live then { w with bpf := b }
    else
      { bpf := if l.inn.isNone && l.eg.isNone then dropDevCounters i b else b
        op := some (i, .ingress ethernet)
        recent := Function.update w.recent i [] }

/-- `detach` with the destruction of the ingress link. -/
def beginDetach (w : AttachWorld ncpu) (i : UInt32) : AttachWorld ncpu :=
  match w.bpf.atts.lookup i with
  | none => w
  | some l => { w with bpf := setLinks i { l with inn := none } w.bpf, op := some (i, .dropEgress) }

/-- The next call, with its answer, and what follows it. -/
def advance (w : AttachWorld ncpu) (i : UInt32) (ok : Bool) : Stage → AttachWorld ncpu
  | .ingress ethernet =>
      let l := w.bpf.linksOf i
      if l.inn.isNone && !ok then { w with op := none }
      else
        let l := if l.inn.isNone then { l with inn := some ⟨.ingress, ethernet⟩ } else l
        { w with bpf := setLinks i l w.bpf, op := some (i, .egress ethernet) }
  | .egress ethernet =>
      let l := w.bpf.linksOf i
      -- the rollback destroys the ingress link and returns
      if l.eg.isNone && !ok then
        { w with bpf := setLinks i { l with inn := none } w.bpf, op := none }
      else
        let l := if l.eg.isNone then { l with eg := some ⟨.egress, ethernet⟩ } else l
        { w with bpf := setLinks i l w.bpf, op := some (i, .mark) }
  | .mark => { w with bpf := (markAttached i { markOk := ok } w.bpf).2, op := none }
  | .dropEgress =>
      { w with
        bpf := setLinks i { w.bpf.linksOf i with eg := none } w.bpf, op := some (i, .dropCounters) }
  | .dropCounters => { w with bpf := dropDevCounters i w.bpf, op := some (i, .unmark) }
  | .unmark =>
      { w with
        bpf := { w.bpf with attached := w.bpf.attached.map fun m => m.erase i }, op := none }

/-- A packet on a device: the program of a live link runs. -/
def packet (w : AttachWorld ncpu) (env : Env ncpu) (direction : Direction) (skb : SkBuff) :
    AttachWorld ncpu :=
  match (w.bpf.linksOf skb.ifindex).hookAt direction with
  | none => w
  | some hook =>
      { w with
        bpf := { w.bpf with maps := observe env hook skb w.bpf.maps }
        recent := Function.update w.recent skb.ifindex
          (w.recent skb.ifindex ++ [⟨env.cpu, env.now, hook, skb⟩]) }

/-- One event.  The agent has one thread: an attach or detach begins when none
is in progress. -/
def step (w : AttachWorld ncpu) : CounterEvent ncpu → AttachWorld ncpu
  | .packet env direction skb => w.packet env direction skb
  | .attach i ethernet => if w.op.isSome then w else w.beginAttach i ethernet
  | .detach i => if w.op.isSome then w else w.beginDetach i
  | .next ok =>
      match w.op with
      | none => w
      | some (i, stage) => w.advance i ok stage

end AttachWorld

/-! ## The calls together -/

theorem setLinks_setLinks (i : UInt32) (l l' : Links) (b : BpfState ncpu) :
    setLinks i l' (setLinks i l b) = setLinks i l' b := by
  simp [setLinks, AList.insert_insert]

@[simp] theorem linksOf_setLinks (i : UInt32) (l : Links) (b : BpfState ncpu) (j : UInt32) :
    (setLinks i l b).linksOf j = if j = i then l else b.linksOf j := by
  unfold BpfState.linksOf setLinks
  rw [Store.lookup_insert_eq]
  split <;> rfl

@[simp] theorem linksOf_dropDevCounters (i : UInt32) (b : BpfState ncpu) (j : UInt32) :
    (dropDevCounters i b).linksOf j = b.linksOf j :=
  rfl

/-- Without packets between them, the calls of an attach are `attach`. -/
theorem attach_calls {w : AttachWorld ncpu} (hidle : w.op = none) (i : UInt32) (ethernet : Bool)
    (env : AttachEnv) :
    ([.attach i ethernet, .next env.ingressOk, .next env.egressOk, .next env.markOk].foldl
      AttachWorld.step w).bpf = (attach i ethernet env w.bpf).2 := by
  obtain ⟨ingressOk, egressOk, markOk⟩ := env
  simp only [List.foldl_cons, List.foldl_nil, AttachWorld.step, hidle, Option.isSome_none,
    Bool.false_eq_true, if_false]
  unfold AttachWorld.beginAttach attach
  by_cases hzero : i = 0
  · simp [hzero, hidle]
  have hlinks : (w.bpf.atts.lookup i).getD {} = w.bpf.linksOf i := rfl
  simp only [hzero, if_false, hlinks]
  obtain ⟨inn, eg⟩ := w.bpf.linksOf i
  -- one case for each pair of links and each answer
  cases inn <;> cases eg <;> cases ingressOk <;> cases egressOk <;>
    simp [Links.live, AttachWorld.advance, setLinks_setLinks, finishAttach, markAttached_spec,
      hidle]

/-- Without packets between them, the calls of a detach are `detach`. -/
theorem detach_calls {w : AttachWorld ncpu} (hidle : w.op = none) (i : UInt32)
    (first second third : Bool) :
    ([.detach i, .next first, .next second, .next third].foldl AttachWorld.step w).bpf =
      detach i w.bpf := by
  simp only [List.foldl_cons, List.foldl_nil, AttachWorld.step, hidle, Option.isSome_none,
    Bool.false_eq_true, if_false]
  unfold AttachWorld.beginDetach detach
  cases hlookup : w.bpf.atts.lookup i with
  | none => simp [hidle]
  | some l => simp [AttachWorld.advance, setLinks_setLinks]

/-! ## One device -/

/-- What the agent and the kernel hold about a device. -/
structure DeviceView (ncpu : Nat) where
  links : Links
  marked : Bool
  entry : Direction → Option (Fin ncpu → DevVal)
  recent : List (Seen ncpu)

def AttachWorld.view (w : AttachWorld ncpu) (i : UInt32) : DeviceView ncpu where
  links := w.bpf.linksOf i
  marked := w.bpf.isMarked i
  entry := fun d => w.bpf.maps.devstats.lookup ⟨i, d.code⟩
  recent := w.recent i

/-- The stage of the operation in progress, when it is on this device. -/
def AttachWorld.stageOf (w : AttachWorld ncpu) (i : UInt32) : Option Stage :=
  w.op.bind fun op => if op.1 = i then some op.2 else none

/-- The slots of a device with a packet added. -/
def addSeen (slots : Fin ncpu → DevVal) (p : Seen ncpu) : Fin ncpu → DevVal :=
  Function.update slots p.cpu
    (DevVal.add (slots p.cpu) (pktClass p.hook.eth p.skb.data) (segsOf p.skb).toUInt64
      p.skb.len.toUInt64)

/-- The counters of these packets, and of no others. -/
def countsOf (packets : List (Seen ncpu)) : Fin ncpu → DevVal :=
  packets.foldl addSeen fun _ => DevVal.zero

namespace DeviceView

/-- The device has no counters. -/
def Bare (v : DeviceView ncpu) : Prop :=
  ∀ d, v.entry d = none

/-- The counters of the device are those of some of the packets since its last
attach began: of the last ones, since the first may have found the map full. -/
def Fresh (v : DeviceView ncpu) : Prop :=
  ∀ d slots, v.entry d = some slots →
    ∃ packets, packets <:+ v.recent.filter (fun p => p.hook.direction = d) ∧
      slots = countsOf packets

/-- No link, no mark and no counters. -/
structure Clean (v : DeviceView ncpu) : Prop where
  links : v.links = {}
  unmarked : v.marked = false
  bare : v.Bare

/-- What holds of a device at each stage of an operation on it, and without
one. -/
def Ok (v : DeviceView ncpu) : Option Stage → Prop
  | none => v.Clean ∨ v.links.live = true ∧ v.Fresh
  | some (.ingress _) => v.Clean
  | some (.egress _) =>
      (∃ hook, v.links = { inn := some hook }) ∧ v.marked = false ∧ v.Fresh
  | some .mark => v.links.live = true ∧ v.Fresh
  | some .dropEgress => v.links.inn = none
  | some .dropCounters => v.links = {}
  | some .unmark => v.links = {} ∧ v.Bare

end DeviceView

/-- Every counter belongs to a direction. -/
def DirectionsOk (m : Maps ncpu) : Prop :=
  ∀ key, key ∈ m.devstats → ∃ d : Direction, key.direction = d.code

/-- The invariant of the runs. -/
structure CountersInv (w : AttachWorld ncpu) : Prop where
  devices : ∀ i, (w.view i).Ok (w.stageOf i)
  directions : DirectionsOk w.bpf.maps

/-! ## Packets -/

section Packet

variable (m : Maps ncpu) (env : Env ncpu) (hook : Hook) (skb : SkBuff)

/-- A packet adds to the counters of its device, or finds the map full. -/
theorem devCount_cases (cpu : Fin ncpu) (now : UInt64) :
    ¬ HasRoom m ⟨skb.ifindex, hook.direction.code⟩ ∧
        (devCount cpu skb hook m).devstats = m.devstats ∨
      HasRoom m ⟨skb.ifindex, hook.direction.code⟩ ∧ (devCount cpu skb hook m).devstats =
        m.devstats.insert ⟨skb.ifindex, hook.direction.code⟩
          (addSeen ((m.devstats.lookup ⟨skb.ifindex, hook.direction.code⟩).getD
            fun _ => DevVal.zero) ⟨cpu, now, hook, skb⟩) := by
  by_cases hroom : HasRoom m ⟨skb.ifindex, hook.direction.code⟩
  · refine Or.inr ⟨hroom, ?_⟩
    rw [devCount_devstats m cpu skb hook hroom]
    rfl
  · refine Or.inl ⟨hroom, ?_⟩
    rw [HasRoom, Classical.not_imp] at hroom
    simp [devCount, devEnsure, hroom.1, hroom.2]

theorem observe_devstats :
    (observe env hook skb m).devstats = (countSeen env hook skb m).devstats := by
  unfold observe
  simp only
  split
  · rfl
  · unfold accountFlow
    simp only
    split
    · rfl
    · split <;> rfl

/-- A run of a program adds its packet to the counters of the device, or finds
the map full. -/
theorem observe_cases :
    ¬ HasRoom m ⟨skb.ifindex, hook.direction.code⟩ ∧
        (observe env hook skb m).devstats = m.devstats ∨
      HasRoom m ⟨skb.ifindex, hook.direction.code⟩ ∧ (observe env hook skb m).devstats =
        m.devstats.insert ⟨skb.ifindex, hook.direction.code⟩
          (addSeen ((m.devstats.lookup ⟨skb.ifindex, hook.direction.code⟩).getD
            fun _ => DevVal.zero) ⟨env.cpu, env.now, hook, skb⟩) := by
  rw [observe_devstats]
  exact devCount_cases (statAdd env.cpu .bytes skb.len.toUInt64
    (statAdd env.cpu .packets (segsOf skb).toUInt64 m)) hook skb env.cpu env.now

/-- The counters of other keys are as before. -/
theorem observe_lookup_ne {key : DevKey} (hkey : key ≠ ⟨skb.ifindex, hook.direction.code⟩) :
    (observe env hook skb m).devstats.lookup key = m.devstats.lookup key := by
  rcases observe_cases m env hook skb with ⟨-, hsame⟩ | ⟨-, hadd⟩
  · rw [hsame]
  · rw [hadd, AList.lookup_insert_ne hkey]

/-- The device has no counters afterwards exactly when the map had no room. -/
theorem observe_lookup_eq_none_iff :
    (observe env hook skb m).devstats.lookup ⟨skb.ifindex, hook.direction.code⟩ = none ↔
      ¬ HasRoom m ⟨skb.ifindex, hook.direction.code⟩ := by
  rcases observe_cases m env hook skb with ⟨hfull, hsame⟩ | ⟨hroom, hadd⟩
  · rw [hsame]
    exact iff_of_true (Classical.not_imp.mp hfull).1 hfull
  · rw [hadd, AList.lookup_insert]
    exact iff_of_false (by simp) (fun hfull => hfull hroom)

end Packet

theorem direction_code_inj {d d' : Direction} (h : d.code = d'.code) : d = d' := by
  revert h
  cases d <;> cases d' <;> decide

namespace DeviceView

/-- Fresh counters stay fresh when a packet is added to them. -/
theorem Fresh.packet {v v' : DeviceView ncpu} (h : v.Fresh) (p : Seen ncpu)
    (hrecent : v'.recent = v.recent ++ [p])
    (hother : ∀ d, d ≠ p.hook.direction → v'.entry d = v.entry d)
    (hown : v'.entry p.hook.direction = none ∨ v'.entry p.hook.direction =
      some (addSeen ((v.entry p.hook.direction).getD fun _ => DevVal.zero) p)) : v'.Fresh := by
  intro d slots hentry
  rw [hrecent, List.filter_append]
  by_cases hd : d = p.hook.direction
  · subst hd
    have hadd := hown.resolve_left (by rw [hentry]; simp)
    obtain rfl : slots = _ := Option.some.inj (hentry.symm.trans hadd)
    have hlast : [p].filter (fun q => q.hook.direction = p.hook.direction) = [p] := by simp
    rw [hlast]
    cases hold : v.entry p.hook.direction with
    | none => exact ⟨[p], List.suffix_append _ _, rfl⟩
    | some old =>
        obtain ⟨packets, hsuffix, rfl⟩ := h _ _ hold
        refine ⟨packets ++ [p], ?_, by simp [countsOf]⟩
        obtain ⟨front, hfront⟩ := hsuffix
        exact ⟨front, by rw [← hfront, List.append_assoc]⟩
  · rw [hother d hd] at hentry
    obtain ⟨packets, hsuffix, rfl⟩ := h d slots hentry
    have hne : ¬p.hook.direction = d := fun heq => hd heq.symm
    have hnone : [p].filter (fun q => q.hook.direction = d) = [] := by simp [hne]
    rw [hnone, List.append_nil]
    exact ⟨packets, hsuffix, rfl⟩

end DeviceView

@[simp] theorem hookAt_empty (d : Direction) : ({} : Links).hookAt d = none := by
  cases d <;> rfl

/-- A packet on a live hook changes the counters of its device only, and these
stay fresh. -/
theorem DeviceView.Ok.packet {v v' : DeviceView ncpu} {stage : Option Stage} {d : Direction}
    {hook : Hook} (h : v.Ok stage) (hhook : v.links.hookAt d = some hook)
    (hlinks : v'.links = v.links) (hmarked : v'.marked = v.marked)
    (hfresh : v.Fresh → v'.Fresh) : v'.Ok stage := by
  have hlinked : v.links ≠ {} := by
    intro hnone
    rw [hnone, hookAt_empty] at hhook
    cases hhook
  cases stage with
  | none =>
      rcases h with hclean | ⟨hlive, hold⟩
      · exact absurd hclean.links hlinked
      · exact Or.inr ⟨hlinks ▸ hlive, hfresh hold⟩
  | some stage =>
      cases stage with
      | ingress ethernet => exact absurd h.links hlinked
      | egress ethernet =>
          obtain ⟨hone, hunmarked, hold⟩ := h
          exact ⟨hlinks ▸ hone, hmarked.trans hunmarked, hfresh hold⟩
      | mark => exact ⟨hlinks ▸ h.1, hfresh h.2⟩
      | dropEgress => exact (congrArg Links.inn hlinks).trans h
      | dropCounters => exact hlinks.trans h
      | unmark => exact absurd h.1 hlinked

/-! ## The invariant -/

section Inv

variable {w w' : AttachWorld ncpu} {i : UInt32}

theorem countersInv_start (devCapacity : Nat) (tracer : Bool) :
    CountersInv (AttachWorld.start ncpu devCapacity tracer) where
  devices := by
    intro i
    refine Or.inl ⟨rfl, ?_, fun d => rfl⟩
    cases tracer <;> rfl
  directions := by
    intro key hkey
    exact absurd hkey (AList.notMem_empty key)

/-- An operation on one device leaves the others as they are. -/
theorem CountersInv.change (h : CountersInv w)
    (hview : ∀ j, j ≠ i → w'.view j = w.view j)
    (hstage : ∀ j, j ≠ i → w'.stageOf j = w.stageOf j) (hdevice : (w'.view i).Ok (w'.stageOf i))
    (hdirections : DirectionsOk w'.bpf.maps) : CountersInv w' where
  devices := by
    intro j
    by_cases hj : j = i
    · subst hj
      exact hdevice
    · rw [hview j hj, hstage j hj]
      exact h.devices j
  directions := hdirections

theorem stageOf_some {stage : Stage} (hop : w.op = some (i, stage)) (j : UInt32) :
    w.stageOf j = if j = i then some stage else none := by
  simp only [AttachWorld.stageOf, hop, Option.bind_some]
  by_cases hj : j = i
  · simp [hj]
  · rw [if_neg (fun h => hj h.symm), if_neg hj]

theorem stageOf_none (hop : w.op = none) (j : UInt32) : w.stageOf j = none := by
  simp [AttachWorld.stageOf, hop]

/-- The links of one device are replaced. -/
theorem view_setLinks (l : Links) (op : Option (UInt32 × Stage)) (j : UInt32) :
    ({ w with bpf := setLinks i l w.bpf, op := op } : AttachWorld ncpu).view j =
      { w.view j with links := if j = i then l else w.bpf.linksOf j } := by
  simp only [AttachWorld.view, linksOf_setLinks]
  rfl

theorem dropDevCounters_lookup (i : UInt32) (b : BpfState ncpu) (j : UInt32) (d : Direction) :
    (dropDevCounters i b).maps.devstats.lookup ⟨j, d.code⟩ =
      if j = i then none else b.maps.devstats.lookup ⟨j, d.code⟩ := by
  simp only [dropDevCounters, Store.lookup_eraseAll]
  by_cases hj : j = i
  · subst hj
    cases d <;> simp
  · simp [hj]

theorem DirectionsOk.dropDevCounters {b : BpfState ncpu} (h : DirectionsOk b.maps) :
    DirectionsOk (dropDevCounters i b).maps := by
  intro key hkey
  refine h key ?_
  rw [← AList.lookup_isSome] at hkey ⊢
  simp only [Agent.dropDevCounters, Store.lookup_eraseAll] at hkey
  split at hkey
  · simp at hkey
  · exact hkey

theorem CountersInv.packet (h : CountersInv w) (env : Env ncpu) (direction : Direction)
    (skb : SkBuff) : CountersInv (w.packet env direction skb) := by
  unfold AttachWorld.packet
  cases hhook : (w.bpf.linksOf skb.ifindex).hookAt direction with
  | none => exact h
  | some hook =>
      have hlookup : ∀ key, key ≠ ⟨skb.ifindex, hook.direction.code⟩ →
          (observe env hook skb w.bpf.maps).devstats.lookup key =
            w.bpf.maps.devstats.lookup key :=
        fun key => observe_lookup_ne w.bpf.maps env hook skb
      refine h.change (i := skb.ifindex) ?_ (fun _ _ => rfl) ?_ ?_
      · intro j hj
        simp only [AttachWorld.view, Function.update_of_ne hj]
        congr 1
        ext1 d
        exact hlookup _ fun heq => hj (congrArg DevKey.ifindex heq)
      · refine (h.devices skb.ifindex).packet hhook rfl rfl fun hold => ?_
        refine hold.packet ⟨env.cpu, env.now, hook, skb⟩ (Function.update_self ..) ?_ ?_
        · intro d hd
          exact hlookup _ fun heq => hd (direction_code_inj (congrArg DevKey.direction heq))
        · rcases observe_cases w.bpf.maps env hook skb with ⟨hfull, -⟩ | ⟨-, hadd⟩
          · left
            exact (observe_lookup_eq_none_iff w.bpf.maps env hook skb).mpr hfull
          · right
            exact (congrArg (AList.lookup _) hadd).trans (AList.lookup_insert _)
      · intro key hkey
        by_cases hown : key = ⟨skb.ifindex, hook.direction.code⟩
        · exact ⟨hook.direction, by rw [hown]⟩
        · refine h.directions key ?_
          rw [← AList.lookup_isSome] at hkey ⊢
          rwa [← hlookup key hown]

theorem view_dropDevCounters (b : BpfState ncpu) (op : Option (UInt32 × Stage))
    (recent : UInt32 → List (Seen ncpu)) (j : UInt32) :
    (⟨dropDevCounters i b, op, recent⟩ : AttachWorld ncpu).view j =
      { links := b.linksOf j
        marked := b.isMarked j
        entry := fun d => if j = i then none else b.maps.devstats.lookup ⟨j, d.code⟩
        recent := recent j } := by
  simp only [AttachWorld.view, linksOf_dropDevCounters, dropDevCounters_lookup]
  rfl

theorem DeviceView.Bare.fresh {v : DeviceView ncpu} (h : v.Bare) : v.Fresh := by
  intro d slots hentry
  rw [h d] at hentry
  cases hentry

/-- Only a device without links and counters has a link that is not live while
nothing is in progress. -/
theorem CountersInv.clean_of_not_live (h : CountersInv w) (hidle : w.op = none)
    (hlive : (w.bpf.linksOf i).live = false) : (w.view i).Clean := by
  have hdevice := h.devices i
  rw [stageOf_none hidle] at hdevice
  rcases hdevice with hclean | ⟨hother, -⟩
  · exact hclean
  · exact absurd (hother.symm.trans hlive) (by simp)

theorem CountersInv.beginAttach (h : CountersInv w) (hidle : w.op = none) (ethernet : Bool) :
    CountersInv (w.beginAttach i ethernet) := by
  unfold AttachWorld.beginAttach
  split
  · exact h
  simp only
  split
  · -- attached already: the entry is written back
    refine h.change (i := i) ?_ (fun _ _ => rfl) ?_ h.directions
    · intro j hj
      rw [view_setLinks, if_neg hj]
      rfl
    · have hdevice := h.devices i
      rw [view_setLinks, if_pos rfl]
      exact hdevice
  · rename_i hlive
    obtain ⟨hlinks, hunmarked, -⟩ :=
      h.clean_of_not_live hidle (Bool.eq_false_of_not_eq_true hlive)
    have hnone : w.bpf.linksOf i = {} := hlinks
    simp only [hnone, Option.isNone_none, Bool.and_self, if_true]
    refine h.change (i := i) ?_ ?_ ?_ ?_
    · intro j hj
      rw [view_dropDevCounters, linksOf_setLinks, if_neg hj]
      simp only [if_neg hj, Function.update_of_ne hj]
      rfl
    · intro j hj
      rw [stageOf_some rfl, if_neg hj, stageOf_none hidle]
    · rw [stageOf_some rfl, if_pos rfl, view_dropDevCounters]
      refine ⟨?_, hunmarked, ?_⟩
      · simp
      · intro d
        simp
    · exact h.directions.dropDevCounters (b := setLinks i {} w.bpf)

theorem CountersInv.beginDetach (h : CountersInv w) (hidle : w.op = none) :
    CountersInv (w.beginDetach i) := by
  unfold AttachWorld.beginDetach
  split
  · exact h
  · refine h.change (i := i) ?_ ?_ ?_ h.directions
    · intro j hj
      rw [view_setLinks, if_neg hj]
      rfl
    · intro j hj
      rw [stageOf_some rfl, if_neg hj, stageOf_none hidle]
    · rw [stageOf_some rfl, if_pos rfl, view_setLinks, if_pos rfl]
      exact rfl

/-- A view with other links. -/
theorem CountersInv.setLinks (h : CountersInv w) {stage : Stage} (hop : w.op = some (i, stage))
    {l : Links} {op : Option (UInt32 × Stage)} (hsame : ∀ op', op = some op' → op'.1 = i)
    (hdevice : ({ w.view i with links := l } : DeviceView ncpu).Ok (op.map Prod.snd)) :
    CountersInv { w with bpf := Agent.setLinks i l w.bpf, op := op } := by
  refine h.change (i := i) ?_ ?_ ?_ h.directions
  · intro j hj
    rw [view_setLinks, if_neg hj]
    rfl
  · intro j hj
    rw [stageOf_some hop, if_neg hj]
    cases op with
    | none => exact stageOf_none rfl j
    | some op' => rw [stageOf_some (i := op'.1) rfl, if_neg (by rw [hsame op' rfl]; exact hj)]
  · rw [view_setLinks, if_pos rfl]
    cases op with
    | none => exact hdevice
    | some op' =>
        rw [stageOf_some (i := op'.1) rfl, if_pos (hsame op' rfl).symm]
        exact hdevice

/-- The marks change, of one device only. -/
theorem CountersInv.setMarks (h : CountersInv w) {stage : Stage} (hop : w.op = some (i, stage))
    {marks : Option (Store UInt32 UInt8)}
    (hmarks : ∀ j, j ≠ i → marks.bind (AList.lookup j) = w.bpf.attached.bind (AList.lookup j))
    (hdevice : ({ w.view i with marked := (marks.bind (AList.lookup i)).isSome } :
      DeviceView ncpu).Ok none) :
    CountersInv { w with bpf := { w.bpf with attached := marks }, op := none } := by
  refine h.change (i := i) ?_ ?_ ?_ h.directions
  · intro j hj
    simp only [AttachWorld.view, BpfState.isMarked, hmarks j hj]
    rfl
  · intro j hj
    rw [stageOf_some hop, if_neg hj]
    exact stageOf_none rfl j
  · exact hdevice

/-- When the egress attach of a device fails, the device has no counters: no
packet was counted on its ingress hook since the attach began. -/
def RollbackBare (w : AttachWorld ncpu) (e : CounterEvent ncpu) : Prop :=
  ∀ i ethernet, w.op = some (i, .egress ethernet) → e = .next false → (w.view i).Bare

theorem CountersInv.advance (h : CountersInv w) {stage : Stage} (hop : w.op = some (i, stage))
    {ok : Bool} (hbare : RollbackBare w (.next ok)) : CountersInv (w.advance i ok stage) := by
  have hdevice := h.devices i
  rw [stageOf_some hop, if_pos rfl] at hdevice
  cases stage with
  | ingress ethernet =>
      obtain ⟨hlinks, hunmarked, hnone⟩ := hdevice
      have hlinksOf : w.bpf.linksOf i = {} := hlinks
      simp only [AttachWorld.advance, hlinksOf, Option.isNone_none, Bool.true_and, if_true]
      cases ok with
      | false =>
          refine h.change (i := i) (fun _ _ => rfl) ?_ ?_ h.directions
          · intro j hj
            rw [stageOf_some hop, if_neg hj]
            exact stageOf_none rfl j
          · exact Or.inl ⟨hlinks, hunmarked, hnone⟩
      | true =>
          refine h.setLinks hop (by simp) ?_
          exact ⟨⟨_, rfl⟩, hunmarked, DeviceView.Bare.fresh hnone⟩
  | egress ethernet =>
      obtain ⟨⟨hook, hlinks⟩, hunmarked, hfresh⟩ := hdevice
      have hlinksOf : w.bpf.linksOf i = { inn := some hook } := hlinks
      simp only [AttachWorld.advance, hlinksOf, Option.isNone_none, Bool.true_and, if_true]
      cases ok with
      | false =>
          refine h.setLinks hop (by simp) (Or.inl ⟨rfl, hunmarked, ?_⟩)
          exact hbare i ethernet hop rfl
      | true => exact h.setLinks hop (by simp) ⟨rfl, hfresh⟩
  | mark =>
      simp only [AttachWorld.advance, markAttached_spec]
      refine h.setMarks hop ?_ (Or.inr hdevice)
      intro j hj
      split
      · exact marks_insert_elsewhere _ hj
      · rfl
  | dropEgress =>
      refine h.setLinks hop (by simp) ?_
      have hinn : (w.bpf.linksOf i).inn = none := hdevice
      show (⟨(w.bpf.linksOf i).inn, none⟩ : Links) = {}
      rw [hinn]
  | dropCounters =>
      refine h.change (i := i) ?_ ?_ ?_ (h.directions.dropDevCounters)
      · intro j hj
        simp only [AttachWorld.advance, view_dropDevCounters, if_neg hj]
        rfl
      · intro j hj
        rw [AttachWorld.advance, stageOf_some rfl, stageOf_some hop, if_neg hj, if_neg hj]
      · rw [AttachWorld.advance, stageOf_some rfl, if_pos rfl, view_dropDevCounters]
        refine ⟨hdevice, ?_⟩
        intro d
        simp
  | unmark =>
      refine h.setMarks hop ?_ (Or.inl ⟨hdevice.1, ?_, hdevice.2⟩)
      · intro j hj
        cases w.bpf.attached with
        | none => rfl
        | some m => simp [AList.lookup_erase_ne hj]
      · cases w.bpf.attached with
        | none => rfl
        | some m => simp

theorem CountersInv.step (h : CountersInv w) {e : CounterEvent ncpu} (hbare : RollbackBare w e) :
    CountersInv (w.step e) := by
  cases e with
  | packet env direction skb => exact h.packet env direction skb
  | attach i ethernet =>
      unfold AttachWorld.step
      cases hop : w.op with
      | some op => exact h
      | none => exact h.beginAttach hop ethernet
  | detach i =>
      unfold AttachWorld.step
      cases hop : w.op with
      | some op => exact h
      | none => exact h.beginDetach hop
  | next ok =>
      unfold AttachWorld.step
      cases hop : w.op with
      | none => exact h
      | some op => exact h.advance hop hbare

end Inv

/-! ## The device with the invalid index -/

/-- Nothing is ever attached to the ifindex 0. -/
structure ZeroUnused (w : AttachWorld ncpu) : Prop where
  links : w.bpf.atts.lookup 0 = none
  op : ∀ stage, w.op ≠ some (0, stage)

theorem setLinks_lookup_zero {b : BpfState ncpu} (hb : b.atts.lookup 0 = none) {i : UInt32}
    (hi : i ≠ 0) (l : Links) : (setLinks i l b).atts.lookup 0 = none := by
  rw [setLinks, Store.lookup_insert_eq, if_neg (fun h => hi h.symm)]
  exact hb

theorem ZeroUnused.advance {w : AttachWorld ncpu} (h : ZeroUnused w) {i : UInt32} (hi : i ≠ 0)
    (ok : Bool) (stage : Stage) : ZeroUnused (w.advance i ok stage) := by
  have hset := setLinks_lookup_zero h.links hi
  cases stage with
  | ingress ethernet =>
      simp only [AttachWorld.advance]
      split
      · exact ⟨h.links, by simp⟩
      · exact ⟨hset _, by simp [hi]⟩
  | egress ethernet =>
      simp only [AttachWorld.advance]
      split
      · exact ⟨hset _, by simp⟩
      · exact ⟨hset _, by simp [hi]⟩
  | mark =>
      simp only [AttachWorld.advance, markAttached_spec]
      exact ⟨h.links, by simp⟩
  | dropEgress => exact ⟨hset _, by simp [AttachWorld.advance, hi]⟩
  | dropCounters => exact ⟨h.links, by simp [AttachWorld.advance, hi]⟩
  | unmark => exact ⟨h.links, by simp [AttachWorld.advance]⟩

theorem ZeroUnused.step {w : AttachWorld ncpu} (h : ZeroUnused w) (e : CounterEvent ncpu) :
    ZeroUnused (w.step e) := by
  cases e with
  | packet env direction skb =>
      simp only [AttachWorld.step, AttachWorld.packet]
      split
      · exact h
      · exact ⟨h.links, h.op⟩
  | attach i ethernet =>
      simp only [AttachWorld.step, AttachWorld.beginAttach]
      split
      · exact h
      split
      · exact h
      rename_i hi
      have hlinks := setLinks_lookup_zero h.links hi (w.bpf.linksOf i)
      split
      · exact ⟨hlinks, h.op⟩
      · refine ⟨?_, by simp [hi]⟩
        split
        · exact hlinks
        · exact hlinks
  | detach i =>
      simp only [AttachWorld.step, AttachWorld.beginDetach]
      split
      · exact h
      split
      · exact h
      · rename_i l hlookup
        have hi : i ≠ 0 := by
          rintro rfl
          rw [h.links] at hlookup
          cases hlookup
        exact ⟨setLinks_lookup_zero h.links hi _, by simp [hi]⟩
  | next ok =>
      unfold AttachWorld.step
      cases hop : w.op with
      | none => exact h
      | some op =>
          have hi : op.1 ≠ 0 := by
            intro hzero
            exact h.op op.2 (by rw [hop, ← hzero])
          exact h.advance hi ok op.2

/-! ## Packets during an attach -/

/-- The event is a packet counted on the device: the hook it arrives on is live,
and the map has the entry or room for one. -/
def AttachWorld.Counts (w : AttachWorld ncpu) (i : UInt32) : CounterEvent ncpu → Prop
  | .packet _ direction skb =>
      skb.ifindex = i ∧ ∃ hook, (w.bpf.linksOf i).hookAt direction = some hook ∧
        HasRoom w.bpf.maps ⟨i, hook.direction.code⟩
  | _ => False

/-- A packet leaves a device without counters exactly when it is not counted on
it. -/
theorem bare_packet_iff (w : AttachWorld ncpu) (i : UInt32) (env : Env ncpu)
    (direction : Direction) (skb : SkBuff) :
    ((w.packet env direction skb).view i).Bare ↔
      (w.view i).Bare ∧ ¬ w.Counts i (.packet env direction skb) := by
  unfold AttachWorld.packet AttachWorld.Counts
  cases hhook : (w.bpf.linksOf skb.ifindex).hookAt direction with
  | none =>
      refine (and_iff_left ?_).symm
      rintro ⟨rfl, hook, hlive, -⟩
      cases hhook.symm.trans hlive
  | some hook =>
      have hother : ∀ j d, (⟨j, d⟩ : DevKey) ≠ ⟨skb.ifindex, hook.direction.code⟩ →
          (observe env hook skb w.bpf.maps).devstats.lookup ⟨j, d⟩ =
            w.bpf.maps.devstats.lookup ⟨j, d⟩ :=
        fun j d => observe_lookup_ne w.bpf.maps env hook skb
      have hown := observe_lookup_eq_none_iff w.bpf.maps env hook skb
      by_cases hi : skb.ifindex = i
      · subst hi
        have hrest : ∀ d : Direction, d ≠ hook.direction →
            (observe env hook skb w.bpf.maps).devstats.lookup ⟨skb.ifindex, d.code⟩ =
              w.bpf.maps.devstats.lookup ⟨skb.ifindex, d.code⟩ :=
          fun d hd => hother _ _ fun heq => hd (direction_code_inj (congrArg DevKey.direction heq))
        constructor
        · intro hbare
          have hfull := hown.mp (hbare hook.direction)
          refine ⟨?_, ?_⟩
          · intro d
            by_cases hd : d = hook.direction
            · rw [hd]
              exact (Classical.not_imp.mp hfull).1
            · exact (hrest d hd).symm.trans (hbare d)
          · rintro ⟨-, hook', hlive, hroom⟩
            rw [hhook] at hlive
            cases hlive
            exact hfull hroom
        · rintro ⟨hbare, huncounted⟩ d
          by_cases hd : d = hook.direction
          · rw [hd]
            exact hown.mpr fun hroom => huncounted ⟨rfl, hook, hhook, hroom⟩
          · exact (hrest d hd).trans (hbare d)
      · simp only [hi, false_and, not_false_eq_true, and_true]
        refine forall_congr' fun d => ?_
        show (observe env hook skb w.bpf.maps).devstats.lookup ⟨i, d.code⟩ = none ↔ _
        rw [hother _ _ fun heq => hi (congrArg DevKey.ifindex heq).symm]
        rfl

/-- While an attach or detach waits for its next call, nothing but packets
happens. -/
theorem bare_step_iff {w : AttachWorld ncpu} {i : UInt32} {stage : Stage}
    (hop : w.op = some (i, stage)) {e : CounterEvent ncpu} (hcall : ∀ ok, e ≠ .next ok) :
    (w.step e).op = some (i, stage) ∧
      (((w.step e).view i).Bare ↔ (w.view i).Bare ∧ ¬ w.Counts i e) := by
  cases e with
  | packet env direction skb =>
      refine ⟨?_, bare_packet_iff w i env direction skb⟩
      simp only [AttachWorld.step, AttachWorld.packet]
      split
      · exact hop
      · exact hop
  | attach j ethernet => simp [AttachWorld.step, hop, AttachWorld.Counts]
  | detach j => simp [AttachWorld.step, hop, AttachWorld.Counts]
  | next ok => exact absurd rfl (hcall ok)

/-- Between two calls the counters of the device stay absent exactly when no
packet is counted on it. -/
theorem bare_between_iff {w : AttachWorld ncpu} {i : UInt32} {stage : Stage}
    (hop : w.op = some (i, stage)) {between : List (CounterEvent ncpu)}
    (hcall : ∀ ok, .next ok ∉ between) :
    (between.foldl AttachWorld.step w).op = some (i, stage) ∧
      (((between.foldl AttachWorld.step w).view i).Bare ↔
        (w.view i).Bare ∧ ∀ before e after, between = before ++ e :: after →
          ¬ (before.foldl AttachWorld.step w).Counts i e) := by
  induction between generalizing w with
  | nil => simp [hop]
  | cons first between ih =>
      simp only [List.mem_cons, not_or, forall_and] at hcall
      obtain ⟨hop', hfirst⟩ := bare_step_iff hop fun ok heq => hcall.1 ok heq.symm
      obtain ⟨hend, hrest⟩ := ih hop' hcall.2
      refine ⟨hend, ?_⟩
      rw [List.foldl_cons, hrest, hfirst, and_assoc]
      refine and_congr_right fun _ => ?_
      constructor
      · rintro ⟨huncounted, htail⟩ before e after hcut
        cases before with
        | nil =>
            rw [List.nil_append, List.cons_eq_cons] at hcut
            rw [← hcut.1]
            exact huncounted
        | cons b before =>
            rw [List.cons_append, List.cons_eq_cons] at hcut
            rw [← hcut.1]
            exact htail before e after hcut.2
      · intro hcuts
        exact ⟨hcuts [] first between rfl, fun before e after hcut =>
          hcuts (first :: before) e after (by rw [hcut]; rfl)⟩

/-! ## Whole runs -/

/-- What an attach that returns with this event returns, and for which device. -/
def AttachWorld.returns (w : AttachWorld ncpu) : CounterEvent ncpu → Option (UInt32 × Bool)
  | .attach i _ =>
      if w.op.isSome then none
      else if i = 0 then some (0, false)
      else if (w.bpf.linksOf i).live then some (i, true)
      else none
  | .next ok =>
      match w.op with
      | some (i, .ingress _) =>
          if (w.bpf.linksOf i).inn.isNone && !ok then some (i, false) else none
      | some (i, .egress _) =>
          if (w.bpf.linksOf i).eg.isNone && !ok then some (i, false) else none
      | some (i, .mark) => some (i, true)
      | _ => none
  | _ => none

/-- The counters are those of attached devices, and of packets since their
attach began. -/
structure Tidy (w : AttachWorld ncpu) : Prop where
  attached : ∀ key, key ∈ w.bpf.maps.devstats → w.bpf.isAttached key.ifindex = true
  fresh : ∀ i, w.bpf.isAttached i = true → (w.view i).Fresh

theorem isAttached_eq_live (b : BpfState ncpu) (i : UInt32) :
    b.isAttached i = (b.linksOf i).live := by
  unfold BpfState.isAttached BpfState.linksOf
  cases b.atts.lookup i with
  | none => rfl
  | some l => rfl

theorem CountersInv.tidy {w : AttachWorld ncpu} (h : CountersInv w) (hidle : w.op = none) :
    Tidy w where
  attached := by
    intro key hkey
    obtain ⟨i, code⟩ := key
    obtain ⟨d, hd⟩ := h.directions _ hkey
    obtain rfl : code = d.code := hd
    rw [isAttached_eq_live]
    by_contra hlive
    have hnone : w.bpf.maps.devstats.lookup ⟨i, d.code⟩ = none :=
      (h.clean_of_not_live hidle (Bool.eq_false_of_not_eq_true hlive)).bare d
    rw [← AList.lookup_isSome, hnone] at hkey
    cases hkey
  fresh := by
    intro i hlive
    rw [isAttached_eq_live] at hlive
    have hdevice := h.devices i
    rw [stageOf_none hidle] at hdevice
    rcases hdevice with hclean | ⟨-, hfresh⟩
    · exact DeviceView.Bare.fresh hclean.bare
    · exact hfresh

/-- The state a history leads to. -/
def countersAfter (ncpu devCapacity : Nat) (tracer : Bool) (history : List (CounterEvent ncpu)) :
    AttachWorld ncpu :=
  history.foldl AttachWorld.step (AttachWorld.start ncpu devCapacity tracer)

/-- The three ways an attach returns false. -/
theorem returns_false_cases {w : AttachWorld ncpu} {e : CounterEvent ncpu} {i : UInt32}
    (hreturns : w.returns e = some (i, false)) :
    (∃ ethernet, e = .attach i ethernet ∧ i = 0 ∧ w.op = none) ∨
      (∃ ethernet, e = .next false ∧ w.op = some (i, .ingress ethernet) ∧
        (w.bpf.linksOf i).inn = none) ∨
      ∃ ethernet, e = .next false ∧ w.op = some (i, .egress ethernet) ∧
        (w.bpf.linksOf i).eg = none := by
  cases e with
  | packet env direction skb => simp [AttachWorld.returns] at hreturns
  | detach i => simp [AttachWorld.returns] at hreturns
  | attach j ethernet =>
      simp only [AttachWorld.returns] at hreturns
      split at hreturns
      · cases hreturns
      rename_i hidle
      split at hreturns
      · rename_i hzero
        cases hreturns
        exact Or.inl ⟨ethernet, by rw [hzero], rfl, by simpa using hidle⟩
      · split at hreturns
        · cases hreturns
        · cases hreturns
  | next ok =>
      simp only [AttachWorld.returns] at hreturns
      split at hreturns
      · rename_i j ethernet hop
        split at hreturns
        · rename_i hfail
          cases hreturns
          simp only [Bool.and_eq_true, Option.isNone_iff_eq_none, Bool.not_eq_true'] at hfail
          exact Or.inr (Or.inl ⟨ethernet, by rw [hfail.2], hop, hfail.1⟩)
        · cases hreturns
      · rename_i j ethernet hop
        split at hreturns
        · rename_i hfail
          cases hreturns
          simp only [Bool.and_eq_true, Option.isNone_iff_eq_none, Bool.not_eq_true'] at hfail
          exact Or.inr (Or.inr ⟨ethernet, by rw [hfail.2], hop, hfail.1⟩)
        · cases hreturns
      · cases hreturns
      · cases hreturns

/-- An attach that returns false is over, and its device is not attached. -/
theorem returns_false {w : AttachWorld ncpu} (hzero : ZeroUnused w) {e : CounterEvent ncpu}
    {i : UInt32} (hreturns : w.returns e = some (i, false)) :
    (w.step e).op = none ∧ ((w.step e).bpf.linksOf i).live = false := by
  rcases returns_false_cases hreturns with
    ⟨ethernet, rfl, rfl, hidle⟩ | ⟨ethernet, rfl, hop, hinn⟩ | ⟨ethernet, rfl, hop, heg⟩
  · have hsame : w.step (.attach 0 ethernet) = w := by
      simp [AttachWorld.step, hidle, AttachWorld.beginAttach]
    rw [hsame]
    exact ⟨hidle, by rw [BpfState.linksOf, hzero.links]; rfl⟩
  · simp [AttachWorld.step, hop, AttachWorld.advance, hinn, Links.live]
  · simp [AttachWorld.step, hop, AttachWorld.advance, heg, Links.live, linksOf_setLinks]

/-- A failed egress attach that leaves the device clean found no counters. -/
theorem rollbackBare_of_clean {w : AttachWorld ncpu} (hinv : CountersInv w)
    {e : CounterEvent ncpu}
    (hclean : ∀ i, w.returns e = some (i, false) → ((w.step e).view i).Clean) :
    RollbackBare w e := by
  rintro i ethernet hop rfl
  have hdevice := hinv.devices i
  rw [stageOf_some hop, if_pos rfl] at hdevice
  obtain ⟨⟨hook, hlinks⟩, -, -⟩ := hdevice
  have hlinksOf : w.bpf.linksOf i = { inn := some hook } := hlinks
  have hbare := (hclean i (by simp [AttachWorld.returns, hop, hlinksOf])).bare
  intro d
  have hentry := hbare d
  simp only [AttachWorld.step, hop, AttachWorld.advance, hlinksOf] at hentry
  exact hentry

section Histories

variable (devCapacity : Nat) (tracer : Bool) {history : List (CounterEvent ncpu)}

theorem countersAfter_concat (front : List (CounterEvent ncpu)) (e : CounterEvent ncpu) :
    countersAfter ncpu devCapacity tracer (front ++ [e]) =
      (countersAfter ncpu devCapacity tracer front).step e := by
  simp [countersAfter]

theorem zeroUnused_after (history : List (CounterEvent ncpu)) :
    ZeroUnused (countersAfter ncpu devCapacity tracer history) := by
  induction history using List.reverseRecOn with
  | nil => exact ⟨rfl, by simp [countersAfter, AttachWorld.start]⟩
  | append_singleton history e ih =>
      rw [countersAfter_concat]
      exact ih.step e

/-- The invariant holds along a history each step of which meets the condition
when the invariant held up to it. -/
theorem countersInv_after
    (hstep : ∀ front e back, history = front ++ e :: back →
      (∀ before rest, front = before ++ rest →
        CountersInv (countersAfter ncpu devCapacity tracer before)) →
        RollbackBare (countersAfter ncpu devCapacity tracer front) e)
    {front back : List (CounterEvent ncpu)} (hhistory : history = front ++ back) :
    ∀ before rest, front = before ++ rest →
      CountersInv (countersAfter ncpu devCapacity tracer before) := by
  induction front using List.reverseRecOn generalizing back with
  | nil =>
      intro before rest hcut
      rw [(List.nil_eq_append_iff.mp hcut).1]
      exact countersInv_start devCapacity tracer
  | append_singleton front e ih =>
      have hcut : history = front ++ e :: back := by simpa using hhistory
      have hinv := ih hcut
      intro before rest hbefore
      rcases List.eq_nil_or_concat rest with rfl | ⟨rest, last, rfl⟩
      · rw [List.append_nil] at hbefore
        rw [← hbefore, countersAfter_concat]
        exact (hinv front [] (by simp)).step (hstep front e back hcut hinv)
      · rw [List.concat_eq_append, ← List.append_assoc] at hbefore
        exact hinv before rest (List.append_inj_left' hbefore rfl)

/-- No packet is counted on a device between the two `attach_tcx` of an attach
whose second one fails. -/
def QuietRollbacks (history : List (CounterEvent ncpu)) : Prop :=
  ∀ front between back i ethernet,
    history = front ++ .next true :: (between ++ .next false :: back) →
      (countersAfter ncpu devCapacity tracer front).op = some (i, .ingress ethernet) →
        (∀ ok, .next ok ∉ between) →
          ∀ before e after, between = before ++ e :: after →
            ¬ (countersAfter ncpu devCapacity tracer (front ++ .next true :: before)).Counts i e

theorem countersAfter_append (front later : List (CounterEvent ncpu)) :
    countersAfter ncpu devCapacity tracer (front ++ later) =
      later.foldl AttachWorld.step (countersAfter ncpu devCapacity tracer front) := by
  simp [countersAfter]

/-- How an attach comes to wait for its egress call. -/
theorem egress_step {w : AttachWorld ncpu} {e : CounterEvent ncpu} {i : UInt32} {ethernet : Bool}
    (hop : (w.step e).op = some (i, .egress ethernet)) :
    (w.op = some (i, .egress ethernet) ∧ ∀ ok, e ≠ .next ok) ∨
      ∃ ok, e = .next ok ∧ w.op = some (i, .ingress ethernet) := by
  cases e with
  | packet env direction skb =>
      simp only [AttachWorld.step, AttachWorld.packet] at hop
      split at hop
      · exact Or.inl ⟨hop, by simp⟩
      · exact Or.inl ⟨hop, by simp⟩
  | attach j eth =>
      simp only [AttachWorld.step, AttachWorld.beginAttach] at hop
      split at hop
      · exact Or.inl ⟨hop, by simp⟩
      rename_i hidle
      have hnone : w.op = none := by simpa using hidle
      split at hop
      · exact Or.inl ⟨hop, by simp⟩
      split at hop
      · exact Or.inl ⟨hop, by simp⟩
      · simp at hop
  | detach j =>
      simp only [AttachWorld.step, AttachWorld.beginDetach] at hop
      split at hop
      · exact Or.inl ⟨hop, by simp⟩
      split at hop
      · exact Or.inl ⟨hop, by simp⟩
      · simp at hop
  | next ok =>
      refine Or.inr ⟨ok, rfl, ?_⟩
      simp only [AttachWorld.step] at hop
      split at hop
      · rename_i hidle
        rw [hidle] at hop
        cases hop
      · rename_i j stage hwait
        rw [hwait]
        -- only the ingress call is followed by the egress call
        cases stage with
        | ingress eth =>
            simp only [AttachWorld.advance] at hop
            split at hop
            · cases hop
            · cases hop
              rfl
        | egress eth =>
            simp only [AttachWorld.advance] at hop
            split at hop <;> simp at hop
        | _ => simp [AttachWorld.advance] at hop

/-- An attach that waits for its egress call had its ingress call. -/
theorem egress_began {i : UInt32} {ethernet : Bool} {history : List (CounterEvent ncpu)}
    (hop : (countersAfter ncpu devCapacity tracer history).op = some (i, .egress ethernet)) :
    ∃ front ok between, history = front ++ .next ok :: between ∧
      (countersAfter ncpu devCapacity tracer front).op = some (i, .ingress ethernet) ∧
      (countersAfter ncpu devCapacity tracer (front ++ [.next ok])).op =
        some (i, .egress ethernet) ∧
      ∀ ok, .next ok ∉ between := by
  induction history using List.reverseRecOn with
  | nil => cases hop
  | append_singleton history e ih =>
      have hlast := hop
      rw [countersAfter_concat] at hlast
      rcases egress_step hlast with ⟨hbefore, hcall⟩ | ⟨ok, rfl, hbefore⟩
      · obtain ⟨front, ok, between, rfl, hingress, hegress, hbetween⟩ := ih hbefore
        refine ⟨front, ok, between ++ [e], by simp, hingress, hegress, ?_⟩
        intro ok' hmem
        rcases List.mem_append.mp hmem with hmem | hmem
        · exact hbetween ok' hmem
        · exact hcall ok' (List.mem_singleton.mp hmem).symm
      · exact ⟨history, ok, [], rfl, hbefore, hop, by simp⟩

/-- A failing egress call finds the device bare when no packet was counted since
the ingress call: the device had no link and no counters before it. -/
theorem rollbackBare_of_quiet {history : List (CounterEvent ncpu)}
    (hquiet : QuietRollbacks devCapacity tracer history) {front back : List (CounterEvent ncpu)}
    {e : CounterEvent ncpu} (hcut : history = front ++ e :: back)
    (hinv : ∀ before rest, front = before ++ rest →
      CountersInv (countersAfter ncpu devCapacity tracer before)) :
    RollbackBare (countersAfter ncpu devCapacity tracer front) e := by
  rintro i ethernet hop rfl
  obtain ⟨first, ok, between, rfl, hingress, hegress, hcall⟩ := egress_began devCapacity tracer hop
  have hclean : ((countersAfter ncpu devCapacity tracer first).view i).Clean := by
    have hdevice := (hinv first _ rfl).devices i
    rwa [stageOf_some hingress, if_pos rfl] at hdevice
  have hlinks : (countersAfter ncpu devCapacity tracer first).bpf.linksOf i = {} := hclean.links
  have hok : ok = true := by
    by_contra hfailed
    rw [countersAfter_concat] at hegress
    simp [AttachWorld.step, hingress, AttachWorld.advance, hlinks, hfailed] at hegress
  subst hok
  have hbare : ((countersAfter ncpu devCapacity tracer (first ++ [.next true])).view i).Bare := by
    intro d
    have hentry := hclean.bare d
    rw [countersAfter_concat]
    simp only [AttachWorld.step, hingress, AttachWorld.advance, hlinks]
    exact hentry
  have hiff := (bare_between_iff hegress hcall).2
  rw [← countersAfter_append] at hiff
  rw [List.append_cons, hiff]
  refine ⟨hbare, ?_⟩
  intro before event after hbetween
  rw [← countersAfter_append]
  have huncounted := hquiet first between back i ethernet (by simpa using hcut) hingress hcall
    before event after hbetween
  simpa using huncounted

/-- The condition on the states, in terms of the events: the failing egress call
finds the device bare exactly when no packet was counted since the ingress
call. -/
theorem rollbackBare_iff_quietRollbacks (history : List (CounterEvent ncpu)) :
    (∀ front e back, history = front ++ e :: back →
        RollbackBare (countersAfter ncpu devCapacity tracer front) e) ↔
      QuietRollbacks devCapacity tracer history := by
  constructor
  · intro hbare front between back i ethernet hcut hop hcall before e after hbetween
    have hegress : (countersAfter ncpu devCapacity tracer (front ++ [.next true])).op =
        some (i, .egress ethernet) := by
      rw [countersAfter_concat]
      simp [AttachWorld.step, hop, AttachWorld.advance]
    obtain ⟨hend, hiff⟩ := bare_between_iff hegress hcall
    rw [← countersAfter_append] at hend hiff
    have hcut' : history = (front ++ [.next true] ++ between) ++ .next false :: back := by
      rw [hcut]
      simp
    have hquiet := (hiff.mp (hbare _ _ _ hcut' i ethernet hend rfl)).2 before e after hbetween
    rw [← countersAfter_append] at hquiet
    simpa using hquiet
  · intro hquiet front e back hcut
    have hstep : ∀ front e back, history = front ++ e :: back →
        (∀ before rest, front = before ++ rest →
          CountersInv (countersAfter ncpu devCapacity tracer before)) →
          RollbackBare (countersAfter ncpu devCapacity tracer front) e :=
      fun front e back hcut hinv => rollbackBare_of_quiet devCapacity tracer hquiet hcut hinv
    exact hstep front e back hcut (countersInv_after devCapacity tracer hstep hcut)

/-- **Device counters and attached devices.**  Over every interleaving of
packets and the calls of attach and detach: whenever nothing is in progress the
counters are those of attached devices and contain only packets since their
attach began, and an attach that returns false leaves no link, no mark and no
counters of its device, if and only if every egress attach that fails finds no
counters of its device.  That is, no packet is counted on the device between
the two `attach_tcx` of an attach whose second one fails. -/
theorem counters_tidy_iff_rollback_bare (history : List (CounterEvent ncpu)) :
    (((∀ front back, history = front ++ back →
        (countersAfter ncpu devCapacity tracer front).op = none →
          Tidy (countersAfter ncpu devCapacity tracer front)) ∧
      ∀ front e back i, history = front ++ e :: back →
        (countersAfter ncpu devCapacity tracer front).returns e = some (i, false) →
          ((countersAfter ncpu devCapacity tracer (front ++ [e])).view i).Clean) ↔
      ∀ front e back, history = front ++ e :: back →
        RollbackBare (countersAfter ncpu devCapacity tracer front) e) ∧
      ((∀ front e back, history = front ++ e :: back →
        RollbackBare (countersAfter ncpu devCapacity tracer front) e) ↔
        QuietRollbacks devCapacity tracer history) := by
  refine ⟨?_, rollbackBare_iff_quietRollbacks devCapacity tracer history⟩
  constructor
  · rintro ⟨-, hfailed⟩
    have hstep : ∀ front e back, history = front ++ e :: back →
        (∀ before rest, front = before ++ rest →
          CountersInv (countersAfter ncpu devCapacity tracer before)) →
          RollbackBare (countersAfter ncpu devCapacity tracer front) e := by
      intro front e back hcut hinv
      refine rollbackBare_of_clean (hinv front [] (by simp)) fun i hreturns => ?_
      rw [← countersAfter_concat]
      exact hfailed front e back i hcut hreturns
    intro front e back hcut
    exact hstep front e back hcut (countersInv_after devCapacity tracer hstep hcut)
  · intro hbare
    have hinv : ∀ {front back}, history = front ++ back →
        CountersInv (countersAfter ncpu devCapacity tracer front) := fun {front back} hcut =>
      countersInv_after devCapacity tracer (fun front e back hcut _ => hbare front e back hcut)
        hcut front [] (by simp)
    constructor
    · intro front back hcut hidle
      exact (hinv hcut).tidy hidle
    · intro front e back i hcut hreturns
      obtain ⟨hidle, hlive⟩ :=
        returns_false (zeroUnused_after devCapacity tracer front) hreturns
      have hnext : CountersInv (countersAfter ncpu devCapacity tracer (front ++ [e])) :=
        hinv (by simpa using hcut)
      rw [countersAfter_concat] at hnext ⊢
      exact hnext.clean_of_not_live hidle hlive

end Histories

/-- A frame of 60 bytes received on the device 2. -/
def receivedFrame : SkBuff where
  data := []
  len := 60
  ifindex := 2
  gsoSegs := 0
  vlanPresent := false
  vlanTci := 0

/-- The ingress program is attached, a packet arrives, and the egress program
is refused. -/
def halfAttached : List (CounterEvent 1) :=
  [.attach 2 true, .next true, .packet { cpu := 0, now := 1 } .ingress receivedFrame, .next false]

/-- The attach has returned false, and the counters of the packet stay. -/
theorem failed_attach_leaves_counters :
    (countersAfter 1 16 false halfAttached).op = none ∧
      ⟨2, Direction.ingress.code⟩ ∈ (countersAfter 1 16 false halfAttached).bpf.maps.devstats ∧
      (countersAfter 1 16 false halfAttached).bpf.isAttached 2 = false := by
  decide +kernel

end Agent
end Obserwrt
