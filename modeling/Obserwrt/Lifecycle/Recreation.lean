import Obserwrt.Agent.Attach
import Obserwrt.Lifecycle.Conservation

/-!
# Flows removed and re-created between two passes

LRU eviction and `purge_ifindex` remove map entries behind the tracker's back,
and the next packet of the flow creates a new entry.  The tracker recognises
the restart only by a counter that went down, for packets and bytes
separately, so a re-created entry whose counter has already caught up with the
forgotten one is exported with the difference of two unrelated counters.

The runs here carry two pieces of history: which entries were created since
the last pass (`fresh`), and the deltas exported so far for the current
incarnation of each key (`spent`).
-/

namespace Obserwrt
namespace Lifecycle

open Lib

/-- The lifecycle state with the history of incarnations. -/
structure Churn where
  world : World
  fresh : List FlowKey
  spent : FlowKey → Counter → Nat

def Churn.empty : Churn := ⟨World.empty, [], fun _ _ => 0⟩

/-- Packets and passes, interleaved with removals. -/
inductive ChurnStep
  | packet (key : FlowKey) (u : Bpf.FlowUpdate) (now : UInt64)
  | evict (key : FlowKey)
  | purge (ifindex : UInt32)
  | pass (now : UInt64) (replies : List (BatchReply FlowKey FlowVal))

/-- A pass over a walk that delivered `walk`: every entry is now known, and
what was exported counts for the current incarnations. -/
def Churn.pass (cfg : Config) (s : Churn) (now : UInt64) (walk : List (FlowKey × FlowVal)) :
    Churn where
  world := s.world.pass cfg now walk
  fresh := []
  spent := fun k c =>
    s.spent k c + exported c k (run cfg now walk s.world.flows s.world.last).exports

def Churn.step (cfg : Config) (s : Churn) : ChurnStep → Churn
  | .packet key u now =>
      let world := { s.world with flows := Bpf.account key u now s.world.flows }
      match s.world.flows.lookup key with
      | some _ => { s with world := world }
      | none =>
          { world := world, fresh := key :: s.fresh,
            spent := Function.update s.spent key fun _ => 0 }
  | .evict key => { s with world := { s.world with flows := s.world.flows.erase key } }
  | .purge ifindex =>
      { s with
        world := { s.world with
          flows := Agent.purgeIfindex ifindex (Store.pairs s.world.flows) s.world.flows } }
  | .pass now replies =>
      match batchWalk replies with
      | none => s
      | some (walk, _) => s.pass cfg now walk

/-- Counters stay below `2 ^ 63`, a packet stands for at least one segment,
and passes walk the whole map.  Removals are unrestricted. -/
def ChurnOk (s : Churn) : ChurnStep → Prop
  | .packet key u now => Below63 (Bpf.account key u now s.world.flows) ∧ u.segs ≠ 0
  | .evict _ => True
  | .purge _ => True
  | .pass _ replies => ∃ walk, batchWalk replies = some (walk, true) ∧
      IsFullWalk s.world.flows walk

/-- Both counters of the entry are below the tracked ones, so that the tracker
notices the restart.  A tracked counter of zero hides nothing. -/
def Restarted (l : Last) (v : FlowVal) : Prop :=
  ∀ c : Counter, c.ofVal v < c.ofLast l ∨ c.ofLast l = 0

/-- Every entry created since the last pass whose key is still tracked shows
as restarted. -/
def RestartsVisible (s : Churn) : Prop :=
  ∀ k v l, k ∈ s.fresh → s.world.flows.lookup k = some v → s.world.last.lookup k = some l →
    Restarted l v

/-- The exporter call that carries a flow's own counters. -/
def ownRecord (cfg : Config) (now : UInt64) (k : FlowKey) (v : FlowVal) : Export :=
  ⟨k, v, isExpired cfg now k v, ⟨v.packets, v.bytes⟩⟩

/-! ## One counter -/

/-- The delta is the counter itself exactly when it went down, or when nothing
was tracked. -/
theorem counterDelta_eq_self_iff {cur prev : UInt64} (hcur : cur.toNat < 2 ^ 63)
    (hprev : prev.toNat < 2 ^ 63) : counterDelta cur prev = cur ↔ cur < prev ∨ prev = 0 := by
  rw [← UInt64.toNat_inj, counterDelta_toNat hcur hprev, UInt64.lt_iff_toNat_lt,
    ← UInt64.toNat_inj]
  simp only [UInt64.toNat_zero]
  split <;> omega

section Iff

variable (cfg : Config) (now : UInt64) {k : FlowKey} {v : FlowVal}

theorem deltaSince_eq_own_iff {l : Last} (hv : ∀ c : Counter, (c.ofVal v).toNat < 2 ^ 63)
    (hl : ∀ c : Counter, (c.ofLast l).toNat < 2 ^ 63) :
    deltaSince (some l) v = ⟨v.packets, v.bytes⟩ ↔ Restarted l v := by
  have hpackets := counterDelta_eq_self_iff (hv .packets) (hl .packets)
  have hbytes := counterDelta_eq_self_iff (hv .bytes) (hl .bytes)
  constructor
  · intro heq c
    simp only [deltaSince, Delta.mk.injEq, Option.map_some, Option.getD_some] at heq
    cases c
    · exact hpackets.mp heq.1
    · exact hbytes.mp heq.2
  · intro hrestart
    simp only [deltaSince, Delta.mk.injEq, Option.map_some, Option.getD_some]
    exact ⟨hpackets.mpr (hrestart .packets), hbytes.mpr (hrestart .bytes)⟩

/-- A visit exports the flow's own counters exactly when the tracker has no
record of the key, or one that the entry shows as restarted. -/
theorem record_eq_own_iff {prev : Option Last} (hv : ∀ c : Counter, (c.ofVal v).toNat < 2 ^ 63)
    (hprev : ∀ l ∈ prev, (∀ c : Counter, (c.ofLast l).toNat < 2 ^ 63) ∧ l.packets ≠ 0) :
    record cfg now prev k v = [ownRecord cfg now k v] ↔ ∀ l ∈ prev, Restarted l v := by
  cases prev with
  | none =>
      have hzero : ∀ n : UInt64, n.toNat < 2 ^ 63 → counterDelta n 0 = n := fun n hn =>
        (counterDelta_eq_self_iff hn (by simp)).mpr (Or.inr rfl)
      have hown : deltaSince none v = ⟨v.packets, v.bytes⟩ := by
        simp only [deltaSince, Option.map_none, Option.getD_none, Delta.mk.injEq]
        exact ⟨hzero _ (hv .packets), hzero _ (hv .bytes)⟩
      simp only [record, hown, changedSince, ownRecord]
      cases isExpired cfg now k v <;> simp
  | some l =>
      obtain ⟨hl, hpos⟩ := hprev l rfl
      have hdelta := deltaSince_eq_own_iff hv hl
      constructor
      · intro heq l' hl'
        cases hl'
        rw [← hdelta]
        unfold record ownRecord at heq
        split at heq
        · exact (Export.mk.inj (List.cons.inj heq).1).2.2.2
        · split at heq
          · exact (Export.mk.inj (List.cons.inj heq).1).2.2.2
          · cases heq
      · intro hall
        have hrestart := hall l rfl
        -- a restarted packet counter differs from the tracked one, so the flow is exported
        have hchanged : changedSince (some l) v = true := by
          have hne : v.packets ≠ l.packets := by
            rcases hrestart .packets with hlt | hz
            · exact UInt64.ne_of_lt hlt
            · exact absurd hz hpos
          simp [changedSince, hne]
        simp only [record, ownRecord, hdelta.mpr hrestart, hchanged]
        cases isExpired cfg now k v <;> simp

end Iff

/-! ## What every reachable state satisfies -/

/-- Counters are in range and no packet counter is zero, in the map and in the
tracker. -/
structure ChurnInv (w : World) : Prop where
  below : Below63 w.flows
  entryPos : ∀ k v, w.flows.lookup k = some v → v.packets ≠ 0
  trackedOk : ∀ k l, w.last.lookup k = some l →
    (∀ c : Counter, (c.ofLast l).toNat < 2 ^ 63) ∧ l.packets ≠ 0

/-- The invariant survives the removal of entries. -/
theorem ChurnInv.remove {w : World} (hinv : ChurnInv w) {flows : FlowTable}
    (hsub : ∀ k v, flows.lookup k = some v → w.flows.lookup k = some v) :
    ChurnInv { w with flows := flows } where
  below := fun k v hlookup => hinv.below k v (hsub k v hlookup)
  entryPos := fun k v hlookup => hinv.entryPos k v (hsub k v hlookup)
  trackedOk := hinv.trackedOk

theorem ChurnInv.packet {w : World} (hinv : ChurnInv w) {key : FlowKey} {u : Bpf.FlowUpdate}
    {now : UInt64} (hbelow : Below63 (Bpf.account key u now w.flows)) (hsegs : u.segs ≠ 0) :
    ChurnInv { w with flows := Bpf.account key u now w.flows } where
  below := hbelow
  entryPos := by
    intro k v hlookup
    have hentry := entry_account key u now hinv.below .packets k
    have hpos : 0 < u.segs.toNat := by
      have hne := mt UInt32.toNat_inj.mp hsegs
      simp only [UInt32.toNat_zero] at hne
      omega
    have hold : Counter.packets.entry (w.flows.lookup k) = 0 → key = k := by
      intro hzero
      by_contra hne
      rw [Bpf.account_lookup, if_neg fun h => hne h.symm] at hlookup
      have := hinv.entryPos k v hlookup
      rw [hlookup] at hzero
      exact this (UInt64.toNat_inj.mp hzero)
    intro hzero
    rw [hlookup] at hentry
    have hsum : Counter.packets.entry (some v) = 0 := by
      simp [Counter.ofVal, hzero]
    rw [hsum] at hentry
    have hkey := hold (by omega)
    rw [if_pos hkey] at hentry
    simp only [Counter.ofUpdate] at hentry
    omega
  trackedOk := hinv.trackedOk

theorem ChurnInv.pass {w : World} (hinv : ChurnInv w) (cfg : Config) (now : UInt64)
    {walk : List (FlowKey × FlowVal)} (hwalk : IsWalk w.flows walk) :
    ChurnInv (w.pass cfg now walk) where
  below := fun k v hlookup => hinv.below k v (pass_flows_sub now hwalk hlookup)
  entryPos := fun k v hlookup => hinv.entryPos k v (pass_flows_sub now hwalk hlookup)
  trackedOk := by
    intro k l hlast
    obtain ⟨v, hlookup, rfl⟩ := pass_tracked now hwalk hlast
    have hold := pass_flows_sub now hwalk hlookup
    exact ⟨fun c => by simpa using hinv.below k v hold c, hinv.entryPos k v hold⟩

theorem evict_sub (flows : FlowTable) (key : FlowKey) (k : FlowKey) (v : FlowVal)
    (hlookup : (flows.erase key).lookup k = some v) : flows.lookup k = some v := by
  rw [Store.lookup_erase_eq] at hlookup
  split at hlookup
  · cases hlookup
  · exact hlookup

theorem purge_sub (flows : FlowTable) (ifindex : UInt32) (k : FlowKey) (v : FlowVal)
    (hlookup : (Agent.purgeIfindex ifindex (Store.pairs flows) flows).lookup k = some v) :
    flows.lookup k = some v := by
  rw [Agent.purgeIfindex_lookup ifindex fun _ _ => Store.mem_pairs.mpr] at hlookup
  split at hlookup
  · cases hlookup
  · exact hlookup

theorem packet_world (cfg : Config) (s : Churn) (key : FlowKey) (u : Bpf.FlowUpdate)
    (now : UInt64) : (s.step cfg (.packet key u now)).world =
      { s.world with flows := Bpf.account key u now s.world.flows } := by
  simp only [Churn.step]
  split <;> rfl

theorem pass_step {cfg : Config} {s : Churn} {now : UInt64}
    {replies : List (BatchReply FlowKey FlowVal)} {walk : List (FlowKey × FlowVal)}
    (hreplies : batchWalk replies = some (walk, true)) :
    s.step cfg (.pass now replies) = s.pass cfg now walk := by
  simp [Churn.step, hreplies]

theorem churnInv_step (cfg : Config) (_ : List ChurnStep) (s : Churn) (a : ChurnStep)
    (hinv : ChurnInv s.world) (hok : ChurnOk s a) : ChurnInv (s.step cfg a).world := by
  cases a with
  | packet key u now =>
      rw [packet_world]
      exact hinv.packet hok.1 hok.2
  | evict key => exact hinv.remove (evict_sub _ key)
  | purge ifindex => exact hinv.remove (purge_sub _ ifindex)
  | pass now replies =>
      obtain ⟨walk, hreplies, hwalk⟩ := hok
      rw [pass_step hreplies]
      exact hinv.pass cfg now hwalk.toIsWalk

theorem churnInv_empty : ChurnInv Churn.empty.world where
  below := balanced_empty.below
  entryPos := by
    intro k v hlookup
    simp [Churn.empty, World.empty] at hlookup
  trackedOk := by
    intro k l hlookup
    simp [Churn.empty, World.empty] at hlookup

/-! ## Sums over an incarnation -/

/-- A pass only happens when every restart shows. -/
def VisibleChurnOk (s : Churn) (a : ChurnStep) : Prop :=
  ChurnOk s a ∧
    match a with
    | .pass _ _ => RestartsVisible s
    | _ => True

/-- The deltas exported for the current incarnation of a known key add up to
the tracked counters, and nothing was exported for a fresh one. -/
structure SpentInv (s : Churn) : Prop where
  base : ChurnInv s.world
  known : ∀ k v, s.world.flows.lookup k = some v → k ∉ s.fresh →
    ∃ l, s.world.last.lookup k = some l ∧
      ∀ c : Counter, (c.ofLast l).toNat ≤ (c.ofVal v).toNat ∧ s.spent k c = (c.ofLast l).toNat
  new : ∀ k v, s.world.flows.lookup k = some v → k ∈ s.fresh → ∀ c, s.spent k c = 0

/-- After a pass the deltas of every delivered incarnation add up to its
counters, whether the flow is fresh or known, kept or expired. -/
theorem spent_pass {s : Churn} (hinv : SpentInv s) (hvisible : RestartsVisible s) (cfg : Config)
    (now : UInt64) {walk : List (FlowKey × FlowVal)} (hwalk : IsFullWalk s.world.flows walk)
    {k : FlowKey} {v : FlowVal} (hlookup : s.world.flows.lookup k = some v) (c : Counter) :
    (s.pass cfg now walk).spent k c = (c.ofVal v).toNat := by
  have hmem := hwalk.full k v hlookup
  have hbelow := hinv.base.below k v hlookup
  have hexports := (run_at_mem cfg now s.world.flows s.world.last hwalk.nodup hmem).2.2
  have hexported : exported c k (run cfg now walk s.world.flows s.world.last).exports =
      deltaSum c (record cfg now (s.world.last.lookup k) k v) := by
    rw [exported, hexports]
  simp only [Churn.pass, hexported]
  -- a fresh entry is exported whole, a known one by its growth
  by_cases hfresh : k ∈ s.fresh
  · have hown := (record_eq_own_iff cfg now (k := k) hbelow fun l hl =>
      hinv.base.trackedOk k l hl).mpr fun l hl => hvisible k v l hfresh hlookup hl
    rw [hinv.new k v hlookup hfresh c, hown]
    cases c <;> simp [deltaSum, ownRecord, Counter.ofDelta, Counter.ofVal]
  · obtain ⟨l, hlast, hl⟩ := hinv.known k v hlookup hfresh
    have hle : ∀ l' ∈ s.world.last.lookup k, (c.ofLast l').toNat ≤ (c.ofVal v).toNat := by
      intro l' hl'
      rw [hlast] at hl'
      cases hl'
      exact (hl c).1
    rw [recorded_eq cfg now c k hle (hbelow c), hlast, (hl c).2]
    have := (hl c).1
    simp only [Counter.tracked_some]
    omega

theorem SpentInv.remove {s : Churn} (hinv : SpentInv s) {flows : FlowTable}
    (hsub : ∀ k v, flows.lookup k = some v → s.world.flows.lookup k = some v) :
    SpentInv { s with world := { s.world with flows := flows } } where
  base := hinv.base.remove hsub
  known := fun k v hlookup => hinv.known k v (hsub k v hlookup)
  new := fun k v hlookup => hinv.new k v (hsub k v hlookup)

/-- A packet on an existing entry creates none. -/
theorem lookup_of_account_known {flows : FlowTable} {key : FlowKey} {u : Bpf.FlowUpdate}
    {now : UInt64} {v : FlowVal} (hlookup : flows.lookup key = some v) {k : FlowKey} {v' : FlowVal}
    (hnew : (Bpf.account key u now flows).lookup k = some v') :
    ∃ w, flows.lookup k = some w := by
  rw [Bpf.account_lookup] at hnew
  split at hnew
  · rename_i hkey
    subst hkey
    exact ⟨v, hlookup⟩
  · exact ⟨v', hnew⟩

/-- A packet on an existing entry changes neither its status nor its sum. -/
theorem SpentInv.packet_known {s : Churn} (hinv : SpentInv s) {key : FlowKey}
    {u : Bpf.FlowUpdate} {now : UInt64} {v : FlowVal} (hlookup : s.world.flows.lookup key = some v)
    (hbase : ChurnInv { s.world with flows := Bpf.account key u now s.world.flows }) :
    SpentInv { s with world := { s.world with flows := Bpf.account key u now s.world.flows } } where
  base := hbase
  known := by
    intro k v' hnew hfresh
    obtain ⟨w, hold⟩ := lookup_of_account_known hlookup hnew
    obtain ⟨l, hlast, hl⟩ := hinv.known k w hold hfresh
    refine ⟨l, hlast, fun c => ⟨?_, (hl c).2⟩⟩
    have hentry := entry_account key u now hinv.base.below c k
    rw [hnew, hold] at hentry
    simp only [Counter.entry_some] at hentry
    have hlast := (hl c).1
    omega
  new := by
    intro k v' hnew hfresh
    obtain ⟨w, hold⟩ := lookup_of_account_known hlookup hnew
    exact hinv.new k w hold hfresh

/-- A packet that creates an entry starts an incarnation with nothing spent. -/
theorem SpentInv.packet_new {s : Churn} (hinv : SpentInv s) {key : FlowKey}
    {u : Bpf.FlowUpdate} {now : UInt64}
    (hbase : ChurnInv { s.world with flows := Bpf.account key u now s.world.flows }) :
    SpentInv
      { world := { s.world with flows := Bpf.account key u now s.world.flows }
        fresh := key :: s.fresh
        spent := Function.update s.spent key fun _ => 0 } where
  base := hbase
  known := by
    intro k v hnew hfresh
    simp only [List.mem_cons, not_or] at hfresh
    rw [Bpf.account_lookup, if_neg hfresh.1] at hnew
    simpa [Function.update_of_ne hfresh.1] using hinv.known k v hnew hfresh.2
  new := by
    intro k v hnew hfresh c
    by_cases hkey : k = key
    · simp [hkey]
    · have hold : k ∈ s.fresh := (List.mem_cons.mp hfresh).resolve_left hkey
      rw [Bpf.account_lookup, if_neg hkey] at hnew
      simpa [Function.update_of_ne hkey] using hinv.new k v hnew hold c

theorem SpentInv.pass {s : Churn} (hinv : SpentInv s) (hvisible : RestartsVisible s)
    (cfg : Config) (now : UInt64) {walk : List (FlowKey × FlowVal)}
    (hwalk : IsFullWalk s.world.flows walk) : SpentInv (s.pass cfg now walk) where
  base := hinv.base.pass cfg now hwalk.toIsWalk
  known := by
    intro k v hlookup _
    have hold := pass_flows_sub now hwalk.toIsWalk hlookup
    have hmem := hwalk.full k v hold
    obtain ⟨hflows, hlast, -⟩ :=
      run_at_mem cfg now s.world.flows s.world.last hwalk.nodup hmem
    have hkept : ¬ isExpired cfg now k v = true := by
      intro hexp
      have hgone : (run cfg now walk s.world.flows s.world.last).flows.lookup k = none := by
        rw [hflows, if_pos hexp]
      have hsome : (run cfg now walk s.world.flows s.world.last).flows.lookup k = some v := hlookup
      rw [hgone] at hsome
      cases hsome
    rw [if_neg hkept] at hlast
    refine ⟨Last.of v, hlast, fun c => ?_⟩
    rw [spent_pass hinv hvisible cfg now hwalk hold c]
    simp
  new := by
    intro k v _ hfresh
    cases hfresh

theorem spentInv_empty : SpentInv Churn.empty where
  base := churnInv_empty
  known := by
    intro k v hlookup
    simp [Churn.empty, World.empty] at hlookup
  new := by
    intro k v hlookup
    simp [Churn.empty, World.empty] at hlookup

theorem spentInv_step (cfg : Config) (history : List ChurnStep) (s : Churn) (a : ChurnStep)
    (hinv : SpentInv s) (hok : VisibleChurnOk s a) : SpentInv (s.step cfg a) := by
  have hbase := churnInv_step cfg history s a hinv.base hok.1
  cases a with
  | packet key u now =>
      rw [packet_world] at hbase
      simp only [Churn.step]
      cases hlookup : s.world.flows.lookup key with
      | none => exact hinv.packet_new hbase
      | some v => exact hinv.packet_known hlookup hbase
  | evict key => exact hinv.remove (evict_sub _ key)
  | purge ifindex => exact hinv.remove (purge_sub _ ifindex)
  | pass now replies =>
      obtain ⟨⟨walk, hreplies, hwalk⟩, hvisible⟩ := hok
      rw [pass_step hreplies]
      exact hinv.pass hvisible cfg now hwalk

/-! ## Whole runs -/

/-- **Deltas of re-created flows.**  In every reachable state, whatever was
removed and re-created, the next pass exports for an entry created since the
last pass exactly its own counters if and only if the tracker has no record of
the key or both counters are below the tracked ones.  In a run whose passes
all meet that condition, the deltas exported for an incarnation add up to its
counters at every pass. -/
theorem recreated_delta_exact_iff (cfg : Config) (history : List ChurnStep) (s : Churn)
    (hrun : Run (Churn.step cfg) ChurnOk Churn.empty history s) :
    (∀ now walk, IsFullWalk s.world.flows walk →
      ∀ k v, k ∈ s.fresh → s.world.flows.lookup k = some v →
        (exportsOf k (run cfg now walk s.world.flows s.world.last).exports =
            [ownRecord cfg now k v] ↔
          ∀ l, s.world.last.lookup k = some l → Restarted l v)) ∧
      (Run (Churn.step cfg) VisibleChurnOk Churn.empty history s → RestartsVisible s →
        ∀ now walk, IsFullWalk s.world.flows walk →
          ∀ k v, s.world.flows.lookup k = some v →
            ∀ c : Counter, (s.pass cfg now walk).spent k c = (c.ofVal v).toNat) := by
  refine ⟨?_, ?_⟩
  · intro now walk hwalk k v _ hlookup
    have hinv := hrun.invariant churnInv_empty (churnInv_step cfg)
    rw [(run_at_mem cfg now s.world.flows s.world.last hwalk.nodup (hwalk.full k v hlookup)).2.2]
    exact record_eq_own_iff cfg now (hinv.below k v hlookup) fun l hl => hinv.trackedOk k l hl
  · intro hvisibleRun hvisible now walk hwalk k v hlookup c
    have hinv := hvisibleRun.invariant spentInv_empty (spentInv_step cfg)
    exact spent_pass hinv hvisible cfg now hwalk hlookup c

instance (s : Churn) (a : ChurnStep) : Decidable (ChurnOk s a) :=
  match a with
  | .packet key u now =>
      inferInstanceAs (Decidable (Below63 (Bpf.account key u now s.world.flows) ∧ u.segs ≠ 0))
  | .evict _ => isTrue trivial
  | .purge _ => isTrue trivial
  | .pass _ replies =>
      match hreplies : batchWalk replies with
      | some (walk, true) =>
          decidable_of_iff (IsFullWalk s.world.flows walk) (by simp [ChurnOk, hreplies])
      | some (walk, false) => isFalse (by simp [ChurnOk, hreplies])
      | none => isFalse (by simp [ChurnOk, hreplies])

/-- A flow is exported, removed, and comes back with `segs` packets of
`l3len` octets in all. -/
def recreateHistory (removal : ChurnStep) (segs l3len : UInt32) : List ChurnStep :=
  [.packet demoKey (demoUpdate 5 500) 1,
   .pass 2 [.last [(demoKey, ⟨5, 500, 1, 1, 0x18, 0, 0⟩)]],
   removal,
   .packet demoKey (demoUpdate segs l3len) 3]

/-- The state a concrete history of removals reaches. -/
def recreateEnd (removal : ChurnStep) (segs l3len : UInt32) : Churn :=
  (recreateHistory removal segs l3len).foldl (Churn.step demoConfig) Churn.empty

/-- **A re-created flow that has caught up is under-reported**: after an
eviction the new entry holds 8 packets and 400 octets, and the pass exports 3
packets and 400 octets for it. -/
theorem recreated_delta_wrong :
    Run (Churn.step demoConfig) ChurnOk Churn.empty
        (recreateHistory (.evict demoKey) 8 400) (recreateEnd (.evict demoKey) 8 400) ∧
      demoKey ∈ (recreateEnd (.evict demoKey) 8 400).fresh ∧
      (recreateEnd (.evict demoKey) 8 400).world.flows.lookup demoKey =
        some ⟨8, 400, 3, 3, 0x18, 0, 0⟩ ∧
      exportsOf demoKey
          (run demoConfig 4 [(demoKey, ⟨8, 400, 3, 3, 0x18, 0, 0⟩)]
            (recreateEnd (.evict demoKey) 8 400).world.flows
            (recreateEnd (.evict demoKey) 8 400).world.last).exports =
        [⟨demoKey, ⟨8, 400, 3, 3, 0x18, 0, 0⟩, false, ⟨3, 400⟩⟩] :=
  ⟨Run.of_check (by decide), by decide, by decide, by decide⟩

/-- After a purge of the device the flow comes back smaller, and its own
counters are exported. -/
theorem recreated_delta_exact_iff_demo :
    exportsOf demoKey
        (run demoConfig 4 [(demoKey, ⟨2, 100, 3, 3, 0x18, 0, 0⟩)]
          (recreateEnd (.purge 1) 2 100).world.flows
          (recreateEnd (.purge 1) 2 100).world.last).exports =
      [ownRecord demoConfig 4 demoKey ⟨2, 100, 3, 3, 0x18, 0, 0⟩] := by
  have hrun : Run (Churn.step demoConfig) ChurnOk Churn.empty
      (recreateHistory (.purge 1) 2 100) (recreateEnd (.purge 1) 2 100) :=
    Run.of_check (by decide)
  have hiff := (recreated_delta_exact_iff demoConfig _ _ hrun).1 4
    [(demoKey, ⟨2, 100, 3, 3, 0x18, 0, 0⟩)] (by decide) demoKey ⟨2, 100, 3, 3, 0x18, 0, 0⟩
    (by decide) (by decide)
  refine hiff.mpr ?_
  intro l hl c
  have hlast : (recreateEnd (.purge 1) 2 100).world.last.lookup demoKey = some ⟨5, 500, 1⟩ := by
    decide
  rw [hlast] at hl
  cases hl
  cases c <;> exact Or.inl (by decide)

end Lifecycle
end Obserwrt
