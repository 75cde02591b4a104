import Obserwrt.Lifecycle.Conservation

/-!
# Passes whose walk fails

`BpfFlowMap::reset` ignores the result of the walk, so a pass over a walk that
failed partway visits only what was delivered, and the pruning at its end
drops the tracker record of every flow it did not see, although those flows
are still in the map.  The next pass that delivers such a flow takes it for a
new one and exports its whole counters again.

The accounting is exact in every run in which each walk, failed or not,
delivers the flows that are tracked: a walk may break off, but only behind the
last tracked flow.
-/

namespace Obserwrt
namespace Lifecycle

open Lib

/-- What the kernel promises of a walk without traffic: what is delivered are
current entries, each key once, and all of them when the walk succeeds. -/
def WalkReplies (flows : FlowTable) (replies : List (BatchReply FlowKey FlowVal)) : Prop :=
  ∃ walk ok, batchWalk replies = some (walk, ok) ∧ IsWalk flows walk ∧
    (ok = true → IsFullWalk flows walk)

/-- Any pass may fail after any number of batches. -/
def WalkStep (w : World) : Step → Prop
  | .packet _ _ _ => True
  | .pass _ replies => WalkReplies w.flows replies

/-- The walk delivers every tracked key. -/
def DeliversTracked (w : World) (replies : List (BatchReply FlowKey FlowVal)) : Prop :=
  ∀ walk ok, batchWalk replies = some (walk, ok) →
    ∀ k l, w.last.lookup k = some l → k ∈ walk.map Prod.fst

/-- Counters stay below `2 ^ 63` and walks deliver the tracked keys. -/
def TrackedWalkStep (w : World) : Step → Prop
  | .packet key u now => Below63 (Bpf.account key u now w.flows)
  | .pass _ replies => WalkReplies w.flows replies ∧ DeliversTracked w replies

theorem balanced_trackedWalkStep (cfg : Config) (history : List Step) (w : World) (a : Step)
    (hinv : Balanced history w) (hok : TrackedWalkStep w a) :
    Balanced (history ++ [a]) (w.step cfg a) := by
  cases a with
  | packet key u now => exact balanced_packet key u now hinv hok
  | pass now replies =>
      obtain ⟨⟨walk, ok, hreplies, hwalk, -⟩, htracked⟩ := hok
      have hpass : w.step cfg (.pass now replies) = w.pass cfg now walk := by
        simp [World.step, hreplies]
      rw [hpass]
      exact balanced_concat_pass (balanced_pass now hinv hwalk (htracked walk ok hreplies))

/-- **No double counting while walks deliver the tracked flows.**  In every
state of such a run the deltas exported for a key never exceed what was
observed for it, and a pass that walks the map completely leaves them equal. -/
theorem run_deltas_conserved_of_tracked_walks (cfg : Config) (history : List Step) (w : World)
    (hrun : Run (World.step cfg) TrackedWalkStep World.empty history w)
    (c : Counter) (k : FlowKey) :
    exported c k w.log ≤ observed c k history ∧
      ∀ now replies walk, batchWalk replies = some (walk, true) → IsFullWalk w.flows walk →
        exported c k (w.step cfg (.pass now replies)).log =
          observed c k (history ++ [.pass now replies]) := by
  have hinv := hrun.invariant balanced_empty (balanced_trackedWalkStep cfg)
  refine ⟨?_, ?_⟩
  · have hbal := hinv.balance c k
    omega
  · intro now replies walk hreplies hwalk
    have hpass : w.step cfg (.pass now replies) = w.pass cfg now walk := by
      simp [World.step, hreplies]
    have hnext : Balanced history (w.pass cfg now walk) :=
      balanced_pass now hinv hwalk.toIsWalk fun k l => tracked_mem_full hinv.toTrackerOk hwalk
    have hbal := hnext.balance c k
    rw [pending_pass_full now hwalk c k] at hbal
    rw [hpass, observed_concat]
    simpa [observedStep] using hbal

/-! ## Concrete runs -/

instance (flows : FlowTable) (replies : List (BatchReply FlowKey FlowVal)) :
    Decidable (WalkReplies flows replies) :=
  match hreplies : batchWalk replies with
  | some (walk, ok) =>
      decidable_of_iff (IsWalk flows walk ∧ (ok = true → IsFullWalk flows walk)) (by
        constructor
        · intro h
          exact ⟨walk, ok, hreplies, h⟩
        · rintro ⟨walk', ok', hwalk, h⟩
          rw [hreplies] at hwalk
          cases hwalk
          exact h)
  | none => isFalse (by simp [WalkReplies, hreplies])

instance (w : World) (a : Step) : Decidable (WalkStep w a) :=
  match a with
  | .packet _ _ _ => isTrue trivial
  | .pass _ replies => inferInstanceAs (Decidable (WalkReplies w.flows replies))

instance (w : World) (replies : List (BatchReply FlowKey FlowVal)) :
    Decidable (DeliversTracked w replies) :=
  match hreplies : batchWalk replies with
  | some (walk, _) =>
      decidable_of_iff (∀ e ∈ Store.pairs w.last, e.1 ∈ walk.map Prod.fst) (by
        constructor
        · intro h walk' ok' hwalk k l hlast
          rw [hreplies] at hwalk
          cases hwalk
          exact h (k, l) (Store.mem_pairs.mpr hlast)
        · intro h e hmem
          exact h walk _ hreplies e.1 e.2 (Store.mem_pairs.mp hmem))
  | none => isTrue (by
      intro walk ok hwalk
      rw [hreplies] at hwalk
      cases hwalk)

instance (w : World) (a : Step) : Decidable (TrackedWalkStep w a) :=
  match a with
  | .packet key u now => inferInstanceAs (Decidable (Below63 (Bpf.account key u now w.flows)))
  | .pass _ replies =>
      inferInstanceAs (Decidable (WalkReplies w.flows replies ∧ DeliversTracked w replies))

/-- A flow is exported, a walk fails before its first batch, and the next walk
is complete. -/
def failedWalkHistory : List Step :=
  [.packet demoKey (demoUpdate 5 500) 1,
   .pass 2 [.last [(demoKey, ⟨5, 500, 1, 1, 0x18, 0, 0⟩)]],
   .pass 3 [.error],
   .pass 4 [.last [(demoKey, ⟨5, 500, 1, 1, 0x18, 0, 0⟩)]]]

/-- **A failed walk causes double counting**: five packets were observed and
ten were exported. -/
theorem failed_walk_counts_twice :
    ∃ w, Run (World.step demoConfig) WalkStep World.empty failedWalkHistory w ∧
      observed .packets demoKey failedWalkHistory < exported .packets demoKey w.log :=
  ⟨failedWalkHistory.foldl (World.step demoConfig) World.empty, Run.of_check (by decide),
    by decide⟩

/-- A second flow, met after the first. -/
def demoKey2 : FlowKey := { demoKey with sport := 12346 }

/-- The failed walk delivers the tracked flow and misses a new one. -/
def lateFailureHistory : List Step :=
  [.packet demoKey (demoUpdate 5 500) 1,
   .pass 2 [.last [(demoKey, ⟨5, 500, 1, 1, 0x18, 0, 0⟩)]],
   .packet demoKey2 (demoUpdate 2 200) 3,
   .pass 3 [.more [(demoKey, ⟨5, 500, 1, 1, 0x18, 0, 0⟩)], .error]]

theorem run_deltas_conserved_of_tracked_walks_demo :
    exported .packets demoKey
        (lateFailureHistory.foldl (World.step demoConfig) World.empty).log ≤
      observed .packets demoKey lateFailureHistory := by
  have hrun : Run (World.step demoConfig) TrackedWalkStep World.empty lateFailureHistory
      (lateFailureHistory.foldl (World.step demoConfig) World.empty) := Run.of_check (by decide)
  exact (run_deltas_conserved_of_tracked_walks demoConfig _ _ hrun .packets demoKey).1

end Lifecycle
end Obserwrt
