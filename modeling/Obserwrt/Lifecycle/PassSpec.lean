import Mathlib.Data.List.Nodup
import Obserwrt.Lifecycle.Conservation

/-!
# One pass as a function of the delivered set

`Pass` reads a pass off at one key.  Here the same pass is described as a
whole: its exporter calls are a `flatMap` over the delivered entries, its
statistics are counts over them, and with the exact age test the expired flows
are those idle for longer than their protocol's timeout.  None of this mentions
the order of the walk, so reordering the walk changes nothing but the order of
the exporter calls.
-/

namespace Obserwrt
namespace Lifecycle

open Lib

/-- A flow whose last packet is more than its protocol's timeout before `now`. -/
def Overdue (t : Timeouts) (now : UInt64) (key : FlowKey) (v : FlowVal) : Prop :=
  v.lastSeen < now ∧
    (protoTimeout t key.protocol).toNat * 10 ^ 9 < now.toNat - v.lastSeen.toNat

/-- A flow the tracker does not know, or knows with other values. -/
def Unreported (last : Tracker) (key : FlowKey) (v : FlowVal) : Prop :=
  ∀ l, last.lookup key = some l →
    v.packets ≠ l.packets ∨ v.bytes ≠ l.bytes ∨ v.lastSeen ≠ l.lastSeen

/-- With the exact age test, a visit expires exactly the overdue flows. -/
theorem isExpired_exactAge (t : Timeouts) (now : UInt64) (key : FlowKey) (v : FlowVal) :
    isExpired ⟨t, exactAge⟩ now key v = true ↔ Overdue t now key v := by
  show exactAge (ageNs now v) (protoTimeout t key.protocol) = true ↔ Overdue t now key v
  unfold exactAge ageNs Overdue
  rw [decide_eq_true_iff, UInt64.lt_iff_toNat_lt]
  by_cases hle : v.lastSeen ≤ now
  · rw [if_pos hle, UInt64.toNat_sub_of_le _ _ hle]
    omega
  · rw [if_neg hle]
    have hlt : now.toNat < v.lastSeen.toNat := by
      rw [UInt64.le_iff_toNat_le] at hle
      omega
    simp only [UInt64.toNat_zero]
    omega

theorem changedSince_iff (last : Tracker) (key : FlowKey) (v : FlowVal) :
    changedSince (last.lookup key) v = true ↔ Unreported last key v := by
  unfold Unreported
  cases hlookup : last.lookup key with
  | none => simp [changedSince]
  | some l =>
      simp only [changedSince, Bool.or_eq_true, bne_iff_ne, Option.some.injEq, forall_eq']
      tauto

theorem mem_record_exactAge (t : Timeouts) (now : UInt64) (last : Tracker) (k : FlowKey)
    (v : FlowVal) (x : Export) :
    x ∈ record ⟨t, exactAge⟩ now (last.lookup k) k v ↔
      (Overdue t now k v ∧ x = ⟨k, v, true, deltaSince (last.lookup k) v⟩) ∨
        (¬ Overdue t now k v ∧ Unreported last k v ∧
          x = ⟨k, v, false, deltaSince (last.lookup k) v⟩) := by
  unfold record
  by_cases hdue : Overdue t now k v
  · simp [hdue, (isExpired_exactAge t now k v).mpr hdue]
  · have hexp : isExpired ⟨t, exactAge⟩ now k v = false :=
      Bool.eq_false_iff.mpr (mt (isExpired_exactAge t now k v).mp hdue)
    rw [← changedSince_iff]
    by_cases hnew : changedSince (last.lookup k) v = true <;> simp [hdue, hexp, hnew]

/-! ## The loop as a flatMap and as counts -/

section Fold

variable (cfg : Config) (now : UInt64)

/-- Visits add one record list each, computed from the tracker as it was before
the loop: no two visits are to one key. -/
theorem foldl_exports {entries : List (FlowKey × FlowVal)} (s : RunState)
    (hnodup : (entries.map Prod.fst).Nodup) :
    (entries.foldl (visitEntry cfg now) s).exports =
      s.exports ++ entries.flatMap fun e => record cfg now (s.last.lookup e.1) e.1 e.2 := by
  induction entries generalizing s with
  | nil => simp
  | cons e entries ih =>
      rw [List.map_cons, List.nodup_cons] at hnodup
      have hsame : ∀ e' ∈ entries,
          record cfg now ((visitEntry cfg now s e).last.lookup e'.1) e'.1 e'.2 =
            record cfg now (s.last.lookup e'.1) e'.1 e'.2 := by
        intro e' he'
        have hne : e'.1 ≠ e.1 := by
          intro heq
          exact hnodup.1 (heq ▸ List.mem_map_of_mem he')
        rw [visitEntry_last_lookup, if_neg hne]
      rw [List.foldl_cons, ih _ hnodup.2, visitEntry_exports, List.flatMap_congr hsame,
        List.flatMap_cons, List.append_assoc]

theorem visitEntry_stats (s : RunState) (e : FlowKey × FlowVal) :
    (visitEntry cfg now s e).stats =
      if isExpired cfg now e.1 e.2 then
        ⟨s.stats.active, s.stats.expired + 1, s.stats.map + 1⟩
      else ⟨s.stats.active + 1, s.stats.expired, s.stats.map + 1⟩ := by
  unfold visitEntry deleteExpired visit
  by_cases hexp : isExpired cfg now e.1 e.2 = true <;> simp [hexp]

theorem foldl_stats (entries : List (FlowKey × FlowVal)) (s : RunState) :
    (entries.foldl (visitEntry cfg now) s).stats =
      ⟨s.stats.active + entries.countP fun e => !isExpired cfg now e.1 e.2,
        s.stats.expired + entries.countP fun e => isExpired cfg now e.1 e.2,
        s.stats.map + entries.length⟩ := by
  induction entries generalizing s with
  | nil => simp
  | cons e entries ih =>
      rw [List.foldl_cons, ih, visitEntry_stats]
      by_cases hexp : isExpired cfg now e.1 e.2 = true
      · simp only [hexp, if_true, List.countP_cons, List.length_cons, Stats.mk.injEq]
        simp
        omega
      · simp only [hexp, List.countP_cons, List.length_cons, Stats.mk.injEq]
        simp
        omega

end Fold

/-! ## The pass -/

section Pass

variable (cfg : Config) (now : UInt64) (flows : FlowTable) (last : Tracker)
  {walk : List (FlowKey × FlowVal)}

theorem run_exports (hnodup : (walk.map Prod.fst).Nodup) :
    (run cfg now walk flows last).exports =
      walk.flatMap fun e => record cfg now (last.lookup e.1) e.1 e.2 := by
  simp only [run, loop_runStart, passEnd, foldl_exports cfg now _ hnodup]
  rfl

theorem run_stats (walk : List (FlowKey × FlowVal)) :
    (run cfg now walk flows last).stats =
      ⟨walk.countP fun e => !isExpired cfg now e.1 e.2,
        walk.countP fun e => isExpired cfg now e.1 e.2, walk.length⟩ := by
  simp only [run, loop_runStart, passEnd, foldl_stats]
  simp [runStart]

/-- A visit calls the exporter at most once, for its own key. -/
theorem record_keys (prev : Option Last) (key : FlowKey) (v : FlowVal) :
    (record cfg now prev key v).map Export.key = [] ∨
      (record cfg now prev key v).map Export.key = [key] := by
  unfold record
  split
  · exact Or.inr rfl
  · split
    · exact Or.inr rfl
    · exact Or.inl rfl

/-- No key is exported twice in one pass. -/
theorem run_exports_keys_nodup (hnodup : (walk.map Prod.fst).Nodup) :
    ((run cfg now walk flows last).exports.map Export.key).Nodup := by
  rw [run_exports cfg now flows last hnodup, List.map_flatMap]
  -- the exported keys are a sublist of the delivered keys
  have hsub : ∀ entries : List (FlowKey × FlowVal),
      (entries.flatMap fun e =>
        (record cfg now (last.lookup e.1) e.1 e.2).map Export.key).Sublist
        (entries.map Prod.fst) := by
    intro entries
    induction entries with
    | nil => exact List.Sublist.refl _
    | cons e entries ih =>
        rw [List.flatMap_cons, List.map_cons]
        rcases record_keys cfg now (last.lookup e.1) e.1 e.2 with hnone | hone
        · rw [hnone]
          exact ih.cons _
        · rw [hone]
          exact ih.cons_cons _
  exact (hsub walk).nodup hnodup

/-- The map after a pass: expired deliveries are gone, the rest is as it was. -/
theorem run_flows_lookup (hnodup : (walk.map Prod.fst).Nodup) (k : FlowKey) :
    (run cfg now walk flows last).flows.lookup k =
      if walk.any fun e => decide (e.1 = k) && isExpired cfg now e.1 e.2 then none
      else flows.lookup k := by
  by_cases hkey : k ∈ walk.map Prod.fst
  · obtain ⟨⟨k', v⟩, hmem, rfl⟩ := List.mem_map.mp hkey
    rw [(run_at_mem cfg now flows last hnodup hmem).1]
    by_cases hexp : isExpired cfg now k' v = true
    · have hany : (walk.any fun e => decide (e.1 = k') && isExpired cfg now e.1 e.2) = true :=
        List.any_eq_true.mpr ⟨_, hmem, by simp [hexp]⟩
      simp only [hexp, hany]
    · have hany : (walk.any fun e => decide (e.1 = k') && isExpired cfg now e.1 e.2) = false := by
        rw [List.any_eq_false]
        rintro ⟨k'', v'⟩ hmem' hboth
        simp only [Bool.and_eq_true, decide_eq_true_eq] at hboth
        obtain ⟨rfl, hexp'⟩ := hboth
        -- the walk delivers each key with one value
        have hval : v' = v := congrArg Prod.snd
          (List.inj_on_of_nodup_map hnodup hmem' hmem rfl)
        exact hexp (hval ▸ hexp')
      simp [hexp, hany]
  · have hany : (walk.any fun e => decide (e.1 = k) && isExpired cfg now e.1 e.2) = false := by
      rw [List.any_eq_false]
      rintro e hmem hboth
      simp only [Bool.and_eq_true, decide_eq_true_eq] at hboth
      exact hkey (hboth.1 ▸ List.mem_map_of_mem hmem)
    rw [(run_at_notMem cfg now flows last hkey).1, hany]
    rfl

/-- The tracker after a pass: the deliveries that did not expire, with the
values just read. -/
theorem run_last_lookup_iff (hnodup : (walk.map Prod.fst).Nodup) (k : FlowKey) (l : Last) :
    (run cfg now walk flows last).last.lookup k = some l ↔
      ∃ v, (k, v) ∈ walk ∧ ¬ isExpired cfg now k v = true ∧ l = Last.of v := by
  by_cases hkey : k ∈ walk.map Prod.fst
  · obtain ⟨⟨k', v⟩, hmem, rfl⟩ := List.mem_map.mp hkey
    rw [(run_at_mem cfg now flows last hnodup hmem).2.1]
    constructor
    · intro hsome
      by_cases hexp : isExpired cfg now k' v = true
      · simp [hexp] at hsome
      · rw [if_neg hexp] at hsome
        exact ⟨v, hmem, hexp, (Option.some.inj hsome).symm⟩
    · rintro ⟨v', hmem', hexp, rfl⟩
      have hval : v' = v := congrArg Prod.snd
        (List.inj_on_of_nodup_map hnodup hmem' hmem rfl)
      subst hval
      simp [hexp]
  · rw [(run_at_notMem cfg now flows last hkey).2.1]
    constructor
    · intro hnone
      cases hnone
    · rintro ⟨v, hmem, -, -⟩
      exact (hkey (List.mem_map_of_mem hmem)).elim

/-- Reordering the walk reorders the exporter calls and changes nothing else. -/
theorem run_perm {walk' : List (FlowKey × FlowVal)} (hperm : walk'.Perm walk)
    (hnodup : (walk.map Prod.fst).Nodup) :
    (run cfg now walk' flows last).exports.Perm (run cfg now walk flows last).exports ∧
      (∀ k, (run cfg now walk' flows last).flows.lookup k =
        (run cfg now walk flows last).flows.lookup k) ∧
      (∀ k, (run cfg now walk' flows last).last.lookup k =
        (run cfg now walk flows last).last.lookup k) ∧
      (run cfg now walk' flows last).stats = (run cfg now walk flows last).stats := by
  have hnodup' : (walk'.map Prod.fst).Nodup := (hperm.map Prod.fst).nodup_iff.mpr hnodup
  refine ⟨?_, ?_, ?_, ?_⟩
  · rw [run_exports cfg now flows last hnodup, run_exports cfg now flows last hnodup']
    exact hperm.flatMap_right _
  · intro k
    rw [run_flows_lookup cfg now flows last hnodup, run_flows_lookup cfg now flows last hnodup',
      hperm.any_eq]
  · intro k
    apply Option.ext
    intro l
    rw [run_last_lookup_iff cfg now flows last hnodup,
      run_last_lookup_iff cfg now flows last hnodup']
    simp only [hperm.mem_iff]
  · rw [run_stats, run_stats, hperm.countP_eq, hperm.countP_eq, hperm.length_eq]

end Pass

/-- **What one pass does, whatever the order of the walk.**  The records are
the overdue flows with `expired` set and the remaining unreported flows
without it, at most one a key; exactly the overdue flows leave the map; the
tracker holds the flows read and not expired with the values just read; and
the statistics add up to the number of keys. -/
theorem run_spec (t : Timeouts) (now : UInt64) (flows : FlowTable) (last : Tracker)
    (walk : List (FlowKey × FlowVal)) (hnodup : (walk.map Prod.fst).Nodup) :
    let r := run ⟨t, exactAge⟩ now walk flows last
    (∀ x, x ∈ r.exports ↔ ∃ k v, (k, v) ∈ walk ∧
      ((Overdue t now k v ∧ x = ⟨k, v, true, deltaSince (last.lookup k) v⟩) ∨
        (¬ Overdue t now k v ∧ Unreported last k v ∧
          x = ⟨k, v, false, deltaSince (last.lookup k) v⟩))) ∧
      (r.exports.map Export.key).Nodup ∧
      (∀ k v, (k, v) ∈ walk → Overdue t now k v → r.flows.lookup k = none) ∧
      (∀ k, (∀ v, (k, v) ∈ walk → ¬ Overdue t now k v) →
        r.flows.lookup k = flows.lookup k) ∧
      (∀ k l, r.last.lookup k = some l ↔
        ∃ v, (k, v) ∈ walk ∧ ¬ Overdue t now k v ∧ l = ⟨v.packets, v.bytes, v.lastSeen⟩) ∧
      (r.stats.active + r.stats.expired = r.stats.map ∧ r.stats.map = walk.length) ∧
      ∀ walk' : List (FlowKey × FlowVal), walk'.Perm walk →
        (run ⟨t, exactAge⟩ now walk' flows last).exports.Perm r.exports ∧
        (∀ k, (run ⟨t, exactAge⟩ now walk' flows last).flows.lookup k = r.flows.lookup k) ∧
        (∀ k, (run ⟨t, exactAge⟩ now walk' flows last).last.lookup k = r.last.lookup k) ∧
        (run ⟨t, exactAge⟩ now walk' flows last).stats = r.stats := by
  intro r
  refine ⟨?_, ?_, ?_, ?_, ?_, ?_, ?_⟩
  · intro x
    rw [run_exports _ now flows last hnodup, List.mem_flatMap]
    constructor
    · rintro ⟨⟨k, v⟩, hmem, hx⟩
      refine ⟨k, v, hmem, ?_⟩
      rwa [mem_record_exactAge] at hx
    · rintro ⟨k, v, hmem, hx⟩
      exact ⟨(k, v), hmem, (mem_record_exactAge t now last k v x).mpr hx⟩
  · exact run_exports_keys_nodup _ now flows last hnodup
  · intro k v hmem hdue
    rw [(run_at_mem _ now flows last hnodup hmem).1,
      if_pos ((isExpired_exactAge t now k v).mpr hdue)]
  · intro k hstay
    by_cases hkey : k ∈ walk.map Prod.fst
    · obtain ⟨⟨k', v⟩, hmem, rfl⟩ := List.mem_map.mp hkey
      rw [(run_at_mem _ now flows last hnodup hmem).1,
        if_neg fun hexp => hstay v hmem ((isExpired_exactAge t now k' v).mp hexp)]
    · exact (run_at_notMem _ now flows last hkey).1
  · intro k l
    rw [run_last_lookup_iff _ now flows last hnodup]
    simp only [isExpired_exactAge, Last.of]
  · rw [run_stats]
    refine ⟨?_, rfl⟩
    have hsplit := List.length_eq_countP_add_countP
      (fun e : FlowKey × FlowVal => isExpired ⟨t, exactAge⟩ now e.1 e.2) (l := walk)
    simp only [Bool.not_eq_true, Bool.decide_eq_false] at hsplit
    rw [hsplit]
    exact Nat.add_comm _ _
  · intro walk' hperm
    exact run_perm _ now flows last hperm hnodup

/-- A UDP flow idle for over a minute beside a TCP flow still in its time. -/
def demoWalk : List (FlowKey × FlowVal) :=
  [({ demoKey with protocol := 17 }, ⟨2, 200, 1, 1, 0, 0, 0⟩),
   (demoKey, ⟨5, 500, 1, 1, 0x18, 0, 0⟩)]

theorem run_spec_demo :
    (⟨{ demoKey with protocol := 17 }, ⟨2, 200, 1, 1, 0, 0, 0⟩, true, ⟨2, 200⟩⟩ : Export) ∈
        (run ⟨{}, exactAge⟩ 61000000000 demoWalk ∅ ∅).exports ∧
      (run ⟨{}, exactAge⟩ 61000000000 demoWalk ∅ ∅).last.lookup demoKey = some ⟨5, 500, 1⟩ := by
  have hspec := run_spec {} 61000000000 ∅ ∅ demoWalk (by decide)
  refine ⟨(hspec.1 _).mpr ⟨_, _, List.mem_cons_self, Or.inl ⟨?_, rfl⟩⟩,
    (hspec.2.2.2.2.1 _ _).mpr ⟨_, List.mem_cons_of_mem _ List.mem_cons_self, ?_, rfl⟩⟩
  · unfold Overdue
    decide
  · unfold Overdue
    decide

end Lifecycle
end Obserwrt
