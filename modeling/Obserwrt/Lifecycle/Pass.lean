import Obserwrt.Lifecycle.Run

/-!
# What one pass does, key by key

The loop of `Lifecycle::run` drives a cursor through two parallel vectors.
`loop_eq_foldl` turns it into a left fold over the delivered entries, and the
rest of the module reads that fold off at one key: a delivered key is visited
once, with the tracker record the pass found for it, and a key that was not
delivered keeps its map entry and loses its tracker record.  Everything the
run-level modules use of a pass is `run_at_mem` and `run_at_notMem`.
-/

namespace Obserwrt
namespace Lifecycle

open Lib

/-- One iteration of the loop on a delivered entry. -/
def visitEntry (cfg : Config) (now : UInt64) (s : RunState) (e : FlowKey × FlowVal) : RunState :=
  deleteExpired cfg now e.1 e.2
    (visit cfg now e.1 e.2 { s with map := { s.map with pos := s.map.pos + 1 } })

/-- The exporter calls one visit makes. -/
def record (cfg : Config) (now : UInt64) (prev : Option Last) (key : FlowKey) (v : FlowVal) :
    List Export :=
  if isExpired cfg now key v then [⟨key, v, true, deltaSince prev v⟩]
  else if changedSince prev v then [⟨key, v, false, deltaSince prev v⟩]
  else []

/-- The exporter calls made for one key. -/
def exportsOf (key : FlowKey) (exports : List Export) : List Export :=
  exports.filter fun e => decide (e.key = key)

section Step

variable (cfg : Config) (now : UInt64) (s : RunState) (e : FlowKey × FlowVal)
  (key : FlowKey) (v : FlowVal)

@[simp] theorem visit_map : (visit cfg now key v s).map = s.map := by
  unfold visit
  split <;> rfl

theorem visit_last_lookup (k : FlowKey) :
    (visit cfg now key v s).last.lookup k =
      if k = key then (if isExpired cfg now key v then none else some (Last.of v))
      else s.last.lookup k := by
  unfold visit
  by_cases hexp : isExpired cfg now key v = true
  · by_cases hkey : k = key <;> simp [hexp, hkey, Store.lookup_erase_eq]
  · by_cases hkey : k = key <;> simp [hexp, hkey, Store.lookup_insert_eq]

theorem visit_seen : (visit cfg now key v s).seen = key :: s.seen := by
  unfold visit
  split <;> rfl

theorem visit_exports :
    (visit cfg now key v s).exports = s.exports ++ record cfg now (s.last.lookup key) key v := by
  unfold visit record
  by_cases hexp : isExpired cfg now key v = true
  · simp [hexp]
  · by_cases hchanged : changedSince (s.last.lookup key) v = true <;> simp [hexp, hchanged]

/-- The deletion touches the kernel map only. -/
theorem deleteExpired_frame :
    (deleteExpired cfg now key v s).last = s.last ∧
      (deleteExpired cfg now key v s).seen = s.seen ∧
      (deleteExpired cfg now key v s).exports = s.exports := by
  unfold deleteExpired
  split <;> exact ⟨rfl, rfl, rfl⟩

theorem visitEntry_map_keys : (visitEntry cfg now s e).map.keys = s.map.keys := by
  unfold visitEntry deleteExpired
  split <;> simp [BpfFlowMap.deleteKey]

theorem visitEntry_map_values : (visitEntry cfg now s e).map.values = s.map.values := by
  unfold visitEntry deleteExpired
  split <;> simp [BpfFlowMap.deleteKey]

theorem visitEntry_map_pos : (visitEntry cfg now s e).map.pos = s.map.pos + 1 := by
  unfold visitEntry deleteExpired
  split <;> simp [BpfFlowMap.deleteKey]

theorem visitEntry_flows_lookup (k : FlowKey) :
    (visitEntry cfg now s e).map.flows.lookup k =
      if k = e.1 ∧ isExpired cfg now e.1 e.2 then none else s.map.flows.lookup k := by
  unfold visitEntry deleteExpired
  by_cases hexp : isExpired cfg now e.1 e.2 = true
  · simp [hexp, BpfFlowMap.deleteKey, Store.lookup_erase_eq]
  · simp [hexp]

theorem visitEntry_last_lookup (k : FlowKey) :
    (visitEntry cfg now s e).last.lookup k =
      if k = e.1 then (if isExpired cfg now e.1 e.2 then none else some (Last.of e.2))
      else s.last.lookup k := by
  rw [visitEntry, (deleteExpired_frame ..).1, visit_last_lookup]

theorem visitEntry_seen : (visitEntry cfg now s e).seen = e.1 :: s.seen := by
  rw [visitEntry, (deleteExpired_frame ..).2.1, visit_seen]

theorem visitEntry_exports :
    (visitEntry cfg now s e).exports =
      s.exports ++ record cfg now (s.last.lookup e.1) e.1 e.2 := by
  rw [visitEntry, (deleteExpired_frame ..).2.2, visit_exports]

end Step

variable (cfg : Config) (now : UInt64)

theorem exportsOf_append (key : FlowKey) (xs ys : List Export) :
    exportsOf key (xs ++ ys) = exportsOf key xs ++ exportsOf key ys := by
  simp [exportsOf]

/-- A visit's records are all for the visited key. -/
theorem exportsOf_record (prev : Option Last) (key k : FlowKey) (v : FlowVal) :
    exportsOf k (record cfg now prev key v) =
      if k = key then record cfg now prev key v else [] := by
  unfold exportsOf record
  by_cases hkey : k = key
  · subst hkey
    split
    · simp
    · split <;> simp
  · have hne : key ≠ k := fun h => hkey h.symm
    rw [if_neg hkey]
    split
    · simp [hne]
    · split <;> simp [hne]

theorem record_key {prev : Option Last} {key : FlowKey} {v : FlowVal} {e : Export}
    (he : e ∈ record cfg now prev key v) : e.key = key := by
  unfold record at he
  split at he
  · rw [List.mem_singleton.mp he]
  · split at he
    · rw [List.mem_singleton.mp he]
    · cases he

/-! ## The loop is a fold over the delivered entries -/

theorem loop_eq_foldl (entries : List (FlowKey × FlowVal)) (s : RunState)
    (hkeys : s.map.keys.drop s.map.pos = entries.map Prod.fst)
    (hvalues : s.map.values.drop s.map.pos = entries.map Prod.snd) :
    loop cfg now entries.length s = entries.foldl (visitEntry cfg now) s := by
  -- the cursor stands in front of `entries` in both vectors
  induction entries generalizing s with
  | nil => rfl
  | cons e entries ih =>
      have hkey : s.map.keys[s.map.pos]? = some e.1 := by
        have hhead := congrArg (fun l => l[0]?) hkeys
        simpa using hhead
      have hvalue : s.map.values[s.map.pos]? = some e.2 := by
        have hhead := congrArg (fun l => l[0]?) hvalues
        simpa using hhead
      have hnext : s.map.nextKey = some (e.1, { s.map with pos := s.map.pos + 1 }) := by
        simp [BpfFlowMap.nextKey, hkey]
      have hget : BpfFlowMap.get { s.map with pos := s.map.pos + 1 } e.1 = some e.2 := by
        simp [BpfFlowMap.get, hkey, hvalue]
      have hkeys' : (visitEntry cfg now s e).map.keys.drop (visitEntry cfg now s e).map.pos =
          entries.map Prod.fst := by
        rw [visitEntry_map_keys, visitEntry_map_pos, ← List.tail_drop, hkeys]
        rfl
      have hvalues' : (visitEntry cfg now s e).map.values.drop (visitEntry cfg now s e).map.pos =
          entries.map Prod.snd := by
        rw [visitEntry_map_values, visitEntry_map_pos, ← List.tail_drop, hvalues]
        rfl
      rw [List.length_cons, loop, hnext]
      simp only [hget]
      exact ih (visitEntry cfg now s e) hkeys' hvalues'

/-- The loop state at the end of a pass. -/
def passEnd (cfg : Config) (now : UInt64) (walk : List (FlowKey × FlowVal))
    (flows : FlowTable) (last : Tracker) : RunState :=
  walk.foldl (visitEntry cfg now) (runStart walk flows last)

theorem loop_runStart (walk : List (FlowKey × FlowVal)) (flows : FlowTable) (last : Tracker) :
    loop cfg now walk.length (runStart walk flows last) = passEnd cfg now walk flows last :=
  loop_eq_foldl cfg now walk _ (by simp [runStart, BpfFlowMap.reset])
    (by simp [runStart, BpfFlowMap.reset])

/-! ## The fold at one key -/

section Fold

variable {entries : List (FlowKey × FlowVal)} {s : RunState} {k : FlowKey} {v : FlowVal}

theorem foldl_seen (entries : List (FlowKey × FlowVal)) (s : RunState) (k : FlowKey) :
    k ∈ (entries.foldl (visitEntry cfg now) s).seen ↔ k ∈ entries.map Prod.fst ∨ k ∈ s.seen := by
  induction entries generalizing s with
  | nil => simp
  | cons e entries ih =>
      rw [List.foldl_cons, ih, visitEntry_seen]
      simp only [List.map_cons, List.mem_cons]
      tauto

/-- Visits to other keys leave a key alone. -/
theorem foldl_at_notMem (hkey : k ∉ entries.map Prod.fst) :
    (entries.foldl (visitEntry cfg now) s).map.flows.lookup k = s.map.flows.lookup k ∧
      (entries.foldl (visitEntry cfg now) s).last.lookup k = s.last.lookup k ∧
      exportsOf k (entries.foldl (visitEntry cfg now) s).exports = exportsOf k s.exports := by
  induction entries generalizing s with
  | nil => exact ⟨rfl, rfl, rfl⟩
  | cons e entries ih =>
      simp only [List.map_cons, List.mem_cons, not_or] at hkey
      obtain ⟨hflows, hlast, hexports⟩ := ih (s := visitEntry cfg now s e) hkey.2
      rw [List.foldl_cons]
      refine ⟨?_, ?_, ?_⟩
      · rw [hflows, visitEntry_flows_lookup, if_neg fun h => hkey.1 h.1]
      · rw [hlast, visitEntry_last_lookup, if_neg hkey.1]
      · rw [hexports, visitEntry_exports, exportsOf_append, exportsOf_record, if_neg hkey.1,
          List.append_nil]

/-- A delivered key is visited exactly once, with the tracker record the pass
started with. -/
theorem foldl_at_mem (hnodup : (entries.map Prod.fst).Nodup) (hmem : (k, v) ∈ entries) :
    (entries.foldl (visitEntry cfg now) s).map.flows.lookup k =
        (if isExpired cfg now k v then none else s.map.flows.lookup k) ∧
      (entries.foldl (visitEntry cfg now) s).last.lookup k =
        (if isExpired cfg now k v then none else some (Last.of v)) ∧
      exportsOf k (entries.foldl (visitEntry cfg now) s).exports =
        exportsOf k s.exports ++ record cfg now (s.last.lookup k) k v := by
  induction entries generalizing s with
  | nil => cases hmem
  | cons e entries ih =>
      rw [List.map_cons, List.nodup_cons] at hnodup
      rw [List.foldl_cons]
      rcases List.mem_cons.mp hmem with heq | htail
      · -- the key is visited here, and by distinctness never again
        subst heq
        obtain ⟨hflows, hlast, hexports⟩ :=
          foldl_at_notMem cfg now (s := visitEntry cfg now s (k, v)) hnodup.1
        refine ⟨?_, ?_, ?_⟩
        · rw [hflows, visitEntry_flows_lookup]
          simp
        · rw [hlast, visitEntry_last_lookup, if_pos rfl]
        · rw [hexports, visitEntry_exports, exportsOf_append, exportsOf_record, if_pos rfl]
      · have hne : k ≠ e.1 := by
          rintro rfl
          exact hnodup.1 (List.mem_map.mpr ⟨_, htail, rfl⟩)
        obtain ⟨hflows, hlast, hexports⟩ := ih (s := visitEntry cfg now s e) hnodup.2 htail
        have hsame : (visitEntry cfg now s e).map.flows.lookup k = s.map.flows.lookup k := by
          rw [visitEntry_flows_lookup, if_neg fun h => hne h.1]
        refine ⟨?_, hlast, ?_⟩
        · rw [hflows, hsame]
        · rw [hexports, visitEntry_exports, exportsOf_append, exportsOf_record, if_neg hne,
            List.append_nil, visitEntry_last_lookup, if_neg hne]

end Fold

/-! ## The pass at one key -/

section Pass

variable (flows : FlowTable) (last : Tracker) {walk : List (FlowKey × FlowVal)}
  {k : FlowKey} {v : FlowVal}

theorem prune_lookup (s : RunState) (k : FlowKey) :
    (prune s).lookup k = if k ∈ s.seen then s.last.lookup k else none := by
  unfold prune
  rw [Store.lookup_eraseAll]
  by_cases hseen : k ∈ s.seen
  · simp [hseen]
  · by_cases hkeys : k ∈ s.last.keys
    · simp [hseen, hkeys]
    · have hnone : s.last.lookup k = none := AList.lookup_eq_none.mpr hkeys
      simp [hnone]

/-- **A pass at a delivered key.**  The flow is exported as `record` says and
leaves the map and the tracker exactly when it expired. -/
theorem run_at_mem (hnodup : (walk.map Prod.fst).Nodup) (hmem : (k, v) ∈ walk) :
    (run cfg now walk flows last).flows.lookup k =
        (if isExpired cfg now k v then none else flows.lookup k) ∧
      (run cfg now walk flows last).last.lookup k =
        (if isExpired cfg now k v then none else some (Last.of v)) ∧
      exportsOf k (run cfg now walk flows last).exports =
        record cfg now (last.lookup k) k v := by
  obtain ⟨hflows, hlast, hexports⟩ :=
    foldl_at_mem cfg now (s := runStart walk flows last) hnodup hmem
  have hseen : k ∈ (passEnd cfg now walk flows last).seen :=
    (foldl_seen cfg now walk _ k).mpr (Or.inl (List.mem_map.mpr ⟨_, hmem, rfl⟩))
  simp only [run, loop_runStart, prune_lookup, if_pos hseen]
  exact ⟨hflows, hlast, hexports⟩

/-- **A pass at a key the walk did not deliver.**  Its map entry stays, nothing
is exported for it, and its tracker record is dropped. -/
theorem run_at_notMem (hkey : k ∉ walk.map Prod.fst) :
    (run cfg now walk flows last).flows.lookup k = flows.lookup k ∧
      (run cfg now walk flows last).last.lookup k = none ∧
      exportsOf k (run cfg now walk flows last).exports = [] := by
  obtain ⟨hflows, _, hexports⟩ :=
    foldl_at_notMem cfg now (s := runStart walk flows last) hkey
  have hseen : k ∉ (passEnd cfg now walk flows last).seen := by
    intro hmem
    rcases (foldl_seen cfg now walk _ k).mp hmem with hwalk | hnil
    · exact hkey hwalk
    · cases hnil
  simp only [run, loop_runStart, prune_lookup, if_neg hseen]
  exact ⟨hflows, trivial, hexports⟩

end Pass

end Lifecycle
end Obserwrt
