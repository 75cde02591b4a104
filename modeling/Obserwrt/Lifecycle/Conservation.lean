import Obserwrt.Lib.Run
import Obserwrt.Lifecycle.Counters

/-!
# Delta conservation over whole runs

The state is the flow map, the tracker and everything the exporters were told
so far.  Packets are accounted between passes and a pass walks the map.  The
invariant `Balanced` ties the three together: for each counter and key, what
was exported plus what is still pending in the map is what was observed.

`balanced_pass` needs of a walk only that it delivers current entries, each
key once, and that it delivers every tracked key: a walk that misses a tracked
key makes the pruning forget counters that are still in the map.  A complete
walk always delivers them, because tracked keys are in the map.
-/

namespace Obserwrt
namespace Lifecycle

open Lib

/-- The flow map, the tracker and the exporter calls made so far. -/
structure World where
  flows : FlowTable
  last : Tracker
  log : List Export

/-- The state before the first packet. -/
def World.empty : World := ⟨∅, ∅, []⟩

/-- What can happen: a packet is accounted, or a pass runs at `now` over a
walk with the given kernel replies. -/
inductive Step
  | packet (key : FlowKey) (u : Bpf.FlowUpdate) (now : UInt64)
  | pass (now : UInt64) (replies : List (BatchReply FlowKey FlowVal))

/-- A pass over a walk that delivered `walk`. -/
def World.pass (cfg : Config) (w : World) (now : UInt64) (walk : List (FlowKey × FlowVal)) :
    World :=
  let result := run cfg now walk w.flows w.last
  ⟨result.flows, result.last, w.log ++ result.exports⟩

/-- One step.  A walk that has not ended leaves the state alone. -/
def World.step (cfg : Config) (w : World) : Step → World
  | .packet key u now => { w with flows := Bpf.account key u now w.flows }
  | .pass now replies =>
      match batchWalk replies with
      | none => w
      | some (walk, _) => w.pass cfg now walk

/-- What one step adds to the observed total of a key. -/
def observedStep (c : Counter) (k : FlowKey) : Step → Nat
  | .packet key u _ => if key = k then (c.ofUpdate u).toNat else 0
  | .pass _ _ => 0

/-- The total observed for a key over a history. -/
def observed (c : Counter) (k : FlowKey) (history : List Step) : Nat :=
  (history.map (observedStep c k)).sum

theorem observed_concat (c : Counter) (k : FlowKey) (history : List Step) (a : Step) :
    observed c k (history ++ [a]) = observed c k history + observedStep c k a := by
  simp [observed]

/-- The part of the current map counter that was not exported yet: the counter
minus the tracked one, the whole counter when the key is untracked. -/
def pending (c : Counter) (w : World) (k : FlowKey) : Nat :=
  c.entry (w.flows.lookup k) - c.tracked (w.last.lookup k)

/-- A walk reports current entries, each key once. -/
structure IsWalk (flows : FlowTable) (walk : List (FlowKey × FlowVal)) : Prop where
  nodup : (walk.map Prod.fst).Nodup
  current : ∀ k v, (k, v) ∈ walk → flows.lookup k = some v

/-- A complete walk reports every entry. -/
structure IsFullWalk (flows : FlowTable) (walk : List (FlowKey × FlowVal)) : Prop
    extends IsWalk flows walk where
  full : ∀ k v, flows.lookup k = some v → (k, v) ∈ walk

instance (flows : FlowTable) (walk : List (FlowKey × FlowVal)) : Decidable (IsWalk flows walk) :=
  decidable_of_iff ((walk.map Prod.fst).Nodup ∧ ∀ e ∈ walk, flows.lookup e.1 = some e.2)
    ⟨fun h => ⟨h.1, fun k v hmem => h.2 (k, v) hmem⟩,
      fun h => ⟨h.1, fun e hmem => h.2 e.1 e.2 hmem⟩⟩

instance (flows : FlowTable) (walk : List (FlowKey × FlowVal)) :
    Decidable (IsFullWalk flows walk) :=
  decidable_of_iff (IsWalk flows walk ∧ ∀ e ∈ Store.pairs flows, e ∈ walk)
    ⟨fun h => ⟨h.1, fun _ _ hlookup => h.2 _ (Store.mem_pairs.mpr hlookup)⟩,
      fun h => ⟨h.1, fun _ hmem => h.2 _ _ (Store.mem_pairs.mp hmem)⟩⟩

/-- Any order of the entries is a complete walk. -/
theorem IsFullWalk.of_perm {flows : FlowTable} {walk : List (FlowKey × FlowVal)}
    (hperm : walk.Perm (Store.pairs flows)) : IsFullWalk flows walk where
  nodup := ((hperm.map Prod.fst).nodup_iff).mpr (Store.pairs_keys_nodup flows)
  current := fun _ _ hmem => Store.mem_pairs.mp (hperm.mem_iff.mp hmem)
  full := fun _ _ hlookup => hperm.mem_iff.mpr (Store.mem_pairs.mpr hlookup)

/-! ## The invariant -/

/-- Counters are in range, and tracked keys are in the map with counters at
least the tracked ones. -/
structure TrackerOk (w : World) : Prop where
  below : Below63 w.flows
  tracked : ∀ k l, w.last.lookup k = some l →
    ∃ v, w.flows.lookup k = some v ∧ ∀ c : Counter, (c.ofLast l).toNat ≤ (c.ofVal v).toNat

theorem TrackerOk.tracked_le {w : World} (hok : TrackerOk w) (c : Counter) (k : FlowKey) :
    c.tracked (w.last.lookup k) ≤ c.entry (w.flows.lookup k) := by
  cases hlast : w.last.lookup k with
  | none => simp
  | some l =>
      obtain ⟨v, hlookup, hle⟩ := hok.tracked k l hlast
      simpa [hlookup] using hle c

theorem trackerOk_empty : TrackerOk World.empty where
  below := by
    intro k v hlookup
    simp [World.empty] at hlookup
  tracked := by
    intro k l hlookup
    simp [World.empty] at hlookup

/-- Exported plus pending is observed. -/
structure Balanced (history : List Step) (w : World) : Prop extends TrackerOk w where
  balance : ∀ c k, exported c k w.log + pending c w k = observed c k history

theorem balanced_empty : Balanced [] World.empty where
  toTrackerOk := trackerOk_empty
  balance := by
    intro c k
    simp [World.empty, exported, exportsOf, pending, observed]

section Packet

variable (key : FlowKey) (u : Bpf.FlowUpdate) (now : UInt64) {flows : FlowTable}

/-- Below `2 ^ 63` a packet adds its counters without wrapping. -/
theorem entry_account (hbelow : Below63 flows) (c : Counter) (k : FlowKey) :
    c.entry ((Bpf.account key u now flows).lookup k) =
      c.entry (flows.lookup k) + (if key = k then (c.ofUpdate u).toNat else 0) := by
  rw [Bpf.account_lookup]
  by_cases hkey : k = key
  · subst hkey
    cases hlookup : flows.lookup k with
    | none => simp
    | some v =>
        have hv := hbelow k v hlookup c
        have hu := (c.ofUpdate u).toNat_lt
        simp only [if_pos, Option.elim_some, Counter.entry_some, Counter.ofVal_apply,
          UInt64.toNat_add, UInt32.toNat_toUInt64]
        omega
  · have hne : key ≠ k := fun h => hkey h.symm
    simp [hkey, hne]

/-- Tracked counters stay below the map's when a packet adds to the map. -/
theorem trackerOk_packet {w : World} (hok : TrackerOk w)
    (hbelow : Below63 (Bpf.account key u now w.flows)) :
    TrackerOk { w with flows := Bpf.account key u now w.flows } where
  below := hbelow
  tracked := by
    intro k l hlast
    obtain ⟨v, hlookup, hle⟩ := hok.tracked k l hlast
    cases hnew : (Bpf.account key u now w.flows).lookup k with
    | none =>
        rw [Bpf.account_lookup] at hnew
        split at hnew
        · cases hnew
        · rw [hlookup] at hnew
          cases hnew
    | some v' =>
        refine ⟨v', rfl, fun c => ?_⟩
        have hentry := entry_account key u now hok.below c k
        rw [hnew, hlookup] at hentry
        simp only [Counter.entry_some] at hentry
        have := hle c
        omega

/-- A packet adds its counters to what is pending for its key. -/
theorem pending_packet {w : World} (hok : TrackerOk w) (c : Counter) (k : FlowKey) :
    pending c { w with flows := Bpf.account key u now w.flows } k =
      pending c w k + (if key = k then (c.ofUpdate u).toNat else 0) := by
  have hentry := entry_account key u now hok.below c k
  have hle := hok.tracked_le c k
  simp only [pending, hentry]
  omega

theorem balanced_packet {cfg : Config} {history : List Step} {w : World}
    (hinv : Balanced history w) (hbelow : Below63 (Bpf.account key u now w.flows)) :
    Balanced (history ++ [.packet key u now]) (w.step cfg (.packet key u now)) where
  toTrackerOk := trackerOk_packet key u now hinv.toTrackerOk hbelow
  balance := by
    intro c k
    have hpending := pending_packet key u now hinv.toTrackerOk c k
    rw [observed_concat, ← hinv.balance c k, Nat.add_assoc]
    exact congrArg (exported c k w.log + ·) hpending

end Packet

section Pass

variable {cfg : Config} {history : List Step} {w : World} {walk : List (FlowKey × FlowVal)}

theorem mem_walk_cases (walk : List (FlowKey × FlowVal)) (k : FlowKey) :
    (∃ v, (k, v) ∈ walk) ∨ k ∉ walk.map Prod.fst := by
  by_cases hkey : k ∈ walk.map Prod.fst
  · obtain ⟨e, hmem, rfl⟩ := List.mem_map.mp hkey
    exact Or.inl ⟨e.2, hmem⟩
  · exact Or.inr hkey

/-- A pass only removes entries from the map. -/
theorem pass_flows_sub (now : UInt64) (hwalk : IsWalk w.flows walk) {k : FlowKey} {v : FlowVal}
    (hlookup : (w.pass cfg now walk).flows.lookup k = some v) : w.flows.lookup k = some v := by
  rcases mem_walk_cases walk k with ⟨v', hmem⟩ | hkey
  · have hflows := (run_at_mem cfg now w.flows w.last hwalk.nodup hmem).1
    simp only [World.pass, hflows] at hlookup
    split at hlookup
    · cases hlookup
    · exact hlookup
  · have hflows := (run_at_notMem cfg now w.flows w.last hkey).1
    simpa only [World.pass, hflows] using hlookup

/-- What a pass tracks is in the map with the tracked counters. -/
theorem pass_tracked (now : UInt64) (hwalk : IsWalk w.flows walk) {k : FlowKey} {l : Last}
    (hlast : (w.pass cfg now walk).last.lookup k = some l) :
    ∃ v, (w.pass cfg now walk).flows.lookup k = some v ∧ l = Last.of v := by
  rcases mem_walk_cases walk k with ⟨v, hmem⟩ | hkey
  · obtain ⟨hflows, hrec, -⟩ :=
      run_at_mem cfg now w.flows w.last hwalk.nodup hmem
    simp only [World.pass, hrec] at hlast
    split at hlast
    · cases hlast
    · rename_i hexp
      refine ⟨v, ?_, (Option.some.inj hlast).symm⟩
      simp only [World.pass, hflows, if_neg hexp]
      exact hwalk.current k v hmem
  · have hrec := (run_at_notMem cfg now w.flows w.last hkey).2.1
    simp only [World.pass, hrec] at hlast
    cases hlast

theorem trackerOk_pass (now : UInt64) (hok : TrackerOk w) (hwalk : IsWalk w.flows walk) :
    TrackerOk (w.pass cfg now walk) where
  below := fun k v hlookup => hok.below k v (pass_flows_sub now hwalk hlookup)
  tracked := by
    intro k l hlast
    obtain ⟨v, hlookup, rfl⟩ := pass_tracked now hwalk hlast
    exact ⟨v, hlookup, fun c => by simp⟩

/-- **A pass conserves** exported plus pending when its walk delivers every
tracked key. -/
theorem pass_conserves (now : UInt64) (hok : TrackerOk w) (hwalk : IsWalk w.flows walk)
    (htracked : ∀ k l, w.last.lookup k = some l → k ∈ walk.map Prod.fst)
    (c : Counter) (k : FlowKey) :
    exported c k (w.pass cfg now walk).log + pending c (w.pass cfg now walk) k =
      exported c k w.log + pending c w k := by
  rcases mem_walk_cases walk k with ⟨v, hmem⟩ | hkey
  · -- delivered: the visit exports the pending part, and nothing is pending after it
    obtain ⟨hflows, hrec, hexports⟩ := run_at_mem cfg now w.flows w.last hwalk.nodup hmem
    have hlookup := hwalk.current k v hmem
    have hle : ∀ l ∈ w.last.lookup k, (c.ofLast l).toNat ≤ (c.ofVal v).toNat := by
      intro l hl
      obtain ⟨v', hlookup', hle⟩ := hok.tracked k l hl
      rw [hlookup] at hlookup'
      cases hlookup'
      exact hle c
    have hnew : exported c k (run cfg now walk w.flows w.last).exports =
        (c.ofVal v).toNat - c.tracked (w.last.lookup k) := by
      rw [exported, hexports, recorded_eq cfg now c k hle (hok.below k v hlookup c)]
    have hpending : pending c (w.pass cfg now walk) k = 0 := by
      simp only [pending, World.pass, hflows, hrec, hlookup]
      split <;> simp
    rw [hpending]
    simp only [World.pass, exported_append, hnew]
    simp [pending, hlookup]
  · -- not delivered: the key is untracked, so the pruning forgets nothing
    obtain ⟨hflows, hrec, hexports⟩ := run_at_notMem cfg now w.flows w.last hkey
    have hnone : w.last.lookup k = none := by
      cases hlast : w.last.lookup k with
      | none => rfl
      | some l => exact absurd (htracked k l hlast) hkey
    have hnew : exported c k (run cfg now walk w.flows w.last).exports = 0 := by
      rw [exported, hexports, deltaSum_nil]
    simp only [pending, World.pass, exported_append, hflows, hrec, hnew]
    simp [hnone]

theorem balanced_pass (now : UInt64) (hinv : Balanced history w) (hwalk : IsWalk w.flows walk)
    (htracked : ∀ k l, w.last.lookup k = some l → k ∈ walk.map Prod.fst) :
    Balanced history (w.pass cfg now walk) where
  toTrackerOk := trackerOk_pass now hinv.toTrackerOk hwalk
  balance := fun c k =>
    (pass_conserves now hinv.toTrackerOk hwalk htracked c k).trans (hinv.balance c k)

/-- Right after a complete walk nothing is pending. -/
theorem pending_pass_full (now : UInt64) (hwalk : IsFullWalk w.flows walk) (c : Counter)
    (k : FlowKey) : pending c (w.pass cfg now walk) k = 0 := by
  rcases mem_walk_cases walk k with ⟨v, hmem⟩ | hkey
  · obtain ⟨hflows, hrec, -⟩ := run_at_mem cfg now w.flows w.last hwalk.nodup hmem
    have hlookup := hwalk.current k v hmem
    simp only [pending, World.pass, hflows, hrec, hlookup]
    split <;> simp
  · have hflows := (run_at_notMem cfg now w.flows w.last hkey).1
    have hnone : w.flows.lookup k = none := by
      cases hlookup : w.flows.lookup k with
      | none => rfl
      | some v => exact absurd (List.mem_map.mpr ⟨_, hwalk.full k v hlookup, rfl⟩) hkey
    simp [pending, World.pass, hflows, hnone]

/-- A complete walk delivers every tracked key. -/
theorem tracked_mem_full (hinv : TrackerOk w) (hwalk : IsFullWalk w.flows walk)
    {k : FlowKey} {l : Last} (hlast : w.last.lookup k = some l) : k ∈ walk.map Prod.fst := by
  obtain ⟨v, hlookup, -⟩ := hinv.tracked k l hlast
  exact List.mem_map.mpr ⟨_, hwalk.full k v hlookup, rfl⟩

theorem balanced_concat_pass {now : UInt64} {replies : List (BatchReply FlowKey FlowVal)}
    {w' : World} (hinv : Balanced history w') :
    Balanced (history ++ [.pass now replies]) w' where
  toTrackerOk := hinv.toTrackerOk
  balance := by
    intro c k
    rw [observed_concat, hinv.balance c k]
    rfl

end Pass

/-! ## Whole runs -/

/-- The environment of the conservation statement: counters stay below
`2 ^ 63`, and every pass walks the whole map, in any order. -/
def QuietStep (w : World) : Step → Prop
  | .packet key u now => Below63 (Bpf.account key u now w.flows)
  | .pass _ replies => ∃ walk, batchWalk replies = some (walk, true) ∧
      walk.Perm (Store.pairs w.flows)

instance (w : World) (a : Step) : Decidable (QuietStep w a) :=
  match a with
  | .packet key u now => inferInstanceAs (Decidable (Below63 (Bpf.account key u now w.flows)))
  | .pass _ replies =>
      match hreplies : batchWalk replies with
      | some (walk, true) =>
          decidable_of_iff (walk.Perm (Store.pairs w.flows)) (by simp [QuietStep, hreplies])
      | some (walk, false) => isFalse (by simp [QuietStep, hreplies])
      | none => isFalse (by simp [QuietStep, hreplies])

theorem balanced_step (cfg : Config) (history : List Step) (w : World) (a : Step)
    (hinv : Balanced history w) (hok : QuietStep w a) :
    Balanced (history ++ [a]) (w.step cfg a) := by
  cases a with
  | packet key u now => exact balanced_packet key u now hinv hok
  | pass now replies =>
      obtain ⟨walk, hreplies, hperm⟩ := hok
      have hwalk := IsFullWalk.of_perm hperm
      have hpass : w.step cfg (.pass now replies) = w.pass cfg now walk := by
        simp [World.step, hreplies]
      rw [hpass]
      exact balanced_concat_pass
        (balanced_pass now hinv hwalk.toIsWalk fun k l => tracked_mem_full hinv.toTrackerOk hwalk)

/-- **Delta conservation.**  In every run of packets and complete passes, for
every counter and every flow key, the deltas exported so far plus the part of
the map counter not exported yet are the total observed.  The tracked counter
never exceeds the map's, so the subtraction in `pending` is exact. -/
theorem run_deltas_conserved (cfg : Config) (history : List Step) (w : World)
    (hrun : Run (World.step cfg) QuietStep World.empty history w) (c : Counter) (k : FlowKey) :
    c.tracked (w.last.lookup k) ≤ c.entry (w.flows.lookup k) ∧
      exported c k w.log + pending c w k = observed c k history := by
  have hinv := hrun.invariant balanced_empty (balanced_step cfg)
  exact ⟨hinv.tracked_le c k, hinv.balance c k⟩

/-- A TCP flow on device 1, for concrete runs. -/
def demoKey : FlowKey where
  ifindex := 1
  direction := 0
  family := 4
  protocol := 6
  reserved := 0
  src := ⟨List.replicate 10 0 ++ [255, 255, 192, 0, 2, 1], rfl⟩
  dst := ⟨List.replicate 10 0 ++ [255, 255, 198, 51, 100, 2], rfl⟩
  sport := 12345
  dport := 443
  icmpType := 0
  icmpCode := 0

/-- A packet of `segs` segments and `l3len` octets. -/
def demoUpdate (segs l3len : UInt32) : Bpf.FlowUpdate :=
  ⟨segs, l3len, 0x18, 0, 0⟩

/-- The default timeouts with the exact age test. -/
def demoConfig : Config := ⟨{}, exactAge⟩

/-- Export, growth, expiry with a pending delta, and re-creation. -/
def demoHistory : List Step :=
  [.packet demoKey (demoUpdate 5 500) 1,
   .pass 2 [.last [(demoKey, ⟨5, 500, 1, 1, 0x18, 0, 0⟩)]],
   .packet demoKey (demoUpdate 3 300) 3,
   .pass 400000000000 [.noSpace, .last [(demoKey, ⟨8, 800, 1, 3, 0x18, 0, 0⟩)]],
   .packet demoKey (demoUpdate 7 700) 400000000001]

/-- The state the concrete run reaches. -/
def demoEnd : World := demoHistory.foldl (World.step demoConfig) World.empty

theorem run_deltas_conserved_demo :
    exported .packets demoKey demoEnd.log + pending .packets demoEnd demoKey = 15 ∧
      exported .packets demoKey demoEnd.log = 8 := by
  have hrun : Run (World.step demoConfig) QuietStep World.empty demoHistory demoEnd :=
    Run.of_check (by decide)
  exact ⟨(run_deltas_conserved demoConfig demoHistory demoEnd hrun .packets demoKey).2, by decide⟩

end Lifecycle
end Obserwrt
