import Obserwrt.Lifecycle.Conservation

/-!
# Passes that race with traffic

`Lifecycle::run` reads the map once, at `map.reset()`, and deletes from it
later, key by key.  Here a pass is the sequence of its own operations, and
packets are accounted between any two of them: `snapshot` is the batched walk,
and `advance` is one operation of the loop, that is a visit, the deletion that
follows the visit of an expired key, or the pruning at the end.

What is visited is the snapshot value.  A packet that arrives behind the
snapshot stays in the map and is exported by a later pass, unless the snapshot
found its flow expired: then the deletion takes the packet with it.  Such a
key is `Doomed` from the snapshot to its deletion, and `RaceInv` is the
balance kept by every interleaving that accounts nothing to a doomed key.
-/

namespace Obserwrt
namespace Lifecycle

open Lib

/-- Where the agent stands in its pass: outside, in the loop, or right before
the `delete_key` of a flow it has just exported as expired. -/
inductive Phase
  | idle
  | walking (now : UInt64)
  | deleting (now : UInt64) (key : FlowKey)
  deriving DecidableEq

/-- The pass under way, with the exporter calls of the passes before it. -/
structure Race where
  log : List Export
  run : RunState
  phase : Phase

namespace Race

/-- The state before the first packet. -/
def empty : Race := ⟨[], runStart [] ∅ ∅, .idle⟩

/-- Every exporter call made so far. -/
def told (s : Race) : List Export :=
  s.log ++ s.run.exports

/-- The map, the tracker and the exporter calls, without the pass. -/
def world (s : Race) : World :=
  ⟨s.run.map.flows, s.run.last, s.told⟩

/-- One packet is accounted in the live map. -/
def packet (s : Race) (key : FlowKey) (u : Bpf.FlowUpdate) (now : UInt64) : Race :=
  { s with run := { s.run with map := { s.run.map with
      flows := Bpf.account key u now s.run.map.flows } } }

/-- `map.reset()` at the start of a pass. -/
def snapshot (s : Race) (now : UInt64) (walk : List (FlowKey × FlowVal)) : Race where
  log := s.told
  run := runStart walk s.run.map.flows s.run.last
  phase := .walking now

/-- One operation of the pass under way. -/
def advance (cfg : Config) (s : Race) : Race :=
  match s.phase with
  | .idle => s
  | .deleting now key =>
      { s with run := { s.run with map := s.run.map.deleteKey key }, phase := .walking now }
  | .walking now =>
      match s.run.map.nextKey with
      | none => { s with run := { s.run with last := prune s.run }, phase := .idle }
      | some (key, map) =>
          match map.get key with
          | none => { s with run := { s.run with map := map } }
          | some v =>
              { s with
                run := visit cfg now key v { s.run with map := map }
                phase := if isExpired cfg now key v then .deleting now key else .walking now }

/-- The part of the snapshot the loop has not visited yet. -/
def remaining (s : Race) : List (FlowKey × FlowVal) :=
  (s.run.map.keys.zip s.run.map.values).drop s.run.map.pos

/-- The pass under way will still delete this key: it was exported as expired
just now, or its snapshot value is expired. -/
def Doomed (cfg : Config) (s : Race) (key : FlowKey) : Prop :=
  match s.phase with
  | .idle => False
  | .walking now => ∃ e ∈ s.remaining, e.1 = key ∧ isExpired cfg now e.1 e.2 = true
  | .deleting now gone =>
      key = gone ∨ ∃ e ∈ s.remaining, e.1 = key ∧ isExpired cfg now e.1 e.2 = true

instance (cfg : Config) (s : Race) (key : FlowKey) : Decidable (s.Doomed cfg key) := by
  unfold Doomed
  split <;> infer_instance

end Race

/-- What can happen at any point of a pass. -/
inductive RaceStep
  | packet (key : FlowKey) (u : Bpf.FlowUpdate) (now : UInt64)
  | snapshot (now : UInt64) (replies : List (BatchReply FlowKey FlowVal))
  | advance

/-- One step of the interleaving. -/
def Race.step (cfg : Config) (s : Race) : RaceStep → Race
  | .packet key u now => s.packet key u now
  | .snapshot now replies =>
      match batchWalk replies with
      | none => s
      | some (walk, _) => s.snapshot now walk
  | .advance => s.advance cfg

/-- What one step accounts to a key. -/
def accountedStep (c : Counter) (k : FlowKey) : RaceStep → Nat
  | .packet key u _ => if key = k then (c.ofUpdate u).toNat else 0
  | .snapshot _ _ => 0
  | .advance => 0

/-- The total accounted to a key over a history. -/
def accounted (c : Counter) (k : FlowKey) (history : List RaceStep) : Nat :=
  (history.map (accountedStep c k)).sum

theorem accounted_concat (c : Counter) (k : FlowKey) (history : List RaceStep) (a : RaceStep) :
    accounted c k (history ++ [a]) = accounted c k history + accountedStep c k a := by
  simp [accounted]

/-- Every interleaving: counters stay below `2 ^ 63`, and a pass starts when
no other is under way, with a walk of the whole map in any order. -/
def RaceOk (s : Race) : RaceStep → Prop
  | .packet key u now => Below63 (Bpf.account key u now s.run.map.flows)
  | .snapshot _ replies => s.phase = .idle ∧ ∃ walk, batchWalk replies = some (walk, true) ∧
      walk.Perm (Store.pairs s.run.map.flows)
  | .advance => True

/-- No packet is accounted to a key the pass under way will still delete. -/
def SparesDoomed (cfg : Config) (s : Race) : RaceStep → Prop
  | .packet key _ _ => ¬ s.Doomed cfg key
  | .snapshot _ _ => True
  | .advance => True

/-! ## One operation of the pass -/

section Advance

variable (cfg : Config) {s : Race} {now : UInt64}

/-- The loop visits the head of what remains, with its snapshot value. -/
theorem nextKey_get_of_remaining {k : FlowKey} {v : FlowVal}
    {entries : List (FlowKey × FlowVal)} (hremaining : s.remaining = (k, v) :: entries) :
    s.run.map.nextKey = some (k, { s.run.map with pos := s.run.map.pos + 1 }) ∧
      BpfFlowMap.get { s.run.map with pos := s.run.map.pos + 1 } k = some v := by
  have hhead : (s.run.map.keys.zip s.run.map.values)[s.run.map.pos]? = some (k, v) := by
    have := congrArg (fun l => l[0]?) hremaining
    simpa [Race.remaining] using this
  obtain ⟨hkey, hvalue⟩ := List.getElem?_zip_eq_some.mp hhead
  refine ⟨?_, ?_⟩
  · simp [BpfFlowMap.nextKey, hkey]
  · simp [BpfFlowMap.get, hkey, hvalue]

theorem nextKey_none_of_remaining (haligned : s.run.map.keys.length = s.run.map.values.length)
    (hremaining : s.remaining = []) : s.run.map.nextKey = none := by
  have hpos : s.run.map.keys.length ≤ s.run.map.pos := by
    have := List.drop_eq_nil_iff.mp hremaining
    simp only [List.length_zip] at this
    omega
  simp [BpfFlowMap.nextKey, List.getElem?_eq_none hpos]

theorem advance_idle (hphase : s.phase = .idle) : s.advance cfg = s := by
  unfold Race.advance
  rw [hphase]

theorem advance_deleting {key : FlowKey} (hphase : s.phase = .deleting now key) :
    s.advance cfg =
      { s with run := { s.run with map := s.run.map.deleteKey key }, phase := .walking now } := by
  unfold Race.advance
  rw [hphase]

theorem advance_end (haligned : s.run.map.keys.length = s.run.map.values.length)
    (hphase : s.phase = .walking now) (hremaining : s.remaining = []) :
    s.advance cfg = { s with run := { s.run with last := prune s.run }, phase := .idle } := by
  unfold Race.advance
  simp only [hphase, nextKey_none_of_remaining haligned hremaining]

/-- The visit of the head of what remains. -/
theorem advance_visit {k : FlowKey} {v : FlowVal} {entries : List (FlowKey × FlowVal)}
    (hphase : s.phase = .walking now) (hremaining : s.remaining = (k, v) :: entries) :
    s.advance cfg =
      { s with
        run := visit cfg now k v
          { s.run with map := { s.run.map with pos := s.run.map.pos + 1 } }
        phase := if isExpired cfg now k v then .deleting now k else .walking now } := by
  obtain ⟨hnext, hget⟩ := nextKey_get_of_remaining hremaining
  unfold Race.advance
  simp only [hphase, hnext, hget]

end Advance

/-! ## The balance of an interleaving -/

/-- The part of the map counter no exporter call covers.  A key about to be
deleted was just exported in full. -/
def racePending (c : Counter) (s : Race) (k : FlowKey) : Nat :=
  match s.phase with
  | .deleting _ gone => if k = gone then 0 else pending c s.world k
  | _ => pending c s.world k

/-- What every state of an interleaving satisfies.  `ahead` compares a
snapshot value with the live one and the tracked one on either side of it;
`doomed` says that the live value of a key that will be deleted is the one
that will be exported; `kept` is why the pruning forgets nothing. -/
structure RaceInv (cfg : Config) (history : List RaceStep) (s : Race) : Prop where
  tracker : TrackerOk s.world
  aligned : s.run.map.keys.length = s.run.map.values.length
  nodup : (s.remaining.map Prod.fst).Nodup
  ahead : ∀ k v, (k, v) ∈ s.remaining → ∃ v', s.run.map.flows.lookup k = some v' ∧
    ∀ c : Counter, (c.ofVal v).toNat ≤ (c.ofVal v').toNat ∧
      ∀ l, s.run.last.lookup k = some l → (c.ofLast l).toNat ≤ (c.ofVal v).toNat
  doomed : ∀ now, (s.phase = .walking now ∨ ∃ gone, s.phase = .deleting now gone) →
    ∀ k v, (k, v) ∈ s.remaining → isExpired cfg now k v = true →
      s.run.map.flows.lookup k = some v
  kept : s.phase ≠ .idle → ∀ k l, s.run.last.lookup k = some l →
    k ∈ s.run.seen ∨ k ∈ s.remaining.map Prod.fst
  gone : ∀ now key, s.phase = .deleting now key →
    s.run.last.lookup key = none ∧ key ∉ s.remaining.map Prod.fst
  balance : ∀ c k, exported c k s.told + racePending c s k = accounted c k history

theorem raceInv_empty (cfg : Config) : RaceInv cfg [] Race.empty where
  tracker := trackerOk_empty
  aligned := rfl
  nodup := List.nodup_nil
  ahead := by
    intro k v hmem
    cases hmem
  doomed := by
    intro now hphase k v hmem
    cases hmem
  kept := by
    intro hphase
    exact absurd rfl hphase
  gone := by
    intro now key hphase
    cases hphase
  balance := by
    intro c k
    rfl

section Steps

variable {cfg : Config} {history : List RaceStep} {s : Race}

/-- An expired entry the pass has still to visit is doomed. -/
theorem doomed_of_remaining {now : UInt64} {k : FlowKey} {v : FlowVal}
    (hphase : s.phase = .walking now ∨ ∃ gone, s.phase = .deleting now gone)
    (hmem : (k, v) ∈ s.remaining) (hexp : isExpired cfg now k v = true) : s.Doomed cfg k := by
  rcases hphase with hphase | ⟨gone, hphase⟩
  · simp only [Race.Doomed, hphase]
    exact ⟨(k, v), hmem, rfl, hexp⟩
  · simp only [Race.Doomed, hphase]
    exact Or.inr ⟨(k, v), hmem, rfl, hexp⟩

theorem racePending_packet (key : FlowKey) (u : Bpf.FlowUpdate) (now : UInt64)
    (hok : TrackerOk s.world) (hspared : ¬ s.Doomed cfg key) (c : Counter) (k : FlowKey) :
    racePending c (s.packet key u now) k =
      racePending c s k + (if key = k then (c.ofUpdate u).toNat else 0) := by
  have hpending : pending c (s.packet key u now).world k =
      pending c s.world k + (if key = k then (c.ofUpdate u).toNat else 0) :=
    pending_packet key u now hok c k
  have hsame : (s.packet key u now).phase = s.phase := rfl
  cases hphase : s.phase with
  | idle => simpa only [racePending, hsame, hphase] using hpending
  | walking now' => simpa only [racePending, hsame, hphase] using hpending
  | deleting now' gone =>
      -- the packet is not for the key about to go
      have hne : key ≠ gone := by
        rintro rfl
        apply hspared
        simp [Race.Doomed, hphase]
      simp only [racePending, hsame, hphase]
      by_cases hk : k = gone
      · subst hk
        simp [hne]
      · simpa only [if_neg hk] using hpending

/-- A packet only adds to the live value of an entry that was read. -/
theorem ahead_account (key : FlowKey) (u : Bpf.FlowUpdate) (now : UInt64) {flows : FlowTable}
    (hbelow : Below63 flows) {last : Tracker} {k : FlowKey} {v : FlowVal}
    (hahead : ∃ v', flows.lookup k = some v' ∧
      ∀ c : Counter, (c.ofVal v).toNat ≤ (c.ofVal v').toNat ∧
        ∀ l, last.lookup k = some l → (c.ofLast l).toNat ≤ (c.ofVal v).toNat) :
    ∃ v', (Bpf.account key u now flows).lookup k = some v' ∧
      ∀ c : Counter, (c.ofVal v).toNat ≤ (c.ofVal v').toNat ∧
        ∀ l, last.lookup k = some l → (c.ofLast l).toNat ≤ (c.ofVal v).toNat := by
  obtain ⟨v', hlookup, hle⟩ := hahead
  obtain ⟨v'', hnew⟩ : ∃ v'', (Bpf.account key u now flows).lookup k = some v'' := by
    rw [Bpf.account_lookup]
    split
    · exact ⟨_, rfl⟩
    · exact ⟨v', hlookup⟩
  refine ⟨v'', hnew, fun c => ⟨?_, (hle c).2⟩⟩
  have hc := entry_account key u now hbelow c k
  simp only [hnew, hlookup, Counter.entry_some] at hc
  have := (hle c).1
  omega

theorem raceInv_packet (key : FlowKey) (u : Bpf.FlowUpdate) (now : UInt64)
    (hinv : RaceInv cfg history s) (hbelow : Below63 (Bpf.account key u now s.run.map.flows))
    (hspared : ¬ s.Doomed cfg key) :
    RaceInv cfg (history ++ [.packet key u now]) (s.packet key u now) where
  tracker := trackerOk_packet key u now hinv.tracker hbelow
  aligned := hinv.aligned
  nodup := hinv.nodup
  ahead := fun k v hmem => ahead_account key u now hinv.tracker.below (hinv.ahead k v hmem)
  doomed := by
    intro now' hphase k v hmem hexp
    have hne : k ≠ key := by
      rintro rfl
      exact hspared (doomed_of_remaining hphase hmem hexp)
    have hlookup := hinv.doomed now' hphase k v hmem hexp
    simp only [Race.packet, Bpf.account_lookup, if_neg hne]
    exact hlookup
  kept := hinv.kept
  gone := hinv.gone
  balance := by
    intro c k
    have htold : (s.packet key u now).told = s.told := rfl
    rw [accounted_concat, htold, racePending_packet key u now hinv.tracker hspared c k,
      ← Nat.add_assoc, hinv.balance c k]
    rfl

theorem remaining_snapshot (now : UInt64) (walk : List (FlowKey × FlowVal)) :
    (s.snapshot now walk).remaining = walk := by
  have hzip : (walk.map Prod.fst).zip (walk.map Prod.snd) = walk := by
    simpa using List.zip_unzip walk
  simpa [Race.remaining, Race.snapshot, runStart, BpfFlowMap.reset] using hzip

/-- What was read of the map, a while ago or just now: each key once, with counters
between the tracked ones and the live ones, and with the live value where the
pass will delete the entry. -/
structure ReadOk (cfg : Config) (now : UInt64) (flows : FlowTable) (last : Tracker)
    (entries : List (FlowKey × FlowVal)) : Prop where
  nodup : (entries.map Prod.fst).Nodup
  ahead : ∀ k v, (k, v) ∈ entries → ∃ v', flows.lookup k = some v' ∧
    ∀ c : Counter, (c.ofVal v).toNat ≤ (c.ofVal v').toNat ∧
      ∀ l, last.lookup k = some l → (c.ofLast l).toNat ≤ (c.ofVal v).toNat
  doomed : ∀ k v, (k, v) ∈ entries → isExpired cfg now k v = true → flows.lookup k = some v

/-- Current entries are between the tracked ones and the live ones. -/
theorem readOk_of_current {now : UInt64} {w : World} {entries : List (FlowKey × FlowVal)}
    (hok : TrackerOk w) (hnodup : (entries.map Prod.fst).Nodup)
    (hcurrent : ∀ e ∈ entries, w.flows.lookup e.1 = some e.2) :
    ReadOk cfg now w.flows w.last entries where
  nodup := hnodup
  ahead := by
    intro k v hmem
    have hlookup := hcurrent (k, v) hmem
    refine ⟨v, hlookup, fun c => ⟨le_rfl, fun l hlast => ?_⟩⟩
    obtain ⟨v', hlookup', hle⟩ := hok.tracked k l hlast
    cases hlookup.symm.trans hlookup'
    exact hle c
  doomed := fun k v hmem _ => hcurrent (k, v) hmem

/-- A packet for no entry that will be deleted. -/
theorem ReadOk.packet {now t : UInt64} {flows : FlowTable} {last : Tracker}
    {entries : List (FlowKey × FlowVal)} (h : ReadOk cfg now flows last entries)
    (hbelow : Below63 flows) (key : FlowKey) (u : Bpf.FlowUpdate)
    (hspared : ¬∃ e ∈ entries, e.1 = key ∧ isExpired cfg now e.1 e.2 = true) :
    ReadOk cfg now (Bpf.account key u t flows) last entries where
  nodup := h.nodup
  ahead := fun k v hmem => ahead_account key u t hbelow (h.ahead k v hmem)
  doomed := by
    intro k v hmem hexp
    have hne : k ≠ key := fun hk => hspared ⟨(k, v), hmem, hk, hexp⟩
    rw [Bpf.account_lookup, if_neg hne]
    exact h.doomed k v hmem hexp

/-- The loop begins with what was read, which holds every tracked key. -/
theorem raceInv_reset (now : UInt64) {walk : List (FlowKey × FlowVal)}
    (hinv : RaceInv cfg history s) (hphase : s.phase = .idle)
    (hread : ReadOk cfg now s.run.map.flows s.run.last walk)
    (hkept : ∀ k l, s.run.last.lookup k = some l → k ∈ walk.map Prod.fst) :
    RaceInv cfg history (s.snapshot now walk) := by
  have hworld : (s.snapshot now walk).world = s.world := by
    simp [Race.world, Race.snapshot, runStart, BpfFlowMap.reset, Race.told]
  refine ⟨?_, ?_, ?_, ?_, ?_, ?_, ?_, ?_⟩
  · rw [hworld]
    exact hinv.tracker
  · simp [Race.snapshot, runStart, BpfFlowMap.reset]
  · rw [remaining_snapshot]
    exact hread.nodup
  · intro k v hmem
    rw [remaining_snapshot] at hmem
    exact hread.ahead k v hmem
  · intro now' hnow k v hmem hexp
    rw [remaining_snapshot] at hmem
    obtain rfl : now = now' := by
      rcases hnow with hnow | ⟨_, hnow⟩
      · exact Phase.walking.inj hnow
      · cases hnow
    exact hread.doomed k v hmem hexp
  · intro _ k l hlast
    rw [remaining_snapshot]
    exact Or.inr (hkept k l hlast)
  · intro now' key hdeleting
    cases hdeleting
  · intro c k
    have hbal := hinv.balance c k
    simp only [racePending, hphase] at hbal
    have htold : (s.snapshot now walk).told = s.told := by
      simp [Race.told, Race.snapshot, runStart]
    rw [htold, ← hbal]
    show _ + pending c (s.snapshot now walk).world k = _
    rw [hworld]

theorem raceInv_snapshot (now : UInt64) {walk : List (FlowKey × FlowVal)}
    (hinv : RaceInv cfg history s) (hphase : s.phase = .idle)
    (hwalk : IsFullWalk s.run.map.flows walk) :
    RaceInv cfg history (s.snapshot now walk) :=
  -- tracked keys are in the map, so a full snapshot holds them
  raceInv_reset now hinv hphase
    (readOk_of_current hinv.tracker hwalk.nodup fun e he => hwalk.current e.1 e.2 he)
    fun _ _ hlast => tracked_mem_full hinv.tracker hwalk hlast

/-- Which of the exporter calls are those of the pass under way does not matter,
and neither do more visited flows. -/
theorem RaceInv.moved {s' : Race} (hinv : RaceInv cfg history s) (hmap : s'.run.map = s.run.map)
    (hlast : s'.run.last = s.run.last) (hseen : s.run.seen ⊆ s'.run.seen)
    (hphase : s'.phase = s.phase) (htold : s'.told = s.told) : RaceInv cfg history s' := by
  obtain ⟨log, ⟨map, last, seen, exports, stats⟩, phase⟩ := s
  obtain ⟨log', ⟨map', last', seen', exports', stats'⟩, phase'⟩ := s'
  obtain rfl : map' = map := hmap
  obtain rfl : last' = last := hlast
  obtain rfl : phase' = phase := hphase
  refine ⟨⟨hinv.tracker.below, hinv.tracker.tracked⟩, hinv.aligned, hinv.nodup, hinv.ahead,
    hinv.doomed, fun hne k l hlookup => ?_, hinv.gone, fun c k => ?_⟩
  · exact (hinv.kept hne k l hlookup).imp_left fun hmem => hseen hmem
  · rw [htold, ← hinv.balance c k]
    cases phase' <;> rfl

/-- Between two passes only the map, the tracker and the exporter calls count. -/
theorem raceInv_idle {flows : FlowTable} {last : Tracker} {log : List Export}
    (htracker : TrackerOk ⟨flows, last, log⟩)
    (hbalance : ∀ c k, exported c k log + pending c ⟨flows, last, log⟩ k =
      accounted c k history) :
    RaceInv cfg history ⟨log, runStart [] flows last, .idle⟩ where
  tracker := ⟨htracker.below, htracker.tracked⟩
  aligned := rfl
  nodup := List.nodup_nil
  ahead := fun _ _ hmem => nomatch hmem
  doomed := fun _ _ _ _ hmem => nomatch hmem
  kept := fun hne => absurd rfl hne
  gone := fun _ _ hdeleting => nomatch hdeleting
  balance := by
    intro c k
    show exported c k (log ++ []) + pending c ⟨flows, last, log⟩ k = _
    rw [List.append_nil]
    exact hbalance c k

theorem RaceInv.idle_balance (hinv : RaceInv cfg history s) (hphase : s.phase = .idle)
    (c : Counter) (k : FlowKey) :
    exported c k s.told + pending c s.world k = accounted c k history := by
  have hbal := hinv.balance c k
  simpa only [racePending, hphase] using hbal

/-- The deletion takes an entry that was exported in full. -/
theorem raceInv_delete {now : UInt64} {key : FlowKey} (hinv : RaceInv cfg history s)
    (hphase : s.phase = .deleting now key) :
    RaceInv cfg history
      { s with run := { s.run with map := s.run.map.deleteKey key }, phase := .walking now } := by
  obtain ⟨huntracked, hunvisited⟩ := hinv.gone now key hphase
  have hflows : ∀ k, k ≠ key →
      (s.run.map.deleteKey key).flows.lookup k = s.run.map.flows.lookup k := by
    intro k hk
    simp [BpfFlowMap.deleteKey, hk]
  have hahead_ne : ∀ k v, (k, v) ∈ s.remaining → k ≠ key := by
    rintro k v hmem rfl
    exact hunvisited (List.mem_map.mpr ⟨_, hmem, rfl⟩)
  -- the key is neither tracked nor still to be visited, so only its map entry matters
  refine ⟨⟨?_, ?_⟩, hinv.aligned, hinv.nodup, ?_, ?_, ?_, ?_, ?_⟩
  · intro k v hlookup
    by_cases hk : k = key
    · subst hk
      simp [Race.world, BpfFlowMap.deleteKey] at hlookup
    · exact hinv.tracker.below k v ((hflows k hk).symm.trans hlookup)
  · intro k l hlast
    have hk : k ≠ key := by
      rintro rfl
      cases huntracked.symm.trans hlast
    obtain ⟨v, hlookup, hle⟩ := hinv.tracker.tracked k l hlast
    exact ⟨v, (hflows k hk).trans hlookup, hle⟩
  · intro k v hmem
    obtain ⟨v', hlookup, hle⟩ := hinv.ahead k v hmem
    exact ⟨v', (hflows k (hahead_ne k v hmem)).trans hlookup, hle⟩
  · intro now' hwalking k v hmem hexp
    have hnow : now' = now := by
      rcases hwalking with hwalking | ⟨_, hwalking⟩
      · cases hwalking
        rfl
      · cases hwalking
    subst hnow
    rw [← hinv.doomed now' (Or.inr ⟨key, hphase⟩) k v hmem hexp]
    exact hflows k (hahead_ne k v hmem)
  · intro _
    exact hinv.kept (by simp [hphase])
  · intro now' key' hdeleting
    cases hdeleting
  · intro c k
    have hbal := hinv.balance c k
    simp only [racePending, hphase] at hbal
    simp only [racePending, pending, Race.world] at hbal ⊢
    by_cases hk : k = key
    · subst hk
      rw [if_pos rfl] at hbal
      simpa [BpfFlowMap.deleteKey, Race.told] using hbal
    · rw [if_neg hk] at hbal
      rw [hflows k hk]
      exact hbal

/-- The pruning at the end of a pass forgets nothing. -/
theorem prune_lookup_kept {now : UInt64} (hinv : RaceInv cfg history s)
    (hphase : s.phase = .walking now) (hremaining : s.remaining = []) (k : FlowKey) :
    (prune s.run).lookup k = s.run.last.lookup k := by
  rw [prune_lookup]
  split
  · rfl
  · rename_i hseen
    cases hlookup : s.run.last.lookup k with
    | none => rfl
    | some l =>
        rcases hinv.kept (by simp [hphase]) k l hlookup with hmem | hmem
        · exact absurd hmem hseen
        · simp [hremaining] at hmem

theorem raceInv_prune {now : UInt64} (hinv : RaceInv cfg history s)
    (hphase : s.phase = .walking now) (hremaining : s.remaining = []) :
    RaceInv cfg history
      { s with run := { s.run with last := prune s.run }, phase := .idle } := by
  have hlast := prune_lookup_kept hinv hphase hremaining
  have hnothing : ∀ k v, (k, v) ∉ s.remaining := by
    simp [hremaining]
  refine ⟨⟨hinv.tracker.below, ?_⟩, hinv.aligned, hinv.nodup, ?_, ?_, ?_, ?_, ?_⟩
  · intro k l hl
    exact hinv.tracker.tracked k l ((hlast k).symm.trans hl)
  · intro k v hmem
    exact absurd hmem (hnothing k v)
  · intro _ _ k v hmem
    exact absurd hmem (hnothing k v)
  · intro hne
    exact absurd rfl hne
  · intro now' key hdeleting
    cases hdeleting
  · intro c k
    have hbal := hinv.balance c k
    simp only [racePending, hphase, pending, Race.world] at hbal
    simp only [racePending, pending, Race.world, hlast]
    exact hbal

/-- The state right after the visit of a snapshot entry. -/
def Race.visited (cfg : Config) (s : Race) (now : UInt64) (k : FlowKey) (v : FlowVal) : Race :=
  { s with
    run := visit cfg now k v { s.run with map := { s.run.map with pos := s.run.map.pos + 1 } }
    phase := if isExpired cfg now k v then .deleting now k else .walking now }

section Visited

variable (cfg) (now : UInt64) {k : FlowKey} {v : FlowVal} {entries : List (FlowKey × FlowVal)}

theorem remaining_visited (hremaining : s.remaining = (k, v) :: entries) :
    (s.visited cfg now k v).remaining = entries := by
  simp only [Race.remaining, Race.visited, visit_map]
  rw [← List.tail_drop]
  show s.remaining.tail = _
  rw [hremaining, List.tail_cons]

theorem visited_last_lookup (k' : FlowKey) :
    (s.visited cfg now k v).run.last.lookup k' =
      if k' = k then (if isExpired cfg now k v then none else some (Last.of v))
      else s.run.last.lookup k' := by
  rw [Race.visited, visit_last_lookup]

@[simp] theorem visited_flows : (s.visited cfg now k v).run.map.flows = s.run.map.flows := by
  simp [Race.visited]

theorem visited_phase_now {now' : UInt64}
    (hphase : (s.visited cfg now k v).phase = .walking now' ∨
      ∃ gone, (s.visited cfg now k v).phase = .deleting now' gone) : now' = now := by
  simp only [Race.visited] at hphase
  split at hphase
  · rcases hphase with hphase | ⟨_, hphase⟩ <;> cases hphase
    rfl
  · rcases hphase with hphase | ⟨_, hphase⟩ <;> cases hphase
    rfl

/-- A visit exports the growth of its key since the last one. -/
theorem exported_visited (c : Counter) (k' : FlowKey) :
    exported c k' (s.visited cfg now k v).told = exported c k' s.told +
      if k' = k then deltaSum c (record cfg now (s.run.last.lookup k) k v) else 0 := by
  simp only [Race.told, Race.visited, visit_exports, ← List.append_assoc]
  rw [exported_append, exported, exported, exportsOf_record]
  by_cases hk : k' = k <;> simp [hk]

/-- What a visit exports of its own key and what it leaves pending there. -/
theorem visited_balance (hinv : RaceInv cfg history s) (hphase : s.phase = .walking now)
    (hhead : (k, v) ∈ s.remaining) (c : Counter) (k' : FlowKey) :
    exported c k' (s.visited cfg now k v).told + racePending c (s.visited cfg now k v) k' =
      accounted c k' history := by
  obtain ⟨v', hlookup, hle⟩ := hinv.ahead k v hhead
  have hbelow := hinv.tracker.below k v' hlookup c
  have hlive := (hle c).1
  have hbal := hinv.balance c k'
  simp only [racePending, hphase, pending, Race.world] at hbal
  rw [exported_visited]
  by_cases hk : k' = k
  · subst hk
    have hrec := recorded_eq cfg now c k' (hle c).2 (by omega)
    have htracked := tracked_le_of_forall c (hle c).2
    rw [if_pos rfl, hrec]
    rw [hlookup, Counter.entry_some] at hbal
    by_cases hexp : isExpired cfg now k' v = true
    · -- expired: the live value is the exported one
      have hsame := hinv.doomed now (Or.inl hphase) k' v hhead hexp
      cases hsame.symm.trans hlookup
      simp only [racePending, Race.visited, hexp, if_pos]
      omega
    -- kept: what arrived behind the snapshot stays pending
    · have hlast := visited_last_lookup cfg (s := s) now (k := k') (v := v) k'
      rw [if_pos rfl, if_neg hexp] at hlast
      have hpending : racePending c (s.visited cfg now k' v) k' =
          (c.ofVal v').toNat - (c.ofVal v).toNat := by
        have hwalking : (s.visited cfg now k' v).phase = .walking now := by
          simp [Race.visited, hexp]
        simp only [racePending, hwalking, pending, Race.world, hlast, visited_flows, hlookup,
          Counter.entry_some, Counter.tracked_some, Counter.ofLast_of]
      rw [hpending]
      omega
  · have hlast := visited_last_lookup cfg (s := s) now (k := k) (v := v) k'
    rw [if_neg hk] at hlast
    have hpending : racePending c (s.visited cfg now k v) k' =
        pending c (s.visited cfg now k v).world k' := by
      by_cases hexp : isExpired cfg now k v = true
      · simp [racePending, Race.visited, hexp, hk]
      · simp [racePending, Race.visited, hexp]
    rw [hpending, if_neg hk]
    simp only [pending, Race.world, hlast, visited_flows]
    omega

theorem raceInv_visited (hinv : RaceInv cfg history s) (hphase : s.phase = .walking now)
    (hremaining : s.remaining = (k, v) :: entries) :
    RaceInv cfg history (s.visited cfg now k v) := by
  have hrest := remaining_visited cfg now hremaining
  have hhead : (k, v) ∈ s.remaining := by simp [hremaining]
  have htail : ∀ k' v', (k', v') ∈ entries → (k', v') ∈ s.remaining := by
    intro k' v' hmem
    simp [hremaining, hmem]
  have hnodup := hinv.nodup
  rw [hremaining, List.map_cons, List.nodup_cons] at hnodup
  refine ⟨⟨?_, ?_⟩, ?_, ?_, ?_, ?_, ?_, ?_, visited_balance cfg now hinv hphase hhead⟩
  · intro k' v' hlookup
    simp only [Race.world, visited_flows] at hlookup
    exact hinv.tracker.below k' v' hlookup
  · intro k' l hlast
    simp only [Race.world, visited_flows, visited_last_lookup] at hlast ⊢
    split at hlast
    · rename_i hk
      subst hk
      split at hlast
      · cases hlast
      · obtain ⟨v', hlookup, hle⟩ := hinv.ahead k' v hhead
        cases hlast
        exact ⟨v', hlookup, fun c => by simpa using (hle c).1⟩
    · exact hinv.tracker.tracked k' l hlast
  · simpa [Race.visited] using hinv.aligned
  · rw [hrest]
    exact hnodup.2
  · intro k' v' hmem
    rw [hrest] at hmem
    have hk : k' ≠ k := by
      rintro rfl
      exact hnodup.1 (List.mem_map.mpr ⟨_, hmem, rfl⟩)
    rw [visited_flows, visited_last_lookup, if_neg hk]
    exact hinv.ahead k' v' (htail k' v' hmem)
  · intro now' hnow k' v' hmem hexp
    rw [hrest] at hmem
    rw [visited_phase_now cfg now hnow] at hexp
    rw [visited_flows]
    exact hinv.doomed now (Or.inl hphase) k' v' (htail k' v' hmem) hexp
  · intro _ k' l hlast
    rw [hrest, Race.visited, visit_seen]
    by_cases hk : k' = k
    · exact Or.inl (by simp [hk])
    · rw [visited_last_lookup, if_neg hk] at hlast
      rcases hinv.kept (by simp [hphase]) k' l hlast with hseen | hmem
      · exact Or.inl (List.mem_cons_of_mem _ hseen)
      · rw [hremaining, List.map_cons] at hmem
        exact Or.inr ((List.mem_cons.mp hmem).resolve_left hk)
  · intro now' key hdeleting
    by_cases hexp : isExpired cfg now k v = true
    · simp only [Race.visited, hexp, if_pos, Phase.deleting.injEq] at hdeleting
      obtain ⟨-, rfl⟩ := hdeleting
      rw [visited_last_lookup, if_pos rfl, if_pos hexp, hrest]
      exact ⟨rfl, hnodup.1⟩
    · simp [Race.visited, hexp] at hdeleting

end Visited

theorem raceInv_advance (hinv : RaceInv cfg history s) : RaceInv cfg history (s.advance cfg) := by
  cases hphase : s.phase with
  | idle =>
      rw [advance_idle cfg hphase]
      exact hinv
  | deleting now key =>
      rw [advance_deleting cfg hphase]
      exact raceInv_delete hinv hphase
  -- the loop: prune at the end of the snapshot, else visit its next entry
  | walking now =>
      cases hremaining : s.remaining with
      | nil =>
          rw [advance_end cfg hinv.aligned hphase hremaining]
          exact raceInv_prune hinv hphase hremaining
      | cons e entries =>
          rw [advance_visit cfg hphase hremaining]
          exact raceInv_visited cfg now hinv hphase hremaining

end Steps

/-- The steps of an interleaving that spares doomed keys. -/
def SparedStep (cfg : Config) (s : Race) (a : RaceStep) : Prop :=
  RaceOk s a ∧ SparesDoomed cfg s a

theorem raceInv_concat {cfg : Config} {history : List RaceStep} {s : Race} {a : RaceStep}
    (hinv : RaceInv cfg history s) (hnone : ∀ c k, accountedStep c k a = 0) :
    RaceInv cfg (history ++ [a]) s :=
  { hinv with
    balance := by
      intro c k
      rw [accounted_concat, hnone, hinv.balance c k, Nat.add_zero] }

theorem raceInv_step (cfg : Config) (history : List RaceStep) (s : Race) (a : RaceStep)
    (hinv : RaceInv cfg history s) (hok : SparedStep cfg s a) :
    RaceInv cfg (history ++ [a]) (s.step cfg a) := by
  obtain ⟨hrace, hspared⟩ := hok
  cases a with
  | packet key u now => exact raceInv_packet key u now hinv hrace hspared
  | snapshot now replies =>
      obtain ⟨hphase, walk, hreplies, hperm⟩ := hrace
      have hstep : s.step cfg (.snapshot now replies) = s.snapshot now walk := by
        simp [Race.step, hreplies]
      rw [hstep]
      exact raceInv_concat (raceInv_snapshot now hinv hphase (IsFullWalk.of_perm hperm))
        fun _ _ => rfl
  | advance => exact raceInv_concat (raceInv_advance hinv) fun _ _ => rfl

/-! ## A pass without traffic is `run` -/

section Quiescent

variable (cfg : Config) {s : Race} {now : UInt64}

theorem remaining_visitEntry {e : FlowKey × FlowVal} {entries : List (FlowKey × FlowVal)}
    (hremaining : s.remaining = e :: entries) :
    Race.remaining { s with run := visitEntry cfg now s.run e } = entries := by
  simp only [Race.remaining, visitEntry_map_keys, visitEntry_map_values, visitEntry_map_pos]
  rw [← List.tail_drop]
  show s.remaining.tail = _
  rw [hremaining, List.tail_cons]

/-- One or two operations make one iteration of the loop. -/
theorem advance_entry {e : FlowKey × FlowVal} {entries : List (FlowKey × FlowVal)}
    (hphase : s.phase = .walking now) (hremaining : s.remaining = e :: entries) :
    ∃ n ≤ 2, (Race.advance cfg)^[n] s = { s with run := visitEntry cfg now s.run e } := by
  have hvisit : s.advance cfg = s.visited cfg now e.1 e.2 :=
    advance_visit cfg hphase hremaining
  by_cases hexp : isExpired cfg now e.1 e.2 = true
  · have hdeleting : (s.visited cfg now e.1 e.2).phase = .deleting now e.1 := by
      simp [Race.visited, hexp]
    refine ⟨2, le_rfl, ?_⟩
    rw [Function.iterate_succ_apply, Function.iterate_one, hvisit,
      advance_deleting cfg hdeleting]
    simp [Race.visited, visitEntry, deleteExpired, hexp, hphase]
  · refine ⟨1, by omega, ?_⟩
    rw [Function.iterate_one, hvisit]
    simp [Race.visited, visitEntry, deleteExpired, hexp, hphase]

/-- The operations of a whole pass. -/
theorem advance_entries (entries : List (FlowKey × FlowVal)) (s : Race)
    (haligned : s.run.map.keys.length = s.run.map.values.length)
    (hphase : s.phase = .walking now) (hremaining : s.remaining = entries) :
    ∃ n ≤ 2 * entries.length + 1, (Race.advance cfg)^[n] s =
      { s with
        run := { entries.foldl (visitEntry cfg now) s.run with
          last := prune (entries.foldl (visitEntry cfg now) s.run) }
        phase := .idle } := by
  induction entries generalizing s with
  | nil => exact ⟨1, le_rfl, advance_end cfg haligned hphase hremaining⟩
  | cons e entries ih =>
      obtain ⟨n, hn, hentry⟩ := advance_entry cfg hphase hremaining
      have haligned' : (visitEntry cfg now s.run e).map.keys.length =
          (visitEntry cfg now s.run e).map.values.length := by
        rw [visitEntry_map_keys, visitEntry_map_values, haligned]
      obtain ⟨m, hm, hrest⟩ := ih { s with run := visitEntry cfg now s.run e } haligned' hphase
        (remaining_visitEntry cfg hremaining)
      refine ⟨m + n, by rw [List.length_cons]; omega, ?_⟩
      rw [Function.iterate_add_apply, hentry, hrest, List.foldl_cons]

/-- Enough operations after a snapshot bring the pass to its end, and leave
the map, the tracker and the exporter calls of `run`. -/
theorem iterate_advance_snapshot (now : UInt64) (walk : List (FlowKey × FlowVal)) {n : Nat}
    (hn : 2 * walk.length + 1 ≤ n) :
    ((Race.advance cfg)^[n] (s.snapshot now walk)).phase = .idle ∧
      ((Race.advance cfg)^[n] (s.snapshot now walk)).world = s.world.pass cfg now walk := by
  obtain ⟨m, hm, hpass⟩ := advance_entries cfg walk (s.snapshot now walk)
    (by simp [Race.snapshot, runStart, BpfFlowMap.reset]) rfl (remaining_snapshot now walk)
  -- the remaining operations find the agent idle
  have hrest : (Race.advance cfg)^[n] (s.snapshot now walk) =
      (Race.advance cfg)^[m] (s.snapshot now walk) := by
    have hsplit : n = (n - m) + m := by omega
    rw [hsplit, Function.iterate_add_apply]
    exact Function.iterate_fixed (advance_idle cfg (by rw [hpass])) (n - m)
  rw [hrest, hpass]
  refine ⟨rfl, ?_⟩
  simp only [Race.world, World.pass, run, loop_runStart]
  rfl

/-- A pass during which nothing is accounted: the snapshot and `n` operations. -/
def quiescentPass (now : UInt64) (replies : List (BatchReply FlowKey FlowVal)) (n : Nat) :
    List RaceStep :=
  .snapshot now replies :: List.replicate n .advance

theorem foldl_replicate_advance (n : Nat) (s : Race) :
    (List.replicate n RaceStep.advance).foldl (Race.step cfg) s = (Race.advance cfg)^[n] s := by
  induction n generalizing s with
  | zero => rfl
  | succ n ih => rw [List.replicate_succ, List.foldl_cons, ih, Function.iterate_succ_apply]; rfl

theorem foldl_quiescentPass {replies : List (BatchReply FlowKey FlowVal)}
    {walk : List (FlowKey × FlowVal)} {ok : Bool} (hreplies : batchWalk replies = some (walk, ok))
    (n : Nat) :
    (quiescentPass now replies n).foldl (Race.step cfg) s =
      (Race.advance cfg)^[n] (s.snapshot now walk) := by
  rw [quiescentPass, List.foldl_cons, foldl_replicate_advance]
  simp [Race.step, hreplies]

theorem accounted_quiescentPass (c : Counter) (k : FlowKey) (history : List RaceStep)
    (now : UInt64) (replies : List (BatchReply FlowKey FlowVal)) (n : Nat) :
    accounted c k (history ++ quiescentPass now replies n) = accounted c k history := by
  simp [accounted, quiescentPass, accountedStep]

end Quiescent

/-- **No packet is lost while doomed keys get no traffic.**  After every such
interleaving, a pass without traffic over the whole map runs to its end and
leaves the deltas exported for a key equal to everything accounted to it. -/
theorem race_deltas_conserved_of_spared (cfg : Config) (history : List RaceStep) (s : Race)
    (hrun : Run (Race.step cfg) (SparedStep cfg) Race.empty history s) (hidle : s.phase = .idle)
    (now : UInt64) (replies : List (BatchReply FlowKey FlowVal))
    (walk : List (FlowKey × FlowVal)) (hreplies : batchWalk replies = some (walk, true))
    (hperm : walk.Perm (Store.pairs s.run.map.flows)) (n : Nat)
    (hn : 2 * walk.length + 1 ≤ n) (c : Counter) (k : FlowKey) :
    ((quiescentPass now replies n).foldl (Race.step cfg) s).phase = .idle ∧
      exported c k ((quiescentPass now replies n).foldl (Race.step cfg) s).told =
        accounted c k (history ++ quiescentPass now replies n) := by
  have hinv := hrun.invariant (raceInv_empty cfg) (raceInv_step cfg)
  have hwalk : IsFullWalk s.world.flows walk := IsFullWalk.of_perm hperm
  obtain ⟨hend, hworld⟩ := iterate_advance_snapshot cfg (s := s) now walk hn
  rw [foldl_quiescentPass cfg hreplies, accounted_quiescentPass]
  refine ⟨hend, ?_⟩
  have hbal := hinv.balance c k
  simp only [racePending, hidle] at hbal
  have hconserves : exported c k (s.world.pass cfg now walk).log +
      pending c (s.world.pass cfg now walk) k = exported c k s.told + pending c s.world k :=
    pass_conserves now hinv.tracker hwalk.toIsWalk
      (fun k l => tracked_mem_full hinv.tracker hwalk) c k
  rw [pending_pass_full now hwalk c k, ← hworld] at hconserves
  exact (Nat.add_zero _).symm.trans (hconserves.trans hbal)

/-! ## Concrete interleavings -/

instance (s : Race) (a : RaceStep) : Decidable (RaceOk s a) :=
  match a with
  | .packet key u now =>
      inferInstanceAs (Decidable (Below63 (Bpf.account key u now s.run.map.flows)))
  | .snapshot _ replies =>
      match hreplies : batchWalk replies with
      | some (walk, true) =>
          decidable_of_iff (s.phase = .idle ∧ walk.Perm (Store.pairs s.run.map.flows))
            (by simp [RaceOk, hreplies])
      | some (walk, false) => isFalse (by simp [RaceOk, hreplies])
      | none => isFalse (by simp [RaceOk, hreplies])
  | .advance => isTrue trivial

instance (cfg : Config) (s : Race) (a : RaceStep) : Decidable (SparesDoomed cfg s a) :=
  match a with
  | .packet key _ _ => inferInstanceAs (Decidable (¬ s.Doomed cfg key))
  | .snapshot _ _ => isTrue trivial
  | .advance => isTrue trivial

instance (cfg : Config) (s : Race) (a : RaceStep) : Decidable (SparedStep cfg s a) :=
  inferInstanceAs (Decidable (_ ∧ _))

/-- A packet revives an active flow behind the snapshot. -/
def revivedHistory : List RaceStep :=
  [.packet demoKey (demoUpdate 5 500) 1,
   .snapshot 2 [.last [(demoKey, ⟨5, 500, 1, 1, 0x18, 0, 0⟩)]],
   .packet demoKey (demoUpdate 3 300) 3,
   .advance, .advance]

theorem race_deltas_conserved_of_spared_demo :
    exported .packets demoKey ((quiescentPass 4
        [.last [(demoKey, ⟨8, 800, 1, 3, 0x18, 0, 0⟩)]] 3).foldl (Race.step demoConfig)
        (revivedHistory.foldl (Race.step demoConfig) Race.empty)).told =
      accounted .packets demoKey (revivedHistory ++ quiescentPass 4
        [.last [(demoKey, ⟨8, 800, 1, 3, 0x18, 0, 0⟩)]] 3) := by
  have hrun : Run (Race.step demoConfig) (SparedStep demoConfig) Race.empty revivedHistory
      (revivedHistory.foldl (Race.step demoConfig) Race.empty) := Run.of_check (by decide)
  exact (race_deltas_conserved_of_spared demoConfig _ _ hrun (by decide) 4 _
    [(demoKey, ⟨8, 800, 1, 3, 0x18, 0, 0⟩)] rfl (by decide) 3 (by decide) .packets demoKey).2

/-- The snapshot finds the flow expired, a packet revives it, and the visit,
the deletion and the pruning follow. -/
def lostPacketHistory : List RaceStep :=
  [.packet demoKey (demoUpdate 5 500) 1,
   .snapshot 400000000000 [.last [(demoKey, ⟨5, 500, 1, 1, 0x18, 0, 0⟩)]],
   .packet demoKey (demoUpdate 3 300) 400000000001,
   .advance, .advance, .advance]

/-- **A packet between snapshot and deletion is lost**: eight packets were
accounted, the later pass over the whole map finds it empty, and five were
exported. -/
theorem race_loses_packet :
    ∃ s, Run (Race.step demoConfig) RaceOk Race.empty
        (lostPacketHistory ++ quiescentPass 400000000002 [.last []] 1) s ∧
      s.phase = .idle ∧
      accounted .packets demoKey
        (lostPacketHistory ++ quiescentPass 400000000002 [.last []] 1) = 8 ∧
      exported .packets demoKey s.told = 5 :=
  ⟨_, Run.of_check (by decide), by decide, by decide, by decide⟩

end Lifecycle
end Obserwrt
