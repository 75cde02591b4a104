import Obserwrt.Lifecycle.Pass

/-!
# The two counters of a flow

Packets and bytes are tracked, compared and exported by the same arithmetic,
each on its own.  `Counter` selects one of them in every record that carries
both, so that a statement about "packets and, separately, bytes" is one
statement for every counter.

`counterDelta_toNat` is the meaning of the signed 64-bit subtraction below
`2 ^ 63`, and `recorded_eq` what a visit exports: exactly the growth since the
tracker's record, whether or not a record was emitted.
-/

namespace Obserwrt

open Lib

namespace Counter

def ofLast : Counter → Lifecycle.Last → UInt64
  | .packets, l => l.packets
  | .bytes, l => l.bytes

@[simp] theorem ofLast_of (c : Counter) (v : FlowVal) :
    c.ofLast (Lifecycle.Last.of v) = c.ofVal v := by
  cases c <;> rfl

theorem ofDelta_deltaSince (c : Counter) (prev : Option Lifecycle.Last) (v : FlowVal) :
    c.ofDelta (Lifecycle.deltaSince prev v) =
      Lifecycle.counterDelta (c.ofVal v) ((prev.map c.ofLast).getD 0) := by
  cases c <;> cases prev <;> rfl

/-- The counter of an entry that may be absent. -/
def entry (c : Counter) (v : Option FlowVal) : Nat :=
  (v.map fun v => (c.ofVal v).toNat).getD 0

/-- The counter of a tracker record that may be absent. -/
def tracked (c : Counter) (l : Option Lifecycle.Last) : Nat :=
  (l.map fun l => (c.ofLast l).toNat).getD 0

@[simp] theorem entry_none (c : Counter) : c.entry none = 0 := rfl

@[simp] theorem entry_some (c : Counter) (v : FlowVal) :
    c.entry (some v) = (c.ofVal v).toNat := rfl

@[simp] theorem tracked_none (c : Counter) : c.tracked none = 0 := rfl

@[simp] theorem tracked_some (c : Counter) (l : Lifecycle.Last) :
    c.tracked (some l) = (c.ofLast l).toNat := rfl

end Counter

namespace Lifecycle

/-! ## The signed subtraction -/

theorem toInt_toInt64 {a : UInt64} (ha : a.toNat < 2 ^ 63) : a.toInt64.toInt = a.toNat := by
  have hbits : 2 * a.toBitVec.toNat < 2 ^ 64 := by
    have : a.toBitVec.toNat = a.toNat := rfl
    omega
  exact BitVec.toInt_eq_toNat_of_lt hbits

/-- Below `2 ^ 63` the delta is the growth of the counter, or the counter
itself when it went down. -/
theorem counterDelta_toNat {cur prev : UInt64}
    (hcur : cur.toNat < 2 ^ 63) (hprev : prev.toNat < 2 ^ 63) :
    (counterDelta cur prev).toNat =
      if prev.toNat ≤ cur.toNat then cur.toNat - prev.toNat else cur.toNat := by
  have hsub : (cur.toInt64 - prev.toInt64).toInt = (cur.toNat : Int) - prev.toNat := by
    rw [Int64.toInt_sub, toInt_toInt64 hcur, toInt_toInt64 hprev]
    simp only [Int.bmod]
    omega
  have hneg : cur.toInt64 - prev.toInt64 < 0 ↔ cur.toNat < prev.toNat := by
    rw [Int64.lt_iff_toInt_lt, hsub]
    simp
  unfold counterDelta
  by_cases hle : prev.toNat ≤ cur.toNat
  · have hpos : ¬ cur.toInt64 - prev.toInt64 < 0 := by
      rw [hneg]
      omega
    have hcast : (cur.toInt64 - prev.toInt64).toUInt64 = cur - prev := by simp
    simp only [if_neg hpos, if_pos hle, hcast]
    exact UInt64.toNat_sub_of_le cur prev (UInt64.le_iff_toNat_le.mpr hle)
  · have hlt : cur.toInt64 - prev.toInt64 < 0 := by
      rw [hneg]
      omega
    simp only [if_pos hlt, if_neg hle, UInt64.toUInt64_toInt64]

/-! ## What the exporter was told -/

/-- The sum of one counter's deltas over a list of exporter calls. -/
def deltaSum (c : Counter) (exports : List Export) : Nat :=
  (exports.map fun e => (c.ofDelta e.delta).toNat).sum

/-- The sum of one counter's deltas over the exporter calls for a key. -/
def exported (c : Counter) (k : FlowKey) (exports : List Export) : Nat :=
  deltaSum c (exportsOf k exports)

@[simp] theorem deltaSum_nil (c : Counter) : deltaSum c [] = 0 := rfl

theorem exported_append (c : Counter) (k : FlowKey) (xs ys : List Export) :
    exported c k (xs ++ ys) = exported c k xs + exported c k ys := by
  simp [exported, deltaSum, exportsOf_append]

/-- Every counter of every entry is below `2 ^ 63`. -/
def Below63 (flows : FlowTable) : Prop :=
  ∀ k v, flows.lookup k = some v → ∀ c : Counter, (c.ofVal v).toNat < 2 ^ 63

theorem below63_iff (flows : FlowTable) :
    Below63 flows ↔ ∀ e ∈ Store.pairs flows,
      e.2.packets.toNat < 2 ^ 63 ∧ e.2.bytes.toNat < 2 ^ 63 := by
  constructor
  · rintro hbelow ⟨k, v⟩ hmem
    have hlookup := Store.mem_pairs.mp hmem
    exact ⟨hbelow k v hlookup .packets, hbelow k v hlookup .bytes⟩
  · intro hall k v hlookup c
    obtain ⟨hpackets, hbytes⟩ := hall (k, v) (Store.mem_pairs.mpr hlookup)
    cases c
    · exact hpackets
    · exact hbytes

instance (flows : FlowTable) : Decidable (Below63 flows) :=
  decidable_of_iff _ (below63_iff flows).symm

section Record

variable (cfg : Config) (now : UInt64) (c : Counter) {prev : Option Last} {v : FlowVal}

theorem tracked_lt (hle : ∀ l ∈ prev, (c.ofLast l).toNat ≤ (c.ofVal v).toNat)
    (hv : (c.ofVal v).toNat < 2 ^ 63) : ((prev.map c.ofLast).getD 0).toNat < 2 ^ 63 := by
  cases prev with
  | none => simp
  | some l =>
      have hl := hle l rfl
      simp only [Option.map_some, Option.getD_some]
      omega

theorem tracked_le_of_forall (hle : ∀ l ∈ prev, (c.ofLast l).toNat ≤ (c.ofVal v).toNat) :
    c.tracked prev ≤ (c.ofVal v).toNat := by
  cases prev with
  | none => simp
  | some l => simpa using hle l rfl

/-- The delta of a visit is the growth since the tracker's record. -/
theorem ofDelta_deltaSince_toNat (hle : ∀ l ∈ prev, (c.ofLast l).toNat ≤ (c.ofVal v).toNat)
    (hv : (c.ofVal v).toNat < 2 ^ 63) :
    (c.ofDelta (deltaSince prev v)).toNat = (c.ofVal v).toNat - c.tracked prev := by
  rw [c.ofDelta_deltaSince, counterDelta_toNat hv (tracked_lt c hle hv)]
  cases prev with
  | none => simp
  | some l =>
      have hl := hle l rfl
      simp [hl]

/-- What is not re-exported has not grown. -/
theorem eq_tracked_of_not_changed (hsame : changedSince prev v = false) :
    c.tracked prev = (c.ofVal v).toNat := by
  cases prev with
  | none => simp [changedSince] at hsame
  | some l =>
      simp only [changedSince, Bool.or_eq_false_iff, bne_eq_false_iff_eq] at hsame
      obtain ⟨⟨_, hpackets⟩, hbytes⟩ := hsame
      cases c
      · simp [Counter.ofLast, Counter.ofVal, hpackets]
      · simp [Counter.ofLast, Counter.ofVal, hbytes]

/-- A visit exports exactly the growth of the flow: a skipped record stands
for a growth of zero. -/
theorem recorded_eq (key : FlowKey)
    (hle : ∀ l ∈ prev, (c.ofLast l).toNat ≤ (c.ofVal v).toNat)
    (hv : (c.ofVal v).toNat < 2 ^ 63) :
    deltaSum c (record cfg now prev key v) = (c.ofVal v).toNat - c.tracked prev := by
  have hdelta := ofDelta_deltaSince_toNat c hle hv
  unfold record deltaSum
  split
  · simp [hdelta]
  -- not expired: exported only when something changed
  · split
    · simp [hdelta]
    · rename_i hsame
      have := eq_tracked_of_not_changed c (Bool.eq_false_of_not_eq_true hsame)
      simp
      omega

end Record

end Lifecycle
end Obserwrt
