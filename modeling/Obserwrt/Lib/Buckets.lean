import Mathlib.Data.List.Nodup
import Obserwrt.Lib.Store

/-!
# Batch scans of a bucketed store

The keys of a store are spread over numbered buckets.  A scan starts at a
bucket and returns the whole contents of consecutive buckets as long as they
fit a capacity, with the bucket to go on from; it says when the last bucket has
been passed, and when not even the first non-empty bucket fits.
-/

namespace Obserwrt
namespace Lib

universe u v

variable {K : Type u} {V : Type v}

/-- A fixed number of buckets, and the bucket of every key. -/
structure Layout (K : Type u) where
  buckets : Nat
  bucketOf : K → Nat
  hlt : ∀ k, bucketOf k < buckets

/-- How a scan ended: at a bucket that does not fit any more, past the last
bucket, or at a first non-empty bucket that does not fit at all. -/
inductive ScanStatus
  | more
  | last
  | noSpace
  deriving DecidableEq

/-- What a scan returns. -/
structure Batch (K : Type u) (V : Type v) where
  entries : List (K × V)
  next : Nat
  status : ScanStatus

namespace Layout

variable (L : Layout K) (m : Store K V)

/-- The contents of one bucket. -/
def bucket (b : Nat) : List (K × V) :=
  m.pairs.filter fun e => L.bucketOf e.1 = b

/-- The contents of the buckets from `start` up to, not including, `stop`. -/
def span (start stop : Nat) : List (K × V) :=
  (List.range' start (stop - start)).flatMap (L.bucket m)

/-- Scan `n` more buckets from `b` on, with `acc` collected so far. -/
def scanFrom (cap : Nat) : Nat → Nat → List (K × V) → Batch K V
  | 0, b, acc => { entries := acc, next := b, status := .last }
  | n + 1, b, acc =>
      if cap < acc.length + (L.bucket m b).length then
        { entries := acc, next := b, status := if acc.length = 0 then .noSpace else .more }
      else
        scanFrom cap n (b + 1) (acc ++ L.bucket m b)

/-- Scan from the bucket `start`. -/
def scan (start cap : Nat) : Batch K V :=
  L.scanFrom m cap (L.buckets - start) start []

variable {L m}

theorem mem_bucket {e : K × V} {b : Nat} :
    e ∈ L.bucket m b ↔ e ∈ m.pairs ∧ L.bucketOf e.1 = b := by
  simp [bucket]

theorem bucket_length_le (b : Nat) : (L.bucket m b).length ≤ m.entries.length := by
  have hle := List.length_filter_le (fun e => decide (L.bucketOf e.1 = b)) m.pairs
  simpa [bucket, Store.pairs] using hle

theorem mem_span {e : K × V} {start stop : Nat} :
    e ∈ L.span m start stop ↔ e ∈ m.pairs ∧ start ≤ L.bucketOf e.1 ∧ L.bucketOf e.1 < stop := by
  simp only [span, List.mem_flatMap, List.mem_range'_1, mem_bucket]
  constructor
  · rintro ⟨b, ⟨hstart, hstop⟩, hmem, rfl⟩
    exact ⟨hmem, hstart, by omega⟩
  · rintro ⟨hmem, hstart, hstop⟩
    exact ⟨_, ⟨hstart, by omega⟩, hmem, rfl⟩

@[simp] theorem span_self (b : Nat) : L.span m b b = [] := by
  simp [span]

theorem span_succ {start b : Nat} (hb : start ≤ b) :
    L.span m start (b + 1) = L.span m start b ++ L.bucket m b := by
  have hlength : b + 1 - start = b - start + 1 := by omega
  have hlast : start + (b - start) = b := by omega
  simp only [span, hlength, List.range'_1_concat, List.flatMap_append, List.flatMap_singleton,
    hlast]

/-- A key lies in one bucket only, so no key occurs twice in a span. -/
theorem span_keys_nodup (start stop : Nat) : ((L.span m start stop).map Prod.fst).Nodup := by
  rw [span, List.map_flatMap, List.nodup_flatMap]
  constructor
  · intro b _
    exact m.pairs_keys_nodup.sublist (List.filter_sublist.map _)
  · refine (List.nodup_range' 1).imp ?_
    intro b b' hne k hk hk'
    obtain ⟨e, he, rfl⟩ := List.mem_map.mp hk
    obtain ⟨e', he', hkey⟩ := List.mem_map.mp hk'
    rw [mem_bucket] at he he'
    exact hne (by rw [← he.2, ← he'.2, hkey])

/-- Entries from the buckets below a span, with the span behind them. -/
theorem append_span_nodup {entries : List (K × V)} {start : Nat}
    (hnodup : (entries.map Prod.fst).Nodup) (hbelow : ∀ e ∈ entries, L.bucketOf e.1 < start)
    (stop : Nat) : ((entries ++ L.span m start stop).map Prod.fst).Nodup := by
  rw [List.map_append, List.nodup_append]
  refine ⟨hnodup, span_keys_nodup start stop, ?_⟩
  intro k hk k' hk' hsame
  obtain ⟨e, he, rfl⟩ := List.mem_map.mp hk
  obtain ⟨e', he', rfl⟩ := List.mem_map.mp hk'
  have hold := hbelow e he
  have hnew := (mem_span.mp he').2.1
  rw [hsame] at hold
  omega

theorem append_span_below {entries : List (K × V)} {start stop : Nat} (hstop : start ≤ stop)
    (hbelow : ∀ e ∈ entries, L.bucketOf e.1 < start) :
    ∀ e ∈ entries ++ L.span m start stop, L.bucketOf e.1 < stop := by
  intro e he
  rcases List.mem_append.mp he with he | he
  · exact lt_of_lt_of_le (hbelow e he) hstop
  · exact (mem_span.mp he).2.2

/-- A scan that has passed some buckets ends in one of three ways. -/
theorem scanFrom_cases (cap n : Nat) {start b : Nat} (hb : start ≤ b) :
    L.scanFrom m cap n b (L.span m start b) = ⟨L.span m start (b + n), b + n, .last⟩ ∨
      (∃ next, start < next ∧ next < b + n ∧
        L.scanFrom m cap n b (L.span m start b) = ⟨L.span m start next, next, .more⟩) ∨
      ∃ next, next < b + n ∧ cap < (L.bucket m next).length ∧
        L.scanFrom m cap n b (L.span m start b) = ⟨[], next, .noSpace⟩ := by
  -- over the buckets left
  induction n generalizing b with
  | zero => exact Or.inl rfl
  | succ n ih =>
      by_cases hfull : cap < (L.span m start b).length + (L.bucket m b).length
      · right
        rw [scanFrom, if_pos hfull]
        by_cases hnil : (L.span m start b).length = 0
        · right
          refine ⟨b, by omega, by omega, ?_⟩
          rw [if_pos hnil, List.length_eq_zero_iff.mp hnil]
        · left
          refine ⟨b, ?_, by omega, ?_⟩
          · rcases hb.eq_or_lt with rfl | hlt
            · simp at hnil
            · exact hlt
          · rw [if_neg hnil]
      · have hrest := ih (b := b + 1) (by omega)
        rw [span_succ hb] at hrest
        have hend : b + 1 + n = b + (n + 1) := by omega
        rw [hend] at hrest
        rwa [scanFrom, if_neg hfull]

/-- What one scan returns. -/
theorem scan_cases (cap : Nat) {start : Nat} (hstart : start ≤ L.buckets) :
    L.scan m start cap = ⟨L.span m start L.buckets, L.buckets, .last⟩ ∨
      (∃ next, start < next ∧ next < L.buckets ∧
        L.scan m start cap = ⟨L.span m start next, next, .more⟩) ∨
      ∃ next, next < L.buckets ∧ cap < (L.bucket m next).length ∧
        L.scan m start cap = ⟨[], next, .noSpace⟩ := by
  have hcases := scanFrom_cases (L := L) (m := m) cap (L.buckets - start) (le_refl start)
  have hend : start + (L.buckets - start) = L.buckets := by omega
  rwa [span_self, hend] at hcases

/-- Wherever it starts, a scan returns a span, and nothing when it reports that
not even one bucket fits. -/
theorem scan_span (start cap : Nat) :
    (∃ stop, (L.scan m start cap).entries = L.span m start stop) ∧
      ((L.scan m start cap).status = .noSpace → (L.scan m start cap).entries = []) := by
  rcases le_or_gt start L.buckets with hle | hgt
  · rcases scan_cases (L := L) (m := m) cap hle with h | ⟨next, -, -, h⟩ | ⟨next, -, -, h⟩
    · rw [h]
      exact ⟨⟨_, rfl⟩, by simp⟩
    · rw [h]
      exact ⟨⟨_, rfl⟩, by simp⟩
    · rw [h]
      exact ⟨⟨start, by simp⟩, by simp⟩
  · have hnone : L.buckets - start = 0 := by omega
    rw [scan, hnone, scanFrom]
    exact ⟨⟨start, by simp⟩, by simp⟩

end Layout
end Lib
end Obserwrt
