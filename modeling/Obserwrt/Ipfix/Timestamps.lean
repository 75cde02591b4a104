import Mathlib.Data.UInt
import Obserwrt.Ipfix.Freshness

/-!
# Flow timestamps

Flow times are kept on the monotonic clock and exported on the wall clock: a
pass sets the exporter's anchor to `time() * 1000 - mono_ms()` and every record
adds its times to it.  The wall clock is taken to run in step with the
monotonic one, a constant apart.  `time()` drops the part of the second that
has passed, so the anchor lags by the sub-second phase of its pass.
-/

namespace Obserwrt
namespace Ipfix

open Lib

/-! ## The two clocks -/

/-- The wall clock in milliseconds when the monotonic clock shows `mono`, with
`c` between them. -/
def wallMs (c mono : UInt64) : UInt64 := mono + c

/-- `static_cast<uint32_t>(time(nullptr))`. -/
def nowS (c mono : UInt64) : UInt32 := (wallMs c mono / 1000).toUInt32

/-- The anchor `main` computes, from the two clocks read at one instant. -/
def anchor (c mono : UInt64) : UInt64 := (nowS c mono).toUInt64 * 1000 - mono

/-- A pass at a time of the monotonic clock, with the records it emits. -/
structure ClockPass where
  monoMs : UInt64
  reports : List Report
  deriving DecidableEq

/-- The pass as its exporter sees it. -/
def ClockPass.exportPass (c : UInt64) (p : ClockPass) : ExportPass where
  offsetMs := anchor c p.monoMs
  reports := p.reports
  exportTimeS := nowS c p.monoMs

/-- Everything emitted by a start at `startMono` and the passes after it. -/
def emitted (c startMono : UInt64) (passes : List ClockPass) : List Emission :=
  emissions 0 (mainCalls (nowS c startMono) (anchor c startMono)
    (passes.map (ClockPass.exportPass c)))

/-- Two records of one flow: the entry is the same from its creation on. -/
def SameFlow (r r' : Report) : Prop :=
  r.key = r'.key ∧ r.val.firstSeen = r'.val.firstSeen

/-- Two wall-clock times at most a millisecond apart. -/
def WithinMs (t t' : UInt64) : Prop :=
  t = t' ∨ t = t' + 1 ∨ t + 1 = t'

/-- The exported times are those of the flow. -/
structure TimesExact (c : UInt64) (ems : List Emission) : Prop where
  stable : ∀ em ∈ ems, ∀ em' ∈ ems, SameFlow em.report em'.report →
    em.observation.startMs = em'.observation.startMs
  exact : ∀ em ∈ ems, WithinMs (UInt64.ofNat em.observation.startMs)
    (wallMs c (em.report.val.firstSeen / 1000000))
  ordered : ∀ em ∈ ems, em.report.val.firstSeen ≤ em.report.val.lastSeen →
    em.observation.startMs ≤ em.observation.endMs

/-- The sub-second phase of a pass on the wall clock. -/
def ClockPass.phase (c : UInt64) (p : ClockPass) : UInt64 := wallMs c p.monoMs % 1000

/-- What the times need of the passes: those that emit anything are less than
two milliseconds into a second that 32 bits can count, those that report one
flow share their phase, and the clock of milliseconds does not start over
between the first and the last packet of a flow. -/
structure SteadyPasses (c : UInt64) (passes : List ClockPass) : Prop where
  early : ∀ p ∈ passes, p.reports ≠ [] →
    (wallMs c p.monoMs).toNat / 1000 < 2 ^ 32 ∧ (p.phase c).toNat ≤ 1
  shared : ∀ p ∈ passes, ∀ q ∈ passes, ∀ r ∈ p.reports, ∀ r' ∈ q.reports, SameFlow r r' →
    p.phase c = q.phase c
  unwrapped : ∀ p ∈ passes, ∀ r ∈ p.reports, r.val.firstSeen ≤ r.val.lastSeen →
    ¬((c - p.phase c).toNat + r.val.firstSeen.toNat / 10 ^ 6 < 2 ^ 64 ∧
      2 ^ 64 ≤ (c - p.phase c).toNat + r.val.lastSeen.toNat / 10 ^ 6)

/-! ## The anchor -/

/-- How far the anchor is behind the wall clock. -/
def lag (c mono : UInt64) : UInt64 := wallMs c mono - (nowS c mono).toUInt64 * 1000

theorem anchor_eq (c mono : UInt64) : anchor c mono = c - lag c mono := by
  rw [anchor, lag, wallMs, sub_sub_eq_add_sub, add_comm mono c, add_sub_add_left_eq_sub]

theorem lag_toNat (c mono : UInt64) :
    (lag c mono).toNat = (wallMs c mono).toNat -
      (wallMs c mono).toNat / 1000 % 2 ^ 32 * 1000 := by
  have hsmall := (wallMs c mono).toNat_lt
  have hnow : ((nowS c mono).toUInt64 * 1000).toNat =
      (wallMs c mono).toNat / 1000 % 2 ^ 32 * 1000 := by
    unfold nowS
    rw [UInt64.toNat_mul, UInt32.toNat_toUInt64, UInt64.toNat_toUInt32, UInt64.toNat_div]
    show (wallMs c mono).toNat / 1000 % 2 ^ 32 * 1000 % 2 ^ 64 = _
    omega
  rw [lag, UInt64.toNat_sub_of_le, hnow]
  rw [UInt64.le_iff_toNat_le, hnow]
  omega

/-- The lag is a millisecond at most exactly early in a second that 32 bits can
count. -/
theorem lag_small_iff (c mono : UInt64) :
    (lag c mono = 0 ∨ lag c mono + 1 = 0 ∨ lag c mono = 1) ↔
      (wallMs c mono).toNat / 1000 < 2 ^ 32 ∧ (wallMs c mono % 1000).toNat ≤ 1 := by
  have hsmall := (wallMs c mono).toNat_lt
  have hlag := lag_toNat c mono
  have hmod : (wallMs c mono % 1000).toNat = (wallMs c mono).toNat % 1000 :=
    UInt64.toNat_mod _ _
  rw [hmod, ← UInt64.toNat_inj, ← UInt64.toNat_inj, ← UInt64.toNat_inj, UInt64.toNat_add, hlag]
  show (_ = 0 ∨ (_ + 1) % 2 ^ 64 = 0 ∨ _ = 1) ↔ _
  omega

/-- Then it is the phase. -/
theorem lag_eq_phase {c mono : UInt64} (hcount : (wallMs c mono).toNat / 1000 < 2 ^ 32) :
    lag c mono = wallMs c mono % 1000 := by
  have hmod : (wallMs c mono % 1000).toNat = (wallMs c mono).toNat % 1000 :=
    UInt64.toNat_mod _ _
  rw [← UInt64.toNat_inj, lag_toNat, hmod]
  omega

/-! ## What a record carries -/

section Record

variable (c mono : UInt64) (r : Report)

theorem observation_startMs :
    (Emission.mk (anchor c mono) r).observation.startMs =
      (wallMs c (r.val.firstSeen / 1000000) - lag c mono).toNat := by
  have hstart : wallMs c (r.val.firstSeen / 1000000) - lag c mono =
      anchor c mono + r.val.firstSeen / 1000000 := by
    rw [anchor_eq, wallMs, sub_add_eq_add_sub, add_comm c]
  rw [hstart, UInt64.toNat_add, UInt64.toNat_div]
  rfl

theorem observation_within_iff :
    WithinMs (UInt64.ofNat (Emission.mk (anchor c mono) r).observation.startMs)
        (wallMs c (r.val.firstSeen / 1000000)) ↔
      lag c mono = 0 ∨ lag c mono + 1 = 0 ∨ lag c mono = 1 := by
  rw [observation_startMs, UInt64.ofNat_toNat, WithinMs]
  refine or_congr sub_eq_self (or_congr ?_ ?_)
  · rw [sub_eq_iff_eq_add, add_assoc, left_eq_add, add_comm]
  · rw [sub_add_eq_add_sub, sub_eq_iff_eq_add, add_right_inj, eq_comm]

theorem observation_stable_iff {r r' : Report} (hflow : SameFlow r r') (mono mono' : UInt64) :
    (Emission.mk (anchor c mono) r).observation.startMs =
        (Emission.mk (anchor c mono') r').observation.startMs ↔
      lag c mono = lag c mono' := by
  rw [observation_startMs, observation_startMs, hflow.2, UInt64.toNat_inj]
  exact sub_right_inj

theorem observation_ordered_iff (hle : r.val.firstSeen ≤ r.val.lastSeen) :
    (Emission.mk (anchor c mono) r).observation.startMs ≤
        (Emission.mk (anchor c mono) r).observation.endMs ↔
      ¬((c - lag c mono).toNat + r.val.firstSeen.toNat / 10 ^ 6 < 2 ^ 64 ∧
        2 ^ 64 ≤ (c - lag c mono).toNat + r.val.lastSeen.toNat / 10 ^ 6) := by
  rw [← anchor_eq]
  show ((anchor c mono).toNat + r.val.firstSeen.toNat / 10 ^ 6) % 2 ^ 64 ≤
    ((anchor c mono).toNat + r.val.lastSeen.toNat / 10 ^ 6) % 2 ^ 64 ↔ _
  have hanchor := (anchor c mono).toNat_lt
  have hlast := r.val.lastSeen.toNat_lt
  rw [UInt64.le_iff_toNat_le] at hle
  omega

end Record

/-! ## Whole runs -/

theorem emissions_calls (offsetMs : UInt64) (p : ExportPass) (calls : List Call) :
    emissions offsetMs (p.calls ++ calls) =
      p.reports.map (Emission.mk p.offsetMs) ++ emissions p.offsetMs calls := by
  have hreports : ∀ reports : List Report,
      emissions p.offsetMs (reports.map Call.emit ++ (Call.flush p.exportTimeS :: calls)) =
        reports.map (Emission.mk p.offsetMs) ++ emissions p.offsetMs calls := by
    intro reports
    induction reports with
    | nil => rfl
    | cons r reports ih =>
        rw [List.map_cons, List.cons_append, emissions, ih]
        rfl
  rw [ExportPass.calls, List.append_assoc, List.singleton_append, List.cons_append, emissions,
    hreports]

theorem emissions_passes (offsetMs : UInt64) (passes : List ExportPass) :
    emissions offsetMs (passes.flatMap ExportPass.calls) =
      passes.flatMap fun p => p.reports.map (Emission.mk p.offsetMs) := by
  induction passes generalizing offsetMs with
  | nil => rfl
  | cons p passes ih => rw [List.flatMap_cons, emissions_calls, ih, List.flatMap_cons]

/-- Every record is emitted with the anchor of its pass. -/
theorem mem_emitted {c startMono : UInt64} {passes : List ClockPass} {em : Emission} :
    em ∈ emitted c startMono passes ↔
      ∃ p ∈ passes, ∃ r ∈ p.reports, em = ⟨anchor c p.monoMs, r⟩ := by
  have hemitted : emitted c startMono passes =
      (passes.map (ClockPass.exportPass c)).flatMap
        fun p => p.reports.map (Emission.mk p.offsetMs) :=
    emissions_passes _ _
  rw [hemitted, List.mem_flatMap]
  constructor
  · rintro ⟨exported, hp, hem⟩
    obtain ⟨p, hpass, rfl⟩ := List.mem_map.mp hp
    obtain ⟨r, hr, rfl⟩ := List.mem_map.mp hem
    exact ⟨p, hpass, r, hr, rfl⟩
  · rintro ⟨p, hp, r, hr, rfl⟩
    exact ⟨_, List.mem_map_of_mem hp, List.mem_map_of_mem hr⟩

/-- **Flow timestamps.**  For every distance of the clocks, every start and
every sequence of passes at any times: all records of a flow carry one start
time, within a millisecond of the wall-clock time of its first packet, and no
start after its end, if and only if the passes are steady. -/
theorem times_exact_iff_steady (c startMono : UInt64) (passes : List ClockPass) :
    TimesExact c (emitted c startMono passes) ↔ SteadyPasses c passes := by
  constructor
  · intro h
    have hearly : ∀ p ∈ passes, p.reports ≠ [] →
        (wallMs c p.monoMs).toNat / 1000 < 2 ^ 32 ∧ (p.phase c).toNat ≤ 1 := by
      intro p hp hreports
      obtain ⟨r, hr⟩ := List.exists_mem_of_ne_nil _ hreports
      have hwithin := h.exact _ (mem_emitted.mpr ⟨p, hp, r, hr, rfl⟩)
      exact (lag_small_iff c p.monoMs).mp ((observation_within_iff c p.monoMs r).mp hwithin)
    have hlag : ∀ p ∈ passes, ∀ r ∈ p.reports, lag c p.monoMs = p.phase c := by
      intro p hp r hr
      exact lag_eq_phase (hearly p hp (List.ne_nil_of_mem hr)).1
    refine ⟨hearly, ?_, ?_⟩
    · intro p hp q hq r hr r' hr' hflow
      rw [← hlag p hp r hr, ← hlag q hq r' hr']
      exact (observation_stable_iff c hflow p.monoMs q.monoMs).mp
        (h.stable _ (mem_emitted.mpr ⟨p, hp, r, hr, rfl⟩) _
          (mem_emitted.mpr ⟨q, hq, r', hr', rfl⟩) hflow)
    · intro p hp r hr hle
      rw [← hlag p hp r hr]
      exact (observation_ordered_iff c p.monoMs r hle).mp
        (h.ordered _ (mem_emitted.mpr ⟨p, hp, r, hr, rfl⟩) hle)
  · intro h
    have hlag : ∀ p ∈ passes, ∀ r ∈ p.reports, lag c p.monoMs = p.phase c := by
      intro p hp r hr
      exact lag_eq_phase (h.early p hp (List.ne_nil_of_mem hr)).1
    refine ⟨?_, ?_, ?_⟩
    · intro em hem em' hem' hflow
      obtain ⟨p, hp, r, hr, rfl⟩ := mem_emitted.mp hem
      obtain ⟨q, hq, r', hr', rfl⟩ := mem_emitted.mp hem'
      refine (observation_stable_iff c hflow p.monoMs q.monoMs).mpr ?_
      rw [hlag p hp r hr, hlag q hq r' hr']
      exact h.shared p hp q hq r hr r' hr' hflow
    · intro em hem
      obtain ⟨p, hp, r, hr, rfl⟩ := mem_emitted.mp hem
      exact (observation_within_iff c p.monoMs r).mpr
        ((lag_small_iff c p.monoMs).mpr (h.early p hp (List.ne_nil_of_mem hr)))
    · intro em hem hle
      obtain ⟨p, hp, r, hr, rfl⟩ := mem_emitted.mp hem
      refine (observation_ordered_iff c p.monoMs r hle).mpr ?_
      rw [hlag p hp r hr]
      exact h.unwrapped p hp r hr hle

/-- A flow with its first packet two seconds after boot, reported at `last`
nanoseconds. -/
def demoReport (last : UInt64) : Report :=
  { tcpReport with
    val := { tcpReport.val with firstSeen := 2000000000, lastSeen := last } }

/-- Two passes five seconds apart and then some, the second in the middle of a
second of the wall clock. -/
def driftingPasses : List ClockPass :=
  [⟨5000, [demoReport 4000000000]⟩, ⟨10400, [demoReport 9000000000]⟩]

/-- **The start of a flow moves**: the two records of the flow carry start times
400 milliseconds apart. -/
theorem start_moves_between_passes :
    (emitted 1700000000000 0 driftingPasses).map (fun em => em.observation.startMs) =
        [1700000002000, 1700000001600] ∧
      ¬TimesExact 1700000000000 (emitted 1700000000000 0 driftingPasses) := by
  have hstarts : (emitted 1700000000000 0 driftingPasses).map
      (fun em => em.observation.startMs) = [1700000002000, 1700000001600] := by
    decide +kernel
  refine ⟨hstarts, fun h => ?_⟩
  have hfirst : (⟨1700000000000 - 0, demoReport 4000000000⟩ : Emission) ∈
      emitted 1700000000000 0 driftingPasses :=
    mem_emitted.mpr ⟨_, List.mem_cons_self, _, List.mem_cons_self, by decide +kernel⟩
  have hsecond : (⟨1700000000000 - 400, demoReport 9000000000⟩ : Emission) ∈
      emitted 1700000000000 0 driftingPasses :=
    mem_emitted.mpr ⟨_, List.mem_cons_of_mem _ List.mem_cons_self, _, List.mem_cons_self,
      by decide +kernel⟩
  have hsame := h.stable _ hfirst _ hsecond ⟨rfl, rfl⟩
  exact absurd hsame (by decide +kernel)

end Ipfix
end Obserwrt
