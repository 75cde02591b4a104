import Obserwrt.Ipfix.Sequence

/-!
# Templates on the wire are fresh

The agent calls `set_epoch` and `send_templates` with one time at the start and
then makes passes, each with a wall-clock time of its own.  Whatever the clock
does between them, a data datagram finds its template in the stream before it,
less than one template interval old in the exporter's 32-bit arithmetic.
-/

namespace Obserwrt
namespace Ipfix

open Lib

/-! ## Reading times and templates off the stream -/

/-- The export time in the message header. -/
def wireTime (d : Bytes) : Nat := fieldAt d 4 4

/-- The observation domain in the message header. -/
def wireDomain (d : Bytes) : Nat := fieldAt d 12 4

/-- A collector that knows nothing learns the template `setId` from `d`. -/
def definesSet (setId : Nat) (d : Bytes) : Bool :=
  (collectMessage ∅ d).elim false fun learnt =>
    (learnt.1.lookup (wireDomain d, setId)).isSome

/-- The last datagram of a stream that defines `setId`. -/
def lastTemplate (stream : List Bytes) (setId : Nat) : Option Bytes :=
  stream.reverse.find? (definesSet setId)

/-- The 32-bit distance from `s` to `t`. -/
def elapsed (s t : Nat) : Nat := (t + 2 ^ 32 - s) % 2 ^ 32

/-- Every data datagram follows a definition of its set that is less than
`interval` old. -/
def FreshStream (interval : Nat) (stream : List Bytes) : Prop :=
  ∀ before d after, stream = before ++ d :: after → wireSetId d ≠ setTemplate.toNat →
    ∃ s, lastTemplate before (wireSetId d) = some s ∧ elapsed (wireTime s) (wireTime d) < interval

theorem lastTemplate_concat (stream : List Bytes) (d : Bytes) (setId : Nat) :
    lastTemplate (stream ++ [d]) setId =
      if definesSet setId d then some d else lastTemplate stream setId := by
  rw [lastTemplate, List.reverse_append, List.reverse_singleton, List.singleton_append,
    List.find?_cons]
  cases definesSet setId d <;> rfl

theorem FreshStream.concat {interval : Nat} {stream : List Bytes} {d : Bytes}
    (h : FreshStream interval stream)
    (hd : wireSetId d ≠ setTemplate.toNat → ∃ s, lastTemplate stream (wireSetId d) = some s ∧
      elapsed (wireTime s) (wireTime d) < interval) :
    FreshStream interval (stream ++ [d]) := by
  intro before x after hsplit hx
  -- `x` is the new datagram, or stood in the stream already
  rcases List.eq_nil_or_concat after with rfl | ⟨after, y, rfl⟩
  · obtain ⟨rfl, hlast⟩ := List.append_inj' hsplit rfl
    obtain rfl : d = x := by simpa using hlast
    exact hd hx
  · rw [List.concat_eq_append, ← List.cons_append, ← List.append_assoc] at hsplit
    obtain ⟨hstream, -⟩ := List.append_inj' hsplit rfl
    exact h before x after hstream hx

theorem toNat_sub_eq_elapsed (t s : UInt32) : (t - s).toNat = elapsed s.toNat t.toNat := by
  have hs := s.toNat_lt
  rw [UInt32.toNat_sub, elapsed]
  omega

namespace Exporter

theorem wireTime_header (e : Exporter) (n : Nat) (t : UInt32) (rest : Bytes) :
    wireTime (e.header n t ++ rest) = t.toNat := by
  have hat : HasAt (e.header n t ++ rest) 4 (be32 t) :=
    ⟨be16 version ++ be16 (UInt16.ofNat n), be32 e.seq ++ be32 e.obsDomain ++ rest,
      by simp [header, List.append_assoc], by simp⟩
  rw [wireTime, hat.fieldAt (be32_length _), netValue_be32]

theorem wireDomain_header (e : Exporter) (n : Nat) (t : UInt32) (rest : Bytes) :
    wireDomain (e.header n t ++ rest) = e.obsDomain.toNat := by
  have hat : HasAt (e.header n t ++ rest) 12 (be32 e.obsDomain) :=
    ⟨be16 version ++ be16 (UInt16.ofNat n) ++ be32 t ++ be32 e.seq, rest,
      by simp [header, List.append_assoc], by simp⟩
  rw [wireDomain, hat.fieldAt (be32_length _), netValue_be32]

theorem dataMessage_wireTime (e : Exporter) (t : UInt32) (setId : UInt16) (chunk : List Bytes) :
    wireTime (e.dataMessage t setId chunk) = t.toNat := by
  rw [dataMessage, List.append_assoc, List.append_assoc, wireTime_header]

/-- A template message defines both sets. -/
theorem definesSet_templateMessage (e : Exporter) (t : UInt32) (f : Family) :
    definesSet f.tid.toNat (e.templateMessage t) = true := by
  have hdomain : wireDomain (e.templateMessage t) = e.obsDomain.toNat := e.wireDomain_header _ t _
  rw [definesSet, hdomain, e.collectMessage_templateMessage, Option.elim_some,
    Store.lookup_insert_eq, Store.lookup_insert_eq]
  cases f <;> simp [Family.tid, ipv4Tid, ipv6Tid]

/-- A data message defines nothing. -/
theorem definesSet_dataMessage (e : Exporter) (t : UInt32) (f : Family) (setId : Nat)
    {chunk : List Bytes} (hroom : chunk.flatten.length ≤ chunkRoom) :
    definesSet setId (e.dataMessage t f.tid chunk) = false := by
  have htid : f.tid.toNat ≠ 2 := by cases f <;> decide
  have hnone : collectMessage ∅ (e.dataMessage t f.tid chunk) = none := by
    rw [collectMessage, e.parseMessage_dataMessage t f.tid hroom]
    simp [transduce, collectSet, htid]
  rw [definesSet, hnone, Option.elim_none]

end Exporter

/-! ## One call at a time -/

theorem Exporter.sendData_timer (t : UInt32) (setId : UInt16) (e : Exporter)
    (chunk : List Bytes) :
    (sendData t setId e chunk).lastTemplateSentS = e.lastTemplateSentS := by
  simp only [sendData, send]
  split <;> rfl

theorem Exporter.emit_timer (e : Exporter) (r : Report) :
    (e.emit r).lastTemplateSentS = e.lastTemplateSentS := by
  simp only [emit]
  split <;> rfl

/-- The stream is fresh, and the timer is the time of the last templates. -/
structure Fresh (e : Exporter) : Prop where
  hstream : FreshStream templateIntervalS.toNat e.stream
  htimer : ∀ f : Family, ∃ s, lastTemplate e.stream f.tid.toNat = some s ∧
    wireTime s = e.lastTemplateSentS.toNat
  hsized : e.Sized

namespace Fresh

variable {e e' : Exporter} {f : Family}

theorem congr (h : Fresh e) (hstream : e'.stream = e.stream)
    (htimer : e'.lastTemplateSentS = e.lastTemplateSentS) (hsized : e'.Sized) : Fresh e' where
  hstream := by rw [hstream]; exact h.hstream
  htimer := by rw [hstream, htimer]; exact h.htimer
  hsized := hsized

/-- Templates on any stream that is fresh so far. -/
theorem sendTemplates_of_stream (t : UInt32) (hsized : e.Sized)
    (hstream : FreshStream templateIntervalS.toNat e.stream) : Fresh (e.sendTemplates t) where
  hstream := by
    rw [e.sendTemplates_stream]
    refine hstream.concat fun hdata => ?_
    exact absurd (e.templateMessage_wireSetId t) hdata
  htimer := by
    intro f
    refine ⟨e.templateMessage t, ?_, ?_⟩
    · rw [e.sendTemplates_stream, lastTemplate_concat, e.definesSet_templateMessage, if_pos rfl]
    · rw [e.sendTemplates_eq]
      exact e.wireTime_header _ t _
  hsized := by rwa [Exporter.Sized, (e.sendTemplates_sameBuffers t).pending]

/-- One data datagram, sent before the templates are due. -/
theorem sendData {chunk : List Bytes} {t : UInt32} (h : Fresh e)
    (hdue : t - e.lastTemplateSentS < templateIntervalS)
    (hroom : load List.length chunk ≤ Exporter.chunkRoom) :
    Fresh (Exporter.sendData t f.tid e chunk) := by
  rw [Exporter.load_length_eq] at hroom
  have hundefined := fun setId => e.definesSet_dataMessage t f setId hroom
  constructor
  · rw [Exporter.sendData_stream]
    refine h.hstream.concat fun _ => ?_
    obtain ⟨s, hlast, htime⟩ := h.htimer f
    refine ⟨s, ?_, ?_⟩
    · rw [e.dataMessage_wireSetId, hlast]
    · rw [e.dataMessage_wireTime, htime, ← toNat_sub_eq_elapsed]
      exact UInt32.lt_iff_toNat_lt.mp hdue
  · intro g
    rw [Exporter.sendData_stream, lastTemplate_concat, hundefined, if_neg Bool.false_ne_true,
      Exporter.sendData_timer]
    exact h.htimer g
  · rw [Exporter.Sized, (Exporter.sendData_sameBuffers t f.tid e chunk).pending]
    exact h.hsized

theorem foldl_sendData {chunks : List (List Bytes)} {t : UInt32} (h : Fresh e)
    (hdue : t - e.lastTemplateSentS < templateIntervalS)
    (hroom : ∀ chunk ∈ chunks, load List.length chunk ≤ Exporter.chunkRoom) :
    Fresh (chunks.foldl (Exporter.sendData t f.tid) e) ∧
      (chunks.foldl (Exporter.sendData t f.tid) e).lastTemplateSentS = e.lastTemplateSentS := by
  induction chunks generalizing e with
  | nil => exact ⟨h, rfl⟩
  | cons chunk chunks ih =>
      have htimer := Exporter.sendData_timer t f.tid e chunk
      have hfirst : Fresh (Exporter.sendData t f.tid e chunk) :=
        h.sendData hdue (hroom chunk (by simp))
      have hrest := ih hfirst (by rwa [htimer]) fun c hc => hroom c (by simp [hc])
      rwa [htimer] at hrest

theorem flushFamily {t : UInt32} (h : Fresh e)
    (hdue : t - e.lastTemplateSentS < templateIntervalS) (f : Family) :
    Fresh (e.flushFamily t f) ∧
      (e.flushFamily t f).lastTemplateSentS = e.lastTemplateSentS := by
  obtain ⟨hfresh, htimer⟩ := h.foldl_sendData hdue fun chunk hchunk =>
    (Exporter.pack_pending h.hsized f chunk hchunk).1.2
  rw [← Exporter.flushSet_eq_foldl] at hfresh htimer
  have hclear : (e.flushFamily t f).lastTemplateSentS =
      (e.flushSet t f.tid (e.pending f)).lastTemplateSentS := by
    cases f <;> rfl
  exact ⟨hfresh.congr (Exporter.clear_stream _ f) hclear (h.hsized.flushFamily t f),
    hclear.trans htimer⟩

/-- A flush retransmits the templates that are due, so what it sends after
them is not. -/
theorem refreshTemplates (h : Fresh e) (t : UInt32) :
    Fresh (e.refreshTemplates t) ∧
      t - (e.refreshTemplates t).lastTemplateSentS < templateIntervalS := by
  rw [Exporter.refreshTemplates]
  split
  case isTrue hdue =>
    refine ⟨sendTemplates_of_stream t h.hsized h.hstream, ?_⟩
    show t - t < templateIntervalS
    rw [UInt32.sub_self]
    decide
  case isFalse hdue => exact ⟨h, UInt32.not_le.mp hdue⟩

theorem flush (h : Fresh e) (t : UInt32) : Fresh (e.flush t) := by
  obtain ⟨hrefresh, hdue⟩ := h.refreshTemplates t
  obtain ⟨h4, htimer⟩ := hrefresh.flushFamily hdue .v4
  exact (h4.flushFamily (by rwa [htimer]) .v6).1

theorem emit (h : Fresh e) (r : Report) : Fresh (e.emit r) :=
  h.congr (e.emit_stream r) (e.emit_timer r) (h.hsized.emit r)

end Fresh

/-! ## Whole runs -/

/-- One pass of the agent, as its exporter sees it. -/
structure ExportPass where
  offsetMs : UInt64
  reports : List Report
  exportTimeS : UInt32
  deriving DecidableEq

/-- The calls of one pass. -/
def ExportPass.calls (p : ExportPass) : List Call :=
  Call.setOffsetMs p.offsetMs :: p.reports.map Call.emit ++ [Call.flush p.exportTimeS]

/-- The calls of `main`: the start, then the passes. -/
def mainCalls (startS : UInt32) (offsetMs : UInt64) (passes : List ExportPass) : List Call :=
  [Call.setEpoch startS offsetMs, Call.sendTemplates startS] ++ passes.flatMap ExportPass.calls

/-- The exporter of a pass before its flush. -/
def ExportPass.fill (p : ExportPass) (e : Exporter) : Exporter :=
  (p.reports.map Call.emit).foldl Exporter.call (e.setOffsetMs p.offsetMs)

theorem ExportPass.foldl_calls (p : ExportPass) (e : Exporter) :
    p.calls.foldl Exporter.call e = (p.fill e).flush p.exportTimeS := by
  rw [calls, List.foldl_append, List.foldl_cons]
  rfl

theorem mainCalls_concat (startS : UInt32) (offsetMs : UInt64) (passes : List ExportPass)
    (p : ExportPass) :
    mainCalls startS offsetMs (passes ++ [p]) = mainCalls startS offsetMs passes ++ p.calls := by
  simp [mainCalls]

/-- Emitting puts nothing on the wire. -/
theorem foldl_emit_stream (reports : List Report) (e : Exporter) :
    ((reports.map Call.emit).foldl Exporter.call e).stream = e.stream := by
  induction reports generalizing e with
  | nil => rfl
  | cons r reports ih => exact (ih (e.emit r)).trans (e.emit_stream r)

theorem Fresh.foldl_emit {e : Exporter} (h : Fresh e) (reports : List Report) :
    Fresh ((reports.map Call.emit).foldl Exporter.call e) := by
  induction reports generalizing e with
  | nil => exact h
  | cons r reports ih => exact ih (h.emit r)

/-- `set_offset_ms` leaves the timer alone, and so do the reports. -/
theorem Fresh.fill {e : Exporter} (h : Fresh e) (p : ExportPass) : Fresh (p.fill e) := by
  have hoffset : Fresh (e.setOffsetMs p.offsetMs) := h.congr rfl rfl h.hsized
  exact hoffset.foldl_emit p.reports

theorem fresh_run (connected : Bool) (domain startS : UInt32) (offsetMs : UInt64)
    (passes : List ExportPass) :
    Fresh ((mainCalls startS offsetMs passes).foldl Exporter.call
      (Exporter.new connected domain)) := by
  induction passes using List.reverseRecOn with
  | nil =>
      refine Fresh.sendTemplates_of_stream startS (Exporter.Sized.new connected domain) ?_
      intro before d after hsplit
      cases connected <;>
        simp [Exporter.stream, Exporter.new, Exporter.call, Exporter.setEpoch] at hsplit
  | append_singleton passes p ih =>
      rw [mainCalls_concat, List.foldl_append, p.foldl_calls]
      exact (ih.fill p).flush p.exportTimeS

/-- A flush retransmits exactly when the last templates on the wire are due. -/
theorem Fresh.flush_retransmits {e : Exporter} (h : Fresh e) (t : UInt32) :
    ∃ added, (e.flush t).stream = e.stream ++ added ∧
      ∀ f : Family, ∃ s, lastTemplate e.stream f.tid.toNat = some s ∧
        ((∃ d ∈ added, wireSetId d = setTemplate.toNat) ↔
          templateIntervalS.toNat ≤ elapsed (wireTime s) t.toNat) := by
  obtain ⟨data, hstream, -, -, hdata⟩ := Exporter.flush_segment t h.hsized
  have hnotTemplate : ∀ f, ∀ d ∈ data f, wireSetId d ≠ setTemplate.toNat := by
    intro f d hd
    rw [((hdata f).hdata d hd).2.hsetId]
    cases f <;> decide
  refine ⟨_, hstream, ?_⟩
  intro f
  obtain ⟨s, hlast, htime⟩ := h.htimer f
  refine ⟨s, hlast, ?_⟩
  rw [htime, ← toNat_sub_eq_elapsed, ← UInt32.le_iff_toNat_le]
  constructor
  · rintro ⟨d, hd, htemplate⟩
    have hdue : d ∈ e.dueTemplates t := by
      rcases List.mem_append.mp hd with hd | hd
      · rcases List.mem_append.mp hd with hd | hd
        · exact hd
        · exact absurd htemplate (hnotTemplate .v4 d hd)
      · exact absurd htemplate (hnotTemplate .v6 d hd)
    by_contra hnot
    rw [Exporter.dueTemplates, if_neg hnot] at hdue
    simp at hdue
  · intro hdue
    refine ⟨e.templateMessage t, ?_, e.templateMessage_wireSetId t⟩
    rw [Exporter.dueTemplates, if_pos hdue]
    simp

/-- Over every run in `main`'s order and every clock: data is sent only under
templates that are known and less than one interval old, and each pass
retransmits exactly when the templates on the wire are due, whatever offset it
sets. -/
theorem templates_known_and_fresh (connected : Bool) (domain startS : UInt32) (offsetMs : UInt64)
    (passes : List ExportPass) :
    let run := fun ps : List ExportPass =>
      (mainCalls startS offsetMs ps).foldl Exporter.call (Exporter.new connected domain)
    FreshStream 60 (run passes).stream ∧
      ∀ p, ∃ added, (run (passes ++ [p])).stream = (run passes).stream ++ added ∧
        ∀ f : Family, ∃ s, lastTemplate (run passes).stream f.tid.toNat = some s ∧
          ((∃ d ∈ added, wireSetId d = setTemplate.toNat) ↔
            60 ≤ elapsed (wireTime s) p.exportTimeS.toNat) := by
  intro run
  have hrun : Fresh (run passes) := fresh_run connected domain startS offsetMs passes
  refine ⟨hrun.hstream, ?_⟩
  intro p
  have hnext : run (passes ++ [p]) = (p.fill (run passes)).flush p.exportTimeS := by
    show (mainCalls startS offsetMs (passes ++ [p])).foldl Exporter.call _ = _
    rw [mainCalls_concat, List.foldl_append, p.foldl_calls]
  have hfilled : (p.fill (run passes)).stream = (run passes).stream :=
    foldl_emit_stream p.reports _
  obtain ⟨added, hstream, hdue⟩ := (hrun.fill p).flush_retransmits p.exportTimeS
  rw [hfilled] at hstream hdue
  exact ⟨added, by rw [hnext, hstream], hdue⟩

end Ipfix
end Obserwrt
