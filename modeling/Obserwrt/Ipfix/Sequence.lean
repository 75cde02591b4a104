import Obserwrt.Ipfix.RoundTrip

/-!
# Sizes and sequence numbers on the wire

What any sequence of calls puts on the wire, read off the bytes alone: the
length fields, the records of a data datagram, and the sequence number, which
counts the records of all datagrams before.
-/

namespace Obserwrt
namespace Ipfix

open Lib

/-! ## Reading a datagram -/

/-- The length in the message header. -/
def wireLength (d : Bytes) : Nat := fieldAt d 2 2

/-- The sequence number in the message header. -/
def wireSequence (d : Bytes) : Nat := fieldAt d 8 4

/-- The id of the first set. -/
def wireSetId (d : Bytes) : Nat := fieldAt d 16 2

/-- The length of the first set, its header included. -/
def wireSetLength (d : Bytes) : Nat := fieldAt d 18 2

/-- The octets of a family's records, from its template. -/
def Family.recordSize (f : Family) : Nat :=
  (f.fields.map fun field => field.2.toNat).sum

/-- The family a data set belongs to. -/
def setFamily (setId : Nat) : Option Family :=
  [Family.v4, Family.v6].find? fun f => f.tid.toNat = setId

/-- The data records of a datagram: the contents of its set, cut at the record
size of the template. -/
def dataRecords (d : Bytes) : List Bytes :=
  (setFamily (wireSetId d)).elim [] fun f =>
    (cut (takeBytes f.recordSize) (d.drop (msgHdr + setHdr))).getD []

/-- The data records of a stream. -/
def recordCount (stream : List Bytes) : Nat :=
  (stream.map fun d => (dataRecords d).length).sum

/-- One set that fills the datagram, with at least one whole record. -/
structure DataFramed (d : Bytes) (f : Family) : Prop where
  hsetId : wireSetId d = f.tid.toNat
  hsetLength : msgHdr + wireSetLength d = d.length
  hne : dataRecords d ≠ []
  hrecords : (dataRecords d).flatten = d.drop (msgHdr + setHdr)
  hsizes : ∀ r ∈ dataRecords d, r.length = f.recordSize

/-- What every datagram of the exporter satisfies. -/
structure Framed (d : Bytes) : Prop where
  hsize : d.length ≤ maxUdp
  hlength : wireLength d = d.length
  hset : wireSetId d = setTemplate.toNat ∨ ∃ f, DataFramed d f

theorem setFamily_tid (f : Family) : setFamily f.tid.toNat = some f := by
  cases f <;> decide

theorem recordSize_pos (f : Family) : 0 < f.recordSize := by
  cases f <;> decide

@[simp] theorem recordCount_nil : recordCount [] = 0 := rfl

@[simp] theorem recordCount_append (s s' : List Bytes) :
    recordCount (s ++ s') = recordCount s + recordCount s' := by
  simp [recordCount]

@[simp] theorem recordCount_singleton (d : Bytes) : recordCount [d] = (dataRecords d).length := by
  simp [recordCount]

/-! ## The messages of the exporter, field by field -/

namespace Exporter

theorem header_length (e : Exporter) (n : Nat) (t : UInt32) : (e.header n t).length = msgHdr := by
  simp [header, msgHdr]

theorem wireLength_header (e : Exporter) (t : UInt32) {n : Nat} (rest : Bytes) (hn : n < 2 ^ 16) :
    wireLength (e.header n t ++ rest) = n := by
  have hat : HasAt (e.header n t ++ rest) 2 (be16 (UInt16.ofNat n)) :=
    ⟨be16 version, be32 t ++ be32 e.seq ++ be32 e.obsDomain ++ rest,
      by simp [header, List.append_assoc], be16_length _⟩
  rw [wireLength, hat.fieldAt (be16_length _), netValue_be16, UInt16.toNat_ofNat_of_lt' hn]

theorem wireSequence_header (e : Exporter) (n : Nat) (t : UInt32) (rest : Bytes) :
    wireSequence (e.header n t ++ rest) = e.seq.toNat := by
  have hat : HasAt (e.header n t ++ rest) 8 (be32 e.seq) :=
    ⟨be16 version ++ be16 (UInt16.ofNat n) ++ be32 t, be32 e.obsDomain ++ rest,
      by simp [header, List.append_assoc], by simp⟩
  rw [wireSequence, hat.fieldAt (be32_length _), netValue_be32]

theorem wireSetId_header (e : Exporter) (n : Nat) (t : UInt32) (setId : UInt16) (rest : Bytes) :
    wireSetId (e.header n t ++ be16 setId ++ rest) = setId.toNat := by
  have hat : HasAt (e.header n t ++ be16 setId ++ rest) 16 (be16 setId) :=
    ⟨e.header n t, rest, rfl, e.header_length n t⟩
  rw [wireSetId, hat.fieldAt (be16_length _), netValue_be16]

variable {f : Family} {chunk : List Bytes}

theorem dataMessage_length (e : Exporter) (t : UInt32) (setId : UInt16) (chunk : List Bytes) :
    (e.dataMessage t setId chunk).length = msgHdr + setHdr + chunk.flatten.length := by
  simp only [dataMessage, List.length_append, header_length, be16_length, msgHdr, setHdr]

theorem dataMessage_wireSetId (e : Exporter) (t : UInt32) (setId : UInt16) (chunk : List Bytes) :
    wireSetId (e.dataMessage t setId chunk) = setId.toNat := by
  rw [dataMessage, List.append_assoc, wireSetId_header]

theorem dataMessage_wireSetLength (e : Exporter) (t : UInt32) (setId : UInt16)
    (hroom : chunk.flatten.length ≤ chunkRoom) :
    wireSetLength (e.dataMessage t setId chunk) = setHdr + chunk.flatten.length := by
  have hbound : chunk.flatten.length ≤ 1180 := hroom
  have hat : HasAt (e.dataMessage t setId chunk) 18
      (be16 (UInt16.ofNat (setHdr + chunk.flatten.length))) :=
    ⟨e.header (msgHdr + setHdr + chunk.flatten.length) t ++ be16 setId, chunk.flatten, rfl,
      by simp [header_length, msgHdr]⟩
  rw [wireSetLength, hat.fieldAt (be16_length _), netValue_be16, UInt16.toNat_ofNat_of_lt']
  show setHdr + chunk.flatten.length < 2 ^ 16
  rw [setHdr]
  omega

theorem dataMessage_drop (e : Exporter) (t : UInt32) (setId : UInt16) (chunk : List Bytes) :
    (e.dataMessage t setId chunk).drop (msgHdr + setHdr) = chunk.flatten := by
  refine List.drop_left' ?_
  simp [header_length, msgHdr, setHdr]

/-- The records of a data message are the chunk it was built from. -/
theorem dataRecords_dataMessage (e : Exporter) (t : UInt32)
    (hsizes : ∀ r ∈ chunk, r.length = f.recordSize) :
    dataRecords (e.dataMessage t f.tid chunk) = chunk := by
  have hcut : cut (takeBytes f.recordSize) (chunk.flatMap id) = some (chunk.map id) := by
    refine cut_flatMap ?_ ?_
    · intro r hr rest
      exact takeBytes_append rest (hsizes r hr)
    · intro r hr hnil
      have hpos := recordSize_pos f
      have hsize : r.length = f.recordSize := hsizes r hr
      rw [id_eq] at hnil
      simp [hnil] at hsize
      omega
  rw [List.flatMap_id, List.map_id] at hcut
  simp only [dataRecords, dataMessage_wireSetId, setFamily_tid, Option.elim_some,
    dataMessage_drop, hcut, Option.getD_some]

theorem dataFramed_dataMessage (e : Exporter) (t : UInt32) (hne : chunk ≠ [])
    (hroom : chunk.flatten.length ≤ chunkRoom) (hsizes : ∀ r ∈ chunk, r.length = f.recordSize) :
    DataFramed (e.dataMessage t f.tid chunk) f := by
  have hrecords := e.dataRecords_dataMessage t hsizes
  constructor
  · exact e.dataMessage_wireSetId t f.tid chunk
  · rw [e.dataMessage_wireSetLength t f.tid hroom, e.dataMessage_length, Nat.add_assoc]
  · rwa [hrecords]
  · rw [hrecords, e.dataMessage_drop]
  · rwa [hrecords]

theorem framed_dataMessage (e : Exporter) (t : UInt32) (hne : chunk ≠ [])
    (hroom : chunk.flatten.length ≤ chunkRoom) (hsizes : ∀ r ∈ chunk, r.length = f.recordSize) :
    Framed (e.dataMessage t f.tid chunk) := by
  have hbound : chunk.flatten.length ≤ 1180 := hroom
  have hlength := e.dataMessage_length t f.tid chunk
  refine ⟨?_, ?_, Or.inr ⟨f, e.dataFramed_dataMessage t hne hroom hsizes⟩⟩
  · rw [hlength, msgHdr, setHdr, maxUdp]
    omega
  · rw [hlength, dataMessage, List.append_assoc, List.append_assoc, wireLength_header]
    rw [msgHdr, setHdr]
    omega

theorem templateMessage_wireSetId (e : Exporter) (t : UInt32) :
    wireSetId (e.templateMessage t) = setTemplate.toNat := by
  have hsets : templateSets.flatMap setBytes =
      be16 setTemplate ++ (templateSets.flatMap setBytes).drop 2 := rfl
  rw [templateMessage]
  generalize 16 + (templateSets.flatMap setBytes).length = n
  rw [hsets, ← List.append_assoc, wireSetId_header]

theorem framed_templateMessage (e : Exporter) (t : UInt32) : Framed (e.templateMessage t) := by
  have hsets : (templateSets.flatMap setBytes).length = 168 := rfl
  refine ⟨?_, ?_, Or.inl (e.templateMessage_wireSetId t)⟩
  · rw [templateMessage, List.length_append, header_length, hsets, msgHdr, maxUdp]
    omega
  · rw [templateMessage, hsets, wireLength_header _ _ _ (by omega), List.length_append,
      header_length, hsets, msgHdr]

theorem dataRecords_templateMessage (e : Exporter) (t : UInt32) :
    dataRecords (e.templateMessage t) = [] := by
  rw [dataRecords, templateMessage_wireSetId]
  rfl

end Exporter

/-! ## What one flush adds -/

/-- The first record of `d'` would not have fitted in `d`. -/
def NoRoomFor (d d' : Bytes) : Prop :=
  ∀ r ∈ (dataRecords d').head?, maxUdp < d.length + r.length

/-- The pending records have the size their template announces. -/
def Exporter.Sized (e : Exporter) : Prop :=
  ∀ f, ∀ r ∈ e.pending f, r.length = f.recordSize

/-- The datagrams a flush adds for one family: whole records, all of the
pending ones in order, and never a datagram cut short. -/
structure FamilySegment (e : Exporter) (f : Family) (ds : List Bytes) : Prop where
  hdata : ∀ d ∈ ds, Framed d ∧ DataFramed d f
  hrecords : ds.flatMap dataRecords = e.pending f
  hgreedy : ds.IsChain NoRoomFor

/-- All datagrams a flush adds: at most one with templates, then the two
families. -/
structure FlushSegment (e : Exporter) (templates : List Bytes) (data : Family → List Bytes) :
    Prop where
  htemplates : ∀ d ∈ templates, wireSetId d = setTemplate.toNat
  hcount : templates.length ≤ 1
  hdata : ∀ f, FamilySegment e f (data f)

/-- A data datagram is its two headers and its records. -/
theorem DataFramed.length_eq {d : Bytes} {f : Family} (h : DataFramed d f) :
    d.length = msgHdr + setHdr + load List.length (dataRecords d) := by
  have hcontents := congrArg List.length h.hrecords
  rw [List.length_drop, ← Exporter.load_length_eq] at hcontents
  have hone : 0 < load List.length (dataRecords d) := by
    obtain ⟨r, rs, hcons⟩ := List.exists_cons_of_ne_nil h.hne
    have hsize := h.hsizes r (by simp [hcons])
    have hpos := recordSize_pos f
    simp only [hcons, load, List.map_cons, List.sum_cons]
    omega
  omega

namespace Exporter

variable {e : Exporter} {f : Family} {chunks : List (List Bytes)}

theorem foldl_sendData_segment (t : UInt32)
    (hboxes : ∀ chunk ∈ chunks, chunk ≠ [] ∧ load List.length chunk ≤ chunkRoom)
    (hsizes : ∀ chunk ∈ chunks, ∀ r ∈ chunk, r.length = f.recordSize) :
    ∃ ds, (chunks.foldl (sendData t f.tid) e).stream = e.stream ++ ds ∧
      ds.map dataRecords = chunks ∧ ∀ d ∈ ds, Framed d ∧ DataFramed d f := by
  induction chunks generalizing e with
  | nil => exact ⟨[], by simp, rfl, by simp⟩
  | cons chunk chunks ih =>
      obtain ⟨hne, hload⟩ := hboxes chunk (by simp)
      have hsize := hsizes chunk (by simp)
      have hroom : chunk.flatten.length ≤ chunkRoom := by rwa [← load_length_eq]
      obtain ⟨ds, hstream, hmap, hds⟩ := ih (e := sendData t f.tid e chunk)
        (fun c hc => hboxes c (by simp [hc])) (fun c hc => hsizes c (by simp [hc]))
      refine ⟨e.dataMessage t f.tid chunk :: ds, ?_, ?_, ?_⟩
      · rw [List.foldl_cons, hstream, sendData_stream, List.append_assoc, List.singleton_append]
      · rw [List.map_cons, hmap, e.dataRecords_dataMessage t hsize]
      · intro d hd
        rcases List.mem_cons.mp hd with rfl | hd
        · exact ⟨e.framed_dataMessage t hne hroom hsize, e.dataFramed_dataMessage t hne hroom hsize⟩
        · exact hds d hd

theorem recordSize_le (f : Family) : f.recordSize ≤ chunkRoom := by
  cases f <;> decide

theorem clear_stream (e : Exporter) (f : Family) : (e.clear f).stream = e.stream := by
  cases f <;> rfl

/-- The chunks of a family: non-empty, within the room of a datagram, and of
whole records. -/
theorem pack_pending (hsized : e.Sized) (f : Family) :
    ∀ chunk ∈ pack List.length chunkRoom (e.pending f),
      (chunk ≠ [] ∧ load List.length chunk ≤ chunkRoom) ∧ ∀ r ∈ chunk, r.length = f.recordSize := by
  have hfits : ∀ r ∈ e.pending f, r.length ≤ chunkRoom := by
    intro r hr
    rw [hsized f r hr]
    exact recordSize_le f
  have hflatten : (pack List.length chunkRoom (e.pending f)).flatten = e.pending f :=
    flatten_pack _
  intro chunk hchunk
  refine ⟨pack_boxes hfits chunk hchunk, ?_⟩
  intro r hr
  apply hsized f
  rw [← hflatten]
  exact List.mem_flatten_of_mem hchunk hr

/-- What `flush_set` adds for one family. -/
theorem flushFamily_segment (t : UInt32) (hsized : e.Sized) (f : Family) :
    ∃ ds, (e.flushFamily t f).stream = e.stream ++ ds ∧ FamilySegment e f ds := by
  obtain ⟨ds, hstream, hmap, hds⟩ := foldl_sendData_segment (e := e) t
    (fun chunk hchunk => (pack_pending hsized f chunk hchunk).1)
    (fun chunk hchunk => (pack_pending hsized f chunk hchunk).2)
  refine ⟨ds, ?_, hds, ?_, ?_⟩
  · rw [flushFamily, clear_stream, flushSet_eq_foldl, hstream]
  · rw [List.flatMap_def, hmap, flatten_pack]
  · -- the packing's greed, with the two headers on top
    have hgreedy : (pack List.length chunkRoom (e.pending f)).IsChain _ := pack_greedy _
    rw [← hmap, List.isChain_map] at hgreedy
    refine List.IsChain.imp_of_mem_imp ?_ hgreedy
    intro d d' hd hd' hroom r hr
    have hlength := (hds d hd).2.length_eq
    have hfull : 1180 < load List.length (dataRecords d) + r.length := hroom r hr
    rw [hlength, maxUdp, msgHdr, setHdr]
    omega

/-- What `flush` sends before the data. -/
def refreshTemplates (e : Exporter) (t : UInt32) : Exporter :=
  if t - e.lastTemplateSentS ≥ templateIntervalS then e.sendTemplates t else e

theorem refreshTemplates_sameBuffers (e : Exporter) (t : UInt32) :
    SameBuffers e (e.refreshTemplates t) := by
  rw [refreshTemplates]
  split
  · exact e.sendTemplates_sameBuffers t
  · exact SameBuffers.refl e

theorem flushFamily_pending (e : Exporter) (t : UInt32) (f : Family) :
    (e.flushFamily t f).pending = Function.update e.pending f [] := by
  rw [flushFamily, clear_pending, (e.flushSet_sameBuffers t f.tid (e.pending f)).pending]

theorem Sized.refreshTemplates (hsized : e.Sized) (t : UInt32) : (e.refreshTemplates t).Sized := by
  rwa [Sized, (e.refreshTemplates_sameBuffers t).pending]

theorem Sized.flushFamily (hsized : e.Sized) (t : UInt32) (f : Family) :
    (e.flushFamily t f).Sized := by
  rw [Sized, flushFamily_pending]
  intro g r hr
  by_cases hg : g = f
  · subst hg
    simp at hr
  · rw [Function.update_of_ne hg] at hr
    exact hsized g r hr

theorem Sized.emit (hsized : e.Sized) (r : Report) : (e.emit r).Sized := by
  intro f r' hr'
  rw [emit_pending] at hr'
  rcases List.mem_append.mp hr' with hr' | hr'
  · exact hsized f r' hr'
  · obtain ⟨em, hem, rfl⟩ := List.mem_map.mp hr'
    have hfamily : em.family = f := by simpa using (List.mem_filter.mp hem).2
    rw [em.record_length, hfamily]
    cases f <;> rfl

theorem Sized.new (connected : Bool) (domain : UInt32) :
    (Exporter.new connected domain).Sized := by
  intro f r hr
  cases f <;> simp [pending, Exporter.new] at hr

theorem emit_stream (e : Exporter) (r : Report) : (e.emit r).stream = e.stream := by
  simp only [emit]
  split <;> rfl

/-- The templates `flush` sends before the data. -/
def dueTemplates (e : Exporter) (t : UInt32) : List Bytes :=
  if t - e.lastTemplateSentS ≥ templateIntervalS then [e.templateMessage t] else []

theorem refreshTemplates_stream (e : Exporter) (t : UInt32) :
    (e.refreshTemplates t).stream = e.stream ++ e.dueTemplates t := by
  rw [refreshTemplates, dueTemplates]
  split
  · exact e.sendTemplates_stream t
  · simp

/-- What one flush adds to the stream. -/
theorem flush_segment (t : UInt32) (hsized : e.Sized) :
    ∃ data, (e.flush t).stream = e.stream ++ (e.dueTemplates t ++ data .v4 ++ data .v6) ∧
      FlushSegment e (e.dueTemplates t) data := by
  have hbuffers := (e.refreshTemplates_sameBuffers t).pending
  obtain ⟨ds4, hstream4, hdata4, hrecords4, hgreedy4⟩ :=
    flushFamily_segment t (hsized.refreshTemplates t) .v4
  obtain ⟨ds6, hstream6, hdata6, hrecords6, hgreedy6⟩ :=
    flushFamily_segment t ((hsized.refreshTemplates t).flushFamily t .v4) .v6
  rw [hbuffers] at hrecords4
  rw [flushFamily_pending, hbuffers] at hrecords6
  refine ⟨fun f => if f = .v4 then ds4 else ds6, ?_, ?_, ?_, ?_⟩
  · show (((e.refreshTemplates t).flushFamily t .v4).flushFamily t .v6).stream =
      e.stream ++ (e.dueTemplates t ++ ds4 ++ ds6)
    rw [hstream6, hstream4, refreshTemplates_stream]
    simp only [List.append_assoc]
  · intro d hd
    rw [dueTemplates] at hd
    split at hd
    · obtain rfl : d = e.templateMessage t := by simpa using hd
      exact e.templateMessage_wireSetId t
    · simp at hd
  · rw [dueTemplates]
    split <;> simp
  · intro f
    cases f with
    | v4 => exact ⟨hdata4, hrecords4, hgreedy4⟩
    | v6 => exact ⟨hdata6, hrecords6, hgreedy6⟩

end Exporter

/-! ## The sequence number over a run -/

/-- Every datagram carries the number of records before it. -/
def Numbered (stream : List Bytes) : Prop :=
  ∀ i d, stream[i]? = some d → wireSequence d = recordCount (stream.take i) % 2 ^ 32

theorem Numbered.concat {stream : List Bytes} {d : Bytes} (h : Numbered stream)
    (hd : wireSequence d = recordCount stream % 2 ^ 32) : Numbered (stream ++ [d]) := by
  intro i d' hget
  rcases Nat.lt_trichotomy i stream.length with hi | hi | hi
  · rw [List.getElem?_append_left hi] at hget
    rw [List.take_append_of_le_length hi.le]
    exact h i d' hget
  · subst hi
    simp only [List.getElem?_concat_length, Option.some.injEq] at hget
    subst hget
    simpa using hd
  · rw [List.getElem?_eq_none (by simp; omega)] at hget
    simp at hget

/-- The stream is numbered, and `seq_` is the next number. -/
structure Ledger (e : Exporter) : Prop where
  hframed : ∀ d ∈ e.stream, Framed d
  hnumbered : Numbered e.stream
  hseq : e.seq.toNat = recordCount e.stream % 2 ^ 32
  hsized : e.Sized

namespace Ledger

variable {e : Exporter} {f : Family}

/-- One datagram that carries the current number. -/
theorem append {e' : Exporter} {d : Bytes} (h : Ledger e) (hstream : e'.stream = e.stream ++ [d])
    (hframed : Framed d) (hsequence : wireSequence d = e.seq.toNat)
    (hseq : e'.seq = e.seq + UInt32.ofNat (dataRecords d).length) (hsized : e'.Sized) :
    Ledger e' where
  hframed := by
    rw [hstream]
    intro d' hd'
    rcases List.mem_append.mp hd' with hd' | hd'
    · exact h.hframed d' hd'
    · rwa [List.mem_singleton.mp hd']
  hnumbered := by
    rw [hstream]
    exact h.hnumbered.concat (hsequence.trans h.hseq)
  hseq := by
    rw [hstream, hseq, UInt32.toNat_add, UInt32.toNat_ofNat', h.hseq, recordCount_append,
      recordCount_singleton]
    omega
  hsized := hsized

theorem sendTemplates (h : Ledger e) (t : UInt32) : Ledger (e.sendTemplates t) := by
  refine h.append (e.sendTemplates_stream t) (e.framed_templateMessage t)
    (e.wireSequence_header _ t _) ?_ ?_
  · rw [e.dataRecords_templateMessage, e.sendTemplates_eq]
    simp only [Exporter.send]
    split <;> simp
  · rw [Exporter.Sized, (e.sendTemplates_sameBuffers t).pending]
    exact h.hsized

theorem sendData {chunk : List Bytes} (h : Ledger e) (t : UInt32) (hne : chunk ≠ [])
    (hroom : load List.length chunk ≤ Exporter.chunkRoom)
    (hsizes : ∀ r ∈ chunk, r.length = f.recordSize) :
    Ledger (Exporter.sendData t f.tid e chunk) := by
  rw [Exporter.load_length_eq] at hroom
  refine h.append (Exporter.sendData_stream t f.tid e chunk)
    (e.framed_dataMessage t hne hroom hsizes) ?_ ?_ ?_
  · rw [Exporter.dataMessage, List.append_assoc, List.append_assoc, e.wireSequence_header]
  · rw [e.dataRecords_dataMessage t hsizes]
    rfl
  · rw [Exporter.Sized, (Exporter.sendData_sameBuffers t f.tid e chunk).pending]
    exact h.hsized

theorem foldl_sendData {chunks : List (List Bytes)} (h : Ledger e) (t : UInt32)
    (hchunks : ∀ chunk ∈ chunks, (chunk ≠ [] ∧ load List.length chunk ≤ Exporter.chunkRoom) ∧
      ∀ r ∈ chunk, r.length = f.recordSize) :
    Ledger (chunks.foldl (Exporter.sendData t f.tid) e) := by
  induction chunks generalizing e with
  | nil => exact h
  | cons chunk chunks ih =>
      obtain ⟨⟨hne, hroom⟩, hsizes⟩ := hchunks chunk (by simp)
      exact ih (h.sendData t hne hroom hsizes) fun c hc => hchunks c (by simp [hc])

/-- Only the stream and the number matter, beside the sizes of what is pending. -/
theorem congr {e' : Exporter} (h : Ledger e) (hstream : e'.stream = e.stream)
    (hseq : e'.seq = e.seq) (hsized : e'.Sized) : Ledger e' where
  hframed := by rw [hstream]; exact h.hframed
  hnumbered := by rw [hstream]; exact h.hnumbered
  hseq := by rw [hstream, hseq]; exact h.hseq
  hsized := hsized

theorem flushFamily (h : Ledger e) (t : UInt32) (f : Family) : Ledger (e.flushFamily t f) := by
  have hset : Ledger (e.flushSet t f.tid (e.pending f)) := by
    rw [Exporter.flushSet_eq_foldl]
    exact h.foldl_sendData t (Exporter.pack_pending h.hsized f)
  refine hset.congr (Exporter.clear_stream _ f) ?_ (h.hsized.flushFamily t f)
  cases f <;> rfl

theorem flush (h : Ledger e) (t : UInt32) : Ledger (e.flush t) := by
  have hrefresh : Ledger (e.refreshTemplates t) := by
    rw [Exporter.refreshTemplates]
    split
    · exact h.sendTemplates t
    · exact h
  exact (hrefresh.flushFamily t .v4).flushFamily t .v6

theorem emit (h : Ledger e) (r : Report) : Ledger (e.emit r) := by
  refine h.congr (e.emit_stream r) ?_ (h.hsized.emit r)
  simp only [Exporter.emit]
  split <;> rfl

theorem call (h : Ledger e) (c : Call) : Ledger (e.call c) := by
  cases c with
  | setEpoch t offsetMs => exact h.congr rfl rfl h.hsized
  | setOffsetMs offsetMs => exact h.congr rfl rfl h.hsized
  | sendTemplates t => exact h.sendTemplates t
  | emit r => exact h.emit r
  | flush t => exact h.flush t

theorem new (connected : Bool) (domain : UInt32) : Ledger (Exporter.new connected domain) where
  hframed := by cases connected <;> simp [Exporter.stream, Exporter.new]
  hnumbered := by
    intro i d hget
    cases connected <;> simp [Exporter.stream, Exporter.new] at hget
  hseq := by cases connected <;> rfl
  hsized := Exporter.Sized.new connected domain

end Ledger

def Call.isEmit : Call → Bool
  | .emit _ => true
  | _ => false

def Call.isFlush : Call → Bool
  | .flush _ => true
  | _ => false

/-- The records flushed by a sequence of calls: the emits that a flush follows. -/
def flushedCount (calls : List Call) : Nat :=
  (calls.reverse.dropWhile fun c => !c.isFlush).countP Call.isEmit

theorem flushedCount_concat (calls : List Call) (c : Call) :
    flushedCount (calls ++ [c]) =
      if c.isFlush then calls.countP Call.isEmit else flushedCount calls := by
  cases c <;> simp [flushedCount, Call.isFlush, Call.isEmit]

/-- The records not yet flushed. -/
def Exporter.pendingCount (e : Exporter) : Nat :=
  (e.pending .v4).length + (e.pending .v6).length

theorem Exporter.SameBuffers.pendingCount {e e' : Exporter} (h : SameBuffers e e') :
    e'.pendingCount = e.pendingCount := by
  rw [Exporter.pendingCount, h.pending, Exporter.pendingCount]

theorem Exporter.emit_pendingCount (e : Exporter) (r : Report) :
    (e.emit r).pendingCount = e.pendingCount + 1 := by
  rw [pendingCount, pendingCount]
  by_cases hfamily : r.key.family = 4
  · simp [emit, pending, hfamily]
    omega
  · simp [emit, pending, hfamily]
    omega

theorem FamilySegment.recordCount_eq {e : Exporter} {f : Family} {ds : List Bytes}
    (h : FamilySegment e f ds) : recordCount ds = (e.pending f).length := by
  rw [← h.hrecords, List.length_flatMap, recordCount]

/-- A flush sends every pending record. -/
theorem Exporter.flush_recordCount {e : Exporter} (t : UInt32) (hsized : e.Sized) :
    recordCount (e.flush t).stream = recordCount e.stream + e.pendingCount := by
  obtain ⟨data, hstream, htemplates, -, hdata⟩ := flush_segment t hsized
  have hnone : recordCount (e.dueTemplates t) = 0 := by
    refine List.sum_eq_zero ?_
    intro n hn
    obtain ⟨d, hd, rfl⟩ := List.mem_map.mp hn
    rw [dataRecords, htemplates d hd]
    rfl
  rw [hstream, recordCount_append, recordCount_append, recordCount_append, hnone,
    (hdata .v4).recordCount_eq, (hdata .v6).recordCount_eq, pendingCount, Nat.zero_add]

theorem Exporter.flush_pendingCount (e : Exporter) (t : UInt32) : (e.flush t).pendingCount = 0 := by
  rw [pendingCount, flush_eq, flushFamily_pending, flushFamily_pending]
  simp

/-- Where every record of a run is. -/
structure Accounts (history : List Call) (e : Exporter) : Prop where
  hledger : Ledger e
  hflushed : recordCount e.stream = flushedCount history
  hpending : flushedCount history + e.pendingCount = history.countP Call.isEmit

/-- A call that neither emits nor flushes moves no record. -/
theorem Accounts.quiet {history : List Call} {e e' : Exporter} {c : Call} (h : Accounts history e)
    (hemit : c.isEmit = false) (hflush : c.isFlush = false) (hledger : Ledger e')
    (hcount : recordCount e'.stream = recordCount e.stream)
    (hpending : e'.pendingCount = e.pendingCount) : Accounts (history ++ [c]) e' where
  hledger := hledger
  hflushed := by simp [flushedCount_concat, hflush, hcount, h.hflushed]
  hpending := by simp [flushedCount_concat, hflush, hpending, h.hpending, hemit]

theorem Accounts.call {history : List Call} {e : Exporter} (h : Accounts history e) (c : Call) :
    Accounts (history ++ [c]) (e.call c) := by
  have hledger := h.hledger.call c
  have hflushed := h.hflushed
  have hpending := h.hpending
  cases c with
  | setEpoch t offsetMs => exact h.quiet rfl rfl hledger rfl rfl
  | setOffsetMs offsetMs => exact h.quiet rfl rfl hledger rfl rfl
  | sendTemplates t =>
      refine h.quiet rfl rfl hledger ?_ (e.sendTemplates_sameBuffers t).pendingCount
      rw [Exporter.call, e.sendTemplates_stream, recordCount_append, recordCount_singleton,
        e.dataRecords_templateMessage, List.length_nil, Nat.add_zero]
  | emit r =>
      refine ⟨hledger, ?_, ?_⟩
      · rw [flushedCount_concat, Exporter.call, e.emit_stream]
        exact hflushed
      · rw [flushedCount_concat, Exporter.call, e.emit_pendingCount, List.countP_append]
        show flushedCount history + (e.pendingCount + 1) = history.countP Call.isEmit + 1
        omega
  | flush t =>
      refine ⟨hledger, ?_, ?_⟩
      · rw [flushedCount_concat, Exporter.call, Exporter.flush_recordCount t h.hledger.hsized]
        show recordCount e.stream + e.pendingCount = history.countP Call.isEmit
        omega
      · rw [flushedCount_concat, Exporter.call, e.flush_pendingCount, List.countP_append]
        rfl

theorem accounts_run (connected : Bool) (domain : UInt32) (calls : List Call) :
    Accounts calls (calls.foldl Exporter.call (Exporter.new connected domain)) := by
  refine foldl_invariant ⟨Ledger.new connected domain, ?_, rfl⟩ (fun _ _ c h => h.call c) calls
  cases connected <;> rfl

/-- Sizes and sequence numbers over any sequence of calls on a new exporter:
every datagram is framed, the sequence number counts the records before it,
and what a flush adds after any calls `before` is never cut short. -/
theorem stream_framed_and_numbered (connected : Bool) (domain : UInt32) (calls : List Call) :
    let run := fun cs : List Call => cs.foldl Exporter.call (Exporter.new connected domain)
    (∀ d ∈ (run calls).stream, Framed d) ∧
      (∀ i d, (run calls).stream[i]? = some d →
        wireSequence d = recordCount ((run calls).stream.take i) % 2 ^ 32) ∧
      recordCount (run calls).stream = flushedCount calls ∧
      (run calls).seq.toNat = flushedCount calls % 2 ^ 32 ∧
      ∀ before t, ∃ templates data, FlushSegment (run before) templates data ∧
        (run (before ++ [Call.flush t])).stream =
          (run before).stream ++ (templates ++ data .v4 ++ data .v6) := by
  intro run
  have hrun : ∀ cs, Accounts cs (run cs) := accounts_run connected domain
  obtain ⟨⟨hframed, hnumbered, hseq, -⟩, hflushed, -⟩ := hrun calls
  refine ⟨hframed, hnumbered, hflushed, ?_, ?_⟩
  · rw [hseq, hflushed]
  · intro before t
    obtain ⟨data, hstream, hsegment⟩ := Exporter.flush_segment t (hrun before).hledger.hsized
    refine ⟨(run before).dueTemplates t, data, hsegment, ?_⟩
    rw [← hstream]
    simp only [run, List.foldl_append, List.foldl_cons, List.foldl_nil, Exporter.call]

end Ipfix
end Obserwrt
