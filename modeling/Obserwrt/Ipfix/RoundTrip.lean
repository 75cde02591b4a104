import Mathlib.Data.List.Flatten
import Obserwrt.Ipfix.Wire

/-!
# The collector recovers what was emitted

Over any sequence of calls that starts with `set_epoch` and `send_templates`,
the stream is collected without an error, and the records received so far with
the records still pending are, family by family and in order, the reports
emitted so far.  A closing flush leaves nothing pending.
-/

namespace Obserwrt
namespace Ipfix

open Lib

/-! ## Emissions -/

/-- The two templates of the exporter. -/
inductive Family
  | v4
  | v6
  deriving DecidableEq

def Family.tid : Family → UInt16
  | .v4 => ipv4Tid
  | .v6 => ipv6Tid

def Family.fields : Family → List (UInt16 × UInt16)
  | .v4 => fieldsV4
  | .v6 => fieldsV6

/-- The pending records of a family. -/
def Exporter.pending (e : Exporter) : Family → List Bytes
  | .v4 => e.pending4
  | .v6 => e.pending6

theorem Exporter.SameBuffers.pending {e e' : Exporter} (h : SameBuffers e e') :
    e'.pending = e.pending := by
  funext f
  cases f with
  | v4 => exact h.pending4
  | v6 => exact h.pending6

/-- Empty one of the pending lists. -/
def Exporter.clear (e : Exporter) : Family → Exporter
  | .v4 => { e with pending4 := [] }
  | .v6 => { e with pending6 := [] }

theorem Exporter.clear_pending (e : Exporter) (f : Family) :
    (e.clear f).pending = Function.update e.pending f [] := by
  funext g
  cases f <;> cases g <;> rfl

/-- The part of `flush` for one family. -/
def Exporter.flushFamily (e : Exporter) (t : UInt32) (f : Family) : Exporter :=
  (e.flushSet t f.tid (e.pending f)).clear f

theorem Exporter.flush_eq (e : Exporter) (t : UInt32) :
    e.flush t = ((if t - e.lastTemplateSentS ≥ templateIntervalS then e.sendTemplates t
      else e).flushFamily t .v4).flushFamily t .v6 :=
  rfl

theorem Exporter.flushFamily_offsetMs (e : Exporter) (t : UInt32) (f : Family) :
    (e.flushFamily t f).offsetMs = e.offsetMs := by
  rw [← (e.flushSet_sameBuffers t f.tid (e.pending f)).offsetMs]
  cases f <;> rfl

theorem Exporter.flush_offsetMs (e : Exporter) (t : UInt32) :
    (e.flush t).offsetMs = e.offsetMs := by
  rw [flush_eq, flushFamily_offsetMs, flushFamily_offsetMs]
  split
  · exact (e.sendTemplates_sameBuffers t).offsetMs
  · rfl

/-- A report with the offset in force when it was emitted. -/
structure Emission where
  offsetMs : UInt64
  report : Report
  deriving DecidableEq

/-- The emissions of a sequence of calls, from a given offset on. -/
def emissions : UInt64 → List Call → List Emission
  | _, [] => []
  | _, .setEpoch _ offsetMs :: calls => emissions offsetMs calls
  | _, .setOffsetMs offsetMs :: calls => emissions offsetMs calls
  | offsetMs, .sendTemplates _ :: calls => emissions offsetMs calls
  | offsetMs, .emit r :: calls => { offsetMs := offsetMs, report := r } :: emissions offsetMs calls
  | offsetMs, .flush _ :: calls => emissions offsetMs calls

/-- An address field that holds an IPv4 address. -/
def IsMapped (a : Addr) : Prop :=
  a.toList.take 12 = mappedNet

/-- What the agent's keys satisfy: a direction, and a family that fits the
addresses. -/
structure Report.Valid (r : Report) : Prop where
  hdirection : r.key.direction = 0 ∨ r.key.direction = 1
  hfamily : (r.key.family = 4 ∧ IsMapped r.key.src ∧ IsMapped r.key.dst) ∨ r.key.family = 6

namespace Emission

/-- The list a report is put into. -/
def family (em : Emission) : Family :=
  if em.report.key.family = 4 then .v4 else .v6

def record (em : Emission) : Bytes :=
  em.report.record em.offsetMs

/-- What an emission reports, in plain numbers. -/
def observation (em : Emission) : Observation :=
  let k := em.report.key
  let v := em.report.val
  { family := k.family.toNat
    src := k.src.toList
    dst := k.dst.toList
    sport := k.sport.toNat
    dport := k.dport.toNat
    protocol := k.protocol.toNat
    packets := (em.report.delta.elim v.packets Delta.packets).toNat
    bytes := (em.report.delta.elim v.bytes Delta.bytes).toNat
    startMs := (em.offsetMs.toNat + v.firstSeen.toNat / 10 ^ 6) % 2 ^ 64
    endMs := (em.offsetMs.toNat + v.lastSeen.toNat / 10 ^ 6) % 2 ^ 64
    tcpFlags := v.tcpFlags.toNat
    ingress := if k.direction = 0 then k.ifindex.toNat else 0
    egress := if k.direction = 0 then 0 else k.ifindex.toNat
    icmpType := k.icmpType.toNat
    icmpCode := k.icmpCode.toNat
    direction := k.direction.toNat
    endReason := if em.report.expired then 1 else 2
    samplingInterval := 1
    vlanId := v.vlanId.toNat
    forwardingStatus := em.report.forwardingStatus.toNat
    tos := v.tos.toNat }

/-- The fields of a record, in the order of the template. -/
def values (em : Emission) : List Bytes :=
  em.report.appends em.offsetMs

/-- The record as the collector cuts it. -/
def dataRecord (em : Emission) : DataRecord :=
  { templateId := em.family.tid.toNat, fields := (specs em.family.fields).zip em.values }

theorem values_lengths (em : Emission) :
    (specs em.family.fields).map FieldSpec.length = em.values.map List.length := by
  by_cases hfamily : em.report.key.family = 4
  · simp [values, Report.appends, Report.addresses, family, hfamily, specs, Family.fields, fieldsV4]
  · simp [values, Report.appends, Report.addresses, family, hfamily, specs, Family.fields, fieldsV6]

theorem record_length (em : Emission) :
    em.record.length = ((specs em.family.fields).map FieldSpec.length).sum := by
  rw [values_lengths, record, Report.record, List.length_flatten]
  rfl

/-- A record always fits in a datagram. -/
theorem record_length_le (em : Emission) : em.record.length ≤ Exporter.chunkRoom := by
  rw [record_length]
  cases em.family with
  | v4 => decide
  | v6 => decide

/-- The record is cut back into its fields. -/
theorem takeFields_record (em : Emission) (rest : Bytes) :
    takeFields (specs em.family.fields) (em.record ++ rest) =
      some (em.dataRecord.fields, rest) := by
  refine takeFields_flatten rest ?_ em.values_lengths
  cases em.family with
  | v4 => decide
  | v6 => decide

theorem toList_of_isMapped {a : Addr} (hmapped : IsMapped a) :
    a.toList = mappedNet ++ (a.toList.drop 12).take 4 := by
  have hlength : (a.toList.drop 12).length = 4 := by simp
  rw [← hmapped, List.take_of_length_le hlength.le, List.take_append_drop]

theorem toNat_icmp (type code : UInt8) :
    (type.toUInt16 <<< 8 ||| code.toUInt16).toNat = 256 * type.toNat + code.toNat := by
  have htype := type.toNat_lt
  have hcode := code.toNat_lt
  have hshift : type.toNat <<< 8 % 2 ^ 16 = 2 ^ 8 * type.toNat := by
    rw [Nat.shiftLeft_eq, Nat.mod_eq_of_lt (by omega), Nat.mul_comm]
  have hmod : (8 : UInt16).toNat % 16 = 8 := rfl
  rw [UInt16.toNat_or, UInt16.toNat_shiftLeft, UInt8.toNat_toUInt16, UInt8.toNat_toUInt16, hmod,
    hshift, ← Nat.two_pow_add_eq_or_of_lt hcode]

theorem toNat_millis (offsetMs seen : UInt64) :
    (offsetMs + seen / 1000000).toNat = (offsetMs.toNat + seen.toNat / 10 ^ 6) % 2 ^ 64 := by
  simp [UInt64.toNat_add, UInt64.toNat_div]

theorem icmp_split (type code : UInt8) :
    (type.toUInt16 <<< 8 ||| code.toUInt16).toNat / 256 = type.toNat ∧
      (type.toUInt16 <<< 8 ||| code.toUInt16).toNat % 256 = code.toNat := by
  have hcode := code.toNat_lt
  rw [toNat_icmp]
  omega

theorem toNat_ingress (k : FlowKey) :
    (if k.direction = Direction.ingress.code then k.ifindex else 0).toNat =
      if k.direction = 0 then k.ifindex.toNat else 0 := by
  rw [apply_ite UInt32.toNat]
  rfl

theorem toNat_egress {k : FlowKey} (hdirection : k.direction = 0 ∨ k.direction = 1) :
    (if k.direction = Direction.egress.code then k.ifindex else 0).toNat =
      if k.direction = 0 then 0 else k.ifindex.toNat := by
  rcases hdirection with hdir | hdir
  · simp [hdir, Direction.code]
  · simp [hdir, Direction.code]

theorem toNat_endReason (expired : Bool) :
    (if expired then endIdleTimeout else endActiveTimeout).toNat = if expired then 1 else 2 := by
  cases expired <;> rfl

/-- The collector reads the emitted observation off the record. -/
theorem dataRecord_observation {em : Emission} (hvalid : em.report.Valid) :
    em.dataRecord.observation = some em.observation := by
  have hicmp := icmp_split em.report.key.icmpType em.report.key.icmpCode
  have hegress := toNat_egress hvalid.hdirection
  have hsampling : samplingInterval.toNat = 1 := rfl
  -- the lookups run over the concrete table of the family; the numeric facts
  -- above say what the values found there stand for
  rcases hvalid.hfamily with ⟨hfamily, hsrc, hdst⟩ | hfamily
  · simp [-UInt64.toNat_add, -UInt16.toNat_or, DataRecord.observation, DataRecord.addresses,
      DataRecord.number, DataRecord.field, dataRecord, values, Report.appends, Report.addresses,
      family, hfamily, specs, Family.fields, fieldsV4, observation, toNat_millis, toNat_ingress,
      toNat_endReason, hegress, hicmp, hsampling, ← toList_of_isMapped hsrc,
      ← toList_of_isMapped hdst]
  · simp [-UInt64.toNat_add, -UInt16.toNat_or, DataRecord.observation, DataRecord.addresses,
      DataRecord.number, DataRecord.field, dataRecord, values, Report.appends, Report.addresses,
      family, hfamily, specs, Family.fields, fieldsV6, observation, toNat_millis, toNat_ingress,
      toNat_endReason, hegress, hicmp, hsampling]

end Emission

/-- `emit` appends its record to the list of its family. -/
theorem Exporter.emit_pending (e : Exporter) (r : Report) (f : Family) :
    (e.emit r).pending f = e.pending f ++
      ([Emission.mk e.offsetMs r].filter fun em => em.family = f).map Emission.record := by
  by_cases hfamily : r.key.family = 4
  · cases f <;> simp [emit, pending, Emission.family, Emission.record, hfamily]
  · cases f <;> simp [emit, pending, Emission.family, Emission.record, hfamily]

/-! ## Collecting the stream -/

/-- The records of a family's emissions, cut by its template. -/
theorem cut_records {f : Family} {ems : List Emission} (hfamily : ∀ em ∈ ems, em.family = f) :
    cut (takeFields (specs f.fields)) (ems.map Emission.record).flatten =
      some (ems.map fun em => em.dataRecord.fields) := by
  rw [← List.flatMap_def]
  refine cut_flatMap ?_ ?_
  · intro em hem rest
    rw [← hfamily em hem, em.takeFields_record]
  · intro em _ hnil
    have hlength := congrArg List.length hnil
    simp [Emission.record, Report.record, Report.appends] at hlength

/-- The collector knows both templates of a domain. -/
def Knows (domain : UInt32) (known : Templates) : Prop :=
  ∀ f : Family, known.lookup (domain.toNat, f.tid.toNat) = some (specs f.fields)

/-- Whatever the collector knows, the datagram teaches it both templates. -/
def Teaches (domain : UInt32) (d : Bytes) : Prop :=
  ∀ known, ∃ known', collectMessage known d = some (known', []) ∧ Knows domain known'

/-- To a collector that knows the templates the datagram brings these records. -/
def Delivers (domain : UInt32) (d : Bytes) (ems : List Emission) : Prop :=
  ∀ known, Knows domain known → ∃ known',
    collectMessage known d = some (known', ems.map Emission.dataRecord) ∧ Knows domain known'

theorem Teaches.delivers {domain : UInt32} {d : Bytes} (h : Teaches domain d) :
    Delivers domain d [] :=
  fun known _ => h known

theorem teaches_templateMessage (e : Exporter) (t : UInt32) :
    Teaches e.obsDomain (e.templateMessage t) := by
  intro known
  refine ⟨_, e.collectMessage_templateMessage t known, ?_⟩
  intro f
  rw [Store.lookup_insert_eq, Store.lookup_insert_eq]
  cases f with
  | v4 => simp [Family.tid, Family.fields, ipv4Tid]
  | v6 => simp [Family.tid, Family.fields, ipv6Tid]

/-- A data datagram is read as the records of its emissions. -/
theorem delivers_dataMessage {f : Family} {chunk : List Emission} (e : Exporter) (t : UInt32)
    (hfamily : ∀ em ∈ chunk, em.family = f)
    (hroom : load (List.length ∘ Emission.record) chunk ≤ Exporter.chunkRoom) :
    Delivers e.obsDomain (e.dataMessage t f.tid (chunk.map Emission.record)) chunk := by
  intro known hknown
  have hsize : (chunk.map Emission.record).flatten.length ≤ Exporter.chunkRoom := by
    rwa [← Exporter.load_length_eq, load_map]
  have hrecords : (chunk.map fun em => em.dataRecord.fields).map (DataRecord.mk f.tid.toNat) =
      chunk.map Emission.dataRecord := by
    rw [List.map_map]
    refine List.map_congr_left fun em hem => ?_
    rw [← hfamily em hem]
    rfl
  have htid : f.tid.toNat ≠ 2 ∧ 256 ≤ f.tid.toNat := by
    cases f <;> decide
  have hset : collectSet e.obsDomain.toNat known
      (f.tid.toNat, (chunk.map Emission.record).flatten) =
        some (known, chunk.map Emission.dataRecord) := by
    simp only [collectSet, if_neg htid.1, if_pos htid.2, hknown f, cut_records hfamily,
      Option.bind_eq_bind, Option.bind_some, hrecords]
  -- a data message teaches nothing, so the templates stay known
  refine ⟨known, ?_, hknown⟩
  rw [collectMessage, e.parseMessage_dataMessage t f.tid hsize]
  exact transduce_singleton hset

/-- A stream that begins with templates is collected as what its datagrams
deliver. -/
theorem collectStream_parts {domain : UInt32} {first : Bytes} (hfirst : Teaches domain first)
    (parts : List (Bytes × List Emission)) (hparts : ∀ p ∈ parts, Delivers domain p.1 p.2) :
    ∃ known, collectStream ∅ (first :: parts.map Prod.fst) =
        some (known, (parts.flatMap Prod.snd).map Emission.dataRecord) ∧ Knows domain known := by
  induction parts using List.reverseRecOn with
  | nil =>
      obtain ⟨known, hmessage, hknown⟩ := hfirst ∅
      exact ⟨known, transduce_singleton hmessage, hknown⟩
  | append_singleton parts p ih =>
      obtain ⟨known, hrun, hknown⟩ := ih fun q hq => hparts q (List.mem_append_left _ hq)
      obtain ⟨known', hmessage, hknown'⟩ := hparts p (by simp) known hknown
      refine ⟨known', ?_, hknown'⟩
      have hnext := transduce_append hrun (transduce_singleton hmessage)
      rw [List.map_append, ← List.cons_append, List.flatMap_append, List.map_append,
        List.flatMap_singleton]
      exact hnext

/-- `e`'s stream begins with templates, and its datagrams deliver the records of
`sent`. -/
def Collected (e : Exporter) (sent : List Emission) : Prop :=
  ∃ (first : Bytes) (parts : List (Bytes × List Emission)),
    e.stream = first :: parts.map Prod.fst ∧ Teaches e.obsDomain first ∧
      (∀ p ∈ parts, Delivers e.obsDomain p.1 p.2) ∧ parts.flatMap Prod.snd = sent

namespace Collected

variable {e : Exporter} {sent : List Emission}

/-- The collector takes the whole stream. -/
theorem stream (hc : Collected e sent) :
    ∃ known, collectStream ∅ e.stream = some (known, sent.map Emission.dataRecord) := by
  obtain ⟨first, parts, hstream, hfirst, hparts, rfl⟩ := hc
  obtain ⟨known, hrun, -⟩ := collectStream_parts hfirst parts hparts
  exact ⟨known, by rw [hstream, hrun]⟩

/-- Without some of its datagrams, but with the first, the collector still takes
the stream, and lacks the records of those only. -/
theorem sublist (hc : Collected e sent) {received : List Bytes} (hsub : received.Sublist e.stream)
    (hhead : received.head? = e.stream.head?) :
    ∃ (known : Templates) (sent' : List Emission),
      collectStream ∅ received = some (known, sent'.map Emission.dataRecord) ∧
        sent'.Sublist sent := by
  obtain ⟨first, parts, hstream, hfirst, hparts, rfl⟩ := hc
  rw [hstream] at hsub hhead
  obtain ⟨rest, rfl⟩ : ∃ rest, received = first :: rest := by
    cases received with
    | nil => exact absurd hhead (by simp)
    | cons d rest => exact ⟨rest, by simpa using hhead⟩
  obtain ⟨parts', hsub', rfl⟩ := List.sublist_map_iff.mp (List.cons_sublist_cons.mp hsub)
  obtain ⟨known, hrun, -⟩ := collectStream_parts hfirst parts' fun p hp =>
    hparts p (hsub'.subset hp)
  exact ⟨known, _, hrun, hsub'.flatMap Prod.snd⟩

/-- Only the stream and the domain matter. -/
theorem congr {e' : Exporter} (hc : Collected e sent) (hstream : e'.stream = e.stream)
    (hdomain : e'.obsDomain = e.obsDomain) : Collected e' sent := by
  unfold Collected
  rw [hstream, hdomain]
  exact hc

/-- One more datagram. -/
theorem append {e' : Exporter} {d : Bytes} {ems : List Emission} (hc : Collected e sent)
    (hstream : e'.stream = e.stream ++ [d]) (hdomain : e'.obsDomain = e.obsDomain)
    (hdelivers : Delivers e.obsDomain d ems) : Collected e' (sent ++ ems) := by
  obtain ⟨first, parts, hparts, hfirst, hall, rfl⟩ := hc
  refine ⟨first, parts ++ [(d, ems)], ?_, ?_, ?_, ?_⟩
  · rw [hstream, hparts, List.map_append, List.cons_append]
    rfl
  · rw [hdomain]
    exact hfirst
  · rw [hdomain]
    intro p hp
    rcases List.mem_append.mp hp with hp | hp
    · exact hall p hp
    · rw [List.mem_singleton.mp hp]
      exact hdelivers
  · rw [List.flatMap_append, List.flatMap_singleton]

theorem sendTemplates (hc : Collected e sent) (t : UInt32) :
    Collected (e.sendTemplates t) sent := by
  have hnext := hc.append (e.sendTemplates_stream t) (e.sendTemplates_sameBuffers t).obsDomain
    (teaches_templateMessage e t).delivers
  rwa [List.append_nil] at hnext

/-- One data datagram delivers its records. -/
theorem sendData {f : Family} {chunk : List Emission} (hc : Collected e sent) (t : UInt32)
    (hfamily : ∀ em ∈ chunk, em.family = f)
    (hroom : load (List.length ∘ Emission.record) chunk ≤ Exporter.chunkRoom) :
    Collected (Exporter.sendData t f.tid e (chunk.map Emission.record)) (sent ++ chunk) :=
  hc.append (Exporter.sendData_stream t f.tid e _)
    (Exporter.sendData_sameBuffers t f.tid e _).obsDomain
    (delivers_dataMessage e t hfamily hroom)

theorem foldl_sendData {f : Family} {chunks : List (List Emission)} (hc : Collected e sent)
    (t : UInt32) (hfamily : ∀ chunk ∈ chunks, ∀ em ∈ chunk, em.family = f)
    (hroom : ∀ chunk ∈ chunks,
      load (List.length ∘ Emission.record) chunk ≤ Exporter.chunkRoom) :
    Collected
      (chunks.foldl (fun e chunk => Exporter.sendData t f.tid e (chunk.map Emission.record)) e)
      (sent ++ chunks.flatten) := by
  induction chunks generalizing e sent with
  | nil => simpa using hc
  | cons chunk chunks ih =>
      have hfirst := hc.sendData t (hfamily chunk (by simp)) (hroom chunk (by simp))
      have hrest := ih hfirst (fun c hmem => hfamily c (by simp [hmem]))
        (fun c hmem => hroom c (by simp [hmem]))
      simpa using hrest

/-- `flush_set` delivers every pending record of its family, in order. -/
theorem flushSet {f : Family} {ems : List Emission} (hc : Collected e sent) (t : UInt32)
    (hfamily : ∀ em ∈ ems, em.family = f) :
    Collected (e.flushSet t f.tid (ems.map Emission.record)) (sent ++ ems) := by
  rw [Exporter.flushSet_eq_foldl, pack_map, List.foldl_map]
  have hflatten : (pack (List.length ∘ Emission.record) Exporter.chunkRoom ems).flatten = ems :=
    flatten_pack ems
  have hboxes : ∀ chunk ∈ pack (List.length ∘ Emission.record) Exporter.chunkRoom ems,
      chunk ≠ [] ∧ load (List.length ∘ Emission.record) chunk ≤ Exporter.chunkRoom :=
    pack_boxes fun em _ => em.record_length_le
  have hmem : ∀ chunk ∈ pack (List.length ∘ Emission.record) Exporter.chunkRoom ems,
      ∀ em ∈ chunk, em.family = f := by
    intro chunk hchunk em hem
    refine hfamily em ?_
    rw [← hflatten]
    exact List.mem_flatten_of_mem hchunk hem
  have hchunks := hc.foldl_sendData t hmem fun chunk hchunk => (hboxes chunk hchunk).2
  rwa [hflatten] at hchunks

end Collected

/-! ## Whole runs -/

/-- Where every emission is: received by the collector, or still pending. -/
structure Tracks (e : Exporter) (sent : List Emission) (pending : Family → List Emission)
    (emitted : List Emission) : Prop where
  hcollected : Collected e sent
  hpending : ∀ f, e.pending f = (pending f).map Emission.record
  hsplit : ∀ f, sent.filter (fun em => em.family = f) ++ pending f =
    emitted.filter fun em => em.family = f

namespace Tracks

variable {e : Exporter} {sent emitted : List Emission} {pending : Family → List Emission}

theorem pending_family (ht : Tracks e sent pending emitted) (f : Family) :
    ∀ em ∈ pending f, em.family = f := by
  intro em hem
  have hmem : em ∈ emitted.filter fun em => em.family = f := by
    rw [← ht.hsplit f]
    exact List.mem_append_right _ hem
  simpa using (List.mem_filter.mp hmem).2

theorem congr {e' : Exporter} (ht : Tracks e sent pending emitted) (hstream : e'.stream = e.stream)
    (hdomain : e'.obsDomain = e.obsDomain) (hpending : e'.pending = e.pending) :
    Tracks e' sent pending emitted where
  hcollected := ht.hcollected.congr hstream hdomain
  hpending := by rw [hpending]; exact ht.hpending
  hsplit := ht.hsplit

theorem setEpoch (ht : Tracks e sent pending emitted) (t : UInt32) (offsetMs : UInt64) :
    Tracks (e.setEpoch t offsetMs) sent pending emitted :=
  ht.congr rfl rfl rfl

theorem setOffsetMs (ht : Tracks e sent pending emitted) (offsetMs : UInt64) :
    Tracks (e.setOffsetMs offsetMs) sent pending emitted :=
  ht.congr rfl rfl rfl

theorem sendTemplates (ht : Tracks e sent pending emitted) (t : UInt32) :
    Tracks (e.sendTemplates t) sent pending emitted where
  hcollected := ht.hcollected.sendTemplates t
  hpending := by
    rw [(e.sendTemplates_sameBuffers t).pending]
    exact ht.hpending
  hsplit := ht.hsplit

theorem emit (ht : Tracks e sent pending emitted) (r : Report) :
    Tracks (e.emit r) sent
      (fun f => pending f ++ [Emission.mk e.offsetMs r].filter fun em => em.family = f)
      (emitted ++ [Emission.mk e.offsetMs r]) where
  hcollected := by
    refine ht.hcollected.congr ?_ ?_
    · simp only [Exporter.emit]
      split <;> rfl
    · simp only [Exporter.emit]
      split <;> rfl
  hpending := by
    intro f
    rw [Exporter.emit_pending, ht.hpending f, List.map_append]
  hsplit := by
    intro f
    rw [List.filter_append, ← ht.hsplit f, List.append_assoc]

theorem flushFamily (ht : Tracks e sent pending emitted) (t : UInt32) (f : Family) :
    Tracks (e.flushFamily t f) (sent ++ pending f) (Function.update pending f []) emitted where
  hcollected := by
    have hflush := ht.hcollected.flushSet t (ht.pending_family f)
    rw [← ht.hpending f] at hflush
    refine hflush.congr ?_ ?_
    · cases f <;> rfl
    · cases f <;> rfl
  hpending := by
    intro g
    have hsame := (e.flushSet_sameBuffers t f.tid (e.pending f)).pending
    rw [Exporter.flushFamily, Exporter.clear_pending, hsame]
    by_cases hg : g = f
    · subst hg
      simp
    · simp [hg, ht.hpending g]
  hsplit := by
    intro g
    rw [List.filter_append, ← ht.hsplit g]
    -- the flushed list is all of one family: it counts for `f` and for no other
    by_cases hg : g = f
    · subst hg
      have hall : (pending g).filter (fun em => em.family = g) = pending g :=
        List.filter_eq_self.mpr fun em hem => by simpa using ht.pending_family g em hem
      simp [hall]
    · have hnone : (pending f).filter (fun em => em.family = g) = [] := by
        refine List.filter_eq_nil_iff.mpr fun em hem => ?_
        rw [ht.pending_family f em hem]
        simpa using Ne.symm hg
      simp [hnone, hg]

/-- A flush delivers everything. -/
theorem flush (ht : Tracks e sent pending emitted) (t : UInt32) :
    Tracks (e.flush t) (sent ++ pending .v4 ++ pending .v6) (fun _ => []) emitted := by
  have htemplates : Tracks (if t - e.lastTemplateSentS ≥ templateIntervalS then
      e.sendTemplates t else e) sent pending emitted := by
    split
    · exact ht.sendTemplates t
    · exact ht
  have hboth := (htemplates.flushFamily t .v4).flushFamily t .v6
  have hempty : Function.update (Function.update pending .v4 []) .v6 [] = fun _ => [] := by
    funext f
    cases f <;> rfl
  rw [e.flush_eq, ← hempty]
  exact hboth

/-- Every sequence of calls keeps track of every emission. -/
theorem run (ht : Tracks e sent pending emitted) (calls : List Call) :
    ∃ sent pending, Tracks (calls.foldl Exporter.call e) sent pending
      (emitted ++ emissions e.offsetMs calls) := by
  induction calls generalizing e sent pending emitted with
  | nil => exact ⟨sent, pending, by simpa [emissions] using ht⟩
  | cons call calls ih =>
      simp only [List.foldl_cons]
      cases call with
      | setEpoch t offsetMs => exact ih (ht.setEpoch t offsetMs)
      | setOffsetMs offsetMs => exact ih (ht.setOffsetMs offsetMs)
      | sendTemplates t =>
          have hrest := ih (ht.sendTemplates t)
          rw [(e.sendTemplates_sameBuffers t).offsetMs] at hrest
          exact hrest
      | emit r =>
          have hoffset : (e.emit r).offsetMs = e.offsetMs := by
            simp only [Exporter.emit]
            split <;> rfl
          have hrest := ih (ht.emit r)
          rw [hoffset, List.append_assoc] at hrest
          exact hrest
      | flush t =>
          have hrest := ih (ht.flush t)
          simp only [Exporter.call, emissions]
          rwa [e.flush_offsetMs t] at hrest

end Tracks

/-- The start of `main`: nothing is emitted, and the templates are known. -/
theorem tracks_start (connected : Bool) (domain t₀ t₁ : UInt32) (offsetMs : UInt64) :
    Tracks (((Exporter.new connected domain).setEpoch t₀ offsetMs).sendTemplates t₁) []
      (fun _ => []) [] where
  hcollected := by
    refine ⟨_, [], ?_, teaches_templateMessage _ t₁, by simp, rfl⟩
    rw [Exporter.sendTemplates_stream]
    cases connected <;> rfl
  hpending := by
    rw [(Exporter.sendTemplates_sameBuffers _ t₁).pending]
    intro f
    cases f <;> rfl
  hsplit := fun _ => rfl

/-! ## Reading the records -/

def Family.number : Family → Nat
  | .v4 => 4
  | .v6 => 6

theorem Family.number_inj {f g : Family} : f.number = g.number ↔ f = g := by
  cases f <;> cases g <;> decide

theorem observation_family {em : Emission} (hvalid : em.report.Valid) :
    em.observation.family = em.family.number := by
  rcases hvalid.hfamily with ⟨hfamily, -⟩ | hfamily
  · simp [Emission.observation, Emission.family, hfamily, Family.number]
  · simp [Emission.observation, Emission.family, hfamily, Family.number]

theorem mapM_observation {ems : List Emission} (hvalid : ∀ em ∈ ems, em.report.Valid) :
    (ems.map Emission.dataRecord).mapM DataRecord.observation =
      some (ems.map Emission.observation) := by
  induction ems with
  | nil => rfl
  | cons em ems ih =>
      have hfirst := Emission.dataRecord_observation (hvalid em (by simp))
      have hrest := ih fun em hem => hvalid em (by simp [hem])
      simp [hfirst, hrest]

theorem emit_mem_of_emissions {offsetMs : UInt64} {calls : List Call} {em : Emission}
    (hem : em ∈ emissions offsetMs calls) : Call.emit em.report ∈ calls := by
  induction calls generalizing offsetMs with
  | nil => simp [emissions] at hem
  | cons call calls ih =>
      cases call with
      | emit r =>
          rcases List.mem_cons.mp hem with rfl | hem
          · simp
          · exact List.mem_cons_of_mem _ (ih hem)
      | setEpoch t offsetMs => exact List.mem_cons_of_mem _ (ih hem)
      | setOffsetMs offsetMs => exact List.mem_cons_of_mem _ (ih hem)
      | sendTemplates t => exact List.mem_cons_of_mem _ (ih hem)
      | flush t => exact List.mem_cons_of_mem _ (ih hem)

/-- Two lists of valid emissions that agree on both families report the same
under every family number. -/
theorem filter_observation_congr {ems ems' : List Emission} (n : Nat)
    (hvalid : ∀ em ∈ ems, em.report.Valid) (hvalid' : ∀ em ∈ ems', em.report.Valid)
    (hsame : ∀ f, ems.filter (fun em => em.family = f) = ems'.filter fun em => em.family = f) :
    (ems.map Emission.observation).filter (fun o => o.family = n) =
      (ems'.map Emission.observation).filter fun o => o.family = n := by
  have hfilter : ∀ l : List Emission, (∀ em ∈ l, em.report.Valid) →
      l.filter ((fun o : Observation => decide (o.family = n)) ∘ Emission.observation) =
        l.filter fun em => em.family.number = n := by
    intro l hl
    refine List.filter_congr fun em hem => ?_
    rw [Function.comp_apply, observation_family (hl em hem)]
  rw [List.filter_map, List.filter_map, hfilter ems hvalid, hfilter ems' hvalid']
  -- no valid emission has any other family number
  by_cases hn : ∃ f : Family, f.number = n
  · obtain ⟨f, rfl⟩ := hn
    simp only [Family.number_inj, hsame f]
  · have hnone : ∀ em : Emission, ¬em.family.number = n := fun em h => hn ⟨_, h⟩
    simp [hnone]

/-- Decoding undoes encoding for the whole stream: after `set_epoch`,
`send_templates` and any calls, closed by a flush, the collector accepts every
datagram and reports, family by family and in order, what was emitted. -/
theorem collect_recovers_emitted (connected : Bool) (domain t₀ t₁ t : UInt32) (offsetMs : UInt64)
    (calls : List Call) (hvalid : ∀ r, Call.emit r ∈ calls → r.Valid) :
    ∃ observations,
      collect (([Call.setEpoch t₀ offsetMs, Call.sendTemplates t₁] ++ calls ++
        [Call.flush t]).foldl Exporter.call (Exporter.new connected domain)).stream =
          some observations ∧
      ∀ family : Nat, observations.filter (fun o => o.family = family) =
        ((emissions offsetMs calls).map Emission.observation).filter
          fun o => o.family = family := by
  have hoffset :
      (((Exporter.new connected domain).setEpoch t₀ offsetMs).sendTemplates t₁).offsetMs =
        offsetMs := (Exporter.sendTemplates_sameBuffers _ t₁).offsetMs
  obtain ⟨sent, pending, ht⟩ := (tracks_start connected domain t₀ t₁ offsetMs).run calls
  rw [hoffset, List.nil_append] at ht
  obtain ⟨hcollected, -, hsplit⟩ := ht.flush t
  obtain ⟨known, hrun⟩ := hcollected.stream
  have hall : ∀ em ∈ emissions offsetMs calls, em.report.Valid := fun em hem =>
    hvalid _ (emit_mem_of_emissions hem)
  simp only [List.append_nil] at hsplit
  set delivered := sent ++ pending .v4 ++ pending .v6 with hdelivered
  have hdeliveredValid : ∀ em ∈ delivered, em.report.Valid := by
    intro em hem
    have hmem : em ∈ delivered.filter fun em' => em'.family = em.family := by
      simpa using hem
    rw [hsplit] at hmem
    exact hall em (List.mem_filter.mp hmem).1
  refine ⟨delivered.map Emission.observation, ?_, ?_⟩
  · have hobservations := mapM_observation hdeliveredValid
    simp only [List.foldl_append, List.foldl_cons, List.foldl_nil, Exporter.call, collect, hrun,
      Option.bind_eq_bind, Option.bind_some, hobservations]
  · intro family
    exact filter_observation_congr family hdeliveredValid hall hsplit

/-- A report of a TCP flow between two IPv4 hosts, on the way in. -/
def tcpReport : Report where
  key := {
    ifindex := 3, direction := 0, family := 4, protocol := 6, reserved := 0
    src := ⟨mappedNet ++ [192, 0, 2, 1], rfl⟩, dst := ⟨mappedNet ++ [198, 51, 100, 7], rfl⟩
    sport := 40000, dport := 443, icmpType := 0, icmpCode := 0 }
  val := {
    packets := 12, bytes := 3400, firstSeen := 5000000, lastSeen := 9000000
    tcpFlags := 0x1b, vlanId := 0, tos := 0 }
  expired := false
  delta := some { packets := 2, bytes := 400 }
  forwardingStatus := 0

/-- A report of an ICMPv6 flow, on the way out and idle, with its totals. -/
def icmp6Report : Report where
  key := {
    ifindex := 3, direction := 1, family := 6, protocol := 58, reserved := 0
    src := ⟨[0xfe, 0x80, 0, 0, 0, 0, 0, 0, 0, 0, 0, 0, 0, 0, 0, 1], rfl⟩
    dst := ⟨[0xff, 2, 0, 0, 0, 0, 0, 0, 0, 0, 0, 0, 0, 0, 0, 1], rfl⟩
    sport := 0, dport := 0, icmpType := 128, icmpCode := 0 }
  val := {
    packets := 1, bytes := 104, firstSeen := 7000000, lastSeen := 7000000
    tcpFlags := 0, vlanId := 10, tos := 0xb8 }
  expired := true
  delta := none
  forwardingStatus := 0

theorem tcpReport_valid : tcpReport.Valid where
  hdirection := Or.inl rfl
  hfamily := Or.inl ⟨rfl, rfl, rfl⟩

theorem icmp6Report_valid : icmp6Report.Valid where
  hdirection := Or.inr rfl
  hfamily := Or.inr rfl

/-- Two passes with an offset refresh between the reports. -/
def twoPasses : List Call :=
  [.emit tcpReport, .setOffsetMs 1000, .emit icmp6Report, .flush 30, .emit tcpReport]

theorem collect_recovers_emitted_demo :
    ∃ observations,
      collect (([Call.setEpoch 0 50, Call.sendTemplates 0] ++ twoPasses ++
        [Call.flush 90]).foldl Exporter.call (Exporter.new false 7)).stream = some observations ∧
      ∀ family : Nat, observations.filter (fun o => o.family = family) =
        ((emissions 50 twoPasses).map Emission.observation).filter fun o => o.family = family := by
  refine collect_recovers_emitted false 7 0 0 90 50 twoPasses ?_
  intro r hr
  have hcases : r = tcpReport ∨ r = icmp6Report := by
    simp [twoPasses] at hr
    tauto
  rcases hcases with rfl | rfl
  · exact tcpReport_valid
  · exact icmp6Report_valid

end Ipfix
end Obserwrt
