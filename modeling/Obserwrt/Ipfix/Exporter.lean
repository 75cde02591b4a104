import Obserwrt.Flow
import Obserwrt.Lib.Bytes
import Obserwrt.Lib.Pack

/-!
# The IPFIX exporter

`IpfixExporter` of `exporter_ipfix.cpp`: records are encoded by `emit` into the
two pending lists and cut into datagrams by `flush`, with the templates sent
at the start and again when their interval is due.  Of the exporter's `udp_`
only the exporter's side is here: whether it is connected, and the datagrams
handed to it.  The client itself, with its descriptors and its failure counter,
is `Udp.UdpClient`; the daemon sends on it what the exporter handed over.
-/

namespace Obserwrt
namespace Ipfix

open Lib

/-! ## Constants -/

def version : UInt16 := 10
def setTemplate : UInt16 := 2
def ipv4Tid : UInt16 := 256
def ipv6Tid : UInt16 := 257
def maxUdp : Nat := 1200
def templateIntervalS : UInt32 := 60
def endIdleTimeout : UInt8 := 1
def endActiveTimeout : UInt8 := 2
def samplingInterval : UInt32 := 1

/-- Octets of a message header: version, length, export time, sequence, domain. -/
def msgHdr : Nat := 16

/-- Octets of a set header: set id and set length. -/
def setHdr : Nat := 4

/-- `FIELDS_V4`: information element and length, in record order. -/
def fieldsV4 : List (UInt16 × UInt16) :=
  [(8, 4),    -- sourceIPv4Address
   (12, 4),   -- destinationIPv4Address
   (7, 2),    -- sourceTransportPort
   (11, 2),   -- destinationTransportPort
   (4, 1),    -- protocolIdentifier
   (2, 8),    -- packetDeltaCount
   (1, 8),    -- octetDeltaCount
   (152, 8),  -- flowStartMilliseconds
   (153, 8),  -- flowEndMilliseconds
   (6, 2),    -- tcpControlBits
   (10, 4),   -- ingressInterface
   (14, 4),   -- egressInterface
   (32, 2),   -- icmpTypeCodeIPv4
   (61, 1),   -- flowDirection
   (136, 1),  -- flowEndReason
   (34, 4),   -- samplingInterval
   (58, 2),   -- vlanId
   (89, 1),   -- forwardingStatus
   (5, 1)]    -- ipClassOfService

/-- `FIELDS_V6`. -/
def fieldsV6 : List (UInt16 × UInt16) :=
  [(27, 16),  -- sourceIPv6Address
   (28, 16),  -- destinationIPv6Address
   (7, 2),    -- sourceTransportPort
   (11, 2),   -- destinationTransportPort
   (4, 1),    -- protocolIdentifier
   (2, 8),    -- packetDeltaCount
   (1, 8),    -- octetDeltaCount
   (152, 8),  -- flowStartMilliseconds
   (153, 8),  -- flowEndMilliseconds
   (6, 2),    -- tcpControlBits
   (10, 4),   -- ingressInterface
   (14, 4),   -- egressInterface
   (139, 2),  -- icmpTypeCodeIPv6
   (61, 1),   -- flowDirection
   (136, 1),  -- flowEndReason
   (34, 4),   -- samplingInterval
   (58, 2),   -- vlanId
   (89, 1),   -- forwardingStatus
   (5, 1)]    -- ipClassOfService

/-! ## State -/

/-- The exporter's side of `udp_`: whether it is connected, and the datagrams
handed to it. -/
structure Handover where
  connected : Bool
  sent : List Bytes
  deriving DecidableEq

/-- The members of `IpfixExporter`. -/
structure Exporter where
  obsDomain : UInt32
  seq : UInt32
  offsetMs : UInt64
  lastTemplateSentS : UInt32
  udp : Handover
  captured : List Bytes
  pending4 : List Bytes
  pending6 : List Bytes
  deriving DecidableEq

/-- The arguments of one `emit` call. -/
structure Report where
  key : FlowKey
  val : FlowVal
  expired : Bool
  delta : Option Delta
  forwardingStatus : UInt8
  deriving DecidableEq

/-- The address bytes `emit` appends first. -/
def Report.addresses (r : Report) : List Bytes :=
  if r.key.family = 4 then
    [(r.key.src.toList.drop 12).take 4, (r.key.dst.toList.drop 12).take 4]
  else
    [r.key.src.toList, r.key.dst.toList]

/-- What `emit` appends to the record, one entry for each append. -/
def Report.appends (offsetMs : UInt64) (r : Report) : List Bytes :=
  let k := r.key
  let v := r.val
  let dp := r.delta.elim v.packets Delta.packets
  let db := r.delta.elim v.bytes Delta.bytes
  let startMs := offsetMs + v.firstSeen / 1000000
  let endMs := offsetMs + v.lastSeen / 1000000
  let ingress := if k.direction = Direction.ingress.code then k.ifindex else 0
  let egress := if k.direction = Direction.egress.code then k.ifindex else 0
  r.addresses ++
    [be16 k.sport,
     be16 k.dport,
     [k.protocol],
     be64 dp,
     be64 db,
     be64 startMs,
     be64 endMs,
     be16 v.tcpFlags,
     be32 ingress,
     be32 egress,
     be16 (k.icmpType.toUInt16 <<< 8 ||| k.icmpCode.toUInt16),
     [k.direction],
     [if r.expired then endIdleTimeout else endActiveTimeout],
     be32 samplingInterval,
     be16 v.vlanId,
     [r.forwardingStatus],
     [v.tos]]

/-- The record `emit` builds. -/
def Report.record (offsetMs : UInt64) (r : Report) : Bytes :=
  (r.appends offsetMs).flatten

/-- `template_set`. -/
def templateSet (tid : UInt16) (fields : List (UInt16 × UInt16)) : Bytes :=
  let body := be16 tid ++ be16 (UInt16.ofNat fields.length)
    ++ fields.flatMap fun f => be16 f.1 ++ be16 f.2
  be16 setTemplate ++ be16 (UInt16.ofNat (4 + body.length)) ++ body

namespace Exporter

/-- The constructed exporter, after `connect` when `connected`. -/
def new (connected : Bool) (obsDomain : UInt32) : Exporter where
  obsDomain := obsDomain
  seq := 0
  offsetMs := 0
  lastTemplateSentS := 0
  udp := { connected := connected, sent := [] }
  captured := []
  pending4 := []
  pending6 := []

/-- `set_epoch`. -/
def setEpoch (e : Exporter) (exportTimeS : UInt32) (offsetMs : UInt64) : Exporter :=
  { e with offsetMs := offsetMs, lastTemplateSentS := exportTimeS }

/-- `set_offset_ms`. -/
def setOffsetMs (e : Exporter) (offsetMs : UInt64) : Exporter :=
  { e with offsetMs := offsetMs }

/-- `send`. -/
def send (e : Exporter) (data : Bytes) : Exporter :=
  if e.udp.connected then
    { e with udp := { e.udp with sent := e.udp.sent ++ [data] } }
  else
    { e with captured := e.captured ++ [data] }

/-- The message header `send_templates` and `flush_set` write. -/
def header (e : Exporter) (length : Nat) (exportTimeS : UInt32) : Bytes :=
  be16 version ++ be16 (UInt16.ofNat length) ++ be32 exportTimeS ++ be32 e.seq ++ be32 e.obsDomain

/-- `send_templates`. -/
def sendTemplates (e : Exporter) (exportTimeS : UInt32) : Exporter :=
  let body := templateSet ipv4Tid fieldsV4 ++ templateSet ipv6Tid fieldsV6
  let m := e.header (16 + body.length) exportTimeS ++ body
  { e.send m with lastTemplateSentS := exportTimeS }

/-- The lambda `emit` of `flush_set`: one datagram with the records of the
indices `start ≤ i < stop`. -/
def sendChunk (e : Exporter) (exportTimeS : UInt32) (setId : UInt16) (records : List Bytes)
    (start stop cnt body : Nat) : Exporter :=
  let m := e.header (msgHdr + setHdr + body) exportTimeS
    ++ be16 setId ++ be16 (UInt16.ofNat (setHdr + body))
    ++ (records.extract start stop).flatten
  { e.send m with seq := e.seq + UInt32.ofNat cnt }

/-- The locals of the loop in `flush_set`. -/
structure Chunk where
  start : Nat
  cnt : Nat
  body : Nat
  deriving DecidableEq

/-- One iteration of the loop in `flush_set`. -/
def flushStep (exportTimeS : UInt32) (setId : UInt16) (records : List Bytes)
    (st : Exporter × Chunk) (i : Nat) : Exporter × Chunk :=
  let rsz := (records.getD i []).length
  -- this record would overflow the open chunk: send the chunk first
  let (e, c) := if st.2.cnt > 0 ∧ msgHdr + setHdr + st.2.body + rsz > maxUdp then
      (st.1.sendChunk exportTimeS setId records st.2.start i st.2.cnt st.2.body,
        { start := i, cnt := 0, body := 0 })
    else
      st
  (e, { c with body := c.body + rsz, cnt := c.cnt + 1 })

/-- What `flush_set` does after its loop. -/
def flushTail (exportTimeS : UInt32) (setId : UInt16) (records : List Bytes)
    (st : Exporter × Chunk) : Exporter :=
  if st.2.cnt > 0 then
    st.1.sendChunk exportTimeS setId records st.2.start records.length st.2.cnt st.2.body
  else
    st.1

/-- `flush_set`. -/
def flushSet (e : Exporter) (exportTimeS : UInt32) (setId : UInt16) (records : List Bytes) :
    Exporter :=
  flushTail exportTimeS setId records <|
    (List.range records.length).foldl (flushStep exportTimeS setId records)
      (e, { start := 0, cnt := 0, body := 0 })

/-- `emit`. -/
def emit (e : Exporter) (r : Report) : Exporter :=
  if r.key.family = 4 then
    { e with pending4 := e.pending4 ++ [r.record e.offsetMs] }
  else
    { e with pending6 := e.pending6 ++ [r.record e.offsetMs] }

/-- `flush`.  The interval test is the unsigned subtraction of the source. -/
def flush (e : Exporter) (exportTimeS : UInt32) : Exporter :=
  let e := if exportTimeS - e.lastTemplateSentS ≥ templateIntervalS then
      e.sendTemplates exportTimeS
    else
      e
  let e := e.flushSet exportTimeS ipv4Tid e.pending4
  let e := { e with pending4 := [] }
  let e := e.flushSet exportTimeS ipv6Tid e.pending6
  { e with pending6 := [] }

end Exporter

/-- The calls the agent makes on its exporter. -/
inductive Call
  | setEpoch (exportTimeS : UInt32) (offsetMs : UInt64)
  | setOffsetMs (offsetMs : UInt64)
  | sendTemplates (exportTimeS : UInt32)
  | emit (r : Report)
  | flush (exportTimeS : UInt32)
  deriving DecidableEq

/-- One call. -/
def Exporter.call (e : Exporter) : Call → Exporter
  | .setEpoch exportTimeS offsetMs => e.setEpoch exportTimeS offsetMs
  | .setOffsetMs offsetMs => e.setOffsetMs offsetMs
  | .sendTemplates exportTimeS => e.sendTemplates exportTimeS
  | .emit r => e.emit r
  | .flush exportTimeS => e.flush exportTimeS

/-- The datagrams produced so far, oldest first. -/
def Exporter.stream (e : Exporter) : List Bytes :=
  if e.udp.connected then e.udp.sent else e.captured

namespace Exporter

/-! ## What one call leaves alone -/

theorem send_stream (e : Exporter) (data : Bytes) :
    (e.send data).stream = e.stream ++ [data] := by
  simp only [send]
  split <;> simp_all [stream]

/-- `e'` has the domain, the offset and the pending records of `e`: sending
changes nothing else but the transport, the sequence number and the template
timer. -/
structure SameBuffers (e e' : Exporter) : Prop where
  obsDomain : e'.obsDomain = e.obsDomain
  offsetMs : e'.offsetMs = e.offsetMs
  pending4 : e'.pending4 = e.pending4
  pending6 : e'.pending6 = e.pending6

theorem SameBuffers.refl (e : Exporter) : SameBuffers e e := ⟨rfl, rfl, rfl, rfl⟩

theorem SameBuffers.trans {e e' e'' : Exporter} (h : SameBuffers e e') (h' : SameBuffers e' e'') :
    SameBuffers e e'' :=
  ⟨h'.1.trans h.1, h'.2.trans h.2, h'.3.trans h.3, h'.4.trans h.4⟩

theorem send_sameBuffers (e : Exporter) (data : Bytes) : SameBuffers e (e.send data) := by
  simp only [send]
  split <;> exact ⟨rfl, rfl, rfl, rfl⟩

theorem sendTemplates_sameBuffers (e : Exporter) (t : UInt32) :
    SameBuffers e (e.sendTemplates t) := by
  obtain ⟨hdomain, hoffset, h4, h6⟩ := e.send_sameBuffers _
  exact ⟨hdomain, hoffset, h4, h6⟩

/-! ## The chunk loop packs greedily -/

/-- Room for records in a data datagram. -/
def chunkRoom : Nat := maxUdp - (msgHdr + setHdr)

/-- The datagram for one chunk of records. -/
def dataMessage (e : Exporter) (exportTimeS : UInt32) (setId : UInt16) (chunk : List Bytes) :
    Bytes :=
  e.header (msgHdr + setHdr + chunk.flatten.length) exportTimeS
    ++ be16 setId ++ be16 (UInt16.ofNat (setHdr + chunk.flatten.length)) ++ chunk.flatten

/-- Send one chunk of records. -/
def sendData (exportTimeS : UInt32) (setId : UInt16) (e : Exporter) (chunk : List Bytes) :
    Exporter :=
  { e.send (e.dataMessage exportTimeS setId chunk) with seq := e.seq + UInt32.ofNat chunk.length }

theorem sendData_stream (t : UInt32) (setId : UInt16) (e : Exporter) (chunk : List Bytes) :
    (sendData t setId e chunk).stream = e.stream ++ [e.dataMessage t setId chunk] := by
  rw [← send_stream]
  rfl

variable {records : List Bytes} {i : Nat} {e : Exporter} {c : Chunk}

/-- `c` describes the records from `c.start` up to the index `i`. -/
structure Chunk.Covers (c : Chunk) (records : List Bytes) (i : Nat) : Prop where
  hstart : c.start ≤ i
  hcnt : c.cnt = (records.extract c.start i).length
  hbody : c.body = load List.length (records.extract c.start i)

theorem load_length_eq (chunk : List Bytes) : load List.length chunk = chunk.flatten.length := by
  simp [load, List.length_flatten]

theorem sendChunk_eq (hc : c.Covers records i) (t : UInt32) (setId : UInt16) :
    e.sendChunk t setId records c.start i c.cnt c.body =
      sendData t setId e (records.extract c.start i) := by
  simp only [sendChunk, sendData, dataMessage, hc.hcnt, hc.hbody, load_length_eq]

theorem extract_succ {start : Nat} (hstart : start ≤ i) (hi : i < records.length) :
    records.extract start (i + 1) = records.extract start i ++ [records[i]] := by
  have hsub : i + 1 - start = i - start + 1 := by omega
  have hget : (records.drop start)[i - start]? = some records[i] := by
    rw [List.getElem?_drop, Nat.add_sub_cancel' hstart, List.getElem?_eq_getElem hi]
  simp only [List.extract_eq_take_drop, hsub, List.take_add_one, hget, Option.toList_some]

theorem Chunk.Covers.extend (hc : c.Covers records i) (hi : i < records.length) :
    Chunk.Covers { c with body := c.body + records[i].length, cnt := c.cnt + 1 } records
      (i + 1) where
  hstart := Nat.le_succ_of_le hc.hstart
  hcnt := by
    simp only [extract_succ hc.hstart hi, List.length_append, List.length_singleton, hc.hcnt]
  hbody := by simp only [extract_succ hc.hstart hi, load_concat, hc.hbody]

theorem Chunk.covers_self (records : List Bytes) (i : Nat) :
    Chunk.Covers { start := i, cnt := 0, body := 0 } records i where
  hstart := le_rfl
  hcnt := by simp
  hbody := by simp

/-- The guard of the loop is the packing's: the open chunk is non-empty and
the next record does not fit in it. -/
theorem Chunk.Covers.full_iff (hc : c.Covers records i) (rsz : Nat) :
    (c.cnt > 0 ∧ msgHdr + setHdr + c.body + rsz > maxUdp) ↔
      records.extract c.start i ≠ [] ∧
        chunkRoom < load List.length (records.extract c.start i) + rsz := by
  rw [hc.hcnt, hc.hbody, gt_iff_lt, List.length_pos_iff]
  refine and_congr_right fun _ => ?_
  simp only [msgHdr, setHdr, maxUdp, chunkRoom]
  omega

theorem flushLoop_eq (t : UInt32) (setId : UInt16) {k : Nat} (hc : c.Covers records i)
    (hk : i + k = records.length) :
    flushTail t setId records ((List.range' i k).foldl (flushStep t setId records) (e, c)) =
      (packFrom List.length chunkRoom (records.extract c.start i) (records.drop i)).foldl
        (sendData t setId) e := by
  -- over the records left, with the open chunk as the open box
  induction k generalizing i e c with
  | zero =>
      obtain rfl : i = records.length := hk
      simp only [List.drop_length, List.range'_zero, List.foldl_nil, flushTail, sendChunk_eq hc]
      rw [hc.hcnt]
      cases records.extract c.start records.length with
      | nil => rfl
      | cons r chunk => rfl
  | succ k ih =>
      have hi : i < records.length := by omega
      have hget : records.getD i [] = records[i] := List.getD_eq_getElem _ _ hi
      rw [List.range'_succ, List.foldl_cons, List.drop_eq_getElem_cons hi]
      -- the loop sends exactly when the packing closes its box
      by_cases hfull : c.cnt > 0 ∧ msgHdr + setHdr + c.body + records[i].length > maxUdp
      · have hstep := ih (e := sendData t setId e (records.extract c.start i))
          ((Chunk.covers_self records i).extend hi) (by omega)
        rw [extract_succ le_rfl hi] at hstep
        simp only [flushStep, hget, if_pos hfull, sendChunk_eq hc]
        rw [packFrom_cons_of_full ((hc.full_iff _).mp hfull), List.foldl_cons, hstep]
        simp
      · have hstep := ih (e := e) (hc.extend hi) (by omega)
        rw [extract_succ hc.hstart hi] at hstep
        simp only [flushStep, hget, if_neg hfull]
        rw [packFrom_cons_of_fits (mt (hc.full_iff _).mpr hfull), hstep]

theorem sendData_sameBuffers (t : UInt32) (setId : UInt16) (e : Exporter) (chunk : List Bytes) :
    SameBuffers e (sendData t setId e chunk) := by
  obtain ⟨hdomain, hoffset, h4, h6⟩ := e.send_sameBuffers (e.dataMessage t setId chunk)
  exact ⟨hdomain, hoffset, h4, h6⟩

theorem foldl_sendData_sameBuffers (t : UInt32) (setId : UInt16) (chunks : List (List Bytes))
    (e : Exporter) : SameBuffers e (chunks.foldl (sendData t setId) e) := by
  induction chunks generalizing e with
  | nil => exact SameBuffers.refl e
  | cons chunk chunks ih => exact (sendData_sameBuffers t setId e chunk).trans (ih _)

/-- `flush_set` sends the greedy packing of the records, one datagram a chunk. -/
theorem flushSet_eq_foldl (e : Exporter) (t : UInt32) (setId : UInt16) (records : List Bytes) :
    e.flushSet t setId records =
      (pack List.length chunkRoom records).foldl (sendData t setId) e := by
  have hloop := flushLoop_eq (e := e) t setId (Chunk.covers_self records 0) (Nat.zero_add _)
  rw [flushSet, List.range_eq_range', hloop]
  simp [pack]

theorem flushSet_sameBuffers (e : Exporter) (t : UInt32) (setId : UInt16) (records : List Bytes) :
    SameBuffers e (e.flushSet t setId records) := by
  rw [flushSet_eq_foldl]
  exact foldl_sendData_sameBuffers t setId _ e

/-! ## What goes to the socket -/

/-- `e'` has the socket of `e`, and has handed some more datagrams to it. -/
structure Sends (e e' : Exporter) : Prop where
  connected : e'.udp.connected = e.udp.connected
  sent : e.udp.sent <+: e'.udp.sent

theorem Sends.refl (e : Exporter) : Sends e e := ⟨rfl, List.prefix_rfl⟩

theorem Sends.trans {e e' e'' : Exporter} (h : Sends e e') (h' : Sends e' e'') : Sends e e'' :=
  ⟨h'.connected.trans h.connected, h.sent.trans h'.sent⟩

theorem send_sends (e : Exporter) (data : Bytes) : Sends e (e.send data) := by
  simp only [send]
  split
  · exact ⟨rfl, List.prefix_append _ _⟩
  · exact ⟨rfl, List.prefix_rfl⟩

theorem sendTemplates_sends (e : Exporter) (t : UInt32) : Sends e (e.sendTemplates t) :=
  let h := e.send_sends _
  ⟨h.connected, h.sent⟩

theorem flushSet_sends (e : Exporter) (t : UInt32) (setId : UInt16) (records : List Bytes) :
    Sends e (e.flushSet t setId records) := by
  rw [flushSet_eq_foldl]
  generalize pack List.length chunkRoom records = chunks
  induction chunks generalizing e with
  | nil => exact Sends.refl e
  | cons chunk chunks ih =>
      have hsend := e.send_sends (e.dataMessage t setId chunk)
      have hfirst : Sends e (sendData t setId e chunk) := ⟨hsend.connected, hsend.sent⟩
      exact hfirst.trans (ih (sendData t setId e chunk))

theorem flush_sends (e : Exporter) (t : UInt32) : Sends e (e.flush t) := by
  unfold flush
  extract_lets e₁ e₂ e₃ e₄
  have htemplates : Sends e e₁ := by
    show Sends e (if t - e.lastTemplateSentS ≥ templateIntervalS then e.sendTemplates t else e)
    split
    · exact e.sendTemplates_sends t
    · exact Sends.refl e
  have h4 := e₁.flushSet_sends t ipv4Tid e₁.pending4
  have h6 := e₃.flushSet_sends t ipv6Tid e₃.pending6
  have hmiddle : Sends e₁ e₃ := ⟨h4.connected, h4.sent⟩
  have hboth : Sends e e₄ := htemplates.trans (hmiddle.trans h6)
  clear_value e₄
  exact ⟨hboth.connected, hboth.sent⟩

end Exporter

end Ipfix
end Obserwrt
