import Obserwrt.Lib.Bytes
import Obserwrt.Lib.Run
import Obserwrt.Lib.Store

/-!
# An IPFIX collector

A collector in the sense of RFC 7011: it knows the framing of messages, sets,
template records and data records, learns the templates from the stream, and
cuts every data set by the template it names.  It is strict: a datagram with a
wrong version or length, a data set whose template has not been received, a
set id it has no use for, or a single byte left over makes it fail.  It knows
nothing of the exporter; the meaning of a record comes from the element
numbers of its own template (the IANA registry).
-/

namespace Obserwrt
namespace Ipfix

open Lib

/-! ## Templates -/

/-- A field specifier; `enterprise` is absent for the IANA elements. -/
structure FieldSpec where
  enterprise : Option Nat
  element : Nat
  length : Nat
  deriving DecidableEq

/-- Read a field specifier.  The top bit of the element says that an
enterprise number follows. -/
def takeSpec (bs : Bytes) : Option (FieldSpec × Bytes) := do
  let (element, bs) ← takeNat 2 bs
  let (length, bs) ← takeNat 2 bs
  if element < 0x8000 then
    some ({ enterprise := none, element := element, length := length }, bs)
  else do
    let (enterprise, bs) ← takeNat 4 bs
    some ({ enterprise := some enterprise, element := element - 0x8000, length := length }, bs)

def takeSpecs : Nat → Bytes → Option (List FieldSpec × Bytes)
  | 0, bs => some ([], bs)
  | count + 1, bs => do
      let (spec, bs) ← takeSpec bs
      let (specs, bs) ← takeSpecs count bs
      some (spec :: specs, bs)

/-- Read a template record: a template id, a field count and the fields. -/
def takeTemplate (bs : Bytes) : Option ((Nat × List FieldSpec) × Bytes) := do
  let (tid, bs) ← takeNat 2 bs
  let (count, bs) ← takeNat 2 bs
  -- ids below 256 are set ids, and no fields would be a withdrawal
  if tid < 256 ∨ count = 0 then
    none
  else do
    let (specs, bs) ← takeSpecs count bs
    some ((tid, specs), bs)

/-! ## Data records -/

/-- A data record with the template it was cut by. -/
structure DataRecord where
  templateId : Nat
  fields : List (FieldSpec × Bytes)
  deriving DecidableEq

/-- Read one field.  Length 65535 announces a variable length, sent in front
of the value in one byte or, after 255, in two. -/
def takeField (spec : FieldSpec) (bs : Bytes) : Option (Bytes × Bytes) :=
  if spec.length = 65535 then do
    let (short, bs) ← takeNat 1 bs
    if short < 255 then
      takeBytes short bs
    else do
      let (long, bs) ← takeNat 2 bs
      takeBytes long bs
  else
    takeBytes spec.length bs

def takeFields : List FieldSpec → Bytes → Option (List (FieldSpec × Bytes) × Bytes)
  | [], bs => some ([], bs)
  | spec :: specs, bs => do
      let (value, bs) ← takeField spec bs
      let (fields, bs) ← takeFields specs bs
      some ((spec, value) :: fields, bs)

/-! ## Messages -/

/-- Read a set: its id and its contents. -/
def takeSet (bs : Bytes) : Option ((Nat × Bytes) × Bytes) := do
  let (setId, bs) ← takeNat 2 bs
  let (length, bs) ← takeNat 2 bs
  if length < 4 then
    none
  else do
    let (contents, bs) ← takeBytes (length - 4) bs
    some ((setId, contents), bs)

structure Message where
  exportTime : Nat
  sequence : Nat
  domain : Nat
  sets : List (Nat × Bytes)
  deriving DecidableEq

/-- Parse a datagram, which is exactly one message. -/
def parseMessage (datagram : Bytes) : Option Message := do
  let (version, bs) ← takeNat 2 datagram
  let (length, bs) ← takeNat 2 bs
  let (exportTime, bs) ← takeNat 4 bs
  let (sequence, bs) ← takeNat 4 bs
  let (domain, bs) ← takeNat 4 bs
  if version = 10 ∧ length = datagram.length then do
    let sets ← cut takeSet bs
    some { exportTime := exportTime, sequence := sequence, domain := domain, sets := sets }
  else
    none

/-! ## The stream -/

/-- The templates received, by observation domain and template id. -/
abbrev Templates := Store (Nat × Nat) (List FieldSpec)

def learn (domain : Nat) (known : Templates) (template : Nat × List FieldSpec) : Templates :=
  known.insert (domain, template.1) template.2

/-- Process one set: learn from a template set, cut a data set. -/
def collectSet (domain : Nat) (known : Templates) (set : Nat × Bytes) :
    Option (Templates × List DataRecord) :=
  if set.1 = 2 then do
    let templates ← cut takeTemplate set.2
    some (templates.foldl (learn domain) known, [])
  else if 256 ≤ set.1 then do
    -- a template is known only in the domain it was sent in
    let specs ← known.lookup (domain, set.1)
    let rows ← cut (takeFields specs) set.2
    some (known, rows.map (DataRecord.mk set.1))
  else
    none

/-- Process one datagram. -/
def collectMessage (known : Templates) (datagram : Bytes) :
    Option (Templates × List DataRecord) := do
  let message ← parseMessage datagram
  transduce (collectSet message.domain) known message.sets

/-- Process a stream of datagrams. -/
def collectStream (known : Templates) (stream : List Bytes) :
    Option (Templates × List DataRecord) :=
  transduce collectMessage known stream

/-! ## What a record means -/

/-- One flow observation, as the elements of its record tell it. -/
structure Observation where
  family : Nat
  src : Bytes
  dst : Bytes
  sport : Nat
  dport : Nat
  protocol : Nat
  packets : Nat
  bytes : Nat
  startMs : Nat
  endMs : Nat
  tcpFlags : Nat
  ingress : Nat
  egress : Nat
  icmpType : Nat
  icmpCode : Nat
  direction : Nat
  endReason : Nat
  samplingInterval : Nat
  vlanId : Nat
  forwardingStatus : Nat
  tos : Nat
  deriving DecidableEq

/-- The prefix of an IPv4-mapped IPv6 address, `::ffff:0:0/96`. -/
def mappedNet : Bytes := [0, 0, 0, 0, 0, 0, 0, 0, 0, 0, 0xff, 0xff]

namespace DataRecord

/-- The value of an IANA element. -/
def field (r : DataRecord) (element : Nat) : Option Bytes :=
  (r.fields.find? fun f => decide (f.1.enterprise = none) && f.1.element == element).map Prod.snd

/-- The value of a numeric element. -/
def number (r : DataRecord) (element : Nat) : Option Nat :=
  (r.field element).map netValue

/-- The address family of a record, with its addresses as IPv6 addresses. -/
def addresses (r : DataRecord) : Option (Nat × Bytes × Bytes) :=
  match r.field 8, r.field 12, r.field 27, r.field 28 with
  | some src, some dst, none, none => some (4, mappedNet ++ src, mappedNet ++ dst)
  | none, none, some src, some dst => some (6, src, dst)
  | _, _, _, _ => none

/-- Read an observation off a record. -/
def observation (r : DataRecord) : Option Observation := do
  let (family, src, dst) ← r.addresses
  let sport ← r.number 7
  let dport ← r.number 11
  let protocol ← r.number 4
  let packets ← r.number 2
  let bytes ← r.number 1
  let startMs ← r.number 152
  let endMs ← r.number 153
  let tcpFlags ← r.number 6
  let ingress ← r.number 10
  let egress ← r.number 14
  let icmpTypeCode ← r.number (if family = 4 then 32 else 139)
  let direction ← r.number 61
  let endReason ← r.number 136
  let samplingInterval ← r.number 34
  let vlanId ← r.number 58
  let forwardingStatus ← r.number 89
  let tos ← r.number 5
  some {
    family := family
    src := src
    dst := dst
    sport := sport
    dport := dport
    protocol := protocol
    packets := packets
    bytes := bytes
    startMs := startMs
    endMs := endMs
    tcpFlags := tcpFlags
    ingress := ingress
    egress := egress
    icmpType := icmpTypeCode / 256
    icmpCode := icmpTypeCode % 256
    direction := direction
    endReason := endReason
    samplingInterval := samplingInterval
    vlanId := vlanId
    forwardingStatus := forwardingStatus
    tos := tos
  }

end DataRecord

/-- Everything a stream reports, in the order of the stream. -/
def collect (stream : List Bytes) : Option (List Observation) := do
  let (_, records) ← collectStream ∅ stream
  records.mapM DataRecord.observation

end Ipfix
end Obserwrt
