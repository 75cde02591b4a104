import Obserwrt.Ipfix.Exporter
import Obserwrt.Ipfix.Collector

/-!
# The exporter's messages, as the collector reads them

One lemma for each level of the framing: field specifiers and template
records, fields and data records, sets, messages.  Each says that what the
exporter writes is read back by the collector's parser with nothing left over,
for any field list and any contents that fit the 16-bit lengths.
-/

namespace Obserwrt
namespace Ipfix

open Lib

/-! ## Templates -/

/-- A table of element/length pairs as field specifiers. -/
def specs (fields : List (UInt16 × UInt16)) : List FieldSpec :=
  fields.map fun f => { enterprise := none, element := f.1.toNat, length := f.2.toNat }

theorem takeSpec_be16 {element : UInt16} (length : UInt16) (rest : Bytes)
    (helement : element.toNat < 0x8000) :
    takeSpec (be16 element ++ (be16 length ++ rest)) =
      some ({ enterprise := none, element := element.toNat, length := length.toNat }, rest) := by
  simp [takeSpec, helement]

theorem takeSpecs_flatMap {fields : List (UInt16 × UInt16)} (rest : Bytes)
    (hfields : ∀ f ∈ fields, f.1.toNat < 0x8000) :
    takeSpecs fields.length (fields.flatMap (fun f => be16 f.1 ++ be16 f.2) ++ rest) =
      some (specs fields, rest) := by
  induction fields with
  | nil => rfl
  | cons f fields ih =>
      have hrest := ih fun g hg => hfields g (by simp [hg])
      have hfirst := takeSpec_be16 f.2
        (fields.flatMap (fun f => be16 f.1 ++ be16 f.2) ++ rest) (hfields f (by simp))
      simp only [List.flatMap_cons, List.append_assoc, List.length_cons, takeSpecs, hfirst]
      simp only [Option.bind_eq_bind, Option.bind_some, hrest]
      rfl

/-- The template record inside `template_set`. -/
def templateRecord (tid : UInt16) (fields : List (UInt16 × UInt16)) : Bytes :=
  be16 tid ++ be16 (UInt16.ofNat fields.length) ++ fields.flatMap fun f => be16 f.1 ++ be16 f.2

@[simp] theorem templateRecord_length (tid : UInt16) (fields : List (UInt16 × UInt16)) :
    (templateRecord tid fields).length = 4 + 4 * fields.length := by
  simp [templateRecord, List.length_flatMap]
  omega

theorem takeTemplate_templateRecord {tid : UInt16} {fields : List (UInt16 × UInt16)} (rest : Bytes)
    (htid : 256 ≤ tid.toNat) (hne : fields ≠ []) (hcount : fields.length < 2 ^ 16)
    (hfields : ∀ f ∈ fields, f.1.toNat < 0x8000) :
    takeTemplate (templateRecord tid fields ++ rest) = some ((tid.toNat, specs fields), rest) := by
  have hlength : (UInt16.ofNat fields.length).toNat = fields.length :=
    UInt16.toNat_ofNat_of_lt' hcount
  have hguard : ¬(tid.toNat < 256 ∨ fields.length = 0) := by
    rw [not_or]
    exact ⟨by omega, by simpa using hne⟩
  simp only [templateRecord, takeTemplate, List.append_assoc, takeNat_be16, Option.bind_eq_bind,
    Option.bind_some, hlength, if_neg hguard, takeSpecs_flatMap rest hfields]

/-! ## Data records -/

theorem takeField_fixed {spec : FieldSpec} {value : Bytes} (rest : Bytes)
    (hfixed : spec.length ≠ 65535) (hlength : spec.length = value.length) :
    takeField spec (value ++ rest) = some (value, rest) := by
  rw [takeField, if_neg hfixed, hlength, takeBytes_append rest rfl]

theorem takeFields_flatten {table : List FieldSpec} {values : List Bytes} (rest : Bytes)
    (hfixed : ∀ spec ∈ table, spec.length ≠ 65535)
    (hlengths : table.map FieldSpec.length = values.map List.length) :
    takeFields table (values.flatten ++ rest) = some (table.zip values, rest) := by
  induction table generalizing values with
  | nil =>
      obtain rfl : values = [] := by simpa using hlengths.symm
      rfl
  | cons spec table ih =>
      cases values with
      | nil => simp at hlengths
      | cons value values =>
          rw [List.map_cons, List.map_cons, List.cons.injEq] at hlengths
          have hfirst := takeField_fixed (values.flatten ++ rest)
            (hfixed spec (by simp)) hlengths.1
          have hrest := ih (fun s hs => hfixed s (by simp [hs])) hlengths.2
          simp only [List.flatten_cons, List.append_assoc, takeFields, hfirst, Option.bind_eq_bind,
            Option.bind_some, hrest, List.zip_cons_cons]

/-! ## Sets and messages -/

/-- A set: its id, its length and its contents. -/
def setBytes (set : UInt16 × Bytes) : Bytes :=
  be16 set.1 ++ (be16 (UInt16.ofNat (4 + set.2.length)) ++ set.2)

@[simp] theorem setBytes_length (set : UInt16 × Bytes) :
    (setBytes set).length = 4 + set.2.length := by
  simp only [setBytes, List.length_append, be16_length]
  omega

theorem takeSet_setBytes {set : UInt16 × Bytes} (rest : Bytes)
    (hlength : 4 + set.2.length < 2 ^ 16) :
    takeSet (setBytes set ++ rest) = some ((set.1.toNat, set.2), rest) := by
  have hcast : (UInt16.ofNat (4 + set.2.length)).toNat = 4 + set.2.length :=
    UInt16.toNat_ofNat_of_lt' hlength
  have hguard : ¬4 + set.2.length < 4 := by omega
  simp only [setBytes, takeSet, List.append_assoc, takeNat_be16, Option.bind_eq_bind,
    Option.bind_some, hcast, if_neg hguard, Nat.add_sub_cancel_left,
    takeBytes_append rest (rfl : set.2.length = _)]

theorem cut_takeSet {sets : List (UInt16 × Bytes)}
    (hlengths : ∀ set ∈ sets, 4 + set.2.length < 2 ^ 16) :
    cut takeSet (sets.flatMap setBytes) = some (sets.map fun set => (set.1.toNat, set.2)) := by
  refine cut_flatMap (fun set hset rest => takeSet_setBytes rest (hlengths set hset)) ?_
  intro set _
  rw [← List.length_pos_iff, setBytes_length]
  omega

namespace Exporter

/-- A message of the exporter is parsed back into its header and its sets. -/
theorem parseMessage_header (e : Exporter) (t : UInt32) (sets : List (UInt16 × Bytes))
    (hlength : 16 + (sets.flatMap setBytes).length < 2 ^ 16)
    (hsets : ∀ set ∈ sets, 4 + set.2.length < 2 ^ 16) :
    parseMessage (e.header (16 + (sets.flatMap setBytes).length) t ++ sets.flatMap setBytes) =
      some {
        exportTime := t.toNat
        sequence := e.seq.toNat
        domain := e.obsDomain.toNat
        sets := sets.map fun set => (set.1.toNat, set.2)
      } := by
  have hcast : (UInt16.ofNat (16 + (sets.flatMap setBytes).length)).toNat =
      16 + (sets.flatMap setBytes).length := UInt16.toNat_ofNat_of_lt' hlength
  have hversion : version.toNat = 10 := rfl
  simp only [parseMessage, header, List.append_assoc, takeNat_be16, takeNat_be32,
    Option.bind_eq_bind, Option.bind_some, hcast, hversion, cut_takeSet hsets]
  rw [if_pos]
  refine ⟨trivial, ?_⟩
  simp only [List.length_append, be16_length, be32_length]
  omega

/-- A data message is read as its one set. -/
theorem parseMessage_dataMessage (e : Exporter) (t : UInt32) (setId : UInt16)
    {chunk : List Bytes} (hroom : chunk.flatten.length ≤ chunkRoom) :
    parseMessage (e.dataMessage t setId chunk) =
      some {
        exportTime := t.toNat
        sequence := e.seq.toNat
        domain := e.obsDomain.toNat
        sets := [(setId.toNat, chunk.flatten)]
      } := by
  have hbound : chunk.flatten.length ≤ 1180 := hroom
  have hbytes : [(setId, chunk.flatten)].flatMap setBytes =
      be16 setId ++ (be16 (UInt16.ofNat (4 + chunk.flatten.length)) ++ chunk.flatten) := by
    simp only [List.flatMap_singleton, setBytes]
  have hsize : 16 + ([(setId, chunk.flatten)].flatMap setBytes).length =
      msgHdr + setHdr + chunk.flatten.length := by
    simp only [List.flatMap_singleton, setBytes_length, msgHdr, setHdr]
    omega
  have hmessage : 16 + ([(setId, chunk.flatten)].flatMap setBytes).length < 2 ^ 16 := by
    rw [hsize, msgHdr, setHdr]
    omega
  have hset : ∀ set ∈ [(setId, chunk.flatten)], 4 + set.2.length < 2 ^ 16 := by
    intro set hmem
    obtain rfl : set = (setId, chunk.flatten) := List.mem_singleton.mp hmem
    simp only
    omega
  have hparse := e.parseMessage_header t _ hmessage hset
  rw [hsize, hbytes] at hparse
  simpa only [dataMessage, setHdr, List.append_assoc, List.map_singleton] using hparse

end Exporter

/-! ## The two templates -/

theorem templateSet_eq (tid : UInt16) (fields : List (UInt16 × UInt16)) :
    templateSet tid fields = setBytes (setTemplate, templateRecord tid fields) := by
  simp only [templateSet, setBytes, templateRecord, List.append_assoc]

theorem collectSet_template (domain : Nat) (known : Templates) (tid : UInt16)
    (fields : List (UInt16 × UInt16)) (htid : 256 ≤ tid.toNat) (hne : fields ≠ [])
    (hcount : fields.length < 2 ^ 16) (hfields : ∀ f ∈ fields, f.1.toNat < 0x8000) :
    collectSet domain known (setTemplate.toNat, templateRecord tid fields) =
      some (known.insert (domain, tid.toNat) (specs fields), []) := by
  have hcut : cut takeTemplate ([tid].flatMap fun tid => templateRecord tid fields) =
      some ([tid].map fun tid => (tid.toNat, specs fields)) := by
    refine cut_flatMap ?_ ?_
    · intro id hid rest
      obtain rfl : id = tid := by simpa using hid
      exact takeTemplate_templateRecord rest htid hne hcount hfields
    · intro id _
      rw [← List.length_pos_iff, templateRecord_length]
      omega
  have hid : setTemplate.toNat = 2 := rfl
  simp only [List.flatMap_singleton, List.map_singleton] at hcut
  simp [collectSet, hid, hcut, learn]

/-- The sets of a template message. -/
def templateSets : List (UInt16 × Bytes) :=
  [(setTemplate, templateRecord ipv4Tid fieldsV4), (setTemplate, templateRecord ipv6Tid fieldsV6)]

namespace Exporter

/-- The datagram of `send_templates`. -/
def templateMessage (e : Exporter) (t : UInt32) : Bytes :=
  e.header (16 + (templateSets.flatMap setBytes).length) t ++ templateSets.flatMap setBytes

theorem sendTemplates_eq (e : Exporter) (t : UInt32) :
    e.sendTemplates t = { e.send (e.templateMessage t) with lastTemplateSentS := t } := by
  simp only [sendTemplates, templateMessage, templateSets, templateSet_eq, List.flatMap_cons,
    List.flatMap_nil, List.append_nil]

theorem sendTemplates_stream (e : Exporter) (t : UInt32) :
    (e.sendTemplates t).stream = e.stream ++ [e.templateMessage t] := by
  rw [sendTemplates_eq, ← send_stream]
  rfl

/-- A collector that has received a template message knows both templates. -/
theorem collectMessage_templateMessage (e : Exporter) (t : UInt32) (known : Templates) :
    collectMessage known (e.templateMessage t) =
      some ((known.insert (e.obsDomain.toNat, 256) (specs fieldsV4)).insert
        (e.obsDomain.toNat, 257) (specs fieldsV6), []) := by
  have hparse := e.parseMessage_header t templateSets
    (by simp [templateSets, fieldsV4, fieldsV6]) (by simp [templateSets, fieldsV4, fieldsV6])
  have hv4 := collectSet_template e.obsDomain.toNat known ipv4Tid fieldsV4
    (by decide) (by decide) (by decide) (by simp [fieldsV4])
  have hv6 := collectSet_template e.obsDomain.toNat
    (known.insert (e.obsDomain.toNat, ipv4Tid.toNat) (specs fieldsV4)) ipv6Tid fieldsV6
    (by decide) (by decide) (by decide) (by simp [fieldsV6])
  -- the second set is read with the first template already learnt
  rw [collectMessage, templateMessage, hparse]
  simp only [templateSets, Option.bind_eq_bind, Option.bind_some, List.map_cons, List.map_nil,
    transduce, hv4, hv6]
  rfl

end Exporter
end Ipfix
end Obserwrt
