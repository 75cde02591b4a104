import Obserwrt.Syslog.Record

/-!
# What the syslog payloads carry

Both payloads exist exactly when the interface name and the drop reason are
UTF-8: every other string of the record is ASCII.  Where they exist, a reader
of either format finds the 21 fields of the record, whatever the name and the
reason spell.
-/

namespace Obserwrt
namespace Syslog

open Lib

/-! ## When there is a payload -/

theorem fieldNames_utf8 : fieldNames.all validUtf8 = true := by
  decide +kernel

/-- The strict dump of the object depends on its five strings. -/
theorem object_utf8 (r : SyslogRecord) :
    r.object.all memberUtf8 =
      (validUtf8 r.ifname && validUtf8 r.direction && validUtf8 r.src && validUtf8 r.dst &&
        validUtf8 r.dropReason) := by
  rw [all_memberUtf8 (by rw [object_names]; exact fieldNames_utf8)]
  simp [SyslogRecord.object, Scalar.utf8, Bool.and_assoc]

/-- The texts that `encode_logfmt` appends without quotes. -/
def wordNames : List Bytes := [text "direction"]

theorem flag_append (b : Bool) : (if b then text "1" else text "0") = decimalBytes b.toNat := by
  cases b with
  | false => decide +kernel
  | true => decide +kernel

/-- The appends of `encode_logfmt` make the line of the members of the object. -/
theorem appends_flatten (r : SyslogRecord) :
    (r.appends (jsonString r.ifname) (jsonString r.src) (jsonString r.dst)
        (jsonString r.dropReason)).flatten =
      logLine (r.object.map (logMember wordNames)) := by
  simp only [SyslogRecord.appends, SyslogRecord.object, flag_append, List.map_cons, List.map_nil,
    logMember, logLine, joinItems, logField, LogValue.bytes, List.flatten_cons, List.flatten_nil,
    List.append_nil, List.append_assoc, List.cons_append]
  simp [text, wordNames]

/-- The object of a record whose other strings are UTF-8. -/
theorem dumpObject_object {r : SyslogRecord} (hdir : validUtf8 r.direction = true)
    (hsrc : validUtf8 r.src = true) (hdst : validUtf8 r.dst = true) :
    dumpObject r.object =
      if validUtf8 r.ifname = true ∧ validUtf8 r.dropReason = true then some (objectJson r.object)
      else none := by
  rw [dumpObject, object_utf8, hdir, hsrc, hdst]
  simp only [Bool.and_true, Bool.and_eq_true]

/-- The line of a record whose addresses are UTF-8. -/
theorem logfmt_eq {r : SyslogRecord} (hsrc : validUtf8 r.src = true)
    (hdst : validUtf8 r.dst = true) :
    r.logfmt =
      if validUtf8 r.ifname = true ∧ validUtf8 r.dropReason = true then
        some (logLine (r.object.map (logMember wordNames)))
      else none := by
  rw [SyslogRecord.logfmt, ← appends_flatten]
  simp only [dumpString, hsrc, hdst, if_true, Option.bind_some]
  by_cases hname : validUtf8 r.ifname = true
  · by_cases hreason : validUtf8 r.dropReason = true
    · simp only [hname, hreason, if_true, Option.bind_some, Option.map_some, and_self]
    · simp only [hname, hreason, if_true, if_false, Option.bind_some, Option.map_none, and_false,
        Bool.false_eq_true]
  · simp only [hname, if_false, Option.bind_none, false_and, Bool.false_eq_true]

/-- White space as `isspace` has it. -/
def isSpaceByte (b : UInt8) : Bool := b == 32 || (9 ≤ b && b ≤ 13)

/-- The interface names Linux accepts. -/
structure KernelName (name : Bytes) : Prop where
  hlength : 1 ≤ name.length ∧ name.length ≤ 15
  hbytes : ∀ b ∈ name, b ≠ 0 ∧ b ≠ 47 ∧ b ≠ 58 ∧ isSpaceByte b = false
  hdots : name ≠ text "." ∧ name ≠ text ".."

/-- An ICMPv6 drop on the way in. -/
def echoKey : FlowKey where
  ifindex := 7
  direction := 0
  family := 6
  protocol := 58
  reserved := 0
  src := ⟨[0xfd, 0x12, 0x34, 0x56, 0x78, 0x9a, 0xbc, 0xde,
    0x10, 0x01, 0x20, 0x02, 0x30, 0x03, 0x40, 0x04], rfl⟩
  dst := ⟨[0x2a, 0x00, 0x14, 0x50, 0x40, 0x01, 0x80, 0x80,
    0x90, 0x90, 0xa0, 0xa0, 0xb0, 0xb0, 0xc0, 0xc0], rfl⟩
  sport := 0
  dport := 0
  icmpType := 128
  icmpCode := 0

def echoVal : FlowVal where
  packets := 3
  bytes := 312
  firstSeen := 1000
  lastSeen := 2000
  tcpFlags := 0
  vlanId := 12
  tos := 0xb9

section Observation

variable (inet : InetText) (k : FlowKey) (v : FlowVal) (expired : Bool) (delta : Option Delta)
  (ifname : Bytes) (drop : Option DropInfo)

/-- The strings of a record that can be anything are UTF-8. -/
def Utf8Strings : Prop := validUtf8 ifname = true ∧ ∀ d ∈ drop, validUtf8 d.reason = true

instance : Decidable (Utf8Strings ifname drop) :=
  inferInstanceAs (Decidable (_ ∧ _))

theorem direction_cases :
    (makeRecord inet k v expired delta ifname drop).direction = text "ingress" ∨
      (makeRecord inet k v expired delta ifname drop).direction = text "egress" :=
  ite_eq_or_eq _ _ _

theorem direction_utf8 :
    validUtf8 (makeRecord inet k v expired delta ifname drop).direction = true := by
  rcases direction_cases inet k v expired delta ifname drop with hdir | hdir
  · rw [hdir]
    decide +kernel
  · rw [hdir]
    decide +kernel

/-- A flow record has an empty reason, a drop record its own. -/
theorem utf8Strings_iff :
    validUtf8 (makeRecord inet k v expired delta ifname drop).ifname = true ∧
        validUtf8 (makeRecord inet k v expired delta ifname drop).dropReason = true ↔
      Utf8Strings ifname drop := by
  cases drop with
  | none =>
      have hempty : validUtf8 [] = true := validUtf8_of_ascii (by simp)
      simp [makeRecord, Utf8Strings, hempty]
  | some d => simp [makeRecord, Utf8Strings]

/-- `encode_json` in closed form. -/
theorem encodeJson_eq :
    encodeJson inet k v expired delta ifname drop =
      if Utf8Strings ifname drop then
        some (objectJson (makeRecord inet k v expired delta ifname drop).object)
      else none := by
  rw [encodeJson, dumpObject_object (direction_utf8 inet k v expired delta ifname drop)
    (validUtf8_of_ascii (addrText_ascii inet k.src k.family))
    (validUtf8_of_ascii (addrText_ascii inet k.dst k.family))]
  exact if_congr (utf8Strings_iff inet k v expired delta ifname drop) rfl rfl

/-- `encode_logfmt` in closed form. -/
theorem encodeLogfmt_eq :
    encodeLogfmt inet k v expired delta ifname drop =
      if Utf8Strings ifname drop then
        some (logLine
          ((makeRecord inet k v expired delta ifname drop).object.map (logMember wordNames)))
      else none := by
  rw [encodeLogfmt, logfmt_eq (validUtf8_of_ascii (addrText_ascii inet k.src k.family))
    (validUtf8_of_ascii (addrText_ascii inet k.dst k.family))]
  exact if_congr (utf8Strings_iff inet k v expired delta ifname drop) rfl rfl

/-- **Where the syslog exporter survives a name.**  For every observation and
every interface name, both encoders return a line exactly when the name and,
for a drop, the reason are UTF-8. -/
theorem encoders_return_iff :
    (∃ json, encodeJson inet k v expired delta ifname drop = some json) ∧
        (∃ line, encodeLogfmt inet k v expired delta ifname drop = some line) ↔
      validUtf8 ifname = true ∧ ∀ d ∈ drop, validUtf8 d.reason = true := by
  rw [encodeJson_eq, encodeLogfmt_eq]
  by_cases hstrings : Utf8Strings ifname drop
  · rw [if_pos hstrings, if_pos hstrings]
    exact iff_of_true ⟨⟨_, rfl⟩, ⟨_, rfl⟩⟩ hstrings
  · rw [if_neg hstrings, if_neg hstrings]
    exact iff_of_false (by simp) hstrings

end Observation

/-- A one-byte name that Linux accepts ends the daemon at the first observation
on its device, in either format. -/
theorem latin1_name_aborts :
    KernelName [0xff] ∧
      encodeJson fullForm echoKey echoVal false none [0xff] none = none ∧
      encodeLogfmt fullForm echoKey echoVal false none [0xff] none = none := by
  have hstrings : ¬Utf8Strings [0xff] none := by decide +kernel
  refine ⟨⟨by decide, by decide +kernel, by decide +kernel⟩, ?_, ?_⟩
  · rw [encodeJson_eq, if_neg hstrings]
  · rw [encodeLogfmt_eq, if_neg hstrings]

/-! ## What a reader finds -/

section Observation

variable (inet : InetText) (k : FlowKey) (v : FlowVal) (expired : Bool) (delta : Option Delta)
  (ifname : Bytes) (drop : Option DropInfo)

/-- The line tells the members of the object apart. -/
theorem object_carries :
    ∀ m ∈ (makeRecord inet k v expired delta ifname drop).object,
      carries flagNames wordNames m = true := by
  have hword : ∀ d, d = text "ingress" ∨ d = text "egress" →
      d.all isPlain = true ∧ wholeNat d = none := by
    rintro d (rfl | rfl)
    · decide +kernel
    · decide +kernel
  obtain ⟨hplain, hnumber⟩ := hword _ (direction_cases inet k v expired delta ifname drop)
  rw [← List.all_eq_true]
  simp [SyslogRecord.object, carries, hplain, hnumber, text, flagNames, wordNames, isPlain,
    quoteByte]

/-- **Both payloads carry the record.**  For every observation with a UTF-8
interface name and reason there is a JSON and a logfmt payload.  The readers of
the two formats find the same fields in them, the 21 fields of the record that
`make_record` built, in order; the record is determined by these, and its
addresses read back to the octets of the key. -/
theorem payloads_carry_record (hname : validUtf8 ifname = true)
    (hreason : ∀ d ∈ drop, validUtf8 d.reason = true) :
    ∃ json line,
      encodeJson inet k v expired delta ifname drop = some json ∧
      encodeLogfmt inet k v expired delta ifname drop = some line ∧
      readObject json = some (makeRecord inet k v expired delta ifname drop).object ∧
      readLogMembers flagNames line =
        some (makeRecord inet k v expired delta ifname drop).object ∧
      (makeRecord inet k v expired delta ifname drop).object.map Prod.fst = fieldNames ∧
      fieldNames.length = 21 ∧
      SyslogRecord.ofFields (makeRecord inet k v expired delta ifname drop).object =
        some (makeRecord inet k v expired delta ifname drop) ∧
      readAddr inet k.family (makeRecord inet k v expired delta ifname drop).src =
        some (addrOctets k.src k.family) ∧
      readAddr inet k.family (makeRecord inet k v expired delta ifname drop).dst =
        some (addrOctets k.dst k.family) := by
  have hstrings : Utf8Strings ifname drop := ⟨hname, hreason⟩
  have hjson := encodeJson_eq inet k v expired delta ifname drop
  have hline := encodeLogfmt_eq inet k v expired delta ifname drop
  rw [if_pos hstrings] at hjson hline
  refine ⟨_, _, hjson, hline, readObject_objectJson _, ?_, object_names _, rfl,
    ofFields_object _, readAddr_addrText inet k.src k.family, readAddr_addrText inet k.dst k.family⟩
  exact readLogMembers_logLine (List.cons_ne_nil _ _)
    (object_carries inet k v expired delta ifname drop)

end Observation

/-- A name that tries to end its field and begin another. -/
def forgingName : Bytes := text "a\" dscp=9\\"

/-- A reason with a quote and a line break in it. -/
def oddDrop : DropInfo where
  forwardingStatus := 130
  reason := text "NET\"FILTER\n"

theorem payloads_carry_record_demo :
    ∃ json line,
      encodeJson fullForm echoKey echoVal true none forgingName (some oddDrop) = some json ∧
      encodeLogfmt fullForm echoKey echoVal true none forgingName (some oddDrop) = some line ∧
      readObject json = readLogMembers flagNames line ∧
      (readObject json).bind SyslogRecord.ofFields =
        some (makeRecord fullForm echoKey echoVal true none forgingName (some oddDrop)) := by
  obtain ⟨json, line, hjson, hline, hobject, hmembers, -, -, hrecord, -, -⟩ :=
    payloads_carry_record fullForm echoKey echoVal true none forgingName (some oddDrop)
      (by decide +kernel) (by decide +kernel)
  refine ⟨json, line, hjson, hline, ?_, ?_⟩
  · rw [hobject, hmembers]
  · rw [hobject, Option.bind_some, hrecord]

end Syslog
end Obserwrt
