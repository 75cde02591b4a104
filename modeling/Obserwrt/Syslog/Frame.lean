import Mathlib.Data.List.DropRight
import Obserwrt.Lib.Rfc5424

/-!
# The RFC 5424 envelope

`SyslogExporter::frame` with `iso_timestamp`, and where its host name comes
from: the configuration, or `sys_hostname` when that is empty.  `gmtime_r` is
the calendar of the library.
-/

namespace Obserwrt
namespace Syslog

open Lib

/-- `strftime` of `%Y-%m-%dT%H:%M:%SZ`.  The buffer holds the text of every year
of four digits. -/
def isoTimestamp (t : Int) : Bytes :=
  let tm := clockOf t
  decimalBytes tm.date.year.toNat ++ text "-" ++ twoDigits tm.date.month ++ text "-" ++
    twoDigits tm.date.day ++ text "T" ++ twoDigits tm.hour ++ text ":" ++ twoDigits tm.minute ++
    text ":" ++ twoDigits tm.second ++ text "Z"

/-- `sys_hostname`, from what `/proc/sys/kernel/hostname` holds (`none` when it
cannot be opened): at most 128 bytes, without the line ends behind them. -/
def sysHostname (file : Option Bytes) : Bytes :=
  match file with
  | none => []
  | some content => (content.take 128).rdropWhile fun b => b == 10 || b == 13

/-- `host_` as `init` sets it. -/
def initHost (configured : Bytes) (file : Option Bytes) : Bytes :=
  if configured = [] then sysHostname file else configured

/-- `SyslogExporter::frame`. -/
def frame (message hostname : Bytes) (now : Int) : Bytes :=
  text "<134>1 " ++ isoTimestamp now ++ text " " ++ hostname ++ text " obserwrt - - - " ++ message

/-- The header that a collector should find. -/
def frameHeader (hostname : Bytes) (now : Int) : Header where
  pri := 134
  version := 1
  time := some now
  hostname := if hostname = [] then none else some hostname
  appName := some (text "obserwrt")
  procId := none
  msgId := none
  structuredData := none

/-- A year of four digits. -/
def FourDigitYear (t : Int) : Prop :=
  1000 ≤ (dateOfDays (t / 86400)).year ∧ (dateOfDays (t / 86400)).year ≤ 9999

instance (t : Int) : Decidable (FourDigitYear t) :=
  inferInstanceAs (Decidable (_ ∧ _))

/-! ## Up to the host name -/

theorem isoTimestamp_eq (t : Int) : isoTimestamp t = (clockOf t).bytes := by
  simp [isoTimestamp, Clock.bytes, text]

theorem readTimestamp_iso {t : Int} (hyear : FourDigitYear t) :
    readTimestamp (isoTimestamp t) = some t := by
  rw [isoTimestamp_eq, readTimestamp_bytes (clockOf_valid t) hyear.1 hyear.2, seconds_clockOf]

theorem isoTimestamp_token (t : Int) : isoTimestamp t ≠ [] ∧ 32 ∉ isoTimestamp t := by
  have hdecimal : 32 ∉ decimalBytes (clockOf t).date.year.toNat :=
    fun hmem => absurd (decimalBytes_isDigit _ 32 hmem) (by decide)
  have htwo : ∀ n < 100, 32 ∉ twoDigits n := by
    decide +kernel
  obtain ⟨hmonth, hday, hhour, hminute, hsecond⟩ := Clock.lt_of_valid (clockOf_valid t)
  rw [isoTimestamp_eq, Clock.bytes]
  refine ⟨by simp, ?_⟩
  simp [hdecimal, htwo _ hmonth, htwo _ hday, htwo _ hhour, htwo _ hminute, htwo _ hsecond]

theorem timeValue_iso {t : Int} (hyear : FourDigitYear t) :
    timeValue (isoTimestamp t) = some (some t) := by
  have hne : isoTimestamp t ≠ [45] := by
    intro heq
    have hread := readTimestamp_iso hyear
    have hnil : readTimestamp [45] = none := rfl
    rw [heq, hnil] at hread
    exact absurd hread (by simp)
  rw [timeValue, if_neg hne, readTimestamp_iso hyear, Option.map_some]

/-- The reader gets to the host name. -/
theorem readHeader_frame {now : Int} (hyear : FourDigitYear now) (message hostname : Bytes) :
    readHeader (frame message hostname now) =
      readFields 134 1 (some now) (hostname ++ 32 :: (text "obserwrt - - - " ++ message)) := by
  obtain ⟨hne, hspace⟩ := isoTimestamp_token now
  have hpri : decimalBytes 134 = text "134" := by decide +kernel
  have hversion : decimalBytes 1 = text "1" := by decide +kernel
  have hframe : frame message hostname now =
      60 :: (decimalBytes 134 ++ 62 :: (decimalBytes 1 ++ 32 :: (isoTimestamp now ++ 32 ::
        (hostname ++ 32 :: (text "obserwrt - - - " ++ message))))) := by
    rw [hpri, hversion]
    simp [frame, text]
  rw [hframe]
  exact readHeader_stamp 134 1 hne hspace (timeValue_iso hyear) _

/-- The fields behind a proper host name. -/
theorem readFields_host {hostname : Bytes} (hne : hostname ≠ []) (hspace : 32 ∉ hostname)
    (time : Option Int) (message : Bytes) :
    readFields 134 1 time (hostname ++ 32 :: (text "obserwrt - - - " ++ message)) =
      some (⟨134, 1, time, fieldValue hostname, some (text "obserwrt"), none, none, none⟩,
        message) := by
  have hrest : text "obserwrt - - - " ++ message =
      text "obserwrt" ++ 32 :: ([45] ++ 32 :: ([45] ++ 32 :: ([45] ++ 32 :: message))) := by
    simp [text]
  have hdash : ∀ rest, readToken ([45] ++ 32 :: rest) = some ([45], rest) :=
    readToken_append (by decide) (by decide)
  have happ : ∀ rest, readToken (text "obserwrt" ++ 32 :: rest) = some (text "obserwrt", rest) :=
    readToken_append (by decide) (by decide)
  rw [hrest]
  simp only [readFields, Option.bind_eq_bind, readToken_append hne hspace, Option.bind_some, happ,
    hdash]
  rfl

/-- The host name that the reader finds is the one that was written only when it
is a field. -/
theorem hostname_of_readFields {hostname rest message : Bytes} {time : Option Int} {h : Header}
    (hread : readFields 134 1 time (hostname ++ 32 :: rest) = some (h, message))
    (hhost : h.hostname = if hostname = [] then none else some hostname) :
    hostname ≠ [] ∧ 32 ∉ hostname ∧ hostname ≠ text "-" := by
  simp only [readFields, Option.bind_eq_bind, Option.bind_eq_some_iff] at hread
  obtain ⟨⟨host, bs⟩, htoken, ⟨app, bs₁⟩, -, ⟨proc, bs₂⟩, -, ⟨msg, bs₃⟩, -, ⟨data, bs₄⟩, -,
    hlast⟩ := hread
  obtain ⟨rfl, -⟩ := Prod.mk.inj (Option.some.inj hlast)
  have hne : hostname ≠ [] := by
    rintro rfl
    exact absurd htoken (by simp [readToken_space])
  rw [if_neg hne] at hhost
  obtain ⟨rfl, hdash⟩ := fieldValue_eq_some_iff.mp hhost
  exact ⟨hne, readToken_no_space htoken, hdash⟩

/-- **When the envelope is decodable.**  For every message, every time with a
year of four digits and every host name that `init` can choose, the header
reader finds the priority, the version, the time, the host name (no value when
it is empty), the application name, three fields without a value and exactly
the message, if and only if the host name is not empty, has no space in it and
is not `-`. -/
theorem frame_decodes_iff (message configured : Bytes) (file : Option Bytes) (now : Int)
    (hyear : FourDigitYear now) :
    readHeader (frame message (initHost configured file) now) =
        some (frameHeader (initHost configured file) now, message) ↔
      initHost configured file ≠ [] ∧ 32 ∉ initHost configured file ∧
        initHost configured file ≠ text "-" := by
  rw [readHeader_frame hyear]
  refine ⟨fun hread => hostname_of_readFields hread rfl, ?_⟩
  rintro ⟨hne, hspace, hdash⟩
  have hvalue : fieldValue (initHost configured file) = some (initHost configured file) :=
    fieldValue_eq_some_iff.mpr ⟨rfl, hdash⟩
  rw [readFields_host hne hspace, hvalue, frameHeader, if_neg hne]

theorem frame_decodes_configured :
    readHeader (frame (text "a b - c") (initHost (text "probe-awg0") none) 1700000000) =
      some (frameHeader (text "probe-awg0") 1700000000, text "a b - c") :=
  (frame_decodes_iff (text "a b - c") (text "probe-awg0") none 1700000000
    (by decide +kernel)).mpr (by decide +kernel)

/-- Without a configured name and a readable file the field is left out instead
of `-`, and the header cannot be read. -/
theorem empty_hostname_unreadable :
    FourDigitYear 1700000000 ∧ initHost [] none = [] ∧
      readHeader (frame (text "hello") (initHost [] none) 1700000000) = none := by
  have hyear : FourDigitYear 1700000000 := by decide +kernel
  refine ⟨hyear, rfl, ?_⟩
  rw [readHeader_frame hyear]
  rfl

end Syslog
end Obserwrt
