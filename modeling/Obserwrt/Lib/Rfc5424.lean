import Mathlib.Data.List.TakeWhile
import Obserwrt.Lib.Calendar
import Obserwrt.Lib.Text

/-!
# Syslog headers

The header of RFC 5424: a priority and a version, and then six fields that are
not empty, each with one space behind it, where `-` stands for a field without
a value.  Time stamps are those of RFC 3339 in UTC without fractions; they are
read as seconds since 1970-01-01.
-/

namespace Obserwrt
namespace Lib

/-! ## Time stamps -/

/-- A date and a time of day. -/
structure Clock where
  date : Date
  hour : Nat
  minute : Nat
  second : Nat
  deriving DecidableEq

/-- The clock in UTC, from the seconds since 1970-01-01. -/
def clockOf (t : Int) : Clock where
  date := dateOfDays (t / 86400)
  hour := (t % 86400).toNat / 3600
  minute := (t % 86400).toNat / 60 % 60
  second := (t % 86400).toNat % 60

/-- The seconds from 1970-01-01. -/
def Clock.seconds (c : Clock) : Int :=
  daysOfDate c.date * 86400 + c.hour * 3600 + c.minute * 60 + c.second

/-- A time of a day of the calendar. -/
def Clock.valid (c : Clock) : Bool :=
  c.date.valid && c.hour < 24 && c.minute < 60 && c.second < 60

theorem seconds_clockOf (t : Int) : (clockOf t).seconds = t := by
  rw [Clock.seconds, clockOf, daysOfDate_dateOfDays]
  simp only
  omega

theorem clockOf_valid (t : Int) : (clockOf t).valid = true := by
  have hhour : (t % 86400).toNat / 3600 < 24 := by omega
  have hminute : (t % 86400).toNat / 60 % 60 < 60 := by omega
  have hsecond : (t % 86400).toNat % 60 < 60 := by omega
  simp only [Clock.valid, clockOf, dateOfDays_valid, hhour, hminute, hsecond, decide_true,
    Bool.and_self]

/-- Two digits. -/
def twoDigits (n : Nat) : Bytes := [digitByte (n / 10), digitByte (n % 10)]

/-- Read a given number of digits. -/
def readDigits (k : Nat) (bs : Bytes) : Option (Nat × Bytes) :=
  if (bs.take k).length = k ∧ (bs.take k).all isDigitByte then
    some (digitsValue (bs.take k), bs.drop k)
  else none

/-- Read a time stamp. -/
def readTimestamp (bs : Bytes) : Option Int := do
  let (year, bs) ← readDigits 4 bs
  let bs ← expect [45] bs
  let (month, bs) ← readDigits 2 bs
  let bs ← expect [45] bs
  let (day, bs) ← readDigits 2 bs
  let bs ← expect [84] bs
  let (hour, bs) ← readDigits 2 bs
  let bs ← expect [58] bs
  let (minute, bs) ← readDigits 2 bs
  let bs ← expect [58] bs
  let (second, bs) ← readDigits 2 bs
  let bs ← expect [90] bs
  let clock : Clock := ⟨⟨year, month, day⟩, hour, minute, second⟩
  if bs = [] ∧ clock.valid then some clock.seconds else none

/-- The text of a clock. -/
def Clock.bytes (c : Clock) : Bytes :=
  decimalBytes c.date.year.toNat ++ 45 :: (twoDigits c.date.month ++ 45 ::
    (twoDigits c.date.day ++ 84 :: (twoDigits c.hour ++ 58 :: (twoDigits c.minute ++ 58 ::
      (twoDigits c.second ++ [90])))))

theorem readDigits_append {front : Bytes} (hdigits : ∀ b ∈ front, isDigitByte b = true)
    (rest : Bytes) :
    readDigits front.length (front ++ rest) = some (digitsValue front, rest) := by
  rw [readDigits, List.take_left, List.drop_left, if_pos]
  exact ⟨rfl, List.all_eq_true.mpr hdigits⟩

theorem readDigits_twoDigits {n : Nat} (hn : n < 100) (rest : Bytes) :
    readDigits 2 (twoDigits n ++ rest) = some (n, rest) := by
  have htens : n / 10 < 10 := by omega
  have hunits : n % 10 < 10 := by omega
  have hdigits : ∀ b ∈ twoDigits n, isDigitByte b = true := by
    simp [twoDigits, isDigitByte_digitByte htens, isDigitByte_digitByte hunits]
  have hvalue : digitsValue (twoDigits n) = n := by
    simp only [twoDigits, digitsValue, List.foldl_cons, List.foldl_nil, digitByte_toNat htens,
      digitByte_toNat hunits]
    omega
  have hread := readDigits_append hdigits rest
  rwa [hvalue] at hread

theorem decimalBytes_length_four {n : Nat} (hlow : 1000 ≤ n) (hhigh : n ≤ 9999) :
    (decimalBytes n).length = 4 := by
  rw [decimalBytes, if_neg (by omega), decimalBytes, if_neg (by omega), decimalBytes,
    if_neg (by omega), decimalBytes, if_pos (by omega)]
  rfl

theorem readDigits_decimalBytes {n : Nat} (hlow : 1000 ≤ n) (hhigh : n ≤ 9999) (rest : Bytes) :
    readDigits 4 (decimalBytes n ++ rest) = some (n, rest) := by
  have hread := readDigits_append (decimalBytes_isDigit n) rest
  rwa [decimalBytes_length_four hlow hhigh, digitsValue_decimalBytes] at hread

theorem monthDays_le (y : Int) (m : Nat) : monthDays y m ≤ 31 := by
  unfold monthDays
  split <;> first | omega | (split <;> omega)

/-- The fields of a clock have two digits. -/
theorem Clock.lt_of_valid {c : Clock} (hvalid : c.valid = true) :
    c.date.month < 100 ∧ c.date.day < 100 ∧ c.hour < 100 ∧ c.minute < 100 ∧ c.second < 100 := by
  have hdays := monthDays_le c.date.year c.date.month
  simp only [Clock.valid, Date.valid, Bool.and_eq_true, decide_eq_true_eq] at hvalid
  omega

/-- A time stamp with a year of four digits is read back. -/
theorem readTimestamp_bytes {c : Clock} (hvalid : c.valid = true) (hlow : 1000 ≤ c.date.year)
    (hhigh : c.date.year ≤ 9999) : readTimestamp c.bytes = some c.seconds := by
  obtain ⟨hmonth, hday, hhour, hminute, hsecond⟩ := Clock.lt_of_valid hvalid
  have hyear : (c.date.year.toNat : Int) = c.date.year := Int.toNat_of_nonneg (by omega)
  refine read_step (readDigits_decimalBytes (by omega) (by omega) _) ?_
  refine read_step (expect_mark 45 _) ?_
  refine read_step (readDigits_twoDigits hmonth _) ?_
  refine read_step (expect_mark 45 _) ?_
  refine read_step (readDigits_twoDigits hday _) ?_
  refine read_step (expect_mark 84 _) ?_
  refine read_step (readDigits_twoDigits hhour _) ?_
  refine read_step (expect_mark 58 _) ?_
  refine read_step (readDigits_twoDigits hminute _) ?_
  refine read_step (expect_mark 58 _) ?_
  refine read_step (readDigits_twoDigits hsecond _) ?_
  refine read_step (expect_mark 90 _) ?_
  rw [hyear]
  exact if_pos ⟨rfl, hvalid⟩

/-! ## Headers -/

/-- The header of a message; `none` is a field without a value. -/
structure Header where
  pri : Nat
  version : Nat
  time : Option Int
  hostname : Option Bytes
  appName : Option Bytes
  procId : Option Bytes
  msgId : Option Bytes
  structuredData : Option Bytes
  deriving DecidableEq

/-- Read a field and the space behind it. -/
def readToken (bs : Bytes) : Option (Bytes × Bytes) :=
  if bs.takeWhile (· != 32) = [] then none
  else
    (expect [32] (bs.dropWhile (· != 32))).map fun rest => (bs.takeWhile (· != 32), rest)

/-- The value of a field. -/
def fieldValue (t : Bytes) : Option Bytes := if t = [45] then none else some t

/-- The value of a time stamp field. -/
def timeValue (t : Bytes) : Option (Option Int) :=
  if t = [45] then some none else (readTimestamp t).map some

/-- Read the fields behind the time stamp; what is left is the message. -/
def readFields (pri version : Nat) (time : Option Int) (bs : Bytes) : Option (Header × Bytes) := do
  let (hostname, bs) ← readToken bs
  let (appName, bs) ← readToken bs
  let (procId, bs) ← readToken bs
  let (msgId, bs) ← readToken bs
  let (data, bs) ← readToken bs
  some (⟨pri, version, time, fieldValue hostname, fieldValue appName, fieldValue procId,
    fieldValue msgId, fieldValue data⟩, bs)

/-- Read a header. -/
def readHeader (bs : Bytes) : Option (Header × Bytes) := do
  let bs ← expect [60] bs
  let (pri, bs) ← readNat bs
  let bs ← expect [62] bs
  let (version, bs) ← readNat bs
  let bs ← expect [32] bs
  let (stamp, bs) ← readToken bs
  let time ← timeValue stamp
  readFields pri version time bs

theorem readToken_append {t : Bytes} (hne : t ≠ []) (hspace : 32 ∉ t) (rest : Bytes) :
    readToken (t ++ 32 :: rest) = some (t, rest) := by
  obtain ⟨htake, hdrop⟩ := cut_at_mark hspace rest
  rw [readToken, htake, hdrop, if_neg hne]
  rfl

theorem readToken_space (rest : Bytes) : readToken (32 :: rest) = none :=
  rfl

/-- A field that is read has no space in it. -/
theorem readToken_no_space {bs t rest : Bytes} (h : readToken bs = some (t, rest)) : 32 ∉ t := by
  rw [readToken] at h
  split at h
  · exact absurd h (by simp)
  · obtain ⟨_, -, heq⟩ := Option.map_eq_some_iff.mp h
    obtain ⟨rfl, -⟩ := Prod.mk.inj heq
    intro hmem
    exact absurd (List.mem_takeWhile_imp hmem) (by simp)

/-- The reader gets through a time stamp. -/
theorem readHeader_stamp (pri version : Nat) {stamp : Bytes} {time : Option Int}
    (hne : stamp ≠ []) (hspace : 32 ∉ stamp) (htime : timeValue stamp = some time)
    (rest : Bytes) :
    readHeader (60 :: (decimalBytes pri ++ 62 :: (decimalBytes version ++ 32 ::
      (stamp ++ 32 :: rest)))) = readFields pri version time rest := by
  have hclose : ∀ rest, NoDigit (62 :: rest) := fun rest => (noDigit_cons 62 rest).mpr (by decide)
  have hblank : ∀ rest, NoDigit (32 :: rest) := fun rest => (noDigit_cons 32 rest).mpr (by decide)
  refine read_step (expect_mark 60 _) ?_
  refine read_step (readNat_decimalBytes pri (hclose _)) ?_
  refine read_step (expect_mark 62 _) ?_
  refine read_step (readNat_decimalBytes version (hblank _)) ?_
  refine read_step (expect_mark 32 _) ?_
  refine read_step (readToken_append hne hspace rest) ?_
  exact read_step htime rfl

/-- A field has the value it spells unless it is the sign for no value. -/
theorem fieldValue_eq_some_iff {t host : Bytes} :
    fieldValue t = some host ↔ t = host ∧ host ≠ [45] := by
  rw [fieldValue]
  split
  · rename_i hnil
    subst hnil
    exact ⟨fun h => absurd h (by simp), fun h => absurd h.1.symm h.2⟩
  · rename_i hvalue
    rw [Option.some.injEq]
    exact ⟨fun h => ⟨h, h ▸ hvalue⟩, fun h => h.1⟩

end Lib
end Obserwrt
