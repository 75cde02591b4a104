import Obserwrt.Lib.Quote
import Obserwrt.Lib.Text

/-!
# Flat JSON objects

JSON strings in their standard spelling, and objects whose members are strings,
natural numbers and booleans, written without spaces.  The reader takes every
spelling of a string that JSON allows, surrogate pairs included.  A writer that
insists on UTF-8 has no spelling for other strings.
-/

namespace Obserwrt
namespace Lib

/-! ## Strings -/

/-- Whether a byte string is valid UTF-8. -/
def validUtf8 (s : Bytes) : Bool := s.toByteArray.validateUTF8

/-- An ASCII byte is the encoding of one character. -/
theorem utf8EncodeChar_ofUInt8 :
    ∀ b : UInt8, b < 128 → String.utf8EncodeChar (Char.ofUInt8 b) = [b] :=
  forall_byte (by decide +kernel)

/-- ASCII text is valid UTF-8. -/
theorem validUtf8_of_ascii {s : Bytes} (hascii : ∀ b ∈ s, b < 128) : validUtf8 s = true := by
  rw [validUtf8, ByteArray.validateUTF8_eq_true_iff]
  refine ⟨s.map Char.ofUInt8, ?_⟩
  have hchars : (s.map Char.ofUInt8).flatMap String.utf8EncodeChar = s := by
    induction s with
    | nil => rfl
    | cons b s ih =>
        rw [List.map_cons, List.flatMap_cons,
          utf8EncodeChar_ofUInt8 b (hascii b List.mem_cons_self),
          ih fun b' hb' => hascii b' (List.mem_cons_of_mem _ hb'), List.singleton_append]
  rw [List.utf8Encode, hchars]

/-- A lower-case hexadecimal digit. -/
def hexByte (n : Nat) : UInt8 := UInt8.ofNat (if n < 10 then 48 + n else 87 + n)

/-- The spelling of a byte in a JSON string. -/
def jsonEscape (b : UInt8) : Bytes :=
  if b = 8 then [92, 98]
  else if b = 9 then [92, 116]
  else if b = 10 then [92, 110]
  else if b = 12 then [92, 102]
  else if b = 13 then [92, 114]
  else if b = 34 then [92, 34]
  else if b = 92 then [92, 92]
  else if b < 32 then [92, 117, 48, 48, hexByte (b.toNat / 16), hexByte (b.toNat % 16)]
  else [b]

/-- A string in quotes. -/
def jsonString (s : Bytes) : Bytes :=
  quoteByte :: (s.flatMap jsonEscape ++ [quoteByte])

/-- Where the reader of a string stands: in plain text, behind a backslash, in
the digits of a code unit (with the high surrogate before it, if any), or
between the two halves of a surrogate pair. -/
inductive JsonState
  | plain
  | escape
  | hex (high : Option Nat) (left value : Nat)
  | low (high : Nat) (slash : Bool)
  deriving DecidableEq

/-- The value of a hexadecimal digit. -/
def hexValue (b : UInt8) : Option Nat :=
  if 48 ≤ b ∧ b ≤ 57 then some (b.toNat - 48)
  else if 97 ≤ b ∧ b ≤ 102 then some (b.toNat - 87)
  else if 65 ≤ b ∧ b ≤ 70 then some (b.toNat - 55)
  else none

/-- A code point in UTF-8. -/
def codePoint (n : Nat) : Bytes := String.utf8EncodeChar (Char.ofNat n)

/-- A code unit is complete. -/
def codeUnit (high : Option Nat) (value : Nat) : Option (JsonState × Bytes) :=
  match high with
  | none =>
      if 0xd800 ≤ value ∧ value < 0xdc00 then some (.low value false, [])
      else if 0xdc00 ≤ value ∧ value < 0xe000 then none
      else some (.plain, codePoint value)
  | some high =>
      if 0xdc00 ≤ value ∧ value < 0xe000 then
        some (.plain, codePoint (0x10000 + (high - 0xd800) * 0x400 + (value - 0xdc00)))
      else none

/-- The byte behind a backslash. -/
def escaped (b : UInt8) : Option (JsonState × Bytes) :=
  if b = 34 ∨ b = 92 ∨ b = 47 then some (.plain, [b])
  else if b = 98 then some (.plain, [8])
  else if b = 102 then some (.plain, [12])
  else if b = 110 then some (.plain, [10])
  else if b = 114 then some (.plain, [13])
  else if b = 116 then some (.plain, [9])
  else if b = 117 then some (.hex none 4 0, [])
  else none

/-- The reader of JSON strings. -/
def jsonUnquote : Unquote JsonState where
  start := .plain
  step
    | .plain, b =>
        if b = 92 then some (.escape, [])
        else if b < 32 then none
        else some (.plain, [b])
    | .escape, b => escaped b
    | .hex high left value, b =>
        (hexValue b).bind fun digit =>
          if left ≤ 1 then codeUnit high (16 * value + digit)
          else some (.hex high (left - 1) (16 * value + digit), [])
    | .low high slash, b =>
        if slash = false ∧ b = 92 then some (.low high true, [])
        else if slash = true ∧ b = 117 then some (.hex (some high) 4 0, [])
        else none

theorem jsonUnquote_undoes : jsonUnquote.Undoes jsonEscape :=
  forall_byte (by decide +kernel)

theorem jsonUnquote_read (s rest : Bytes) :
    jsonUnquote.read .plain (s.flatMap jsonEscape ++ quoteByte :: rest) = some (s, rest) :=
  jsonUnquote.read_quoted jsonUnquote_undoes s rest

/-- White space between the tokens. -/
def isJsonSpace (b : UInt8) : Bool := b == 32 || b == 9 || b == 10 || b == 13

/-- Skip white space. -/
def skipSpace (bs : Bytes) : Bytes := bs.dropWhile isJsonSpace

theorem skipSpace_cons {b : UInt8} (hb : isJsonSpace b = false) (bs : Bytes) :
    skipSpace (b :: bs) = b :: bs := by
  simp [skipSpace, hb]

/-- Read a string. -/
def readString (bs : Bytes) : Option (Bytes × Bytes) :=
  (expect [quoteByte] (skipSpace bs)).bind (jsonUnquote.read .plain)

/-- A string in its standard spelling is read back. -/
theorem readString_jsonString (s rest : Bytes) :
    readString (jsonString s ++ rest) = some (s, rest) := by
  have hopen : jsonString s ++ rest = quoteByte :: (s.flatMap jsonEscape ++ quoteByte :: rest) := by
    simp [jsonString]
  rw [readString, hopen, skipSpace_cons (by decide), expect_mark, Option.bind_some,
    jsonUnquote_read]

theorem readString_cons_ne {b : UInt8} (hspace : isJsonSpace b = false) (hquote : b ≠ quoteByte)
    (bs : Bytes) : readString (b :: bs) = none := by
  rw [readString, skipSpace_cons hspace, expect_cons_ne (Ne.symm hquote), Option.bind_none]

/-! ## Objects -/

/-- A value of a flat object. -/
inductive Scalar
  | num (n : Nat)
  | str (s : Bytes)
  | bool (b : Bool)
  deriving DecidableEq

/-- The members of a flat object, in their order. -/
abbrev Members := List (Bytes × Scalar)

/-- `true` and `false`. -/
def boolText : Bool → Bytes
  | true => [116, 114, 117, 101]
  | false => [102, 97, 108, 115, 101]

/-- A value as JSON. -/
def Scalar.json : Scalar → Bytes
  | .num n => decimalBytes n
  | .str s => jsonString s
  | .bool b => boolText b

/-- A member: its name, a colon, its value. -/
def memberJson (m : Bytes × Scalar) : Bytes := jsonString m.1 ++ 58 :: m.2.json

/-- An object. -/
def objectJson (ms : Members) : Bytes := 123 :: (joinItems 44 memberJson ms ++ [125])

/-- A value without a string in it, or with one that is UTF-8. -/
def Scalar.utf8 : Scalar → Bool
  | .num _ => true
  | .str s => validUtf8 s
  | .bool _ => true

/-- The strings of a member are UTF-8. -/
def memberUtf8 (m : Bytes × Scalar) : Bool := validUtf8 m.1 && m.2.utf8

theorem all_memberUtf8 {ms : Members} (hkeys : (ms.map Prod.fst).all validUtf8 = true) :
    ms.all memberUtf8 = (ms.map Prod.snd).all Scalar.utf8 := by
  induction ms with
  | nil => rfl
  | cons m ms ih =>
      simp only [List.map_cons, List.all_cons, Bool.and_eq_true] at hkeys
      simp only [List.map_cons, List.all_cons, memberUtf8, hkeys.1, Bool.true_and, ih hkeys.2]

/-- The strict writer of a string: it has no spelling for bytes that are not UTF-8. -/
def dumpString (s : Bytes) : Option Bytes := if validUtf8 s then some (jsonString s) else none

/-- The strict writer of an object. -/
def dumpObject (ms : Members) : Option Bytes :=
  if ms.all memberUtf8 then some (objectJson ms) else none

/-- Read a punctuation mark. -/
def readMark (c : UInt8) (bs : Bytes) : Option Bytes := expect [c] (skipSpace bs)

/-- Read a value. -/
def readScalar (bs : Bytes) : Option (Scalar × Bytes) :=
  ((readString bs).map fun r => (.str r.1, r.2))
    <|> ((expect (boolText true) (skipSpace bs)).map fun rest => (.bool true, rest))
    <|> ((expect (boolText false) (skipSpace bs)).map fun rest => (.bool false, rest))
    <|> ((readNat (skipSpace bs)).map fun r => (.num r.1, r.2))

/-- Read a member. -/
def readMember (bs : Bytes) : Option ((Bytes × Scalar) × Bytes) :=
  (readString bs).bind fun key =>
    (readMark 58 key.2).bind fun rest =>
      (readScalar rest).map fun value => ((key.1, value.1), value.2)

/-- Read members up to the closing brace. -/
def readMembers : Nat → Bytes → Option (Members × Bytes) :=
  readItems readMember (readMark 44) (readMark 125)

/-- Only white space is left. -/
def atEnd {α : Type} (r : α × Bytes) : Option α := if skipSpace r.2 = [] then some r.1 else none

/-- Read a text that is one flat object. -/
def readObject (bs : Bytes) : Option Members :=
  (readMark 123 bs).bind fun rest =>
    match readMark 125 rest with
    | some after => atEnd ([], after)
    | none => (readMembers rest.length rest).bind atEnd

theorem readMark_cons {c b : UInt8} (hb : isJsonSpace b = false) (bs : Bytes) :
    readMark c (b :: bs) = if c = b then some bs else none := by
  rw [readMark, skipSpace_cons hb]
  rfl

/-- A number does not begin like any other value. -/
theorem decimalBytes_head (n : Nat) :
    ∃ d ds, decimalBytes n = d :: ds ∧ isDigitByte d = true := by
  obtain ⟨d, ds, hdigits⟩ := List.exists_cons_of_ne_nil (decimalBytes_ne_nil n)
  have hdigit := decimalBytes_isDigit n d (by rw [hdigits]; exact List.mem_cons_self)
  exact ⟨d, ds, hdigits, hdigit⟩

theorem digit_not_other : ∀ d : UInt8, isDigitByte d = true →
    isJsonSpace d = false ∧ d ≠ quoteByte ∧ d ≠ 116 ∧ d ≠ 102 :=
  forall_byte (by decide +kernel)

theorem readScalar_num (n : Nat) {rest : Bytes} (hrest : NoDigit rest) :
    readScalar (decimalBytes n ++ rest) = some (.num n, rest) := by
  obtain ⟨d, ds, hdigits, hdigit⟩ := decimalBytes_head n
  obtain ⟨hspace, hquote, htrue, hfalse⟩ := digit_not_other d hdigit
  have hnumber := readNat_decimalBytes n hrest
  rw [hdigits, List.cons_append] at hnumber ⊢
  rw [readScalar, readString_cons_ne hspace hquote, skipSpace_cons hspace, boolText, boolText,
    expect_cons_ne (Ne.symm htrue), expect_cons_ne (Ne.symm hfalse), hnumber]
  rfl

/-- A value is read back. -/
theorem readScalar_json (v : Scalar) {rest : Bytes} (hrest : NoDigit rest) :
    readScalar (v.json ++ rest) = some (v, rest) := by
  cases v with
  | num n => exact readScalar_num n hrest
  | str s => simp [readScalar, Scalar.json, readString_jsonString]
  | bool b =>
      cases b with
      | false => rfl
      | true => rfl

/-- A member is read back. -/
theorem readMember_json (m : Bytes × Scalar) {rest : Bytes} (hrest : NoDigit rest) :
    readMember (memberJson m ++ rest) = some (m, rest) := by
  rw [readMember, memberJson, List.append_assoc, readString_jsonString, Option.bind_some,
    List.cons_append, readMark_cons (by decide), if_pos rfl, Option.bind_some,
    readScalar_json m.2 hrest]
  rfl

theorem readsItems_member :
    ReadsItems memberJson 44 125 readMember (readMark 44) (readMark 125) fun _ => True where
  hsep rest := by rw [readMark_cons (by decide), if_pos rfl]
  hlast rest := by rw [readMark_cons (by decide), if_neg (by decide)]
  hclose rest := by rw [readMark_cons (by decide), if_pos rfl]
  hitem m _ b hb rest := by
    rcases hb with rfl | rfl
    · exact readMember_json m ((noDigit_cons _ _).mpr (by decide))
    · exact readMember_json m ((noDigit_cons _ _).mpr (by decide))

theorem joinItems_member_head {ms : Members} (hms : ms ≠ []) :
    ∃ bs, joinItems 44 memberJson ms = quoteByte :: bs := by
  match ms with
  | [] => exact absurd rfl hms
  | [m] => exact ⟨_, rfl⟩
  | m :: m' :: ms => exact ⟨_, rfl⟩

/-- **A flat object is read back**, member for member and in order. -/
theorem readObject_objectJson (ms : Members) : readObject (objectJson ms) = some ms := by
  rw [readObject, objectJson, readMark_cons (by decide), if_pos rfl, Option.bind_some]
  by_cases hms : ms = []
  · subst hms
    rfl
  · obtain ⟨bs, hhead⟩ := joinItems_member_head hms
    have hnotEmpty : readMark 125 (joinItems 44 memberJson ms ++ [125]) = none := by
      rw [hhead, List.cons_append, readMark_cons (by decide), if_neg (by decide)]
    have hfuel : ms.length ≤ (joinItems 44 memberJson ms ++ [125]).length := by
      rw [List.length_append]
      exact Nat.le_add_right_of_le (joinItems_length (fun m => List.cons_ne_nil _ _) 44 ms)
    have hread := readsItems_member.read_join hms (fun _ _ => trivial) hfuel []
    rw [hnotEmpty]
    simp only [readMembers, hread, Option.bind_some]
    rfl

/-! ## No control characters -/

theorem jsonEscape_printable (b : UInt8) : ∀ c ∈ jsonEscape b, 32 ≤ c := by
  have hall : ∀ b : UInt8, (jsonEscape b).all (fun c => decide (32 ≤ c)) = true :=
    forall_byte (by decide +kernel)
  intro c hc
  exact of_decide_eq_true (List.all_eq_true.mp (hall b) c hc)

/-- No control character stands in a string in its standard spelling. -/
theorem jsonString_printable (s : Bytes) : ∀ c ∈ jsonString s, 32 ≤ c := by
  intro c hc
  simp only [jsonString, List.mem_cons, List.mem_append, List.mem_flatMap, List.not_mem_nil,
    or_false] at hc
  rcases hc with rfl | ⟨b, -, hc⟩ | rfl
  · decide
  · exact jsonEscape_printable b c hc
  · decide

theorem digit_printable : ∀ d : UInt8, isDigitByte d = true → 32 ≤ d :=
  forall_byte (by decide +kernel)

theorem decimalBytes_printable (n : Nat) : ∀ c ∈ decimalBytes n, 32 ≤ c :=
  fun c hc => digit_printable c (decimalBytes_isDigit n c hc)

theorem Scalar.json_printable (v : Scalar) : ∀ c ∈ v.json, 32 ≤ c := by
  cases v with
  | num n => exact decimalBytes_printable n
  | str s => exact jsonString_printable s
  | bool b =>
      cases b with
      | false => decide +kernel
      | true => decide +kernel

/-- Printable items with a printable separator make a printable text. -/
theorem joinItems_printable {α : Type} {s : UInt8} (hs : 32 ≤ s) {enc : α → Bytes} {xs : List α}
    (hxs : ∀ x ∈ xs, ∀ c ∈ enc x, 32 ≤ c) : ∀ c ∈ joinItems s enc xs, 32 ≤ c := by
  intro c hc
  by_cases hsep : c = s
  · rw [hsep]
    exact hs
  · obtain ⟨x, hx, hmem⟩ := (mem_joinItems hsep enc xs).mp hc
    exact hxs x hx c hmem

/-- **An object is one line of text**: no control character stands in it,
whatever its strings hold. -/
theorem objectJson_printable (ms : Members) : ∀ c ∈ objectJson ms, 32 ≤ c := by
  have hmember : ∀ m ∈ ms, ∀ c ∈ memberJson m, 32 ≤ c := by
    intro m _ c hc
    rcases List.mem_append.mp hc with hkey | hvalue
    · exact jsonString_printable m.1 c hkey
    · rcases List.mem_cons.mp hvalue with rfl | hvalue
      · decide
      · exact m.2.json_printable c hvalue
  intro c hc
  simp only [objectJson, List.mem_cons, List.mem_append, List.not_mem_nil, or_false] at hc
  rcases hc with rfl | hc | rfl
  · decide
  · exact joinItems_printable (by decide) hmember c hc
  · decide

end Lib
end Obserwrt
