import Obserwrt.Lib.Json

/-!
# Lines of key=value fields

A line is a list of fields with single spaces between them.  A field is a key,
`=` and a value, and a value is bare or a string in quotes: a JSON string where
values have types, or a text with four escapes where all values are texts.  The
reader works in two stages: it cuts the line at the spaces outside strings, and
reads each piece on its own.
-/

namespace Obserwrt
namespace Lib

/-- A value as it stands on the line. -/
inductive LogValue
  | bare (t : Bytes)
  | quoted (s : Bytes)
  deriving DecidableEq

def LogValue.bytes : LogValue → Bytes
  | .bare t => t
  | .quoted s => jsonString s

/-- A key with its value. -/
abbrev LogField := Bytes × LogValue

def logField (f : LogField) : Bytes := f.1 ++ 61 :: f.2.bytes

/-- The line of a list of fields. -/
def logLine (fs : List LogField) : Bytes := joinItems 32 logField fs

/-! ## Cutting the line -/

/-- Where a byte stands: outside strings, in one, or behind a backslash in one. -/
inductive Quoting
  | outside
  | inside
  | escaped
  deriving DecidableEq

def Quoting.next : Quoting → UInt8 → Quoting
  | .outside, b => if b = quoteByte then .inside else .outside
  | .inside, b =>
      if b = quoteByte then .outside
      else if b = 92 then .escaped
      else .inside
  | .escaped, _ => .inside

/-- The pieces between the spaces outside strings. -/
def splitFields : Quoting → Bytes → List Bytes
  | _, [] => [[]]
  | q, b :: bs =>
      if q = .outside ∧ b = 32 then [] :: splitFields .outside bs
      else (splitFields (q.next b) bs).modifyHead (b :: ·)

/-- Go over a piece, unless there is a space outside strings in it. -/
def scanPiece : Quoting → Bytes → Option Quoting
  | q, [] => some q
  | q, b :: bs => if q = .outside ∧ b = 32 then none else scanPiece (q.next b) bs

theorem scanPiece_append (q : Quoting) (xs ys : Bytes) :
    scanPiece q (xs ++ ys) = (scanPiece q xs).bind fun q' => scanPiece q' ys := by
  induction xs generalizing q with
  | nil => rfl
  | cons b xs ih =>
      rw [List.cons_append, scanPiece, scanPiece]
      split
      · rfl
      · exact ih (q.next b)

/-- A piece that is scanned to its end is not cut. -/
theorem splitFields_piece {q : Quoting} {piece : Bytes} (hscan : scanPiece q piece = some .outside)
    (rest : Bytes) :
    splitFields q piece = [piece] ∧
      splitFields q (piece ++ 32 :: rest) = piece :: splitFields .outside rest := by
  induction piece generalizing q with
  | nil =>
      obtain rfl : q = .outside := by simpa [scanPiece] using hscan
      exact ⟨rfl, rfl⟩
  | cons b piece ih =>
      rw [scanPiece] at hscan
      split at hscan
      · exact absurd hscan (by simp)
      · rename_i hkeep
        obtain ⟨halone, hfront⟩ := ih hscan
        rw [List.cons_append, splitFields, splitFields, if_neg hkeep, if_neg hkeep, halone, hfront]
        exact ⟨rfl, rfl⟩

/-- A line of pieces that are scanned to their ends is cut into them. -/
theorem splitFields_join {α : Type} {enc : α → Bytes} {xs : List α} (hxs : xs ≠ [])
    (hscan : ∀ x ∈ xs, scanPiece .outside (enc x) = some .outside) :
    splitFields .outside (joinItems 32 enc xs) = xs.map enc := by
  induction xs with
  | nil => exact absurd rfl hxs
  | cons x xs ih =>
      have hx := hscan x List.mem_cons_self
      cases xs with
      | nil => exact (splitFields_piece hx []).1
      | cons y xs =>
          have hmore := ih (by simp) fun z hz => hscan z (List.mem_cons_of_mem _ hz)
          rw [joinItems, (splitFields_piece hx _).2, hmore]
          rfl

/-- No byte of this text ends a field or begins a string. -/
def isPlain (b : UInt8) : Bool := b != 32 && b != quoteByte

theorem scanPiece_plain {t : Bytes} (ht : t.all isPlain = true) :
    scanPiece .outside t = some .outside := by
  induction t with
  | nil => rfl
  | cons b t ih =>
      simp only [List.all_cons, Bool.and_eq_true, isPlain, bne_iff_ne] at ht
      obtain ⟨⟨hspace, hquote⟩, ht⟩ := ht
      rw [scanPiece, if_neg (by simp [hspace]), Quoting.next, if_neg hquote]
      exact ih (by simpa [isPlain] using ht)

theorem head_of_plain {t : Bytes} (ht : t.all isPlain = true) : t.head? ≠ some quoteByte := by
  intro hquote
  have hbyte := List.all_eq_true.mp ht quoteByte (List.mem_of_mem_head? hquote)
  exact absurd hbyte (by decide)

theorem scanPiece_escape : ∀ b : UInt8, scanPiece .inside (jsonEscape b) = some .inside :=
  forall_byte (by decide +kernel)

/-- A string whose escapes are passed over inside it is passed over. -/
theorem scanPiece_quoted {enc : UInt8 → Bytes}
    (henc : ∀ b, scanPiece .inside (enc b) = some .inside) (s : Bytes) :
    scanPiece .outside (quoteByte :: (s.flatMap enc ++ [quoteByte])) = some .outside := by
  have hbody : scanPiece .inside (s.flatMap enc) = some .inside := by
    induction s with
    | nil => rfl
    | cons b s ih => rw [List.flatMap_cons, scanPiece_append, henc, Option.bind_some, ih]
  have hopen : scanPiece .outside (quoteByte :: (s.flatMap enc ++ [quoteByte])) =
      scanPiece .inside (s.flatMap enc ++ [quoteByte]) := rfl
  rw [hopen, scanPiece_append, hbody]
  rfl

/-! ## Reading a field -/

/-- Read a value that fills its piece. -/
def readLogValue (bs : Bytes) : Option LogValue :=
  if bs.head? = some quoteByte then
    (jsonUnquote.read .plain bs.tail).bind fun r =>
      if r.2 = [] then some (.quoted r.1) else none
  else some (.bare bs)

/-- Read a field: the key is what stands before the first `=`. -/
def readLogField (bs : Bytes) : Option LogField :=
  (expect [61] (bs.dropWhile (· != 61))).bind fun rest =>
    (readLogValue rest).map fun v => (bs.takeWhile (· != 61), v)

/-- Read a line. -/
def readLogLine (bs : Bytes) : Option (List LogField) :=
  (splitFields .outside bs).mapM readLogField

/-- A field the line can carry: its key has no space, quote or `=`, and its
value, where bare, no space or quote. -/
def LogField.fits (f : LogField) : Bool :=
  f.1.all (fun b => isPlain b && b != 61) &&
    match f.2 with
    | .bare t => t.all isPlain
    | .quoted _ => true

theorem LogField.fits_key {f : LogField} (hfits : f.fits = true) :
    f.1.all isPlain = true ∧ 61 ∉ f.1 := by
  simp only [LogField.fits, Bool.and_eq_true, List.all_eq_true, bne_iff_ne] at hfits
  refine ⟨?_, fun hmem => (hfits.1 61 hmem).2 rfl⟩
  rw [List.all_eq_true]
  exact fun b hb => (hfits.1 b hb).1

theorem readLogValue_bytes {f : LogField} (hfits : f.fits = true) :
    readLogValue f.2.bytes = some f.2 := by
  obtain ⟨key, value⟩ := f
  cases value with
  | bare t =>
      simp only [LogField.fits, Bool.and_eq_true] at hfits
      rw [LogValue.bytes, readLogValue, if_neg (head_of_plain hfits.2)]
  | quoted s =>
      simp [LogValue.bytes, readLogValue, jsonString, jsonUnquote_read]

/-- A field is read back from its piece. -/
theorem readLogField_logField {f : LogField} (hfits : f.fits = true) :
    readLogField (logField f) = some f := by
  obtain ⟨htake, hdrop⟩ := cut_at_mark (LogField.fits_key hfits).2 f.2.bytes
  rw [readLogField, logField, htake, hdrop, expect_mark, Option.bind_some,
    readLogValue_bytes hfits]
  rfl

theorem scanPiece_logField {f : LogField} (hfits : f.fits = true) :
    scanPiece .outside (logField f) = some .outside := by
  have hvalue : scanPiece .outside f.2.bytes = some .outside := by
    obtain ⟨key, value⟩ := f
    cases value with
    | bare t =>
        simp only [LogField.fits, Bool.and_eq_true] at hfits
        exact scanPiece_plain hfits.2
    | quoted s => exact scanPiece_quoted scanPiece_escape s
  rw [logField, scanPiece_append, scanPiece_plain (LogField.fits_key hfits).1, Option.bind_some]
  exact hvalue

/-- **A line is read back**, field for field and in order. -/
theorem readLogLine_logLine {fs : List LogField} (hfs : fs ≠ [])
    (hfits : ∀ f ∈ fs, f.fits = true) : readLogLine (logLine fs) = some fs := by
  rw [readLogLine, logLine, splitFields_join hfs fun f hf => scanPiece_logField (hfits f hf)]
  exact mapM_map_of_forall fun f hf => readLogField_logField (hfits f hf)

/-! ## Typed fields -/

/-- The members of a record on a line: numbers in decimal, flags as `1` and
`0`, texts quoted, but the texts of `words` bare. -/
def logMember (words : List Bytes) (m : Bytes × Scalar) : LogField :=
  match m.2 with
  | .num n => (m.1, .bare (decimalBytes n))
  | .bool b => (m.1, .bare (decimalBytes b.toNat))
  | .str s => (m.1, if m.1 ∈ words then .bare s else .quoted s)

/-- What a field says, given the keys that are flags: a quoted value is a text,
and a bare one is a flag, a number or, failing these, a word. -/
def typedField (flags : List Bytes) (f : LogField) : Option (Bytes × Scalar) :=
  match f.2 with
  | .quoted s => some (f.1, .str s)
  | .bare t =>
      if f.1 ∈ flags then
        match wholeNat t with
        | some 0 => some (f.1, .bool false)
        | some 1 => some (f.1, .bool true)
        | _ => none
      else
        match wholeNat t with
        | some n => some (f.1, .num n)
        | none => some (f.1, .str t)

/-- Read the members of a record from a line. -/
def readLogMembers (flags : List Bytes) (bs : Bytes) : Option Members :=
  (readLogLine bs).bind fun fs => fs.mapM (typedField flags)

/-- A member that the line tells apart: its key has no space, quote or `=`,
just the flags are booleans, and a bare word is no number. -/
def carries (flags words : List Bytes) (m : Bytes × Scalar) : Bool :=
  m.1.all (fun b => isPlain b && b != 61) &&
    match m.2 with
    | .num _ => decide (m.1 ∉ flags)
    | .bool _ => decide (m.1 ∈ flags)
    | .str s =>
        decide (m.1 ∉ words) || (decide (m.1 ∉ flags) && s.all isPlain && wholeNat s == none)

theorem digit_plain : ∀ d : UInt8, isDigitByte d = true → isPlain d = true :=
  forall_byte (by decide +kernel)

theorem decimalBytes_plain (n : Nat) : (decimalBytes n).all isPlain = true := by
  rw [List.all_eq_true]
  exact fun d hd => digit_plain d (decimalBytes_isDigit n d hd)

theorem logMember_fits {flags words : List Bytes} {m : Bytes × Scalar}
    (hcarries : carries flags words m = true) : (logMember words m).fits = true := by
  obtain ⟨key, value⟩ := m
  simp only [carries, Bool.and_eq_true] at hcarries
  obtain ⟨hkey, hvalue⟩ := hcarries
  cases value with
  | num n => simpa [logMember, LogField.fits, decimalBytes_plain] using hkey
  | bool b => simpa [logMember, LogField.fits, decimalBytes_plain] using hkey
  | str s =>
      by_cases hword : key ∈ words
      · simp only [hword, not_true, decide_false, Bool.false_or, Bool.and_eq_true] at hvalue
        simp only [logMember, hword, if_true, LogField.fits, Bool.and_eq_true]
        exact ⟨hkey, hvalue.1.2⟩
      · simpa [logMember, hword, LogField.fits] using hkey

theorem typedField_logMember {flags words : List Bytes} {m : Bytes × Scalar}
    (hcarries : carries flags words m = true) : typedField flags (logMember words m) = some m := by
  obtain ⟨key, value⟩ := m
  simp only [carries, Bool.and_eq_true] at hcarries
  have hvalue := hcarries.2
  cases value with
  | num n =>
      simp only [decide_eq_true_eq] at hvalue
      simp [logMember, typedField, hvalue, wholeNat_decimalBytes]
  | bool b =>
      simp only [decide_eq_true_eq] at hvalue
      cases b with
      | false => simp [logMember, typedField, hvalue, wholeNat_decimalBytes]
      | true => simp [logMember, typedField, hvalue, wholeNat_decimalBytes]
  | str s =>
      by_cases hword : key ∈ words
      · simp only [hword, not_true, decide_false, Bool.false_or, Bool.and_eq_true,
          decide_eq_true_eq, beq_iff_eq] at hvalue
        simp [logMember, hword, typedField, hvalue.1.1, hvalue.2]
      · simp [logMember, hword, typedField]

/-- **A record is read back from its line.** -/
theorem readLogMembers_logLine {flags words : List Bytes} {ms : Members} (hms : ms ≠ [])
    (hcarries : ∀ m ∈ ms, carries flags words m = true) :
    readLogMembers flags (logLine (ms.map (logMember words))) = some ms := by
  have hfits : ∀ f ∈ ms.map (logMember words), f.fits = true := by
    intro f hf
    obtain ⟨m, hm, rfl⟩ := List.mem_map.mp hf
    exact logMember_fits (hcarries m hm)
  rw [readLogMembers, readLogLine_logLine (by simpa using hms) hfits, Option.bind_some]
  exact mapM_map_of_forall fun m hm => typedField_logMember (hcarries m hm)

/-- A line of members is printable where its keys and bare words are. -/
theorem logLine_printable {words : List Bytes} {ms : Members}
    (hkeys : ∀ m ∈ ms, ∀ c ∈ m.1, 32 ≤ c)
    (hwords : ∀ m ∈ ms, ∀ s, m.2 = .str s → m.1 ∈ words → ∀ c ∈ s, 32 ≤ c) :
    ∀ c ∈ logLine (ms.map (logMember words)), 32 ≤ c := by
  refine joinItems_printable (by decide) ?_
  rintro f hf c hc
  obtain ⟨m, hm, rfl⟩ := List.mem_map.mp hf
  have hkey : (logMember words m).1 = m.1 := by
    unfold logMember
    split <;> rfl
  rcases List.mem_append.mp hc with hc | hc
  · rw [hkey] at hc
    exact hkeys m hm c hc
  · rcases List.mem_cons.mp hc with rfl | hc
    · decide
    · obtain ⟨key, value⟩ := m
      cases value with
      | num n => exact decimalBytes_printable n c hc
      | bool b => exact decimalBytes_printable b.toNat c hc
      | str s =>
          by_cases hword : key ∈ words
          · simp only [logMember, hword, if_true, LogValue.bytes] at hc
            exact hwords _ hm s rfl hword c hc
          · simp only [logMember, hword, if_false, LogValue.bytes] at hc
            exact jsonString_printable s c hc

/-! ## Texts with four escapes -/

/-- The spelling of a byte in a quoted text. -/
def textEscape (b : UInt8) : Bytes :=
  if b = quoteByte then [92, quoteByte]
  else if b = 92 then [92, 92]
  else if b = 10 then [92, 110]
  else if b = 13 then [92, 114]
  else [b]

/-- The reader of quoted texts; its state says whether it is behind a backslash. -/
def textUnquote : Unquote Bool where
  start := false
  step
    | false, b => if b = 92 then some (true, []) else some (false, [b])
    | true, b =>
        if b = 92 ∨ b = quoteByte then some (false, [b])
        else if b = 110 then some (false, [10])
        else if b = 114 then some (false, [13])
        else none

theorem textUnquote_undoes : textUnquote.Undoes textEscape :=
  forall_byte (by decide +kernel)

theorem scanPiece_textEscape : ∀ b : UInt8, scanPiece .inside (textEscape b) = some .inside :=
  forall_byte (by decide +kernel)

/-- A text, in quotes or bare. -/
def textBytes (quoted : Bool) (t : Bytes) : Bytes :=
  if quoted then quoteByte :: (t.flatMap textEscape ++ [quoteByte]) else t

/-- A field whose value is quoted where the rule `q` says so. -/
def textField (q : Bytes → Bool) (f : Bytes × Bytes) : Bytes := f.1 ++ 61 :: textBytes (q f.2) f.2

/-- The line of a list of fields. -/
def textLine (q : Bytes → Bool) (fs : List (Bytes × Bytes)) : Bytes := joinItems 32 (textField q) fs

/-- Read a text that fills its piece. -/
def readText (bs : Bytes) : Option Bytes :=
  if bs.head? = some quoteByte then
    (textUnquote.read false bs.tail).bind fun r => if r.2 = [] then some r.1 else none
  else some bs

/-- Read a field: the key is what stands before the first `=`. -/
def readTextField (bs : Bytes) : Option (Bytes × Bytes) :=
  (expect [61] (bs.dropWhile (· != 61))).bind fun rest =>
    (readText rest).map fun t => (bs.takeWhile (· != 61), t)

/-- Read a line; an empty one has no fields. -/
def readTextLine (bs : Bytes) : Option (List (Bytes × Bytes)) :=
  if bs = [] then some [] else (splitFields .outside bs).mapM readTextField

section Texts

variable {q : Bytes → Bool}

theorem readText_textBytes (hplain : ∀ t, q t = false → t.all isPlain = true) (t : Bytes) :
    readText (textBytes (q t) t) = some t := by
  cases hq : q t with
  | false =>
      show readText t = some t
      rw [readText, if_neg (head_of_plain (hplain t hq))]
  | true =>
      have hread : textUnquote.read false (t.flatMap textEscape ++ [quoteByte]) = some (t, []) :=
        textUnquote.read_quoted textUnquote_undoes t []
      show readText (quoteByte :: (t.flatMap textEscape ++ [quoteByte])) = some t
      rw [readText, List.head?_cons, if_pos rfl, List.tail_cons, hread]
      rfl

theorem readTextField_textField (hplain : ∀ t, q t = false → t.all isPlain = true)
    {f : Bytes × Bytes} (hkey : 61 ∉ f.1) : readTextField (textField q f) = some f := by
  obtain ⟨htake, hdrop⟩ := cut_at_mark hkey (textBytes (q f.2) f.2)
  rw [readTextField, textField, htake, hdrop, expect_mark, Option.bind_some,
    readText_textBytes hplain]
  rfl

theorem scanPiece_textField (hplain : ∀ t, q t = false → t.all isPlain = true)
    {f : Bytes × Bytes} (hkey : f.1.all isPlain = true) :
    scanPiece .outside (textField q f) = some .outside := by
  have hvalue : scanPiece .outside (textBytes (q f.2) f.2) = some .outside := by
    cases hq : q f.2 with
    | false => exact scanPiece_plain (hplain f.2 hq)
    | true => exact scanPiece_quoted scanPiece_textEscape f.2
  rw [textField, scanPiece_append, scanPiece_plain hkey, Option.bind_some]
  exact hvalue

theorem textField_ne_nil (f : Bytes × Bytes) : textField q f ≠ [] := by
  simp [textField]

theorem textLine_ne_nil {fs : List (Bytes × Bytes)} (hfs : fs ≠ []) : textLine q fs ≠ [] := by
  apply List.ne_nil_of_length_pos
  exact lt_of_lt_of_le (List.length_pos_of_ne_nil hfs) (joinItems_length textField_ne_nil 32 fs)

/-- One more field on the line. -/
theorem textLine_concat (fs : List (Bytes × Bytes)) (f : Bytes × Bytes) :
    textLine q (fs ++ [f]) =
      (if (textLine q fs).isEmpty then [] else textLine q fs ++ [32]) ++ textField q f := by
  by_cases hfs : fs = []
  · subst hfs
    rfl
  · rw [if_neg (by simpa using textLine_ne_nil hfs), textLine, joinItems_concat 32 _ hfs, textLine]
    simp

/-- **A line of texts is read back**, whichever texts the rule quotes as long as
it quotes those with a space or a quote. -/
theorem readTextLine_textLine (hplain : ∀ t, q t = false → t.all isPlain = true)
    {fs : List (Bytes × Bytes)} (hkeys : ∀ f ∈ fs, f.1.all isPlain = true ∧ 61 ∉ f.1) :
    readTextLine (textLine q fs) = some fs := by
  by_cases hfs : fs = []
  · subst hfs
    rfl
  · have hscan := fun f hf => scanPiece_textField hplain (hkeys f hf).1
    rw [readTextLine, if_neg (textLine_ne_nil hfs), textLine, splitFields_join hfs hscan]
    exact mapM_map_of_forall fun f hf => readTextField_textField hplain (hkeys f hf).2

theorem textEscape_no_break : ∀ b : UInt8, 10 ∉ textEscape b ∧ 13 ∉ textEscape b :=
  forall_byte (by decide +kernel)

/-- Line breaks stand only in keys, where the rule quotes the texts that have
one. -/
theorem break_mem_textLine (hbreaks : ∀ t, q t = false → 10 ∉ t ∧ 13 ∉ t)
    (fs : List (Bytes × Bytes)) {b : UInt8} (hb : b = 10 ∨ b = 13) :
    b ∈ textLine q fs ↔ ∃ f ∈ fs, b ∈ f.1 := by
  have hvalue : ∀ t, b ∉ textBytes (q t) t := by
    intro t hmem
    cases hq : q t with
    | false =>
        rw [hq] at hmem
        rcases hb with rfl | rfl
        · exact (hbreaks t hq).1 hmem
        · exact (hbreaks t hq).2 hmem
    | true =>
        rw [hq] at hmem
        have hescapes : ∀ c, b ∉ textEscape c := by
          intro c
          rcases hb with rfl | rfl
          · exact (textEscape_no_break c).1
          · exact (textEscape_no_break c).2
        have hquote : b ≠ quoteByte := by
          rcases hb with rfl | rfl <;> decide
        simp [textBytes, hquote, hescapes] at hmem
  have hspace : b ≠ 32 := by
    rcases hb with rfl | rfl <;> decide
  have hequals : b ≠ 61 := by
    rcases hb with rfl | rfl <;> decide
  rw [textLine, mem_joinItems hspace]
  simp [textField, hequals, hvalue]

theorem textEscape_nul : ∀ b : UInt8, 0 ∈ textEscape b → b = 0 :=
  forall_byte (by decide +kernel)

/-- A line of texts without NUL has none. -/
theorem nul_not_mem_textLine {fs : List (Bytes × Bytes)} (hfs : ∀ f ∈ fs, 0 ∉ f.1 ∧ 0 ∉ f.2) :
    0 ∉ textLine q fs := by
  rw [textLine, mem_joinItems (by decide)]
  rintro ⟨f, hf, hmem⟩
  obtain ⟨hkey, hvalue⟩ := hfs f hf
  have htext : 0 ∉ textBytes (q f.2) f.2 := by
    cases q f.2 with
    | false => exact hvalue
    | true =>
        have hescapes : ∀ c ∈ f.2, 0 ∉ textEscape c := by
          intro c hc hnul
          rw [textEscape_nul c hnul] at hc
          exact hvalue hc
        simpa [textBytes, quoteByte] using hescapes
  simp [textField, hkey, htext] at hmem

end Texts

end Lib
end Obserwrt
