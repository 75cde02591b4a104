import Obserwrt.Lib.Logfmt

/-!
# The daemon's diagnostics

`class Log` of `logfmt.hpp` builds one line of `key=value` fields while its
priority is enabled, and hands it to `syslog` when it goes out of scope.  Keys
are appended as they are; a value is quoted and escaped when it holds one of
the characters that would be misread.  What a string, an integer or a flag is
rendered to can therefore be read back from the line.
-/

namespace Obserwrt

open Lib

/-- `class Log`. -/
structure Log where
  prio : Int
  ok : Bool
  done : Bool
  buf : Bytes

namespace Log

/-- A value of `append_value`: a `bool`, an integral type, or a string. -/
inductive Value
  | bool (b : Bool)
  | int (n : Int)
  | str (s : Bytes)
  deriving DecidableEq

/-! ## The source -/

/-- `Log::Log`, with `level` for `g_log_level`. -/
def new (level prio : Int) : Log where
  prio := prio
  ok := prio ≤ level
  done := false
  buf := []

/-- The characters that make `append_escaped` quote a value. -/
def needsQuote (c : UInt8) : Bool :=
  c == 32 || c == 9 || c == 34 || c == 92 || c == 61 || c == 10 || c == 13

/-- `needq` behind the loop. -/
def needq (v : Bytes) : Bool := v.isEmpty || v.any needsQuote

/-- The `switch` of `append_escaped`. -/
def escapeChar (c : UInt8) : Bytes :=
  if c = 34 then text "\\\""
  else if c = 92 then text "\\\\"
  else if c = 10 then text "\\n"
  else if c = 13 then text "\\r"
  else [c]

/-- `append_escaped`. -/
def appendEscaped (out v : Bytes) : Bytes :=
  if needq v = false then out ++ v
  else out ++ [34] ++ v.flatMap escapeChar ++ [34]

/-- `std::to_string` of an integer. -/
def toString : Int → Bytes
  | .ofNat n => decimalBytes n
  | .negSucc n => 45 :: decimalBytes (n + 1)

/-- `append_value`. -/
def appendValue (buf : Bytes) : Value → Bytes
  | .bool b => buf ++ if b then text "true" else text "false"
  | .int n => buf ++ toString n
  | .str s => appendEscaped buf s

/-- `Log::operator()`. -/
def append (l : Log) (key : Bytes) (value : Value) : Log :=
  if l.ok then
    let buf := if l.buf.isEmpty then l.buf else l.buf ++ [32]
    { l with buf := appendValue (buf ++ key ++ [61]) value }
  else l

/-- A chain of calls. -/
def appendAll (l : Log) (fields : List (Bytes × Value)) : Log :=
  fields.foldl (fun l f => l.append f.1 f.2) l

/-- `Log::finish`. -/
def finish (l : Log) : Log := { l with done := true }

/-- `Log::enabled`. -/
def enabled (l : Log) : Bool := l.ok && !l.done

/-- `Log::~Log`: the priority and the string that `syslog` gets, which ends at
the first NUL. -/
def flush (l : Log) : Option (Int × Bytes) :=
  if l.ok && !l.buf.isEmpty then some (l.prio, l.buf.takeWhile (· != 0)) else none

/-- The loop of `SLOG`, with `fuel` iterations left. -/
def slogLoop (msg : Bytes) (fields : List (Bytes × Value)) : Nat → Log → Log
  | 0, l => l
  | fuel + 1, l =>
      if l.enabled then
        slogLoop msg fields fuel ((l.append (text "msg") (.str msg)).appendAll fields).finish
      else l

/-- `SLOG(prio, msg)` with its chain of fields: what `syslog` gets. -/
def slog (fuel : Nat) (level prio : Int) (msg : Bytes) (fields : List (Bytes × Value)) :
    Option (Int × Bytes) :=
  (slogLoop msg fields fuel (new level prio)).flush

/-! ## The line -/

/-- What a value is rendered to, before it is quoted. -/
def Value.render : Value → Bytes
  | .bool b => if b then text "true" else text "false"
  | .int n => toString n
  | .str s => s

/-- A field as the reader gives it back. -/
def rendered (f : Bytes × Value) : Bytes × Bytes := (f.1, f.2.render)

theorem escapeChar_eq : escapeChar = textEscape :=
  rfl

theorem digit_no_quote : ∀ d : UInt8, isDigitByte d = true → needsQuote d = false :=
  forall_byte (by decide +kernel)

theorem decimalBytes_no_quote (n : Nat) : (decimalBytes n).any needsQuote = false := by
  rw [List.any_eq_false]
  intro d hd
  rw [digit_no_quote d (decimalBytes_isDigit n d hd)]
  exact Bool.false_ne_true

theorem needq_toString (n : Int) : needq (toString n) = false := by
  cases n with
  | ofNat n =>
      show ((decimalBytes n).isEmpty || (decimalBytes n).any needsQuote) = false
      rw [decimalBytes_no_quote, List.isEmpty_eq_false_iff.mpr (decimalBytes_ne_nil n)]
      rfl
  | negSucc n =>
      show (false || (needsQuote 45 || (decimalBytes (n + 1)).any needsQuote)) = false
      rw [decimalBytes_no_quote]
      rfl

theorem appendEscaped_eq (out v : Bytes) :
    appendEscaped out v = out ++ textBytes (needq v) v := by
  cases hquote : needq v with
  | false => rw [appendEscaped, if_pos hquote]; rfl
  | true =>
      rw [appendEscaped, if_neg (by simp [hquote]), escapeChar_eq]
      simp [textBytes, quoteByte]

/-- Numbers and flags are texts that need no quotes. -/
theorem appendValue_eq (buf : Bytes) (value : Value) :
    appendValue buf value = buf ++ textBytes (needq value.render) value.render := by
  cases value with
  | bool b => cases b <;> rfl
  | int n =>
      rw [Value.render, needq_toString]
      rfl
  | str s => exact appendEscaped_eq buf s

/-- Appending a field to a line of fields. -/
theorem append_buf {l : Log} (hok : l.ok = true) {fs : List (Bytes × Bytes)}
    (hbuf : l.buf = textLine needq fs) (f : Bytes × Value) :
    (l.append f.1 f.2).buf = textLine needq (fs ++ [rendered f]) := by
  rw [append, if_pos hok]
  show appendValue ((if l.buf.isEmpty then l.buf else l.buf ++ [32]) ++ f.1 ++ [61]) f.2 = _
  rw [appendValue_eq, textLine_concat, hbuf]
  cases hempty : (textLine needq fs).isEmpty with
  | false => simp [textField, rendered]
  | true => simp [textField, rendered, List.isEmpty_iff.mp hempty]

theorem append_control (l : Log) (key : Bytes) (value : Value) :
    (l.append key value).prio = l.prio ∧ (l.append key value).ok = l.ok ∧
      (l.append key value).done = l.done := by
  rw [append]
  split <;> exact ⟨rfl, rfl, rfl⟩

/-- A chain of calls adds its fields, in order, and changes nothing else. -/
theorem appendAll_spec {l : Log} {fs : List (Bytes × Bytes)} (hbuf : l.buf = textLine needq fs)
    (fields : List (Bytes × Value)) :
    l.appendAll fields =
      if l.ok then { l with buf := textLine needq (fs ++ fields.map rendered) } else l := by
  induction fields generalizing l fs with
  | nil =>
      rw [List.map_nil, List.append_nil, ← hbuf]
      split <;> rfl
  | cons f fields ih =>
      rw [appendAll, List.foldl_cons]
      cases hok : l.ok with
      | true =>
          obtain ⟨hprio, hok', hdone⟩ := append_control l f.1 f.2
          have hrest := ih (append_buf hok hbuf f)
          rw [appendAll] at hrest
          rw [hrest, hok', hok, if_pos rfl, if_pos rfl, hprio, hdone, List.map_cons,
            List.append_assoc, List.singleton_append]
      | false =>
          have hskip : l.append f.1 f.2 = l := by
            rw [append, hok]
            rfl
          have hrest := ih hbuf
          rw [hok] at hrest
          rw [hskip]
          exact hrest

/-- The line of a new log. -/
theorem new_appendAll (level prio : Int) (fields : List (Bytes × Value)) :
    (new level prio).appendAll fields =
      { new level prio with
        buf := if prio ≤ level then textLine needq (fields.map rendered) else [] } := by
  have hempty : (new level prio).buf = textLine needq [] := rfl
  rw [appendAll_spec hempty]
  by_cases hlevel : prio ≤ level
  · simp [new, hlevel]
  · simp [new, hlevel]

/-- A text that is not quoted can stand bare. -/
theorem plain_of_needq {t : Bytes} (hquote : needq t = false) :
    t.all isPlain = true ∧ 10 ∉ t ∧ 13 ∉ t := by
  simp only [needq, Bool.or_eq_false_iff, List.any_eq_false] at hquote
  have hbyte : ∀ c ∈ t, c ≠ 32 ∧ c ≠ quoteByte ∧ c ≠ 10 ∧ c ≠ 13 := by
    intro c hc
    have hkeep := hquote.2 c hc
    simp only [needsQuote, Bool.or_eq_true, beq_iff_eq, not_or] at hkeep
    exact ⟨by tauto, by unfold quoteByte; tauto, by tauto, by tauto⟩
  refine ⟨?_, fun hmem => (hbyte 10 hmem).2.2.1 rfl, fun hmem => (hbyte 13 hmem).2.2.2 rfl⟩
  rw [List.all_eq_true]
  intro c hc
  simp [isPlain, (hbyte c hc).1, (hbyte c hc).2.1]

/-- A key: no space, equals sign or quote. -/
structure IsKey (key : Bytes) : Prop where
  nonempty : key ≠ []
  no_space : 32 ∉ key
  no_equals : 61 ∉ key
  no_quote : 34 ∉ key

instance (key : Bytes) : Decidable (IsKey key) :=
  decidable_of_iff (key ≠ [] ∧ 32 ∉ key ∧ 61 ∉ key ∧ 34 ∉ key)
    ⟨fun h => ⟨h.1, h.2.1, h.2.2.1, h.2.2.2⟩,
      fun h => ⟨h.nonempty, h.no_space, h.no_equals, h.no_quote⟩⟩

theorem IsKey.plain {key : Bytes} (hkey : IsKey key) : key.all isPlain = true := by
  rw [List.all_eq_true]
  intro c hc
  have hspace : c ≠ 32 := by
    rintro rfl
    exact hkey.no_space hc
  have hquote : c ≠ quoteByte := by
    rintro rfl
    exact hkey.no_quote hc
  simp [isPlain, hspace, hquote]

/-- The fields are read back from their line. -/
theorem readTextLine_fields {fields : List (Bytes × Value)} (hkeys : ∀ f ∈ fields, IsKey f.1) :
    readTextLine (textLine needq (fields.map rendered)) = some (fields.map rendered) := by
  refine readTextLine_textLine (fun t ht => (plain_of_needq ht).1) fun f hf => ?_
  obtain ⟨g, hg, rfl⟩ := List.mem_map.mp hf
  exact ⟨(hkeys g hg).plain, (hkeys g hg).no_equals⟩

/-- Line breaks stand only in keys. -/
theorem break_mem_fields (fields : List (Bytes × Value)) {b : UInt8} (hb : b = 10 ∨ b = 13) :
    b ∈ textLine needq (fields.map rendered) ↔ ∃ f ∈ fields, b ∈ f.1 := by
  rw [break_mem_textLine (fun t ht => (plain_of_needq ht).2) _ hb]
  simp [rendered]

/-- `syslog` gets the whole line, unless there is nothing to log. -/
theorem flush_fields (level prio : Int) {fields : List (Bytes × Value)}
    (hnul : ∀ f ∈ fields, 0 ∉ f.1 ∧ 0 ∉ f.2.render) :
    ((new level prio).appendAll fields).flush =
      if prio ≤ level ∧ fields ≠ [] then some (prio, textLine needq (fields.map rendered))
      else none := by
  have hline : 0 ∉ textLine needq (fields.map rendered) := by
    apply nul_not_mem_textLine
    intro f hf
    obtain ⟨g, hg, rfl⟩ := List.mem_map.mp hf
    exact hnul g hg
  rw [new_appendAll, flush]
  by_cases hlevel : prio ≤ level
  · by_cases hfields : fields = []
    · subst hfields
      simp [new, textLine, joinItems]
    · have hmap : fields.map rendered ≠ [] := by simpa using hfields
      have hwritten := textLine_ne_nil (q := needq) hmap
      simp [new, hlevel, hfields, hwritten, takeWhile_of_not_mem hline]
  · simp [new, hlevel]

/-- **Diagnostic lines are unambiguous.**  For every chain of fields, what was
rendered is read back from the line, keys and values in order; a line break
stands in the line only where a key has one, as keys are appended as they are;
and without a NUL in them `syslog` gets just this line. -/
theorem log_line_unambiguous (level prio : Int) (fields : List (Bytes × Value))
    (hkeys : ∀ f ∈ fields, IsKey f.1) :
    readTextLine ((new level prio).appendAll fields).buf =
        some (if prio ≤ level then fields.map rendered else []) ∧
      (∀ b, b = 10 ∨ b = 13 →
        (b ∈ ((new level prio).appendAll fields).buf ↔ prio ≤ level ∧ ∃ f ∈ fields, b ∈ f.1)) ∧
      ((∀ f ∈ fields, 0 ∉ f.1 ∧ 0 ∉ f.2.render) →
        ((new level prio).appendAll fields).flush =
          if prio ≤ level ∧ fields ≠ [] then
            some (prio, ((new level prio).appendAll fields).buf)
          else none) := by
  refine ⟨?_, ?_, ?_⟩
  · rw [new_appendAll]
    by_cases hlevel : prio ≤ level
    · simp only [hlevel, if_true]
      exact readTextLine_fields hkeys
    · simp only [hlevel, if_false]
      rfl
  · intro b hb
    rw [new_appendAll]
    by_cases hlevel : prio ≤ level
    · simp only [hlevel, if_true, true_and]
      exact break_mem_fields fields hb
    · simp [hlevel]
  · intro hnul
    rw [flush_fields level prio hnul, new_appendAll]
    by_cases hlevel : prio ≤ level
    · simp only [hlevel, if_true]
    · simp only [hlevel, false_and, if_false]

/-- The name of a device that would like to be two fields and a line. -/
def forgingDevice : Bytes := text "eth0\" level=3\nfake"

theorem log_line_unambiguous_demo :
    readTextLine ((new 5 3).appendAll
        [(text "ifname", .str forgingDevice), (text "ifindex", .int (-7)),
          (text "error", .str []), (text "present", .bool true)]).buf =
      some [(text "ifname", forgingDevice), (text "ifindex", text "-7"), (text "error", []),
        (text "present", text "true")] := by
  have hread := (log_line_unambiguous 5 3
    [(text "ifname", .str forgingDevice), (text "ifindex", .int (-7)), (text "error", .str []),
      (text "present", .bool true)] (by decide)).1
  have hint : Value.render (.int (-7)) = text "-7" := by
    show 45 :: decimalBytes 7 = _
    rw [decimalBytes]
    rfl
  rw [hread]
  simp only [List.map_cons, List.map_nil, rendered, hint]
  rfl

/-- **A line break in a key is not escaped.** -/
theorem key_breaks_line :
    IsKey (text "a\nb") ∧
      10 ∈ ((new 5 3).appendAll [(text "a\nb", .str (text "x"))]).buf := by
  decide

/-! ## A statement of the program -/

theorem slogLoop_finish (msg : Bytes) (fields : List (Bytes × Value)) (fuel : Nat) (l : Log) :
    slogLoop msg fields fuel l.finish = l.finish := by
  have hdone : l.finish.enabled = false := by simp [finish, enabled]
  cases fuel with
  | zero => rfl
  | succ fuel => rw [slogLoop, hdone, if_neg Bool.false_ne_true]

/-- The loop of `SLOG` runs its body once, when the priority is enabled. -/
theorem slogLoop_once (msg : Bytes) (fields : List (Bytes × Value)) (fuel : Nat)
    (level prio : Int) :
    slogLoop msg fields (fuel + 1) (new level prio) =
      if prio ≤ level then
        ((new level prio).appendAll ((text "msg", .str msg) :: fields)).finish
      else new level prio := by
  rw [slogLoop, slogLoop_finish]
  by_cases hlevel : prio ≤ level
  · rw [if_pos hlevel, if_pos (by simp [enabled, new, hlevel])]
    rfl
  · rw [if_neg hlevel, if_neg (by simp [enabled, new, hlevel])]

/-- **What a statement logs is read back**: one line for a priority that is
enabled and none otherwise, with the message first. -/
theorem slog_reads_back (fuel : Nat) (level prio : Int) {msg : Bytes}
    {fields : List (Bytes × Value)} (hkeys : ∀ f ∈ fields, IsKey f.1) (hmsg : 0 ∉ msg)
    (hnul : ∀ f ∈ fields, 0 ∉ f.1 ∧ 0 ∉ f.2.render) :
    ∃ line, readTextLine line = some ((text "msg", msg) :: fields.map rendered) ∧
      slog (fuel + 1) level prio msg fields = if prio ≤ level then some (prio, line) else none := by
  have hkey : IsKey (text "msg") := by decide
  have hkeyNul : 0 ∉ text "msg" := by decide
  have hkeys' : ∀ f ∈ (text "msg", Value.str msg) :: fields, IsKey f.1 :=
    List.forall_mem_cons.mpr ⟨hkey, hkeys⟩
  have hnul' : ∀ f ∈ (text "msg", Value.str msg) :: fields, 0 ∉ f.1 ∧ 0 ∉ f.2.render :=
    List.forall_mem_cons.mpr ⟨⟨hkeyNul, hmsg⟩, hnul⟩
  refine ⟨_, readTextLine_fields hkeys', ?_⟩
  rw [slog, slogLoop_once]
  by_cases hlevel : prio ≤ level
  · have hflush := flush_fields level prio hnul'
    rw [if_pos ⟨hlevel, List.cons_ne_nil _ _⟩] at hflush
    rw [if_pos hlevel, if_pos hlevel, ← hflush]
    rfl
  · rw [if_neg hlevel, if_neg hlevel]
    simp [flush, new]

end Log
end Obserwrt
