import Mathlib.Data.List.Nodup
import Obserwrt.Lib.Quote
import Obserwrt.Lib.Text

/-!
# Metric expositions

The line-oriented text format of Prometheus, without its optional parts (time
stamps, blank lines, other comments, more white space than needed): `# HELP`
and `# TYPE` lines and samples with natural numbers as values.  Names keep the
character sets of the format; label values are byte strings in its escape.
-/

namespace Obserwrt
namespace Lib

/-- The kind of a metric family. -/
inductive MetricKind
  | counter
  | gauge
  | histogram
  | summary
  | untyped
  deriving DecidableEq

def MetricKind.bytes : MetricKind → Bytes
  | .counter => text "counter"
  | .gauge => text "gauge"
  | .histogram => text "histogram"
  | .summary => text "summary"
  | .untyped => text "untyped"

/-- Names with their values, as they stand between the braces. -/
abbrev Labels := List (Bytes × Bytes)

/-- A line of an exposition. -/
inductive PromLine
  | help (name doc : Bytes)
  | type (name : Bytes) (kind : MetricKind)
  | sample (name : Bytes) (labels : Labels) (value : Nat)
  deriving DecidableEq

/-! ## Names -/

def isLetter (b : UInt8) : Bool := (65 ≤ b && b ≤ 90) || (97 ≤ b && b ≤ 122) || b == 95

/-- A byte of a label name. -/
def isLabelByte (b : UInt8) : Bool := isLetter b || isDigitByte b

/-- A byte of a metric name. -/
def isNameByte (b : UInt8) : Bool := isLabelByte b || b == 58

/-- A name over an alphabet: not empty, and not beginning with a digit. -/
def isName (p : UInt8 → Bool) (name : Bytes) : Bool :=
  name.all p && (name.head?.map fun b => !isDigitByte b).getD false

/-- Read a name. -/
def readName (p : UInt8 → Bool) (bs : Bytes) : Option (Bytes × Bytes) :=
  if isName p (bs.takeWhile p) then some (bs.takeWhile p, bs.dropWhile p) else none

theorem readName_append {p : UInt8 → Bool} {name rest : Bytes} (hname : isName p name = true)
    (hrest : ∀ b ∈ rest.head?, p b = false) : readName p (name ++ rest) = some (name, rest) := by
  have hall : ∀ b ∈ name, p b = true := by
    simp only [isName, Bool.and_eq_true, List.all_eq_true] at hname
    exact hname.1
  obtain ⟨htake, hdrop⟩ := takeWhile_append_of_all hall hrest
  rw [readName, htake, hdrop, if_pos hname]

/-! ## Labels -/

/-- The spelling of a byte in a label value. -/
def promEscape (b : UInt8) : Bytes :=
  if b = 92 then [92, 92]
  else if b = quoteByte then [92, quoteByte]
  else if b = 10 then [92, 110]
  else [b]

/-- The reader of label values; its state says whether it is behind a backslash. -/
def promUnquote : Unquote Bool where
  start := false
  step
    | false, b =>
        if b = 92 then some (true, [])
        else if b = 10 then none
        else some (false, [b])
    | true, b =>
        if b = 92 ∨ b = quoteByte then some (false, [b])
        else if b = 110 then some (false, [10])
        else none

theorem promUnquote_undoes : promUnquote.Undoes promEscape :=
  forall_byte (by decide +kernel)

/-- A label. -/
def labelBytes (l : Bytes × Bytes) : Bytes :=
  l.1 ++ 61 :: quoteByte :: (l.2.flatMap promEscape ++ [quoteByte])

/-- The labels of a sample; without labels there are no braces. -/
def labelsBytes (ls : Labels) : Bytes :=
  if ls = [] then [] else 123 :: (joinItems 44 labelBytes ls ++ [125])

/-- Read a label. -/
def readLabel (bs : Bytes) : Option ((Bytes × Bytes) × Bytes) :=
  (readName isLabelByte bs).bind fun name =>
    (expect [61, quoteByte] name.2).bind fun rest =>
      (promUnquote.read false rest).map fun value => ((name.1, value.1), value.2)

/-- Read the labels of a sample. -/
def readLabels (bs : Bytes) : Option (Labels × Bytes) :=
  match expect [123] bs with
  | none => some ([], bs)
  | some rest =>
      match expect [125] rest with
      | some after => some ([], after)
      | none => readItems readLabel (expect [44]) (expect [125]) rest.length rest

theorem readLabel_labelBytes {l : Bytes × Bytes} (hname : isName isLabelByte l.1 = true)
    (rest : Bytes) : readLabel (labelBytes l ++ rest) = some (l, rest) := by
  have hsplit : labelBytes l ++ rest =
      l.1 ++ 61 :: quoteByte :: (l.2.flatMap promEscape ++ quoteByte :: rest) := by
    simp [labelBytes]
  have hstop : ∀ b ∈ (61 :: quoteByte :: (l.2.flatMap promEscape ++ quoteByte :: rest)).head?,
      isLabelByte b = false := by
    simp only [List.head?_cons, Option.mem_some_iff, forall_eq']
    decide
  have hvalue : promUnquote.read false (l.2.flatMap promEscape ++ quoteByte :: rest) =
      some (l.2, rest) :=
    promUnquote.read_quoted promUnquote_undoes l.2 rest
  rw [hsplit, readLabel, readName_append hname hstop, Option.bind_some]
  simp only [expect, if_true, Option.bind_some, hvalue, Option.map_some]

theorem readsItems_label :
    ReadsItems labelBytes 44 125 readLabel (expect [44]) (expect [125])
      fun l => isName isLabelByte l.1 = true where
  hsep _ := rfl
  hlast _ := rfl
  hclose _ := rfl
  hitem _ hl _ _ _ := readLabel_labelBytes hl _

/-- A name does not begin with a mark. -/
theorem name_head {p : UInt8 → Bool} {name : Bytes} (hname : isName p name = true) :
    ∃ b bs, name = b :: bs ∧ p b = true := by
  cases name with
  | nil => exact absurd hname (by simp [isName])
  | cons b bs =>
      simp only [isName, List.all_cons, Bool.and_eq_true] at hname
      exact ⟨b, bs, rfl, hname.1.1⟩

theorem joinItems_label_head {ls : Labels} (hne : ls ≠ [])
    (hls : ∀ l ∈ ls, isName isLabelByte l.1 = true) :
    ∃ b bs, joinItems 44 labelBytes ls = b :: bs ∧ isLabelByte b = true := by
  cases ls with
  | nil => exact absurd rfl hne
  | cons l ls =>
      obtain ⟨b, bs, hname, hb⟩ := name_head (hls l List.mem_cons_self)
      cases ls with
      | nil => exact ⟨b, _, by rw [joinItems, labelBytes, hname, List.cons_append], hb⟩
      | cons l' ls =>
          exact ⟨b, _, by rw [joinItems, labelBytes, hname, List.cons_append, List.cons_append], hb⟩

/-- Labels are read back. -/
theorem readLabels_labelsBytes {ls : Labels} (hls : ∀ l ∈ ls, isName isLabelByte l.1 = true)
    (rest : Bytes) : readLabels (labelsBytes ls ++ 32 :: rest) = some (ls, 32 :: rest) := by
  by_cases hne : ls = []
  · subst hne
    rfl
  · obtain ⟨b, bs, hhead, hb⟩ := joinItems_label_head hne hls
    have hbrace : b ≠ 125 := by
      rintro rfl
      exact absurd hb (by decide)
    have hopen : labelsBytes ls ++ 32 :: rest =
        123 :: (joinItems 44 labelBytes ls ++ 125 :: 32 :: rest) := by
      simp [labelsBytes, hne]
    have hsome : expect [125] (joinItems 44 labelBytes ls ++ 125 :: 32 :: rest) = none := by
      rw [hhead, List.cons_append, expect_cons_ne (Ne.symm hbrace)]
    have hfuel : ls.length ≤ (joinItems 44 labelBytes ls ++ 125 :: 32 :: rest).length := by
      rw [List.length_append]
      exact Nat.le_add_right_of_le (joinItems_length (fun l => by simp [labelBytes]) 44 ls)
    have hread := readsItems_label.read_join hne hls hfuel (32 :: rest)
    rw [hopen, readLabels]
    simp only [expect_mark, hsome, hread]

/-! ## Lines -/

def helpMark : Bytes := text "# HELP "

def typeMark : Bytes := text "# TYPE "

def PromLine.bytes : PromLine → Bytes
  | .help name doc => helpMark ++ (name ++ 32 :: doc)
  | .type name kind => typeMark ++ (name ++ 32 :: kind.bytes)
  | .sample name labels value => name ++ (labelsBytes labels ++ 32 :: decimalBytes value)

/-- The text of a `# HELP` line, with its escapes undone. -/
def helpText : Bytes → Option Bytes
  | [] => some []
  | [b] => if b = 92 then none else some [b]
  | b :: c :: rest =>
      if b = 92 then
        if c = 92 then (helpText rest).map (92 :: ·)
        else if c = 110 then (helpText rest).map (10 :: ·)
        else none
      else (helpText (c :: rest)).map (b :: ·)

def readKind (bs : Bytes) : Option MetricKind :=
  [.counter, .gauge, .histogram, .summary, .untyped].find? fun k => k.bytes == bs

/-- Read a name and the blank behind it. -/
def readWord (bs : Bytes) : Option (Bytes × Bytes) :=
  (readName isNameByte bs).bind fun name =>
    (expect [32] name.2).map fun rest => (name.1, rest)

def readSample (bs : Bytes) : Option PromLine :=
  (readName isNameByte bs).bind fun name =>
    (readLabels name.2).bind fun labels =>
      (expect [32] labels.2).bind fun rest =>
        (wholeNat rest).map fun value => .sample name.1 labels.1 value

/-- Read a line. -/
def readPromLine (bs : Bytes) : Option PromLine :=
  match expect helpMark bs with
  | some rest =>
      (readWord rest).bind fun name => (helpText name.2).map fun doc => .help name.1 doc
  | none =>
      match expect typeMark bs with
      | some rest =>
          (readWord rest).bind fun name => (readKind name.2).map fun kind => .type name.1 kind
      | none => readSample bs

/-- A line the format can carry. -/
def PromLine.fits : PromLine → Bool
  | .help name doc => isName isNameByte name && doc.all fun b => b != 92 && b != 10
  | .type name _ => isName isNameByte name
  | .sample name labels _ => isName isNameByte name && labels.all fun l => isName isLabelByte l.1

theorem readWord_append {name : Bytes} (hname : isName isNameByte name = true) (rest : Bytes) :
    readWord (name ++ 32 :: rest) = some (name, rest) := by
  have hblank : ∀ b ∈ (32 :: rest).head?, isNameByte b = false := by
    simp only [List.head?_cons, Option.mem_some_iff, forall_eq']
    decide
  rw [readWord, readName_append hname hblank]
  rfl

theorem helpText_plain {doc : Bytes} (hdoc : doc.all (fun b => b != 92 && b != 10) = true) :
    helpText doc = some doc := by
  induction doc using helpText.induct with
  | case1 => rfl
  | case2 => simp at hdoc
  | case3 b hb => rw [helpText, if_neg hb]
  | case4 => simp_all
  | case5 => simp_all
  | case6 => simp_all
  | case7 b c rest hb ih =>
      rw [List.all_cons, Bool.and_eq_true] at hdoc
      rw [helpText, if_neg hb, ih hdoc.2]
      rfl

theorem readKind_bytes (kind : MetricKind) : readKind kind.bytes = some kind := by
  cases kind with
  | counter => decide +kernel
  | gauge => decide +kernel
  | histogram => decide +kernel
  | summary => decide +kernel
  | untyped => decide +kernel

theorem readSample_bytes {name : Bytes} {labels : Labels} (hname : isName isNameByte name = true)
    (hlabels : ∀ l ∈ labels, isName isLabelByte l.1 = true) (value : Nat) :
    readSample (name ++ (labelsBytes labels ++ 32 :: decimalBytes value)) =
      some (.sample name labels value) := by
  have hstop : ∀ b ∈ (labelsBytes labels ++ 32 :: decimalBytes value).head?,
      isNameByte b = false := by
    by_cases hne : labels = []
    · subst hne
      simp only [labelsBytes, if_true, List.nil_append, List.head?_cons, Option.mem_some_iff,
        forall_eq']
      decide
    · simp only [labelsBytes, hne, if_false, List.cons_append, List.head?_cons,
        Option.mem_some_iff, forall_eq']
      decide
  rw [readSample, readName_append hname hstop, Option.bind_some,
    readLabels_labelsBytes hlabels, Option.bind_some]
  simp only [expect_mark, Option.bind_some, wholeNat_decimalBytes, Option.map_some]

/-- A line is read back. -/
theorem readPromLine_bytes {l : PromLine} (hfits : l.fits = true) :
    readPromLine l.bytes = some l := by
  cases l with
  | help name doc =>
      simp only [PromLine.fits, Bool.and_eq_true] at hfits
      rw [PromLine.bytes, readPromLine, expect_append]
      simp only [readWord_append hfits.1, Option.bind_some, helpText_plain hfits.2,
        Option.map_some]
  | type name kind =>
      have hmark : ∀ rest, expect helpMark (typeMark ++ rest) = none := fun _ => rfl
      simp only [PromLine.fits] at hfits
      rw [PromLine.bytes, readPromLine, hmark, expect_append]
      simp only [readWord_append hfits, Option.bind_some, readKind_bytes, Option.map_some]
  | sample name labels value =>
      simp only [PromLine.fits, Bool.and_eq_true, List.all_eq_true] at hfits
      obtain ⟨b, bs, hname, hb⟩ := name_head hfits.1
      have hmarks : ∀ rest, expect helpMark (name ++ rest) = none ∧
          expect typeMark (name ++ rest) = none := by
        intro rest
        have hhash : (35 : UInt8) ≠ b := by
          rintro rfl
          exact absurd hb (by decide)
        rw [hname]
        exact ⟨expect_cons_ne hhash _ _, expect_cons_ne hhash _ _⟩
      rw [PromLine.bytes, readPromLine, (hmarks _).1, (hmarks _).2]
      exact readSample_bytes hfits.1 hfits.2 value

/-! ## Expositions -/

/-- The text of a list of lines. -/
def expositionBytes (ls : List PromLine) : Bytes := ls.flatMap fun l => l.bytes ++ [10]

/-- Read an exposition, whose last line ends like every other. -/
def readExposition (bs : Bytes) : Option (List PromLine) :=
  if (bs.splitOn 10).getLast? = some [] then (bs.splitOn 10).dropLast.mapM readPromLine else none

theorem name_no_newline {p : UInt8 → Bool} (hp : p 10 = false) {name : Bytes}
    (hname : isName p name = true) : 10 ∉ name := by
  intro hmem
  simp only [isName, Bool.and_eq_true, List.all_eq_true] at hname
  exact absurd (hname.1 10 hmem) (by simp [hp])

theorem promEscape_no_newline : ∀ b : UInt8, 10 ∉ promEscape b :=
  forall_byte (by decide +kernel)

theorem decimalBytes_no_newline (n : Nat) : 10 ∉ decimalBytes n :=
  fun hmem => absurd (decimalBytes_isDigit n 10 hmem) (by decide)

theorem labelBytes_no_newline {l : Bytes × Bytes} (hname : isName isLabelByte l.1 = true) :
    10 ∉ labelBytes l := by
  have hkey := name_no_newline (by decide) hname
  simp [labelBytes, quoteByte, hkey, promEscape_no_newline]

theorem labelsBytes_no_newline {ls : Labels} (hls : ∀ l ∈ ls, isName isLabelByte l.1 = true) :
    10 ∉ labelsBytes ls := by
  rw [labelsBytes]
  split
  · exact List.not_mem_nil
  · have hitems : 10 ∉ joinItems 44 labelBytes ls := by
      rw [mem_joinItems (by decide)]
      rintro ⟨l, hl, hmem⟩
      exact labelBytes_no_newline (hls l hl) hmem
    simp [hitems]

theorem PromLine.bytes_no_newline {l : PromLine} (hfits : l.fits = true) : 10 ∉ l.bytes := by
  cases l with
  | help name doc =>
      simp only [PromLine.fits, Bool.and_eq_true, List.all_eq_true, bne_iff_ne] at hfits
      have hname := name_no_newline (by decide) hfits.1
      have hdoc : 10 ∉ doc := fun hmem => (hfits.2 10 hmem).2 rfl
      have hmark : 10 ∉ helpMark := by decide
      simp [PromLine.bytes, hmark, hname, hdoc]
  | type name kind =>
      have hname := name_no_newline (by decide) hfits
      have hmark : 10 ∉ typeMark := by decide
      have hkind : 10 ∉ kind.bytes := by cases kind <;> decide
      simp [PromLine.bytes, hmark, hname, hkind]
  | sample name labels value =>
      simp only [PromLine.fits, Bool.and_eq_true, List.all_eq_true] at hfits
      have hname := name_no_newline (by decide) hfits.1
      have hlabels := labelsBytes_no_newline hfits.2
      simp [PromLine.bytes, hname, hlabels, decimalBytes_no_newline]

theorem splitOn_expositionBytes {ls : List PromLine} (hls : ∀ l ∈ ls, l.fits = true) :
    (expositionBytes ls).splitOn 10 = ls.map PromLine.bytes ++ [[]] := by
  induction ls with
  | nil => rfl
  | cons l ls ih =>
      have hl := PromLine.bytes_no_newline (hls l List.mem_cons_self)
      have hcons : expositionBytes (l :: ls) = l.bytes ++ 10 :: expositionBytes ls := by
        simp [expositionBytes]
      rw [hcons, List.splitOn_append_cons_self_of_not_mem hl,
        ih fun l' hl' => hls l' (List.mem_cons_of_mem _ hl')]
      rfl

/-- **An exposition is read back**, line for line. -/
theorem readExposition_bytes {ls : List PromLine} (hls : ∀ l ∈ ls, l.fits = true) :
    readExposition (expositionBytes ls) = some ls := by
  rw [readExposition, splitOn_expositionBytes hls, if_pos (by simp), List.dropLast_concat]
  exact mapM_map_of_forall fun l hl => readPromLine_bytes (hls l hl)

/-! ## Families -/

/-- A metric family with its samples. -/
structure Family where
  name : Bytes
  help : Bytes
  kind : MetricKind
  samples : List (Labels × Nat)

/-- The lines of a family: its two headers and behind them its samples. -/
def Family.lines (f : Family) : List PromLine :=
  .help f.name f.help :: .type f.name f.kind ::
    f.samples.map fun s => .sample f.name s.1 s.2

/-- The lines are those of the families, one family behind the other: every
family has its two headers once, directly before its first sample, and its
samples stand together; and no two samples have one name and label set. -/
structure Exposes (lines : List PromLine) (families : List Family) : Prop where
  hlines : lines = families.flatMap Family.lines
  hnames : (families.map Family.name).Nodup
  hsamples : ∀ f ∈ families, f.samples ≠ []
  hlabels : ∀ f ∈ families, ∀ s ∈ f.samples, (s.1.map Prod.fst).Nodup
  hseries : ∀ f ∈ families, f.samples.Pairwise fun s t => ¬s.1.Perm t.1

/-- Label lists over the same keys, each once, are permuted only when equal. -/
theorem labels_eq_of_perm {xs ys : Labels} (hkeys : xs.map Prod.fst = ys.map Prod.fst)
    (hnodup : (xs.map Prod.fst).Nodup) (hperm : xs.Perm ys) : xs = ys := by
  induction xs generalizing ys with
  | nil => exact (List.nil_perm.mp hperm).symm
  | cons x xs ih =>
      cases ys with
      | nil => exact absurd hperm.length_eq (by simp)
      | cons y ys =>
          simp only [List.map_cons, List.cons.injEq] at hkeys
          rw [List.map_cons, List.nodup_cons] at hnodup
          obtain rfl : x = y := by
            rcases List.mem_cons.mp (hperm.subset List.mem_cons_self) with hx | hx
            · exact hx
            · exact absurd (hkeys.2 ▸ List.mem_map_of_mem hx) hnodup.1
          rw [ih hkeys.2 hnodup.2 hperm.cons_inv]

/-- The metric a line is about. -/
def PromLine.metric : PromLine → Bytes
  | .help name _ => name
  | .type name _ => name
  | .sample name _ _ => name

theorem Family.metric_of_mem_lines {f : Family} {l : PromLine} (hl : l ∈ f.lines) :
    l.metric = f.name := by
  simp only [Family.lines, List.mem_cons, List.mem_map] at hl
  rcases hl with rfl | rfl | ⟨s, -, rfl⟩
  · rfl
  · rfl
  · rfl

theorem metric_of_mem_flatMap {fs : List Family} {name : Bytes} (hname : ∀ f ∈ fs, f.name ≠ name)
    {l : PromLine} (hl : l ∈ fs.flatMap Family.lines) : l.metric ≠ name := by
  obtain ⟨f, hf, hl⟩ := List.mem_flatMap.mp hl
  rw [Family.metric_of_mem_lines hl]
  exact hname f hf

/-- The lines are those of families with different names, one behind the other. -/
structure Blocks (lines : List PromLine) (families : List Family) : Prop where
  hlines : lines = families.flatMap Family.lines
  hnames : (families.map Family.name).Nodup

theorem Exposes.blocks {lines : List PromLine} {families : List Family}
    (h : Exposes lines families) : Blocks lines families :=
  ⟨h.hlines, h.hnames⟩

/-- The families on both sides of one have other names. -/
theorem Blocks.split {lines : List PromLine} {families : List Family}
    (h : Blocks lines families) {f : Family} (hf : f ∈ families) :
    ∃ front back, families = front ++ f :: back ∧ (∀ g ∈ front, g.name ≠ f.name) ∧
      ∀ g ∈ back, g.name ≠ f.name := by
  obtain ⟨front, back, hsplit⟩ := List.append_of_mem hf
  have hnames := h.hnames
  rw [hsplit, List.map_append, List.map_cons, List.nodup_append, List.nodup_cons] at hnames
  obtain ⟨-, ⟨hback, -⟩, hfront⟩ := hnames
  refine ⟨front, back, hsplit, ?_, ?_⟩
  · intro g hg
    exact hfront g.name (List.mem_map_of_mem hg) f.name List.mem_cons_self
  · intro g hg heq
    exact hback (heq ▸ List.mem_map_of_mem hg)

/-- The lines about a family are its two headers and its samples, in one piece. -/
theorem Exposes.block {lines : List PromLine} {families : List Family}
    (h : Exposes lines families) {f : Family} (hf : f ∈ families) :
    ∃ before after, lines = before ++ f.lines ++ after ∧
      ∀ l ∈ before ++ after, l.metric ≠ f.name := by
  obtain ⟨front, back, hsplit, hfront, hback⟩ := h.blocks.split hf
  refine ⟨front.flatMap Family.lines, back.flatMap Family.lines, ?_, ?_⟩
  · rw [h.hlines, hsplit, List.flatMap_append, List.flatMap_cons, List.append_assoc]
  · intro l hl
    rcases List.mem_append.mp hl with hl | hl
    · exact metric_of_mem_flatMap hfront hl
    · exact metric_of_mem_flatMap hback hl

/-- The values of the samples with a name and a label set. -/
def seriesValues (lines : List PromLine) (name : Bytes) (labels : Labels) : List Nat :=
  lines.filterMap fun
    | .sample n ls v => if n = name ∧ ls.Perm labels then some v else none
    | _ => none

theorem seriesValues_append (xs ys : List PromLine) (name : Bytes) (labels : Labels) :
    seriesValues (xs ++ ys) name labels =
      seriesValues xs name labels ++ seriesValues ys name labels :=
  List.filterMap_append

theorem seriesValues_lines (f : Family) (name : Bytes) (labels : Labels) :
    seriesValues f.lines name labels =
      f.samples.filterMap fun s => if f.name = name ∧ s.1.Perm labels then some s.2 else none := by
  simp [seriesValues, Family.lines, List.filterMap_map]

theorem seriesValues_other {fs : List Family} {name : Bytes} (hname : ∀ f ∈ fs, f.name ≠ name)
    (labels : Labels) : seriesValues (fs.flatMap Family.lines) name labels = [] := by
  induction fs with
  | nil => rfl
  | cons f fs ih =>
      have hf := hname f List.mem_cons_self
      rw [List.flatMap_cons, seriesValues_append, seriesValues_lines,
        ih fun g hg => hname g (List.mem_cons_of_mem _ hg)]
      simp [hf]

/-- What is found under a name and labels are the values of the family's samples
with these labels, in order. -/
theorem Blocks.seriesValues_eq {lines : List PromLine} {families : List Family}
    (h : Blocks lines families) {f : Family} (hf : f ∈ families) (labels : Labels) :
    seriesValues lines f.name labels =
      f.samples.filterMap fun s => if s.1.Perm labels then some s.2 else none := by
  obtain ⟨front, back, hsplit, hbefore, hafter⟩ := h.split hf
  rw [h.hlines, hsplit, List.flatMap_append, List.flatMap_cons, seriesValues_append,
    seriesValues_append, seriesValues_other hbefore, seriesValues_other hafter,
    seriesValues_lines, List.nil_append, List.append_nil]
  simp only [true_and]

theorem Blocks.seriesValues_none {lines : List PromLine} {families : List Family}
    (h : Blocks lines families) {name : Bytes} (hname : ∀ f ∈ families, f.name ≠ name)
    (labels : Labels) : seriesValues lines name labels = [] := by
  rw [h.hlines, seriesValues_other hname]

/-- Every sample is the only one of its series. -/
theorem Exposes.seriesValues_eq {lines : List PromLine} {families : List Family}
    (h : Exposes lines families) {f : Family} (hf : f ∈ families) {s : Labels × Nat}
    (hs : s ∈ f.samples) : seriesValues lines f.name s.1 = [s.2] := by
  obtain ⟨left, right, hsamples⟩ := List.append_of_mem hs
  have hseries := h.hseries f hf
  rw [hsamples, List.pairwise_append, List.pairwise_cons] at hseries
  obtain ⟨-, ⟨hright, -⟩, hleft⟩ := hseries
  have hl : left.filterMap (fun t => if t.1.Perm s.1 then some t.2 else none) = [] := by
    rw [List.filterMap_eq_nil_iff]
    exact fun t ht => if_neg (hleft t ht s List.mem_cons_self)
  have hr : right.filterMap (fun t => if t.1.Perm s.1 then some t.2 else none) = [] := by
    rw [List.filterMap_eq_nil_iff]
    exact fun t ht => if_neg fun hperm => hright t ht hperm.symm
  rw [h.blocks.seriesValues_eq hf, hsamples]
  simp [List.filterMap_append, hl, hr]

end Lib
end Obserwrt
