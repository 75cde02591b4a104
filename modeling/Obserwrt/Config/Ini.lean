import Mathlib.Data.List.DropRight
import Obserwrt.Config.Backends

/-!
# The INI file

The decoder of inifile-cpp (`vendor/inifile`), as `config_mini.cpp` uses it:
the separator, the comment signs and the escape character have their defaults,
there are no values of several lines, and a field that is set twice has the
second value.  The first half is the decoder with its errors.  The second half
says what a file means: lines as users write them, with indentation, blanks
around the separator, comments, and escaped comment signs.
-/

namespace Obserwrt
namespace Config
namespace Ini

open Lib Mini

/-! ## The decoder -/

/-- `trim`. -/
def trim (s : Bytes) : Bytes := (s.rdropWhile isSpace).dropWhile isSpace

/-- `esc_`. -/
def esc : UInt8 := 92

/-- `fieldSep_`. -/
def fieldSep : UInt8 := 61

/-- `commentPrefixes_`. -/
def commentPrefixes : List UInt8 := [35, 59]

/-- `eraseComment` for one comment sign, from the place on where its search
stands; `front` is the text before that place, backwards. -/
def eraseComment (sign : UInt8) : Bytes → Bytes → Bytes
  | front, [] => front.reverse
  | front, c :: rest =>
      if c = sign then
        match front with
        | [] => []
        | b :: before =>
            -- an escaped sign loses its escape character and stays
            if b = esc then eraseComment sign (c :: before) rest else front.reverse
      else eraseComment sign (c :: front) rest

/-- `eraseComments`. -/
def eraseComments (s : Bytes) : Bytes :=
  commentPrefixes.foldl (fun s sign => eraseComment sign [] s) s

/-- The text of a `std::logic_error`. -/
def failure (lineNo : Nat) (reason : String) : Bytes :=
  text "l." ++ decimalBytes lineNo ++ text ": ini parsing failed, " ++ text reason

/-- The file decoded so far, and the section that is open. -/
structure Decoder where
  file : IniFile
  current : Option Bytes

/-- Nothing is decoded. -/
def Decoder.start : Decoder := ⟨∅, none⟩

/-- `currentSection = &((*this)[secName])`. -/
def Decoder.openSection (d : Decoder) (name : Bytes) : Decoder where
  file := d.file.insert name ((d.file.lookup name).getD ∅)
  current := some name

/-- `(*currentSection)[name] = value`. -/
def Decoder.assign (d : Decoder) (sec name value : Bytes) : Decoder :=
  { d with file := d.file.insert sec (((d.file.lookup sec).getD ∅).insert name value) }

/-- The body of the loop of `decode`. -/
def decodeLine (lineNo : Nat) (raw : Bytes) (d : Decoder) : Except Bytes Decoder :=
  match trim (eraseComments raw) with
  | [] => .ok d
  | c :: rest =>
      if c = 91 then
        if 93 ∉ rest then .error (failure lineNo "section not closed")
        else
          let secName := rest.takeWhile (· != 93)
          if secName = [] then .error (failure lineNo "section is empty")
          else .ok (d.openSection secName)
      else
        match d.current with
        | none =>
            .error (failure lineNo
              "field has no section or ini file in use by another application")
        | some sec =>
            if fieldSep ∉ c :: rest then .error (failure lineNo "no '=' found")
            else
              let name := trim ((c :: rest).takeWhile (· != fieldSep))
              let value := trim (((c :: rest).dropWhile (· != fieldSep)).drop 1)
              .ok (d.assign sec name value)

/-- `decode`, on what the stream holds. -/
def decode (content : Bytes) : Except Bytes IniFile :=
  (((content.splitOn 10).zipIdx 1).foldlM (fun d l => decodeLine l.2 l.1 d) Decoder.start).map
    Decoder.file

/-- `load_config_string` of `config_mini.cpp`: the configuration and `*error`. -/
def loadConfigString (content : Bytes) : Config × Bytes :=
  match decode content >>= parse with
  | .ok cfg => (cfg, [])
  | .error e => ({}, e)

/-! ## Lines as users write them -/

/-- What a line says. -/
inductive Item
  | blank
  | header (name : Bytes)
  | field (name value : Bytes)
  deriving DecidableEq

/-- A line: what it says, the blanks in it, and its comment with the sign. -/
structure Line where
  item : Item
  indent : Bytes := []
  before : Bytes := []
  after : Bytes := []
  trail : Bytes := []
  comment : Bytes := []
  deriving DecidableEq

/-- A line without its comment, and before any sign in it is escaped. -/
def Line.plain (l : Line) : Bytes :=
  match l.item with
  | .blank => l.indent ++ l.trail
  | .header name => l.indent ++ 91 :: name ++ 93 :: l.trail
  | .field name value =>
      (l.indent ++ name ++ l.before) ++ fieldSep :: (l.after ++ value ++ l.trail)

/-- `writeEscaped`, for one comment sign. -/
def escapeSign (sign : UInt8) (s : Bytes) : Bytes :=
  s.flatMap fun c => if c = sign then [esc, c] else [c]

/-- The line in the file. -/
def Line.write (l : Line) : Bytes :=
  commentPrefixes.foldr escapeSign l.plain ++ l.comment

/-- Nothing to trim. -/
def Tight (s : Bytes) : Prop := trim s = s

/-- What a line can say: the name of a section ends at the first bracket, and
the name of a field at the first separator. -/
def Item.Ok : Item → Prop
  | .blank => True
  | .header name => name ≠ [] ∧ 93 ∉ name ∧ 10 ∉ name
  | .field name value =>
      (Tight name ∧ fieldSep ∉ name ∧ name.head? ≠ some 91 ∧ 10 ∉ name) ∧
        Tight value ∧ 10 ∉ value

/-- A line that can be written: one line, blanks where blanks go, and a comment
that its sign begins. -/
structure Line.Ok (l : Line) : Prop where
  item : l.item.Ok
  blanks : ∀ b ∈ l.indent ++ l.before ++ l.after ++ l.trail, isSpace b = true ∧ b ≠ 10
  comment : 10 ∉ l.comment ∧ ∀ c ∈ l.comment.head?,
    c ∈ commentPrefixes ∧ l.plain.getLast? ≠ some esc

/-- A file of lines. -/
def writeLines (lines : List Line) : Bytes := [10].intercalate (lines.map Line.write)

/-! ## What a file means -/

/-- No field stands before the first header. -/
def Opened (items : List Item) : Prop :=
  ∀ name value before after, items = before ++ .field name value :: after →
    ∃ sec, Item.header sec ∈ before

/-- One item on the decoded file. -/
def Decoder.apply (d : Decoder) : Item → Decoder
  | .blank => d
  | .header name => d.openSection name
  | .field name value =>
      match d.current with
      | none => d
      | some sec => d.assign sec name value

/-- The assignments of a file, in order: section, name and value. -/
def assignments : Option Bytes → List Item → List ((Bytes × Bytes) × Bytes)
  | _, [] => []
  | cur, .blank :: items => assignments cur items
  | _, .header sec :: items => assignments (some sec) items
  | none, .field _ _ :: items => assignments none items
  | some sec, .field name value :: items =>
      ((sec, name), value) :: assignments (some sec) items

/-- The value a file gives to a field: the last one. -/
def valueOf (items : List Item) (sec name : Bytes) : Option Bytes :=
  ((assignments none items).filter fun a => a.1 = (sec, name)).getLast?.map Prod.snd

/-! ## Trimming -/

section Trim

variable {w a b : Bytes} {c : UInt8}

theorem rdropWhile_append_space (hw : ∀ x ∈ w, isSpace x = true) :
    (a ++ w).rdropWhile isSpace = a.rdropWhile isSpace := by
  rw [List.rdropWhile, List.rdropWhile, List.reverse_append,
    List.dropWhile_append_of_pos fun x hx => hw x (List.mem_reverse.mp hx)]

/-- Trimming stops at a character that is no space, from both sides. -/
theorem trim_append_cons (hc : isSpace c = false) :
    trim (a ++ c :: b) = a.dropWhile isSpace ++ c :: b.rdropWhile isSpace := by
  have hright : (a ++ c :: b).rdropWhile isSpace = a ++ c :: b.rdropWhile isSpace := by
    rw [List.rdropWhile, List.rdropWhile, List.reverse_append, List.reverse_cons,
      List.append_assoc, List.dropWhile_append]
    split
    · rename_i hempty
      rw [List.isEmpty_iff] at hempty
      simp [hempty, hc]
    · simp
  rw [trim, hright, List.dropWhile_append]
  split
  · rename_i hempty
    rw [List.isEmpty_iff] at hempty
    simp [hempty, hc]
  · rfl

theorem trim_space (hw : ∀ x ∈ w, isSpace x = true) : trim w = [] := by
  rw [trim, List.rdropWhile_eq_nil_iff.mpr hw, List.dropWhile_nil]

/-- Blanks around a text are trimmed. -/
theorem trim_blanks {w' : Bytes} (hw : ∀ x ∈ w, isSpace x = true)
    (hw' : ∀ x ∈ w', isSpace x = true) : trim (w ++ a ++ w') = trim a := by
  rw [trim, rdropWhile_append_space hw', trim]
  by_cases ha : ∀ x ∈ a, isSpace x = true
  · have hall : ∀ x ∈ w ++ a, isSpace x = true := by
      intro x hx
      rcases List.mem_append.mp hx with hx | hx
      · exact hw x hx
      · exact ha x hx
    rw [List.rdropWhile_eq_nil_iff.mpr hall, List.rdropWhile_eq_nil_iff.mpr ha]
  · have hsplit : (w ++ a).rdropWhile isSpace = w ++ a.rdropWhile isSpace := by
      rw [List.rdropWhile, List.rdropWhile, List.reverse_append, List.dropWhile_append]
      split
      · rename_i hempty
        rw [List.isEmpty_iff, List.dropWhile_eq_nil_iff] at hempty
        exact absurd (fun x hx => hempty x (List.mem_reverse.mpr hx)) ha
      · simp
    rw [hsplit, List.dropWhile_append_of_pos hw]

theorem trim_dropWhile (a : Bytes) : trim (a.dropWhile isSpace) = trim a := by
  have hsplit : a.takeWhile isSpace ++ a.dropWhile isSpace ++ [] = a := by
    rw [List.append_nil, List.takeWhile_append_dropWhile]
  have hfront : ∀ x ∈ a.takeWhile isSpace, isSpace x = true :=
    fun _ hx => List.mem_takeWhile_imp hx
  have hback : ∀ x ∈ ([] : Bytes), isSpace x = true := fun _ hx => absurd hx List.not_mem_nil
  rw [← trim_blanks hfront hback, hsplit]

theorem trim_rdropWhile (a : Bytes) : trim (a.rdropWhile isSpace) = trim a := by
  rw [trim, List.rdropWhile_idempotent]
  rfl

/-- A tight text begins with no space. -/
theorem Tight.head? {s : Bytes} (h : Tight s) : ∀ b ∈ s.head?, isSpace b = false := by
  intro b hb
  have hnot := List.head?_dropWhile_not isSpace (s.rdropWhile isSpace)
  have hs : (s.rdropWhile isSpace).dropWhile isSpace = s := h
  rw [hs, Option.mem_def.mp hb] at hnot
  exact hnot

end Trim

/-! ## Comments -/

section Comments

variable {sign c : UInt8} {front rest s : Bytes}

theorem eraseComment_nil (sign : UInt8) (front : Bytes) :
    eraseComment sign front [] = front.reverse := by
  unfold eraseComment
  rfl

theorem eraseComment_other (hc : c ≠ sign) (front rest : Bytes) :
    eraseComment sign front (c :: rest) = eraseComment sign (c :: front) rest := by
  rw [eraseComment.eq_def]
  simp only [if_neg hc]

theorem eraseComment_escaped (sign : UInt8) (front rest : Bytes) :
    eraseComment sign (esc :: front) (sign :: rest) = eraseComment sign (sign :: front) rest := by
  rw [eraseComment.eq_def]
  simp only [if_true]

theorem eraseComment_sign (hfront : front.head? ≠ some esc) (rest : Bytes) :
    eraseComment sign front (sign :: rest) = front.reverse := by
  rw [eraseComment.eq_def]
  cases front with
  | nil => simp only [if_true, List.reverse_nil]
  | cons b before =>
      have hb : b ≠ esc := fun h => hfront (congrArg some h)
      simp only [if_true, if_neg hb]

/-- The search passes over an escaped text and takes the escapes away. -/
theorem eraseComment_escapeSign (hsign : esc ≠ sign) (s front rest : Bytes) :
    eraseComment sign front (escapeSign sign s ++ rest) =
      eraseComment sign (s.reverse ++ front) rest := by
  induction s generalizing front with
  | nil => rfl
  | cons c s ih =>
      have hstep : eraseComment sign front (escapeSign sign (c :: s) ++ rest) =
          eraseComment sign (c :: front) (escapeSign sign s ++ rest) := by
        rw [escapeSign, List.flatMap_cons, List.append_assoc]
        by_cases hc : c = sign
        · subst hc
          rw [if_pos rfl]
          exact (eraseComment_other hsign _ _).trans (eraseComment_escaped _ _ _)
        · rw [if_neg hc]
          exact eraseComment_other hc _ _
      rw [hstep, ih, List.reverse_cons, List.append_assoc, List.singleton_append]

/-- An escaped text is what was escaped. -/
theorem eraseComment_escaped_text (hsign : esc ≠ sign) (s : Bytes) :
    eraseComment sign [] (escapeSign sign s) = s := by
  have hwhole := eraseComment_escapeSign hsign s [] []
  rwa [List.append_nil, List.append_nil, eraseComment_nil, List.reverse_reverse] at hwhole

/-- At its own sign the search stops. -/
theorem eraseComment_stop (hlast : s.getLast? ≠ some esc) (rest : Bytes) :
    eraseComment sign s.reverse (sign :: rest) = s := by
  rw [← List.head?_reverse] at hlast
  rw [eraseComment_sign hlast, List.reverse_reverse]

/-- What lies before a character that is no escape stays. -/
theorem eraseComment_keeps (hc : c ≠ esc) (later front rest : Bytes) :
    ∃ more, eraseComment sign (later ++ c :: front) rest = front.reverse ++ c :: more := by
  have hreverse : ∀ later : Bytes, (later ++ c :: front).reverse =
      front.reverse ++ c :: later.reverse := by
    intro later
    simp
  induction rest generalizing later with
  | nil => exact ⟨_, (eraseComment_nil _ _).trans (hreverse later)⟩
  | cons d rest ih =>
      by_cases hd : d = sign
      · subst hd
        by_cases hescaped : (later ++ c :: front).head? = some esc
        · cases later with
          | nil => exact absurd (Option.some.inj hescaped) hc
          | cons b later =>
              obtain rfl := Option.some.inj hescaped
              rw [List.cons_append, eraseComment_escaped]
              exact ih (d :: later)
        · exact ⟨_, (eraseComment_sign hescaped rest).trans (hreverse later)⟩
      · rw [eraseComment_other hd]
        exact ih (d :: later)

theorem escapeSign_getLast (sign : UInt8) (s : Bytes) :
    (escapeSign sign s).getLast? = s.getLast? := by
  induction s using List.reverseRecOn with
  | nil => rfl
  | append_singleton s c _ =>
      rw [escapeSign, List.flatMap_append, List.flatMap_singleton, List.getLast?_append,
        List.getLast?_append]
      split <;> rfl

/-- **Comments are erased and escapes are taken back.** -/
theorem eraseComments_write {l : Line} (hcomment : ∀ c ∈ l.comment.head?,
    c ∈ commentPrefixes ∧ l.plain.getLast? ≠ some esc) : eraseComments l.write = l.plain := by
  have hsigns : l.write = escapeSign 35 (escapeSign 59 l.plain) ++ l.comment := rfl
  show eraseComment 59 [] (eraseComment 35 [] l.write) = l.plain
  rw [hsigns, eraseComment_escapeSign (by decide), List.append_nil]
  cases hc : l.comment with
  | nil => rw [eraseComment_nil, List.reverse_reverse, eraseComment_escaped_text (by decide)]
  | cons c rest =>
      obtain ⟨hmem, hlast⟩ := hcomment c (by rw [hc]; rfl)
      rcases List.mem_cons.mp hmem with rfl | hsemi
      · rw [eraseComment_stop (by rwa [escapeSign_getLast]), eraseComment_escaped_text (by decide)]
      · obtain rfl := List.mem_singleton.mp hsemi
        -- the first search passes over the sign of the second one
        rw [eraseComment_other (by decide)]
        obtain ⟨more, hmore⟩ := @eraseComment_keeps 35 59 (by decide) []
          (escapeSign 59 l.plain).reverse rest
        rw [List.nil_append] at hmore
        rw [hmore, List.reverse_reverse, eraseComment_escapeSign (by decide), List.append_nil,
          eraseComment_stop hlast]

end Comments

/-! ## Lines -/

section Lines

variable {l : Line} {lineNo : Nat} {d : Decoder}

theorem Line.Ok.spaces (h : l.Ok) :
    (∀ b ∈ l.indent, isSpace b = true) ∧ (∀ b ∈ l.before, isSpace b = true) ∧
      (∀ b ∈ l.after, isSpace b = true) ∧ ∀ b ∈ l.trail, isSpace b = true := by
  have hall := h.blanks
  simp only [List.mem_append] at hall
  exact ⟨fun b hb => (hall b (by tauto)).1, fun b hb => (hall b (by tauto)).1,
    fun b hb => (hall b (by tauto)).1, fun b hb => (hall b (by tauto)).1⟩

theorem decodeLine_blank (h : l.Ok) (hitem : l.item = .blank) :
    decodeLine lineNo l.write d = .ok d := by
  obtain ⟨hindent, -, -, htrail⟩ := h.spaces
  have htrim : trim l.plain = [] := by
    rw [Line.plain, hitem]
    refine trim_space fun b hb => ?_
    rcases List.mem_append.mp hb with hb | hb
    · exact hindent b hb
    · exact htrail b hb
  rw [decodeLine, eraseComments_write fun c hc => h.comment.2 c hc, htrim]

theorem decodeLine_header (h : l.Ok) {name : Bytes} (hitem : l.item = .header name) :
    decodeLine lineNo l.write d = .ok (d.openSection name) := by
  obtain ⟨hindent, -, -, htrail⟩ := h.spaces
  have hok := h.item
  rw [hitem] at hok
  obtain ⟨hne, hbracket, -⟩ := hok
  have htrim : trim l.plain = 91 :: (name ++ [93]) := by
    have hplain : l.plain = (l.indent ++ 91 :: name) ++ 93 :: l.trail := by
      rw [Line.plain, hitem]
    rw [hplain, trim_append_cons (by decide), List.dropWhile_append_of_pos hindent,
      List.rdropWhile_eq_nil_iff.mpr htrail, List.dropWhile_cons_of_neg (by decide)]
    rfl
  have hclosed : (93 : UInt8) ∈ name ++ [93] := List.mem_append_right _ List.mem_cons_self
  have hname := (cut_at_mark hbracket []).1
  rw [decodeLine, eraseComments_write fun c hc => h.comment.2 c hc, htrim]
  simp only [if_true, hclosed, not_true_eq_false, if_false, hname, hne]

/-- What a line with a separator sets, where a section is open. -/
theorem decodeLine_of_trim {raw front back sec : Bytes}
    (htrim : trim (eraseComments raw) = front ++ fieldSep :: back) (hsep : fieldSep ∉ front)
    (hhead : front.head? ≠ some 91) (hsec : d.current = some sec) :
    decodeLine lineNo raw d = .ok (d.assign sec (trim front) (trim back)) := by
  have hmem : fieldSep ∈ front ++ fieldSep :: back :=
    List.mem_append_right _ List.mem_cons_self
  obtain ⟨htake, hdrop⟩ := cut_at_mark hsep back
  rw [decodeLine, htrim]
  cases hfront : front ++ fieldSep :: back with
  | nil => exact absurd hfront (by simp)
  | cons c rest =>
      have hc : c ≠ 91 := by
        rintro rfl
        cases front with
        | nil => exact absurd (List.cons.inj hfront).1 (by decide)
        | cons b front => exact hhead (congrArg some (List.cons.inj hfront).1)
      rw [hfront] at hmem htake hdrop
      simp only [if_neg hc, hsec, hmem, not_true_eq_false, if_false, htake, hdrop, List.drop_one,
        List.tail_cons]

theorem decodeLine_field (h : l.Ok) {name value sec : Bytes} (hitem : l.item = .field name value)
    (hsec : d.current = some sec) :
    decodeLine lineNo l.write d = .ok (d.assign sec name value) := by
  obtain ⟨hindent, hbefore, hafter, htrail⟩ := h.spaces
  have hok := h.item
  rw [hitem] at hok
  obtain ⟨⟨htight, hsep, hhead, -⟩, htight', -⟩ := hok
  have htrim : trim (eraseComments l.write) = (l.indent ++ name ++ l.before).dropWhile isSpace ++
      fieldSep :: (l.after ++ value ++ l.trail).rdropWhile isSpace := by
    rw [eraseComments_write fun c hc => h.comment.2 c hc, Line.plain, hitem]
    exact trim_append_cons (by decide)
  have hcut : fieldSep ∉ (l.indent ++ name ++ l.before).dropWhile isSpace := by
    intro hmem
    have hmem' := List.dropWhile_subset isSpace hmem
    simp only [List.mem_append] at hmem'
    rcases hmem' with (hmem' | hmem') | hmem'
    · exact absurd (hindent _ hmem') (by decide)
    · exact hsep hmem'
    · exact absurd (hbefore _ hmem') (by decide)
  have hfirst : ((l.indent ++ name ++ l.before).dropWhile isSpace).head? ≠ some 91 := by
    rw [List.append_assoc, List.dropWhile_append_of_pos hindent]
    cases name with
    | nil =>
        rw [List.nil_append, List.dropWhile_eq_nil_iff.mpr hbefore]
        simp
    | cons b name =>
        rw [List.cons_append, List.dropWhile_cons_of_neg (by simp [htight.head? b rfl])]
        exact hhead
  rw [decodeLine_of_trim htrim hcut hfirst hsec, trim_dropWhile, trim_rdropWhile,
    trim_blanks hindent hbefore, trim_blanks hafter htrail]
  exact congrArg Except.ok (congrArg₂ (d.assign sec) htight htight')

end Lines

/-! ## Files -/

/-- A line of a file does what it says. -/
theorem decodeLine_write {l : Line} (h : l.Ok) (lineNo : Nat) {d : Decoder}
    (hopen : ∀ name value, l.item = .field name value → d.current ≠ none) :
    decodeLine lineNo l.write d = .ok (d.apply l.item) := by
  cases hitem : l.item with
  | blank => exact decodeLine_blank h hitem
  | header name => exact decodeLine_header h hitem
  | field name value =>
      obtain ⟨sec, hsec⟩ := Option.ne_none_iff_exists'.mp (hopen name value hitem)
      rw [decodeLine_field h hitem hsec, Decoder.apply, hsec]

/-- The fields that stand before the first header. -/
theorem opened_cons {item : Item} {items : List Item} (h : Opened (item :: items)) :
    (∀ name value, item ≠ .field name value) ∧
      ((∀ sec, item ≠ .header sec) → Opened items) := by
  constructor
  · rintro name value rfl
    obtain ⟨sec, hsec⟩ := h name value [] items rfl
    exact absurd hsec List.not_mem_nil
  · rintro hno name value before after rfl
    obtain ⟨sec, hsec⟩ := h name value (item :: before) after rfl
    rcases List.mem_cons.mp hsec with heq | hmem
    · exact absurd heq.symm (hno sec)
    · exact ⟨sec, hmem⟩

/-- The lines of a file from some point on, after a header or with one to come. -/
theorem decodeLines_write {lines : List Line} (hok : ∀ l ∈ lines, l.Ok) (lineNo : Nat) {d : Decoder}
    (hopen : d.current = none → Opened (lines.map Line.item)) :
    ((lines.map Line.write).zipIdx lineNo).foldlM (fun d l => decodeLine l.2 l.1 d) d =
      .ok ((lines.map Line.item).foldl Decoder.apply d) := by
  induction lines generalizing lineNo d with
  | nil => rfl
  | cons l lines ih =>
      have hline := decodeLine_write (hok l List.mem_cons_self) lineNo (d := d) fun name value hitem
          hnone => (opened_cons (hopen hnone)).1 name value hitem
      have hrest := ih (fun l' hl' => hok l' (List.mem_cons_of_mem _ hl')) (lineNo + 1)
        (d := d.apply l.item) ?_
      · simp only [List.map_cons, List.zipIdx_cons, List.foldlM_cons, hline, List.foldl_cons]
        exact hrest
      · intro hnone
        cases hitem : l.item with
        | blank =>
            rw [hitem] at hnone
            refine (opened_cons (hopen hnone)).2 fun sec => ?_
            rw [hitem]
            exact Item.noConfusion
        | header name =>
            rw [hitem] at hnone
            exact absurd hnone (by simp [Decoder.apply, Decoder.openSection])
        | field name value =>
            cases hcurrent : d.current with
            | none => exact absurd hitem ((opened_cons (hopen hcurrent)).1 name value)
            | some sec =>
                rw [hitem, Decoder.apply, hcurrent] at hnone
                exact absurd (hcurrent.symm.trans hnone) (by simp)

theorem newline_not_mem_escapeSign {sign : UInt8} {s : Bytes} (hs : 10 ∉ s) :
    10 ∉ escapeSign sign s := by
  intro hmem
  obtain ⟨c, hc, hmem⟩ := List.mem_flatMap.mp hmem
  have hne : ¬(10 : UInt8) = c := by
    rintro rfl
    exact hs hc
  have hesc : ¬(10 : UInt8) = esc := by decide
  split at hmem
  · simp [hne, hesc] at hmem
  · simp [hne] at hmem

theorem newline_not_mem_write {l : Line} (h : l.Ok) : 10 ∉ l.write := by
  have hblank : ∀ b ∈ l.indent ++ l.before ++ l.after ++ l.trail, ¬10 = b :=
    fun b hb h10 => (h.blanks b hb).2 h10.symm
  simp only [List.mem_append] at hblank
  have hplain : 10 ∉ l.plain := by
    have hitem := h.item
    unfold Line.plain
    cases hl : l.item with
    | blank =>
        simp only [List.mem_append]
        rintro (hmem | hmem)
        · exact hblank _ (by tauto) rfl
        · exact hblank _ (by tauto) rfl
    | header name =>
        rw [hl] at hitem
        simp only [List.mem_append, List.mem_cons]
        rintro ((hmem | hmem | hmem) | hmem | hmem)
        · exact hblank _ (by tauto) rfl
        · exact absurd hmem (by decide)
        · exact hitem.2.2 hmem
        · exact absurd hmem (by decide)
        · exact hblank _ (by tauto) rfl
    | field name value =>
        rw [hl] at hitem
        simp only [List.mem_append, List.mem_cons]
        rintro (((hmem | hmem) | hmem) | hmem | ((hmem | hmem) | hmem))
        · exact hblank _ (by tauto) rfl
        · exact hitem.1.2.2.2 hmem
        · exact hblank _ (by tauto) rfl
        · exact absurd hmem (by decide)
        · exact hblank _ (by tauto) rfl
        · exact hitem.2.2 hmem
        · exact hblank _ (by tauto) rfl
  intro hmem
  rcases List.mem_append.mp hmem with hmem | hmem
  · exact newline_not_mem_escapeSign (newline_not_mem_escapeSign hplain) hmem
  · exact h.comment.1 hmem

/-- **A file of lines is decoded item by item.** -/
theorem decode_writeLines {lines : List Line} (hok : ∀ l ∈ lines, l.Ok)
    (hopen : Opened (lines.map Line.item)) :
    decode (writeLines lines) =
      .ok ((lines.map Line.item).foldl Decoder.apply Decoder.start).file := by
  unfold decode writeLines
  cases hlines : lines with
  | nil => rfl
  | cons l rest =>
      rw [← hlines, List.splitOn_intercalate 10 ?_ (by simp [hlines])]
      · rw [decodeLines_write hok 1 fun _ => hopen]
        rfl
      · intro raw hraw
        obtain ⟨l', hl', rfl⟩ := List.mem_map.mp hraw
        exact newline_not_mem_write (hok l' hl')

/-! ## The values of a file -/

/-- The value of a field in a decoded file. -/
def fieldValue (file : IniFile) (sec name : Bytes) : Option Bytes :=
  (file.lookup sec).bind fun s => s.lookup name

theorem fieldValue_openSection (d : Decoder) (sec' sec name : Bytes) :
    fieldValue (d.openSection sec').file sec name = fieldValue d.file sec name := by
  simp only [fieldValue, Decoder.openSection, Store.lookup_insert_eq]
  by_cases hsec : sec = sec'
  · subst hsec
    cases d.file.lookup sec with
    | none => simp
    | some s => simp
  · simp [hsec]

theorem fieldValue_assign (d : Decoder) (sec' name' value sec name : Bytes) :
    fieldValue (d.assign sec' name' value).file sec name =
      if (sec', name') = (sec, name) then some value else fieldValue d.file sec name := by
  simp only [fieldValue, Decoder.assign, Store.lookup_insert_eq, Prod.mk.injEq]
  by_cases hsec : sec = sec'
  · subst hsec
    by_cases hname : name = name'
    · subst hname
      simp
    · have hname' : ¬name' = name := fun h => hname h.symm
      simp only [if_true, Option.bind_some, Store.lookup_insert_eq, if_neg hname, true_and,
        if_neg hname']
      cases d.file.lookup sec with
      | none => simp
      | some s => rfl
  · have hsec' : ¬sec' = sec := fun h => hsec h.symm
    simp [hsec, hsec']

/-- After more lines a field has the last value they give it, or else the one it
had. -/
theorem fieldValue_foldl (items : List Item) (d : Decoder) (sec name : Bytes) :
    fieldValue (items.foldl Decoder.apply d).file sec name =
      (((assignments d.current items).filter fun a => a.1 = (sec, name)).getLast?.map
        Prod.snd).or (fieldValue d.file sec name) := by
  induction items generalizing d with
  | nil => rfl
  | cons item items ih =>
      rw [List.foldl_cons, ih]
      cases item with
      | blank => rfl
      | header sec' =>
          simp only [Decoder.apply, fieldValue_openSection, assignments]
          rfl
      | field name' value =>
          cases hcurrent : d.current with
          | none => simp only [Decoder.apply, hcurrent, assignments]
          | some sec' =>
              have hsame : (d.assign sec' name' value).current = some sec' := hcurrent
              simp only [Decoder.apply, hcurrent, assignments, hsame, fieldValue_assign,
                List.filter_cons]
              by_cases hkey : (sec', name') = (sec, name)
              · simp only [hkey, if_true, decide_true, List.getLast?_cons, Option.map_some,
                  Option.some_or]
                cases ((assignments (some sec') items).filter
                  fun a => decide (a.1 = (sec, name))).getLast? with
                | none => simp
                | some a => simp
              · simp only [hkey, if_false, decide_false, Bool.false_eq_true]

/-- `parse` reads fields only. -/
theorem parse_congr {ini ini' : IniFile} (h : ∀ sec key, field ini sec key = field ini' sec key) :
    parse ini = parse ini' := by
  simp only [parse, parseMain, parseIpfix, parseSyslog, parseUint, parseBool, parseList, h]

/-- **A configuration file means its assignments.**  Every file of lines as
users write them, with any indentation, blanks around the separators, comments
and escaped comment signs, is decoded without an error if no field stands
before the first section; each field has the value that the file gives it last,
whatever section its assignments are spread over, and is absent if there is
none; and two files that give the same values load as the same configuration,
or fail with the same error. -/
theorem config_file_means_assignments (lines : List Line) (hok : ∀ l ∈ lines, l.Ok)
    (hopen : Opened (lines.map Line.item)) :
    ∃ ini, decode (writeLines lines) = .ok ini ∧
      (∀ sec name, fieldValue ini sec name = valueOf (lines.map Line.item) sec name) ∧
      ∀ lines' : List Line, (∀ l ∈ lines', l.Ok) → Opened (lines'.map Line.item) →
        (∀ sec name, valueOf (lines'.map Line.item) sec name =
          valueOf (lines.map Line.item) sec name) →
        loadConfigString (writeLines lines') = loadConfigString (writeLines lines) := by
  have hvalue : ∀ (items : List Item) (sec name : Bytes),
      fieldValue (items.foldl Decoder.apply Decoder.start).file sec name =
        valueOf items sec name := by
    intro items sec name
    rw [fieldValue_foldl]
    exact Option.or_none
  refine ⟨_, decode_writeLines hok hopen, fun sec name => hvalue _ sec name, ?_⟩
  intro lines' hok' hopen' hsame
  have hparse : parse ((lines'.map Line.item).foldl Decoder.apply Decoder.start).file =
      parse ((lines.map Line.item).foldl Decoder.apply Decoder.start).file := by
    refine parse_congr fun sec key => ?_
    have hfield := hsame (text sec) (text key)
    rw [← hvalue, ← hvalue] at hfield
    exact congrArg (fun v => v.getD []) hfield
  rw [loadConfigString, loadConfigString, decode_writeLines hok hopen,
    decode_writeLines hok' hopen']
  show (match parse _ with | .ok cfg => (cfg, []) | .error e => ({}, e)) =
    match parse _ with | .ok cfg => (cfg, []) | .error e => ({}, e)
  rw [hparse]

instance (item : Item) : Decidable item.Ok := by
  unfold Item.Ok Tight
  cases item <;> infer_instance

instance (l : Line) : Decidable l.Ok :=
  letI : Decidable (∀ b ∈ l.indent ++ l.before ++ l.after ++ l.trail,
      isSpace b = true ∧ b ≠ 10) := List.decidableBAll _ _
  letI : Decidable (∀ c ∈ l.comment.head?,
      c ∈ commentPrefixes ∧ l.plain.getLast? ≠ some esc) := Option.decidableForallMem _
  decidable_of_iff (l.item.Ok ∧
      (∀ b ∈ l.indent ++ l.before ++ l.after ++ l.trail, isSpace b = true ∧ b ≠ 10) ∧
      10 ∉ l.comment ∧ ∀ c ∈ l.comment.head?,
        c ∈ commentPrefixes ∧ l.plain.getLast? ≠ some esc)
    ⟨fun h => ⟨h.1, h.2.1, h.2.2⟩, fun h => ⟨h.item, h.blanks, h.comment⟩⟩

/-- A section in two parts, with a comment sign in a value and a field that is
set again. -/
def demoLines : List Line :=
  [{ item := .header (text "main"), trail := [32], comment := text "# options" },
   { item := .field (text "device") (text "br-*;1"), indent := [9], before := [32]
     after := [32, 32], comment := text ";all # of them" },
   { item := .field (text "max_flows") (text "1") },
   { item := .blank, indent := [32] },
   { item := .header (text "ipfix") },
   { item := .field (text "enabled") (text "no"), after := [32] },
   { item := .header (text "main") },
   { item := .field (text "max_flows") (text "2"), comment := text "#1" }]

example : writeLines (demoLines.take 2) =
    text "[main] # options\n\tdevice =  br-*\\;1;all # of them" := by
  decide +kernel

theorem config_file_means_assignments_demo :
    ∃ ini, decode (writeLines demoLines) = .ok ini ∧
      fieldValue ini (text "main") (text "max_flows") = some (text "2") ∧
      fieldValue ini (text "main") (text "device") = some (text "br-*;1") := by
  have hopen : Opened (demoLines.map Line.item) := by
    intro name value before after hsplit
    cases before with
    | nil => exact absurd (List.cons.inj hsplit).1 Item.noConfusion
    | cons first before =>
        rw [← (List.cons.inj hsplit).1]
        exact ⟨text "main", List.mem_cons_self⟩
  obtain ⟨ini, hdecode, hvalue, -⟩ :=
    config_file_means_assignments demoLines (by decide +kernel) hopen
  refine ⟨ini, hdecode, ?_, ?_⟩
  · rw [hvalue]
    decide +kernel
  · rw [hvalue]
    decide +kernel

end Ini
end Config
end Obserwrt
