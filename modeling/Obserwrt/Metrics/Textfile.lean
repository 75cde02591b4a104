import Obserwrt.Lib.Files
import Obserwrt.Lib.Run
import Obserwrt.Metrics.Decode

/-!
# The textfile is replaced atomically

The members and setters of `class Metrics`, and what `Metrics::write` does with
the text it built: it fills a temporary file with as many `write` calls as the
kernel needs and renames it over the textfile.  Here `write` is a machine with
one step for each system call, each of which may fail, and the process may die
between any two of them.  What a reader of the textfile sees in between is
read off the file system.
-/

namespace Obserwrt

open Lib

/-! ## The class -/

/-- `class Metrics`. -/
structure Metrics where
  active : Bool
  file : Bytes
  intervalS : UInt32
  state : Metrics.State

namespace Metrics

/-- `init`, on a new object. -/
def init (textfile : Bytes) (interval : UInt32) : Metrics where
  active := decide (textfile ≠ [])
  file := textfile
  intervalS := interval
  state := State.initial

/-- An update of the members that `write` reads, which an object without a
textfile leaves out. -/
def gated (m : Metrics) (f : State → State) : Metrics :=
  if m.active then { m with state := f m.state } else m

/-- `observe`. -/
def observe (m : Metrics) : Metrics :=
  m.gated fun s => { s with totalFlows := s.totalFlows + 1 }

/-- `record_errors`, with an `unsigned long` of `w` bits. -/
def recordErrors {w : Nat} (m : Metrics) (n : BitVec w) : Metrics :=
  m.gated fun s => { s with totalErrors := s.totalErrors + UInt64.ofNat n.toNat }

/-- `set_state`. -/
def setState (m : Metrics) (flowsActive mapEntries : UInt32) (devices : List Bytes) : Metrics :=
  m.gated fun s => { s with
    flowsActive := flowsActive, mapEntries := mapEntries, devices := devices }

/-- `set_bpf`. -/
def setBpf (m : Metrics) (packets bytes accounted flowsCreated : UInt64) : Metrics :=
  m.gated fun s => { s with
    bpfPackets := packets, bpfBytes := bytes, bpfAccounted := accounted
    bpfFlowsCreated := flowsCreated }

/-- `set_drops`. -/
def setDrops (m : Metrics) (drops unparsed : UInt64) : Metrics :=
  m.gated fun s => { s with bpfDrops := drops, bpfDropsUnparsed := unparsed }

/-- `set_devices`. -/
def setDevices (m : Metrics) (devices : List DeviceCounters) : Metrics :=
  m.gated fun s => { s with devCounters := devices }

/-- `set_map_limit`. -/
def setMapLimit (m : Metrics) (limit : UInt32) : Metrics :=
  m.gated fun s => { s with mapLimit := limit }

/-! ## The system calls of `write` -/

/-- The temporary file beside the textfile. -/
def tmpFile (file : Bytes) : Bytes := file ++ text ".tmp"

/-- Where `write` stands: before it or after it, in its loop with `off` bytes
of `out` written to the inode, behind the loop, behind `close` of a file that
is complete, or in front of the `unlink` of one that is of no use. -/
inductive Phase
  | idle
  | writing (inode : Nat) (out : Bytes) (off : Nat)
  | closing (inode : Nat) (out : Bytes) (ok : Bool)
  | replacing (inode : Nat) (out : Bytes)
  | unlinking
  deriving DecidableEq

/-- What happens next: `write` is called on a state with the text `out`, and
opens its temporary file or not; one of its system calls returns (`reply` is
what `write(2)` returns, `none` on an error); or the process dies. -/
inductive Action
  | call (out : Bytes) (openOk : Bool)
  | write (reply : Option Nat)
  | close
  | rename (ok : Bool)
  | unlink (ok : Bool)
  | die
  deriving DecidableEq

/-- The file system and the phase of the daemon. -/
structure Writer where
  fs : Files
  phase : Phase

/-- The loop condition `off < out.size()`. -/
def loopPhase (inode : Nat) (out : Bytes) (off : Nat) : Phase :=
  if off < out.length then .writing inode out off else .closing inode out true

/-- One step of `write` for the textfile `file`.  A step that does not belong
to the phase is none. -/
def Writer.step (file : Bytes) (w : Writer) : Action → Writer
  | .call out openOk =>
      match w.phase with
      | .idle =>
          if openOk then
            let (inode, fs) := w.fs.openTrunc (tmpFile file)
            ⟨fs, loopPhase inode out 0⟩
          else w
      | _ => w
  | .write reply =>
      match w.phase with
      | .writing inode out off =>
          match reply with
          | none => { w with phase := .closing inode out false }
          | some n =>
              ⟨w.fs.writeAt inode off ((out.drop off).take n), loopPhase inode out (off + n)⟩
      | _ => w
  | .close =>
      match w.phase with
      | .closing inode out true => { w with phase := .replacing inode out }
      | .closing _ _ false => { w with phase := .unlinking }
      | _ => w
  | .rename ok =>
      match w.phase with
      | .replacing _ _ =>
          if ok then ⟨w.fs.rename (tmpFile file) file, .idle⟩ else { w with phase := .unlinking }
      | _ => w
  | .unlink ok =>
      match w.phase with
      | .unlinking => ⟨if ok then w.fs.unlink (tmpFile file) else w.fs, .idle⟩
      | _ => w
  -- a new process starts outside `write`, on the files as they are
  | .die => { w with phase := .idle }

/-- The actions that can happen: the call that the phase is about, which
accepts no more bytes than it was given, or the end of the process. -/
def Writer.fits (w : Writer) : Action → Bool
  | .call _ _ => w.phase = .idle
  | .write reply =>
      match w.phase with
      | .writing _ out off => reply.all fun n => off + n ≤ out.length
      | _ => false
  | .close =>
      match w.phase with
      | .closing _ _ _ => true
      | _ => false
  | .rename _ =>
      match w.phase with
      | .replacing _ _ => true
      | _ => false
  | .unlink _ => w.phase = .unlinking
  | .die => true

/-- The text being written and the text last renamed into place, as a history
tells them. -/
def publishStep (texts : Option Bytes × Option Bytes) : Action → Option Bytes × Option Bytes
  | .call out _ => (some out, texts.2)
  | .rename true => (texts.1, texts.1)
  | _ => texts

/-- The text of the last call of a history whose rename succeeded. -/
def published (history : List Action) : Option Bytes :=
  (history.foldl publishStep (none, none)).2

/-- The text of the last call of a history. -/
def current (history : List Action) : Option Bytes :=
  (history.foldl publishStep (none, none)).1

/-- No process died and every `unlink` succeeded. -/
def Tidy (history : List Action) : Prop :=
  ∀ a ∈ history, a ≠ .die ∧ a ≠ .unlink false

/-! ## The invariant -/

theorem tmpFile_ne (file : Bytes) : tmpFile file ≠ file := by
  intro h
  have hlength := congrArg List.length h
  rw [tmpFile, List.length_append] at hlength
  have hdot : (text ".tmp").length = 4 := rfl
  omega

/-- The inode the daemon is writing to is the temporary file's. -/
def Holds (file : Bytes) (w : Writer) : Prop :=
  match w.phase with
  | .idle => True
  | .writing inode out off =>
      w.fs.entry (tmpFile file) = some inode ∧ w.fs.content inode = out.take off ∧
        off < out.length
  | .closing inode out ok =>
      w.fs.entry (tmpFile file) = some inode ∧ (ok = true → w.fs.content inode = out)
  | .replacing inode out => w.fs.entry (tmpFile file) = some inode ∧ w.fs.content inode = out
  | .unlinking => True

/-- The text of the phase is that of the last call. -/
def Current (history : List Action) (w : Writer) : Prop :=
  match w.phase with
  | .idle => True
  | .writing _ out _ => current history = some out
  | .closing _ out _ => current history = some out
  | .replacing _ out => current history = some out
  | .unlinking => True

/-- What holds after every step. -/
structure WriterInv (file : Bytes) (start : Files) (history : List Action) (w : Writer) :
    Prop where
  wellFormed : w.fs.WellFormed
  apart : ∀ i, w.fs.entry (tmpFile file) = some i → w.fs.entry file ≠ some i
  holds : Holds file w
  text : Current history w
  shown : w.fs.read file = (published history).or (start.read file)
  swept : Tidy history → start.entry (tmpFile file) = none → w.phase = .idle →
    w.fs.entry (tmpFile file) = none

section Step

variable {file : Bytes} {start : Files} {history : List Action} {w : Writer}

theorem published_concat (history : List Action) (a : Action) :
    published (history ++ [a]) =
      if a = .rename true then current history else published history := by
  unfold published current
  rw [List.foldl_append]
  cases a with
  | rename ok => cases ok <;> simp [publishStep]
  | call out openOk => simp [publishStep]
  | write reply => simp [publishStep]
  | close => simp [publishStep]
  | unlink ok => simp [publishStep]
  | die => simp [publishStep]

theorem current_concat_call (history : List Action) (out : Bytes) (openOk : Bool) :
    current (history ++ [.call out openOk]) = some out := by
  simp [current, publishStep]

theorem current_concat (history : List Action) {a : Action} (ha : ∀ out ok, a ≠ .call out ok) :
    current (history ++ [a]) = current history := by
  unfold current
  rw [List.foldl_append]
  cases a with
  | rename ok => cases ok <;> rfl
  | call out openOk => exact absurd rfl (ha out openOk)
  | write reply => rfl
  | close => rfl
  | unlink ok => rfl
  | die => rfl

theorem tidy_concat {a : Action} (h : Tidy (history ++ [a])) :
    Tidy history ∧ a ≠ .die ∧ a ≠ .unlink false :=
  ⟨fun b hb => h b (List.mem_append_left _ hb), h a (by simp)⟩

/-- The phase the loop is in holds the bytes written so far. -/
theorem holds_loopPhase {fs : Files} {inode off : Nat} {out : Bytes}
    (hentry : fs.entry (tmpFile file) = some inode) (hcontent : fs.content inode = out.take off) :
    Holds file ⟨fs, loopPhase inode out off⟩ := by
  by_cases hoff : off < out.length
  · simp only [Holds, loopPhase, if_pos hoff]
    exact ⟨hentry, hcontent, hoff⟩
  · simp only [Holds, loopPhase, if_neg hoff]
    refine ⟨hentry, fun _ => ?_⟩
    rw [hcontent, List.take_of_length_le (by omega)]

theorem loopPhase_ne_idle (inode : Nat) (out : Bytes) (off : Nat) :
    loopPhase inode out off ≠ .idle := by
  unfold loopPhase
  split <;> simp

theorem current_loopPhase {fs : Files} {inode off : Nat} {out : Bytes}
    (h : current history = some out) : Current history ⟨fs, loopPhase inode out off⟩ := by
  unfold loopPhase
  split <;> exact h

/-- What the textfile shows depends on its entry and the content behind it. -/
theorem read_congr {fs fs' : Files} (hentry : fs'.entry file = fs.entry file)
    (hcontent : ∀ i, fs.entry file = some i → fs'.content i = fs.content i) :
    fs'.read file = fs.read file := by
  unfold Files.read
  rw [hentry]
  cases hi : fs.entry file with
  | none => rfl
  | some i => simp [hcontent i hi]

/-- A call that opens its temporary file. -/
theorem writerInv_open (h : WriterInv file start history w) (hidle : w.phase = .idle)
    (out : Bytes) : WriterInv file start (history ++ [.call out true])
      (w.step file (.call out true)) := by
  obtain ⟨hentry, hothers, hempty, hcontent, hwhich, -⟩ := w.fs.openTrunc_spec (tmpFile file)
  have hfile := hothers file (tmpFile_ne file).symm
  -- the inode is not the textfile's: it was the temporary file's, or it is new
  have hnot : w.fs.entry file ≠ some (w.fs.openTrunc (tmpFile file)).1 := by
    rcases hwhich with hold | ⟨-, hnew⟩
    · exact h.apart _ hold
    · intro heq
      have hlt := h.wellFormed file _ heq
      omega
  simp only [Writer.step, hidle, if_true]
  refine ⟨h.wellFormed.openTrunc _, ?_, holds_loopPhase hentry hempty,
    current_loopPhase (current_concat_call history out true), ?_, ?_⟩
  · intro i hi
    rw [hentry] at hi
    cases hi
    rw [hfile]
    exact hnot
  · rw [published_concat, if_neg (by simp), ← h.shown]
    refine read_congr hfile fun i hi => hcontent i ?_
    rintro rfl
    exact hnot hi
  · intro _ _ hphase
    exact absurd hphase (loopPhase_ne_idle _ _ _)

/-- A step that changes nothing but the phase, behind the call. -/
theorem writerInv_phase (h : WriterInv file start history w) {a : Action} {phase : Phase}
    (hcall : ∀ out ok, a ≠ .call out ok) (hrename : a ≠ .rename true)
    (hholds : Holds file ⟨w.fs, phase⟩) (htext : Current history ⟨w.fs, phase⟩)
    (hphase : phase ≠ .idle ∨ a = .die) :
    WriterInv file start (history ++ [a]) ⟨w.fs, phase⟩ where
  wellFormed := h.wellFormed
  apart := h.apart
  holds := hholds
  text := by
    unfold Current at htext ⊢
    rw [current_concat history hcall]
    exact htext
  shown := by
    rw [published_concat, if_neg hrename]
    exact h.shown
  swept := by
    intro htidy _ hidle
    rcases hphase with hne | hdie
    · exact absurd hidle hne
    · exact absurd hdie (tidy_concat htidy).2.1

theorem writerInv_write (h : WriterInv file start history w) {inode off n : Nat} {out : Bytes}
    (hphase : w.phase = .writing inode out off) :
    WriterInv file start (history ++ [.write (some n)]) (w.step file (.write (some n))) := by
  have hholds := h.holds
  simp only [Holds, hphase] at hholds
  obtain ⟨hentry, hcontent, hoff⟩ := hholds
  have hlength : (w.fs.content inode).length = off := by
    rw [hcontent, List.length_take]
    omega
  have hwritten : (w.fs.writeAt inode off ((out.drop off).take n)).content inode =
      out.take (off + n) := by
    rw [Files.writeAt_content_end hlength, hcontent, List.take_add]
  have hne : ∀ i, w.fs.entry file = some i → i ≠ inode := by
    rintro i hi rfl
    exact h.apart i hentry hi
  simp only [Writer.step, hphase]
  refine ⟨h.wellFormed, h.apart, holds_loopPhase hentry hwritten, ?_, ?_, ?_⟩
  · refine current_loopPhase ?_
    have htext := h.text
    simp only [Current, hphase] at htext
    rw [current_concat history (by simp)]
    exact htext
  · rw [published_concat, if_neg (by simp), ← h.shown]
    exact read_congr rfl fun i hi => Files.writeAt_content_ne (hne i hi) _ _
  · intro _ _ hidle
    exact absurd hidle (loopPhase_ne_idle _ _ _)

/-- The rename makes the text of the last call what the textfile shows. -/
theorem writerInv_rename (h : WriterInv file start history w) {inode : Nat} {out : Bytes}
    (hphase : w.phase = .replacing inode out) :
    WriterInv file start (history ++ [.rename true]) (w.step file (.rename true)) := by
  have hholds := h.holds
  simp only [Holds, hphase] at hholds
  obtain ⟨hentry, hcontent⟩ := hholds
  have htext := h.text
  simp only [Current, hphase] at htext
  have hne := (tmpFile_ne file).symm
  simp only [Writer.step, hphase, if_true]
  refine ⟨h.wellFormed.rename hne, ?_, trivial, trivial, ?_, ?_⟩
  · intro i hi
    rw [Files.rename_entry_src] at hi
    cases hi
  · rw [published_concat, if_pos rfl, htext, Files.read, Files.rename_entry_dst hne, hentry]
    show some (w.fs.content inode) = _
    rw [hcontent]
    rfl
  · intro _ _ _
    exact Files.rename_entry_src _ _

theorem writerInv_unlink (h : WriterInv file start history w) (hphase : w.phase = .unlinking)
    (ok : Bool) :
    WriterInv file start (history ++ [.unlink ok]) (w.step file (.unlink ok)) := by
  have hne := (tmpFile_ne file).symm
  simp only [Writer.step, hphase]
  cases ok with
  | false =>
      rw [if_neg Bool.false_ne_true]
      refine ⟨h.wellFormed, h.apart, trivial, trivial, ?_, ?_⟩
      · rw [published_concat, if_neg (by simp)]
        exact h.shown
      · intro htidy
        exact absurd rfl (tidy_concat htidy).2.2
  | true =>
      rw [if_pos rfl]
      refine ⟨h.wellFormed.unlink _, ?_, trivial, trivial, ?_, ?_⟩
      · intro i hi
        rw [Files.unlink_entry_self] at hi
        cases hi
      · rw [published_concat, if_neg (by simp), ← h.shown]
        exact read_congr (Files.unlink_entry_ne hne) fun _ _ => rfl
      · intro _ _ _
        exact Files.unlink_entry_self _

/-- Every action keeps the invariant. -/
theorem writerInv_step (history : List Action) (w : Writer) (a : Action)
    (h : WriterInv file start history w) (hfits : w.fits a = true) :
    WriterInv file start (history ++ [a]) (w.step file a) := by
  have hholds := h.holds
  have htext := h.text
  cases a with
  | call out openOk =>
      have hidle : w.phase = .idle := of_decide_eq_true hfits
      cases openOk with
      | true => exact writerInv_open h hidle out
      | false =>
          simp only [Writer.step, hidle, Bool.false_eq_true, if_false]
          refine ⟨h.wellFormed, h.apart, hholds, ?_, ?_, ?_⟩
          · simp only [Current, hidle]
          · rw [published_concat, if_neg (by simp)]
            exact h.shown
          · exact fun htidy => h.swept (tidy_concat htidy).1
  | write reply =>
      cases hphase : w.phase with
      | writing inode out off =>
          cases reply with
          | some n => exact writerInv_write h hphase
          | none =>
              simp only [Holds, Current, hphase] at hholds htext
              simp only [Writer.step, hphase]
              exact writerInv_phase h (by simp) (by simp) ⟨hholds.1, by simp⟩ htext
                (Or.inl (by simp))
      | idle => simp [Writer.fits, hphase] at hfits
      | closing inode out ok => simp [Writer.fits, hphase] at hfits
      | replacing inode out => simp [Writer.fits, hphase] at hfits
      | unlinking => simp [Writer.fits, hphase] at hfits
  | close =>
      cases hphase : w.phase with
      | closing inode out ok =>
          simp only [Holds, Current, hphase] at hholds htext
          cases ok with
          | true =>
              simp only [Writer.step, hphase]
              exact writerInv_phase h (by simp) (by simp) ⟨hholds.1, hholds.2 rfl⟩ htext
                (Or.inl (by simp))
          | false =>
              simp only [Writer.step, hphase]
              exact writerInv_phase h (by simp) (by simp) trivial trivial (Or.inl (by simp))
      | idle => simp [Writer.fits, hphase] at hfits
      | writing inode out off => simp [Writer.fits, hphase] at hfits
      | replacing inode out => simp [Writer.fits, hphase] at hfits
      | unlinking => simp [Writer.fits, hphase] at hfits
  | rename ok =>
      cases hphase : w.phase with
      | replacing inode out =>
          cases ok with
          | true => exact writerInv_rename h hphase
          | false =>
              simp only [Writer.step, hphase, Bool.false_eq_true, if_false]
              exact writerInv_phase h (by simp) (by simp) trivial trivial (Or.inl (by simp))
      | idle => simp [Writer.fits, hphase] at hfits
      | writing inode out off => simp [Writer.fits, hphase] at hfits
      | closing inode out ok => simp [Writer.fits, hphase] at hfits
      | unlinking => simp [Writer.fits, hphase] at hfits
  | unlink ok => exact writerInv_unlink h (of_decide_eq_true hfits) ok
  | die =>
      exact writerInv_phase h (by simp) (by simp) trivial trivial (Or.inr rfl)

end Step

/-! ## Readers -/

/-- An inode that the daemon does not write to any more. -/
def Settled (file : Bytes) (i : Nat) (w : Writer) : Prop :=
  i < w.fs.next ∧ w.fs.entry (tmpFile file) ≠ some i

theorem settled_step {file : Bytes} {i : Nat} {w : Writer} (hholds : Holds file w)
    (h : Settled file i w) (a : Action) :
    Settled file i (w.step file a) ∧ (w.step file a).fs.content i = w.fs.content i := by
  obtain ⟨hlt, hne⟩ := h
  have hsame : Settled file i w ∧ w.fs.content i = w.fs.content i := ⟨⟨hlt, hne⟩, rfl⟩
  cases a with
  | call out openOk =>
      simp only [Writer.step]
      cases hphase : w.phase with
      | idle =>
          cases openOk with
          | false => exact hsame
          | true =>
              obtain ⟨hentry, -, -, hcontent, hwhich, hnext⟩ := w.fs.openTrunc_spec (tmpFile file)
              have hother : i ≠ (w.fs.openTrunc (tmpFile file)).1 := by
                rintro rfl
                rcases hwhich with hold | ⟨-, hnew⟩
                · exact hne hold
                · omega
              refine ⟨⟨lt_of_lt_of_le hlt hnext, ?_⟩, hcontent i hother⟩
              intro heq
              exact hother (Option.some.inj (heq.symm.trans hentry))
      | writing inode out off => exact hsame
      | closing inode out ok => exact hsame
      | replacing inode out => exact hsame
      | unlinking => exact hsame
  | write reply =>
      simp only [Writer.step]
      cases hphase : w.phase with
      | writing inode out off =>
          cases reply with
          | none => exact hsame
          | some n =>
              simp only [Holds, hphase] at hholds
              have hother : i ≠ inode := by
                rintro rfl
                exact hne hholds.1
              exact ⟨⟨hlt, hne⟩, Files.writeAt_content_ne hother _ _⟩
      | idle => exact hsame
      | closing inode out ok => exact hsame
      | replacing inode out => exact hsame
      | unlinking => exact hsame
  | close =>
      simp only [Writer.step]
      split <;> exact hsame
  | rename ok =>
      simp only [Writer.step]
      split
      · cases ok with
        | false => exact hsame
        | true =>
            refine ⟨⟨hlt, ?_⟩, rfl⟩
            show (w.fs.rename (tmpFile file) file).entry (tmpFile file) ≠ some i
            rw [Files.rename_entry_src]
            simp
      · exact hsame
  | unlink ok =>
      simp only [Writer.step]
      split
      · cases ok with
        | false => exact hsame
        | true =>
            refine ⟨⟨hlt, ?_⟩, rfl⟩
            show (w.fs.unlink (tmpFile file)).entry (tmpFile file) ≠ some i
            rw [Files.unlink_entry_self]
            simp
      · exact hsame
  | die => exact hsame

/-! ## Whole runs -/

/-- The textfile and its temporary file are different files. -/
structure Apart (file : Bytes) (fs : Files) : Prop where
  wellFormed : fs.WellFormed
  inodes : ∀ i, fs.entry (tmpFile file) = some i → fs.entry file ≠ some i

theorem writerInv_start {file : Bytes} {start : Files} (h : Apart file start) :
    WriterInv file start [] ⟨start, .idle⟩ where
  wellFormed := h.wellFormed
  apart := h.inodes
  holds := trivial
  text := trivial
  shown := rfl
  swept := fun _ hnone _ => hnone

/-- What a reader of the inode `i` relies on, `later` after the state `w`. -/
structure ReaderInv (file : Bytes) (start : Files) (history : List Action) (w : Writer) (i : Nat)
    (later : List Action) (s : Writer) : Prop where
  inv : WriterInv file start (history ++ later) s
  settled : Settled file i s
  content : s.fs.content i = w.fs.content i

theorem readerInv_step {file : Bytes} {start : Files} {history later : List Action}
    {w s : Writer} {i : Nat} {a : Action} (h : ReaderInv file start history w i later s)
    (hfits : s.fits a = true) :
    ReaderInv file start history w i (later ++ [a]) (s.step file a) := by
  obtain ⟨hsettled, hcontent⟩ := settled_step h.inv.holds h.settled a
  refine ⟨?_, hsettled, hcontent.trans h.content⟩
  rw [← List.append_assoc]
  exact writerInv_step _ s a h.inv hfits

/-- **The textfile is replaced atomically.**  After every run of `write` calls,
whatever their system calls answer and wherever the process dies and is
started again, the textfile reads as the whole text of the last call whose
rename succeeded, and before the first of these as it did at the start.  Who
opened it at any moment finds the same content in it at every later moment.
Outside `write` no temporary file is left, unless the process died or an
`unlink` failed. -/
theorem textfile_atomic (file : Bytes) (start : Files) (hstart : Apart file start)
    (history later : List Action) (w w' : Writer)
    (hrun : Run (Writer.step file) (fun w a => w.fits a = true) ⟨start, .idle⟩ history w)
    (hlater : Run (Writer.step file) (fun w a => w.fits a = true) w later w') :
    w.fs.read file = (published history).or (start.read file) ∧
      (∀ i, w.fs.entry file = some i → w'.fs.content i = w.fs.content i) ∧
      (Tidy history → start.entry (tmpFile file) = none → w.phase = .idle →
        w.fs.entry (tmpFile file) = none) := by
  have hinv := hrun.invariant (writerInv_start hstart) writerInv_step
  refine ⟨hinv.shown, ?_, hinv.swept⟩
  intro i hi
  have hsettled : Settled file i w := by
    refine ⟨hinv.wellFormed file i hi, ?_⟩
    intro htmp
    exact hinv.apart i htmp hi
  have hkept : ReaderInv file start history w i later w' :=
    hlater.invariant ⟨by rw [List.append_nil]; exact hinv, hsettled, rfl⟩
      fun later s a => readerInv_step
  exact hkept.content

/-- A directory with an old textfile. -/
def demoFiles : Files where
  entry := Function.update (fun _ => none) [109] (some 0)
  content := fun _ => [1, 2]
  next := 1

/-- A call whose disk is full, and the next one, which takes two writes. -/
def demoActions : List Action :=
  [.call [7, 8, 9] true, .write (some 2), .write none, .close, .unlink true,
    .call [7, 8, 9, 10] true, .write (some 3), .write (some 1), .close, .rename true]

theorem textfile_atomic_demo :
    (demoActions.foldl (Writer.step [109]) ⟨demoFiles, .idle⟩).fs.read [109] =
      some [7, 8, 9, 10] := by
  have hapart : Apart [109] demoFiles := by
    refine ⟨?_, ?_⟩
    · intro path i hentry
      by_cases hpath : path = [109]
      · subst hpath
        simp only [demoFiles, Function.update_self, Option.some.injEq] at hentry
        subst hentry
        decide
      · simp [demoFiles, Function.update_of_ne hpath] at hentry
    · intro i hentry
      simp [demoFiles, Function.update_of_ne (tmpFile_ne [109])] at hentry
  have hrun : Run (Writer.step [109]) (fun w a => w.fits a = true) ⟨demoFiles, .idle⟩
      demoActions (demoActions.foldl (Writer.step [109]) ⟨demoFiles, .idle⟩) :=
    Run.of_check (by decide)
  exact (textfile_atomic [109] demoFiles hapart _ [] _ _ hrun Run.nil).1

end Metrics
end Obserwrt
