import Obserwrt.Lib.Bytes

/-!
# Quoted text

Text between double quotes, with escapes, read by a machine one byte at a time.
A writer gives every byte its own spelling; the machine undoes it when it is
back in its first state behind each spelling, with just that byte read, and has
met no closing quote on the way.  For a given writer and machine that is a
finite check over the byte values, and the round trip of whole strings follows.
-/

namespace Obserwrt
namespace Lib

/-- `"`. -/
def quoteByte : UInt8 := 34

/-- A reader of quoted text: from each state, what a byte means. -/
structure Unquote (σ : Type) where
  start : σ
  step : σ → UInt8 → Option (σ × Bytes)

namespace Unquote

variable {σ : Type} [DecidableEq σ] (u : Unquote σ)

/-- A quote in the first state ends the text. -/
def closes (s : σ) (b : UInt8) : Bool := decide (s = u.start ∧ b = quoteByte)

/-- Read up to the closing quote: the text and what follows it. -/
def read : σ → Bytes → Option (Bytes × Bytes)
  | _, [] => none
  | s, b :: bs =>
      if u.closes s b then some ([], bs)
      else
        (u.step s b).bind fun next =>
          (read next.1 bs).map fun more => (next.2 ++ more.1, more.2)

/-- Read a piece of text without a closing quote. -/
def feed : σ → Bytes → Option (σ × Bytes)
  | s, [] => some (s, [])
  | s, b :: bs =>
      if u.closes s b then none
      else
        (u.step s b).bind fun next =>
          (feed next.1 bs).map fun more => (more.1, next.2 ++ more.2)

theorem read_append {s s' : σ} {piece out : Bytes} (hfeed : u.feed s piece = some (s', out))
    (rest : Bytes) :
    u.read s (piece ++ rest) =
      (u.read s' rest).map fun more => (out ++ more.1, more.2) := by
  induction piece generalizing s out with
  | nil =>
      simp only [feed, Option.some.injEq, Prod.mk.injEq] at hfeed
      obtain ⟨rfl, rfl⟩ := hfeed
      simp
  | cons b bs ih =>
      simp only [feed] at hfeed
      split at hfeed
      · simp at hfeed
      · rename_i hopen
        obtain ⟨next, hstep, hrest⟩ := Option.bind_eq_some_iff.mp hfeed
        obtain ⟨more, hfeed', hout⟩ := Option.map_eq_some_iff.mp hrest
        simp only [Prod.mk.injEq] at hout
        obtain ⟨rfl, rfl⟩ := hout
        rw [List.cons_append, read, if_neg hopen, hstep, Option.bind_some, ih hfeed']
        simp [Option.map_map, Function.comp_def]

/-- The machine undoes the writer's spelling of every byte. -/
def Undoes (enc : UInt8 → Bytes) : Prop :=
  ∀ b, u.feed u.start (enc b) = some (u.start, [b])

/-- **Quoted text is read back.** -/
theorem read_quoted {enc : UInt8 → Bytes} (h : u.Undoes enc) (s rest : Bytes) :
    u.read u.start (s.flatMap enc ++ quoteByte :: rest) = some (s, rest) := by
  induction s with
  | nil => simp [read, closes]
  | cons b s ih =>
      rw [List.flatMap_cons, List.append_assoc, u.read_append (h b), ih]
      rfl

end Unquote

/-- What holds of the 256 byte values holds of every byte. -/
theorem forall_byte {p : UInt8 → Prop} (h : ∀ n : Fin 256, p (UInt8.ofNat n)) (b : UInt8) :
    p b := by
  have hb := h ⟨b.toNat, b.toNat_lt⟩
  rwa [UInt8.ofNat_toNat] at hb

end Lib
end Obserwrt
