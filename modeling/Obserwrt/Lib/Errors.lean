import Mathlib.Data.List.Basic

/-!
# Stopping at the first error and carrying on after it

The same reading of some input can be written twice: as a computation that
stops at the first error, and as one that notes the error in a state and carries
on.  `Tracks` says that the second follows the first: it returns a matching
result and leaves the state alone where the first succeeds, and it leaves a bad
state where the first fails.  `Keeps` says that a bad state stays bad.
-/

namespace Obserwrt
namespace Lib

variable {σ ε α β γ δ : Type}

/-- A bad state before the computation is a bad state after it. -/
def Keeps (bad : σ → Prop) (run : StateM σ β) : Prop :=
  ∀ s, bad s → bad (run s).2

/-- `run` carries on where `x` stops. -/
structure Tracks (bad : σ → Prop) (same : α → β → Prop) (x : Except ε α) (run : StateM σ β) :
    Prop where
  ok : ∀ a, x = .ok a → ∀ s, same a (run s).1 ∧ (run s).2 = s
  error : ∀ e, x = .error e → ∀ s, bad (run s).2

variable {bad : σ → Prop} {same : α → β → Prop} {also : γ → δ → Prop}
variable {x : Except ε α} {run : StateM σ β}

namespace Keeps

theorem pure (b : β) : Keeps bad (Pure.pure b : StateM σ β) :=
  fun _ hbad => hbad

theorem bind {next : β → StateM σ δ} (hrun : Keeps bad run) (hnext : ∀ b, Keeps bad (next b)) :
    Keeps bad (run >>= next) :=
  fun s hbad => hnext (run s).1 (run s).2 (hrun s hbad)

theorem map (f : β → δ) (hrun : Keeps bad run) : Keeps bad (f <$> run) :=
  hrun.bind fun b => Keeps.pure (f b)

theorem foldlM {τ : Type} {step : β → τ → StateM σ β} :
    ∀ {ts : List τ}, (∀ b, ∀ t ∈ ts, Keeps bad (step b t)) → ∀ b, Keeps bad (ts.foldlM step b)
  | [], _, b => Keeps.pure b
  | t :: _, hstep, b =>
      (hstep b t List.mem_cons_self).bind
        (foldlM fun b' t' ht' => hstep b' t' (List.mem_cons_of_mem t ht'))

/-- In a fold whose steps keep a bad state, one step that always leaves a bad
state is enough. -/
theorem foldlM_of_mem {τ : Type} {step : β → τ → StateM σ β} {t : τ} {ts : List τ}
    (hstep : ∀ b, ∀ t ∈ ts, Keeps bad (step b t)) (hmem : t ∈ ts)
    (hbad : ∀ b s, bad (step b t s).2) (b : β) (s : σ) : bad (ts.foldlM step b s).2 := by
  obtain ⟨pre, post, rfl⟩ := List.append_of_mem hmem
  have hpost : ∀ b', Keeps bad (post.foldlM step b') :=
    foldlM fun b' t' ht' => hstep b' t' (by simp [ht'])
  rw [List.foldlM_append]
  exact hpost _ _ (hbad _ _)

end Keeps

namespace Tracks

theorem keeps (h : Tracks bad same x run) : Keeps bad run := by
  intro s hbad
  cases hx : x with
  | ok a =>
      rw [(h.ok a hx s).2]
      exact hbad
  | error e => exact h.error e hx s

theorem pure {a : α} {b : β} (hab : same a b) :
    Tracks bad same (Pure.pure a : Except ε α) (Pure.pure b : StateM σ β) where
  ok := by
    intro a' ha s
    cases ha
    exact ⟨hab, rfl⟩
  error := by
    intro e he
    cases he

theorem fail {e : ε} (hbad : ∀ s, bad (run s).2) :
    Tracks bad same (Except.error e : Except ε α) run where
  ok := by
    intro a ha
    cases ha
  error := fun _ _ => hbad

/-- Sequencing.  Where the first part fails the right side still runs the
continuation, on a result that matches nothing; so the continuations follow each
other for all results, and only what they return may rest on the match. -/
theorem bind [Nonempty α] {f : α → Except ε γ} {g : β → StateM σ δ}
    (h : Tracks bad same x run)
    (hnext : ∀ a b, Tracks bad (fun c d => same a b → also c d) (f a) (g b)) :
    Tracks bad also (x >>= f) (run >>= g) := by
  cases x with
  | ok a =>
      refine ⟨?_, ?_⟩
      · intro c hc s
        obtain ⟨hsame, hstate⟩ := h.ok a rfl s
        obtain ⟨halso, hstate'⟩ := (hnext a (run s).1).ok c hc (run s).2
        exact ⟨halso hsame, hstate'.trans hstate⟩
      · intro e he s
        exact (hnext a (run s).1).error e he (run s).2
  | error e =>
      refine ⟨?_, ?_⟩
      · intro c hc
        cases hc
      · intro _ _ s
        -- no result of `x` is at hand, and any will do to keep the bad state
        obtain ⟨a⟩ := ‹Nonempty α›
        exact (hnext a (run s).1).keeps (run s).2 (h.error e rfl s)

theorem mono (h : Tracks bad same x run) {same' : α → β → Prop}
    (himp : ∀ a b, same a b → same' a b) : Tracks bad same' x run where
  ok := fun a ha s => ⟨himp a _ (h.ok a ha s).1, (h.ok a ha s).2⟩
  error := h.error

end Tracks

end Lib
end Obserwrt
