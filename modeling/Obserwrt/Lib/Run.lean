import Mathlib.Data.List.Induction

/-!
# Guarded runs of a deterministic step function

A run is a finite history of actions, each taken in a state that meets a
guard.  The guard is where a development states what it assumes of the
environment (`ok s a` reads "in state `s` the action `a` may happen"), so that
a theorem about every `Run` is a theorem about every interleaving that
respects the assumption.  Histories grow on the right: the state reached is
the state after the last action of the history.
-/

namespace Obserwrt
namespace Lib

universe u v

variable {σ : Type u} {α : Type v}

/-- The runs of `step` from `start` all of whose actions meet the guard `ok`,
with the history of actions and the state reached. -/
inductive Run (step : σ → α → σ) (ok : σ → α → Prop) (start : σ) : List α → σ → Prop
  | nil : Run step ok start [] start
  | snoc {history : List α} {s : σ} {a : α}
      (hrun : Run step ok start history s) (hok : ok s a) :
      Run step ok start (history ++ [a]) (step s a)

namespace Run

variable {step : σ → α → σ} {ok ok' : σ → α → Prop} {start s : σ} {history : List α}

/-- The invariant rule: what holds at the start and is kept by every guarded
action holds in every state reached, with the history it was reached by. -/
theorem invariant {Inv : List α → σ → Prop} (hstart : Inv [] start)
    (hstep : ∀ history s a, Inv history s → ok s a → Inv (history ++ [a]) (step s a))
    (hrun : Run step ok start history s) : Inv history s := by
  induction hrun with
  | nil => exact hstart
  | snoc _ hok ih => exact hstep _ _ _ ih hok

/-- A run under a guard is a run under every weaker one. -/
theorem mono (hrun : Run step ok start history s) (hweaker : ∀ s a, ok s a → ok' s a) :
    Run step ok' start history s := by
  induction hrun with
  | nil => exact Run.nil
  | snoc _ hok ih => exact ih.snoc (hweaker _ _ hok)

/-- The last action of a run. -/
theorem last_step {a : α} (hrun : Run step ok start (history ++ [a]) s) :
    ∃ s', Run step ok start history s' ∧ ok s' a ∧ s = step s' a := by
  generalize hlast : history ++ [a] = whole at hrun
  cases hrun with
  | nil => exact absurd hlast (by simp)
  | snoc hrun hok =>
      obtain ⟨rfl, rfl⟩ := List.append_singleton_inj.mp hlast
      exact ⟨_, hrun, hok, rfl⟩

/-- A run of a history in two parts. -/
theorem split {later : List α} (hrun : Run step ok start (history ++ later) s) :
    ∃ s', Run step ok start history s' ∧ Run step ok s' later s := by
  induction later using List.reverseRecOn generalizing s with
  | nil => exact ⟨s, by simpa using hrun, nil⟩
  | append_singleton later a ih =>
      rw [← List.append_assoc] at hrun
      obtain ⟨s₁, hbefore, hok, rfl⟩ := hrun.last_step
      obtain ⟨s', hfirst, hrest⟩ := ih hbefore
      exact ⟨s', hfirst, hrest.snoc hok⟩

/-- A run is the fold of its history. -/
theorem eq_foldl (hrun : Run step ok start history s) : s = history.foldl step start := by
  induction hrun with
  | nil => rfl
  | snoc _ _ ih => rw [List.foldl_append, ← ih, List.foldl_cons, List.foldl_nil]

/-- The first action of a run. -/
theorem first_step {a : α} (hrun : Run step ok start (a :: history) s) :
    ok start a ∧ Run step ok (step start a) history s := by
  have hparts : Run step ok start ([a] ++ history) s := hrun
  obtain ⟨s', hfirst, hrest⟩ := hparts.split
  have hone : Run step ok start ([] ++ [a]) s' := hfirst
  obtain ⟨s'', hnil, hok, rfl⟩ := hone.last_step
  obtain rfl : s'' = start := hnil.eq_foldl
  exact ⟨hok, hrest⟩

/-- Check the guard along a history, by running it. -/
def check (step : σ → α → σ) (ok : σ → α → Prop) [∀ s a, Decidable (ok s a)] :
    σ → List α → Bool
  | _, [] => true
  | s, a :: history => decide (ok s a) && check step ok (step s a) history

theorem append_of_check [∀ s a, Decidable (ok s a)] {later : List α}
    (hrun : Run step ok start history s) (hcheck : check step ok s later = true) :
    Run step ok start (history ++ later) (later.foldl step s) := by
  induction later generalizing history s with
  | nil => simpa using hrun
  | cons a later ih =>
      simp only [check, Bool.and_eq_true, decide_eq_true_eq] at hcheck
      have hnext := ih (hrun.snoc hcheck.1) hcheck.2
      simpa using hnext

/-- A checked history is a run. -/
theorem of_check [∀ s a, Decidable (ok s a)]
    (hcheck : check step ok start history = true) :
    Run step ok start history (history.foldl step start) :=
  append_of_check Run.nil hcheck

end Run

/-- The unguarded left fold satisfies the invariant rule too: the history is
the list folded over. -/
theorem foldl_invariant {step : σ → α → σ} {Inv : List α → σ → Prop} {start : σ}
    (hstart : Inv [] start)
    (hstep : ∀ history s a, Inv history s → Inv (history ++ [a]) (step s a))
    (actions : List α) : Inv actions (actions.foldl step start) := by
  induction actions using List.reverseRecOn with
  | nil => exact hstart
  | append_singleton actions a ih =>
      rw [List.foldl_append]
      exact hstep actions _ a ih

/-! ## What a run puts out -/

section Outputs

universe w

variable {β : Type w}

/-- The outputs along a history, step by step. -/
def outputs (step : σ → α → σ) (out : σ → α → List β) : σ → List α → List β
  | _, [] => []
  | s, a :: history => out s a ++ outputs step out (step s a) history

theorem outputs_concat (step : σ → α → σ) (out : σ → α → List β) (s : σ) (history : List α)
    (a : α) :
    outputs step out s (history ++ [a]) =
      outputs step out s history ++ out (history.foldl step s) a := by
  induction history generalizing s with
  | nil => simp [outputs]
  | cons first history ih =>
      rw [List.cons_append, outputs, ih, outputs, List.append_assoc, List.foldl_cons]

/-- Whatever comes out comes out of some step. -/
theorem mem_outputs {step : σ → α → σ} {out : σ → α → List β} {s : σ} {history : List α} {b : β}
    (hmem : b ∈ outputs step out s history) : ∃ s' a, b ∈ out s' a := by
  induction history generalizing s with
  | nil => exact absurd hmem (by simp [outputs])
  | cons a history ih =>
      rcases List.mem_append.mp hmem with hfirst | hrest
      · exact ⟨s, a, hfirst⟩
      · exact ih hrest

end Outputs

/-! ## Fallible runs with output -/

section Transduce

universe w

variable {β : Type w} {step : σ → α → Option (σ × List β)}

/-- Feed a list of inputs to a step that may fail and may put out values. -/
def transduce (step : σ → α → Option (σ × List β)) : σ → List α → Option (σ × List β)
  | s, [] => some (s, [])
  | s, a :: as => do
      let (s, out) ← step s a
      let (s, more) ← transduce step s as
      some (s, out ++ more)

theorem transduce_append {s s' s'' : σ} {as as' : List α} {out more : List β}
    (hfirst : transduce step s as = some (s', out))
    (hnext : transduce step s' as' = some (s'', more)) :
    transduce step s (as ++ as') = some (s'', out ++ more) := by
  induction as generalizing s out with
  | nil =>
      obtain ⟨rfl, rfl⟩ : s = s' ∧ [] = out := by simpa [transduce] using hfirst
      simpa using hnext
  | cons a as ih =>
      simp only [transduce, Option.bind_eq_bind, Option.bind_eq_some_iff, Option.some.injEq,
        Prod.mk.injEq] at hfirst
      obtain ⟨⟨s₁, out₁⟩, hstep, ⟨s₂, out₂⟩, hrest, rfl, rfl⟩ := hfirst
      simp [transduce, hstep, ih hrest]

theorem transduce_singleton {s s' : σ} {a : α} {out : List β} (hstep : step s a = some (s', out)) :
    transduce step s [a] = some (s', out) := by
  simp [transduce, hstep]

end Transduce

end Lib
end Obserwrt
