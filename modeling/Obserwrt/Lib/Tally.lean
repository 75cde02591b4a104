import Mathlib.Algebra.BigOperators.Group.List.Basic
import Mathlib.Algebra.GroupWithZero.Nat

/-!
# Tallies

What a list of records adds up to for one key: the vocabulary of "counted here
equals counted there".  The records, their keys and what is counted are
arbitrary.
-/

namespace Obserwrt
namespace Lib

universe u v w

variable {α : Type u} {β : Type v} {K : Type w} [DecidableEq K]

/-- The total of a count over the records with a key. -/
def tally (key : α → K) (count : α → Nat) (k : K) (records : List α) : Nat :=
  ((records.filter fun a => key a = k).map count).sum

variable {key : α → K} {count : α → Nat} {k : K}

@[simp] theorem tally_nil : tally key count k [] = 0 := rfl

theorem tally_append (xs ys : List α) :
    tally key count k (xs ++ ys) = tally key count k xs + tally key count k ys := by
  rw [tally, List.filter_append, List.map_append, List.sum_append]
  rfl

theorem tally_singleton (a : α) :
    tally key count k [a] = if key a = k then count a else 0 := by
  by_cases hkey : key a = k
  · simp [tally, hkey]
  · simp [tally, hkey]

theorem tally_map (f : β → α) (records : List β) :
    tally key count k (records.map f) = tally (key ∘ f) (count ∘ f) k records := by
  rw [tally, List.filter_map, List.map_map]
  rfl

end Lib
end Obserwrt
