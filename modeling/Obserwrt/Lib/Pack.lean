import Mathlib.Algebra.BigOperators.Group.List.Basic
import Mathlib.Algebra.GroupWithZero.Nat
import Mathlib.Data.List.Chain

/-!
# Greedy packing

Items of a given size are put into boxes of a fixed capacity in order: an item
joins the open box if it still fits, and otherwise closes it and opens the
next one.  An item larger than the capacity gets a box of its own.
-/

namespace Obserwrt
namespace Lib

universe u v

variable {α : Type u} {β : Type v}

/-- What the items of a box weigh together. -/
def load (size : α → Nat) (box : List α) : Nat :=
  (box.map size).sum

@[simp] theorem load_nil (size : α → Nat) : load size [] = 0 := rfl

theorem load_concat (size : α → Nat) (box : List α) (x : α) :
    load size (box ++ [x]) = load size box + size x := by
  simp [load]

theorem load_map (size : β → Nat) (f : α → β) (box : List α) :
    load size (box.map f) = load (size ∘ f) box := by
  simp [load]

/-- Pack the items behind an open box. -/
def packFrom (size : α → Nat) (cap : Nat) : List α → List α → List (List α)
  | [], [] => []
  | x :: box, [] => [x :: box]
  | box, x :: xs =>
      if box ≠ [] ∧ cap < load size box + size x then
        box :: packFrom size cap [x] xs
      else
        packFrom size cap (box ++ [x]) xs

/-- Pack all items, with no box open. -/
def pack (size : α → Nat) (cap : Nat) (xs : List α) : List (List α) :=
  packFrom size cap [] xs

variable {size : α → Nat} {cap : Nat}

theorem packFrom_cons (box xs : List α) (x : α) :
    packFrom size cap box (x :: xs) =
      if box ≠ [] ∧ cap < load size box + size x then
        box :: packFrom size cap [x] xs
      else
        packFrom size cap (box ++ [x]) xs := by
  cases box <;> rfl

theorem packFrom_cons_of_full {box xs : List α} {x : α}
    (hfull : box ≠ [] ∧ cap < load size box + size x) :
    packFrom size cap box (x :: xs) = box :: packFrom size cap [x] xs := by
  rw [packFrom_cons, if_pos hfull]

theorem packFrom_cons_of_fits {box xs : List α} {x : α}
    (hfits : ¬(box ≠ [] ∧ cap < load size box + size x)) :
    packFrom size cap box (x :: xs) = packFrom size cap (box ++ [x]) xs := by
  rw [packFrom_cons, if_neg hfits]

/-- Nothing is lost, repeated or reordered. -/
theorem flatten_packFrom (box xs : List α) :
    (packFrom size cap box xs).flatten = box ++ xs := by
  induction xs generalizing box with
  | nil => cases box <;> simp [packFrom]
  | cons x xs ih =>
      rw [packFrom_cons]
      split
      · simp [ih]
      · simp [ih]

theorem flatten_pack (xs : List α) : (pack size cap xs).flatten = xs := by
  simp [pack, flatten_packFrom]

/-- No box is empty, and no box is over capacity when no item is. -/
theorem packFrom_boxes {box xs : List α} (hbox : load size box ≤ cap)
    (hxs : ∀ x ∈ xs, size x ≤ cap) :
    ∀ b ∈ packFrom size cap box xs, b ≠ [] ∧ load size b ≤ cap := by
  induction xs generalizing box with
  | nil =>
      cases box with
      | nil => simp [packFrom]
      | cons x box => simpa [packFrom] using hbox
  | cons x xs ih =>
      have hx : size x ≤ cap := hxs x (by simp)
      have hrest : ∀ y ∈ xs, size y ≤ cap := fun y hy => hxs y (by simp [hy])
      rw [packFrom_cons]
      split
      case isTrue hfull =>
        rintro b (_ | ⟨_, hb⟩)
        · exact ⟨hfull.1, hbox⟩
        · exact ih (by simpa [load] using hx) hrest b hb
      case isFalse hfits =>
        -- an empty box takes any item, a non-empty one only what fits
        have hopen : load size (box ++ [x]) ≤ cap := by
          rw [load_concat]
          by_cases hnil : box = []
          · simpa [hnil] using hx
          · have := not_and.mp hfits hnil
            omega
        exact ih hopen hrest

theorem pack_boxes {xs : List α} (hxs : ∀ x ∈ xs, size x ≤ cap) :
    ∀ b ∈ pack size cap xs, b ≠ [] ∧ load size b ≤ cap :=
  packFrom_boxes (Nat.zero_le _) hxs

/-- The first box starts with what was put into it first. -/
theorem head_packFrom (box xs : List α) (x : α) :
    ∀ b ∈ (packFrom size cap (x :: box) xs).head?, b.head? = some x := by
  induction xs generalizing box with
  | nil => simp [packFrom]
  | cons y ys ih =>
      rw [packFrom_cons]
      split
      · simp
      · exact ih (box ++ [y])

/-- A box is closed only by an item that does not fit in it. -/
theorem packFrom_greedy (box xs : List α) :
    (packFrom size cap box xs).IsChain
      fun b b' => ∀ x ∈ b'.head?, cap < load size b + size x := by
  induction xs generalizing box with
  | nil => cases box <;> simp [packFrom]
  | cons y ys ih =>
      by_cases hfull : box ≠ [] ∧ cap < load size box + size y
      · rw [packFrom_cons_of_full hfull, List.isChain_cons]
        refine ⟨?_, ih [y]⟩
        intro b hb x hx
        rw [head_packFrom [] ys y b hb, Option.mem_some_iff] at hx
        subst hx
        exact hfull.2
      · rw [packFrom_cons_of_fits hfull]
        exact ih (box ++ [y])

theorem pack_greedy (xs : List α) :
    (pack size cap xs).IsChain fun b b' => ∀ x ∈ b'.head?, cap < load size b + size x :=
  packFrom_greedy [] xs

/-- Packing commutes with a relabelling of the items. -/
theorem packFrom_map (size : β → Nat) (f : α → β) (box xs : List α) :
    packFrom size cap (box.map f) (xs.map f) =
      (packFrom (size ∘ f) cap box xs).map (List.map f) := by
  induction xs generalizing box with
  | nil => cases box <;> rfl
  | cons x xs ih =>
      simp only [List.map_cons, packFrom_cons, load_map, Function.comp_apply, ne_eq,
        List.map_eq_nil_iff]
      split
      · rw [List.map_cons, ← ih [x]]
        rfl
      · rw [← ih (box ++ [x]), List.map_append]
        rfl

theorem pack_map (size : β → Nat) (f : α → β) (xs : List α) :
    pack size cap (xs.map f) = (pack (size ∘ f) cap xs).map (List.map f) :=
  packFrom_map size f [] xs

end Lib
end Obserwrt
