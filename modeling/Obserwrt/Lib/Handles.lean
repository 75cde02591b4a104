import Mathlib.Data.List.Nodup
import Mathlib.Data.List.Perm.Basic

/-!
# Handles that are made and released

A library hands out handles, and its user gives each of them back.  `Accounts`
is the ledger: every handle made so far is either held by the user or released,
and each exactly once.  So it excludes leaks, double releases and the use of a
released handle at the same time, and it is kept by the two operations.
-/

namespace Obserwrt
namespace Lib

/-- The handles made so far, numbered in order, and those released. -/
structure Handles where
  made : Nat := 0
  released : List Nat := []
  deriving DecidableEq

namespace Handles

def make (h : Handles) : Nat × Handles := (h.made, { h with made := h.made + 1 })

def release (h : Handles) (i : Nat) : Handles := { h with released := i :: h.released }

/-- Release a handle if there is one. -/
def free (h : Handles) : Option Nat → Handles
  | none => h
  | some i => h.release i

/-- Every handle is held or released, and no handle twice. -/
def Accounts (h : Handles) (held : List Nat) : Prop :=
  (held ++ h.released).Perm (List.range h.made)

namespace Accounts

variable {h : Handles} {held held' : List Nat} {i : Nat}

theorem empty : ({} : Handles).Accounts [] := List.Perm.refl _

theorem perm (hacc : h.Accounts held) (hperm : held'.Perm held) : h.Accounts held' :=
  (hperm.append_right _).trans hacc

theorem make (hacc : h.Accounts held) : h.make.2.Accounts (h.make.1 :: held) := by
  show (h.made :: (held ++ h.released)).Perm (List.range (h.made + 1))
  rw [List.range_succ]
  exact (hacc.cons h.made).trans (List.perm_append_singleton h.made _).symm

theorem release (hacc : h.Accounts (i :: held)) : (h.release i).Accounts held :=
  List.perm_middle.trans hacc

theorem free (o : Option Nat) (hacc : h.Accounts (o.toList ++ held)) :
    (h.free o).Accounts held := by
  cases o with
  | none => exact hacc
  | some i => exact hacc.release

/-- A user that holds nothing has released every handle, once. -/
theorem settled (hacc : h.Accounts []) : h.released.Perm (List.range h.made) := hacc

/-- Release many holders' handles, one holder after the other. -/
theorem foldl_free {α : Type} {handles : α → List Nat} {give : Handles → α → Handles}
    (hgive : ∀ h a held, Accounts h (handles a ++ held) → (give h a).Accounts held)
    (xs : List α) (hacc : h.Accounts (xs.flatMap handles ++ held)) :
    (xs.foldl give h).Accounts held := by
  induction xs generalizing h with
  | nil => exact hacc
  | cons x xs ih =>
      rw [List.flatMap_cons, List.append_assoc] at hacc
      exact ih (hgive h x _ hacc)

end Accounts
end Handles
end Lib
end Obserwrt
