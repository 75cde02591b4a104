import Mathlib.Data.List.AList
import Mathlib.Algebra.BigOperators.Group.List.Basic

/-!
# Finite keyed stores

A store is Mathlib's association list with distinct keys.  Added here is what
the accounting arguments need of it: totals of a weight over the entries and
how one update moves them, deletion of a list of keys, and the entries as
plain pairs, which is how a walk over a store reports them.
-/

namespace Obserwrt
namespace Lib

universe u v w

/-- A finite map from keys to values, with distinct keys by construction. -/
abbrev Store (K : Type u) (V : Type v) := AList fun _ : K => V

namespace Store

variable {K : Type u} {V : Type v} {M : Type w} [AddCommMonoid M]

/-- The entries as key/value pairs. -/
def pairs (m : Store K V) : List (K × V) :=
  m.entries.map fun e => (e.1, e.2)

theorem pairs_keys (m : Store K V) : m.pairs.map Prod.fst = m.keys := by
  simp [pairs, AList.keys, List.keys, Function.comp_def]

theorem pairs_keys_nodup (m : Store K V) : (m.pairs.map Prod.fst).Nodup := by
  rw [pairs_keys]
  exact m.keys_nodup

@[simp] theorem pairs_empty : pairs (∅ : Store K V) = [] := rfl

/-- The total of a weight over all entries. -/
def total (f : K → V → M) (m : Store K V) : M :=
  (m.entries.map fun e => f e.1 e.2).sum

@[simp] theorem total_empty (f : K → V → M) : total f (∅ : Store K V) = 0 := rfl

variable [DecidableEq K]

theorem mem_pairs {m : Store K V} {k : K} {v : V} :
    (k, v) ∈ m.pairs ↔ m.lookup k = some v := by
  rw [← Option.mem_def, AList.mem_lookup_iff]
  simp only [pairs, List.mem_map, Prod.mk.injEq]
  constructor
  · rintro ⟨e, hmem, rfl, rfl⟩
    exact hmem
  · intro hmem
    exact ⟨⟨k, v⟩, hmem, rfl, rfl⟩

/-- Lookup after an insertion, as one case split. -/
theorem lookup_insert_eq (m : Store K V) (k k' : K) (v : V) :
    (m.insert k v).lookup k' = if k' = k then some v else m.lookup k' := by
  by_cases hkey : k' = k
  · subst hkey
    simp
  · rw [if_neg hkey, AList.lookup_insert_ne hkey]

/-- Lookup after an erasure, as one case split. -/
theorem lookup_erase_eq (m : Store K V) (k k' : K) :
    (m.erase k).lookup k' = if k' = k then none else m.lookup k' := by
  by_cases hkey : k' = k
  · subst hkey
    simp
  · rw [if_neg hkey, AList.lookup_erase_ne hkey]

/-! ## Totals under one update -/

theorem total_insert_of_lookup_none (f : K → V → M) {m : Store K V} {k : K} {v : V}
    (hnone : m.lookup k = none) :
    total f (m.insert k v) = f k v + total f m := by
  have hmem : k ∉ m := AList.lookup_eq_none.mp hnone
  rw [total, AList.entries_insert_of_notMem hmem]
  simp [total]

theorem length_insert_of_lookup_none {m : Store K V} {k : K} {v : V}
    (hnone : m.lookup k = none) :
    (m.insert k v).entries.length = m.entries.length + 1 := by
  have hmem : k ∉ m := AList.lookup_eq_none.mp hnone
  rw [AList.entries_insert_of_notMem hmem]
  simp

/-- A store with an entry at `k` is, up to order, that entry and the rest. -/
theorem perm_erase_of_lookup {m : Store K V} {k : K} {v : V}
    (hsome : m.lookup k = some v) :
    m.entries.Perm (⟨k, v⟩ :: (m.erase k).entries) := by
  have hmem : (⟨k, v⟩ : Sigma fun _ : K => V) ∈ m.entries :=
    AList.mem_lookup_iff.mp hsome
  obtain ⟨w, front, back, hfront, hentries, herase⟩ :=
    List.exists_of_kerase (List.mem_keys_of_mem hmem)
  have hw : w = v := by
    have hlookup : m.lookup k = some w := by
      rw [← Option.mem_def, AList.mem_lookup_iff, hentries]
      simp
    exact Option.some.inj (hlookup.symm.trans hsome)
  subst hw
  show m.entries.Perm (⟨k, w⟩ :: List.kerase k m.entries)
  rw [herase, hentries]
  exact List.perm_middle

theorem total_erase_of_lookup (f : K → V → M) {m : Store K V} {k : K} {v : V}
    (hsome : m.lookup k = some v) :
    total f m = f k v + total f (m.erase k) := by
  have hperm := (perm_erase_of_lookup hsome).map fun e => f e.1 e.2
  simpa [total] using hperm.sum_eq

theorem length_erase_of_lookup {m : Store K V} {k : K} {v : V}
    (hsome : m.lookup k = some v) :
    m.entries.length = (m.erase k).entries.length + 1 := by
  simpa using (perm_erase_of_lookup hsome).length_eq

/-- An insertion puts its entry before the other ones. -/
theorem entries_insert_erase (m : Store K V) (k : K) (w : V) :
    (m.insert k w).entries = ⟨k, w⟩ :: (m.erase k).entries :=
  AList.entries_insert

theorem pairs_insert (m : Store K V) (k : K) (w : V) :
    pairs (m.insert k w) = (k, w) :: pairs (m.erase k) := by
  rw [pairs, entries_insert_erase]
  rfl

/-- Lists that the entries carry: the one at `k` and the others, where an absent
entry counts as `dflt`, which carries none. -/
theorem flatMap_pairs_erase {β : Type*} (f : V → List β) (m : Store K V) (k : K) (dflt : V)
    (hdflt : f dflt = []) :
    ((pairs m).flatMap fun e => f e.2).Perm
      (f ((m.lookup k).getD dflt) ++ (pairs (m.erase k)).flatMap fun e => f e.2) := by
  cases hlookup : m.lookup k with
  | none =>
      have hmem : k ∉ m.entries.keys := AList.lookup_eq_none.mp hlookup
      have herase : (m.erase k).entries = m.entries := List.kerase_of_notMem_keys hmem
      rw [Option.getD_none, hdflt, pairs, pairs, herase]
      exact List.Perm.refl _
  | some v =>
      rw [Option.getD_some]
      exact ((perm_erase_of_lookup hlookup).map fun e => (e.1, e.2)).flatMap_right _

theorem total_insert (f : K → V → M) (m : Store K V) (k : K) (w : V) :
    total f (m.insert k w) = f k w + total f (m.erase k) := by
  rw [total, entries_insert_erase, List.map_cons, List.sum_cons, total]

theorem total_insert_of_lookup_some (f : K → V → M) {m : Store K V} {k : K} {v : V}
    (w : V) (hsome : m.lookup k = some v) :
    total f (m.insert k w) + f k v = total f m + f k w := by
  rw [total_insert, total_erase_of_lookup f hsome, add_right_comm, add_right_comm (f k v),
    add_comm (f k w)]

/-- Adding to an entry, or creating it, adds to the total. -/
theorem total_upsert (f : K → V → M) (m : Store K V) {k : K} {create : V} {change : V → V} {a : M}
    (hcreate : f k create = a) (hchange : ∀ v, f k (change v) = f k v + a) :
    total f (m.insert k ((m.lookup k).elim create change)) = total f m + a := by
  cases hlookup : m.lookup k with
  | none =>
      rw [Option.elim_none, total_insert_of_lookup_none f hlookup, hcreate, add_comm]
  | some v =>
      rw [Option.elim_some, total_insert, hchange, total_erase_of_lookup f hlookup, add_right_comm]

theorem length_insert_of_lookup_some {m : Store K V} {k : K} {v : V} (w : V)
    (hsome : m.lookup k = some v) :
    (m.insert k w).entries.length = m.entries.length := by
  rw [entries_insert_erase, List.length_cons, length_erase_of_lookup hsome]

/-! ## Deleting a list of keys -/

/-- Delete every key of a list, in order. -/
def eraseAll (m : Store K V) (keys : List K) : Store K V :=
  keys.foldl (fun m k => m.erase k) m

theorem lookup_eraseAll (m : Store K V) (keys : List K) (k : K) :
    (eraseAll m keys).lookup k = if k ∈ keys then none else m.lookup k := by
  induction keys generalizing m with
  | nil => simp [eraseAll]
  | cons key keys ih =>
      show (eraseAll (m.erase key) keys).lookup k = _
      rw [ih, lookup_erase_eq]
      by_cases hkey : k = key
      · simp [hkey]
      · simp [hkey]

/-- Deleting some current entries takes them out of the total. -/
theorem total_eraseAll (f : K → V → M) {m : Store K V} {taken : List (K × V)}
    (hnodup : (taken.map Prod.fst).Nodup) (hcurrent : ∀ e ∈ taken, m.lookup e.1 = some e.2) :
    total f m = (taken.map fun e => f e.1 e.2).sum + total f (eraseAll m (taken.map Prod.fst)) := by
  induction taken generalizing m with
  | nil => simp [eraseAll]
  | cons e taken ih =>
      rw [List.map_cons, List.nodup_cons] at hnodup
      have hrest : ∀ e' ∈ taken, (m.erase e.1).lookup e'.1 = some e'.2 := by
        intro e' he'
        have hne : e'.1 ≠ e.1 := by
          intro hkey
          exact hnodup.1 (hkey ▸ List.mem_map_of_mem he')
        rw [AList.lookup_erase_ne hne]
        exact hcurrent e' (List.mem_cons_of_mem _ he')
      have hfirst := total_erase_of_lookup f (hcurrent e List.mem_cons_self)
      rw [hfirst, ih hnodup.2 hrest, List.map_cons, List.sum_cons, add_assoc]
      rfl

/-! ## A property of all keys -/

/-- Every key of the store has the property. -/
def OnKeys (p : K → Prop) (m : Store K V) : Prop := ∀ k v, m.lookup k = some v → p k

section OnKeys

variable {p : K → Prop} {m : Store K V}

theorem onKeys_empty (p : K → Prop) : OnKeys p (∅ : Store K V) := by
  intro k v hlookup
  exact absurd hlookup (by simp)

/-- Only fewer keys are left. -/
theorem OnKeys.anti {m' : Store K V} (h : OnKeys p m)
    (hsub : ∀ k v, m'.lookup k = some v → m.lookup k = some v) : OnKeys p m' :=
  fun k v hlookup => h k v (hsub k v hlookup)

theorem OnKeys.insert (h : OnKeys p m) {k : K} (hk : p k) (v : V) : OnKeys p (m.insert k v) := by
  intro k' v' hlookup
  rw [lookup_insert_eq] at hlookup
  split at hlookup
  · rename_i hsame
    rw [hsame]
    exact hk
  · exact h k' v' hlookup

theorem OnKeys.eraseAll (h : OnKeys p m) (keys : List K) : OnKeys p (eraseAll m keys) := by
  refine h.anti fun k v hlookup => ?_
  rw [lookup_eraseAll] at hlookup
  split at hlookup
  · exact absurd hlookup (by simp)
  · exact hlookup

end OnKeys

end Store
end Lib
end Obserwrt
