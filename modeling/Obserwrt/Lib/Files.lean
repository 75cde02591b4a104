import Mathlib.Logic.Function.Basic
import Obserwrt.Lib.Bytes

/-!
# Files with names and contents apart

A small file system: names lead to inodes, and inodes hold contents.  A file
that is open is an inode, so a reader keeps what it opened whatever the name
leads to later.  Inode numbers are never used twice.
-/

namespace Obserwrt
namespace Lib

/-- Names, contents, and the next inode number. -/
structure Files where
  entry : Bytes → Option Nat
  content : Nat → Bytes
  next : Nat

namespace Files

/-- What a reader of a name finds. -/
def read (fs : Files) (path : Bytes) : Option Bytes :=
  (fs.entry path).map fs.content

/-- `open` with `O_WRONLY | O_CREAT | O_TRUNC`. -/
def openTrunc (fs : Files) (path : Bytes) : Nat × Files :=
  match fs.entry path with
  | some i => (i, { fs with content := Function.update fs.content i [] })
  | none =>
      (fs.next,
        { entry := Function.update fs.entry path (some fs.next)
          content := Function.update fs.content fs.next []
          next := fs.next + 1 })

/-- `write` of some bytes at an offset of an open file. -/
def writeAt (fs : Files) (i offset : Nat) (data : Bytes) : Files :=
  { fs with
    content := Function.update fs.content i
      ((fs.content i).take offset ++ data ++ (fs.content i).drop (offset + data.length)) }

/-- `rename` of an existing name. -/
def rename (fs : Files) (src dst : Bytes) : Files :=
  { fs with entry := Function.update (Function.update fs.entry dst (fs.entry src)) src none }

/-- `unlink`. -/
def unlink (fs : Files) (path : Bytes) : Files :=
  { fs with entry := Function.update fs.entry path none }

/-- Every name leads to an inode that exists. -/
def WellFormed (fs : Files) : Prop :=
  ∀ path i, fs.entry path = some i → i < fs.next

variable {fs : Files} {path : Bytes}

@[simp] theorem writeAt_entry (i offset : Nat) (data : Bytes) :
    (fs.writeAt i offset data).entry = fs.entry := rfl

@[simp] theorem writeAt_next (i offset : Nat) (data : Bytes) :
    (fs.writeAt i offset data).next = fs.next := rfl

@[simp] theorem rename_content (src dst : Bytes) : (fs.rename src dst).content = fs.content := rfl

@[simp] theorem unlink_content (path : Bytes) : (fs.unlink path).content = fs.content := rfl

theorem writeAt_content_ne {i j : Nat} (hne : j ≠ i) (offset : Nat) (data : Bytes) :
    (fs.writeAt i offset data).content j = fs.content j :=
  Function.update_of_ne hne _ _

/-- A write behind the end of the file appends to it. -/
theorem writeAt_content_end {i offset : Nat} (hend : (fs.content i).length = offset)
    (data : Bytes) : (fs.writeAt i offset data).content i = fs.content i ++ data := by
  show Function.update fs.content i _ i = _
  rw [Function.update_self, List.take_of_length_le (le_of_eq hend),
    List.drop_eq_nil_of_le (by omega), List.append_nil]

/-- **What opening does**: the name leads to an inode with no content, other
names lead where they did, and no other inode changes.  The inode is the one
the name led to, or a new one. -/
theorem openTrunc_spec (fs : Files) (path : Bytes) :
    (fs.openTrunc path).2.entry path = some (fs.openTrunc path).1 ∧
      (∀ p, p ≠ path → (fs.openTrunc path).2.entry p = fs.entry p) ∧
      (fs.openTrunc path).2.content (fs.openTrunc path).1 = [] ∧
      (∀ i, i ≠ (fs.openTrunc path).1 → (fs.openTrunc path).2.content i = fs.content i) ∧
      (fs.entry path = some (fs.openTrunc path).1 ∨
        fs.entry path = none ∧ (fs.openTrunc path).1 = fs.next) ∧
      fs.next ≤ (fs.openTrunc path).2.next := by
  unfold openTrunc
  cases hentry : fs.entry path with
  | some i =>
      refine ⟨hentry, fun _ _ => rfl, Function.update_self _ _ _, ?_, Or.inl rfl, le_rfl⟩
      exact fun j hj => Function.update_of_ne hj _ _
  | none =>
      refine ⟨Function.update_self _ _ _, ?_, Function.update_self _ _ _, ?_,
        Or.inr ⟨rfl, rfl⟩, Nat.le_succ _⟩
      · exact fun p hp => Function.update_of_ne hp _ _
      · exact fun j hj => Function.update_of_ne hj _ _

theorem WellFormed.openTrunc (h : fs.WellFormed) (path : Bytes) :
    (fs.openTrunc path).2.WellFormed := by
  intro p i hentry
  unfold Files.openTrunc at hentry ⊢
  cases hold : fs.entry path with
  | some j =>
      rw [hold] at hentry
      exact h p i hentry
  | none =>
      rw [hold] at hentry
      by_cases hp : p = path
      · subst hp
        simp only [Function.update_self, Option.some.injEq] at hentry
        show i < fs.next + 1
        omega
      · have hlt := h p i ((Function.update_of_ne hp _ _).symm.trans hentry)
        show i < fs.next + 1
        omega

theorem WellFormed.unlink (h : fs.WellFormed) (path : Bytes) : (fs.unlink path).WellFormed := by
  intro p i hentry
  by_cases hp : p = path
  · subst hp
    simp [Files.unlink] at hentry
  · exact h p i ((Function.update_of_ne hp _ _).symm.trans hentry)

theorem rename_entry_dst {src dst : Bytes} (hne : dst ≠ src) :
    (fs.rename src dst).entry dst = fs.entry src := by
  show Function.update (Function.update fs.entry dst (fs.entry src)) src none dst = _
  rw [Function.update_of_ne hne, Function.update_self]

@[simp] theorem rename_entry_src (src dst : Bytes) : (fs.rename src dst).entry src = none :=
  Function.update_self _ _ _

theorem rename_entry_ne {src dst p : Bytes} (hsrc : p ≠ src) (hdst : p ≠ dst) :
    (fs.rename src dst).entry p = fs.entry p := by
  show Function.update (Function.update fs.entry dst (fs.entry src)) src none p = _
  rw [Function.update_of_ne hsrc, Function.update_of_ne hdst]

theorem WellFormed.rename (h : fs.WellFormed) {src dst : Bytes} (hne : dst ≠ src) :
    (fs.rename src dst).WellFormed := by
  intro p i hentry
  by_cases hsrc : p = src
  · subst hsrc
    simp at hentry
  · by_cases hdst : p = dst
    · subst hdst
      rw [rename_entry_dst hne] at hentry
      exact h src i hentry
    · rw [rename_entry_ne hsrc hdst] at hentry
      exact h p i hentry

@[simp] theorem unlink_entry_self (path : Bytes) : (fs.unlink path).entry path = none :=
  Function.update_self _ _ _

theorem unlink_entry_ne {p path : Bytes} (hne : p ≠ path) :
    (fs.unlink path).entry p = fs.entry p :=
  Function.update_of_ne hne _ _

end Files
end Lib
end Obserwrt
