import Mathlib.Algebra.BigOperators.Group.List.Basic
import Mathlib.Data.List.GetD
import Mathlib.Tactic.Ring

/-!
# Byte buffers and big-endian integers

A buffer is a list of bytes and a pointer into it is an offset.  `byteAt` is
the total read; the code that uses it checks the bounds first, and the lemmas
move a read across a prefix.  `netBytes`/`netValue` are the network-order
integers of a fixed width.
-/

namespace Obserwrt
namespace Lib

/-- A byte string. -/
abbrev Bytes := List UInt8

/-- The byte at an offset, zero past the end. -/
def byteAt (bs : Bytes) (i : Nat) : UInt8 :=
  bs.getD i 0

theorem byteAt_append_right (pre bs : Bytes) (i : Nat) :
    byteAt (pre ++ bs) (pre.length + i) = byteAt bs i := by
  rw [byteAt, byteAt, List.getD_append_right pre bs 0 _ (Nat.le_add_right _ _),
    Nat.add_sub_cancel_left]

theorem byteAt_append_left {bs : Bytes} {i : Nat} (post : Bytes) (hi : i < bs.length) :
    byteAt (bs ++ post) i = byteAt bs i := by
  rw [byteAt, byteAt, List.getD_append bs post 0 i hi]

/-- `part` lies in `bs` at offset `off`. -/
def HasAt (bs : Bytes) (off : Nat) (part : Bytes) : Prop :=
  ∃ pre post, bs = pre ++ part ++ post ∧ pre.length = off

namespace HasAt

variable {bs part : Bytes} {off : Nat}

theorem le_length (h : HasAt bs off part) : off + part.length ≤ bs.length := by
  obtain ⟨pre, post, rfl, rfl⟩ := h
  simp only [List.length_append]
  omega

/-- A read inside a located part is a read of the part. -/
theorem byteAt (h : HasAt bs off part) {i : Nat} (hi : i < part.length) :
    Lib.byteAt bs (off + i) = Lib.byteAt part i := by
  obtain ⟨pre, post, rfl, rfl⟩ := h
  rw [List.append_assoc, byteAt_append_right, byteAt_append_left post hi]

/-- The first byte of a located part, at the offset itself. -/
theorem byteAt_zero (h : HasAt bs off part) (hpart : 0 < part.length) :
    Lib.byteAt bs off = Lib.byteAt part 0 :=
  h.byteAt hpart

theorem left {front back : Bytes} (h : HasAt bs off (front ++ back)) : HasAt bs off front := by
  obtain ⟨pre, post, rfl, rfl⟩ := h
  exact ⟨pre, back ++ post, by simp, rfl⟩

theorem right {front back : Bytes} (h : HasAt bs off (front ++ back)) :
    HasAt bs (off + front.length) back := by
  obtain ⟨pre, post, rfl, rfl⟩ := h
  exact ⟨pre ++ front, post, by simp, by simp⟩

/-- Reading a located part byte by byte gives the part. -/
theorem map_range (h : HasAt bs off part) {n : Nat} (hn : part.length = n) :
    (List.range n).map (fun i => Lib.byteAt bs (off + i)) = part := by
  subst hn
  apply List.ext_getElem
  · simp
  · intro i hi hi'
    rw [List.getElem_map, List.getElem_range, h.byteAt hi', Lib.byteAt,
      List.getD_eq_getElem _ _ hi']

end HasAt

/-! ## Big-endian integers -/

/-- The `width` low-order bytes of `n`, most significant first. -/
def netBytes : Nat → Nat → Bytes
  | 0, _ => []
  | width + 1, n => netBytes width (n / 256) ++ [UInt8.ofNat n]

/-- The number a big-endian byte string stands for. -/
def netValue (bs : Bytes) : Nat :=
  bs.foldl (fun acc b => acc * 256 + b.toNat) 0

@[simp] theorem netBytes_length (width n : Nat) : (netBytes width n).length = width := by
  induction width generalizing n with
  | zero => rfl
  | succ width ih => simp [netBytes, ih]

@[simp] theorem netValue_nil : netValue [] = 0 := rfl

theorem netValue_concat (bs : Bytes) (b : UInt8) :
    netValue (bs ++ [b]) = netValue bs * 256 + b.toNat := by
  simp [netValue]

/-- Decoding undoes encoding up to the width. -/
theorem netValue_netBytes (width n : Nat) :
    netValue (netBytes width n) = n % 256 ^ width := by
  -- from the least significant byte, which stands last
  induction width generalizing n with
  | zero => simp [netBytes, Nat.mod_one]
  | succ width ih =>
      have hbyte : (UInt8.ofNat n).toNat = n % 256 := by simp
      have hsplit : n % 256 ^ (width + 1) = n % 256 + 256 * (n / 256 % 256 ^ width) := by
        rw [pow_succ', Nat.mod_mul]
      rw [netBytes, netValue_concat, ih, hbyte, hsplit]
      ring

theorem netValue_netBytes_of_lt {width n : Nat} (hn : n < 256 ^ width) :
    netValue (netBytes width n) = n := by
  rw [netValue_netBytes, Nat.mod_eq_of_lt hn]

/-- A 16-bit field in network order. -/
def be16 (n : UInt16) : Bytes := netBytes 2 n.toNat

/-- A 32-bit field in network order. -/
def be32 (n : UInt32) : Bytes := netBytes 4 n.toNat

/-- A 64-bit field in network order. -/
def be64 (n : UInt64) : Bytes := netBytes 8 n.toNat

@[simp] theorem be16_length (n : UInt16) : (be16 n).length = 2 := by simp [be16]

@[simp] theorem be32_length (n : UInt32) : (be32 n).length = 4 := by simp [be32]

@[simp] theorem be64_length (n : UInt64) : (be64 n).length = 8 := by simp [be64]

@[simp] theorem netValue_byte (b : UInt8) : netValue [b] = b.toNat := by simp [netValue]

@[simp] theorem netValue_be16 (n : UInt16) : netValue (be16 n) = n.toNat :=
  netValue_netBytes_of_lt n.toNat_lt

@[simp] theorem netValue_be32 (n : UInt32) : netValue (be32 n) = n.toNat :=
  netValue_netBytes_of_lt n.toNat_lt

@[simp] theorem netValue_be64 (n : UInt64) : netValue (be64 n) = n.toNat :=
  netValue_netBytes_of_lt n.toNat_lt

/-- The big-endian integer of `width` bytes at an offset. -/
def fieldAt (bs : Bytes) (off width : Nat) : Nat :=
  netValue ((bs.drop off).take width)

theorem HasAt.fieldAt {bs part : Bytes} {off width : Nat} (h : HasAt bs off part)
    (hwidth : part.length = width) : Lib.fieldAt bs off width = netValue part := by
  obtain ⟨pre, post, rfl, rfl⟩ := h
  subst hwidth
  simp [Lib.fieldAt]

/-! ## Reading from the front -/

/-- Split off the first `n` bytes, if there are that many. -/
def takeBytes (n : Nat) (bs : Bytes) : Option (Bytes × Bytes) :=
  if n ≤ bs.length then some (bs.take n, bs.drop n) else none

/-- Split off a big-endian integer of `n` bytes. -/
def takeNat (n : Nat) (bs : Bytes) : Option (Nat × Bytes) :=
  (takeBytes n bs).map fun r => (netValue r.1, r.2)

theorem takeBytes_append {part : Bytes} {n : Nat} (rest : Bytes) (hn : part.length = n) :
    takeBytes n (part ++ rest) = some (part, rest) := by
  subst hn
  simp [takeBytes]

@[simp] theorem takeNat_be16 (n : UInt16) (rest : Bytes) :
    takeNat 2 (be16 n ++ rest) = some (n.toNat, rest) := by
  simp [takeNat, takeBytes_append rest (be16_length n)]

@[simp] theorem takeNat_be32 (n : UInt32) (rest : Bytes) :
    takeNat 4 (be32 n ++ rest) = some (n.toNat, rest) := by
  simp [takeNat, takeBytes_append rest (be32_length n)]

/-! ## Cutting a buffer into items -/

section Cut

universe u v

variable {α : Type u} {β : Type v} {item : Bytes → Option (β × Bytes)} {encode : α → Bytes}
  {decode : α → β} {xs : List α}

/-- Read items until no byte is left, at most `fuel` of them. -/
def cutFuel (item : Bytes → Option (β × Bytes)) : Nat → Bytes → Option (List β)
  | _, [] => some []
  | 0, _ :: _ => none
  | fuel + 1, b :: bs => do
      let (x, rest) ← item (b :: bs)
      let xs ← cutFuel item fuel rest
      some (x :: xs)

/-- Read items until no byte is left.  An item takes at least one byte, so the
length of the buffer bounds their number. -/
def cut (item : Bytes → Option (β × Bytes)) (bs : Bytes) : Option (List β) :=
  cutFuel item bs.length bs

theorem cutFuel_flatMap {fuel : Nat}
    (hitem : ∀ x ∈ xs, ∀ rest, item (encode x ++ rest) = some (decode x, rest))
    (hne : ∀ x ∈ xs, encode x ≠ []) (hfuel : xs.length ≤ fuel) :
    cutFuel item fuel (xs.flatMap encode) = some (xs.map decode) := by
  induction xs generalizing fuel with
  | nil => simp [cutFuel]
  | cons x xs ih =>
      obtain ⟨fuel, rfl⟩ : ∃ n, fuel = n + 1 := ⟨fuel - 1, by simp at hfuel; omega⟩
      obtain ⟨b, bs, hbytes⟩ : ∃ b bs, encode x = b :: bs :=
        List.exists_cons_of_ne_nil (hne x (by simp))
      have hread := hitem x (by simp) (xs.flatMap encode)
      have hrest : cutFuel item fuel (xs.flatMap encode) = some (xs.map decode) :=
        ih (fun y hy => hitem y (by simp [hy])) (fun y hy => hne y (by simp [hy]))
          (by simpa using hfuel)
      rw [hbytes, List.cons_append] at hread
      rw [List.flatMap_cons, hbytes, List.cons_append, cutFuel, hread]
      simp [hrest]

/-- Cutting undoes concatenation, for items that can be read off the front. -/
theorem cut_flatMap
    (hitem : ∀ x ∈ xs, ∀ rest, item (encode x ++ rest) = some (decode x, rest))
    (hne : ∀ x ∈ xs, encode x ≠ []) : cut item (xs.flatMap encode) = some (xs.map decode) := by
  refine cutFuel_flatMap hitem hne ?_
  rw [List.length_flatMap]
  have hpos : ∀ n ∈ xs.map fun x => (encode x).length, 1 ≤ n := by
    intro n hn
    obtain ⟨x, hx, rfl⟩ := List.mem_map.mp hn
    exact List.length_pos_iff.mpr (hne x hx)
  simpa using List.length_le_sum_of_one_le _ hpos

end Cut

end Lib
end Obserwrt
