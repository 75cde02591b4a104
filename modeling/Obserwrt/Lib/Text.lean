import Obserwrt.Lib.Bytes

/-!
# Readers of text

A reader takes the front of a text and returns what it read with the rest, so
its lemmas have the rest of the text in them.  Here are the readers of a fixed
text, of a number in decimal and of a list of items with a separator between
them.
-/

namespace Obserwrt

open Lib

/-- The bytes of an ASCII literal. -/
def text (s : String) : Bytes :=
  s.toList.map fun c => c.toNat.toUInt8

namespace Lib

/-- Read a fixed text. -/
def expect : Bytes → Bytes → Option Bytes
  | [], bs => some bs
  | _ :: _, [] => none
  | c :: t, b :: bs => if c = b then expect t bs else none

@[simp] theorem expect_append (t rest : Bytes) : expect t (t ++ rest) = some rest := by
  induction t with
  | nil => rfl
  | cons c t ih => simpa [expect] using ih

theorem expect_mark (c : UInt8) (rest : Bytes) : expect [c] (c :: rest) = some rest :=
  expect_append [c] rest

theorem expect_cons_ne {c b : UInt8} (hne : c ≠ b) (t bs : Bytes) :
    expect (c :: t) (b :: bs) = none :=
  if_neg hne

/-- One step of a reader: what it reads next is known. -/
theorem read_step {α β : Type} {x : Option α} {f : α → Option β} {a : α} {r : Option β}
    (hx : x = some a) (hf : f a = r) : x >>= f = r := by
  rw [hx]
  exact hf

/-! ## Decimal numbers -/

/-- The digit of a number below ten. -/
def digitByte (n : Nat) : UInt8 := UInt8.ofNat (48 + n)

/-- A number in decimal, without leading zeros. -/
def decimalBytes (n : Nat) : Bytes :=
  if n < 10 then [digitByte n] else decimalBytes (n / 10) ++ [digitByte (n % 10)]

/-- An ASCII digit. -/
def isDigitByte (b : UInt8) : Bool := 48 ≤ b && b ≤ 57

/-- The number a run of digits spells. -/
def digitsValue (ds : Bytes) : Nat :=
  ds.foldl (fun n b => 10 * n + (b.toNat - 48)) 0

/-- The longest run of digits at the front of a text, as a number. -/
def readNat (bs : Bytes) : Option (Nat × Bytes) :=
  let ds := bs.takeWhile isDigitByte
  if ds = [] then none else some (digitsValue ds, bs.dropWhile isDigitByte)

/-- The text does not go on with a digit. -/
def NoDigit (rest : Bytes) : Prop := ∀ b ∈ rest.head?, isDigitByte b = false

@[simp] theorem noDigit_nil : NoDigit [] := by
  simp [NoDigit]

@[simp] theorem noDigit_cons (b : UInt8) (rest : Bytes) :
    NoDigit (b :: rest) ↔ isDigitByte b = false := by
  simp [NoDigit]

theorem digitByte_toNat {n : Nat} (hn : n < 10) : (digitByte n).toNat = 48 + n := by
  rw [digitByte, UInt8.toNat_ofNat_of_lt']
  show 48 + n < 256
  omega

theorem isDigitByte_digitByte {n : Nat} (hn : n < 10) : isDigitByte (digitByte n) = true := by
  have hvalue := digitByte_toNat hn
  simp only [isDigitByte, Bool.and_eq_true, decide_eq_true_eq, UInt8.le_iff_toNat_le, hvalue]
  refine ⟨?_, ?_⟩
  · show 48 ≤ 48 + n
    omega
  · show 48 + n ≤ 57
    omega

theorem decimalBytes_isDigit (n : Nat) : ∀ b ∈ decimalBytes n, isDigitByte b = true := by
  induction n using Nat.strong_induction_on with
  | _ n ih =>
      rw [decimalBytes]
      split
      · rename_i hn
        simpa using isDigitByte_digitByte hn
      · rename_i hn
        intro b hb
        rcases List.mem_append.mp hb with hfront | hlast
        · exact ih (n / 10) (by omega) b hfront
        · rw [List.mem_singleton.mp hlast]
          exact isDigitByte_digitByte (Nat.mod_lt _ (by decide))

theorem decimalBytes_ne_nil (n : Nat) : decimalBytes n ≠ [] := by
  rw [decimalBytes]
  split <;> simp

theorem digitsValue_concat (ds : Bytes) (b : UInt8) :
    digitsValue (ds ++ [b]) = 10 * digitsValue ds + (b.toNat - 48) := by
  simp [digitsValue]

theorem digitsValue_decimalBytes (n : Nat) : digitsValue (decimalBytes n) = n := by
  induction n using Nat.strong_induction_on with
  | _ n ih =>
      rw [decimalBytes]
      split
      · rename_i hn
        simp [digitsValue, digitByte_toNat hn]
      · rename_i hn
        rw [digitsValue_concat, ih (n / 10) (by omega),
          digitByte_toNat (Nat.mod_lt _ (by decide))]
        omega

theorem takeWhile_append_of_all {p : UInt8 → Bool} {front rest : Bytes}
    (hfront : ∀ b ∈ front, p b = true) (hrest : ∀ b ∈ rest.head?, p b = false) :
    (front ++ rest).takeWhile p = front ∧ (front ++ rest).dropWhile p = rest := by
  have hstop : rest.takeWhile p = [] ∧ rest.dropWhile p = rest := by
    cases rest with
    | nil => exact ⟨rfl, rfl⟩
    | cons b rest =>
        have hb := hrest b rfl
        exact ⟨List.takeWhile_cons_of_neg (by simp [hb]), List.dropWhile_cons_of_neg (by simp [hb])⟩
  rw [List.takeWhile_append_of_pos hfront, List.dropWhile_append_of_pos hfront, hstop.1, hstop.2]
  exact ⟨List.append_nil _, rfl⟩

theorem bne_of_not_mem {t : Bytes} {c : UInt8} (hmark : c ∉ t) : ∀ b ∈ t, (b != c) = true := by
  intro b hb
  rw [bne_iff_ne]
  rintro rfl
  exact hmark hb

/-- A text is cut at the first mark. -/
theorem cut_at_mark {t : Bytes} {c : UInt8} (hmark : c ∉ t) (rest : Bytes) :
    (t ++ c :: rest).takeWhile (· != c) = t ∧
      (t ++ c :: rest).dropWhile (· != c) = c :: rest :=
  takeWhile_append_of_all (bne_of_not_mem hmark) (by simp)

/-- A text without the mark is not cut. -/
theorem takeWhile_of_not_mem {t : Bytes} {c : UInt8} (hmark : c ∉ t) :
    t.takeWhile (· != c) = t := by
  have hnil : ∀ b ∈ ([] : Bytes).head?, (b != c) = false := by simp
  have hcut := (takeWhile_append_of_all (bne_of_not_mem hmark) hnil).1
  rwa [List.append_nil] at hcut

/-- A number written in decimal is read back. -/
theorem readNat_decimalBytes (n : Nat) {rest : Bytes} (hrest : NoDigit rest) :
    readNat (decimalBytes n ++ rest) = some (n, rest) := by
  obtain ⟨htake, hdrop⟩ := takeWhile_append_of_all (decimalBytes_isDigit n) hrest
  simp only [readNat, htake, hdrop, decimalBytes_ne_nil, if_false, digitsValue_decimalBytes]

/-- A text that is all digits, as a number. -/
def wholeNat (t : Bytes) : Option Nat :=
  (readNat t).bind fun r => if r.2 = [] then some r.1 else none

theorem wholeNat_decimalBytes (n : Nat) : wholeNat (decimalBytes n) = some n := by
  have hread := readNat_decimalBytes n noDigit_nil
  rw [List.append_nil] at hread
  rw [wholeNat, hread]
  rfl

/-! ## Items with a separator -/

section Items

variable {α : Type}

/-- Items with a separator between them. -/
def joinItems (s : UInt8) (enc : α → Bytes) : List α → Bytes
  | [] => []
  | [x] => enc x
  | x :: y :: xs => enc x ++ s :: joinItems s enc (y :: xs)

/-- Read items up to the mark that closes the list. -/
def readItems (item : Bytes → Option (α × Bytes)) (sep close : Bytes → Option Bytes) :
    Nat → Bytes → Option (List α × Bytes)
  | 0, _ => none
  | fuel + 1, bs =>
      (item bs).bind fun x =>
        match sep x.2 with
        | some rest => (readItems item sep close fuel rest).map fun more => (x.1 :: more.1, more.2)
        | none => (close x.2).map fun rest => ([x.1], rest)

/-- A reader of items, and of the marks between and behind them, that fits the
writer `enc` and the bytes `s` and `c` of the two marks. -/
structure ReadsItems (enc : α → Bytes) (s c : UInt8) (item : Bytes → Option (α × Bytes))
    (sep close : Bytes → Option Bytes) (p : α → Prop) : Prop where
  hsep : ∀ rest, sep (s :: rest) = some rest
  hlast : ∀ rest, sep (c :: rest) = none
  hclose : ∀ rest, close (c :: rest) = some rest
  hitem : ∀ x, p x → ∀ b, b = s ∨ b = c → ∀ rest, item (enc x ++ b :: rest) = some (x, b :: rest)

theorem ReadsItems.read_join {enc : α → Bytes} {s c : UInt8} {item : Bytes → Option (α × Bytes)}
    {sep close : Bytes → Option Bytes} {p : α → Prop} (h : ReadsItems enc s c item sep close p)
    {xs : List α} (hxs : xs ≠ []) (hp : ∀ x ∈ xs, p x) {fuel : Nat} (hfuel : xs.length ≤ fuel)
    (rest : Bytes) :
    readItems item sep close fuel (joinItems s enc xs ++ c :: rest) = some (xs, rest) := by
  induction xs generalizing fuel with
  | nil => exact absurd rfl hxs
  | cons x xs ih =>
      obtain ⟨fuel, rfl⟩ : ∃ k, fuel = k + 1 := ⟨fuel - 1, by simp at hfuel; omega⟩
      have hx := h.hitem x (hp x List.mem_cons_self)
      cases xs with
      | nil =>
          rw [joinItems, readItems, hx c (Or.inr rfl), Option.bind_some, h.hlast]
          simp only [h.hclose, Option.map_some]
      | cons y xs =>
          have hmore := ih (by simp) (fun z hz => hp z (List.mem_cons_of_mem _ hz))
            (by simpa using hfuel)
          rw [joinItems, List.append_assoc, List.cons_append, readItems, hx s (Or.inl rfl),
            Option.bind_some, h.hsep]
          simp only [hmore, Option.map_some]

theorem joinItems_concat (s : UInt8) (enc : α → Bytes) {xs : List α} (hxs : xs ≠ []) (x : α) :
    joinItems s enc (xs ++ [x]) = joinItems s enc xs ++ s :: enc x := by
  induction xs with
  | nil => exact absurd rfl hxs
  | cons y xs ih =>
      cases xs with
      | nil => rfl
      | cons z xs =>
          have hmore := ih (by simp)
          simp only [List.cons_append] at hmore ⊢
          rw [joinItems, joinItems, hmore, List.append_assoc, List.cons_append]

/-- What stands in a list of items stands in an item, the separators apart. -/
theorem mem_joinItems {s b : UInt8} (hb : b ≠ s) (enc : α → Bytes) (xs : List α) :
    b ∈ joinItems s enc xs ↔ ∃ x ∈ xs, b ∈ enc x := by
  induction xs with
  | nil => simp [joinItems]
  | cons x xs ih =>
      cases xs with
      | nil => simp [joinItems]
      | cons y xs =>
          rw [joinItems, List.mem_append, List.mem_cons, ih]
          simp only [hb, false_or, List.exists_mem_cons_iff]

theorem joinItems_length {enc : α → Bytes} (henc : ∀ x, enc x ≠ []) (s : UInt8) (xs : List α) :
    xs.length ≤ (joinItems s enc xs).length := by
  induction xs with
  | nil => exact Nat.zero_le _
  | cons x xs ih =>
      have hx := List.length_pos_of_ne_nil (henc x)
      cases xs with
      | nil => exact hx
      | cons y xs =>
          simp only [joinItems, List.length_append, List.length_cons] at ih ⊢
          omega

/-- A reader that undoes the writer of one item reads a list of items back. -/
theorem mapM_map_of_forall {β : Type} {enc : α → β} {dec : β → Option α} {xs : List α}
    (h : ∀ x ∈ xs, dec (enc x) = some x) : (xs.map enc).mapM dec = some xs := by
  induction xs with
  | nil => rfl
  | cons x xs ih =>
      rw [List.map_cons, List.mapM_cons, h x List.mem_cons_self,
        ih fun y hy => h y (List.mem_cons_of_mem _ hy)]
      rfl

end Items

end Lib
end Obserwrt
