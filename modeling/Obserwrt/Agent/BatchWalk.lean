import Obserwrt.Lib.Buckets
import Obserwrt.Lifecycle.Run

/-!
# The batched walk over the kernel's buckets

`batch_walk` of `bpf.cpp` with its cursor and its growing buffer, against a
kernel hash map whose batch call scans buckets.  The map may change between
two calls in any way; what one call returns is read off the map at that call.
-/

namespace Obserwrt
namespace Agent

open Lib

variable {K V : Type} [DecidableEq K]

/-! ## The loop -/

/-- The answer of one batch call: the keys and values written to the front of
the buffers, the token for the next call, and the map it leaves. -/
structure CallReply (K V : Type) where
  keys : List K
  values : List V
  token : Nat
  status : ScanStatus
  after : Store K V

/-- `BPF_MAP_LOOKUP_BATCH`, or for a drain `BPF_MAP_LOOKUP_AND_DELETE_BATCH`,
which takes what it returns out of the map. -/
def batchCall (L : Layout K) (drain : Bool) (m : Store K V) (start count : Nat) : CallReply K V :=
  let batch := L.scan m start count
  { keys := batch.entries.map Prod.fst
    values := batch.entries.map Prod.snd
    token := batch.next
    status := batch.status
    after := if drain then Store.eraseAll m (batch.entries.map Prod.fst) else m }

/-- The keys a call took out of the map. -/
def removedBy (before after : Store K V) : List K :=
  before.keys.filter fun k => (after.lookup k).isNone

/-- One call of `on_batch`, with the number of the batch call it reports. -/
structure Delivery (K V : Type) where
  call : Nat
  keys : List K
  values : List V

/-- The locals of `batch_walk`, the calls of `on_batch` so far and, to speak
about them, the number of batch calls and the keys these have removed. -/
structure Walk (K V : Type) where
  size : Nat := 256
  inBatch : Nat := 0
  outBatch : Nat := 0
  first : Bool := true
  delivered : List (Delivery K V) := []
  calls : Nat := 0
  removed : List K := []

namespace Walk

/-- The bucket the next call starts at: no token is given at first. -/
def cursor (w : Walk K V) : Nat :=
  if w.first then 0 else w.inBatch

/-- The keys handed over so far. -/
def keys (w : Walk K V) : List K :=
  w.delivered.flatMap Delivery.keys

/-- The next call, on the map `m`.  The count passed in is the buffer size as a
`uint32_t`. -/
def reply (L : Layout K) (drain : Bool) (m : Store K V) (w : Walk K V) : CallReply K V :=
  batchCall L drain m w.cursor (w.size % 2 ^ 32)

/-- The walk after the call itself. -/
def called (m : Store K V) (w : Walk K V) (r : CallReply K V) : Walk K V :=
  { w with
    outBatch := r.token
    calls := w.calls + 1
    removed := w.removed ++ removedBy m r.after }

/-- `on_batch(kb.data(), vb.data(), count)`. -/
def deliver (w : Walk K V) (r : CallReply K V) : Walk K V :=
  { w with
    delivered := w.delivered ++ [{ call := w.calls - 1, keys := r.keys, values := r.values }] }

/-- The loop after the call, with a result when it returns. -/
def settle (m : Store K V) (w : Walk K V) (r : CallReply K V) : Walk K V × Option Bool :=
  let w := w.called m r
  match r.status with
  -- the cursor stays where it is, and the call is made again
  | .noSpace => ({ w with size := w.size * 2 }, none)
  | .last => (w.deliver r, some true)
  | .more => ({ w.deliver r with inBatch := w.outBatch, first := false }, none)

/-- One turn of the loop on the map `m` at the call.  `fault` is an error other
than the two the loop knows: it delivers nothing, and removes nothing. -/
def turn (L : Layout K) (drain fault : Bool) (m : Store K V) (w : Walk K V) :
    Walk K V × Option Bool :=
  if fault then
    ({ w with calls := w.calls + 1 }, some false)
  else
    w.settle m (w.reply L drain m)

end Walk

/-- `batch_walk` from a walk on: `world i` is the map at the call number `i`,
`fault i` whether that call fails.  `none` while the loop has not returned. -/
def batchLoop (L : Layout K) (drain : Bool) (world : Nat → Store K V) (fault : Nat → Bool) :
    Nat → Walk K V → Option (Bool × Walk K V)
  | 0, _ => none
  | fuel + 1, w =>
      match w.turn L drain (fault w.calls) (world w.calls) with
      | (w, some ok) => some (ok, w)
      | (w, none) => batchLoop L drain world fault fuel w

/-! ## One call -/

section Call

variable {L : Layout K} {drain : Bool} {m : Store K V} {start stop : Nat}

theorem lookup_of_mem_span {e : K × V} (he : e ∈ L.span m start stop) :
    m.lookup e.1 = some e.2 :=
  Store.mem_pairs.mp (Layout.mem_span.mp he).1

theorem mem_span_keys {k : K} :
    k ∈ (L.span m start stop).map Prod.fst ↔
      k ∈ m ∧ start ≤ L.bucketOf k ∧ L.bucketOf k < stop := by
  constructor
  · intro hk
    obtain ⟨e, he, rfl⟩ := List.mem_map.mp hk
    refine ⟨?_, (Layout.mem_span.mp he).2⟩
    rw [← AList.lookup_isSome, lookup_of_mem_span he]
    rfl
  · rintro ⟨hmem, hbucket⟩
    obtain ⟨v, hv⟩ := Option.isSome_iff_exists.mp (AList.lookup_isSome.mpr hmem)
    exact List.mem_map.mpr ⟨(k, v), Layout.mem_span.mpr ⟨Store.mem_pairs.mpr hv, hbucket⟩, rfl⟩

/-- A drain removes from the map exactly the keys of a span it returns. -/
theorem removedBy_eraseAll_span :
    (removedBy m (Store.eraseAll m ((L.span m start stop).map Prod.fst))).Perm
      ((L.span m start stop).map Prod.fst) := by
  refine (List.perm_ext_iff_of_nodup (m.keys_nodup.filter _) (Layout.span_keys_nodup _ _)).mpr ?_
  intro k
  rw [List.mem_filter, Store.lookup_eraseAll, ← AList.mem_keys]
  constructor
  · rintro ⟨hmem, hnone⟩
    by_contra hk
    rw [if_neg hk] at hnone
    have hsome := AList.lookup_isSome.mpr hmem
    rw [Option.isNone_iff_eq_none.mp hnone] at hsome
    simp at hsome
  · intro hk
    exact ⟨(mem_span_keys.mp hk).1, by rw [if_pos hk]; rfl⟩

theorem removedBy_self : removedBy m m = [] := by
  refine List.filter_eq_nil_iff.mpr ?_
  intro k hk
  rw [Option.isNone_iff_eq_none, AList.lookup_eq_none]
  exact not_not.mpr (AList.mem_keys.mpr hk)

end Call

/-! ## The walk -/

/-- What holds between two turns: every key handed over lies below the cursor
and was handed over once, with the value of its call; and a key that was there
at every call so far has been handed over if it lies below the cursor. -/
structure WalkInv (L : Layout K) (drain : Bool) (world : Nat → Store K V) (w : Walk K V) :
    Prop where
  hcursor : w.cursor ≤ L.buckets
  hsize : 0 < w.size ∧ w.size ≤ 2 ^ 31
  hbelow : ∀ k ∈ w.keys, L.bucketOf k < w.cursor
  hnodup : w.keys.Nodup
  hvalues : ∀ d ∈ w.delivered, d.keys.length = d.values.length ∧
    ∀ e ∈ d.keys.zip d.values, (world d.call).lookup e.1 = some e.2
  hremoved : w.removed.Perm (if drain then w.keys else [])
  hcomplete : ∀ k, (∀ i < w.calls, k ∈ world i) → L.bucketOf k < w.cursor → k ∈ w.keys

/-- The turns a walk can still take: one for each bucket not yet passed, and
one for each time the buffer can still be too small. -/
def Walk.left (L : Layout K) (maxEntries : Nat) (w : Walk K V) : Nat :=
  (L.buckets - w.cursor) + (maxEntries - w.size)

theorem walkInv_start (L : Layout K) (drain : Bool) (world : Nat → Store K V) :
    WalkInv L drain world {} where
  hcursor := Nat.zero_le _
  hsize := by
    show 0 < 256 ∧ 256 ≤ 2 ^ 31
    decide
  hbelow := by simp [Walk.keys]
  hnodup := by simp [Walk.keys]
  hvalues := by simp
  hremoved := by cases drain <;> simp [Walk.keys]
  hcomplete := by simp [Walk.cursor]

namespace WalkInv

variable {L : Layout K} {drain : Bool} {world : Nat → Store K V} {w : Walk K V}

/-- The buffer doubles, and the same call is made again. -/
theorem grow {token : Nat} {removed : List K} (h : WalkInv L drain world w)
    (hsize : w.size < 2 ^ 30) (hremoved : removed = []) :
    WalkInv L drain world { w with
      outBatch := token, calls := w.calls + 1, removed := w.removed ++ removed,
      size := w.size * 2 } where
  hcursor := h.hcursor
  hsize := by
    have hold := h.hsize
    constructor
    · show 0 < w.size * 2
      omega
    · show w.size * 2 ≤ 2 ^ 31
      omega
  hbelow := h.hbelow
  hnodup := h.hnodup
  hvalues := h.hvalues
  hremoved := by
    rw [hremoved, List.append_nil]
    exact h.hremoved
  hcomplete := fun k hk => h.hcomplete k fun i hi => hk i (Nat.lt_succ_of_lt hi)

/-- A batch with the contents of the buckets from the cursor up to `next`. -/
theorem pass {w' : Walk K V} {next : Nat} (h : WalkInv L drain world w)
    (hnext : w.cursor ≤ next) (hbuckets : next ≤ L.buckets)
    (hcursor : w'.cursor = next) (hsize : w'.size = w.size) (hcalls : w'.calls = w.calls + 1)
    (hdelivered : w'.delivered = w.delivered ++ [{
      call := w.calls
      keys := (L.span (world w.calls) w.cursor next).map Prod.fst
      values := (L.span (world w.calls) w.cursor next).map Prod.snd }])
    (hremoved : w'.removed = w.removed ++ removedBy (world w.calls)
      (if drain then Store.eraseAll (world w.calls)
        ((L.span (world w.calls) w.cursor next).map Prod.fst) else world w.calls)) :
    WalkInv L drain world w' := by
  have hkeys : w'.keys = w.keys ++ (L.span (world w.calls) w.cursor next).map Prod.fst := by
    simp [Walk.keys, hdelivered]
  constructor
  · rw [hcursor]
    exact hbuckets
  · rw [hsize]
    exact h.hsize
  · intro k hk
    rw [hkeys, List.mem_append] at hk
    rw [hcursor]
    rcases hk with hk | hk
    · exact lt_of_lt_of_le (h.hbelow k hk) hnext
    · exact (mem_span_keys.mp hk).2.2
  · rw [hkeys]
    refine List.nodup_append.mpr ⟨h.hnodup, Layout.span_keys_nodup _ _, ?_⟩
    -- old keys lie below the cursor, new ones do not
    rintro k hk k' hk' rfl
    have hbelow := h.hbelow k hk
    have habove := (mem_span_keys.mp hk').2.1
    omega
  · intro d hd
    rw [hdelivered, List.mem_append] at hd
    rcases hd with hd | hd
    · exact h.hvalues d hd
    · obtain rfl := List.mem_singleton.mp hd
      refine ⟨by simp, ?_⟩
      intro e he
      rw [← List.zip_of_prod rfl rfl] at he
      exact lookup_of_mem_span he
  · rw [hremoved, hkeys]
    cases drain with
    | true => simpa using h.hremoved.append removedBy_eraseAll_span
    | false => simpa [removedBy_self] using h.hremoved
  · intro k hk hbelow
    rw [hcalls] at hk
    rw [hcursor] at hbelow
    rw [hkeys, List.mem_append]
    by_cases hold : L.bucketOf k < w.cursor
    · exact Or.inl (h.hcomplete k (fun i hi => hk i (Nat.lt_succ_of_lt hi)) hold)
    · exact Or.inr (mem_span_keys.mpr ⟨hk _ (Nat.lt_succ_self _), by omega, hbelow⟩)

/-- What one turn without an error does: the walk ends past the last bucket,
or it goes on with less left to do. -/
theorem turn {maxEntries : Nat} (h : WalkInv L drain world w) (hmax : maxEntries ≤ 2 ^ 30)
    (hentries : (world w.calls).entries.length ≤ maxEntries) :
    (∃ w', w.turn L drain false (world w.calls) = (w', some true) ∧
        WalkInv L drain world { w' with inBatch := L.buckets, first := false }) ∨
      ∃ w', w.turn L drain false (world w.calls) = (w', none) ∧
        WalkInv L drain world w' ∧ w'.left L maxEntries < w.left L maxEntries := by
  have hsize := h.hsize
  have hcount : w.size % 2 ^ 32 = w.size := Nat.mod_eq_of_lt (by omega)
  have hreply : ∀ batch, L.scan (world w.calls) w.cursor w.size = batch →
      w.turn L drain false (world w.calls) = w.settle (world w.calls) {
        keys := batch.entries.map Prod.fst
        values := batch.entries.map Prod.snd
        token := batch.next
        status := batch.status
        after := if drain then Store.eraseAll (world w.calls) (batch.entries.map Prod.fst)
          else world w.calls } := by
    rintro batch rfl
    rw [← hcount]
    rfl
  rcases Layout.scan_cases _ h.hcursor with
    hscan | ⟨next, hlt, hbuckets, hscan⟩ | ⟨next, hbuckets, hfull, hscan⟩
  · left
    refine ⟨_, hreply _ hscan, ?_⟩
    exact h.pass h.hcursor le_rfl rfl rfl rfl rfl rfl
  · right
    refine ⟨_, hreply _ hscan, ?_, ?_⟩
    · exact h.pass hlt.le hbuckets.le rfl rfl rfl rfl rfl
    · show L.buckets - next + (maxEntries - w.size) < L.buckets - w.cursor + (maxEntries - w.size)
      omega
  · right
    -- the bucket that does not fit is within the map's limit
    have hlength : (L.bucket (world w.calls) next).length ≤ (world w.calls).entries.length :=
      Layout.bucket_length_le next
    refine ⟨_, hreply _ hscan, ?_, ?_⟩
    · refine h.grow (by omega) ?_
      cases drain <;> exact removedBy_self
    · show L.buckets - w.cursor + (maxEntries - w.size * 2) <
        L.buckets - w.cursor + (maxEntries - w.size)
      omega

end WalkInv

/-- Within its bound, the loop returns true. -/
theorem batchLoop_returns {L : Layout K} {drain : Bool} {world : Nat → Store K V}
    {maxEntries : Nat} (hmax : maxEntries ≤ 2 ^ 30)
    (hentries : ∀ i, (world i).entries.length ≤ maxEntries) (bound : Nat) (w : Walk K V)
    (h : WalkInv L drain world w) (hleft : w.left L maxEntries ≤ bound) :
    ∃ w', (∀ fuel, bound < fuel →
        batchLoop L drain world (fun _ => false) fuel w = some (true, w')) ∧
      WalkInv L drain world { w' with inBatch := L.buckets, first := false } := by
  -- on the bound, which the turns left stay below
  induction bound using Nat.strong_induction_on generalizing w with
  | _ bound ih =>
      rcases h.turn hmax (hentries w.calls) with ⟨w', hturn, hinv⟩ | ⟨w', hturn, hinv, hlt⟩
      · refine ⟨w', ?_, hinv⟩
        intro fuel hfuel
        obtain ⟨fuel, rfl⟩ := Nat.exists_eq_succ_of_ne_zero (by omega : fuel ≠ 0)
        simp only [batchLoop, hturn]
      · obtain ⟨w'', hloop, hend⟩ := ih (bound - 1) (by omega) w' hinv (by omega)
        refine ⟨w'', ?_, hend⟩
        intro fuel hfuel
        obtain ⟨fuel, rfl⟩ := Nat.exists_eq_succ_of_ne_zero (by omega : fuel ≠ 0)
        simp only [batchLoop, hturn]
        exact hloop fuel (by omega)

/-- The batched walk ends and returns true; it hands over no key twice, every
key that is in the map at each call until it is handed over exactly once, and
with each key the value the map held at that call; and what a drain removes is
what it hands over.  The maps of the agent hold at most `2 ^ 30` entries, the
limit of the option `max_flows`. -/
theorem batch_walk_visits_stable_keys (L : Layout K) (drain : Bool) (world : Nat → Store K V)
    {maxEntries : Nat} (hmax : maxEntries ≤ 2 ^ 30)
    (hentries : ∀ i, (world i).entries.length ≤ maxEntries) :
    ∃ w, (∀ fuel, L.buckets + maxEntries < fuel →
        batchLoop L drain world (fun _ => false) fuel {} = some (true, w)) ∧
      w.keys.Nodup ∧
      (∀ k, (∀ i < w.calls, (∃ d ∈ w.delivered, d.call < i ∧ k ∈ d.keys) ∨ k ∈ world i) →
        w.keys.count k = 1) ∧
      (∀ d ∈ w.delivered, d.keys.length = d.values.length ∧
        ∀ e ∈ d.keys.zip d.values, (world d.call).lookup e.1 = some e.2) ∧
      w.removed.Perm (if drain then w.keys else []) := by
  obtain ⟨w, hloop, hinv⟩ := batchLoop_returns hmax hentries (L.buckets + maxEntries) {}
    (walkInv_start L drain world) (by simp [Walk.left, Walk.cursor])
  refine ⟨w, hloop, hinv.hnodup, ?_, hinv.hvalues, hinv.hremoved⟩
  intro k hk
  apply List.count_eq_one_of_mem hinv.hnodup
  by_contra hnot
  -- a key never handed over was in the map at every call
  refine hnot (hinv.hcomplete k ?_ (L.hlt k))
  intro i hi
  rcases hk i hi with ⟨d, hd, -, hkey⟩ | hmem
  · exact absurd (List.mem_flatMap.mpr ⟨d, hd, hkey⟩) hnot
  · exact hmem

/-- Two buckets, for even and odd keys. -/
def parityLayout : Layout Nat where
  buckets := 2
  bucketOf := fun k => k % 2
  hlt := fun k => Nat.mod_lt k (by decide)

/-- An even key and 257 odd ones; in front of the third call only 603 is left
beside the even one. -/
def parityWorld (i : Nat) : Store Nat Nat :=
  if i < 2 then
    (List.range 257).foldl (fun m k => m.insert (2 * k + 1) i) ((∅ : Store Nat Nat).insert 2 i)
  else ((∅ : Store Nat Nat).insert 2 i).insert 603 i

theorem parityWorld_mem (i : Nat) : (parityWorld i).entries.length ≤ 258 ∧ 2 ∈ parityWorld i := by
  unfold parityWorld
  split
  · suffices h : ∀ n : Nat,
        let m := (List.range n).foldl (fun m k => m.insert (2 * k + 1) i)
          ((∅ : Store Nat Nat).insert 2 i)
        m.entries.length ≤ n + 1 ∧ 2 ∈ m from h 257
    intro n
    induction n with
    | zero => exact ⟨Nat.le_refl 1, AList.mem_insert ∅ |>.mpr (Or.inl rfl)⟩
    | succ n ih =>
        rw [List.range_succ, List.foldl_append, List.foldl_cons, List.foldl_nil]
        refine ⟨?_, (AList.mem_insert _).mpr (Or.inr ih.2)⟩
        rw [Store.entries_insert_erase, List.length_cons]
        exact Nat.succ_le_succ ((List.kerase_sublist _ _).length_le.trans ih.1)
  · exact ⟨Nat.le_of_ble_eq_true rfl,
      (AList.mem_insert _).mpr (Or.inr ((AList.mem_insert _).mpr (Or.inl rfl)))⟩

/-- The odd keys fit neither beside the even one nor into the first buffer: the
loop makes three calls. -/
theorem batch_walk_visits_stable_keys_demo :
    ∃ w, batchLoop parityLayout true parityWorld (fun _ => false) 300 {} = some (true, w) ∧
      w.calls = 3 ∧ w.size = 512 ∧ w.keys.count 2 = 1 := by
  obtain ⟨w, hloop, -, hstable, -⟩ :=
    batch_walk_visits_stable_keys parityLayout true parityWorld (by decide) fun i =>
      (parityWorld_mem i).1
  have hrun : (batchLoop parityLayout true parityWorld (fun _ => false) 300 {}).map
      (fun p => (p.2.calls, p.2.size)) = some (3, 512) := by
    decide +kernel
  rw [hloop 300 (by decide), Option.map_some, Option.some.injEq, Prod.mk.injEq] at hrun
  refine ⟨w, hloop 300 (by decide), hrun.1, hrun.2, ?_⟩
  -- handed over by the first call, and in the map at every call anyway
  exact hstable 2 fun i _ => Or.inr (parityWorld_mem i).2

/-! ## The walk as its replies -/

/-- What a walk has collected, as `batch_read` does. -/
def Walk.entries (w : Walk K V) : List (K × V) :=
  w.delivered.flatMap fun d => d.keys.zip d.values

/-- One turn: what it hands over are current entries of the map, each once, and
a drain has taken exactly these out of the map. -/
theorem Walk.turn_takes (L : Layout K) (drain fault : Bool) (m : Store K V) (w : Walk K V) :
    ∃ taken : List (K × V), (taken.map Prod.fst).Nodup ∧
      (∀ e ∈ taken, m.lookup e.1 = some e.2) ∧
      (w.turn L drain fault m).1.entries = w.entries ++ taken ∧
      (if fault then m else (w.reply L drain m).after) =
        if drain then Store.eraseAll m (taken.map Prod.fst) else m := by
  cases fault with
  | true => exact ⟨[], by simp, by simp, by simp [Walk.turn, Walk.entries], by cases drain <;> rfl⟩
  | false =>
      obtain ⟨⟨stop, hspan⟩, hnone⟩ :=
        Layout.scan_span (L := L) (m := m) w.cursor (w.size % 2 ^ 32)
      refine ⟨(L.scan m w.cursor (w.size % 2 ^ 32)).entries, ?_, ?_, ?_, rfl⟩
      · rw [hspan]
        exact Layout.span_keys_nodup _ _
      · rw [hspan]
        exact fun e he => lookup_of_mem_span he
      · simp only [Walk.turn, Walk.settle, Walk.reply, batchCall, Bool.false_eq_true, if_false]
        generalize L.scan m w.cursor (w.size % 2 ^ 32) = batch at hnone ⊢
        have hzip : (batch.entries.map Prod.fst).zip (batch.entries.map Prod.snd) =
            batch.entries := (List.zip_of_prod rfl rfl).symm
        cases hstatus : batch.status with
        | noSpace => simp [Walk.entries, Walk.called, hnone hstatus]
        | last => simp [Walk.entries, Walk.called, Walk.deliver, hzip]
        | more => simp [Walk.entries, Walk.called, Walk.deliver, hzip]

/-- One turn without an error hands over the buckets from the cursor up to the
next cursor, or all that are left. -/
theorem Walk.turn_spans {L : Layout K} (drain : Bool) (m : Store K V) {w : Walk K V}
    (hcursor : w.cursor ≤ L.buckets) :
    ∃ next, w.cursor ≤ next ∧ next ≤ L.buckets ∧
      (w.turn L drain false m).1.entries = w.entries ++ L.span m w.cursor next ∧
      ((w.turn L drain false m).2 = none ∧ (w.turn L drain false m).1.cursor = next ∨
        (w.turn L drain false m).2 = some true ∧ next = L.buckets) := by
  have hzip : ∀ l : List (K × V), (l.map Prod.fst).zip (l.map Prod.snd) = l := fun l =>
    (List.zip_of_prod rfl rfl).symm
  simp only [Walk.turn, Walk.settle, Walk.reply, batchCall, Bool.false_eq_true, if_false]
  have hcases := Layout.scan_cases (m := m) (w.size % 2 ^ 32) hcursor
  generalize L.scan m w.cursor (w.size % 2 ^ 32) = batch at hcases ⊢
  rcases hcases with rfl | ⟨next, hlt, hbuckets, rfl⟩ | ⟨-, -, -, rfl⟩
  · exact ⟨L.buckets, hcursor, le_rfl, by simp [Walk.entries, Walk.called, Walk.deliver, hzip],
      Or.inr ⟨rfl, rfl⟩⟩
  · exact ⟨next, hlt.le, hbuckets.le, by simp [Walk.entries, Walk.called, Walk.deliver, hzip],
      Or.inl ⟨rfl, rfl⟩⟩
  · exact ⟨w.cursor, le_rfl, hcursor, by simp [Walk.entries, Walk.called], Or.inl ⟨rfl, rfl⟩⟩

/-- A walk that returns is the walk over the list of its replies. -/
theorem batchLoop_refines {L : Layout K} {drain : Bool} {world : Nat → Store K V}
    {fault : Nat → Bool} {fuel : Nat} {w w' : Walk K V} {ok : Bool}
    (hloop : batchLoop L drain world fault fuel w = some (ok, w')) :
    ∃ replies walk, batchWalk replies = some (walk, ok) ∧ w'.entries = w.entries ++ walk := by
  induction fuel generalizing w with
  | zero => simp [batchLoop] at hloop
  | succ fuel ih =>
      cases hfault : fault w.calls with
      | true =>
          simp only [batchLoop, Walk.turn, hfault, if_true, Option.some.injEq,
            Prod.mk.injEq] at hloop
          obtain ⟨rfl, rfl⟩ := hloop
          exact ⟨[.error], [], rfl, by simp [Walk.entries]⟩
      | false =>
          simp only [batchLoop, Walk.turn, hfault, Walk.settle, Bool.false_eq_true,
            if_false] at hloop
          generalize w.reply L drain (world w.calls) = r at hloop
          cases hstatus : r.status with
          | noSpace =>
              simp only [hstatus] at hloop
              obtain ⟨replies, walk, hwalk, hentries⟩ := ih hloop
              exact ⟨.noSpace :: replies, walk, hwalk, hentries⟩
          | last =>
              simp only [hstatus, Option.some.injEq, Prod.mk.injEq] at hloop
              obtain ⟨rfl, rfl⟩ := hloop
              exact ⟨[.last (r.keys.zip r.values)], _, rfl,
                by simp [Walk.entries, Walk.deliver, Walk.called]⟩
          | more =>
              simp only [hstatus] at hloop
              obtain ⟨replies, walk, hwalk, hentries⟩ := ih hloop
              refine ⟨.more (r.keys.zip r.values) :: replies, r.keys.zip r.values ++ walk,
                by simp [batchWalk, hwalk], ?_⟩
              rw [hentries]
              simp [Walk.entries, Walk.deliver, Walk.called]

end Agent
end Obserwrt
