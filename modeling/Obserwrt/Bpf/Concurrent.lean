import Obserwrt.Bpf.Accounting

/-!
# The flow update under concurrency

`observe` on several CPUs at once.  The counters a program run writes before
the flow map are its CPU's own, so that part is one step; the flow update is
taken apart into the helper calls and memory accesses it consists of, and
steps of different CPUs interleave freely.  The map has room: nothing is
evicted or deleted, and updates succeed.
-/

namespace Obserwrt
namespace Bpf

open Lib

variable {ncpu : Nat}

/-! ## The machine -/

/-- The accesses of the branch that found an entry, in program order.  The
union of the flags is a load and a store, not an atomic operation. -/
inductive AddStage
  | packets
  | bytes
  | loadFlags
  | storeFlags (flags : UInt16)
  | lastSeen
  deriving DecidableEq

/-- Where a CPU stands in the flow update of its packet. -/
inductive Progress
  | idle
  | lookup (key : FlowKey) (u : FlowUpdate)
  | found (key : FlowKey) (gen : Nat) (u : FlowUpdate) (stage : AddStage)
  | missed (key : FlowKey) (u : FlowUpdate)
  | created
  deriving DecidableEq

/-- The maps, and where each CPU stands.  A whole-entry update links a new
element in place of the old one: `gen` counts the elements a key has had, so
that a pointer is a key with the count at its lookup. -/
structure Machine (ncpu : Nat) where
  maps : Maps ncpu
  gen : FlowKey → Nat
  cpus : Fin ncpu → Progress

/-- A packet arrives on an idle CPU, or a CPU takes its next step. -/
inductive Action (ncpu : Nat)
  | start (cpu : Fin ncpu) (hook : Hook) (skb : SkBuff)
  | step (cpu : Fin ncpu) (now : UInt64)

/-- No packet yet, and nothing in the maps. -/
def Machine.empty (ncpu devCapacity : Nat) : Machine ncpu where
  maps := Maps.empty ncpu devCapacity
  gen := fun _ => 0
  cpus := fun _ => .idle

namespace Machine

/-- `observe` up to the lookup in the flow map. -/
def start (s : Machine ncpu) (cpu : Fin ncpu) (hook : Hook) (skb : SkBuff) : Machine ncpu :=
  let m := countSeen { cpu := cpu, now := 0 } hook skb s.maps
  match parse hook.eth skb.data with
  | none => { s with maps := m }
  | some p =>
      { s with
        maps := statAdd cpu .parsed (segsOf skb).toUInt64 m
        cpus := Function.update s.cpus cpu
          (.lookup (flowKey skb hook.direction p) (flowUpdate hook skb p)) }

/-- Write to the element a pointer stands for.  When the element has been
replaced, it is no longer in the map. -/
def write (s : Machine ncpu) (key : FlowKey) (gen : Nat) (f : FlowVal → FlowVal) : FlowTable :=
  if s.gen key = gen then
    (s.maps.flows.lookup key).elim s.maps.flows fun v => s.maps.flows.insert key (f v)
  else
    s.maps.flows

/-- The state after a step that leaves the counters alone. -/
def put (s : Machine ncpu) (cpu : Fin ncpu) (flows : FlowTable) (p : Progress) : Machine ncpu :=
  { s with maps := { s.maps with flows := flows }, cpus := Function.update s.cpus cpu p }

/-- One access of the branch that found an entry. -/
def access (s : Machine ncpu) (cpu : Fin ncpu) (now : UInt64) (key : FlowKey) (gen : Nat)
    (u : FlowUpdate) : AddStage → Machine ncpu
  | .packets =>
      s.put cpu (s.write key gen fun v => { v with packets := v.packets + u.segs.toUInt64 })
        (.found key gen u .bytes)
  | .bytes =>
      s.put cpu (s.write key gen fun v => { v with bytes := v.bytes + u.l3len.toUInt64 })
        (.found key gen u .loadFlags)
  -- what is read off a replaced element is stored nowhere but there
  | .loadFlags =>
      s.put cpu s.maps.flows
        (.found key gen u (.storeFlags ((s.maps.flows.lookup key).elim 0 FlowVal.tcpFlags)))
  | .storeFlags flags =>
      s.put cpu (s.write key gen fun v => { v with tcpFlags := flags ||| u.tcpf.toUInt16 })
        (.found key gen u .lastSeen)
  | .lastSeen => s.put cpu (s.write key gen fun v => { v with lastSeen := now }) .idle

/-- The next step of a CPU. -/
def advance (s : Machine ncpu) (cpu : Fin ncpu) (now : UInt64) : Machine ncpu :=
  match s.cpus cpu with
  | .idle => s
  | .lookup key u =>
      s.put cpu s.maps.flows
        ((s.maps.flows.lookup key).elim (.missed key u) fun _ => .found key (s.gen key) u .packets)
  | .found key gen u stage => s.access cpu now key gen u stage
  -- `BPF_ANY`: an entry that is there by now is replaced
  | .missed key u =>
      { s.put cpu (s.maps.flows.insert key (u.create now)) .created with
        gen := Function.update s.gen key (s.gen key + 1) }
  | .created =>
      { s with
        maps := statAdd cpu .flowsCreated 1 s.maps
        cpus := Function.update s.cpus cpu .idle }

/-- One action. -/
def act (s : Machine ncpu) : Action ncpu → Machine ncpu
  | .start cpu hook skb => s.start cpu hook skb
  | .step cpu now => s.advance cpu now

/-- A packet waits for its CPU to finish the one before. -/
def Enabled (s : Machine ncpu) : Action ncpu → Prop
  | .start cpu _ _ => s.cpus cpu = .idle
  | .step cpu _ => s.cpus cpu ≠ .idle

/-- A whole-entry update made now would replace no entry. -/
def Clear (flows : FlowTable) : Progress → Prop
  | .missed key _ => flows.lookup key = none
  | _ => True

/-- The step replaces no entry: if it is a whole-entry update, its key is still
not in the map. -/
def NoOverwrite (s : Machine ncpu) : Action ncpu → Prop
  | .start _ _ _ => True
  | .step cpu _ => Clear s.maps.flows (s.cpus cpu)

instance (s : Machine ncpu) (a : Action ncpu) : Decidable (s.Enabled a) :=
  match a with
  | .start cpu _ _ => inferInstanceAs (Decidable (s.cpus cpu = .idle))
  | .step cpu _ => inferInstanceAs (Decidable (s.cpus cpu ≠ .idle))

instance (flows : FlowTable) (p : Progress) : Decidable (Clear flows p) :=
  match p with
  | .missed key _ => inferInstanceAs (Decidable (flows.lookup key = none))
  | .idle => isTrue trivial
  | .lookup _ _ => isTrue trivial
  | .found _ _ _ _ => isTrue trivial
  | .created => isTrue trivial

instance (s : Machine ncpu) (a : Action ncpu) : Decidable (s.NoOverwrite a) :=
  match a with
  | .start _ _ _ => isTrue trivial
  | .step cpu _ => inferInstanceAs (Decidable (Clear s.maps.flows (s.cpus cpu)))

end Machine

/-- The packets of a history; the time of the run plays no part in the sums. -/
def startsOf (history : List (Action ncpu)) : List (Seen ncpu) :=
  history.filterMap fun a =>
    match a with
    | .start cpu hook skb => some ⟨cpu, 0, hook, skb⟩
    | .step _ _ => none

/-- Nothing is lost: every entry holds the sums over its packets, every packet
is in an entry, and the two counters agree with the map. -/
structure Exact (ps : List (Seen ncpu)) (m : Maps ncpu) : Prop where
  hkeys : ∀ k, updatesOf k ps ≠ [] → (m.flows.lookup k).isSome
  hsums : ∀ k v, m.flows.lookup k = some v → ∀ c : Counter,
    c.ofVal v = UInt64.ofNat (sumOf (fun u => c.ofUpdate u.1) (updatesOf k ps))
  hparsed : Store.total (fun _ v => v.packets) m.flows = statTotal m .parsed
  hcreated : UInt64.ofNat m.flows.entries.length = statTotal m .flowsCreated

/-! ## One CPU alone -/

namespace Machine

variable (s : Machine ncpu) (cpu : Fin ncpu) (flows : FlowTable) (p : Progress)

@[simp] theorem put_flows : (s.put cpu flows p).maps.flows = flows := rfl

@[simp] theorem put_gen : (s.put cpu flows p).gen = s.gen := rfl

@[simp] theorem put_cpus : (s.put cpu flows p).cpus cpu = p := by
  simp [put]

@[simp] theorem put_put (flows' : FlowTable) (p' : Progress) :
    (s.put cpu flows p).put cpu flows' p' = s.put cpu flows' p' := by
  simp [put]

end Machine

/-- The steps of one CPU with no other in between. -/
def solo (cpu : Fin ncpu) (now : UInt64) : Nat → Machine ncpu → Machine ncpu
  | 0, s => s
  | n + 1, s => solo cpu now n (s.advance cpu now)

theorem advance_put_found {s : Machine ncpu} {cpu : Fin ncpu} {flows : FlowTable} {key : FlowKey}
    {u : FlowUpdate} {stage : AddStage} {v : FlowVal} (now : UInt64)
    (hlookup : flows.lookup key = some v) :
    (s.put cpu flows (.found key (s.gen key) u stage)).advance cpu now =
      match stage with
      | .packets => s.put cpu (flows.insert key { v with packets := v.packets + u.segs.toUInt64 })
          (.found key (s.gen key) u .bytes)
      | .bytes => s.put cpu (flows.insert key { v with bytes := v.bytes + u.l3len.toUInt64 })
          (.found key (s.gen key) u .loadFlags)
      | .loadFlags => s.put cpu flows (.found key (s.gen key) u (.storeFlags v.tcpFlags))
      | .storeFlags flags =>
          s.put cpu (flows.insert key { v with tcpFlags := flags ||| u.tcpf.toUInt16 })
            (.found key (s.gen key) u .lastSeen)
      | .lastSeen => s.put cpu (flows.insert key { v with lastSeen := now }) .idle := by
  cases stage <;> simp [Machine.advance, Machine.access, Machine.write, hlookup]

theorem solo_hit {s : Machine ncpu} {cpu : Fin ncpu} {key : FlowKey} {u : FlowUpdate}
    {v : FlowVal} (now : UInt64) (hcpu : s.cpus cpu = .lookup key u)
    (hlookup : s.maps.flows.lookup key = some v) :
    solo cpu now 6 s = s.put cpu (s.maps.flows.insert key (u.apply now v)) .idle := by
  have hfirst : s.advance cpu now =
      s.put cpu s.maps.flows (.found key (s.gen key) u .packets) := by
    simp [Machine.advance, hcpu, hlookup]
  have hentry : ∀ w, (s.maps.flows.insert key w).lookup key = some w := fun w =>
    AList.lookup_insert _
  simp only [solo, hfirst, advance_put_found now hlookup, advance_put_found now (hentry _),
    AList.insert_insert]
  rfl

theorem solo_miss {s : Machine ncpu} {cpu : Fin ncpu} {key : FlowKey} {u : FlowUpdate}
    (now : UInt64) (hcpu : s.cpus cpu = .lookup key u) (hlookup : s.maps.flows.lookup key = none) :
    (solo cpu now 3 s).maps = statAdd cpu .flowsCreated 1
        { s.maps with flows := s.maps.flows.insert key (u.create now) } ∧
      (solo cpu now 3 s).cpus cpu = .idle := by
  have hfirst : s.advance cpu now = s.put cpu s.maps.flows (.missed key u) := by
    simp [Machine.advance, hcpu, hlookup]
  have hsecond : (s.put cpu s.maps.flows (.missed key u)).advance cpu now =
      { s.put cpu (s.maps.flows.insert key (u.create now)) .created with
        gen := Function.update s.gen key (s.gen key + 1) } := by
    simp [Machine.advance]
  simp only [solo, hfirst, hsecond]
  constructor
  · simp [Machine.advance, Machine.put]
  · simp [Machine.advance, Machine.put]

/-- Without interleaving, the steps are `observe`. -/
theorem solo_eq_observe (s : Machine ncpu) (cpu : Fin ncpu) (hook : Hook) (skb : SkBuff)
    (now : UInt64) (hidle : s.cpus cpu = .idle) :
    ∃ n, (solo cpu now n (s.start cpu hook skb)).maps =
        observe { cpu := cpu, now := now } hook skb s.maps ∧
      (solo cpu now n (s.start cpu hook skb)).cpus cpu = .idle := by
  have hseen : countSeen { cpu := cpu, now := 0 } hook skb s.maps =
      countSeen { cpu := cpu, now := now } hook skb s.maps := rfl
  unfold Machine.start observe
  rw [hseen]
  cases hparse : parse hook.eth skb.data with
  | none => exact ⟨0, rfl, hidle⟩
  | some p =>
      simp only
      set m := statAdd cpu .parsed (segsOf skb).toUInt64
        (countSeen { cpu := cpu, now := now } hook skb s.maps) with hm
      have hcpu : Machine.cpus ⟨m, s.gen, Function.update s.cpus cpu
          (.lookup (flowKey skb hook.direction p) (flowUpdate hook skb p))⟩ cpu =
            .lookup (flowKey skb hook.direction p) (flowUpdate hook skb p) :=
        Function.update_self ..
      cases hlookup : m.flows.lookup (flowKey skb hook.direction p) with
      | none =>
          obtain ⟨hmaps, hdone⟩ := solo_miss now hcpu hlookup
          refine ⟨3, ?_, hdone⟩
          rw [hmaps]
          simp [accountFlow, hlookup, Store.eraseAll]
      | some v =>
          refine ⟨6, ?_, ?_⟩
          · rw [solo_hit now hcpu hlookup]
            simp [accountFlow, hlookup, Machine.put]
          · rw [solo_hit now hcpu hlookup, Machine.put_cpus]

/-! ## What is in flight -/

namespace Progress

/-- The flow a CPU is accounting a packet to. -/
def key? : Progress → Option FlowKey
  | .lookup key _ => some key
  | .found key _ _ _ => some key
  | .missed key _ => some key
  | _ => none

/-- What a CPU has still to add to its flow. -/
def owes (c : Counter) : Progress → UInt64
  | .lookup _ u => (c.ofUpdate u).toUInt64
  | .missed _ u => (c.ofUpdate u).toUInt64
  | .found _ _ u .packets => (c.ofUpdate u).toUInt64
  | .found _ _ u .bytes => match c with
    | .packets => 0
    | .bytes => u.l3len.toUInt64
  | _ => 0

/-- What a CPU has still to add to the flow `k`. -/
def owesTo (c : Counter) (k : FlowKey) (p : Progress) : UInt64 :=
  if p.key? = some k then p.owes c else 0

/-- The creation a CPU has still to count. -/
def owesCreated : Progress → UInt64
  | .created => 1
  | _ => 0

/-- The packet is not in any entry yet. -/
def Homeless (k : FlowKey) : Progress → Prop
  | .lookup key _ => key = k
  | .missed key _ => key = k
  | _ => False

end Progress

/-- A counter of the flow `k`, zero when there is no entry. -/
def heldBy (flows : FlowTable) (c : Counter) (k : FlowKey) : UInt64 :=
  (flows.lookup k).elim 0 c.ofVal

/-- Moving one CPU moves one term of a sum over the CPUs. -/
theorem sum_update_progress (w : Progress → UInt64) (cpus : Fin ncpu → Progress) (cpu : Fin ncpu)
    (p : Progress) :
    ∑ i, w (Function.update cpus cpu p i) + w (cpus cpu) = ∑ i, w (cpus i) + w p := by
  have hcomp : ∀ i, w (Function.update cpus cpu p i) =
      Function.update (fun i => w (cpus i)) cpu (w p) i := by
    intro i
    exact Function.apply_update (fun _ => w) cpus cpu p i
  simp only [hcomp]
  rw [Finset.sum_update_of_mem (Finset.mem_univ cpu), ← Finset.add_sum_erase _ _
    (Finset.mem_univ cpu), Finset.sdiff_singleton_eq_erase]
  ac_rfl

theorem heldBy_insert (flows : FlowTable) (key : FlowKey) (w : FlowVal) (c : Counter)
    (k : FlowKey) :
    heldBy (flows.insert key w) c k = if k = key then c.ofVal w else heldBy flows c k := by
  rw [heldBy, Store.lookup_insert_eq]
  split
  · rfl
  · rfl

/-- An insertion, of a new entry or over an old one, moves the total. -/
theorem total_insert (flows : FlowTable) (key : FlowKey) (w : FlowVal) :
    Store.total (fun _ v => v.packets) (flows.insert key w) + heldBy flows .packets key =
      Store.total (fun _ v => v.packets) flows + w.packets := by
  cases hlookup : flows.lookup key with
  | none =>
      rw [Store.total_insert_of_lookup_none _ hlookup, heldBy, hlookup, Option.elim_none, add_zero,
        add_comm]
  | some v =>
      have hinsert := Store.total_insert_of_lookup_some
        (fun (_ : FlowKey) (v : FlowVal) => v.packets) w hlookup
      have hheld : heldBy flows .packets key = v.packets := by
        rw [heldBy, hlookup]
        rfl
      rw [hheld]
      exact hinsert

theorem isSome_lookup_insert {flows : FlowTable} {key k : FlowKey} {w : FlowVal}
    (h : (flows.lookup k).isSome) : ((flows.insert key w).lookup k).isSome := by
  rw [Store.lookup_insert_eq]
  split
  · rfl
  · exact h

namespace Progress

/-- The progress concerns the flow `key`, or there is nothing left to add. -/
def For (key : FlowKey) (p : Progress) : Prop :=
  p.key? = some key ∨ ∀ c, p.owes c = 0

theorem For.owesTo_eq {key : FlowKey} {p : Progress} (h : p.For key) (c : Counter) (k : FlowKey) :
    p.owesTo c k = if k = key then p.owes c else 0 := by
  rcases h with hkey | hzero
  · simp only [owesTo, hkey, Option.some.injEq, eq_comm]
  · simp [owesTo, hzero]

theorem Homeless.key?_eq {k : FlowKey} {p : Progress} (h : p.Homeless k) : p.key? = some k := by
  cases p with
  | lookup key u => exact congrArg some h
  | missed key u => exact congrArg some h
  | idle => exact h.elim
  | found key gen u stage => exact h.elim
  | created => exact h.elim

end Progress

/-- Entries and owed amounts change together: nothing is lost on the way from
the CPU to the map. -/
structure Balanced (flows flows' : FlowTable) (p p' : Progress) : Prop where
  hheld : ∀ c k, heldBy flows' c k + p'.owesTo c k = heldBy flows c k + p.owesTo c k
  htotal : Store.total (fun _ v => v.packets) flows' + p'.owes .packets =
    Store.total (fun _ v => v.packets) flows + p.owes .packets
  hgrow : ∀ k, (flows.lookup k).isSome → (flows'.lookup k).isSome
  hhome : ∀ k, p.Homeless k → (flows'.lookup k).isSome ∨ p'.Homeless k

/-- An insertion is balanced when it changes its entry by what is no longer
owed. -/
theorem Balanced.insert {flows : FlowTable} {key : FlowKey} {w : FlowVal} {p p' : Progress}
    (hfor : p.key? = some key) (hfor' : p'.For key)
    (hmove : ∀ c : Counter, c.ofVal w + p'.owes c = heldBy flows c key + p.owes c) :
    Balanced flows (flows.insert key w) p p' where
  hheld := by
    intro c k
    rw [heldBy_insert, hfor'.owesTo_eq c k, Progress.For.owesTo_eq (Or.inl hfor) c k]
    by_cases hk : k = key
    · subst hk
      simp only [if_true]
      exact hmove c
    · simp [hk]
  htotal := by
    have htotal := total_insert flows key w
    have hpackets : w.packets + p'.owes .packets = heldBy flows .packets key + p.owes .packets :=
      hmove .packets
    -- cancel what the entry held before
    apply add_right_cancel (b := heldBy flows .packets key)
    calc
      _ = Store.total (fun _ v => v.packets) (flows.insert key w) + heldBy flows .packets key +
          p'.owes .packets := add_right_comm _ _ _
      _ = Store.total (fun _ v => v.packets) flows + (w.packets + p'.owes .packets) := by
          rw [htotal, add_assoc]
      _ = _ := by
          rw [hpackets]
          ac_rfl
  hgrow := fun _ h => isSome_lookup_insert h
  hhome := by
    intro k hk
    left
    obtain rfl : key = k := by simpa [hfor] using hk.key?_eq
    simp

/-- A step that only looks is balanced when it owes the same afterwards. -/
theorem Balanced.same {flows : FlowTable} {p p' : Progress} (hkey : p'.key? = p.key?)
    (howes : ∀ c, p'.owes c = p.owes c)
    (hhome : ∀ k, p.Homeless k → (flows.lookup k).isSome ∨ p'.Homeless k) :
    Balanced flows flows p p' where
  hheld := by
    intro c k
    simp only [Progress.owesTo, hkey, howes]
  htotal := by rw [howes]
  hgrow := fun _ h => h
  hhome := hhome

/-- Entries, debts and counters agree in every state. -/
structure InFlight (ps : List (Seen ncpu)) (s : Machine ncpu) : Prop where
  hheld : ∀ c k, heldBy s.maps.flows c k + ∑ i, (s.cpus i).owesTo c k =
    UInt64.ofNat (sumOf (fun u => c.ofUpdate u.1) (updatesOf k ps))
  htotal : Store.total (fun _ v => v.packets) s.maps.flows + ∑ i, (s.cpus i).owes .packets =
    statTotal s.maps .parsed
  hcreated : UInt64.ofNat s.maps.flows.entries.length =
    statTotal s.maps .flowsCreated + ∑ i, (s.cpus i).owesCreated
  hhome : ∀ k, updatesOf k ps ≠ [] →
    (s.maps.flows.lookup k).isSome ∨ ∃ i, (s.cpus i).Homeless k
  hpointer : ∀ i key gen u stage, s.cpus i = .found key gen u stage →
    s.gen key = gen ∧ (s.maps.flows.lookup key).isSome

namespace InFlight

variable {ps : List (Seen ncpu)} {s : Machine ncpu} {cpu : Fin ncpu}

/-- One balanced step of one CPU. -/
theorem move {maps : Maps ncpu} {gen : FlowKey → Nat} {p : Progress} (h : InFlight ps s)
    (hbalanced : Balanced s.maps.flows maps.flows (s.cpus cpu) p)
    (hparsed : statTotal maps .parsed = statTotal s.maps .parsed)
    (hcreated : UInt64.ofNat maps.flows.entries.length + (s.cpus cpu).owesCreated +
      statTotal s.maps .flowsCreated = UInt64.ofNat s.maps.flows.entries.length + p.owesCreated +
        statTotal maps .flowsCreated)
    (hgen : ∀ key, (s.maps.flows.lookup key).isSome → gen key = s.gen key)
    (hnew : ∀ key g u stage, p = .found key g u stage →
      s.gen key = g ∧ (s.maps.flows.lookup key).isSome) :
    InFlight ps ⟨maps, gen, Function.update s.cpus cpu p⟩ where
  hheld := by
    intro c k
    have hsum := sum_update_progress (Progress.owesTo c k) s.cpus cpu p
    have hmove := hbalanced.hheld c k
    rw [← h.hheld c k]
    apply add_right_cancel (b := (s.cpus cpu).owesTo c k)
    rw [add_assoc, hsum, add_right_comm, ← hmove]
    ac_rfl
  htotal := by
    have hsum := sum_update_progress (Progress.owes .packets) s.cpus cpu p
    have hmove := hbalanced.htotal
    rw [hparsed, ← h.htotal]
    apply add_right_cancel (b := (s.cpus cpu).owes .packets)
    rw [add_assoc, hsum, add_right_comm, ← hmove]
    ac_rfl
  hcreated := by
    have hsum := sum_update_progress Progress.owesCreated s.cpus cpu p
    have hold := h.hcreated
    rw [hold] at hcreated
    show UInt64.ofNat maps.flows.entries.length =
      statTotal maps .flowsCreated + ∑ i, (Function.update s.cpus cpu p i).owesCreated
    -- cancel the old debt and the old counter
    apply add_right_cancel (b := (s.cpus cpu).owesCreated + statTotal s.maps .flowsCreated)
    calc
      _ = _ := (add_assoc _ _ _).symm
      _ = _ := hcreated
      _ = statTotal maps .flowsCreated + (∑ i, (s.cpus i).owesCreated + p.owesCreated) +
          statTotal s.maps .flowsCreated := by ac_rfl
      _ = _ := by
          rw [← hsum]
          ac_rfl
  hhome := by
    intro k hk
    rcases h.hhome k hk with hsome | ⟨i, hi⟩
    · exact Or.inl (hbalanced.hgrow k hsome)
    · by_cases hcpu : i = cpu
      · subst hcpu
        rcases hbalanced.hhome k hi with hsome | hp
        · exact Or.inl hsome
        · exact Or.inr ⟨i, by simpa using hp⟩
      · exact Or.inr ⟨i, by simpa [hcpu] using hi⟩
  hpointer := by
    intro i key g u stage hi
    have hold : s.gen key = g ∧ (s.maps.flows.lookup key).isSome := by
      by_cases hcpu : i = cpu
      · subst hcpu
        exact hnew key g u stage (by simpa using hi)
      · exact h.hpointer i key g u stage (by simpa [hcpu] using hi)
    exact ⟨(hgen key hold.2).trans hold.1, hbalanced.hgrow key hold.2⟩

/-- A balanced step that leaves the counters alone. -/
theorem put {flows : FlowTable} {gen : FlowKey → Nat} {p : Progress} (h : InFlight ps s)
    (hbalanced : Balanced s.maps.flows flows (s.cpus cpu) p)
    (hlength : UInt64.ofNat flows.entries.length + (s.cpus cpu).owesCreated =
      UInt64.ofNat s.maps.flows.entries.length + p.owesCreated)
    (hgen : ∀ key, (s.maps.flows.lookup key).isSome → gen key = s.gen key)
    (hnew : ∀ key g u stage, p = .found key g u stage →
      s.gen key = g ∧ (s.maps.flows.lookup key).isSome) :
    InFlight ps { s.put cpu flows p with gen := gen } := by
  have hstat : ∀ idx, statTotal (s.put cpu flows p).maps idx = statTotal s.maps idx :=
    statTotal_congr rfl
  refine h.move hbalanced (hstat _) ?_ hgen hnew
  rw [hstat, ← hlength]
  rfl

/-- A write through a pointer reaches the entry. -/
theorem write_eq {key : FlowKey} {gen : Nat} {u : FlowUpdate} {stage : AddStage}
    (h : InFlight ps s) (hcpu : s.cpus cpu = .found key gen u stage) (f : FlowVal → FlowVal) :
    ∃ v, s.maps.flows.lookup key = some v ∧
      s.write key gen f = s.maps.flows.insert key (f v) := by
  obtain ⟨hgen, hsome⟩ := h.hpointer cpu key gen u stage hcpu
  obtain ⟨v, hv⟩ := Option.isSome_iff_exists.mp hsome
  exact ⟨v, hv, by rw [Machine.write, if_pos hgen, hv, Option.elim_some]⟩

/-- A write of the branch that found an entry, which then owes what the write
did not add. -/
theorem write {key : FlowKey} {gen : Nat} {u : FlowUpdate} {stage : AddStage} {p : Progress}
    {f : FlowVal → FlowVal} (h : InFlight ps s) (hcpu : s.cpus cpu = .found key gen u stage)
    (hfor : p.For key) (hcreated : p.owesCreated = 0)
    (hmove : ∀ (c : Counter) v, c.ofVal (f v) + p.owes c =
      c.ofVal v + (Progress.found key gen u stage).owes c)
    (hnext : ∀ key' g u' stage', p = .found key' g u' stage' → key' = key ∧ g = gen) :
    InFlight ps (s.put cpu (s.write key gen f) p) := by
  obtain ⟨v, hv, hwrite⟩ := h.write_eq hcpu f
  obtain ⟨hgen, hsome⟩ := h.hpointer cpu key gen u stage hcpu
  rw [hwrite]
  refine h.put ?_ ?_ (fun _ _ => rfl) ?_
  · rw [hcpu]
    refine Balanced.insert rfl hfor ?_
    intro c
    rw [hmove, heldBy, hv]
    rfl
  · rw [Store.length_insert_of_lookup_some _ hv, hcpu, hcreated]
    rfl
  · intro key' g u' stage' hp
    obtain ⟨rfl, rfl⟩ := hnext key' g u' stage' hp
    exact ⟨hgen, hsome⟩

theorem found_inj {key : FlowKey} {gen : Nat} {u : FlowUpdate} {stage : AddStage} :
    ∀ key' g u' stage', Progress.found key gen u stage = .found key' g u' stage' →
      key' = key ∧ g = gen := by
  rintro key' g u' stage' ⟨⟩
  exact ⟨rfl, rfl⟩

theorem access {key : FlowKey} {gen : Nat} {u : FlowUpdate} {stage : AddStage}
    (h : InFlight ps s) (hcpu : s.cpus cpu = .found key gen u stage) (now : UInt64) :
    InFlight ps (s.access cpu now key gen u stage) := by
  cases stage with
  | packets =>
      refine h.write hcpu (Or.inl rfl) rfl ?_ found_inj
      rintro (_ | _) v
      · exact add_zero _
      · rfl
  | bytes =>
      refine h.write hcpu (Or.inl rfl) rfl ?_ found_inj
      rintro (_ | _) v
      · rfl
      · exact add_zero _
  | loadFlags =>
      refine h.put ?_ ?_ (fun _ _ => rfl) ?_
      · rw [hcpu]
        exact Balanced.same rfl (fun _ => rfl) fun k hk => hk.elim
      · rw [hcpu]
        rfl
      · rintro key' g u' stage' ⟨⟩
        exact h.hpointer cpu key gen u _ hcpu
  | storeFlags flags =>
      refine h.write hcpu (Or.inl rfl) rfl ?_ found_inj
      rintro (_ | _) v <;> rfl
  | lastSeen =>
      refine h.write hcpu (Or.inr fun _ => rfl) rfl ?_ (by simp)
      rintro (_ | _) v <;> rfl

/-- Every step that replaces no entry keeps the balance. -/
theorem advance {now : UInt64} (h : InFlight ps s)
    (hno : Machine.Clear s.maps.flows (s.cpus cpu)) : InFlight ps (s.advance cpu now) := by
  unfold Machine.advance
  cases hcpu : s.cpus cpu with
  | idle => exact h
  | lookup key u =>
      cases hlookup : s.maps.flows.lookup key with
      | none =>
          simp only [hlookup, Option.elim_none]
          refine h.put ?_ ?_ (fun _ _ => rfl) (by simp)
          · rw [hcpu]
            exact Balanced.same rfl (fun _ => rfl) fun k hk => Or.inr hk
          · rw [hcpu]
            rfl
      | some v =>
          simp only [hlookup, Option.elim_some]
          refine h.put ?_ ?_ (fun _ _ => rfl) ?_
          · rw [hcpu]
            refine Balanced.same rfl (fun _ => rfl) ?_
            rintro k rfl
            left
            rw [hlookup, Option.isSome_some]
          · rw [hcpu]
            rfl
          · rintro key' g u' stage' ⟨⟩
            exact ⟨rfl, by rw [hlookup, Option.isSome_some]⟩
  | found key gen u stage => exact h.access hcpu now
  | missed key u =>
      have hnone : s.maps.flows.lookup key = none := by rwa [hcpu] at hno
      refine h.put ?_ ?_ ?_ (by simp)
      · rw [hcpu]
        refine Balanced.insert rfl (Or.inr fun _ => rfl) ?_
        intro c
        rw [heldBy, hnone, Option.elim_none, zero_add, Counter.ofVal_create]
        exact add_zero _
      · rw [Store.length_insert_of_lookup_none hnone, hcpu, UInt64.ofNat_add]
        exact add_zero _
      · -- a key that has an entry is not the one created
        intro key' hsome
        refine Function.update_of_ne ?_ _ _
        rintro rfl
        simp [hnone] at hsome
  | created =>
      refine h.move ?_ ?_ ?_ (fun _ _ => rfl) (by simp)
      · rw [hcpu]
        exact Balanced.same rfl (fun _ => rfl) fun k hk => hk.elim
      · rw [statTotal_statAdd]
        exact add_zero _
      · rw [statTotal_statAdd, hcpu, if_pos rfl]
        show UInt64.ofNat _ + 1 + _ = UInt64.ofNat _ + 0 + _
        rw [add_zero]
        ac_rfl

/-- A packet that does not parse is in no flow. -/
theorem start_unparsed {maps : Maps ncpu} {p : Seen ncpu} (h : InFlight ps s)
    (hflow : p.flow? = none) (hflows : maps.flows = s.maps.flows)
    (hparsed : statTotal maps .parsed = statTotal s.maps .parsed)
    (hcreated : statTotal maps .flowsCreated = statTotal s.maps .flowsCreated) :
    InFlight (ps ++ [p]) { s with maps := maps } := by
  have hnone : ∀ k, updatesOf k (ps ++ [p]) = updatesOf k ps := by
    intro k
    simp [updatesOf, hflow]
  constructor
  · simp only [hnone, hflows]
    exact h.hheld
  · simp only [hflows, hparsed]
    exact h.htotal
  · simp only [hflows, hcreated]
    exact h.hcreated
  · simp only [hnone, hflows]
    exact h.hhome
  · simp only [hflows]
    exact h.hpointer

/-- A packet that parses owes its flow everything. -/
theorem start_parsed {maps : Maps ncpu} {p : Seen ncpu} {key : FlowKey} {u : FlowUpdate}
    (h : InFlight ps s) (hidle : s.cpus cpu = .idle) (hflow : p.flow? = some (key, u))
    (hflows : maps.flows = s.maps.flows)
    (hparsed : statTotal maps .parsed = statTotal s.maps .parsed + u.segs.toUInt64)
    (hcreated : statTotal maps .flowsCreated = statTotal s.maps .flowsCreated) :
    InFlight (ps ++ [p]) ⟨maps, s.gen, Function.update s.cpus cpu (.lookup key u)⟩ := by
  have hsum := fun w : Progress → UInt64 => sum_update_progress w s.cpus cpu (.lookup key u)
  rw [hidle] at hsum
  have hupdates : ∀ k, updatesOf k [p] = if key = k then [(u, p.now)] else [] := by
    intro k
    by_cases hk : key = k
    · simp [updatesOf, hflow, hk]
    · simp [updatesOf, hflow, hk]
  constructor
  · intro c k
    have hk := hsum (Progress.owesTo c k)
    have hzero : Progress.idle.owesTo c k = 0 := rfl
    rw [hzero, add_zero] at hk
    simp only [hflows, hk, ← add_assoc, h.hheld c k]
    rw [updatesOf_concat, hupdates k, Progress.For.owesTo_eq (Or.inl rfl) c k]
    by_cases hkey : key = k
    · rw [if_pos hkey, if_pos hkey.symm, ofNat_sumOf_concat]
      rfl
    · rw [if_neg hkey, if_neg (Ne.symm hkey), List.append_nil, add_zero]
  · have hpackets := hsum (Progress.owes .packets)
    have hzero : Progress.idle.owes .packets = 0 := rfl
    rw [hzero, add_zero] at hpackets
    simp only [hflows, hparsed, hpackets, ← add_assoc, h.htotal]
    rfl
  · have hcount := hsum Progress.owesCreated
    have hzero : Progress.idle.owesCreated = 0 := rfl
    have hzero' : (Progress.lookup key u).owesCreated = 0 := rfl
    rw [hzero, hzero', add_zero, add_zero] at hcount
    simp only [hflows, hcreated, hcount, h.hcreated]
  · intro k hk
    rw [updatesOf_concat, hupdates k] at hk
    by_cases hkey : key = k
    · exact Or.inr ⟨cpu, by simpa [Progress.Homeless] using hkey⟩
    · rw [if_neg hkey, List.append_nil] at hk
      rcases h.hhome k hk with hsome | ⟨i, hi⟩
      · left
        rwa [hflows]
      · right
        refine ⟨i, ?_⟩
        have hne : i ≠ cpu := by
          rintro rfl
          rw [hidle] at hi
          exact hi
        simpa [hne] using hi
  · intro i key' g u' stage hi
    have hne : i ≠ cpu := by
      rintro rfl
      simp at hi
    rw [hflows]
    exact h.hpointer i key' g u' stage (by simpa [hne] using hi)

theorem start (h : InFlight ps s) (hidle : s.cpus cpu = .idle) (hook : Hook) (skb : SkBuff) :
    InFlight (ps ++ [⟨cpu, 0, hook, skb⟩]) (s.start cpu hook skb) := by
  have hflows := countSeen_flows s.maps { cpu := cpu, now := 0 } hook skb
  have hstats := countSeen_statTotal s.maps { cpu := cpu, now := 0 } hook skb
  unfold Machine.start
  cases hparse : parse hook.eth skb.data with
  | none =>
      refine h.start_unparsed ?_ hflows ?_ ?_
      · simp [Seen.flow?, hparse]
      · simp [hstats]
      · simp [hstats]
  | some q =>
      refine h.start_parsed hidle ?_ hflows ?_ ?_
      · simp [Seen.flow?, hparse]
      · simp [statTotal_statAdd, hstats, flowUpdate]
      · simp [statTotal_statAdd, hstats]

end InFlight

/-! ## Whole runs -/

theorem startsOf_concat (history : List (Action ncpu)) (a : Action ncpu) :
    startsOf (history ++ [a]) = startsOf history ++ startsOf [a] := by
  simp [startsOf]

theorem inFlight_empty (ncpu cap : Nat) : InFlight [] (Machine.empty ncpu cap) := by
  constructor
  · intro c k
    simp [heldBy, Machine.empty, Maps.empty, Progress.owesTo, Progress.key?, updatesOf, sumOf]
  · simp [Machine.empty, Progress.owes, statTotal_empty]
    rfl
  · simp [Machine.empty, Progress.owesCreated, statTotal_empty]
    rfl
  · intro k hk
    simp [updatesOf] at hk
  · intro i key gen u stage hi
    simp [Machine.empty] at hi

theorem InFlight.act {history : List (Action ncpu)} {s : Machine ncpu} {a : Action ncpu}
    (h : InFlight (startsOf history) s) (henabled : s.Enabled a) (hno : s.NoOverwrite a) :
    InFlight (startsOf (history ++ [a])) (s.act a) := by
  rw [startsOf_concat]
  cases a with
  | start cpu hook skb => exact h.start henabled hook skb
  | step cpu now =>
      have hnone : startsOf [Action.step cpu now] = [] := rfl
      rw [hnone, List.append_nil]
      exact h.advance hno

theorem inFlight_run {cap : Nat} {history : List (Action ncpu)} {s : Machine ncpu}
    (hrun : Run Machine.act (fun s a => s.Enabled a ∧ s.NoOverwrite a) (Machine.empty ncpu cap)
      history s) : InFlight (startsOf history) s := by
  induction hrun with
  | nil => exact inFlight_empty ncpu cap
  | snoc _ hok ih => exact ih.act hok.1 hok.2

/-- When every CPU is done, nothing is owed. -/
theorem InFlight.exact {ps : List (Seen ncpu)} {s : Machine ncpu} (h : InFlight ps s)
    (hdone : ∀ cpu, s.cpus cpu = .idle) : Exact ps s.maps where
  hkeys := by
    intro k hk
    rcases h.hhome k hk with hsome | ⟨i, hi⟩
    · exact hsome
    · rw [hdone i] at hi
      exact hi.elim
  hsums := by
    intro k v hv c
    have hheld := h.hheld c k
    simp only [hdone, Progress.owesTo, Progress.key?, heldBy, hv, Option.elim_some] at hheld
    simpa using hheld
  hparsed := by
    have htotal := h.htotal
    simp only [hdone, Progress.owes] at htotal
    simpa using htotal
  hcreated := by
    have hcreated := h.hcreated
    simp only [hdone, Progress.owesCreated] at hcreated
    simpa using hcreated

/-! ## Why the condition is needed -/

/-- Creations counted or about to be. -/
def createdDebt (s : Machine ncpu) : UInt64 :=
  statTotal s.maps .flowsCreated + ∑ i, (s.cpus i).owesCreated

theorem createdDebt_put (s : Machine ncpu) (cpu : Fin ncpu) (flows : FlowTable) (p : Progress) :
    createdDebt (s.put cpu flows p) + (s.cpus cpu).owesCreated = createdDebt s + p.owesCreated := by
  have hstat : statTotal (s.put cpu flows p).maps .flowsCreated =
      statTotal s.maps .flowsCreated := statTotal_congr rfl _
  have hsum := sum_update_progress Progress.owesCreated s.cpus cpu p
  rw [createdDebt, createdDebt, hstat, add_assoc, add_assoc]
  exact congrArg _ hsum

theorem length_write (s : Machine ncpu) (key : FlowKey) (gen : Nat) (f : FlowVal → FlowVal) :
    (s.write key gen f).entries.length = s.maps.flows.entries.length := by
  rw [Machine.write]
  split
  · cases hlookup : s.maps.flows.lookup key with
    | none => rfl
    | some v => exact Store.length_insert_of_lookup_some _ hlookup
  · rfl

/-- Creations keep step with the entries, except where an entry is replaced. -/
def CountStep (s s' : Machine ncpu) (n : Nat) : Prop :=
  createdDebt s' + UInt64.ofNat s.maps.flows.entries.length =
    createdDebt s + UInt64.ofNat s'.maps.flows.entries.length + UInt64.ofNat n

theorem countStep_put {s : Machine ncpu} {cpu : Fin ncpu} {flows : FlowTable} {p : Progress}
    (hlength : flows.entries.length = s.maps.flows.entries.length)
    (hold : (s.cpus cpu).owesCreated = 0) (hnew : p.owesCreated = 0) :
    CountStep s (s.put cpu flows p) 0 := by
  have hdebt := createdDebt_put s cpu flows p
  have hlength' : (s.put cpu flows p).maps.flows.entries.length =
      s.maps.flows.entries.length := hlength
  rw [hold, hnew, add_zero, add_zero] at hdebt
  rw [CountStep, hdebt, hlength']
  exact (add_zero _).symm

theorem countStep_access {s : Machine ncpu} {cpu : Fin ncpu} {key : FlowKey} {gen : Nat}
    {u : FlowUpdate} {stage : AddStage} (now : UInt64)
    (hold : (s.cpus cpu).owesCreated = 0) :
    CountStep s (s.access cpu now key gen u stage) 0 := by
  cases stage with
  | packets => exact countStep_put (length_write ..) hold rfl
  | bytes => exact countStep_put (length_write ..) hold rfl
  | loadFlags => exact countStep_put rfl hold rfl
  | storeFlags flags => exact countStep_put (length_write ..) hold rfl
  | lastSeen => exact countStep_put (length_write ..) hold rfl

/-- A whole-entry update counts a creation whether or not the entry is new. -/
theorem countStep_missed {s : Machine ncpu} {cpu : Fin ncpu} {key : FlowKey} {u : FlowUpdate}
    (now : UInt64) (hcpu : s.cpus cpu = .missed key u) :
    CountStep s (s.advance cpu now) (if (s.maps.flows.lookup key).isSome then 1 else 0) := by
  have hdebt : createdDebt (s.advance cpu now) = createdDebt s + 1 := by
    have hput := createdDebt_put s cpu (s.maps.flows.insert key (u.create now)) .created
    rw [hcpu] at hput
    simp only [Machine.advance, hcpu]
    exact (add_zero _).symm.trans hput
  have hflows : (s.advance cpu now).maps.flows = s.maps.flows.insert key (u.create now) := by
    simp only [Machine.advance, hcpu]
    rfl
  rw [CountStep, hdebt, hflows]
  cases hlookup : s.maps.flows.lookup key with
  | none =>
      rw [Store.length_insert_of_lookup_none hlookup, UInt64.ofNat_add]
      show _ + 1 + _ = _ + (_ + 1) + 0
      rw [add_zero]
      ac_rfl
  | some v =>
      rw [Store.length_insert_of_lookup_some _ hlookup]
      exact add_right_comm _ _ _

theorem countStep_created {s : Machine ncpu} {cpu : Fin ncpu} (now : UInt64)
    (hcpu : s.cpus cpu = .created) : CountStep s (s.advance cpu now) 0 := by
  have hsum := sum_update_progress Progress.owesCreated s.cpus cpu .idle
  rw [hcpu] at hsum
  have hdebt : createdDebt (s.advance cpu now) = createdDebt s := by
    simp only [Machine.advance, hcpu, createdDebt, statTotal_statAdd, if_true]
    rw [add_assoc, add_comm 1]
    exact congrArg _ (hsum.trans (add_zero _))
  have hflows : (s.advance cpu now).maps.flows = s.maps.flows := by
    simp only [Machine.advance, hcpu]
    rfl
  rw [CountStep, hdebt, hflows]
  exact (add_zero _).symm

theorem countStep_start {s : Machine ncpu} {cpu : Fin ncpu} (hook : Hook) (skb : SkBuff)
    (hidle : s.cpus cpu = .idle) : CountStep s (s.start cpu hook skb) 0 := by
  have hflows := countSeen_flows s.maps { cpu := cpu, now := 0 } hook skb
  have hstats := countSeen_statTotal s.maps { cpu := cpu, now := 0 } hook skb .flowsCreated
  have hsum := fun p => sum_update_progress Progress.owesCreated s.cpus cpu p
  rw [hidle] at hsum
  unfold Machine.start
  cases hparse : parse hook.eth skb.data with
  | none => simp [CountStep, createdDebt, hflows, hstats]
  | some q =>
      have hzero := hsum (.lookup (flowKey skb hook.direction q) (flowUpdate hook skb q))
      have hdebt : ∑ i, (Function.update s.cpus cpu
          (.lookup (flowKey skb hook.direction q) (flowUpdate hook skb q)) i).owesCreated =
            ∑ i, (s.cpus i).owesCreated :=
        (add_zero _).symm.trans (hzero.trans (add_zero _))
      simp only [CountStep, createdDebt, statTotal_statAdd, hdebt, hstats]
      simp only [statAdd, hflows]
      simp

/-- One enabled action replaces at most one entry. -/
theorem countStep_act {s : Machine ncpu} {a : Action ncpu} (henabled : s.Enabled a) :
    CountStep s (s.act a) (if s.NoOverwrite a then 0 else 1) := by
  cases a with
  | start cpu hook skb => exact countStep_start hook skb henabled
  | step cpu now =>
      show CountStep s (s.advance cpu now)
        (if Machine.Clear s.maps.flows (s.cpus cpu) then 0 else 1)
      cases hcpu : s.cpus cpu with
      | idle => exact absurd hcpu henabled
      | lookup key u =>
          simp only [Machine.advance, hcpu]
          refine countStep_put rfl (by rw [hcpu]; rfl) ?_
          cases s.maps.flows.lookup key <;> rfl
      | found key gen u stage =>
          simp only [Machine.advance, hcpu]
          exact countStep_access now (by rw [hcpu]; rfl)
      | missed key u =>
          have hcount := countStep_missed now hcpu
          cases hlookup : s.maps.flows.lookup key with
          | none => simpa [Machine.Clear, hlookup] using hcount
          | some v => simpa [Machine.Clear, hlookup] using hcount
      | created => exact countStep_created now hcpu

/-- The creations a run counts exceed its entries by the entries it replaced,
and a run that replaced none is one that met the condition. -/
theorem createdDebt_run {cap : Nat} {history : List (Action ncpu)} {s : Machine ncpu}
    (hrun : Run Machine.act Machine.Enabled (Machine.empty ncpu cap) history s) :
    ∃ n ≤ history.length,
      createdDebt s = UInt64.ofNat s.maps.flows.entries.length + UInt64.ofNat n ∧
      (n = 0 → Run Machine.act (fun s a => s.Enabled a ∧ s.NoOverwrite a)
        (Machine.empty ncpu cap) history s) := by
  induction hrun with
  | nil =>
      refine ⟨0, le_rfl, ?_, fun _ => Run.nil⟩
      simp [createdDebt, Machine.empty, statTotal_empty, Progress.owesCreated]
      rfl
  | @snoc history s a _ henabled ih =>
      obtain ⟨n, hn, hdebt, hguarded⟩ := ih
      have hcount := countStep_act henabled
      have hnext : createdDebt (s.act a) = UInt64.ofNat (s.act a).maps.flows.entries.length +
          UInt64.ofNat (n + if s.NoOverwrite a then 0 else 1) := by
        rw [CountStep, hdebt] at hcount
        apply add_right_cancel (b := UInt64.ofNat s.maps.flows.entries.length)
        rw [hcount, UInt64.ofNat_add]
        ac_rfl
      refine ⟨_, ?_, hnext, ?_⟩
      · rw [List.length_append, List.length_singleton]
        split <;> omega
      · intro hzero
        by_cases hno : s.NoOverwrite a
        · exact (hguarded (by omega)).snoc ⟨henabled, hno⟩
        · rw [if_neg hno] at hzero
          omega

/-- Concurrent flow updates lose nothing exactly when no whole-entry update
replaces an entry: when all CPUs are done, a run in which none does leaves
every sum and counter exact, and any other run (of fewer than `2 ^ 64` steps)
does not. -/
theorem exact_iff_no_overwrite {cap : Nat} {history : List (Action ncpu)} {s : Machine ncpu}
    (hrun : Run Machine.act Machine.Enabled (Machine.empty ncpu cap) history s)
    (hdone : ∀ cpu, s.cpus cpu = .idle) :
    (Run Machine.act (fun s a => s.Enabled a ∧ s.NoOverwrite a) (Machine.empty ncpu cap) history s →
      Exact (startsOf history) s.maps) ∧
    (history.length < 2 ^ 64 → Exact (startsOf history) s.maps →
      Run Machine.act (fun s a => s.Enabled a ∧ s.NoOverwrite a) (Machine.empty ncpu cap)
        history s) := by
  constructor
  · intro hguarded
    exact (inFlight_run hguarded).exact hdone
  · intro hlength hexact
    obtain ⟨n, hn, hdebt, hguarded⟩ := createdDebt_run hrun
    apply hguarded
    have hcreated : createdDebt s = statTotal s.maps .flowsCreated := by
      simp [createdDebt, hdone, Progress.owesCreated]
    rw [hcreated, ← hexact.hcreated] at hdebt
    have hzero : UInt64.ofNat n = 0 := by
      apply add_left_cancel (a := UInt64.ofNat s.maps.flows.entries.length)
      rw [← hdebt, add_zero]
    have htoNat := congrArg UInt64.toNat hzero
    rw [UInt64.toNat_ofNat_of_lt' (lt_of_le_of_lt hn hlength)] at htoNat
    exact htoNat

/-- The CPUs of the concrete runs. -/
def firstCpu : Fin 2 := ⟨0, Nat.two_pos⟩

def secondCpu : Fin 2 := ⟨1, Nat.one_lt_two⟩

/-- Two packets of one new flow, one on each CPU. -/
def raceStart : List (Action 2) :=
  let data : Bytes :=
    [0x45, 0, 0, 28, 0, 0, 0, 0, 64, 17, 0, 0, 192, 0, 2, 1, 198, 51, 100, 2,
      0, 53, 0, 54, 0, 8, 0, 0]
  [.start firstCpu obserwrtIngressL3 ⟨data, 28, 7, 0, false, 0⟩,
   .start secondCpu obserwrtIngressL3 ⟨data, 28, 7, 0, false, 0⟩]

/-- Both look up before either creates. -/
def bothMiss : List (Action 2) :=
  raceStart ++ [.step firstCpu 5, .step secondCpu 6, .step firstCpu 7, .step firstCpu 7,
    .step secondCpu 8, .step secondCpu 8]

/-- The second looks up after the first has created. -/
def secondHits : List (Action 2) :=
  raceStart ++ List.replicate 3 (.step firstCpu 5) ++ List.replicate 6 (.step secondCpu 8)

/-- The second creator replaces the first one's entry: two packets are parsed
and two creations counted, with one packet in one entry. -/
theorem concurrent_creation_loses_packet :
    ∃ s : Machine 2, Run Machine.act Machine.Enabled (Machine.empty 2 8) bothMiss s ∧
      (∀ cpu, s.cpus cpu = .idle) ∧
      statTotal s.maps .parsed = 2 ∧ statTotal s.maps .flowsCreated = 2 ∧
      Store.total (fun _ v => v.packets) s.maps.flows = 1 ∧ s.maps.flows.entries.length = 1 ∧
      ¬Exact (startsOf bothMiss) s.maps := by
  have hcheck : Run.check Machine.act Machine.Enabled (Machine.empty 2 8) bothMiss = true := by
    decide +kernel
  refine ⟨_, Run.of_check hcheck, ?_, ?_, ?_, ?_, ?_, ?_⟩
  · decide +kernel
  · decide +kernel
  · decide +kernel
  · decide +kernel
  · decide +kernel
  · intro hexact
    exact absurd hexact.hparsed (by decide +kernel)

theorem exact_iff_no_overwrite_demo :
    Exact (startsOf secondHits) (secondHits.foldl Machine.act (Machine.empty 2 8)).maps := by
  have henabled : Run.check Machine.act Machine.Enabled (Machine.empty 2 8) secondHits = true := by
    decide +kernel
  have hguarded : Run.check Machine.act (fun s a => s.Enabled a ∧ s.NoOverwrite a)
      (Machine.empty 2 8) secondHits = true := by
    decide +kernel
  have hdone : ∀ cpu, (secondHits.foldl Machine.act (Machine.empty 2 8)).cpus cpu = .idle := by
    decide +kernel
  exact (exact_iff_no_overwrite (Run.of_check henabled) hdone).1 (Run.of_check hguarded)

end Bpf
end Obserwrt
