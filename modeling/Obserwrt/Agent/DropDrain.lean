import Obserwrt.Agent.Attach
import Obserwrt.Agent.BatchWalk
import Obserwrt.Bpf.Accounting
import Obserwrt.Bpf.Drops

/-!
# Drop accounting

The drop tracer, the attachment of devices and the drain of the drop map
(`take_drops`, and the loop of `main` that exports what it returned) as one
machine.  Dropped packets arrive between any two batch calls of a drain, and a
drain may fail after any of them.  The result is a ledger: every drop on a
device attached at that moment stands in exactly one place.
-/

namespace Obserwrt
namespace Agent

open Lib Bpf

variable {ncpu : Nat}

/-- The loaded objects, the map `obserwrt_drops`, the drain in progress, and
the drop records handed to the exporters so far. -/
structure DropWorld (ncpu : Nat) where
  bpf : BpfState ncpu
  drops : DropTable
  walk : Option (Walk DropKey FlowVal)
  exported : List (DropKey × FlowVal)

/-- Freshly loaded, with the tracer. -/
def DropWorld.start (ncpu devCapacity : Nat) : DropWorld ncpu where
  bpf := { maps := Maps.empty ncpu devCapacity, atts := ∅, attached := some ∅ }
  drops := ∅
  walk := none
  exported := []

/-- What can happen: a packet is dropped, a device is attached or detached, a
drain begins, or the drain in progress makes its next batch call. -/
inductive DropEvent (ncpu : Nat)
  | kfree (cpu : Fin ncpu) (now : UInt64) (skb : TracedSkb) (reason : UInt32)
  | attach (ifindex : UInt32) (ethernet ingressOk egressOk : Bool)
  | detach (ifindex : UInt32)
  | drain
  | batch (fault : Bool)

namespace DropWorld

/-- The tracepoint fires. -/
def kfree (w : DropWorld ncpu) (cpu : Fin ncpu) (now : UInt64) (skb : TracedSkb)
    (reason : UInt32) : DropWorld ncpu :=
  match w.bpf.attached with
  | none => w
  | some attached =>
      let m := kfreeSkb cpu now skb reason ⟨w.bpf.maps, attached, w.drops⟩
      { w with bpf := { w.bpf with maps := m.maps, attached := some m.attached }, drops := m.drops }

/-- The next batch call of a drain.  When it is the last one, `main` exports
what the drain collected, whether or not the drain failed. -/
def batch (L : Layout DropKey) (fault : Bool) (w : DropWorld ncpu) : DropWorld ncpu :=
  match w.walk with
  | none => w
  | some walk =>
      let drops := if fault then w.drops else (walk.reply L true w.drops).after
      match walk.turn L true fault w.drops with
      | (walk, none) => { w with drops, walk := some walk }
      | (walk, some _) => { w with drops, walk := none, exported := w.exported ++ walk.entries }

/-- One event.  The update of `obserwrt_attached` finds room in the map. -/
def step (L : Layout DropKey) (w : DropWorld ncpu) : DropEvent ncpu → DropWorld ncpu
  | .kfree cpu now skb reason => w.kfree cpu now skb reason
  | .attach ifindex ethernet ingressOk egressOk =>
      { w with bpf := (attach ifindex ethernet { ingressOk, egressOk } w.bpf).2 }
  | .detach ifindex => { w with bpf := detach ifindex w.bpf }
  -- `take_drops` runs to its end before it is called again
  | .drain => { w with walk := some (w.walk.getD {}) }
  | .batch fault => w.batch L fault

/-- The records handed over so far, those of the drain in progress included. -/
def handed (w : DropWorld ncpu) : List (DropKey × FlowVal) :=
  w.exported ++ w.walk.elim [] Walk.entries

end DropWorld

/-! ## The drops a run has to account for -/

/-- A dropped packet with a flow: its key, what `drop_parse` found and when. -/
structure Drop where
  key : DropKey
  tuple : DropTuple
  now : UInt64

/-- What the packet adds to its record, with its time. -/
def Drop.packet (d : Drop) : FlowUpdate × UInt64 :=
  (d.tuple.update, d.now)

/-- The drop an event makes on a device that is attached: `none` inside the
list is a packet that cannot be parsed. -/
def DropWorld.dropped (w : DropWorld ncpu) : DropEvent ncpu → List (Option Drop)
  | .kfree _ now skb reason =>
      match skb.dev with
      | none => []
      | some ifindex =>
          if w.bpf.isAttached ifindex then
            [(dropTuple skb).map fun t => ⟨dropKey ifindex skb reason t, t, now⟩]
          else []
  | _ => []

/-- The drops on attached devices along a run, in order. -/
def attachedDrops (L : Layout DropKey) : DropWorld ncpu → List (DropEvent ncpu) →
    List (Option Drop)
  | _, [] => []
  | w, e :: events => w.dropped e ++ attachedDrops L (w.step L e) events

theorem attachedDrops_concat (L : Layout DropKey) (w : DropWorld ncpu)
    (events : List (DropEvent ncpu)) (e : DropEvent ncpu) :
    attachedDrops L w (events ++ [e]) =
      attachedDrops L w events ++ (events.foldl (DropWorld.step L) w).dropped e := by
  induction events generalizing w with
  | nil => simp [attachedDrops]
  | cons e' events ih => simp [attachedDrops, ih]

/-! ## Attached devices are the marked ones -/

/-- With the tracer loaded and no update refused, the marks are the attached
devices. -/
structure MarksOk (b : BpfState ncpu) : Prop where
  paired : Paired b
  marks : ∃ m, b.attached = some m ∧ ∀ i, (m.lookup i).isSome = b.isAttached i

namespace MarksOk

variable {b : BpfState ncpu} {ifindex : UInt32}

/-- Attaching an attached device changes nothing. -/
theorem attach_attached (ethernet : Bool) (env : AttachEnv) (hatt : b.isAttached ifindex = true)
    (hne : ifindex ≠ 0) : ∃ l, b.atts.lookup ifindex = some l ∧
      (attach ifindex ethernet env b).2 = setLinks ifindex l b := by
  unfold BpfState.isAttached at hatt
  cases hlookup : b.atts.lookup ifindex with
  | none => simp [hlookup] at hatt
  | some l =>
      rw [hlookup] at hatt
      refine ⟨l, rfl, ?_⟩
      simp only [attach, hne, hlookup, Option.getD_some, if_false]
      rw [if_pos hatt]

theorem isAttached_setLinks_same {l : Links} (hlookup : b.atts.lookup ifindex = some l)
    (i : UInt32) : (setLinks ifindex l b).isAttached i = b.isAttached i := by
  unfold BpfState.isAttached setLinks
  simp only [Store.lookup_insert_eq]
  by_cases hi : i = ifindex
  · subst hi
    simp [hlookup]
  · simp [hi]

theorem attach (h : MarksOk b) (ethernet : Bool) {env : AttachEnv} (hmark : env.markOk = true) :
    MarksOk (Agent.attach ifindex ethernet env b).2 := by
  obtain ⟨m, hattached, hmarks⟩ := h.marks
  by_cases hzero : ifindex = 0
  · have hsame : (Agent.attach ifindex ethernet env b).2 = b := by simp [Agent.attach, hzero]
    rw [hsame]
    exact h
  cases hatt : b.isAttached ifindex with
  | true =>
      obtain ⟨l, hlookup, hstate⟩ := attach_attached ethernet env hatt hzero
      rw [hstate]
      refine ⟨h.paired.setLinks (h.paired ifindex l hlookup), m, hattached, ?_⟩
      intro i
      rw [isAttached_setLinks_same hlookup]
      exact hmarks i
  | false =>
      have hspec := attach_spec h.paired hatt ethernet env
      refine ⟨hspec.paired, ?_⟩
      cases hok : (Agent.attach ifindex ethernet env b).1.isOk with
      | false =>
          refine ⟨m, by rw [hspec.marks, hok]; exact hattached, fun i => ?_⟩
          by_cases hi : i = ifindex
          · subst hi
            rw [hspec.live, hok, hmarks, hatt]
          · rw [hspec.frame.isAttached hi]
            exact hmarks i
      | true =>
          refine ⟨m.insert ifindex 1, ?_, fun i => ?_⟩
          · rw [hspec.marks, hok, hmark, hattached]
            rfl
          · by_cases hi : i = ifindex
            · subst hi
              rw [hspec.live, hok, AList.lookup_insert]
              rfl
            · rw [hspec.frame.isAttached hi, AList.lookup_insert_ne hi]
              exact hmarks i

theorem setMaps (h : MarksOk b) (maps : Maps ncpu) : MarksOk { b with maps := maps } :=
  ⟨h.paired, h.marks⟩

theorem attach_stats (h : MarksOk b) (ethernet : Bool) (env : AttachEnv) :
    (Agent.attach ifindex ethernet env b).2.maps.stats = b.maps.stats := by
  by_cases hzero : ifindex = 0
  · simp [Agent.attach, hzero]
  cases hatt : b.isAttached ifindex with
  | true =>
      obtain ⟨l, -, hstate⟩ := attach_attached ethernet env hatt hzero
      rw [hstate]
      rfl
  | false => exact (attach_spec h.paired hatt ethernet env).frame.stats

theorem detach (h : MarksOk b) : MarksOk (Agent.detach ifindex b) := by
  obtain ⟨m, hattached, hmarks⟩ := h.marks
  unfold Agent.detach
  cases hlookup : b.atts.lookup ifindex with
  | none => exact h
  | some l =>
      refine ⟨h.paired.setLinks rfl, m.erase ifindex,
        congrArg (Option.map fun m => m.erase ifindex) hattached, ?_⟩
      intro i
      show _ = (setLinks ifindex {} b).isAttached i
      rw [Store.lookup_erase_eq]
      by_cases hi : i = ifindex
      · subst hi
        rw [if_pos rfl, isAttached_setLinks]
        rfl
      · rw [if_neg hi, (SameElsewhere.setLinks ifindex {} b).isAttached hi]
        exact hmarks i

end MarksOk

theorem detach_stats (ifindex : UInt32) (b : BpfState ncpu) :
    (detach ifindex b).maps.stats = b.maps.stats := by
  unfold detach
  cases b.atts.lookup ifindex with
  | none => rfl
  | some l => rfl

/-! ## Where each drop stands -/

/-- A record accounts for exactly these packets: all are of its key, and it
holds their number, the sum of their IP lengths, and the rest of their flow. -/
structure RecordOf (r : DropKey × FlowVal) (group : List Drop) : Prop where
  key : ∀ d ∈ group, d.key = r.1
  value : flowOf (group.map Drop.packet) = some r.2
  packets : r.2.packets = UInt64.ofNat group.length
  bytes : r.2.bytes = UInt64.ofNat (group.map fun d => d.tuple.l3len.toNat).sum

/-- Every drop stands in one place: each record handed over has a group of its
own, and of each key the drops are those of its groups, in order, and then
those of the map entry. -/
def Placed (drops : List Drop) (handed : List (DropKey × FlowVal)) (table : DropTable) : Prop :=
  ∃ (groups : List (List Drop)) (rest : DropKey → List Drop),
    List.Forall₂ RecordOf handed groups ∧
    (∀ k, ∀ d ∈ rest k, d.key = k) ∧
    (∀ k, table.lookup k = flowOf ((rest k).map Drop.packet)) ∧
    ∀ k, drops.filter (fun d => d.key = k) =
      groups.flatten.filter (fun d => d.key = k) ++ rest k

theorem recordOf_of_flowOf {k : DropKey} {v : FlowVal} {group : List Drop}
    (hkey : ∀ d ∈ group, d.key = k) (hvalue : flowOf (group.map Drop.packet) = some v) :
    RecordOf (k, v) group := by
  cases group with
  | nil => simp [flowOf] at hvalue
  | cons d group =>
      refine ⟨hkey, hvalue, ?_, ?_⟩
      · simp only [List.map_cons, flowOf, Option.some.injEq] at hvalue
        subst hvalue
        simp [sumOf, Drop.packet, DropTuple.update, Function.comp_def, add_comm]
      · simp only [List.map_cons, flowOf, Option.some.injEq] at hvalue
        subst hvalue
        simp [sumOf, Drop.packet, DropTuple.update, Function.comp_def]

/-- Of several distinct keys, one holds the drops of `k`, if any does. -/
theorem flatMap_filter_key {rest : DropKey → List Drop} (hrest : ∀ k, ∀ d ∈ rest k, d.key = k)
    {keys : List DropKey} (hnodup : keys.Nodup) (k : DropKey) :
    (keys.flatMap rest).filter (fun d => d.key = k) = if k ∈ keys then rest k else [] := by
  have hfilter : ∀ k', (rest k').filter (fun d => d.key = k) = if k' = k then rest k else [] := by
    intro k'
    by_cases hkey : k' = k
    · subst hkey
      rw [if_pos rfl, List.filter_eq_self]
      exact fun d hd => decide_eq_true (hrest k' d hd)
    · rw [if_neg hkey, List.filter_eq_nil_iff]
      intro d hd
      simpa [hrest k' d hd] using hkey
  induction keys with
  | nil => simp
  | cons key keys ih =>
      rw [List.nodup_cons] at hnodup
      rw [List.flatMap_cons, List.filter_append, hfilter, ih hnodup.2]
      by_cases hkey : key = k
      · subst hkey
        simp [hnodup.1]
      · have hne : k ≠ key := fun h => hkey h.symm
        simp [hkey, hne]

namespace Placed

variable {drops : List Drop} {handed : List (DropKey × FlowVal)} {table : DropTable}

theorem empty : Placed [] [] ∅ :=
  ⟨[], fun _ => [], List.Forall₂.nil, by simp, by simp [flowOf], by simp⟩

/-- A drop is counted in the map. -/
theorem record (h : Placed drops handed table) (d : Drop) :
    Placed (drops ++ [d]) handed (recordDrop d.key d.tuple.update d.now table) := by
  obtain ⟨groups, rest, hgroups, hrest, htable, hall⟩ := h
  refine ⟨groups, Function.update rest d.key (rest d.key ++ [d]), hgroups, ?_, ?_, ?_⟩
  · intro k d' hd'
    by_cases hk : k = d.key
    · subst hk
      rw [Function.update_self, List.mem_append, List.mem_singleton] at hd'
      rcases hd' with hd' | rfl
      · exact hrest _ d' hd'
      · rfl
    · rw [Function.update_of_ne hk] at hd'
      exact hrest k d' hd'
  · intro k
    rw [recordDrop, Store.lookup_insert_eq]
    by_cases hk : k = d.key
    · subst hk
      rw [if_pos rfl, Function.update_self, List.map_append, htable]
      exact (flowOf_concat _ _ _).symm
    · rw [if_neg hk, Function.update_of_ne hk]
      exact htable k
  · intro k
    rw [List.filter_append, hall]
    by_cases hk : k = d.key
    · subst hk
      simp
    · have hne : d.key ≠ k := fun h => hk h.symm
      simp [Function.update_of_ne hk, hne]

/-- A drain takes some entries out of the map and hands them over. -/
theorem take (h : Placed drops handed table) {taken : List (DropKey × FlowVal)}
    (hnodup : (taken.map Prod.fst).Nodup) (hcurrent : ∀ e ∈ taken, table.lookup e.1 = some e.2) :
    Placed drops (handed ++ taken) (Store.eraseAll table (taken.map Prod.fst)) := by
  obtain ⟨groups, rest, hgroups, hrest, htable, hall⟩ := h
  refine ⟨groups ++ taken.map fun e => rest e.1,
    fun k => if k ∈ taken.map Prod.fst then [] else rest k, ?_, ?_, ?_, ?_⟩
  · refine List.rel_append hgroups ?_
    rw [List.forall₂_map_right_iff, List.forall₂_same]
    intro e he
    exact recordOf_of_flowOf (hrest e.1) ((htable e.1).symm.trans (hcurrent e he))
  · intro k d hd
    by_cases hk : k ∈ taken.map Prod.fst
    · simp only [hk, if_true] at hd
      simp at hd
    · simp only [hk, if_false] at hd
      exact hrest k d hd
  · intro k
    rw [Store.lookup_eraseAll]
    by_cases hk : k ∈ taken.map Prod.fst
    · simp only [hk, if_true]
      rfl
    · simp only [hk, if_false]
      exact htable k
  · intro k
    have hflat : (taken.map fun e => rest e.1).flatten = (taken.map Prod.fst).flatMap rest := by
      rw [List.flatMap_def, List.map_map]
      rfl
    rw [hall, List.flatten_append, List.filter_append, hflat, flatMap_filter_key hrest hnodup,
      List.append_assoc]
    by_cases hk : k ∈ taken.map Prod.fst
    · simp only [hk, if_true, List.append_nil]
    · simp only [hk, if_false, List.nil_append]

end Placed

/-! ## The ledger -/

/-- What holds after every event, with the drops on attached devices so far:
the two counters, the balance of packets, and the place of every drop. -/
structure Ledger (seen : List (Option Drop)) (w : DropWorld ncpu) : Prop where
  marks : MarksOk w.bpf
  counted : statTotal w.bpf.maps .drops = UInt64.ofNat seen.length
  unparsed : statTotal w.bpf.maps .dropsUnparsed = UInt64.ofNat (seen.countP Option.isNone)
  balance : statTotal w.bpf.maps .drops =
    statTotal w.bpf.maps .dropsUnparsed + (w.handed.map fun r => r.2.packets).sum +
      Store.total (fun _ v => v.packets) w.drops
  placed : Placed (seen.filterMap id) w.handed w.drops

theorem ledger_start (ncpu devCapacity : Nat) : Ledger [] (DropWorld.start ncpu devCapacity) where
  marks := by
    refine ⟨by simp [Paired, DropWorld.start], ∅, rfl, ?_⟩
    simp [BpfState.isAttached, DropWorld.start]
  counted := statTotal_empty devCapacity .drops
  unparsed := statTotal_empty devCapacity .dropsUnparsed
  balance := by
    rw [DropWorld.start, statTotal_empty, statTotal_empty]
    simp [DropWorld.handed]
  placed := Placed.empty

/-- The three things a dropped packet can do. -/
theorem kfree_cases {w : DropWorld ncpu} (hmarks : MarksOk w.bpf) (cpu : Fin ncpu) (now : UInt64)
    (skb : TracedSkb) (reason : UInt32) :
    (w.dropped (.kfree cpu now skb reason) = [] ∧ w.kfree cpu now skb reason = w) ∨
      (w.dropped (.kfree cpu now skb reason) = [none] ∧
        w.kfree cpu now skb reason = { w with bpf := { w.bpf with
          maps := statAdd cpu .dropsUnparsed 1 (statAdd cpu .drops 1 w.bpf.maps) } }) ∨
      ∃ d : Drop, w.dropped (.kfree cpu now skb reason) = [some d] ∧
        w.kfree cpu now skb reason = { w with
          bpf := { w.bpf with maps := statAdd cpu .drops 1 w.bpf.maps }
          drops := recordDrop d.key d.tuple.update d.now w.drops } := by
  obtain ⟨⟨maps, atts, attached⟩, drops, walk, exported⟩ := w
  obtain ⟨m, rfl, hlookup⟩ := hmarks.marks
  simp only [DropWorld.kfree, DropWorld.dropped, kfreeSkb]
  cases hdev : skb.dev with
  | none => exact Or.inl ⟨rfl, rfl⟩
  | some ifindex =>
      have hmark := hlookup ifindex
      cases hatt : BpfState.isAttached (⟨maps, atts, some m⟩ : BpfState ncpu) ifindex with
      | false =>
          left
          rw [hatt, Option.isSome_eq_false_iff] at hmark
          simp [hmark, hatt]
      | true =>
          rw [hatt, ← Option.not_isNone, Bool.not_eq_true'] at hmark
          right
          cases htuple : dropTuple skb with
          | none =>
              left
              simp [hmark, hatt]
          | some t =>
              right
              exact ⟨⟨dropKey ifindex skb reason t, t, now⟩, by simp [hatt], by simp [hmark]⟩

namespace Ledger

variable {seen : List (Option Drop)} {w : DropWorld ncpu}

/-- An event that touches neither the counters nor the records. -/
theorem frame {w' : DropWorld ncpu} (h : Ledger seen w) (hmarks : MarksOk w'.bpf)
    (hstats : w'.bpf.maps.stats = w.bpf.maps.stats) (hdrops : w'.drops = w.drops)
    (hhanded : w'.handed = w.handed) : Ledger seen w' where
  marks := hmarks
  counted := (statTotal_congr hstats _).trans h.counted
  unparsed := (statTotal_congr hstats _).trans h.unparsed
  balance := by
    rw [statTotal_congr hstats, statTotal_congr hstats, hdrops, hhanded]
    exact h.balance
  placed := by
    rw [hdrops, hhanded]
    exact h.placed

theorem unparsable (h : Ledger seen w) (cpu : Fin ncpu) :
    Ledger (seen ++ [none]) { w with bpf := { w.bpf with
      maps := statAdd cpu .dropsUnparsed 1 (statAdd cpu .drops 1 w.bpf.maps) } } where
  marks := h.marks.setMaps _
  counted := by
    rw [statTotal_statAdd, statTotal_statAdd, h.counted]
    simp
  unparsed := by
    rw [statTotal_statAdd, statTotal_statAdd, h.unparsed]
    simp
  balance := by
    simp only [statTotal_statAdd]
    rw [h.balance]
    simp only [if_true, reduceCtorEq, if_false, add_zero]
    show _ = _ + 1 + (w.handed.map fun r => r.2.packets).sum + Store.total _ w.drops
    ac_rfl
  placed := by
    rw [List.filterMap_append]
    show Placed (seen.filterMap id ++ []) w.handed w.drops
    rw [List.append_nil]
    exact h.placed

theorem record (h : Ledger seen w) (cpu : Fin ncpu) (d : Drop) :
    Ledger (seen ++ [some d]) { w with
      bpf := { w.bpf with maps := statAdd cpu .drops 1 w.bpf.maps }
      drops := recordDrop d.key d.tuple.update d.now w.drops } where
  marks := h.marks.setMaps _
  counted := by
    rw [statTotal_statAdd, h.counted]
    simp
  unparsed := by
    rw [statTotal_statAdd, h.unparsed]
    simp
  balance := by
    have htotal : Store.total (fun _ v => v.packets)
        (recordDrop d.key d.tuple.update d.now w.drops) =
          Store.total (fun _ v => v.packets) w.drops + 1 :=
      Store.total_upsert _ w.drops rfl fun v => rfl
    simp only [statTotal_statAdd, htotal]
    rw [h.balance]
    simp only [if_true, reduceCtorEq, if_false, add_zero]
    show _ = _ + (w.handed.map fun r => r.2.packets).sum + (Store.total _ w.drops + 1)
    ac_rfl
  placed := by
    rw [List.filterMap_append]
    exact h.placed.record d

/-- A batch call moves some entries from the map to the records. -/
theorem take {w' : DropWorld ncpu} {taken : List (DropKey × FlowVal)} (h : Ledger seen w)
    (hnodup : (taken.map Prod.fst).Nodup) (hcurrent : ∀ e ∈ taken, w.drops.lookup e.1 = some e.2)
    (hbpf : w'.bpf = w.bpf) (hdrops : w'.drops = Store.eraseAll w.drops (taken.map Prod.fst))
    (hhanded : w'.handed = w.handed ++ taken) : Ledger seen w' where
  marks := hbpf ▸ h.marks
  counted := hbpf ▸ h.counted
  unparsed := hbpf ▸ h.unparsed
  balance := by
    have htotal := Store.total_eraseAll (fun _ v => v.packets) hnodup hcurrent
    rw [hbpf, hdrops, hhanded, List.map_append, List.sum_append, h.balance, htotal, ← add_assoc,
      ← add_assoc]
  placed := by
    rw [hdrops, hhanded]
    exact h.placed.take hnodup hcurrent

theorem batch (h : Ledger seen w) (L : Layout DropKey) (fault : Bool) :
    Ledger seen (w.batch L fault) := by
  cases hwalk : w.walk with
  | none =>
      rw [DropWorld.batch, hwalk]
      exact h
  | some walk =>
      obtain ⟨taken, hnodup, hcurrent, hentries, hafter⟩ := walk.turn_takes L true fault w.drops
      have hhanded : w.handed = w.exported ++ walk.entries := by
        rw [DropWorld.handed, hwalk]
        rfl
      rw [DropWorld.batch, hwalk]
      simp only [hafter]
      generalize walk.turn L true fault w.drops = result at hentries ⊢
      obtain ⟨walk', ok⟩ := result
      cases ok with
      | none =>
          refine h.take hnodup hcurrent rfl rfl ?_
          show w.exported ++ walk'.entries = _
          rw [hentries, hhanded, List.append_assoc]
      | some ok =>
          refine h.take hnodup hcurrent rfl rfl ?_
          show w.exported ++ walk'.entries ++ [] = _
          rw [List.append_nil, hentries, hhanded, List.append_assoc]

/-- The ledger is kept by every event. -/
theorem step (h : Ledger seen w) (L : Layout DropKey) (e : DropEvent ncpu) :
    Ledger (seen ++ w.dropped e) (w.step L e) := by
  cases e with
  | kfree cpu now skb reason =>
      simp only [DropWorld.step]
      rcases kfree_cases h.marks cpu now skb reason with
        ⟨hnone, hsame⟩ | ⟨hdropped, hstate⟩ | ⟨d, hdropped, hstate⟩
      · rw [hnone, hsame, List.append_nil]
        exact h
      · rw [hdropped, hstate]
        exact h.unparsable cpu
      · rw [hdropped, hstate]
        exact h.record cpu d
  | attach ifindex ethernet ingressOk egressOk =>
      show Ledger (seen ++ []) _
      rw [List.append_nil]
      refine h.frame (h.marks.attach ethernet rfl) ?_ rfl rfl
      exact h.marks.attach_stats ethernet _
  | detach ifindex =>
      show Ledger (seen ++ []) _
      rw [List.append_nil]
      refine h.frame h.marks.detach ?_ rfl rfl
      exact detach_stats ifindex w.bpf
  | drain =>
      show Ledger (seen ++ []) _
      rw [List.append_nil]
      refine h.frame h.marks rfl rfl ?_
      simp only [DropWorld.step, DropWorld.handed]
      cases w.walk with
      | none => rfl
      | some walk => rfl
  | batch fault =>
      show Ledger (seen ++ []) _
      rw [List.append_nil]
      exact h.batch L fault

end Ledger

/-- The ledger after a run. -/
theorem ledger_run (L : Layout DropKey) (devCapacity : Nat) (events : List (DropEvent ncpu)) :
    Ledger (attachedDrops L (DropWorld.start ncpu devCapacity) events)
      (events.foldl (DropWorld.step L) (DropWorld.start ncpu devCapacity)) := by
  induction events using List.reverseRecOn with
  | nil => exact ledger_start ncpu devCapacity
  | append_singleton events e ih =>
      rw [attachedDrops_concat, List.foldl_append]
      exact ih.step L e

/-- **Drops are conserved.**  After any interleaving of dropped packets, attach
and detach calls and batch calls of drains, failed ones included, the drop
counter is the unparsed drops plus the packets of the records handed over plus
those still in the map.  The drops on devices attached at their moment, and no
others, are counted: the unparsable ones in their counter, and each of the rest
in one record or one map entry, whose bytes are the sum of the IP lengths of
its packets.  Between two drains the records handed over are the exported
ones. -/
theorem drops_conserved (L : Layout DropKey) (devCapacity : Nat)
    (events : List (DropEvent ncpu)) :
    let w := events.foldl (DropWorld.step L) (DropWorld.start ncpu devCapacity)
    let seen := attachedDrops L (DropWorld.start ncpu devCapacity) events
    statTotal w.bpf.maps .drops =
        statTotal w.bpf.maps .dropsUnparsed + (w.handed.map fun r => r.2.packets).sum +
          Store.total (fun _ v => v.packets) w.drops ∧
      (w.walk = none → w.handed = w.exported) ∧
      statTotal w.bpf.maps .drops = UInt64.ofNat seen.length ∧
      statTotal w.bpf.maps .dropsUnparsed = UInt64.ofNat (seen.countP Option.isNone) ∧
      Placed (seen.filterMap id) w.handed w.drops := by
  intro w seen
  have hledger : Ledger seen w := ledger_run L devCapacity events
  refine ⟨hledger.balance, ?_, hledger.counted, hledger.unparsed, hledger.placed⟩
  intro hidle
  rw [DropWorld.handed, hidle]
  exact List.append_nil _

end Agent
end Obserwrt
