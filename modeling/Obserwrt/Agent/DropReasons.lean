import Mathlib.Data.List.Infix
import Obserwrt.Lib.Store
import Obserwrt.Lib.Text

/-!
# Kernel drop reasons

`DropReasons` of `drop_reasons.cpp`: the enumerators of the running kernel's
`enum skb_drop_reason`, as its BTF lists them, become names and RFC 7270
forwarding statuses.  What libbpf does to find the enumeration is left out; its
enumerators come in as a list of values and names.
-/

namespace Obserwrt
namespace Agent

open Lib

/-- `PREFIX`. -/
def reasonPrefix : Bytes := text "SKB_DROP_REASON_"

/-! ## Names to statuses -/

def dropUnknown : UInt8 := 128
def dropAclDrop : UInt8 := 130
def dropUnroutable : UInt8 := 131
def dropAdjacency : UInt8 := 132
def dropFragDf : UInt8 := 133
def dropBadChecksum : UInt8 := 134
def dropBadLength : UInt8 := 135
def dropBadHeader : UInt8 := 136
def dropBadTtl : UInt8 := 137
def dropQueue : UInt8 := 139
def dropRpf : UInt8 := 140
def dropBadOutIf : UInt8 := 142

/-- The statuses a name can have. -/
def dropStatuses : List UInt8 :=
  [dropUnknown, dropAclDrop, dropUnroutable, dropAdjacency, dropFragDf, dropBadChecksum,
    dropBadLength, dropBadHeader, dropBadTtl, dropQueue, dropRpf, dropBadOutIf]

/-- `has`. -/
def has (s : Bytes) (part : String) : Bool :=
  decide (text part <:+: s)

/-- `starts_with`. -/
def startsWith (s : Bytes) (front : String) : Bool :=
  (text front).isPrefixOf s

/-- `DropReasons::status_for_name`.  The more specific patterns come first. -/
def statusForName (n : Bytes) : UInt8 :=
  if has n "NETFILTER" || startsWith n "TC_" || startsWith n "XDP" then dropAclDrop
  else if has n "RPFILTER" then dropRpf
  else if has n "NOROUTE" then dropUnroutable
  else if has n "CSUM" then dropBadChecksum
  else if n = text "PKT_TOO_BIG" then dropFragDf
  else if n = text "PKT_TOO_SMALL" then dropBadLength
  else if has n "INHDR" || has n "HDR_TRUNC" || has n "BAD_EXTHDR" ||
      decide (n = text "INVALID_PROTO") then dropBadHeader
  else if has n "TTL" || has n "HOP_LIMIT" then dropBadTtl
  else if startsWith n "NEIGH_" then dropAdjacency
  else if startsWith n "QDISC" || decide (n = text "CPU_BACKLOG") ||
      decide (n = text "FULL_RING") || decide (n = text "QUEUE_PURGE") then dropQueue
  else if startsWith n "DEV_" then dropBadOutIf
  else dropUnknown

/-! ## The table -/

/-- `DropReasons::Reason`. -/
structure Reason where
  name : Bytes
  forwardingStatus : UInt8
  deriving DecidableEq

/-- `by_value_`. -/
abbrev DropReasons := Store UInt32 Reason

namespace DropReasons

/-- `DropReasons::add`. -/
def add (table : DropReasons) (raw : UInt32) (name : Bytes) : DropReasons :=
  table.insert raw ⟨name, statusForName name⟩

/-- An enumerator's name without the common prefix. -/
def shortName (name : Bytes) : Bytes :=
  if reasonPrefix.isPrefixOf name then name.drop reasonPrefix.length else name

/-- `DropReasons::load`, over the enumerators that BTF lists. -/
def load (table : DropReasons) (enumerators : List (UInt32 × Bytes)) : DropReasons :=
  enumerators.foldl (fun table e => table.add e.1 (shortName e.2)) table

/-- The name of a value that the kernel does not list. -/
def unlisted (raw : UInt32) : Reason :=
  ⟨text "reason_" ++ decimalBytes raw.toNat, dropUnknown⟩

/-- `DropReasons::lookup`. -/
def resolve (table : DropReasons) (raw : UInt32) : Reason :=
  (table.lookup raw).getD (unlisted raw)

end DropReasons

/-! ## What the table resolves -/

theorem mem_ite {α : Type} {p : Prop} [Decidable p] {a b : α} {l : List α} (ha : a ∈ l)
    (hb : b ∈ l) : (if p then a else b) ∈ l := by
  split
  · exact ha
  · exact hb

theorem statusForName_mem (n : Bytes) : statusForName n ∈ dropStatuses := by
  rw [statusForName]
  repeat' apply mem_ite
  all_goals decide

/-- A status of the list says "dropped": its two top bits are 10. -/
theorem dropped_of_mem {status : UInt8} (hmem : status ∈ dropStatuses) :
    status.toNat / 64 = 2 := by
  have hall : dropStatuses.all (fun s => decide (s.toNat / 64 = 2)) = true := by
    decide +kernel
  exact of_decide_eq_true (List.all_eq_true.mp hall status hmem)

namespace DropReasons

/-- Of several enumerators with one value the last one counts. -/
theorem load_lookup (table : DropReasons) (enumerators : List (UInt32 × Bytes)) (raw : UInt32) :
    (load table enumerators).lookup raw =
      match (enumerators.filter fun e => e.1 = raw).getLast? with
      | none => table.lookup raw
      | some e => some ⟨shortName e.2, statusForName (shortName e.2)⟩ := by
  induction enumerators using List.reverseRecOn with
  | nil => rfl
  | append_singleton enumerators e ih =>
      rw [load, List.foldl_append, List.filter_append]
      show ((load table enumerators).add e.1 (shortName e.2)).lookup raw = _
      rw [add, Store.lookup_insert_eq]
      by_cases hraw : raw = e.1
      · subst hraw
        simp
      · have hne : ¬e.1 = raw := fun h => hraw h.symm
        simp [hraw, hne, ih]

/-- A table whose statuses are all of the list. -/
def Dropped (table : DropReasons) : Prop :=
  ∀ raw reason, table.lookup raw = some reason → reason.forwardingStatus ∈ dropStatuses

theorem dropped_add {table : DropReasons} (h : table.Dropped) (raw : UInt32) (name : Bytes) :
    (table.add raw name).Dropped := by
  intro raw' reason hlookup
  rw [add, Store.lookup_insert_eq] at hlookup
  split at hlookup
  · cases hlookup
    exact statusForName_mem name
  · exact h raw' reason hlookup

/-- Whatever a table of such statuses resolves, the status says "dropped". -/
theorem resolve_dropped {table : DropReasons} (h : table.Dropped) (raw : UInt32) :
    (table.resolve raw).forwardingStatus ∈ dropStatuses := by
  unfold resolve
  cases hlookup : table.lookup raw with
  | none => exact List.mem_cons_self
  | some reason => exact h raw reason hlookup

theorem load_dropped {table : DropReasons} (h : table.Dropped)
    (enumerators : List (UInt32 × Bytes)) : (load table enumerators).Dropped := by
  induction enumerators generalizing table with
  | nil => exact h
  | cons e enumerators ih => exact ih (dropped_add h e.1 (shortName e.2))

theorem empty_dropped : Dropped ∅ := by
  intro raw reason hlookup
  simp at hlookup

/-- The names of values that are not listed differ. -/
theorem unlisted_inj {raw raw' : UInt32} (h : (unlisted raw).name = (unlisted raw').name) :
    raw = raw' := by
  have hdigits : decimalBytes raw.toNat = decimalBytes raw'.toNat :=
    List.append_cancel_left h
  have hnat : raw.toNat = raw'.toNat := by
    rw [← digitsValue_decimalBytes raw.toNat, hdigits, digitsValue_decimalBytes]
  exact UInt32.toNat_inj.mp hnat

/-- The enumeration of a kernel: its short names differ, and none is spelled as
the name of a value that is not listed. -/
structure Enumeration (enumerators : List (UInt32 × Bytes)) : Prop where
  names : ∀ e ∈ enumerators, ∀ e' ∈ enumerators, shortName e.2 = shortName e'.2 → e.1 = e'.1
  listed : ∀ e ∈ enumerators, startsWith (shortName e.2) "reason_" = false

theorem Enumeration.shortName_ne {enumerators : List (UInt32 × Bytes)}
    (h : Enumeration enumerators) {e : UInt32 × Bytes} (he : e ∈ enumerators) (raw : UInt32) :
    shortName e.2 ≠ (unlisted raw).name := by
  intro hname
  have hlisted := h.listed e he
  have hprefix : startsWith (unlisted raw).name "reason_" = true :=
    List.isPrefixOf_iff_prefix.mpr (List.prefix_append _ _)
  rw [hname, hprefix] at hlisted
  cases hlisted

/-- The value a name stands for, when the table came from the kernel. -/
theorem load_resolve_cases (enumerators : List (UInt32 × Bytes)) (raw : UInt32) :
    (∃ e ∈ enumerators, e.1 = raw ∧
        (load ∅ enumerators).resolve raw = ⟨shortName e.2, statusForName (shortName e.2)⟩) ∨
      ((∀ e ∈ enumerators, e.1 ≠ raw) ∧ (load ∅ enumerators).resolve raw = unlisted raw) := by
  have hlookup := load_lookup ∅ enumerators raw
  cases hlast : (enumerators.filter fun e => e.1 = raw).getLast? with
  | none =>
      right
      rw [hlast] at hlookup
      refine ⟨?_, ?_⟩
      · intro e he hraw
        have hmem : e ∈ enumerators.filter fun e => e.1 = raw := by simp [he, hraw]
        rw [List.getLast?_eq_none_iff] at hlast
        rw [hlast] at hmem
        cases hmem
      · show ((load ∅ enumerators).lookup raw).getD _ = _
        rw [hlookup]
        rfl
  | some e =>
      left
      rw [hlast] at hlookup
      have hmem := List.mem_of_getLast? hlast
      simp only [List.mem_filter, decide_eq_true_eq] at hmem
      refine ⟨e, hmem.1, hmem.2, ?_⟩
      show ((load ∅ enumerators).lookup raw).getD _ = _
      rw [hlookup]
      rfl

/-- **What a drop is reported as.**  For the enumeration of every kernel and
every raw value: the status says "dropped" and is one of the twelve; a value
that is not listed is named by its number with status 128; and the name tells
the values apart. -/
theorem reasons_identify (enumerators : List (UInt32 × Bytes)) (h : Enumeration enumerators)
    (raw : UInt32) :
    ((load ∅ enumerators).resolve raw).forwardingStatus ∈ dropStatuses ∧
      ((load ∅ enumerators).resolve raw).forwardingStatus.toNat / 64 = 2 ∧
      ((∀ e ∈ enumerators, e.1 ≠ raw) →
        (load ∅ enumerators).resolve raw = unlisted raw) ∧
      ∀ raw', ((load ∅ enumerators).resolve raw').name = ((load ∅ enumerators).resolve raw).name →
        raw' = raw := by
  have hstatus := resolve_dropped (load_dropped empty_dropped enumerators) raw
  refine ⟨hstatus, dropped_of_mem hstatus, ?_, ?_⟩
  · intro hnone
    rcases load_resolve_cases enumerators raw with ⟨e, he, hraw, -⟩ | ⟨-, hresolve⟩
    · exact absurd hraw (hnone e he)
    · exact hresolve
  · intro raw' hname
    -- a listed name is no number name, so both values are listed or neither is
    rcases load_resolve_cases enumerators raw with ⟨e, he, rfl, hresolve⟩ | ⟨-, hresolve⟩
    · rcases load_resolve_cases enumerators raw' with ⟨e', he', rfl, hresolve'⟩ | ⟨-, hresolve'⟩
      · rw [hresolve, hresolve'] at hname
        exact h.names e' he' e he hname
      · rw [hresolve, hresolve'] at hname
        exact absurd hname.symm (h.shortName_ne he raw')
    · rcases load_resolve_cases enumerators raw' with ⟨e', he', rfl, hresolve'⟩ | ⟨-, hresolve'⟩
      · rw [hresolve, hresolve'] at hname
        exact absurd hname (h.shortName_ne he' raw)
      · rw [hresolve, hresolve'] at hname
        exact unlisted_inj hname

/-- Three enumerators of a kernel. -/
def demoEnumerators : List (UInt32 × Bytes) :=
  [(0, text "SKB_NOT_DROPPED_YET"), (2, text "SKB_DROP_REASON_NOT_SPECIFIED"),
    (8, text "SKB_DROP_REASON_NETFILTER_DROP")]

theorem reasons_identify_demo :
    (load ∅ demoEnumerators).resolve 77 = unlisted 77 ∧
      ∀ raw', ((load ∅ demoEnumerators).resolve raw').name =
        ((load ∅ demoEnumerators).resolve 8).name → raw' = 8 := by
  have hkernel : Enumeration demoEnumerators := ⟨by decide +kernel, by decide +kernel⟩
  exact ⟨(reasons_identify demoEnumerators hkernel 77).2.2.1 (by decide),
    (reasons_identify demoEnumerators hkernel 8).2.2.2⟩

end DropReasons
end Agent
end Obserwrt
