import Obserwrt.Lib.Handles
import Obserwrt.Lib.Text
import Obserwrt.Agent.Attach

/-!
# What `class Bpf` owns

`bpf.cpp` holds objects and links of libbpf by hand: `load` opens up to two
objects and the link of the drop tracer, `attach` and `detach` make and destroy
the links of a device, and the destructor gives back the rest.  The model keeps
the handles that `Attach` leaves out, and with each map pointer the object that
it points into.  Libbpf's answers are arguments.
-/

namespace Obserwrt
namespace Agent

open Lib

/-! ## The class -/

/-- A link with its handle. -/
structure OwnedLink where
  handle : Nat
  hook : Bpf.Hook
  deriving DecidableEq

/-- `Bpf::Links`. -/
structure OwnedLinks where
  inn : Option OwnedLink := none
  eg : Option OwnedLink := none
  deriving DecidableEq

/-- The links without their handles. -/
def OwnedLinks.view (l : OwnedLinks) : Links := ⟨l.inn.map OwnedLink.hook, l.eg.map OwnedLink.hook⟩

/-- `class Bpf`.  A pointer to a map or a program is the handle of its object;
the four programs of the TC object are found together.  `flowEntries` is the
`max_entries` that the flow map is loaded with. -/
structure Owner where
  lib : Handles := {}
  obj : Option Nat := none
  flows : Option Nat := none
  stats : Option Nat := none
  devstats : Option Nat := none
  progs : Option Nat := none
  flowEntries : UInt32 := 0
  dropsObj : Option Nat := none
  attached : Option Nat := none
  drops : Option Nat := none
  progDrop : Option Nat := none
  dropLink : Option Nat := none
  dropsActive : Bool := false
  atts : Store UInt32 OwnedLinks := ∅

/-- The answers of libbpf for the TC object: whether it opens, what it has,
the `max_entries` baked into it, and whether it loads. -/
structure ObjectEnv where
  openOk : Bool := true
  flows : Bool := true
  stats : Bool := true
  devstats : Bool := true
  progs : Bool := true
  baked : UInt32 := 0
  loadOk : Bool := true
  /-- The text of `errno`, unless it is zero. -/
  errno : Option Bytes := none

/-- The answers for the tracer's object. -/
structure TracerEnv where
  openOk : Bool := true
  stats : Bool := true
  attached : Bool := true
  drops : Bool := true
  prog : Bool := true
  reuseOk : Bool := true
  loadOk : Bool := true
  attachOk : Bool := true
  errno : Option Bytes := none

/-- `libbpf_msg`, with its buffer of 256 bytes. -/
def libbpfMsg (what : Bytes) : Option Bytes → Bytes
  | some e => (what ++ text ": " ++ e).take 255
  | none => (what ++ text " (no errno; see log)").take 255

namespace Owner

/-! ## `load` -/

/-- `bpf_object__close` of the TC object, on a failure. -/
def closeObj (b : Owner) : Owner :=
  { b with lib := b.lib.free b.obj, obj := none }

/-- `open_load`. -/
def openLoad (maxFlows : UInt32) (env : ObjectEnv) (b : Owner) : Except Bytes Unit × Owner :=
  if env.openOk = false then
    (.error (libbpfMsg (text "bpf_object__open_file") env.errno), { b with obj := none })
  else
    let (o, lib) := b.lib.make
    let found (ok : Bool) : Option Nat := if ok then some o else none
    let b := { b with
      lib := lib, obj := some o, flows := found env.flows, stats := found env.stats
      devstats := found env.devstats, progs := found env.progs }
    if (env.flows && env.stats && env.devstats && env.progs) = false then
      (.error (text ("obserwrt-bpf.o: missing map/program (flows/stats/devstats/" ++
        "\x7bingress,egress\x7d_\x7bl3,eth\x7d)")), b.closeObj)
    else
      let entries :=
        if maxFlows = 0 then if env.baked = 0 then 4096 else env.baked else maxFlows
      let b := { b with flowEntries := entries }
      if env.loadOk = false then
        (.error (libbpfMsg (text "bpf_object__load") env.errno), b.closeObj)
      else (.ok (), b)

/-- `close_drops`. -/
def closeDrops (b : Owner) : Owner :=
  { b with
    lib := (b.lib.free b.dropLink).free b.dropsObj
    dropLink := none, dropsObj := none, attached := none, drops := none, progDrop := none
    dropsActive := false }

/-- `load_drops`. -/
def loadDrops (path : Bytes) (env : TracerEnv) (b : Owner) : Except Bytes Unit × Owner :=
  if env.openOk = false then
    (.error (libbpfMsg (text "open " ++ path) env.errno), { b with dropsObj := none })
  else
    let (o, lib) := b.lib.make
    let found (ok : Bool) : Option Nat := if ok then some o else none
    let b := { b with
      lib := lib, dropsObj := some o, attached := found env.attached, drops := found env.drops
      progDrop := found env.prog }
    if (env.stats && env.attached && env.drops && env.prog) = false then
      (.error (path ++ text ": missing map/program (stats/attached/drops/kfree_skb)"),
        b.closeDrops)
    -- one stats map for both objects
    else if env.reuseOk = false then
      (.error (libbpfMsg (text "bpf_map__reuse_fd obserwrt_stats") env.errno), b.closeDrops)
    else if env.loadOk = false then
      (.error (libbpfMsg (text "load " ++ path) env.errno), b.closeDrops)
    else if env.attachOk = false then
      (.error (libbpfMsg (text "attach tp_btf/kfree_skb") env.errno),
        { b with dropLink := none }.closeDrops)
    else
      let (l, lib) := b.lib.make
      (.ok (), { b with lib := lib, dropLink := some l })

/-- `load`: the warning, or why it failed. -/
def load (dropsPath : Bytes) (maxFlows : UInt32) (trackDrops : Bool) (env : ObjectEnv)
    (tracer : TracerEnv) (b : Owner) : Except Bytes Bytes × Owner :=
  match b.openLoad maxFlows env with
  | (.error err, b) => (.error err, b)
  | (.ok (), b) =>
      if trackDrops = false then (.ok [], b)
      else
        -- the tracer is optional: without it the flows are still collected
        match b.loadDrops dropsPath tracer with
        | (.error derr, b) => (.ok (text "drop tracing disabled: " ++ derr), b)
        | (.ok (), b) => (.ok [], { b with dropsActive := true })

/-! ## `attach` and `detach` -/

def setLinks (ifindex : UInt32) (l : OwnedLinks) (b : Owner) : Owner :=
  { b with atts := b.atts.insert ifindex l }

/-- One of the two `attach_tcx` calls, unless its link is there. -/
def hookOn (hook : Bpf.Hook) (ok : Bool) (old : Option OwnedLink) (lib : Handles) :
    Option OwnedLink × Handles :=
  match old with
  | some l => (some l, lib)
  | none =>
      if ok then
        let (h, lib) := lib.make
        (some ⟨h, hook⟩, lib)
      else (none, lib)

/-- The release of one link of a device. -/
def freeLink (lib : Handles) (l : Option OwnedLink) : Handles := lib.free (l.map OwnedLink.handle)

/-- The two hooks of a device, in `attach`. -/
def hookBoth (ethernet : Bool) (env : AttachEnv) (l : OwnedLinks) (lib : Handles) :
    Except AttachError Unit × OwnedLinks × Handles :=
  let (inn, lib) := hookOn ⟨.ingress, ethernet⟩ env.ingressOk l.inn lib
  if inn.isNone then (.error .ingress, { l with inn := inn }, lib)
  else
    let (eg, lib) := hookOn ⟨.egress, ethernet⟩ env.egressOk l.eg lib
    -- no half-attached device: the ingress link goes again
    if eg.isNone then (.error .egress, ⟨none, eg⟩, freeLink lib inn)
    else (.ok (), ⟨inn, eg⟩, lib)

/-- `attach`, up to the counters, the mark and the warnings. -/
def attach (ifindex : UInt32) (ethernet : Bool) (env : AttachEnv) (b : Owner) :
    Except AttachError Unit × Owner :=
  if ifindex = 0 then (.error .invalidIfindex, b)
  else
    let l := (b.atts.lookup ifindex).getD {}
    if l.inn.isSome && l.eg.isSome then (.ok (), b.setLinks ifindex l)
    else
      let (result, l, lib) := hookBoth ethernet env l b.lib
      (result, { b with lib := lib }.setLinks ifindex l)

/-- `detach`, up to the counters and the mark. -/
def detach (ifindex : UInt32) (b : Owner) : Owner :=
  match b.atts.lookup ifindex with
  | none => b
  | some l =>
      { b with lib := freeLink (freeLink b.lib l.inn) l.eg }.setLinks ifindex ⟨none, none⟩

/-- The destructor: what libbpf is left with. -/
def destroy (b : Owner) : Handles :=
  let lib := (Store.pairs b.atts).foldl
    (fun lib e => freeLink (freeLink lib e.2.inn) e.2.eg) b.lib
  ((lib.free b.dropLink).free b.dropsObj).free b.obj

/-! ## The ledger -/

/-- The handles of a link. -/
def linkHandle (l : Option OwnedLink) : List Nat := (l.map OwnedLink.handle).toList

/-- The handles of a device. -/
def linkHandles (l : OwnedLinks) : List Nat := linkHandle l.inn ++ linkHandle l.eg

/-- The handles of the objects and of the tracer's link. -/
def objectHandles (b : Owner) : List Nat :=
  b.dropLink.toList ++ (b.dropsObj.toList ++ b.obj.toList)

/-- Every handle that the members hold. -/
def held (b : Owner) : List Nat :=
  ((Store.pairs b.atts).flatMap fun e => linkHandles e.2) ++ b.objectHandles

/-- The handles of all devices but one. -/
def heldElsewhere (ifindex : UInt32) (b : Owner) : List Nat :=
  ((Store.pairs (b.atts.erase ifindex)).flatMap fun e => linkHandles e.2) ++ b.objectHandles

theorem accounts_freeLink {lib : Handles} {l : Option OwnedLink} {others : List Nat}
    (h : lib.Accounts (linkHandle l ++ others)) : (freeLink lib l).Accounts others :=
  h.free _

theorem accounts_hookOn {hook : Bpf.Hook} {ok : Bool} {old : Option OwnedLink} {lib : Handles}
    {others : List Nat} (h : lib.Accounts (linkHandle old ++ others)) :
    (hookOn hook ok old lib).2.Accounts (linkHandle (hookOn hook ok old lib).1 ++ others) := by
  cases old with
  | some l => exact h
  | none =>
      cases ok with
      | true => exact h.make
      | false => exact h

section Links

variable {b : Owner} {ifindex : UInt32}

/-- The links of one device, and what is held elsewhere. -/
theorem held_split (b : Owner) (ifindex : UInt32) :
    b.held.Perm (linkHandles ((b.atts.lookup ifindex).getD {}) ++ b.heldElsewhere ifindex) := by
  have hsplit := Store.flatMap_pairs_erase linkHandles b.atts ifindex {} rfl
  rw [held, heldElsewhere, ← List.append_assoc]
  exact hsplit.append_right _

/-- New links of a device replace the old ones. -/
theorem accounts_setLinks {l : OwnedLinks}
    (h : b.lib.Accounts (linkHandles l ++ b.heldElsewhere ifindex)) :
    b.lib.Accounts (b.setLinks ifindex l).held := by
  refine h.perm (List.Perm.of_eq ?_)
  show ((Store.pairs (b.atts.insert ifindex l)).flatMap fun e => linkHandles e.2) ++
    b.objectHandles = _
  rw [Store.pairs_insert, List.flatMap_cons, List.append_assoc]
  rfl

theorem accounts_hookBoth {ethernet : Bool} {env : AttachEnv} {l : OwnedLinks} {lib : Handles}
    {others : List Nat} (h : lib.Accounts (linkHandles l ++ others)) :
    (hookBoth ethernet env l lib).2.2.Accounts
      (linkHandles (hookBoth ethernet env l lib).2.1 ++ others) := by
  obtain ⟨inn, eg⟩ := l
  simp only [linkHandles, List.append_assoc] at h ⊢
  have hfirst := @accounts_hookOn ⟨.ingress, ethernet⟩ env.ingressOk inn lib _ h
  simp only [hookBoth]
  generalize hookOn ⟨.ingress, ethernet⟩ env.ingressOk inn lib = first at hfirst ⊢
  obtain ⟨inn', lib'⟩ := first
  simp only at hfirst ⊢
  split
  · exact hfirst
  · have hswap : lib'.Accounts (linkHandle eg ++ (linkHandle inn' ++ others)) :=
      hfirst.perm (List.perm_append_comm_assoc _ _ _)
    have hsecond := @accounts_hookOn ⟨.egress, ethernet⟩ env.egressOk eg lib' _ hswap
    generalize hookOn ⟨.egress, ethernet⟩ env.egressOk eg lib' = second at hsecond ⊢
    obtain ⟨eg', lib''⟩ := second
    simp only at hsecond ⊢
    split
    · rename_i hnone
      obtain rfl : eg' = none := Option.isNone_iff_eq_none.mp hnone
      exact accounts_freeLink hsecond
    · exact hsecond.perm (List.perm_append_comm_assoc _ _ _)

/-- **An attach keeps the ledger**, whatever the two calls answer. -/
theorem accounts_attach (h : b.lib.Accounts b.held) (ethernet : Bool) (env : AttachEnv) :
    (b.attach ifindex ethernet env).2.lib.Accounts (b.attach ifindex ethernet env).2.held := by
  have hold := h.perm (held_split b ifindex).symm
  unfold attach
  split
  · exact h
  · simp only
    split
    · exact accounts_setLinks hold
    · have hboth := @accounts_hookBoth ethernet env _ _ _ hold
      generalize hookBoth ethernet env _ b.lib = both at hboth ⊢
      obtain ⟨result, l, lib⟩ := both
      exact @accounts_setLinks { b with lib := lib } ifindex l hboth

theorem accounts_detach (h : b.lib.Accounts b.held) :
    (b.detach ifindex).lib.Accounts (b.detach ifindex).held := by
  have hold := h.perm (held_split b ifindex).symm
  unfold detach
  cases hlookup : b.atts.lookup ifindex with
  | none => exact h
  | some l =>
      rw [hlookup, Option.getD_some, linkHandles, List.append_assoc] at hold
      exact @accounts_setLinks { b with lib := freeLink (freeLink b.lib l.inn) l.eg } ifindex _
        (accounts_freeLink (accounts_freeLink hold))

/-- **The destructor gives everything back.** -/
theorem accounts_destroy (h : b.lib.Accounts b.held) : b.destroy.Accounts [] := by
  have hgive : ∀ (lib : Handles) (e : UInt32 × OwnedLinks) (others : List Nat),
      lib.Accounts (linkHandles e.2 ++ others) →
        (freeLink (freeLink lib e.2.inn) e.2.eg).Accounts others := by
    intro lib e others hacc
    rw [linkHandles, List.append_assoc] at hacc
    exact accounts_freeLink (accounts_freeLink hacc)
  have hlinks := Handles.Accounts.foldl_free hgive (Store.pairs b.atts) h
  have hobjects := (hlinks.free b.dropLink).free b.dropsObj
  rw [← List.append_nil b.obj.toList] at hobjects
  exact hobjects.free b.obj

end Links

/-! ## What `load` leaves -/

/-- The TC object is open, and every pointer points into an open object. -/
structure Usable (b : Owner) : Prop where
  obj : b.obj.isSome = true
  maps : b.flows = b.obj ∧ b.stats = b.obj ∧ b.devstats = b.obj ∧ b.progs = b.obj
  tracer : b.attached = b.dropsObj ∧ b.drops = b.dropsObj ∧ b.progDrop = b.dropsObj
  active : b.dropsObj.isSome = b.dropsActive ∧ b.dropLink.isSome = b.dropsActive

/-- The state with the TC object loaded. -/
def opened (entries : UInt32) (lib : Handles) : Owner where
  lib := lib
  obj := some 0
  flows := some 0
  stats := some 0
  devstats := some 0
  progs := some 0
  flowEntries := entries

/-- The size of the flow map: the configured one, else the one baked into the
object, else 4096. -/
def entriesFor (maxFlows baked : UInt32) : UInt32 :=
  if maxFlows = 0 then if baked = 0 then 4096 else baked else maxFlows

theorem openLoad_cases (maxFlows : UInt32) (env : ObjectEnv) :
    (∃ err b, openLoad maxFlows env {} = (.error err, b) ∧ b.held = [] ∧ b.lib.Accounts []) ∨
      openLoad maxFlows env {} = (.ok (), opened (entriesFor maxFlows env.baked) ⟨1, []⟩) := by
  have hfresh : (⟨1, []⟩ : Handles).Accounts [0] := Handles.Accounts.empty.make
  unfold openLoad
  split
  · exact Or.inl ⟨_, _, rfl, rfl, Handles.Accounts.empty⟩
  · simp only
    split
    · exact Or.inl ⟨_, _, rfl, rfl, hfresh.release⟩
    · rename_i hfound
      split
      · exact Or.inl ⟨_, _, rfl, rfl, hfresh.release⟩
      · simp only [Bool.not_eq_false, Bool.and_eq_true] at hfound
        obtain ⟨⟨⟨hflows, hstats⟩, hdevstats⟩, hprogs⟩ := hfound
        right
        rw [hflows, hstats, hdevstats, hprogs]
        rfl

/-- A tracer that fails leaves nothing of it. -/
theorem loadDrops_cases (path : Bytes) (env : TracerEnv) (entries : UInt32) :
    (∃ err lib, loadDrops path env (opened entries ⟨1, []⟩) = (.error err, opened entries lib) ∧
        lib.Accounts [0]) ∨
      loadDrops path env (opened entries ⟨1, []⟩) = (.ok (), { opened entries ⟨3, []⟩ with
        dropsObj := some 1, attached := some 1, drops := some 1, progDrop := some 1
        dropLink := some 2 }) := by
  have hfresh : (⟨1, []⟩ : Handles).Accounts [0] := Handles.Accounts.empty.make
  have hclosed : (⟨2, [1]⟩ : Handles).Accounts [0] := hfresh.make.release
  unfold loadDrops
  split
  · exact Or.inl ⟨_, _, rfl, hfresh⟩
  · simp only
    split
    · exact Or.inl ⟨_, _, rfl, hclosed⟩
    · rename_i hfound
      split
      · exact Or.inl ⟨_, _, rfl, hclosed⟩
      · split
        · exact Or.inl ⟨_, _, rfl, hclosed⟩
        · split
          · exact Or.inl ⟨_, _, rfl, hclosed⟩
          · simp only [Bool.not_eq_false, Bool.and_eq_true] at hfound
            obtain ⟨⟨⟨-, hattached⟩, hdrops⟩, hprog⟩ := hfound
            right
            rw [hattached, hdrops, hprog]
            rfl

/-- After `load`: either nothing is held, or the TC object is open and the tracer
is there exactly if it was asked for and there is no warning. -/
theorem load_cases (path : Bytes) (maxFlows : UInt32) (trackDrops : Bool) (env : ObjectEnv)
    (tracer : TracerEnv) :
    (∃ err b, load path maxFlows trackDrops env tracer {} = (.error err, b) ∧ b.held = [] ∧
        b.lib.Accounts []) ∨
      ∃ warn b, load path maxFlows trackDrops env tracer {} = (.ok warn, b) ∧
        b.lib.Accounts b.held ∧ b.Usable ∧ b.atts = ∅ ∧
        b.flowEntries = entriesFor maxFlows env.baked ∧
        (b.dropsActive = true ↔ trackDrops = true ∧ warn = []) := by
  rcases openLoad_cases maxFlows env with ⟨err, b, hopen, hheld, hacc⟩ | hopen
  · exact Or.inl ⟨err, b, by rw [load, hopen], hheld, hacc⟩
  · right
    have hfresh : (⟨1, []⟩ : Handles).Accounts [0] := Handles.Accounts.empty.make
    have husable : ∀ lib, (opened (entriesFor maxFlows env.baked) lib).Usable := fun lib =>
      ⟨rfl, ⟨rfl, rfl, rfl, rfl⟩, ⟨rfl, rfl, rfl⟩, ⟨rfl, rfl⟩⟩
    cases trackDrops with
    | false =>
        refine ⟨_, _, by rw [load, hopen]; rfl, hfresh, husable _, rfl, rfl, ?_⟩
        exact ⟨fun h => absurd h Bool.false_ne_true, fun h => absurd h.1 Bool.false_ne_true⟩
    | true =>
        rcases loadDrops_cases path tracer (entriesFor maxFlows env.baked) with
          ⟨derr, lib, hdrops, hacc⟩ | hdrops
        · refine ⟨_, _, by simp only [load, hopen, hdrops]; rfl, hacc, husable _, rfl, rfl, ?_⟩
          refine ⟨fun h => absurd h Bool.false_ne_true, fun h => ?_⟩
          exact absurd (List.append_eq_nil_iff.mp h.2).1 (by decide +kernel)
        · have hthree : (⟨3, []⟩ : Handles).Accounts [2, 1, 0] := hfresh.make.make
          refine ⟨[], _, by simp only [load, hopen, hdrops]; rfl, hthree, ?_, rfl, rfl, ?_⟩
          · exact ⟨rfl, ⟨rfl, rfl, rfl, rfl⟩, ⟨rfl, rfl, rfl⟩, ⟨rfl, rfl⟩⟩
          · exact ⟨fun _ => ⟨rfl, rfl⟩, fun _ => rfl⟩

/-! ## Runs of calls -/

/-- A call on the loaded class. -/
inductive Call
  | attach (ifindex : UInt32) (ethernet : Bool) (env : AttachEnv)
  | detach (ifindex : UInt32)

def call (b : Owner) : Call → Owner
  | .attach ifindex ethernet env => (b.attach ifindex ethernet env).2
  | .detach ifindex => b.detach ifindex

theorem accounts_call {b : Owner} (h : b.lib.Accounts b.held) (c : Call) :
    (b.call c).lib.Accounts (b.call c).held := by
  cases c with
  | attach ifindex ethernet env => exact accounts_attach h ethernet env
  | detach ifindex => exact accounts_detach h

theorem accounts_calls {b : Owner} (h : b.lib.Accounts b.held) (calls : List Call) :
    (calls.foldl call b).lib.Accounts (calls.foldl call b).held := by
  induction calls generalizing b with
  | nil => exact h
  | cons c calls ih => exact ih (accounts_call h c)

/-- A call changes only the links. -/
theorem call_frame (b : Owner) (c : Call) :
    ∃ lib atts, b.call c = { b with lib := lib, atts := atts } := by
  cases c with
  | attach ifindex ethernet env =>
      show ∃ lib atts, (b.attach ifindex ethernet env).2 = _
      unfold attach
      split
      · exact ⟨_, _, rfl⟩
      · simp only
        split
        · exact ⟨_, _, rfl⟩
        · exact ⟨_, _, rfl⟩
  | detach ifindex =>
      show ∃ lib atts, b.detach ifindex = _
      unfold detach
      split
      · exact ⟨_, _, rfl⟩
      · exact ⟨_, _, rfl⟩

theorem calls_frame (b : Owner) (calls : List Call) :
    ∃ lib atts, calls.foldl call b = { b with lib := lib, atts := atts } := by
  induction calls generalizing b with
  | nil => exact ⟨_, _, rfl⟩
  | cons c calls ih =>
      obtain ⟨lib, atts, hcall⟩ := b.call_frame c
      obtain ⟨lib', atts', hcalls⟩ := ih (b.call c)
      exact ⟨lib', atts', by rw [List.foldl_cons, hcalls, hcall]⟩

/-! ## The links without handles -/

variable {ncpu : Nat}

/-- The class holds the links of the handle-free state. -/
def SameLinks (b : Owner) (s : BpfState ncpu) : Prop :=
  ∀ i, (b.atts.lookup i).map OwnedLinks.view = s.atts.lookup i

/-- The same call on the handle-free state. -/
def callLinks (s : BpfState ncpu) : Call → BpfState ncpu
  | .attach ifindex ethernet env => (Agent.attach ifindex ethernet env s).2
  | .detach ifindex => Agent.detach ifindex s

/-- What `attach` does to the links of its device. -/
def hookLinks (ethernet : Bool) (env : AttachEnv) (l : Links) : Except AttachError Unit × Links :=
  if l.live then (.ok (), l)
  else if l.inn.isNone && !env.ingressOk then (.error .ingress, l)
  else if l.eg.isNone && !env.egressOk then (.error .egress, { l with inn := none })
  else (.ok (), ⟨l.inn.or (some ⟨.ingress, ethernet⟩), l.eg.or (some ⟨.egress, ethernet⟩)⟩)

theorem finishAttach_spec (ifindex : UInt32) (env : AttachEnv) (s : BpfState ncpu) :
    (finishAttach ifindex env s).1.map (fun _ => ()) = .ok () ∧
      (finishAttach ifindex env s).2.atts = s.atts := by
  refine ⟨rfl, ?_⟩
  show (markAttached ifindex env s).2.atts = s.atts
  rw [markAttached_spec]

/-- **What an attach does to the links**, in the state without handles. -/
theorem attach_hookLinks {ifindex : UInt32} (hindex : ifindex ≠ 0) (ethernet : Bool)
    (env : AttachEnv) (s : BpfState ncpu) :
    (Agent.attach ifindex ethernet env s).1.map (fun _ => ()) =
        (hookLinks ethernet env ((s.atts.lookup ifindex).getD {})).1 ∧
      ∀ i, (Agent.attach ifindex ethernet env s).2.atts.lookup i =
        if i = ifindex then some (hookLinks ethernet env ((s.atts.lookup ifindex).getD {})).2
        else s.atts.lookup i := by
  simp only [Agent.attach, if_neg hindex]
  generalize (s.atts.lookup ifindex).getD {} = l
  unfold hookLinks
  split
  · exact ⟨rfl, fun i => Store.lookup_insert_eq _ _ _ _⟩
  · have hclear : ∀ t : BpfState ncpu,
        (if l.inn.isNone && l.eg.isNone then dropDevCounters ifindex t else t).atts = t.atts := by
      intro t
      split <;> rfl
    generalize hcleared : (if l.inn.isNone && l.eg.isNone then
      dropDevCounters ifindex (Agent.setLinks ifindex l s) else Agent.setLinks ifindex l s) = t
    have ht : t.atts = s.atts.insert ifindex l := by
      rw [← hcleared, hclear]
      rfl
    have hset : ∀ (l' : Links) (i : UInt32), (Agent.setLinks ifindex l' t).atts.lookup i =
        if i = ifindex then some l' else s.atts.lookup i := by
      intro l' i
      show (t.atts.insert ifindex l').lookup i = _
      rw [Store.lookup_insert_eq, ht, Store.lookup_insert_eq]
      split <;> rfl
    split
    · refine ⟨rfl, fun i => ?_⟩
      rw [ht]
      exact Store.lookup_insert_eq _ _ _ _
    · have hdone : ∀ (l' : Links) (i : UInt32),
          (finishAttach ifindex env (Agent.setLinks ifindex l' t)).2.atts.lookup i =
            if i = ifindex then some l' else s.atts.lookup i := by
        intro l' i
        rw [(finishAttach_spec _ _ _).2]
        exact hset l' i
      obtain ⟨inn, eg⟩ := l
      -- which of the two links is there already
      cases inn <;> cases eg <;>
        · simp only [Option.isNone_none, Option.isNone_some, Bool.true_and, Bool.false_and,
            if_true, if_false, Option.none_or, Option.some_or, Bool.false_eq_true]
          first
            | exact ⟨rfl, hdone _⟩
            | (split
               · exact ⟨rfl, hset _⟩
               · exact ⟨rfl, hdone _⟩)

/-- A device's hooks with their handles follow the ones without. -/
theorem hookBoth_view (ethernet : Bool) (env : AttachEnv) (l : OwnedLinks) (lib : Handles)
    (hdead : (l.inn.isSome && l.eg.isSome) = false) :
    (hookBoth ethernet env l lib).1 = (hookLinks ethernet env l.view).1 ∧
      (hookBoth ethernet env l lib).2.1.view = (hookLinks ethernet env l.view).2 := by
  obtain ⟨inn, eg⟩ := l
  obtain ⟨ingressOk, egressOk, markOk⟩ := env
  cases inn with
  | none => cases eg <;> cases ingressOk <;> cases egressOk <;> exact ⟨rfl, rfl⟩
  | some l =>
      cases eg with
      | none => cases egressOk <;> exact ⟨rfl, rfl⟩
      | some l' => exact absurd hdead (by simp)

theorem getD_view {b : Owner} {s : BpfState ncpu} (hsame : SameLinks b s) (i : UInt32) :
    (s.atts.lookup i).getD {} = ((b.atts.lookup i).getD {}).view := by
  rw [← hsame i]
  cases b.atts.lookup i with
  | none => rfl
  | some l => rfl

/-- **An attach answers as it does without handles**, and leaves the same links. -/
theorem attach_same {b : Owner} {s : BpfState ncpu} (hsame : SameLinks b s) (ifindex : UInt32)
    (ethernet : Bool) (env : AttachEnv) :
    (b.attach ifindex ethernet env).1 =
        (Agent.attach ifindex ethernet env s).1.map (fun _ => ()) ∧
      SameLinks (b.attach ifindex ethernet env).2 (Agent.attach ifindex ethernet env s).2 := by
  by_cases hindex : ifindex = 0
  · simp only [attach, Agent.attach, if_pos hindex]
    exact ⟨rfl, hsame⟩
  · obtain ⟨hresult, hlinks⟩ := attach_hookLinks hindex ethernet env s
    rw [getD_view hsame] at hresult hlinks
    -- whatever links the device gets, the others keep theirs
    have hset : ∀ (lib : Handles) (l : OwnedLinks),
        l.view = (hookLinks ethernet env ((b.atts.lookup ifindex).getD {}).view).2 →
          SameLinks (setLinks ifindex l { b with lib := lib })
            (Agent.attach ifindex ethernet env s).2 := by
      intro lib l hview i
      show ((b.atts.insert ifindex l).lookup i).map OwnedLinks.view = _
      rw [hlinks, Store.lookup_insert_eq, ← hview]
      split
      · rfl
      · exact hsame i
    rw [hresult]
    simp only [attach, if_neg hindex]
    split
    · rename_i hlive
      have hkept : hookLinks ethernet env ((b.atts.lookup ifindex).getD {}).view =
          (.ok (), ((b.atts.lookup ifindex).getD {}).view) := by
        rw [hookLinks, if_pos]
        simpa [Links.live, OwnedLinks.view] using hlive
      exact ⟨by rw [hkept], hset _ _ (by rw [hkept])⟩
    · rename_i hdead
      obtain ⟨hanswer, hview⟩ :=
        hookBoth_view ethernet env ((b.atts.lookup ifindex).getD {}) b.lib
          (Bool.eq_false_of_not_eq_true hdead)
      exact ⟨hanswer, hset _ _ hview⟩

theorem detach_same {b : Owner} {s : BpfState ncpu} (hsame : SameLinks b s) (ifindex : UInt32) :
    SameLinks (b.detach ifindex) (Agent.detach ifindex s) := by
  have hdevice := hsame ifindex
  unfold detach Agent.detach
  cases hlookup : b.atts.lookup ifindex with
  | none =>
      rw [hlookup, Option.map_none] at hdevice
      rw [← hdevice]
      exact hsame
  | some l =>
      rw [hlookup, Option.map_some] at hdevice
      rw [← hdevice]
      intro i
      show ((b.atts.insert ifindex _).lookup i).map OwnedLinks.view =
        (s.atts.insert ifindex {}).lookup i
      rw [Store.lookup_insert_eq, Store.lookup_insert_eq]
      split
      · rfl
      · exact hsame i

theorem calls_same {b : Owner} {s : BpfState ncpu} (hsame : SameLinks b s) (calls : List Call) :
    SameLinks (calls.foldl call b) (calls.foldl callLinks s) := by
  induction calls generalizing b s with
  | nil => exact hsame
  | cons c calls ih =>
      cases c with
      | attach ifindex ethernet env => exact ih (attach_same hsame ifindex ethernet env).2
      | detach ifindex => exact ih (detach_same hsame ifindex)

/-! ## The result -/

/-- What holds of the class after `load` succeeded and any calls: nothing leaked,
nothing given back twice, no pointer into a closed object, and the same links as
in the state `s` without handles, which answers the next attach alike. -/
structure Sound (b : Owner) (s : BpfState ncpu) : Prop where
  accounts : b.lib.Accounts b.held
  usable : b.Usable
  links : SameLinks b s
  answers : ∀ ifindex ethernet env, (b.attach ifindex ethernet env).1 =
    (Agent.attach ifindex ethernet env s).1.map fun _ => ()
  destroyed : b.destroy.released.Perm (List.range b.destroy.made)

/-- **The class gives back what it was given**, whatever libbpf answers.  A `load`
that fails holds nothing.  After one that succeeds the class is sound under every
sequence of calls, the flow map has its size, and the tracer runs exactly if it was
asked for and there was no warning. -/
theorem handles_balanced (path : Bytes) (maxFlows : UInt32) (trackDrops : Bool) (env : ObjectEnv)
    (tracer : TracerEnv) (calls : List Call) (maps : Bpf.Maps ncpu)
    (marks : Option (Store UInt32 UInt8)) :
    match load path maxFlows trackDrops env tracer {} with
    | (.error _, b) => b.held = [] ∧ b.destroy.released.Perm (List.range b.destroy.made)
    | (.ok warn, b) =>
        Sound (calls.foldl call b) (calls.foldl callLinks ⟨maps, ∅, marks⟩) ∧
          (calls.foldl call b).flowEntries = entriesFor maxFlows env.baked ∧
          ((calls.foldl call b).dropsActive = true ↔ trackDrops = true ∧ warn = []) := by
  rcases load_cases path maxFlows trackDrops env tracer with
    ⟨err, b, hload, hheld, hacc⟩ | ⟨warn, b, hload, hacc, husable, hatts, hentries, hactive⟩
  · rw [hload]
    exact ⟨hheld, (accounts_destroy (by rw [hheld]; exact hacc)).settled⟩
  · rw [hload]
    have hsame : SameLinks b (⟨maps, ∅, marks⟩ : BpfState ncpu) := by
      intro i
      rw [hatts]
      rfl
    have hsameAfter := calls_same hsame calls
    have haccounts := accounts_calls hacc calls
    obtain ⟨lib, atts, hframe⟩ := b.calls_frame calls
    refine ⟨⟨haccounts, ?_, hsameAfter, fun i eth env => (attach_same hsameAfter i eth env).1,
      (accounts_destroy haccounts).settled⟩, ?_, ?_⟩
    · rw [hframe]
      exact ⟨husable.obj, husable.maps, husable.tracer, husable.active⟩
    · rw [hframe]
      exact hentries
    · rw [hframe]
      exact hactive

end Owner
end Agent
end Obserwrt
