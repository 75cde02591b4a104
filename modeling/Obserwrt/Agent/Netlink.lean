import Obserwrt.Agent.OnLink

/-!
# Decoding rtnetlink messages

`parse_link`, `dispatch` and the message loop of `dump` (`reconcile.cpp`), at
the level of bytes, with the macros of the kernel headers they use.  A pointer
is an offset from the start of the received buffer.  The loops compute on
whatever memory holds, past the buffer too, and keep a trace: the offsets read,
whether a link message was read past its own end, and whether a
remaining-length counter went below zero.
-/

namespace Obserwrt
namespace Agent

open Lib

/-- The memory from the start of the buffer on. -/
abbrev Buffer := Nat → UInt8

/-- The byte order of the machine. -/
inductive ByteOrder
  | little
  | big
  deriving DecidableEq

/-- What the decoder depends on of the machine: its byte order and the width of
`size_t`. -/
structure Host where
  order : ByteOrder
  sizeBits : Nat
  hbits : 32 ≤ sizeBits

/-- A `__u16` in host order. -/
def Host.u16At (host : Host) (buf : Buffer) (p : Nat) : Nat :=
  match host.order with
  | .little => (buf p).toNat + 256 * (buf (p + 1)).toNat
  | .big => 256 * (buf p).toNat + (buf (p + 1)).toNat

/-- A `__u32` in host order. -/
def Host.u32At (host : Host) (buf : Buffer) (p : Nat) : Nat :=
  match host.order with
  | .little => host.u16At buf p + 65536 * host.u16At buf (p + 2)
  | .big => 65536 * host.u16At buf p + host.u16At buf (p + 2)

/-- `NLMSG_ALIGN` and `RTA_ALIGN`, in the 32-bit arithmetic of the macros. -/
def nlmsgAlign (n : Nat) : Nat :=
  (n + 3) % 2 ^ 32 / 4 * 4

/-- Subtraction of unsigned counters. -/
def subMod (modulus a b : Nat) : Nat :=
  (a + modulus - b) % modulus

/-- What a decoder touched. -/
structure ReadTrace where
  reads : List Nat := []
  overrun : Bool := false
  wrapped : Bool := false
  deriving DecidableEq

namespace ReadTrace

/-- One trace after the other. -/
def and (t t' : ReadTrace) : ReadTrace where
  reads := t.reads ++ t'.reads
  overrun := t.overrun || t'.overrun
  wrapped := t.wrapped || t'.wrapped

/-- Reads at these offsets of a link message that ends at `stop`. -/
def link (stop : Nat) (offsets : List Nat) : ReadTrace where
  reads := offsets
  overrun := offsets.any fun p => decide (stop ≤ p)

/-- A counter `left` is lowered by `step`. -/
def lower (left step : Nat) : ReadTrace where
  wrapped := decide (left < step)

/-- Only bytes of the buffer were read, no link message past its own end, and
no counter went below zero. -/
structure Safe (len : Nat) (t : ReadTrace) : Prop where
  inside : ∀ p ∈ t.reads, p < len
  within : t.overrun = false
  nowrap : t.wrapped = false

end ReadTrace

/-! ## The attribute loop -/

/-- `RTA_OK`, once `len` has room for the header: the length it tests. -/
def rtaOk (rtaLen len : Nat) : Bool :=
  decide (4 ≤ rtaLen ∧ rtaLen ≤ len)

/-- `IFLA_IFNAME` with a payload. -/
def isIfname (rtaType rtaLen : Nat) : Bool :=
  decide (rtaType = 3 ∧ 0 < rtaLen - 4)

/-- `n` bytes from `p` on. -/
def bytesAt (buf : Buffer) (p n : Nat) : Bytes :=
  (List.range n).map fun i => buf (p + i)

/-- What one attribute is read for, by `parse_link` on a message that ends at
`stop`: its type, and the name behind the header. -/
def attrTrace (host : Host) (buf : Buffer) (stop rta : Nat) : ReadTrace :=
  let rtaLen := host.u16At buf rta
  let name := isIfname (host.u16At buf (rta + 2)) rtaLen
  ReadTrace.link stop (List.range' rta 4 ++ if name then List.range' (rta + 4) (rtaLen - 5) else [])

/-- The loop of `parse_link`, on a message that ends at `stop`: `rta` and `len`
as in the source, and the name found so far.  `none` when the fuel runs out. -/
def attrLoop (host : Host) (buf : Buffer) (stop : Nat) :
    Nat → Nat → Nat → Bytes → Option (Bytes × ReadTrace)
  | 0, _, _, _ => none
  | fuel + 1, rta, len, ifname =>
      if len < 4 then some (ifname, {})
      else
        let rtaLen := host.u16At buf rta
        if rtaOk rtaLen len = false then some (ifname, ReadTrace.link stop (List.range' rta 2))
        else
          let name := isIfname (host.u16At buf (rta + 2)) rtaLen
          -- the name without its terminating zero; a later one replaces it
          let ifname := if name then bytesAt buf (rta + 4) (rtaLen - 5) else ifname
          let step := nlmsgAlign rtaLen
          (attrLoop host buf stop fuel (rta + step) (subMod (2 ^ host.sizeBits) len step)
            ifname).map fun (ifname, trace) =>
              (ifname, ((attrTrace host buf stop rta).and (ReadTrace.lower len step)).and trace)

/-- `parse_link` on the message at `h`.  Of the `ifinfomsg` it reads the type,
the index and the flags. -/
def parseLink (host : Host) (buf : Buffer) (fuel h : Nat) : Option (LinkEvent × ReadTrace) :=
  let nlmsgLen := host.u32At buf h
  let stop := h + nlmsgLen
  let header := ReadTrace.link stop (List.range' (h + 18) 10)
  (attrLoop host buf stop fuel (h + 32) (subMod (2 ^ host.sizeBits) nlmsgLen 32) []).map
    fun (ifname, trace) =>
      ({ ifindex := UInt32.ofNat (host.u32At buf (h + 20))
         ifname := ifname
         type := UInt16.ofNat (host.u16At buf (h + 18))
         present := host.u16At buf (h + 4) == 16
         up := host.u32At buf (h + 24) % 2 == 1 },
       (header.and (ReadTrace.lower nlmsgLen 32)).and trace)

/-! ## The message loop -/

/-- What a loop does with a message, by its type: parse it as a link message,
pass over it, or return. -/
inductive MsgKind
  | link
  | skip
  | finish (ok : Bool)
  deriving DecidableEq

/-- What a loop over a buffer returns: the events given to the callback, the
value it returned from inside, if any, and the trace. -/
structure Decoded where
  events : List LinkEvent := []
  result : Option Bool := none
  trace : ReadTrace := {}
  deriving DecidableEq

/-- The loop of `dispatch` and `dump` at the offset `cur`, with a counter of the
bytes left that wraps at `modulus`. -/
def msgLoop (host : Host) (modulus : Nat) (kind : Nat → MsgKind) (buf : Buffer) (attrFuel : Nat) :
    Nat → Nat → Nat → Option Decoded
  | 0, _, _ => none
  | fuel + 1, cur, left =>
      if left < 16 then some {}
      else
        let nlmsgLen := host.u32At buf cur
        if nlmsgLen < 16 ∨ left < nlmsgLen then
          some { trace := { reads := List.range' cur 4 } }
        else
          let header : ReadTrace := { reads := List.range' cur 6 }
          let step := nlmsgAlign nlmsgLen
          let rest := msgLoop host modulus kind buf attrFuel fuel (cur + step)
            (subMod modulus left step)
          match kind (host.u16At buf (cur + 4)) with
          | .finish ok => some { result := some ok, trace := header }
          | .skip =>
              rest.map fun r =>
                { r with trace := (header.and (ReadTrace.lower left step)).and r.trace }
          | .link =>
              (parseLink host buf attrFuel cur).bind fun (ev, trace) =>
                rest.map fun r =>
                  { r with
                    events := (if ev.ifname = [] then [] else [ev]) ++ r.events
                    trace := ((header.and trace).and (ReadTrace.lower left step)).and r.trace }

/-- `dispatch` looks at `RTM_NEWLINK` and `RTM_DELLINK` only. -/
def dispatchKind (nlmsgType : Nat) : MsgKind :=
  if nlmsgType = 16 ∨ nlmsgType = 17 then .link else .skip

/-- `dump` returns at `NLMSG_DONE` and `NLMSG_ERROR` and takes everything else
for a link message. -/
def dumpKind (nlmsgType : Nat) : MsgKind :=
  if nlmsgType = 3 then .finish true
  else if nlmsgType = 2 then .finish false
  else .link

/-- `Reconcile::dispatch` on a buffer of `len` bytes. -/
def dispatch (host : Host) (buf : Buffer) (fuel len : Nat) : Option Decoded :=
  msgLoop host (2 ^ host.sizeBits) dispatchKind buf fuel fuel 0 len

/-- The loop of `Reconcile::dump` over one datagram of `n` bytes.  Its counter
is a `ssize_t`, but the loop tests it as an `unsigned int`. -/
def dumpDatagram (host : Host) (buf : Buffer) (fuel n : Nat) : Option Decoded :=
  msgLoop host (2 ^ 32) dumpKind buf fuel fuel 0 n

/-! ## Framed buffers -/

/-- The attributes from `rta` on, with `len` bytes left of the message: up to
the one that ends the walk, each is padded to four bytes inside the message. -/
inductive AttrsFramed (host : Host) (buf : Buffer) : Nat → Nat → Prop
  | stop {rta len : Nat} (hstop : len < 4 ∨ rtaOk (host.u16At buf rta) len = false) :
      AttrsFramed host buf rta len
  | next {rta len : Nat} (hmin : 4 ≤ host.u16At buf rta)
      (hfit : nlmsgAlign (host.u16At buf rta) ≤ len)
      (hrest : AttrsFramed host buf (rta + nlmsgAlign (host.u16At buf rta))
        (len - nlmsgAlign (host.u16At buf rta))) :
      AttrsFramed host buf rta len

/-- The messages from `cur` on, with `left` bytes left of the buffer: up to the
one that ends the loop, each is padded to four bytes inside the buffer, and one
that is parsed as a link message holds an `ifinfomsg` and framed attributes. -/
inductive MessagesFramed (host : Host) (kind : Nat → MsgKind) (buf : Buffer) : Nat → Nat → Prop
  | stop {cur left : Nat}
      (hstop : left < 16 ∨ host.u32At buf cur < 16 ∨ left < host.u32At buf cur) :
      MessagesFramed host kind buf cur left
  | finish {cur left : Nat} {ok : Bool} (hmin : 16 ≤ host.u32At buf cur)
      (hfit : host.u32At buf cur ≤ left)
      (hkind : kind (host.u16At buf (cur + 4)) = .finish ok) :
      MessagesFramed host kind buf cur left
  | next {cur left : Nat} (hmin : 16 ≤ host.u32At buf cur)
      (hmax : host.u32At buf cur ≤ 2 ^ 32 - 4)
      (hfit : nlmsgAlign (host.u32At buf cur) ≤ left)
      (hlink : kind (host.u16At buf (cur + 4)) = .link →
        32 ≤ host.u32At buf cur ∧ AttrsFramed host buf (cur + 32) (host.u32At buf cur - 32))
      (hrest : MessagesFramed host kind buf (cur + nlmsgAlign (host.u32At buf cur))
        (left - nlmsgAlign (host.u32At buf cur))) :
      MessagesFramed host kind buf cur left

/-! ## Arithmetic of the macros -/

theorem u16At_lt (host : Host) (buf : Buffer) (p : Nat) : host.u16At buf p < 2 ^ 16 := by
  have h0 := (buf p).toNat_lt
  have h1 := (buf (p + 1)).toNat_lt
  unfold Host.u16At
  cases host.order with
  | little =>
      show (buf p).toNat + 256 * (buf (p + 1)).toNat < 2 ^ 16
      omega
  | big =>
      show 256 * (buf p).toNat + (buf (p + 1)).toNat < 2 ^ 16
      omega

theorem u32At_lt (host : Host) (buf : Buffer) (p : Nat) : host.u32At buf p < 2 ^ 32 := by
  have h0 := u16At_lt host buf p
  have h1 := u16At_lt host buf (p + 2)
  unfold Host.u32At
  cases host.order with
  | little =>
      show host.u16At buf p + 65536 * host.u16At buf (p + 2) < 2 ^ 32
      omega
  | big =>
      show 65536 * host.u16At buf p + host.u16At buf (p + 2) < 2 ^ 32
      omega

/-- Rounding up, as long as the sum does not wrap. -/
theorem nlmsgAlign_bounds {n : Nat} (hn : n ≤ 2 ^ 32 - 4) :
    n ≤ nlmsgAlign n ∧ nlmsgAlign n < n + 4 := by
  unfold nlmsgAlign
  omega

/-- The last three lengths are rounded to zero. -/
theorem nlmsgAlign_zero {n : Nat} (hmax : 2 ^ 32 - 4 < n) (hn : n < 2 ^ 32) :
    nlmsgAlign n = 0 := by
  unfold nlmsgAlign
  omega

theorem subMod_of_le {modulus a b : Nat} (hb : b ≤ a) (ha : a < modulus) :
    subMod modulus a b = a - b := by
  unfold subMod
  rw [show a + modulus - b = a - b + modulus by omega, Nat.add_mod_right,
    Nat.mod_eq_of_lt (by omega)]

theorem Host.lt_size (host : Host) {n : Nat} (hn : n < 2 ^ 32) : n < 2 ^ host.sizeBits :=
  lt_of_lt_of_le hn (Nat.pow_le_pow_right (by decide) host.hbits)

namespace ReadTrace

theorem safe_and {len : Nat} {t t' : ReadTrace} :
    (t.and t').Safe len ↔ t.Safe len ∧ t'.Safe len := by
  constructor
  · rintro ⟨hinside, hwithin, hnowrap⟩
    simp only [ReadTrace.and, List.mem_append, Bool.or_eq_false_iff] at hinside hwithin hnowrap
    exact ⟨⟨fun p hp => hinside p (Or.inl hp), hwithin.1, hnowrap.1⟩,
      ⟨fun p hp => hinside p (Or.inr hp), hwithin.2, hnowrap.2⟩⟩
  · rintro ⟨h, h'⟩
    refine ⟨?_, ?_, ?_⟩
    · intro p hp
      rcases List.mem_append.mp hp with hp | hp
      · exact h.inside p hp
      · exact h'.inside p hp
    · simp [ReadTrace.and, h.within, h'.within]
    · simp [ReadTrace.and, h.nowrap, h'.nowrap]

theorem safe_empty (len : Nat) : ({} : ReadTrace).Safe len :=
  ⟨by simp, rfl, rfl⟩

theorem safe_lower {len left step : Nat} : (lower left step).Safe len ↔ step ≤ left := by
  constructor
  · intro h
    have hnowrap := h.nowrap
    simp only [lower, decide_eq_false_iff_not] at hnowrap
    omega
  · intro hle
    exact ⟨by simp [lower], rfl, by simp [lower, hle]⟩

theorem safe_link {len stop : Nat} {offsets : List Nat} :
    (link stop offsets).Safe len ↔ ∀ p ∈ offsets, p < len ∧ p < stop := by
  constructor
  · intro h p hp
    have hwithin := h.within
    simp only [link, List.any_eq_false, decide_eq_true_eq, not_le] at hwithin
    exact ⟨h.inside p hp, hwithin p hp⟩
  · intro h
    refine ⟨fun p hp => (h p hp).1, ?_, rfl⟩
    simp only [link, List.any_eq_false, decide_eq_true_eq, not_le]
    exact fun p hp => (h p hp).2

/-- A stretch of a link message is read. -/
theorem safe_link_range {len stop cur n : Nat} (hlen : cur + n ≤ len) (hstop : cur + n ≤ stop) :
    (link stop (List.range' cur n)).Safe len := by
  refine safe_link.mpr ?_
  intro p hp
  rw [List.mem_range'_1] at hp
  omega

/-- A stretch of the buffer is read. -/
theorem safe_range {len cur n : Nat} (hlen : cur + n ≤ len) :
    ({ reads := List.range' cur n } : ReadTrace).Safe len := by
  refine ⟨?_, rfl, rfl⟩
  intro p hp
  rw [List.mem_range'_1] at hp
  omega

end ReadTrace

/-! ## The attribute loop on framed attributes -/

section Attrs

variable {host : Host} {buf : Buffer} {stop : Nat}

/-- What one attribute is read for lies inside it. -/
theorem attrTrace_reads {rta p : Nat} (hmin : 4 ≤ host.u16At buf rta)
    (hp : p ∈ (attrTrace host buf stop rta).reads) : p < rta + host.u16At buf rta := by
  simp only [attrTrace, ReadTrace.link, List.mem_append, List.mem_range'_1] at hp
  rcases hp with hp | hp
  · omega
  · split at hp
    · rw [List.mem_range'_1] at hp
      omega
    · simp at hp

/-- On framed attributes the loop ends, and stays inside the message. -/
theorem attrLoop_of_framed {rta len total : Nat} (h : AttrsFramed host buf rta len)
    (hstop : rta + len = stop) (htotal : stop ≤ total) (hlen : len < 2 ^ host.sizeBits)
    {fuel : Nat} (hfuel : len < fuel) (ifname : Bytes) :
    ∃ r, attrLoop host buf stop fuel rta len ifname = some r ∧ r.2.Safe total := by
  obtain ⟨fuel, rfl⟩ := Nat.exists_eq_succ_of_ne_zero (by omega : fuel ≠ 0)
  induction h generalizing fuel ifname with
  | @stop rta len hend =>
      by_cases hroom : len < 4
      · exact ⟨_, by rw [attrLoop, if_pos hroom], ReadTrace.safe_empty total⟩
      · have hok : rtaOk (host.u16At buf rta) len = false := hend.resolve_left hroom
        rw [attrLoop, if_neg hroom]
        simp only [hok, if_true]
        exact ⟨_, rfl, ReadTrace.safe_link_range (by omega) (by omega)⟩
  | @next rta len hmin hfit hrest ih =>
      have hbounds := nlmsgAlign_bounds (n := host.u16At buf rta)
        (by have hlt := u16At_lt host buf rta; omega)
      have hroom : ¬len < 4 := by omega
      have hok : rtaOk (host.u16At buf rta) len = true := by
        rw [rtaOk, decide_eq_true_eq]
        omega
      obtain ⟨fuel, rfl⟩ := Nat.exists_eq_succ_of_ne_zero (by omega : fuel ≠ 0)
      obtain ⟨r, hloop, hsafe⟩ := ih (by omega) (by omega)
        (if isIfname (host.u16At buf (rta + 2)) (host.u16At buf rta) then
          bytesAt buf (rta + 4) (host.u16At buf rta - 5) else ifname) fuel (by omega)
      rw [← subMod_of_le hfit hlen] at hloop
      rw [attrLoop, if_neg hroom]
      simp only [hok, hloop]
      refine ⟨_, rfl, ?_⟩
      rw [ReadTrace.safe_and, ReadTrace.safe_and]
      refine ⟨⟨?_, ReadTrace.safe_lower.mpr hfit⟩, hsafe⟩
      refine ReadTrace.safe_link.mpr ?_
      intro p (hp : p ∈ (attrTrace host buf stop rta).reads)
      have hinside := attrTrace_reads hmin hp
      omega

/-- Attributes the loop walks safely are framed. -/
theorem framed_of_attrLoop {fuel rta len total : Nat} {ifname : Bytes} {r : Bytes × ReadTrace}
    (hloop : attrLoop host buf stop fuel rta len ifname = some r) (hsafe : r.2.Safe total)
    (hlen : len < 2 ^ host.sizeBits) : AttrsFramed host buf rta len := by
  induction fuel generalizing rta len ifname r with
  | zero => simp [attrLoop] at hloop
  | succ fuel ih =>
      by_cases hroom : len < 4
      · exact .stop (Or.inl hroom)
      cases hok : rtaOk (host.u16At buf rta) len with
      | false => exact .stop (Or.inr hok)
      | true =>
          rw [attrLoop, if_neg hroom] at hloop
          simp only [hok] at hloop
          obtain ⟨r', hrest, rfl⟩ := Option.map_eq_some_iff.mp hloop
          rw [ReadTrace.safe_and, ReadTrace.safe_and, ReadTrace.safe_lower] at hsafe
          obtain ⟨⟨-, hfit⟩, hsafe⟩ := hsafe
          rw [subMod_of_le hfit hlen] at hrest
          rw [rtaOk, decide_eq_true_eq] at hok
          exact .next hok.1 hfit (ih hrest hsafe (by omega))

theorem parseLink_of_framed {h total fuel : Nat} (hmin : 32 ≤ host.u32At buf h)
    (hattrs : AttrsFramed host buf (h + 32) (host.u32At buf h - 32))
    (htotal : h + host.u32At buf h ≤ total) (hfuel : 2 ^ 32 ≤ fuel) :
    ∃ r, parseLink host buf fuel h = some r ∧ r.2.Safe total := by
  have hlt := u32At_lt host buf h
  have hroom : host.u32At buf h - 32 < fuel := by omega
  obtain ⟨r, hloop, hsafe⟩ := attrLoop_of_framed hattrs (by omega) htotal
    (host.lt_size (by omega)) hroom []
  rw [← subMod_of_le hmin (host.lt_size hlt)] at hloop
  rw [parseLink, hloop]
  refine ⟨_, rfl, ?_⟩
  rw [ReadTrace.safe_and, ReadTrace.safe_and]
  refine ⟨⟨?_, ReadTrace.safe_lower.mpr hmin⟩, hsafe⟩
  exact ReadTrace.safe_link_range (by omega) (by omega)

theorem framed_of_parseLink {h total fuel : Nat} {r : LinkEvent × ReadTrace}
    (hparse : parseLink host buf fuel h = some r) (hsafe : r.2.Safe total) :
    32 ≤ host.u32At buf h ∧ AttrsFramed host buf (h + 32) (host.u32At buf h - 32) := by
  have hlt := host.lt_size (u32At_lt host buf h)
  obtain ⟨r', hloop, rfl⟩ := Option.map_eq_some_iff.mp hparse
  rw [ReadTrace.safe_and, ReadTrace.safe_and, ReadTrace.safe_lower] at hsafe
  obtain ⟨⟨-, hmin⟩, hsafe⟩ := hsafe
  rw [subMod_of_le hmin hlt] at hloop
  exact ⟨hmin, framed_of_attrLoop hloop hsafe (by omega)⟩

end Attrs

/-! ## The message loop on framed messages -/

section Messages

variable {host : Host} {modulus : Nat} {kind : Nat → MsgKind} {buf : Buffer}

/-- On framed messages the loop ends, and stays inside the buffer. -/
theorem msgLoop_of_framed {cur left total : Nat} (h : MessagesFramed host kind buf cur left)
    (htotal : cur + left = total) (hleft : left < modulus) {attrFuel fuel : Nat}
    (hattr : 2 ^ 32 ≤ attrFuel) (hfuel : left < fuel) :
    ∃ r, msgLoop host modulus kind buf attrFuel fuel cur left = some r ∧ r.trace.Safe total := by
  obtain ⟨fuel, rfl⟩ := Nat.exists_eq_succ_of_ne_zero (by omega : fuel ≠ 0)
  induction h generalizing fuel with
  | @stop cur left hend =>
      by_cases hroom : left < 16
      · exact ⟨_, by rw [msgLoop, if_pos hroom], ReadTrace.safe_empty total⟩
      · rw [msgLoop, if_neg hroom]
        simp only [hend.resolve_left hroom, if_true]
        exact ⟨_, rfl, ReadTrace.safe_range (by omega)⟩
  | @finish cur left ok hmin hfit hkind =>
      have hroom : ¬left < 16 := by omega
      have hok : ¬(host.u32At buf cur < 16 ∨ left < host.u32At buf cur) := by omega
      rw [msgLoop, if_neg hroom]
      simp only [hok, if_false, hkind]
      exact ⟨_, rfl, ReadTrace.safe_range (by omega)⟩
  | @next cur left hmin hmax hfit hlink hrest ih =>
      have hbounds := nlmsgAlign_bounds hmax
      have hroom : ¬left < 16 := by omega
      have hok : ¬(host.u32At buf cur < 16 ∨ left < host.u32At buf cur) := by omega
      have hheader : ({ reads := List.range' cur 6 } : ReadTrace).Safe total :=
        ReadTrace.safe_range (by omega)
      have hlower : (ReadTrace.lower left (nlmsgAlign (host.u32At buf cur))).Safe total :=
        ReadTrace.safe_lower.mpr hfit
      have hend : cur + host.u32At buf cur ≤ total := by omega
      obtain ⟨fuel, rfl⟩ := Nat.exists_eq_succ_of_ne_zero (by omega : fuel ≠ 0)
      obtain ⟨r, hloop, hsafe⟩ := ih (by omega) (by omega) fuel (by omega)
      rw [← subMod_of_le hfit hleft] at hloop
      rw [msgLoop, if_neg hroom]
      simp only [hok, if_false, hloop]
      cases hkind : kind (host.u16At buf (cur + 4)) with
      | finish ok => exact ⟨_, rfl, hheader⟩
      | skip =>
          refine ⟨_, rfl, ?_⟩
          rw [ReadTrace.safe_and, ReadTrace.safe_and]
          exact ⟨⟨hheader, hlower⟩, hsafe⟩
      | link =>
          obtain ⟨h32, hattrs⟩ := hlink hkind
          obtain ⟨⟨ev, trace⟩, hparse, hlinkSafe⟩ :=
            parseLink_of_framed h32 hattrs hend hattr
          refine ⟨_, by rw [hparse]; rfl, ?_⟩
          rw [ReadTrace.safe_and, ReadTrace.safe_and, ReadTrace.safe_and]
          exact ⟨⟨⟨hheader, hlinkSafe⟩, hlower⟩, hsafe⟩

/-- Messages the loop walks safely are framed. -/
theorem framed_of_msgLoop {attrFuel fuel cur left total : Nat} {r : Decoded}
    (hloop : msgLoop host modulus kind buf attrFuel fuel cur left = some r)
    (hsafe : r.trace.Safe total) (hleft : left < modulus) :
    MessagesFramed host kind buf cur left := by
  induction fuel generalizing cur left r with
  | zero => simp [msgLoop] at hloop
  | succ fuel ih =>
      by_cases hroom : left < 16
      · exact .stop (Or.inl hroom)
      by_cases hok : host.u32At buf cur < 16 ∨ left < host.u32At buf cur
      · exact .stop (Or.inr hok)
      rw [msgLoop, if_neg hroom] at hloop
      simp only [hok, if_false] at hloop
      rw [not_or, not_lt, not_lt] at hok
      have hnext : (∃ ok, kind (host.u16At buf (cur + 4)) = .finish ok) ∨
          nlmsgAlign (host.u32At buf cur) ≤ left ∧
          (kind (host.u16At buf (cur + 4)) = .link →
            32 ≤ host.u32At buf cur ∧ AttrsFramed host buf (cur + 32) (host.u32At buf cur - 32)) ∧
          ∃ r', msgLoop host modulus kind buf attrFuel fuel
            (cur + nlmsgAlign (host.u32At buf cur))
            (subMod modulus left (nlmsgAlign (host.u32At buf cur))) = some r' ∧
              r'.trace.Safe total := by
        cases hkind : kind (host.u16At buf (cur + 4)) with
        | finish ok => exact Or.inl ⟨ok, rfl⟩
        | skip =>
            rw [hkind] at hloop
            obtain ⟨r', hrest, rfl⟩ := Option.map_eq_some_iff.mp hloop
            rw [ReadTrace.safe_and, ReadTrace.safe_and, ReadTrace.safe_lower] at hsafe
            exact Or.inr ⟨hsafe.1.2, by simp, r', hrest, hsafe.2⟩
        | link =>
            rw [hkind] at hloop
            obtain ⟨⟨ev, trace⟩, hparse, hloop⟩ := Option.bind_eq_some_iff.mp hloop
            obtain ⟨r', hrest, rfl⟩ := Option.map_eq_some_iff.mp hloop
            rw [ReadTrace.safe_and, ReadTrace.safe_and, ReadTrace.safe_and,
              ReadTrace.safe_lower] at hsafe
            refine Or.inr ⟨hsafe.1.2, fun _ => ?_, r', hrest, hsafe.2⟩
            exact framed_of_parseLink hparse hsafe.1.1.2
      rcases hnext with ⟨ok, hkind⟩ | ⟨hfit, hlink, r', hrest, hsafe'⟩
      · exact .finish hok.1 hok.2 hkind
      · rw [subMod_of_le hfit hleft] at hrest
        have hframed := ih hrest hsafe' (by omega)
        by_cases hmax : host.u32At buf cur ≤ 2 ^ 32 - 4
        · exact .next hok.1 hmax hfit hlink hframed
        · -- a length that is rounded to zero: the loop stands still
          rwa [nlmsgAlign_zero (by omega) (u32At_lt host buf cur), Nat.add_zero,
            Nat.sub_zero] at hframed
/-! ## Both decoders -/

/-- A decoder, given enough fuel, returns, having read only what it may. -/
def DecodesInside (decode : Nat → Option Decoded) (len : Nat) : Prop :=
  ∃ fuel r, decode fuel = some r ∧ r.trace.Safe len

theorem msgLoop_inside_iff {len : Nat} (hlen : len < modulus) :
    DecodesInside (fun fuel => msgLoop host modulus kind buf fuel fuel 0 len) len ↔
      MessagesFramed host kind buf 0 len := by
  constructor
  · rintro ⟨fuel, r, hloop, hsafe⟩
    exact framed_of_msgLoop hloop hsafe hlen
  · intro hframed
    have hroom : len < 2 ^ 32 + len := by omega
    obtain ⟨r, hloop, hsafe⟩ := msgLoop_of_framed hframed (Nat.zero_add len) hlen
      (Nat.le_add_right (2 ^ 32) len) hroom
    exact ⟨_, r, hloop, hsafe⟩

/-- **Decoding stays inside the buffer exactly on framed buffers.**  `dispatch`
on any buffer, and the loop of `dump` on any datagram it can receive, return
after reading only bytes of the buffer, no link message past its own end, and
without a counter going below zero, if and only if the messages up to the one
that ends the loop are padded to four bytes inside the buffer, and those parsed
as link messages hold an `ifinfomsg` and attributes padded to four bytes inside
the message. -/
theorem decodes_inside_iff_framed (host : Host) (buf : Buffer) :
    (∀ len < 2 ^ host.sizeBits, DecodesInside (fun fuel => dispatch host buf fuel len) len ↔
      MessagesFramed host dispatchKind buf 0 len) ∧
    ∀ n ≤ 65536, DecodesInside (fun fuel => dumpDatagram host buf fuel n) n ↔
      MessagesFramed host dumpKind buf 0 n :=
  ⟨fun _ hlen => msgLoop_inside_iff hlen, fun _ hn => msgLoop_inside_iff (by omega)⟩

end Messages

/-- A 64-bit little-endian machine. -/
def amd64 : Host := ⟨.little, 64, by decide⟩

/-- A buffer with zeros behind it. -/
def bufferOf (bs : Bytes) : Buffer := fun p => byteAt bs p

/-- `RTM_NEWLINK` of the device 2, up, named `eth0`. -/
def newlinkEth0 : Buffer := bufferOf
  [44, 0, 0, 0, 16, 0, 0, 0, 0, 0, 0, 0, 0, 0, 0, 0,
   0, 0, 1, 0, 2, 0, 0, 0, 1, 0, 0, 0, 0, 0, 0, 0,
   9, 0, 3, 0, 101, 116, 104, 48, 0, 0, 0, 0]

theorem newlinkEth0_framed {kind : Nat → MsgKind} :
    MessagesFramed amd64 kind newlinkEth0 0 44 := by
  refine .next (by decide +kernel) (by decide +kernel) (by decide +kernel) ?_ ?_
  · intro _
    refine ⟨by decide +kernel, ?_⟩
    exact .next (by decide +kernel) (by decide +kernel) (.stop (by decide +kernel))
  · exact .stop (by decide +kernel)

theorem decodes_inside_iff_framed_demo :
    DecodesInside (fun fuel => dispatch amd64 newlinkEth0 fuel 44) 44 ∧
      DecodesInside (fun fuel => dumpDatagram amd64 newlinkEth0 fuel 44) 44 :=
  ⟨((decodes_inside_iff_framed amd64 newlinkEth0).1 44 (by decide)).mpr newlinkEth0_framed,
    ((decodes_inside_iff_framed amd64 newlinkEth0).2 44 (by decide)).mpr newlinkEth0_framed⟩

/-- A link message of 33 bytes that ends the buffer without padding. -/
def unpadded : Buffer := bufferOf
  [33, 0, 0, 0, 16, 0, 0, 0, 0, 0, 0, 0, 0, 0, 0, 0,
   0, 0, 1, 0, 2, 0, 0, 0, 1, 0, 0, 0, 0, 0, 0, 0, 0]

/-- The counter goes below zero, and the loop reads the next header behind the
buffer. -/
theorem unpadded_message_read_past_end :
    ¬DecodesInside (fun fuel => dispatch amd64 unpadded fuel 33) 33 ∧
      ∃ r, dispatch amd64 unpadded 3 33 = some r ∧ 36 ∈ r.trace.reads ∧
        r.trace.wrapped = true := by
  refine ⟨?_, ?_⟩
  · intro hinside
    cases (msgLoop_inside_iff (by decide)).mp hinside with
    | stop hstop => revert hstop; decide +kernel
    | @finish _ _ ok hmin hfit hkind => revert hkind; revert ok; decide +kernel
    | next hmin hmax hfit hlink hrest => revert hfit; decide +kernel
  · exact ⟨_, rfl, by decide +kernel, by decide +kernel⟩

end Agent
end Obserwrt
