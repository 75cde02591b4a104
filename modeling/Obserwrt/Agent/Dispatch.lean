import Obserwrt.Agent.LinkMessage

/-!
# `dispatch` and `dump` on well-formed buffers

A received buffer as the kernel writes it: link messages of any family, each
with at most one `IFLA_IFNAME` among its attributes, and messages of other
types between them.  Both loops report the named link messages in order, with
what the messages say, so how messages are grouped into buffers does not
matter.
-/

namespace Obserwrt
namespace Agent

open Lib

/-- An interface name, with room for its terminating zero in an attribute. -/
structure NameAttr where
  name : Bytes
  hname : name.length ≤ 65530

/-- `IFLA_IFNAME`. -/
def NameAttr.attr (n : NameAttr) : Attr where
  type := 3
  payload := n.name ++ [0]
  hpayload := by
    have hname := n.hname
    simp only [List.length_append, List.length_singleton]
    omega

/-- A link message of any family.  The attributes around the name are of other
types. -/
structure RtLinkMsg where
  change : LinkChange
  control : List.Vector UInt8 10
  family : UInt8
  pad : UInt8
  type : UInt16
  index : UInt32
  flags : UInt32
  changeMask : UInt32
  before : List Attr
  ifname : Option NameAttr
  after : List Attr
  hbefore : ∀ a ∈ before, a.type ≠ 3
  hafter : ∀ a ∈ after, a.type ≠ 3
  hlength : 32 + ((before ++ (ifname.map NameAttr.attr).toList ++ after).map
    fun a => nlmsgAlign a.length).sum ≤ 2 ^ 32 - 4

namespace RtLinkMsg

/-- All attributes, in order. -/
def attrs (m : RtLinkMsg) : List Attr :=
  m.before ++ (m.ifname.map NameAttr.attr).toList ++ m.after

/-- `nlmsg_len`. -/
def length (m : RtLinkMsg) : Nat :=
  32 + (m.attrs.map fun a => nlmsgAlign a.length).sum

/-- The message on the wire. -/
def bytes (host : Host) (m : RtLinkMsg) : Bytes :=
  linkBytes host m.length m.change m.control m.family m.pad m.type m.index m.flags m.changeMask
    m.attrs

/-- What the message tells: the device, if it is named at all. -/
def events (m : RtLinkMsg) : List LinkEvent :=
  match m.ifname with
  | none => []
  | some n =>
      if n.name = [] then []
      else
        [{ ifindex := m.index
           ifname := n.name
           type := m.type
           present := m.change == .newlink
           up := m.flags.toNat % 2 == 1 }]

end RtLinkMsg

/-- A message that is not about a link. -/
structure RtOtherMsg where
  type : UInt16
  control : List.Vector UInt8 10
  payload : Bytes
  htype : type ≠ 16 ∧ type ≠ 17
  hlength : 16 + payload.length ≤ 2 ^ 32 - 4

namespace RtOtherMsg

/-- `nlmsg_len`. -/
def length (m : RtOtherMsg) : Nat :=
  16 + m.payload.length

/-- The message on the wire, padded to four bytes. -/
def bytes (host : Host) (m : RtOtherMsg) : Bytes :=
  host.u32Bytes m.length ++ (host.u16Bytes m.type.toNat ++ (m.control.toList ++
    (m.payload ++ List.replicate (nlmsgAlign m.length - m.length) 0)))

end RtOtherMsg

/-- A netlink message of a well-formed buffer. -/
inductive RtMsg
  | link (m : RtLinkMsg)
  | other (m : RtOtherMsg)

namespace RtMsg

/-- `nlmsg_len`. -/
def length : RtMsg → Nat
  | .link m => m.length
  | .other m => m.length

/-- The message on the wire. -/
def bytes (host : Host) : RtMsg → Bytes
  | .link m => m.bytes host
  | .other m => m.bytes host

/-- What the message tells about links. -/
def events : RtMsg → List LinkEvent
  | .link m => m.events
  | .other _ => []

def isLink : RtMsg → Bool
  | .link _ => true
  | .other _ => false

/-- The attributes a decoder goes through. -/
def attrCount : RtMsg → Nat
  | .link m => m.attrs.length
  | .other _ => 0

end RtMsg

/-- A buffer of messages. -/
def rtBytes (host : Host) (msgs : List RtMsg) : Bytes :=
  msgs.flatMap (RtMsg.bytes host)

/-- Iterations that are enough for every loop over the buffer. -/
def rtFuel (msgs : List RtMsg) : Nat :=
  msgs.length + (msgs.map RtMsg.attrCount).sum + 1

/-! ## Lengths -/

theorem RtLinkMsg.length_le (m : RtLinkMsg) : m.length ≤ 2 ^ 32 - 4 :=
  m.hlength

theorem RtMsg.length_bounds (m : RtMsg) : 16 ≤ m.length ∧ m.length ≤ 2 ^ 32 - 4 := by
  cases m with
  | link m =>
      have hmin : 32 ≤ m.length := Nat.le_add_right 32 _
      exact ⟨by show 16 ≤ m.length; omega, m.length_le⟩
  | other m => exact ⟨Nat.le_add_right 16 _, m.hlength⟩

theorem RtLinkMsg.align_length (m : RtLinkMsg) : nlmsgAlign m.length = m.length :=
  align_attrs rfl m.hlength

theorem RtMsg.bytes_length (host : Host) (m : RtMsg) :
    (m.bytes host).length = nlmsgAlign m.length := by
  cases m with
  | link m =>
      show (m.bytes host).length = nlmsgAlign m.length
      rw [m.align_length]
      exact linkBytes_length ..
  | other m =>
      have hbounds := nlmsgAlign_bounds m.hlength
      show (m.bytes host).length = nlmsgAlign (16 + m.payload.length)
      simp only [RtOtherMsg.bytes, RtOtherMsg.length, List.length_append, u32Bytes_length,
        u16Bytes_length, List.Vector.toList_length, List.length_replicate]
      omega

theorem rtBytes_length (host : Host) (msgs : List RtMsg) :
    (rtBytes host msgs).length = (msgs.map fun m => nlmsgAlign m.length).sum := by
  simp [rtBytes, List.length_flatMap, RtMsg.bytes_length]

/-! ## One message -/

/-- An attribute of another type leaves the name as it is. -/
theorem readName_other {attrs : List Attr} (hother : ∀ a ∈ attrs, a.type ≠ 3) (name : Bytes) :
    attrs.foldl LinkMsg.readName name = name := by
  induction attrs with
  | nil => rfl
  | cons a attrs ih =>
      have htype : a.type.toNat ≠ 3 := by
        intro hthree
        exact hother a List.mem_cons_self (UInt16.toNat_inj.mp hthree)
      have hskip : LinkMsg.readName name a = name := by
        simp [LinkMsg.readName, isIfname, htype]
      rw [List.foldl_cons, hskip]
      exact ih fun a' ha' => hother a' (List.mem_cons_of_mem _ ha')

/-- The name the attribute loop ends with. -/
theorem RtLinkMsg.foldl_attrs (m : RtLinkMsg) :
    m.attrs.foldl LinkMsg.readName [] = (m.ifname.map NameAttr.name).getD [] := by
  rw [RtLinkMsg.attrs, List.foldl_append, List.foldl_append, readName_other m.hbefore,
    readName_other m.hafter]
  cases m.ifname with
  | none => rfl
  | some n =>
      show LinkMsg.readName [] n.attr = n.name
      simp [LinkMsg.readName, isIfname, NameAttr.attr, Attr.length]

section Loop

variable {host : Host} {bs : Bytes} {p : Nat}

/-- `parse_link` on a link message that lies in the buffer. -/
theorem parseLink_rt {m : RtLinkMsg} (h : HasAt bs p (m.bytes host)) {fuel : Nat}
    (hfuel : m.attrs.length < fuel) :
    ∃ ev trace, parseLink host (bufferOf bs) fuel p = some (ev, trace) ∧
      (if ev.ifname = [] then [] else [ev]) = m.events := by
  obtain ⟨hlen, hchange, htype, hindex, hflags, hattrs⟩ := linkBytes_parts h
  obtain ⟨trace, hparse⟩ :=
    parseLink_at hlen hchange htype hindex hflags hattrs m.length_le hfuel
  refine ⟨_, trace, hparse, ?_⟩
  rw [m.foldl_attrs]
  unfold RtLinkMsg.events
  cases m.ifname with
  | none => rfl
  | some n => rfl

/-- `dispatch` takes the link messages and passes over the others, and the loop
of `dump` takes the link messages. -/
theorem RtMsg.handled {m : RtMsg} (h : HasAt bs p (m.bytes host)) {attrFuel : Nat}
    (hattr : m.attrCount < attrFuel) :
    Handled host dispatchKind (bufferOf bs) attrFuel p m.length m.events ∧
      (m.isLink = true → Handled host dumpKind (bufferOf bs) attrFuel p m.length m.events) := by
  obtain ⟨hmin, hmax⟩ := m.length_bounds
  have hlt : m.length < 2 ^ 32 := lt_of_le_of_lt hmax (by decide)
  cases m with
  | link m =>
      obtain ⟨hlen, hchange, -⟩ := linkBytes_parts h
      obtain ⟨ev, trace, hparse, hev⟩ := parseLink_rt h hattr
      have hcode : host.u16At (bufferOf bs) (p + 4) = m.change.code :=
        u16At_of_hasAt hchange (by cases m.change <;> decide)
      have hkinds : dispatchKind m.change.code = .link ∧ dumpKind m.change.code = .link := by
        cases m.change <;> exact ⟨rfl, rfl⟩
      rw [← hcode] at hkinds
      have hlength := u32At_of_hasAt hlen hlt
      exact ⟨⟨hlength, hmin, hmax, Or.inl ⟨hkinds.1, ev, trace, hparse, hev⟩⟩,
        fun _ => ⟨hlength, hmin, hmax, Or.inl ⟨hkinds.2, ev, trace, hparse, hev⟩⟩⟩
  | other m =>
      have hrest := HasAt.right h
      rw [u32Bytes_length] at hrest
      have hcode : host.u16At (bufferOf bs) (p + 4) = m.type.toNat :=
        u16At_of_hasAt hrest.left m.type.toNat_lt
      have hne : m.type.toNat ≠ 16 ∧ m.type.toNat ≠ 17 :=
        ⟨fun heq => m.htype.1 (UInt16.toNat_inj.mp heq),
          fun heq => m.htype.2 (UInt16.toNat_inj.mp heq)⟩
      refine ⟨⟨u32At_of_hasAt (HasAt.left h) hlt, hmin, hmax, Or.inr ⟨?_, rfl⟩⟩, ?_⟩
      · rw [hcode]
        simp [dispatchKind, hne]
      · intro hlink
        cases hlink

end Loop

/-! ## Whole buffers -/

theorem attrCount_lt_of_rtFuel {msgs : List RtMsg} {fuel : Nat} (hfuel : rtFuel msgs ≤ fuel) :
    (∀ m ∈ msgs, m.attrCount < fuel) ∧ msgs.length < fuel := by
  unfold rtFuel at hfuel
  refine ⟨?_, by omega⟩
  intro m hm
  have hle : m.attrCount ≤ (msgs.map RtMsg.attrCount).sum :=
    List.single_le_sum (fun _ _ => Nat.zero_le _) _ (List.mem_map_of_mem hm)
  omega

/-- `dispatch` on a buffer of messages, whatever memory holds behind it. -/
theorem dispatch_rt (host : Host) {msgs : List RtMsg} (tail : Bytes) {fuel : Nat}
    (hsize : (rtBytes host msgs).length < 2 ^ host.sizeBits) (hfuel : rtFuel msgs ≤ fuel) :
    (dispatch host (bufferOf (rtBytes host msgs ++ tail)) fuel (rtBytes host msgs).length).map
      Decoded.events = some (msgs.flatMap RtMsg.events) := by
  obtain ⟨hattr, hmsgs⟩ := attrCount_lt_of_rtFuel hfuel
  rw [rtBytes_length] at hsize ⊢
  obtain ⟨r, hloop, hevents, -⟩ := msgLoop_run
    (⟨[], tail, rfl, rfl⟩ : HasAt (rtBytes host msgs ++ tail) 0 (rtBytes host msgs))
    (RtMsg.bytes_length host) (fun m hm q hq => (RtMsg.handled hq (hattr m hm)).1) hsize hmsgs
  rw [dispatch, hloop, Option.map_some, hevents]

/-- The loop of `dump` on a datagram of link messages. -/
theorem dumpDatagram_rt (host : Host) {msgs : List RtMsg} (tail : Bytes) {fuel : Nat}
    (hlinks : ∀ m ∈ msgs, m.isLink = true) (hsize : (rtBytes host msgs).length < 2 ^ 32)
    (hfuel : rtFuel msgs ≤ fuel) :
    (dumpDatagram host (bufferOf (rtBytes host msgs ++ tail)) fuel
      (rtBytes host msgs).length).map (fun r => (r.events, r.result)) =
        some (msgs.flatMap RtMsg.events, none) := by
  obtain ⟨hattr, hmsgs⟩ := attrCount_lt_of_rtFuel hfuel
  rw [rtBytes_length] at hsize ⊢
  obtain ⟨r, hloop, hevents, hresult⟩ := msgLoop_run
    (⟨[], tail, rfl, rfl⟩ : HasAt (rtBytes host msgs ++ tail) 0 (rtBytes host msgs))
    (RtMsg.bytes_length host)
    (fun m hm q hq => (RtMsg.handled hq (hattr m hm)).2 (hlinks m hm)) hsize hmsgs
  rw [dumpDatagram, hloop, Option.map_some, hevents, hresult]

/-- `dispatch` on one buffer after another, each with what memory holds behind
it: the events of all of them in order. -/
def dispatchEach (host : Host) (fuel : Nat) : List (List RtMsg × Bytes) → Option (List LinkEvent)
  | [] => some []
  | (msgs, tail) :: chunks =>
      (dispatch host (bufferOf (rtBytes host msgs ++ tail)) fuel
        (rtBytes host msgs).length).bind fun r =>
          (dispatchEach host fuel chunks).map fun events => r.events ++ events

theorem rtFuel_append_le (msgs rest : List RtMsg) :
    rtFuel msgs ≤ rtFuel (msgs ++ rest) ∧ rtFuel rest ≤ rtFuel (msgs ++ rest) := by
  simp only [rtFuel, List.length_append, List.map_append, List.sum_append]
  omega

theorem dispatchEach_eq (host : Host) {chunks : List (List RtMsg × Bytes)} {fuel : Nat}
    (hsize : (rtBytes host (chunks.map Prod.fst).flatten).length < 2 ^ host.sizeBits)
    (hfuel : rtFuel (chunks.map Prod.fst).flatten ≤ fuel) :
    dispatchEach host fuel chunks =
      some ((chunks.map Prod.fst).flatten.flatMap RtMsg.events) := by
  induction chunks with
  | nil => rfl
  | cons chunk chunks ih =>
      obtain ⟨msgs, tail⟩ := chunk
      rw [List.map_cons, List.flatten_cons] at hsize hfuel ⊢
      obtain ⟨hfirst, hrest⟩ := rtFuel_append_le msgs (chunks.map Prod.fst).flatten
      rw [rtBytes, List.flatMap_append, List.length_append] at hsize
      have hdispatch := dispatch_rt host tail
        (lt_of_le_of_lt (Nat.le_add_right _ _) hsize) (hfirst.trans hfuel)
      obtain ⟨r, hr, hevents⟩ := Option.map_eq_some_iff.mp hdispatch
      rw [dispatchEach, hr, Option.bind_some, List.flatMap_append, ← hevents,
        ih (lt_of_le_of_lt (Nat.le_add_left _ _) hsize) (hrest.trans hfuel)]
      rfl

/-- **Well-formed buffers decode to their link events.**  For every list of
messages, `dispatch` on their concatenation calls back once, in order, for each
link message that carries a non-empty name and for nothing else, with what the
message says; dispatching any split at message boundaries one buffer after
another gives the same calls, and so does the loop of `dump` on a datagram of
link messages, which then goes on to the next datagram. -/
theorem dispatch_reports_links (host : Host) (msgs : List RtMsg) (tail : Bytes) (fuel : Nat)
    (hsize : (rtBytes host msgs).length < 2 ^ host.sizeBits) (hfuel : rtFuel msgs ≤ fuel) :
    (dispatch host (bufferOf (rtBytes host msgs ++ tail)) fuel (rtBytes host msgs).length).map
        Decoded.events = some (msgs.flatMap RtMsg.events) ∧
      (∀ chunks : List (List RtMsg × Bytes), (chunks.map Prod.fst).flatten = msgs →
        dispatchEach host fuel chunks =
          (dispatch host (bufferOf (rtBytes host msgs ++ tail)) fuel
            (rtBytes host msgs).length).map Decoded.events) ∧
      ((∀ m ∈ msgs, m.isLink = true) → (rtBytes host msgs).length ≤ 65536 →
        (dumpDatagram host (bufferOf (rtBytes host msgs ++ tail)) fuel
          (rtBytes host msgs).length).map (fun r => (r.events, r.result)) =
            some (msgs.flatMap RtMsg.events, none)) := by
  have hdispatch := dispatch_rt host tail hsize hfuel
  refine ⟨hdispatch, ?_, ?_⟩
  · rintro chunks rfl
    rw [hdispatch]
    exact dispatchEach_eq host hsize hfuel
  · intro hlinks hdatagram
    exact dumpDatagram_rt host tail hlinks (by omega) hfuel

/-- `RTM_NEWLINK` of the bridge family for the device 2, up, with its name
behind an MTU. -/
def demoLink : RtLinkMsg where
  change := .newlink
  control := List.Vector.replicate 10 0
  family := 7
  pad := 0
  type := 1
  index := 2
  flags := 0x1003
  changeMask := 0
  before := [⟨4, [220, 5, 0, 0], by decide⟩]
  ifname := some ⟨[101, 116, 104, 48], by decide⟩
  after := [⟨32771, [1], by decide⟩]
  hbefore := by decide
  hafter := by decide
  hlength := by decide

/-- `RTM_NEWADDR` with a payload of one byte. -/
def demoAddress : RtOtherMsg where
  type := 20
  control := List.Vector.replicate 10 0
  payload := [9]
  htype := by decide
  hlength := by decide

theorem dispatch_reports_links_demo :
    (dispatch amd64 (bufferOf (rtBytes amd64 [.other demoAddress, .link demoLink] ++ [1, 2])) 8
        (rtBytes amd64 [.other demoAddress, .link demoLink]).length).map Decoded.events =
      some [⟨2, [101, 116, 104, 48], 1, true, true⟩] :=
  (dispatch_reports_links amd64 [.other demoAddress, .link demoLink] [1, 2] 8
    (by decide +kernel) (by decide)).1

end Agent
end Obserwrt
