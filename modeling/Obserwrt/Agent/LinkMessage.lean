import Mathlib.Algebra.BigOperators.Ring.List
import Mathlib.Algebra.Order.BigOperators.Group.List
import Obserwrt.Agent.Netlink
import Obserwrt.Agent.Views

/-!
# Link messages of both families

Link messages as the kernel writes them, with their attributes, and what
`dispatch` makes of a buffer of them.  The link group carries messages of two
families: `AF_UNSPEC` about the device itself and `AF_BRIDGE` about its
membership in a bridge.  They share type and layout, and `parse_link` does not
look at the family.
-/

namespace Obserwrt
namespace Agent

open Lib

/-! ## The wire format -/

/-- A `__u16` in host order. -/
def Host.u16Bytes (host : Host) (n : Nat) : Bytes :=
  match host.order with
  | .little => [UInt8.ofNat n, UInt8.ofNat (n / 256)]
  | .big => [UInt8.ofNat (n / 256), UInt8.ofNat n]

/-- A `__u32` in host order. -/
def Host.u32Bytes (host : Host) (n : Nat) : Bytes :=
  match host.order with
  | .little => host.u16Bytes (n % 65536) ++ host.u16Bytes (n / 65536)
  | .big => host.u16Bytes (n / 65536) ++ host.u16Bytes (n % 65536)

@[simp] theorem u16Bytes_length (host : Host) (n : Nat) : (host.u16Bytes n).length = 2 := by
  unfold Host.u16Bytes
  cases host.order <;> rfl

@[simp] theorem u32Bytes_length (host : Host) (n : Nat) : (host.u32Bytes n).length = 4 := by
  unfold Host.u32Bytes
  cases host.order <;> simp

/-- `struct rtattr` with its payload, which its 16-bit length can hold. -/
structure Attr where
  type : UInt16
  payload : Bytes
  hpayload : payload.length ≤ 65531

/-- `rta_len`. -/
def Attr.length (a : Attr) : Nat :=
  4 + a.payload.length

/-- The attribute on the wire, padded to four bytes. -/
def Attr.bytes (host : Host) (a : Attr) : Bytes :=
  host.u16Bytes a.length ++ (host.u16Bytes a.type.toNat ++
    (a.payload ++ List.replicate (nlmsgAlign a.length - a.length) 0))

theorem Attr.bytes_length (host : Host) (a : Attr) :
    (a.bytes host).length = nlmsgAlign a.length := by
  have hbounds := nlmsgAlign_bounds (n := a.length)
    (by have hpayload := a.hpayload; unfold Attr.length; omega)
  simp only [Attr.bytes, List.length_append, u16Bytes_length, List.length_replicate]
  unfold Attr.length at *
  omega

inductive LinkFamily
  | unspec
  | bridge
  deriving DecidableEq

/-- `AF_UNSPEC` and `AF_BRIDGE`. -/
def LinkFamily.code : LinkFamily → UInt8
  | .unspec => 0
  | .bridge => 7

inductive LinkChange
  | newlink
  | dellink
  deriving DecidableEq

/-- `RTM_NEWLINK` and `RTM_DELLINK`. -/
def LinkChange.code : LinkChange → Nat
  | .newlink => 16
  | .dellink => 17

/-- A link message on the wire: header, `ifinfomsg` and attributes. -/
def linkBytes (host : Host) (length : Nat) (change : LinkChange) (control : List.Vector UInt8 10)
    (family pad : UInt8) (type : UInt16) (index flags changeMask : UInt32) (attrs : List Attr) :
    Bytes :=
  host.u32Bytes length ++ (host.u16Bytes change.code ++ (control.toList ++
    (([family, pad] ++ (host.u16Bytes type.toNat ++ (host.u32Bytes index.toNat ++
      (host.u32Bytes flags.toNat ++ host.u32Bytes changeMask.toNat)))) ++
        attrs.flatMap (Attr.bytes host))))

theorem attrs_length (host : Host) (attrs : List Attr) :
    (attrs.flatMap (Attr.bytes host)).length = (attrs.map fun a => nlmsgAlign a.length).sum := by
  simp [List.length_flatMap, Attr.bytes_length]

theorem linkBytes_length (host : Host) (length : Nat) (change : LinkChange)
    (control : List.Vector UInt8 10) (family pad : UInt8) (type : UInt16)
    (index flags changeMask : UInt32) (attrs : List Attr) :
    (linkBytes host length change control family pad type index flags changeMask attrs).length =
      32 + (attrs.map fun a => nlmsgAlign a.length).sum := by
  simp only [linkBytes, List.length_append, u32Bytes_length, u16Bytes_length,
    List.Vector.toList_length, attrs_length, List.length_cons, List.length_nil]
  omega

/-- Messages whose attributes are padded need no padding themselves. -/
theorem align_attrs {attrs : List Attr} {n : Nat}
    (hn : n = 32 + (attrs.map fun a => nlmsgAlign a.length).sum) (hmax : n ≤ 2 ^ 32 - 4) :
    nlmsgAlign n = n := by
  have hdvd : 4 ∣ n := by
    rw [hn]
    refine (Nat.dvd_add_right (by decide)).mpr (List.dvd_sum ?_)
    intro k hk
    obtain ⟨a, -, rfl⟩ := List.mem_map.mp hk
    exact Nat.dvd_mul_left 4 _
  have hbounds := nlmsgAlign_bounds hmax
  have hdvd' : 4 ∣ nlmsgAlign n := Nat.dvd_mul_left 4 _
  omega

/-- A link message.  `control` are the flags, sequence number and port of its
header. -/
structure LinkMsg where
  change : LinkChange
  control : List.Vector UInt8 10
  family : LinkFamily
  pad : UInt8
  type : UInt16
  index : UInt32
  flags : UInt32
  changeMask : UInt32
  attrs : List Attr
  hlength : 32 + (attrs.map fun a => nlmsgAlign a.length).sum ≤ 2 ^ 32 - 4

namespace LinkMsg

/-- `nlmsg_len`. -/
def length (m : LinkMsg) : Nat :=
  32 + (m.attrs.map fun a => nlmsgAlign a.length).sum

/-- The message on the wire. -/
def bytes (host : Host) (m : LinkMsg) : Bytes :=
  linkBytes host m.length m.change m.control m.family.code m.pad m.type m.index m.flags
    m.changeMask m.attrs

/-- The name after one more attribute. -/
def readName (name : Bytes) (a : Attr) : Bytes :=
  if isIfname a.type.toNat a.length then a.payload.dropLast else name

/-- The interface name the message carries, empty if it has none. -/
def ifname (m : LinkMsg) : Bytes :=
  m.attrs.foldl readName []

/-- The event of the message; its family is not part of it. -/
def event (m : LinkMsg) : LinkEvent where
  ifindex := m.index
  ifname := m.ifname
  type := m.type
  present := m.change == .newlink
  up := m.flags.toNat % 2 == 1

/-- What the callback is given for the message: nothing without a name. -/
def events (m : LinkMsg) : List LinkEvent :=
  if m.ifname = [] then [] else [m.event]

theorem align_length (m : LinkMsg) : nlmsgAlign m.length = m.length :=
  align_attrs rfl m.hlength

theorem bytes_length (host : Host) (m : LinkMsg) : (m.bytes host).length = m.length :=
  linkBytes_length ..

end LinkMsg

/-! ## Reading the wire format -/

section Read

variable {host : Host} {bs : Bytes} {p : Nat}

theorem u16At_of_hasAt {n : Nat} (h : HasAt bs p (host.u16Bytes n)) (hn : n < 2 ^ 16) :
    host.u16At (bufferOf bs) p = n := by
  have h0 := h.byteAt (i := 0) (by simp)
  have h1 := h.byteAt (i := 1) (by simp)
  rw [Nat.add_zero] at h0
  unfold Host.u16Bytes at h0 h1
  unfold Host.u16At bufferOf
  cases horder : host.order with
  | little =>
      simp only [horder] at h0 h1 ⊢
      rw [h0, h1]
      simp [byteAt]
      omega
  | big =>
      simp only [horder] at h0 h1 ⊢
      rw [h0, h1]
      simp [byteAt]
      omega

theorem u32At_of_hasAt {n : Nat} (h : HasAt bs p (host.u32Bytes n)) (hn : n < 2 ^ 32) :
    host.u32At (bufferOf bs) p = n := by
  unfold Host.u32Bytes at h
  unfold Host.u32At
  cases horder : host.order with
  | little =>
      simp only [horder] at h ⊢
      have hlow := u16At_of_hasAt h.left (by omega)
      have hhigh := u16At_of_hasAt h.right (by omega)
      rw [u16Bytes_length] at hhigh
      omega
  | big =>
      simp only [horder] at h ⊢
      have hhigh := u16At_of_hasAt h.left (by omega)
      have hlow := u16At_of_hasAt h.right (by omega)
      rw [u16Bytes_length] at hlow
      omega

/-- What `parse_link` reads of one attribute. -/
theorem attr_read {a : Attr} (h : HasAt bs p (a.bytes host)) :
    host.u16At (bufferOf bs) p = a.length ∧ host.u16At (bufferOf bs) (p + 2) = a.type.toNat ∧
      bytesAt (bufferOf bs) (p + 4) (a.length - 5) = a.payload.dropLast := by
  have hpayload := a.hpayload
  have htype := h.right.left
  have hdata := h.right.right.left
  rw [u16Bytes_length] at htype
  rw [u16Bytes_length, u16Bytes_length] at hdata
  refine ⟨u16At_of_hasAt h.left (by unfold Attr.length; omega),
    u16At_of_hasAt htype a.type.toNat_lt, ?_⟩
  -- all of the payload but its last byte
  have hlength : a.length - 5 = a.payload.length - 1 := by
    unfold Attr.length
    omega
  rw [← List.take_append_drop (a.payload.length - 1) a.payload] at hdata
  rw [hlength, List.dropLast_eq_take]
  exact hdata.left.map_range (by rw [List.length_take]; omega)

theorem attrLoop_attrs (stop : Nat) {attrs : List Attr} {fuel : Nat} (ifname : Bytes)
    (h : HasAt bs p (attrs.flatMap (Attr.bytes host)))
    (hsize : (attrs.map fun a => nlmsgAlign a.length).sum < 2 ^ host.sizeBits)
    (hfuel : attrs.length < fuel) :
    ∃ trace, attrLoop host (bufferOf bs) stop fuel p
      (attrs.map fun a => nlmsgAlign a.length).sum ifname =
        some (attrs.foldl LinkMsg.readName ifname, trace) := by
  obtain ⟨fuel, rfl⟩ := Nat.exists_eq_succ_of_ne_zero (by omega : fuel ≠ 0)
  induction attrs generalizing p fuel ifname with
  | nil => exact ⟨{}, by simp [attrLoop]⟩
  | cons a attrs ih =>
      rw [List.flatMap_cons] at h
      obtain ⟨hlen, htype, hname⟩ := attr_read h.left
      have hrest := h.right
      rw [Attr.bytes_length] at hrest
      rw [List.map_cons, List.sum_cons] at hsize ⊢
      have hbounds := nlmsgAlign_bounds (n := a.length)
        (by have hpayload := a.hpayload; unfold Attr.length; omega)
      have hmin : 4 ≤ a.length := Nat.le_add_right 4 _
      obtain ⟨fuel, rfl⟩ := Nat.exists_eq_succ_of_ne_zero
        (by simp only [List.length_cons] at hfuel; omega : fuel ≠ 0)
      obtain ⟨trace, hloop⟩ := ih (LinkMsg.readName ifname a) hrest (by omega) fuel
        (by simp only [List.length_cons] at hfuel; omega)
      have hok : rtaOk a.length
          (nlmsgAlign a.length + (attrs.map fun a => nlmsgAlign a.length).sum) = true := by
        rw [rtaOk, decide_eq_true_eq]
        omega
      have hsub : subMod (2 ^ host.sizeBits)
          (nlmsgAlign a.length + (attrs.map fun a => nlmsgAlign a.length).sum)
            (nlmsgAlign a.length) = (attrs.map fun a => nlmsgAlign a.length).sum := by
        rw [subMod_of_le (Nat.le_add_right _ _) hsize, Nat.add_sub_cancel_left]
      rw [attrLoop, if_neg (by omega)]
      simp only [hlen, hok, htype, hname, hsub]
      unfold LinkMsg.readName at hloop
      simp only [Bool.true_eq_false, if_false, hloop]
      exact ⟨_, rfl⟩

/-- Where the parts of a message lie that the decoder reads. -/
theorem linkBytes_parts {length : Nat} {change : LinkChange} {control : List.Vector UInt8 10}
    {family pad : UInt8} {type : UInt16} {index flags changeMask : UInt32} {attrs : List Attr}
    (h : HasAt bs p
      (linkBytes host length change control family pad type index flags changeMask attrs)) :
    HasAt bs p (host.u32Bytes length) ∧ HasAt bs (p + 4) (host.u16Bytes change.code) ∧
      HasAt bs (p + 18) (host.u16Bytes type.toNat) ∧
      HasAt bs (p + 20) (host.u32Bytes index.toNat) ∧
      HasAt bs (p + 24) (host.u32Bytes flags.toNat) ∧
      HasAt bs (p + 32) (attrs.flatMap (Attr.bytes host)) := by
  unfold linkBytes at h
  have htype := h.right
  rw [u32Bytes_length] at htype
  have hbody := htype.right.right
  rw [u16Bytes_length, List.Vector.toList_length] at hbody
  have hattrs := hbody.right
  have hinfo := hbody.left.right
  simp only [List.length_append, List.length_cons, List.length_nil,
    u16Bytes_length, u32Bytes_length] at hattrs hinfo
  have hindex := hinfo.right
  rw [u16Bytes_length] at hindex
  have hflags := hindex.right
  rw [u32Bytes_length] at hflags
  exact ⟨h.left, htype.left, hinfo.left, hindex.left, hflags.left, hattrs⟩

/-- `parse_link` where a header, an `ifinfomsg` and padded attributes lie.  It
looks neither at the family nor at the mask of changes. -/
theorem parseLink_at {change : LinkChange} {type : UInt16} {index flags : UInt32}
    {attrs : List Attr} {fuel : Nat}
    (hlen : HasAt bs p (host.u32Bytes (32 + (attrs.map fun a => nlmsgAlign a.length).sum)))
    (hchange : HasAt bs (p + 4) (host.u16Bytes change.code))
    (htype : HasAt bs (p + 18) (host.u16Bytes type.toNat))
    (hindex : HasAt bs (p + 20) (host.u32Bytes index.toNat))
    (hflags : HasAt bs (p + 24) (host.u32Bytes flags.toNat))
    (hattrs : HasAt bs (p + 32) (attrs.flatMap (Attr.bytes host)))
    (hmax : 32 + (attrs.map fun a => nlmsgAlign a.length).sum ≤ 2 ^ 32 - 4)
    (hfuel : attrs.length < fuel) :
    ∃ trace, parseLink host (bufferOf bs) fuel p =
      some (⟨index, attrs.foldl LinkMsg.readName [], type, change == .newlink,
        flags.toNat % 2 == 1⟩, trace) := by
  have hcode : host.u16At (bufferOf bs) (p + 4) = change.code :=
    u16At_of_hasAt hchange (by cases change <;> decide)
  have hpresent : (change.code == 16) = (change == .newlink) := by
    cases change <;> rfl
  obtain ⟨trace, hloop⟩ := attrLoop_attrs
    (p + (32 + (attrs.map fun a => nlmsgAlign a.length).sum)) [] hattrs
    (host.lt_size (by omega)) hfuel
  have hsub : subMod (2 ^ host.sizeBits) (32 + (attrs.map fun a => nlmsgAlign a.length).sum) 32 =
      (attrs.map fun a => nlmsgAlign a.length).sum := by
    rw [subMod_of_le (Nat.le_add_right 32 _) (host.lt_size (by omega)), Nat.add_sub_cancel_left]
  simp only [parseLink, u32At_of_hasAt hlen (by omega), hcode, hpresent,
    u16At_of_hasAt htype type.toNat_lt, u32At_of_hasAt hindex index.toNat_lt,
    u32At_of_hasAt hflags flags.toNat_lt, hsub, hloop, Option.map_some, UInt32.ofNat_toNat,
    UInt16.ofNat_toNat]
  exact ⟨_, rfl⟩

/-- `parse_link` reads the event off a message, whatever its family. -/
theorem parseLink_msg {m : LinkMsg} (h : HasAt bs p (m.bytes host)) {fuel : Nat}
    (hfuel : m.attrs.length < fuel) :
    ∃ trace, parseLink host (bufferOf bs) fuel p = some (m.event, trace) := by
  obtain ⟨hlen, hchange, htype, hindex, hflags, hattrs⟩ := linkBytes_parts h
  exact parseLink_at hlen hchange htype hindex hflags hattrs m.hlength hfuel

/-- A message lies at `p` that the loop takes for a link message and parses, or
passes over, which gives these events. -/
structure Handled (host : Host) (kind : Nat → MsgKind) (buf : Buffer) (attrFuel p len : Nat)
    (events : List LinkEvent) : Prop where
  length : host.u32At buf p = len
  min : 16 ≤ len
  max : len ≤ 2 ^ 32 - 4
  taken :
    (kind (host.u16At buf (p + 4)) = .link ∧ ∃ ev trace,
      parseLink host buf attrFuel p = some (ev, trace) ∧
        (if ev.ifname = [] then [] else [ev]) = events) ∨
      (kind (host.u16At buf (p + 4)) = .skip ∧ events = [])

/-- The loop on a message that lies inside the buffer with its padding. -/
theorem msgLoop_handled {modulus attrFuel fuel left len : Nat} {kind : Nat → MsgKind}
    {buf : Buffer} {events : List LinkEvent} {r : Decoded}
    (h : Handled host kind buf attrFuel p len events) (hfit : nlmsgAlign len ≤ left)
    (hleft : left < modulus)
    (hrest : msgLoop host modulus kind buf attrFuel fuel (p + nlmsgAlign len)
      (left - nlmsgAlign len) = some r) :
    ∃ r', msgLoop host modulus kind buf attrFuel (fuel + 1) p left = some r' ∧
      r'.events = events ++ r.events ∧ r'.result = r.result := by
  have hbounds := nlmsgAlign_bounds h.max
  have hmin := h.min
  rw [msgLoop, if_neg (by omega)]
  simp only [h.length]
  rw [if_neg (by omega), subMod_of_le hfit hleft, hrest]
  rcases h.taken with ⟨hkind, ev, trace, hparse, rfl⟩ | ⟨hkind, rfl⟩
  · simp only [hkind, hparse]
    exact ⟨_, rfl, rfl, rfl⟩
  · simp only [hkind]
    exact ⟨_, rfl, rfl, rfl⟩

/-- The loop over messages that fill the buffer reports the events of all of
them in order. -/
theorem msgLoop_run {μ : Type} {bytes : μ → Bytes} {length : μ → Nat}
    {events : μ → List LinkEvent} {msgs : List μ} {modulus attrFuel fuel : Nat}
    {kind : Nat → MsgKind} (h : HasAt bs p (msgs.flatMap bytes))
    (hbytes : ∀ m, (bytes m).length = nlmsgAlign (length m))
    (hhandled : ∀ m ∈ msgs, ∀ q, HasAt bs q (bytes m) →
      Handled host kind (bufferOf bs) attrFuel q (length m) (events m))
    (hsize : (msgs.map fun m => nlmsgAlign (length m)).sum < modulus)
    (hfuel : msgs.length < fuel) :
    ∃ r, msgLoop host modulus kind (bufferOf bs) attrFuel fuel p
        (msgs.map fun m => nlmsgAlign (length m)).sum = some r ∧
      r.events = msgs.flatMap events ∧ r.result = none := by
  obtain ⟨fuel, rfl⟩ := Nat.exists_eq_succ_of_ne_zero (by omega : fuel ≠ 0)
  induction msgs generalizing p fuel with
  | nil => exact ⟨{}, by simp [msgLoop], rfl, rfl⟩
  | cons m msgs ih =>
      rw [List.flatMap_cons] at h
      have hrest := h.right
      rw [hbytes m] at hrest
      rw [List.map_cons, List.sum_cons] at hsize ⊢
      rw [List.length_cons] at hfuel
      obtain ⟨fuel, rfl⟩ := Nat.exists_eq_succ_of_ne_zero (by omega : fuel ≠ 0)
      obtain ⟨r, hloop, hevents, hresult⟩ := ih hrest
        (fun m' hm' => hhandled m' (List.mem_cons_of_mem _ hm')) (by omega) fuel (by omega)
      have hleft : nlmsgAlign (length m) + (msgs.map fun m => nlmsgAlign (length m)).sum -
          nlmsgAlign (length m) = (msgs.map fun m => nlmsgAlign (length m)).sum :=
        Nat.add_sub_cancel_left _ _
      obtain ⟨r', hstep, hevents', hresult'⟩ :=
        msgLoop_handled (hhandled m List.mem_cons_self p h.left) (Nat.le_add_right _ _) hsize
          (hleft ▸ hloop)
      exact ⟨r', hstep, by rw [hevents', hevents]; rfl, hresult'.trans hresult⟩

/-- `dispatch` takes every link message. -/
theorem LinkMsg.handled {m : LinkMsg} (h : HasAt bs p (m.bytes host)) {attrFuel : Nat}
    (hattr : m.attrs.length < attrFuel) :
    Handled host dispatchKind (bufferOf bs) attrFuel p m.length m.events := by
  obtain ⟨hlen, hchange, -⟩ := linkBytes_parts h
  have hmax : m.length ≤ 2 ^ 32 - 4 := m.hlength
  have hmin : 32 ≤ m.length := Nat.le_add_right 32 _
  obtain ⟨trace, hparse⟩ := parseLink_msg h hattr
  refine ⟨u32At_of_hasAt hlen (by omega), by omega, hmax, Or.inl ⟨?_, _, trace, hparse, rfl⟩⟩
  rw [u16At_of_hasAt hchange (by cases m.change <;> decide)]
  cases m.change <;> rfl

end Read

/-- Room for every message and every attribute of a buffer. -/
def fuelFor (msgs : List LinkMsg) : Nat :=
  msgs.length + (msgs.map fun m => m.attrs.length).sum + 1

/-- `dispatch` on a buffer of link messages calls back with their events. -/
theorem dispatch_msgs (host : Host) (msgs : List LinkMsg)
    (hsize : (msgs.flatMap (LinkMsg.bytes host)).length < 2 ^ host.sizeBits) :
    ∃ r, dispatch host (bufferOf (msgs.flatMap (LinkMsg.bytes host))) (fuelFor msgs)
        (msgs.flatMap (LinkMsg.bytes host)).length = some r ∧
      r.events = msgs.flatMap LinkMsg.events := by
  have hbytes : ∀ m : LinkMsg, (m.bytes host).length = nlmsgAlign m.length :=
    fun m => (m.bytes_length host).trans m.align_length.symm
  have hlength : (msgs.flatMap (LinkMsg.bytes host)).length =
      (msgs.map fun m => nlmsgAlign m.length).sum := by
    rw [List.length_flatMap]
    exact congrArg List.sum (List.map_congr_left fun m _ => hbytes m)
  rw [hlength] at hsize ⊢
  have hattr : ∀ m ∈ msgs, m.attrs.length < fuelFor msgs := by
    intro m hm
    have hle : m.attrs.length ≤ (msgs.map fun m => m.attrs.length).sum :=
      List.single_le_sum (fun _ _ => Nat.zero_le _) _ (List.mem_map_of_mem hm)
    unfold fuelFor
    omega
  have hfuel : msgs.length < fuelFor msgs := by
    unfold fuelFor
    omega
  have hall : HasAt (msgs.flatMap (LinkMsg.bytes host)) 0 (msgs.flatMap (LinkMsg.bytes host)) :=
    ⟨[], [], by simp, rfl⟩
  obtain ⟨r, hloop, hevents, -⟩ := msgLoop_run hall hbytes
    (fun m hm q hq => LinkMsg.handled hq (hattr m hm)) hsize hfuel
  exact ⟨r, hloop, hevents⟩

/-! ## The agent over messages of both families -/

variable {ncpu : Nat}

/-- What reaches the agent: a link message, with the kernel's answers should it
lead to an attach, or traffic and timers, which change the kernel maps. -/
inductive Arrival (ncpu : Nat)
  | message (m : LinkMsg) (env : AttachEnv)
  | kernel (traffic : BpfState ncpu → Bpf.Maps ncpu)

/-- A bridge port is removed: `RTM_DELLINK` of the bridge family. -/
def Arrival.isPortRemoval : Arrival ncpu → Bool
  | .message m _ => m.family == .bridge && m.change == .dellink
  | .kernel _ => false

/-- `on_link` for each event of a datagram. -/
def onLinks (cfg : DeviceConfig) (env : AttachEnv) (events : List LinkEvent)
    (s : AgentState ncpu) : AgentState ncpu :=
  events.foldl (fun s ev => (onLink cfg env ev s).2) s

/-- The agent takes what arrives; a message is decoded from its bytes. -/
def receive (host : Host) (cfg : DeviceConfig) (s : AgentState ncpu) :
    Arrival ncpu → AgentState ncpu
  | .message m env =>
      (dispatch host (bufferOf (m.bytes host)) (fuelFor [m]) (m.bytes host).length).elim s
        fun r => onLinks cfg env r.events s
  | .kernel traffic => { s with bpf := { s.bpf with maps := traffic s.bpf } }

/-- No message of the bridge family tells the agent to give up a device that is
attached at that moment. -/
def BridgeHarmless (cfg : DeviceConfig) (s : AgentState ncpu) : Arrival ncpu → Prop
  | .message m _ =>
      m.family = .bridge → ∀ ev ∈ m.events, s.bpf.isAttached ev.ifindex = true →
        wanted cfg ev = true
  | .kernel _ => True

/-- An arrival detaches the device `i`. -/
def Detaches (host : Host) (cfg : DeviceConfig) (s : AgentState ncpu) (a : Arrival ncpu)
    (i : UInt32) : Prop :=
  s.bpf.isAttached i = true ∧ (receive host cfg s a).bpf.isAttached i = false

theorem receive_message (host : Host) (cfg : DeviceConfig) (s : AgentState ncpu) (m : LinkMsg)
    (env : AttachEnv) :
    receive host cfg s (.message m env) = onLinks cfg env m.events s := by
  have hmax : m.length ≤ 2 ^ 32 - 4 := m.hlength
  obtain ⟨r, hdispatch, hevents⟩ := dispatch_msgs host [m]
    (host.lt_size (by simp only [List.flatMap_singleton, m.bytes_length]; omega))
  rw [List.flatMap_singleton] at hdispatch hevents
  rw [receive, hdispatch, Option.elim_some, hevents]

/-- An event about a device that is neither attached nor wanted changes nothing
but the list of names, which is recomputed. -/
theorem onLink_ignored {cfg : DeviceConfig} {s : AgentState ncpu} {ev : LinkEvent}
    (env : AttachEnv) (hnot : s.bpf.isAttached ev.ifindex = false)
    (hunwanted : wanted cfg ev = false) : (onLink cfg env ev s).2 = refreshNames s := by
  simp [onLink, reconcileLink, hnot, hunwanted]

theorem wanted_dellink {cfg : DeviceConfig} {m : LinkMsg} (hchange : m.change = .dellink) :
    wanted cfg m.event = false := by
  simp [wanted, LinkMsg.event, hchange]

/-- The list of names is up to date. -/
def Refreshed (s : AgentState ncpu) : Prop :=
  refreshNames s = s

theorem refreshed_receive (host : Host) (cfg : DeviceConfig) {s : AgentState ncpu}
    (h : Refreshed s) (a : Arrival ncpu) : Refreshed (receive host cfg s a) := by
  cases a with
  | message m env =>
      rw [receive_message, LinkMsg.events]
      split
      · exact h
      · rfl
  | kernel traffic =>
      have hnames : (refreshNames s).attachedNames = s.attachedNames :=
        congrArg AgentState.attachedNames h
      unfold Refreshed refreshNames receive
      simp only [AgentState.mk.injEq, true_and]
      exact hnames

theorem agree_receive (host : Host) (cfg : DeviceConfig) {s : AgentState ncpu} (h : Agree s)
    (a : Arrival ncpu) : Agree (receive host cfg s a) := by
  cases a with
  | message m env =>
      rw [receive_message, LinkMsg.events]
      split
      · exact h
      · exact (onLink_spec cfg env m.event h).agree h
  | kernel traffic => exact ⟨h.paired, h.named⟩

/-- A harmless removal of a bridge port is not noticed. -/
theorem receive_portRemoval (host : Host) (cfg : DeviceConfig) {s : AgentState ncpu}
    (h : Refreshed s) {a : Arrival ncpu} (hremoval : a.isPortRemoval = true)
    (hharmless : BridgeHarmless cfg s a) : receive host cfg s a = s := by
  cases a with
  | kernel traffic => simp [Arrival.isPortRemoval] at hremoval
  | message m env =>
      simp only [Arrival.isPortRemoval, Bool.and_eq_true, beq_iff_eq] at hremoval
      have hunwanted : wanted cfg m.event = false := wanted_dellink hremoval.2
      have hevent := hharmless hremoval.1
      rw [receive_message]
      unfold LinkMsg.events at hevent ⊢
      split
      · rfl
      · rename_i hname
        rw [if_neg hname] at hevent
        have hnot : s.bpf.isAttached m.event.ifindex = false := by
          refine Bool.eq_false_of_not_eq_true fun hatt => ?_
          have hwanted := hevent m.event (by simp) hatt
          rw [hunwanted] at hwanted
          cases hwanted
        exact (onLink_ignored env hnot hunwanted).trans h

/-- A harmless arrival detaches a device only as a message of the family
`AF_UNSPEC` that says so. -/
theorem detaches_cause {host : Host} {cfg : DeviceConfig} {s : AgentState ncpu} (h : Agree s)
    {a : Arrival ncpu} (hharmless : BridgeHarmless cfg s a) {i : UInt32}
    (hdetach : Detaches host cfg s a i) :
    ∃ m env, a = .message m env ∧ m.family = .unspec ∧ m.index = i ∧
      wanted cfg m.event = false := by
  obtain ⟨hatt, hgone⟩ := hdetach
  cases a with
  | kernel traffic =>
      have hsame : s.bpf.isAttached i = false := hgone
      rw [hatt] at hsame
      cases hsame
  | message m env =>
      rw [receive_message] at hgone
      unfold LinkMsg.events at hgone
      split at hgone
      · have hsame : s.bpf.isAttached i = false := hgone
        rw [hatt] at hsame
        cases hsame
      · rename_i hname
        have hspec := onLink_spec cfg env m.event h
        have hindex : i = m.event.ifindex := by
          by_contra hne
          have hsame := hspec.frame.isAttached hne
          rw [hatt] at hsame
          exact absurd (hsame.symm.trans hgone) (by simp)
        subst hindex
        have hunwanted : wanted cfg m.event = false := by
          have hlive := hspec.live
          rw [hatt, Bool.true_or, Bool.and_true] at hlive
          exact hlive.symm.trans hgone
        refine ⟨m, env, rfl, ?_, rfl, hunwanted⟩
        cases hfamily : m.family with
        | unspec => rfl
        | bridge =>
            have hmem : m.event ∈ m.events := by simp [LinkMsg.events, hname]
            have hwanted := hharmless hfamily m.event hmem hatt
            rw [hunwanted] at hwanted
            cases hwanted

theorem refreshed_start (maps : Bpf.Maps ncpu) (tracer : Bool) :
    Refreshed (AgentState.start maps tracer) := by
  simp [Refreshed, refreshNames, AgentState.start]

theorem agree_start (maps : Bpf.Maps ncpu) (tracer : Bool) :
    Agree (AgentState.start maps tracer) where
  paired := by simp [Paired, AgentState.start]
  named := by simp [AgentState.start, BpfState.isAttached]

/-- Every arrival of a history is harmless at its moment. -/
def AllHarmless (host : Host) (cfg : DeviceConfig) (start : AgentState ncpu)
    (history : List (Arrival ncpu)) : Prop :=
  ∀ front a back, history = front ++ a :: back →
    BridgeHarmless cfg (front.foldl (receive host cfg) start) a

theorem AllHarmless.front {host : Host} {cfg : DeviceConfig} {start : AgentState ncpu}
    {history back : List (Arrival ncpu)} (h : AllHarmless host cfg start (history ++ back)) :
    AllHarmless host cfg start history := by
  rintro front a rest rfl
  exact h front a (rest ++ back) (by simp)

/-- A harmless history leads where it leads without its port removals. -/
theorem foldl_without_removals (host : Host) (cfg : DeviceConfig) {start : AgentState ncpu}
    (hstart : Refreshed start) {history : List (Arrival ncpu)}
    (h : AllHarmless host cfg start history) :
    Refreshed (history.foldl (receive host cfg) start) ∧
      history.foldl (receive host cfg) start =
        (history.filter fun a => !a.isPortRemoval).foldl (receive host cfg) start := by
  induction history using List.reverseRecOn with
  | nil => exact ⟨hstart, rfl⟩
  | append_singleton history a ih =>
      obtain ⟨hrefreshed, hsame⟩ := ih h.front
      have hharmless := h history a [] rfl
      rw [List.filter_append, List.foldl_append, List.foldl_append, List.foldl_cons,
        List.foldl_nil, ← hsame]
      refine ⟨refreshed_receive host cfg hrefreshed a, ?_⟩
      cases hremoval : a.isPortRemoval with
      | true =>
          rw [receive_portRemoval host cfg hrefreshed hremoval hharmless]
          simp [hremoval]
      | false => simp [hremoval]

theorem agree_foldl (host : Host) (cfg : DeviceConfig) {start : AgentState ncpu}
    (hstart : Agree start) (history : List (Arrival ncpu)) :
    Agree (history.foldl (receive host cfg) start) := by
  induction history using List.reverseRecOn with
  | nil => exact hstart
  | append_singleton history a ih =>
      rw [List.foldl_append]
      exact agree_receive host cfg ih a

/-- A message of the bridge family that is not harmless detaches its device. -/
theorem detaches_of_not_wanted (host : Host) {cfg : DeviceConfig} {s : AgentState ncpu}
    (h : Agree s) {m : LinkMsg} {env : AttachEnv} {ev : LinkEvent} (hev : ev ∈ m.events)
    (hatt : s.bpf.isAttached ev.ifindex = true) (hunwanted : wanted cfg ev = false) :
    Detaches host cfg s (.message m env) ev.ifindex := by
  refine ⟨hatt, ?_⟩
  rw [receive_message]
  unfold LinkMsg.events at hev ⊢
  split at hev
  · simp at hev
  · obtain rfl := List.mem_singleton.mp hev
    rename_i hname
    rw [if_neg hname]
    have hlive := (onLink_spec cfg env m.event h).live
    rw [hunwanted, Bool.false_and] at hlive
    exact hlive

/-- **Bridge ports and observation.**  Over every history of link messages of
both families, and of any traffic between them: the agent is, after each
arrival, where it would be without the removals of bridge ports, and detaches a
device only on a message of the family `AF_UNSPEC` that says the device is
gone, down or does not match, if and only if no message of the bridge family
says so of a device attached at that moment. -/
theorem ports_ignored_iff_harmless (host : Host) (cfg : DeviceConfig) (maps : Bpf.Maps ncpu)
    (tracer : Bool) (history : List (Arrival ncpu)) :
    ((∀ front back, history = front ++ back →
        front.foldl (receive host cfg) (AgentState.start maps tracer) =
          (front.filter fun a => !a.isPortRemoval).foldl (receive host cfg)
            (AgentState.start maps tracer)) ∧
      ∀ front a back i, history = front ++ a :: back →
        Detaches host cfg (front.foldl (receive host cfg) (AgentState.start maps tracer)) a i →
          ∃ m env, a = .message m env ∧ m.family = .unspec ∧ m.index = i ∧
            wanted cfg m.event = false) ↔
      AllHarmless host cfg (AgentState.start maps tracer) history := by
  constructor
  · rintro ⟨-, hcause⟩ front a back rfl
    cases a with
    | kernel traffic => trivial
    | message m env =>
        intro hfamily ev hev hatt
        by_contra hunwanted
        have hagree := agree_foldl host cfg (agree_start maps tracer) front
        have hdetach : Detaches host cfg _ (.message m env) ev.ifindex :=
          detaches_of_not_wanted host hagree hev hatt (Bool.eq_false_of_not_eq_true hunwanted)
        obtain ⟨m', env', hmsg, hunspec, -, -⟩ := hcause front _ back _ rfl hdetach
        cases hmsg
        rw [hfamily] at hunspec
        cases hunspec
  · intro h
    constructor
    · rintro front back rfl
      exact (foldl_without_removals host cfg (refreshed_start maps tracer) h.front).2
    · intro front a back i hhistory hdetach
      exact detaches_cause (agree_foldl host cfg (agree_start maps tracer) front)
        (h front a back hhistory) hdetach

/-- A message about the device 2, up, with the name `eth0`. -/
def eth0Message (change : LinkChange) (family : LinkFamily) : LinkMsg where
  change := change
  control := ⟨[0, 0, 0, 0, 0, 0, 0, 0, 0, 0], rfl⟩
  family := family
  pad := 0
  type := 1
  index := 2
  flags := 1
  changeMask := 0
  attrs := [⟨3, [101, 116, 104, 48, 0], by decide⟩]
  hlength := by decide

/-- The device comes up, and later leaves a bridge it was in. -/
def leavesBridge : List (Arrival 1) :=
  [.message (eth0Message .newlink .unspec) {}, .message (eth0Message .dellink .bridge) {}]

/-- The device still exists and is still up, but it is detached. -/
theorem leaving_a_bridge_detaches :
    (leavesBridge.foldl (receive amd64 demoDevices)
        (AgentState.start (Bpf.Maps.empty 1 8) false)).bpf.isAttached 2 = false ∧
      ((leavesBridge.filter fun a => !a.isPortRemoval).foldl (receive amd64 demoDevices)
        (AgentState.start (Bpf.Maps.empty 1 8) false)).bpf.isAttached 2 = true := by
  decide +kernel

end Agent
end Obserwrt
