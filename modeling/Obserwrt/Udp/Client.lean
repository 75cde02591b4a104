import Mathlib.Data.Nat.ModEq
import Obserwrt.Lib.Text
import Obserwrt.Lib.Run

/-!
# The UDP endpoint

`UdpClient` of `udp_client.cpp`: one socket to the collector, and the number of
failed sends since the last `take_failures`.  The kernel's answers are inputs,
and the descriptors it has open for the client are part of the state, so that
what the candidate loop of `connect` opens and closes can be counted.
-/

namespace Obserwrt
namespace Udp

open Lib

/-- `ai_family`. -/
inductive Family
  | inet
  | inet6
  | other
  deriving DecidableEq

/-- An address of the list `getaddrinfo` returned, with the kernel's answers
when it is tried: the descriptor that `socket` opens, whether `inet_pton` reads
the source address in this family, and whether `bind` accepts it. -/
structure Candidate where
  family : Family
  addr : Bytes
  socket : Option Nat
  ptonOk : Bool := true
  bindOk : Bool := true
  deriving DecidableEq

/-- `class UdpClient`, where an `unsigned long` has `w` bits. -/
structure UdpClient (w : Nat) where
  fd : Option Nat := none
  toAddr : Bytes := []
  failures : BitVec w := 0
  deriving DecidableEq

/-- The client with the descriptors open for it. -/
structure Endpoint (w : Nat) where
  client : UdpClient w := {}
  opened : List Nat := []
  deriving DecidableEq

variable {w : Nat}

/-- `connected`. -/
def UdpClient.connected (c : UdpClient w) : Bool :=
  c.fd.isSome

/-- `bind_source`. -/
def bindSource (c : Candidate) : Bool :=
  match c.family with
  | .inet => c.ptonOk && c.bindOk
  | .inet6 => c.ptonOk && c.bindOk
  | .other => false

/-- A socket for the candidate comes up, bound to the source if there is one. -/
def usable (source : Bytes) (c : Candidate) : Bool :=
  c.socket.isSome && (decide (source = []) || bindSource c)

/-- The candidate loop of `connect`. -/
def connectLoop (source : Bytes) : List Candidate → Endpoint w → Bool × Endpoint w
  | [], e => (false, e)
  | c :: rest, e =>
      match c.socket with
      | none => connectLoop source rest e
      | some s =>
          let old := e.client.fd
          let e : Endpoint w := ⟨{ e.client with fd := some s }, s :: e.opened⟩
          if source ≠ [] ∧ bindSource c = false then
            -- `close(s)`, and the old descriptor is the client's again
            connectLoop source rest ⟨{ e.client with fd := old }, e.opened.erase s⟩
          else (true, { e with client := { e.client with toAddr := c.addr } })

/-- `connect`, on what `getaddrinfo` resolved `host` to (`none` when it
failed); with the error text when it returns false. -/
def connect (host source : Bytes) (resolved : Option (List Candidate)) (e : Endpoint w) :
    Except Bytes Unit × Endpoint w :=
  match resolved with
  | none => (.error (host ++ text ": cannot resolve"), e)
  | some candidates =>
      match connectLoop source candidates e with
      | (true, e) => (.ok (), e)
      | (false, e) =>
          (.error (if source = [] then host ++ text ": no usable address"
            else text "bind source " ++ source ++ text " failed"), e)

/-- `send`.  `reply` is what `sendto` returns, `none` on an error. -/
def UdpClient.send (c : UdpClient w) (data : Bytes) (reply : Option Nat) :
    Bool × UdpClient w :=
  if c.fd = none then (false, { c with failures := c.failures + 1 })
  else if reply ≠ some data.length then (false, { c with failures := c.failures + 1 })
  else (true, c)

/-- `take_failures`. -/
def UdpClient.takeFailures (c : UdpClient w) : BitVec w × UdpClient w :=
  (c.failures, { c with failures := 0 })

/-! ## The candidate loop -/

/-- **What the candidate loop does**: it takes the first usable candidate and
leaves open the descriptor of no other one. -/
theorem connectLoop_spec (source : Bytes) (candidates : List Candidate) (e : Endpoint w) :
    connectLoop source candidates e =
      match candidates.find? (usable source) with
      | none => (false, e)
      | some c =>
          (true, ⟨{ e.client with fd := c.socket, toAddr := c.addr },
            c.socket.toList ++ e.opened⟩) := by
  induction candidates with
  | nil => rfl
  | cons c rest ih =>
      rw [connectLoop, List.find?_cons]
      cases hsocket : c.socket with
      | none =>
          have hnot : usable source c = false := by simp [usable, hsocket]
          simp only [hnot]
          exact ih
      | some s =>
          by_cases hbind : source ≠ [] ∧ bindSource c = false
          · have hnot : usable source c = false := by simp [usable, hbind]
            simp only [if_pos hbind, hnot, List.erase_cons_head]
            exact ih
          · have husable : usable source c = true := by
              rw [not_and_or, not_not, Bool.not_eq_false] at hbind
              simp [usable, hsocket, hbind]
            simp only [if_neg hbind, husable, hsocket]
            rfl

/-! ## Whole runs of one client -/

/-- A call on the client, with the kernel's answers. -/
inductive Call
  | connect (host source : Bytes) (resolved : Option (List Candidate))
  | send (data : Bytes) (reply : Option Nat)
  | takeFailures
  deriving DecidableEq

/-- One call. -/
def Endpoint.call (e : Endpoint w) : Call → Endpoint w
  | .connect host source resolved => (connect host source resolved e).2
  | .send data reply => { e with client := (e.client.send data reply).2 }
  | .takeFailures => { e with client := e.client.takeFailures.2 }

/-- The sends that a call made without success. -/
def failedBy (e : Endpoint w) : Call → Nat
  | .send data reply => if (e.client.send data reply).1 then 0 else 1
  | _ => 0

/-- What a call hands over to the caller's error counter. -/
def takenBy (e : Endpoint w) : Call → Nat
  | .takeFailures => e.client.takeFailures.1.toNat
  | _ => 0

/-- The descriptor that a call installs. -/
def installedBy : Call → List Nat
  | .connect _ source (some candidates) =>
      ((candidates.find? (usable source)).bind Candidate.socket).toList
  | _ => []

/-- A quantity summed along a run. -/
def along (f : Endpoint w → Call → Nat) : Endpoint w → List Call → Nat
  | _, [] => 0
  | e, c :: calls => f e c + along f (e.call c) calls

theorem along_concat (f : Endpoint w → Call → Nat) (e : Endpoint w) (calls : List Call)
    (c : Call) :
    along f e (calls ++ [c]) = along f e calls + f (calls.foldl Endpoint.call e) c := by
  induction calls generalizing e with
  | nil => simp [along]
  | cons first calls ih =>
      rw [List.cons_append, along, ih, along, List.foldl_cons, Nat.add_assoc]

/-- The sends that failed since the last `take_failures`, with `n` of them
before the calls. -/
def sinceTake : Nat → Endpoint w → List Call → Nat
  | n, _, [] => n
  | _, e, .takeFailures :: calls => sinceTake 0 (e.call .takeFailures) calls
  | n, e, c :: calls => sinceTake (n + failedBy e c) (e.call c) calls

theorem sinceTake_concat (n : Nat) (e : Endpoint w) (calls : List Call) (c : Call) :
    sinceTake n e (calls ++ [c]) =
      if c = .takeFailures then 0
      else sinceTake n e calls + failedBy (calls.foldl Endpoint.call e) c := by
  induction calls generalizing n e with
  | nil => cases c <;> simp [sinceTake]
  | cons first calls ih =>
      cases first with
      | connect host source resolved => exact ih _ _
      | send data reply => exact ih _ _
      | takeFailures => exact ih _ _

theorem connect_endpoint (host source : Bytes) (resolved : Option (List Candidate))
    (e : Endpoint w) :
    (connect host source resolved e).2.client.failures = e.client.failures ∧
      (connect host source resolved e).2.opened =
        installedBy (.connect host source resolved) ++ e.opened ∧
      (connect host source resolved e).2.client.fd =
        ((installedBy (.connect host source resolved)).head?).or e.client.fd := by
  cases resolved with
  | none => simp [connect, installedBy]
  | some candidates =>
      rw [connect, connectLoop_spec]
      cases hfind : candidates.find? (usable source) with
      | none => simp [installedBy, hfind]
      | some c =>
          have husable := List.find?_some hfind
          have hsocket : c.socket.isSome = true := by
            simp only [usable, Bool.and_eq_true] at husable
            exact husable.1
          obtain ⟨s, hs⟩ := Option.isSome_iff_exists.mp hsocket
          simp [installedBy, hfind, hs]

/-- A send adds its failure to the counter. -/
theorem send_failures (e : Endpoint w) (data : Bytes) (reply : Option Nat) :
    (e.client.send data reply).2.failures =
      e.client.failures + BitVec.ofNat w (failedBy e (.send data reply)) := by
  rw [failedBy, UdpClient.send]
  split
  · simp
  · split
    · simp
    · simp

/-- What holds after every call: the counter holds the failures since the last
take, the failures are conserved, and the open descriptors are those of the
successful connects, the newest in use. -/
structure ClientInv (calls : List Call) (e : Endpoint w) : Prop where
  held : e.client.failures = BitVec.ofNat w (sinceTake 0 ({} : Endpoint w) calls)
  conserved : along takenBy ({} : Endpoint w) calls + sinceTake 0 ({} : Endpoint w) calls ≡
    along failedBy ({} : Endpoint w) calls [MOD 2 ^ w]
  opened : e.opened = (calls.flatMap installedBy).reverse
  fd : e.client.fd = e.opened.head?

theorem clientInv_call {calls : List Call}
    (h : ClientInv calls (calls.foldl Endpoint.call ({} : Endpoint w))) (c : Call) :
    ClientInv (calls ++ [c]) ((calls ++ [c]).foldl Endpoint.call ({} : Endpoint w)) := by
  rw [List.foldl_append]
  generalize he : calls.foldl Endpoint.call ({} : Endpoint w) = e at h
  have hheld := h.held
  have hconserved := h.conserved
  refine ⟨?_, ?_, ?_, ?_⟩
  · rw [sinceTake_concat, he]
    cases c with
    | connect host source resolved =>
        show (connect host source resolved e).2.client.failures = _
        rw [(connect_endpoint host source resolved e).1, hheld]
        rfl
    | send data reply =>
        show (e.client.send data reply).2.failures = _
        rw [send_failures, hheld, if_neg (by simp), BitVec.ofNat_add]
    | takeFailures => rfl
  · rw [along_concat, along_concat, sinceTake_concat, he]
    cases c with
    | connect host source resolved => exact hconserved
    | send data reply =>
        rw [if_neg (by simp)]
        show _ + 0 + (_ + failedBy e (.send data reply)) ≡ _ [MOD 2 ^ w]
        rw [Nat.add_zero, ← Nat.add_assoc]
        exact hconserved.add_right _
    | takeFailures =>
        -- what is handed over is the number of failures up to a multiple of `2 ^ w`
        have htaken : takenBy e .takeFailures ≡ sinceTake 0 ({} : Endpoint w) calls
            [MOD 2 ^ w] := by
          show e.client.failures.toNat ≡ _ [MOD 2 ^ w]
          rw [hheld, BitVec.toNat_ofNat]
          exact Nat.mod_modEq _ _
        exact (htaken.add_left _).trans hconserved
  · rw [List.flatMap_append, List.reverse_append, ← h.opened]
    cases c with
    | connect host source resolved =>
        show (connect host source resolved e).2.opened = _
        rw [(connect_endpoint host source resolved e).2.1, List.flatMap_singleton]
        cases resolved with
        | none => rfl
        | some candidates =>
            simp only [installedBy]
            cases (candidates.find? (usable source)).bind Candidate.socket with
            | none => rfl
            | some s => rfl
    | send data reply => rfl
    | takeFailures => rfl
  · cases c with
    | connect host source resolved =>
        obtain ⟨-, hopened, hfd⟩ := connect_endpoint host source resolved e
        show (connect host source resolved e).2.client.fd =
          (connect host source resolved e).2.opened.head?
        rw [hfd, hopened, List.head?_append, h.fd]
    | send data reply =>
        show (e.client.send data reply).2.fd = e.opened.head?
        rw [← h.fd, UdpClient.send]
        split
        · rfl
        · split <;> rfl
    | takeFailures => exact h.fd

/-- **A client loses no failure and no descriptor.**  After every sequence of
calls on a fresh client, whatever the resolver and the kernel answer, the
counter of `w` bits holds the sends that returned false since the last take
and, with what the takes handed over, all sends that returned false, both up to
multiples of `2 ^ w`; and the descriptors open are those of the first usable
candidate of each `connect`, so that candidates tried in vain leave nothing
open; the newest is the one in use. -/
theorem client_accounts (w : Nat) (calls : List Call) :
    let start : Endpoint w := {}
    let e := calls.foldl Endpoint.call start
    e.client.failures.toNat = sinceTake 0 start calls % 2 ^ w ∧
      along takenBy start calls + e.client.failures.toNat ≡ along failedBy start calls
        [MOD 2 ^ w] ∧
      e.opened = (calls.flatMap installedBy).reverse ∧
      e.client.fd = e.opened.head? := by
  intro start e
  have hinv : ClientInv calls e := by
    induction calls using List.reverseRecOn with
    | nil => exact ⟨rfl, rfl, rfl, rfl⟩
    | append_singleton calls c ih => exact clientInv_call ih c
  have hheld : e.client.failures.toNat = sinceTake 0 start calls % 2 ^ w := by
    rw [hinv.held, BitVec.toNat_ofNat]
  refine ⟨hheld, ?_, hinv.opened, hinv.fd⟩
  rw [hheld]
  exact ((Nat.mod_modEq _ _).add_left _).trans hinv.conserved

end Udp
end Obserwrt
