import Obserwrt.Lib.Run
import Obserwrt.Config.Backends
import Obserwrt.Syslog.Encode
import Obserwrt.Syslog.Frame
import Obserwrt.Udp.Client

/-!
# The syslog exporter

`SyslogExporter` of `exporter_syslog.cpp` with its state: how `init` chooses
between the local log and a collector, and what `emit` hands out for each
observation.  What the exporter finds outside (the names of the devices, the
clock, the answers of the kernel) comes in with the calls.  A `dump` that fails
ends the daemon, so that a run of emissions may end early.
-/

namespace Obserwrt
namespace Syslog

open Lib

/-! ## The source -/

/-- `class SyslogExporter`.  The function behind `ifnames_` comes in with the
calls of `emit`, since what it returns changes with the devices. -/
structure SyslogExporter (w : Nat) where
  enabled : Bool := false
  isLocal : Bool := false
  format : Bytes := text "json"
  host : Bytes := []
  remote : Udp.Endpoint w := {}

variable {w : Nat}

/-- `init` of a new exporter: the value returned with the error text, and the
exporter.  `file` is what the kernel's host name file holds, `resolved` what
`getaddrinfo` found for the collector. -/
def SyslogExporter.init (cfg : Config.Syslog) (file : Option Bytes)
    (resolved : Option (List Udp.Candidate)) : (Bool × Bytes) × SyslogExporter w :=
  let x : SyslogExporter w := {}
  if cfg.enabled = false then ((false, []), { x with enabled := false })
  else
    let x := { x with format := cfg.format }
    if cfg.format ≠ text "json" ∧ cfg.format ≠ text "logfmt" then
      ((false, text "syslog: unsupported format " ++ cfg.format), x)
    else if cfg.protocol ≠ text "udp" then
      ((false, text "syslog: unsupported protocol " ++ cfg.protocol), x)
    else
      let x := { x with host := initHost cfg.hostname file }
      if cfg.syslogHost = [] then ((true, []), { x with isLocal := true, enabled := true })
      else
        match Udp.connect cfg.syslogHost cfg.sourceAddress resolved x.remote with
        | (.ok (), remote) =>
            ((true, []), { x with isLocal := false, remote := remote, enabled := true })
        | (.error err, remote) =>
            ((false, err), { x with isLocal := false, remote := remote, enabled := false })

/-- The arguments of one `emit` call. -/
structure Report where
  key : FlowKey
  val : FlowVal
  expired : Bool
  delta : Option Delta
  drop : Option DropInfo
  deriving DecidableEq

/-- A call of `emit` with what it finds outside: `ifnames_`, the clock, and what
`sendto` returns if it is called. -/
structure Request extends Report where
  ifnames : Option (UInt32 → Bytes)
  now : Int
  reply : Option Nat

/-- The name that `emit` passes on. -/
def Request.ifname (q : Request) : Bytes :=
  match q.ifnames with
  | some ifnames => ifnames q.key.ifindex
  | none => decimalBytes q.key.ifindex.toNat

/-- What leaves the daemon: a message for `syslog(3)` with its priority, or a
datagram for the collector. -/
inductive Line
  | message (priority : Nat) (m : Bytes)
  | datagram (d : Bytes)
  deriving DecidableEq

/-- `LOG_INFO | LOG_DAEMON`. -/
def linePriority : Nat := 6 ||| 3 <<< 3

section Emit

variable (inet : InetText)

/-- `encode`. -/
def encode (r : Report) (ifname format : Bytes) : Option Bytes :=
  if format = text "json" then encodeJson inet r.key r.val r.expired r.delta ifname r.drop
  else encodeLogfmt inet r.key r.val r.expired r.delta ifname r.drop

/-- `emit`: the exporter behind it and what left the daemon. -/
def SyslogExporter.emit (x : SyslogExporter w) (q : Request) :
    Option (SyslogExporter w × List Line) :=
  if x.enabled = false then some (x, [])
  else
    (encode inet q.toReport q.ifname x.format).map fun payload =>
      if x.isLocal then
        -- `syslog` gets a C string
        (x, [.message linePriority (payload.takeWhile (· != 0))])
      else
        let framed := frame payload x.host q.now
        let (_, client) := x.remote.client.send framed q.reply
        ({ x with remote := { x.remote with client := client } },
          if x.remote.client.connected then [.datagram framed] else [])

/-- `take_failures`. -/
def SyslogExporter.takeFailures (x : SyslogExporter w) : BitVec w × SyslogExporter w :=
  let (n, client) := x.remote.client.takeFailures
  (n, { x with remote := { x.remote with client := client } })

/-! ## One emission -/

/-- The reader of the format that the daemon was configured with. -/
def readPayload (format payload : Bytes) : Option SyslogRecord :=
  (if format = text "json" then readObject payload else readLogMembers flagNames payload).bind
    SyslogRecord.ofFields

/-- A log file has a message on one line; a collector takes the header off. -/
def readLine (format : Bytes) : Line → Option SyslogRecord
  | .message _ m => readPayload format (m.takeWhile (· != 10))
  | .datagram d => (readHeader d).bind fun r => readPayload format r.2

/-- The record behind a call. -/
def Request.record (q : Request) : SyslogRecord :=
  makeRecord inet q.key q.val q.expired q.delta q.ifname q.drop

theorem fieldNames_printable : ∀ name ∈ fieldNames, ∀ c ∈ name, 32 ≤ c := by
  have hall : fieldNames.all (fun name => name.all fun c => decide (32 ≤ c)) = true := by
    decide +kernel
  intro name hname c hc
  exact of_decide_eq_true (List.all_eq_true.mp (List.all_eq_true.mp hall name hname) c hc)

/-- What a payload is, where there is one. -/
structure Carries (format payload : Bytes) (q : Request) : Prop where
  utf8 : Utf8Strings q.ifname q.drop
  read : readPayload format payload = some (q.record inet)
  printable : ∀ c ∈ payload, 32 ≤ c

theorem object_member_printable (q : Request) :
    ∀ m ∈ (q.record inet).object, ∀ c ∈ m.1, 32 ≤ c := by
  intro m hm
  refine fieldNames_printable m.1 ?_
  rw [← object_names (q.record inet)]
  exact List.mem_map_of_mem hm

theorem direction_printable (q : Request) : ∀ c ∈ (q.record inet).direction, 32 ≤ c := by
  rcases direction_cases inet q.key q.val q.expired q.delta q.ifname q.drop with hdir | hdir
  · rw [Request.record, hdir]
    decide +kernel
  · rw [Request.record, hdir]
    decide +kernel

/-- The direction is the only bare word. -/
theorem object_word_printable (q : Request) :
    ∀ m ∈ (q.record inet).object, ∀ s, m.2 = .str s → m.1 ∈ wordNames → ∀ c ∈ s, 32 ≤ c := by
  simpa [SyslogRecord.object, wordNames, text] using direction_printable inet q

/-- There is no payload exactly for the strings that cannot be written. -/
theorem encode_eq_none_iff (format : Bytes) (q : Request) :
    encode inet q.toReport q.ifname format = none ↔ ¬Utf8Strings q.ifname q.drop := by
  rw [encode, encodeJson_eq, encodeLogfmt_eq]
  by_cases hstrings : Utf8Strings q.ifname q.drop
  · rw [if_pos hstrings, if_pos hstrings]
    split <;> simp [hstrings]
  · rw [if_neg hstrings, if_neg hstrings]
    split <;> simp [hstrings]

/-- **What `encode` returns** carries the record in printable characters. -/
theorem encode_carries {format payload : Bytes} {q : Request}
    (hpayload : encode inet q.toReport q.ifname format = some payload) :
    Carries inet format payload q := by
  have hstrings : Utf8Strings q.ifname q.drop := by
    by_contra hnot
    rw [(encode_eq_none_iff inet format q).mpr hnot] at hpayload
    exact absurd hpayload (by simp)
  rw [encode, encodeJson_eq, encodeLogfmt_eq, if_pos hstrings, if_pos hstrings] at hpayload
  by_cases hformat : format = text "json"
  · rw [if_pos hformat] at hpayload
    obtain rfl := Option.some.inj hpayload
    refine ⟨hstrings, ?_, objectJson_printable _⟩
    rw [readPayload, if_pos hformat, readObject_objectJson, Option.bind_some]
    exact ofFields_object _
  · rw [if_neg hformat] at hpayload
    obtain rfl := Option.some.inj hpayload
    refine ⟨hstrings, ?_, logLine_printable (object_member_printable inet q)
      (object_word_printable inet q)⟩
    have hread : readLogMembers flagNames
        (logLine ((q.record inet).object.map (logMember wordNames))) =
          some (q.record inet).object :=
      readLogMembers_logLine (List.cons_ne_nil _ _)
        (object_carries inet q.key q.val q.expired q.delta q.ifname q.drop)
    rw [readPayload, if_neg hformat]
    show (readLogMembers flagNames
        (logLine ((q.record inet).object.map (logMember wordNames)))).bind
          SyslogRecord.ofFields = some (q.record inet)
    rw [hread, Option.bind_some, ofFields_object]

/-- The state that a successful `init` leaves, and that every emission keeps. -/
structure SyslogExporter.Ready (x : SyslogExporter w) : Prop where
  enabled : x.enabled = true
  connected : x.isLocal = false → x.remote.client.connected = true

/-- The line that a payload leaves the daemon on. -/
def SyslogExporter.line (x : SyslogExporter w) (payload : Bytes) (q : Request) : Line :=
  if x.isLocal then .message linePriority payload
  else .datagram (frame payload x.host q.now)

/-- The kernel did not take a datagram as a whole. -/
def lost : Line → Option Nat → Bool
  | .message _ _, _ => false
  | .datagram d, reply => decide (reply ≠ some d.length)

/-- The exporter with more failures to report. -/
def SyslogExporter.addFailures (x : SyslogExporter w) (n : Nat) : SyslogExporter w :=
  { x with remote :=
      { x.remote with client :=
          { x.remote.client with failures := x.remote.client.failures + BitVec.ofNat w n } } }

theorem addFailures_zero (x : SyslogExporter w) : x.addFailures 0 = x := by
  simp [SyslogExporter.addFailures]

/-- **One emission**: there is one line, and a datagram that is lost is counted. -/
theorem emit_eq {x : SyslogExporter w} (hready : x.Ready) (q : Request) :
    x.emit inet q =
      (encode inet q.toReport q.ifname x.format).map fun payload =>
        (x.addFailures (lost (x.line payload q) q.reply).toNat, [x.line payload q]) := by
  rw [SyslogExporter.emit, if_neg (by simp [hready.enabled])]
  refine Option.map_congr fun payload hpayload => ?_
  have hprintable := (encode_carries inet hpayload).printable
  by_cases hlocal : x.isLocal = true
  · have hnul : (0 : UInt8) ∉ payload := fun hmem => absurd (hprintable 0 hmem) (by decide)
    simp only [hlocal, if_true, SyslogExporter.line, lost, takeWhile_of_not_mem hnul,
      Bool.toNat_false, addFailures_zero]
  · have hconnected := hready.connected (by simpa using hlocal)
    obtain ⟨fd, hfd⟩ := Option.isSome_iff_exists.mp hconnected
    have hsocket : x.remote.client.fd ≠ none := by simp [hfd]
    simp only [hlocal, if_false, Bool.false_eq_true, SyslogExporter.line, lost, hconnected, if_true,
      Udp.UdpClient.send, hsocket]
    by_cases hreply : q.reply = some (frame payload x.host q.now).length
    · rw [if_neg (by simp [hreply])]
      simpa [SyslogExporter.addFailures, hreply] using hlocal
    · rw [if_pos hreply]
      simpa [SyslogExporter.addFailures, hreply] using hlocal

/-- A message always reaches its reader; a datagram needs a header that can be
read. -/
def SyslogExporter.Reaches (x : SyslogExporter w) (q : Request) : Prop :=
  x.isLocal = true ∨ FourDigitYear q.now ∧ x.host ≠ [] ∧ 32 ∉ x.host

theorem readLine_line {x : SyslogExporter w} {payload : Bytes} {q : Request}
    (hcarries : Carries inet x.format payload q) (hreaches : x.Reaches q) :
    readLine x.format (x.line payload q) = some (q.record inet) := by
  unfold SyslogExporter.line
  by_cases hlocal : x.isLocal = true
  · have hbreak : (10 : UInt8) ∉ payload :=
      fun hmem => absurd (hcarries.printable 10 hmem) (by decide)
    rw [if_pos hlocal, readLine, takeWhile_of_not_mem hbreak, hcarries.read]
  · obtain ⟨hyear, hne, hspace⟩ := hreaches.resolve_left hlocal
    rw [if_neg hlocal, readLine, readHeader_frame hyear, readFields_host hne hspace,
      Option.bind_some, hcarries.read]

/-! ## Whole runs -/

/-- The lines that the kernel did not take, each with its answer. -/
def lostCount (lines : List Line) (requests : List Request) : Nat :=
  ((lines.zip requests).map fun p => (lost p.1 p.2.reply).toNat).sum

theorem Ready.addFailures {x : SyslogExporter w} (hready : x.Ready) (n : Nat) :
    (x.addFailures n).Ready :=
  ⟨hready.enabled, hready.connected⟩

theorem addFailures_add (x : SyslogExporter w) (m n : Nat) :
    (x.addFailures m).addFailures n = x.addFailures (m + n) := by
  simp only [SyslogExporter.addFailures, BitVec.ofNat_add, BitVec.add_assoc]

/-- The line that stands for a request: its payload is read as the record, and
so is the line where it reaches its reader. -/
def SyslogExporter.Tells (x : SyslogExporter w) (q : Request) (line : Line) : Prop :=
  ∃ payload, line = x.line payload q ∧ readPayload x.format payload = some (q.record inet) ∧
    (x.Reaches q → readLine x.format line = some (q.record inet))

theorem tells_line {x : SyslogExporter w} {payload : Bytes} {q : Request}
    (hcarries : Carries inet x.format payload q) : x.Tells inet q (x.line payload q) :=
  ⟨payload, rfl, hcarries.read, readLine_line inet hcarries⟩

/-- A run of emissions ends at the first strings that cannot be written, or
leaves one line for each. -/
theorem emissions_spec {x : SyslogExporter w} (hready : x.Ready) (requests : List Request) :
    match transduce (SyslogExporter.emit inet) x requests with
    | none => ∃ q ∈ requests, ¬Utf8Strings q.ifname q.drop
    | some (x', lines) =>
        (∀ q ∈ requests, Utf8Strings q.ifname q.drop) ∧
          List.Forall₂ (x.Tells inet) requests lines ∧
          x' = x.addFailures (lostCount lines requests) := by
  -- over the requests; only the failures of the exporter change
  induction requests generalizing x with
  | nil => exact ⟨by simp, List.Forall₂.nil, (addFailures_zero x).symm⟩
  | cons q requests ih =>
      rw [transduce, emit_eq inet hready]
      cases hpayload : encode inet q.toReport q.ifname x.format with
      | none =>
          exact ⟨q, List.mem_cons_self, (encode_eq_none_iff inet x.format q).mp hpayload⟩
      | some payload =>
          have hcarries := encode_carries inet hpayload
          generalize hn : (lost (x.line payload q) q.reply).toNat = n
          have hrest := ih (Ready.addFailures hready n)
          simp only [Option.map_some, Option.bind_eq_bind, Option.bind_some, hn]
          cases htail : transduce (SyslogExporter.emit inet) (x.addFailures n) requests with
          | none =>
              rw [htail] at hrest
              obtain ⟨q', hq', hnot⟩ := hrest
              exact ⟨q', List.mem_cons_of_mem _ hq', hnot⟩
          | some r =>
              obtain ⟨x', lines⟩ := r
              rw [htail] at hrest
              obtain ⟨hstrings, hlines, rfl⟩ := hrest
              refine ⟨?_, List.Forall₂.cons (tells_line inet hcarries) hlines, ?_⟩
              · intro q' hq'
                rcases List.mem_cons.mp hq' with rfl | hq'
                · exact hcarries.utf8
                · exact hstrings q' hq'
              · rw [addFailures_add]
                simp [lostCount, hn]

end Emit

/-! ## What `init` leaves -/

theorem connect_ok_connected {host source : Bytes} {resolved : Option (List Udp.Candidate)}
    {e : Udp.Endpoint w} (hok : (Udp.connect host source resolved e).1 = .ok ()) :
    (Udp.connect host source resolved e).2.client.connected = true := by
  cases resolved with
  | none => exact absurd hok (by simp [Udp.connect])
  | some candidates =>
      rw [Udp.connect, Udp.connectLoop_spec] at hok ⊢
      cases hfind : candidates.find? (Udp.usable source) with
      | none =>
          rw [hfind] at hok
          exact absurd hok (by simp)
      | some c =>
          have husable := List.find?_some hfind
          simp only [Udp.usable, Bool.and_eq_true] at husable
          exact husable.1

/-- What a successful `init` leaves: it is local exactly without a collector. -/
structure Started (cfg : Config.Syslog) (file : Option Bytes) (x : SyslogExporter w) :
    Prop where
  ready : x.Ready
  format : x.format = cfg.format
  host : x.host = initHost cfg.hostname file
  isLocal : x.isLocal = decide (cfg.syslogHost = [])
  failures : x.remote.client.failures = 0

theorem init_started {cfg : Config.Syslog} {file : Option Bytes}
    {resolved : Option (List Udp.Candidate)}
    (hinit : (SyslogExporter.init (w := w) cfg file resolved).1.1 = true) :
    Started cfg file (SyslogExporter.init (w := w) cfg file resolved).2 := by
  unfold SyslogExporter.init at hinit ⊢
  by_cases henabled : cfg.enabled = false
  · simp [henabled] at hinit
  · by_cases hformat : cfg.format ≠ text "json" ∧ cfg.format ≠ text "logfmt"
    · simp [henabled, hformat] at hinit
    · by_cases hprotocol : cfg.protocol ≠ text "udp"
      · simp [henabled, hformat, hprotocol] at hinit
      · simp only [henabled, hformat, hprotocol, if_false] at hinit ⊢
        by_cases hhost : cfg.syslogHost = []
        · simp only [hhost, if_true]
          exact ⟨⟨rfl, by simp⟩, rfl, rfl, (decide_eq_true hhost).symm, rfl⟩
        · simp only [hhost, if_false] at hinit ⊢
          have hok := @connect_ok_connected w cfg.syslogHost cfg.sourceAddress resolved {}
          have hfailures :=
            (Udp.connect_endpoint (w := w) cfg.syslogHost cfg.sourceAddress resolved {}).1
          revert hinit hok hfailures
          rcases Udp.connect (w := w) cfg.syslogHost cfg.sourceAddress resolved {} with
            ⟨result, remote⟩
          cases result with
          | error err =>
              intro hinit
              exact absurd hinit (by simp)
          | ok value =>
              intro _ hok hfailures
              exact ⟨⟨rfl, fun _ => hok rfl⟩, rfl, rfl, (decide_eq_false hhost).symm, hfailures⟩

/-- The reader finds the message of a line: the local log keeps it as it is, and
a collector has to get past the header, with its host name and its year. -/
def LineReadable (cfg : Config.Syslog) (file : Option Bytes) (q : Request) : Prop :=
  cfg.syslogHost = [] ∨
    FourDigitYear q.now ∧ initHost cfg.hostname file ≠ [] ∧ 32 ∉ initHost cfg.hostname file

instance (cfg : Config.Syslog) (file : Option Bytes) (q : Request) :
    Decidable (LineReadable cfg file q) :=
  inferInstanceAs (Decidable (_ ∨ _))

theorem Started.reaches_iff {cfg : Config.Syslog} {file : Option Bytes} {x : SyslogExporter w}
    (h : Started cfg file x) (q : Request) : x.Reaches q ↔ LineReadable cfg file q := by
  rw [SyslogExporter.Reaches, LineReadable, h.isLocal, h.host, decide_eq_true_iff]

/-- **The syslog stream is readable.**  For every configuration that `init`
accepts and every sequence of observations: the daemon aborts exactly when a
device name or a drop reason is not UTF-8, and otherwise one line leaves it for
each observation, in order, with a payload from which a reader of the configured
format gets the record of that observation back, whatever the names and reasons
spell.  From the line itself the reader gets it back where it can find the
payload.  The failures that `take_failures` then hands over are the datagrams
the kernel did not take, as a number of `w` bits. -/
theorem syslog_stream_readable (w : Nat) (inet : InetText) (cfg : Config.Syslog)
    (file : Option Bytes) (resolved : Option (List Udp.Candidate)) (requests : List Request)
    (hinit : (SyslogExporter.init (w := w) cfg file resolved).1.1 = true) :
    let start : SyslogExporter w := (SyslogExporter.init cfg file resolved).2
    match transduce (SyslogExporter.emit inet) start requests with
    | none => ∃ q ∈ requests, ¬Utf8Strings q.ifname q.drop
    | some (x, lines) =>
        (∀ q ∈ requests, Utf8Strings q.ifname q.drop) ∧
          List.Forall₂ (fun q line => ∃ payload, line = start.line payload q ∧
            readPayload cfg.format payload = some (q.record inet) ∧
            (LineReadable cfg file q → readLine cfg.format line = some (q.record inet)))
            requests lines ∧
          x.takeFailures.1 = BitVec.ofNat w (lostCount lines requests) := by
  intro start
  have hstarted : Started cfg file start := init_started hinit
  have hspec := emissions_spec inet hstarted.ready requests
  cases hrun : transduce (SyslogExporter.emit inet) start requests with
  | none =>
      rw [hrun] at hspec
      exact hspec
  | some r =>
      obtain ⟨x, lines⟩ := r
      rw [hrun] at hspec
      obtain ⟨hstrings, hlines, rfl⟩ := hspec
      refine ⟨hstrings, hlines.imp ?_, ?_⟩
      · rintro q line ⟨payload, hline, hpayload, hread⟩
        rw [hstarted.format] at hpayload hread
        exact ⟨payload, hline, hpayload, fun h => hread ((hstarted.reaches_iff q).mpr h)⟩
      · show start.remote.client.failures + _ = _
        rw [hstarted.failures]
        exact BitVec.zero_add _

/-- A collector, for a concrete run. -/
def collectorConfig : Config.Syslog where
  enabled := true
  syslogHost := text "collector"
  format := text "logfmt"
  hostname := text "gw"

/-- The echo flow twice: as it grows, and as a drop on a renamed device. -/
def echoRequests : List Request :=
  [⟨⟨echoKey, echoVal, false, some ⟨2, 208⟩, none⟩, some fun _ => text "wan", 1700000000, none⟩,
   ⟨⟨echoKey, echoVal, false, none, some oddDrop⟩, some fun _ => forgingName, 1700000001, none⟩]

theorem syslog_stream_readable_demo :
    ∃ (x : SyslogExporter 32) (lines : List Line),
      transduce (SyslogExporter.emit fullForm)
          (SyslogExporter.init collectorConfig none
            (some [⟨.inet, text "c", some 5, true, true⟩])).2 echoRequests = some (x, lines) ∧
        List.Forall₂ (fun q line =>
          readLine (text "logfmt") line = some (Request.record fullForm q)) echoRequests lines := by
  have hstream := syslog_stream_readable 32 fullForm collectorConfig none
    (some [⟨.inet, text "c", some 5, true, true⟩]) echoRequests (by decide +kernel)
  simp only at hstream
  split at hstream
  · obtain ⟨q, hq, hnot⟩ := hstream
    exact absurd hq (fun hq => hnot ((by decide +kernel :
      ∀ q ∈ echoRequests, Utf8Strings q.ifname q.drop) q hq))
  · rename_i x lines hrun
    have hreadable : ∀ q ∈ echoRequests, LineReadable collectorConfig none q := by
      decide +kernel
    obtain ⟨-, hlines, -⟩ := hstream
    refine ⟨x, lines, hrun, ?_⟩
    have hpaired := List.forall₂_iff_get.mp hlines
    refine List.forall₂_iff_get.mpr ⟨hpaired.1, fun i hi hi' => ?_⟩
    obtain ⟨payload, -, -, hread⟩ := hpaired.2 i hi hi'
    exact hread (hreadable _ (List.get_mem _ _))

end Syslog
end Obserwrt
