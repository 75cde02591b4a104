import Obserwrt.Config.Backends
import Obserwrt.Lib.Errors

/-!
# The two backends mean the same

An assignment gives every option of the three sections a value or none, and
names the device patterns.  `IniCarries` and `UciCarries` say that a decoded INI
file and a loaded package hold it.  Each reader of `config_uci.cpp` then follows
its counterpart of `config_mini.cpp`: option by option, section by section, and
over the section loop, which meets the sections in whatever order the file has
them.
-/

namespace Obserwrt
namespace Config

open Lib

/-! ## Assignments of values to options -/

/-- A character with a meaning of its own in one of the two file formats: white
space, a quote, a comment sign or the backslash. -/
def special (b : UInt8) : Bool :=
  Mini.isSpace b || b = 34 || b = 39 || b = 35 || b = 59 || b = 92

/-- A value that both formats can hold as it is. -/
structure Word where
  bytes : Bytes
  ne_nil : bytes ≠ []
  plain : ∀ b ∈ bytes, special b = false

/-- The three sections. -/
inductive Section where
  | main
  | ipfix
  | syslog
deriving DecidableEq

namespace Section

/-- The name of the section in the INI file. -/
def iniName : Section → String
  | .main => "main"
  | .ipfix => "ipfix"
  | .syslog => "syslog"

/-- The options of a section besides the device list. -/
def options : Section → List String
  | .main =>
      ["tcp_timeout", "udp_timeout", "icmp_timeout", "general_timeout", "max_flows",
        "track_drops", "log_level", "prometheus_textfile", "prometheus_interval"]
  | .ipfix =>
      ["enabled", "collector_host", "collector_port", "source_address", "observation_domain"]
  | .syslog =>
      ["enabled", "syslog_host", "syslog_port", "protocol", "format", "hostname",
        "source_address"]

end Section

/-- What a user configures. -/
structure Assignment where
  value : Section → String → Option Word
  devices : List Word

namespace Assignment

/-- The value of an option as bytes, if it has one. -/
def bytes (a : Assignment) (sec : Section) (key : String) : Option Bytes :=
  (a.value sec key).map Word.bytes

/-- The device patterns as bytes. -/
def deviceBytes (a : Assignment) : List Bytes :=
  a.devices.map Word.bytes

end Assignment

/-- The INI file holds the assignment: an absent option reads as the empty
string and the devices are joined by spaces. -/
structure IniCarries (a : Assignment) (ini : Mini.IniFile) : Prop where
  options : ∀ sec, ∀ key ∈ sec.options,
    Mini.field ini sec.iniName key = (a.bytes sec key).getD []
  devices : Mini.field ini "main" "device" = [32].intercalate a.deviceBytes

/-- The section of the assignment a UCI section stands for, by its type. -/
def sectionOf (s : Uci.UciSection) : Option Section :=
  if s.type = some (text "obserwrt") then some .main
  else if s.type = some (text "exporter_ipfix") then some .ipfix
  else if s.type = some (text "exporter_syslog") then some .syslog
  else none

/-- The package holds the assignment: no section occurs twice, each one holds
its options as strings and the devices as one list, and a section that does not
occur has nothing to hold.  Sections of other types and other options are
free. -/
structure UciCarries (a : Assignment) (pkg : List Uci.UciSection) : Prop where
  once : (pkg.filterMap sectionOf).Nodup
  options : ∀ s ∈ pkg, ∀ sec, sectionOf s = some sec → ∀ key ∈ sec.options,
    Uci.option s key = a.bytes sec key
  devices : ∀ s ∈ pkg, sectionOf s = some .main →
    s.options.filter (fun o => o.1 = text "device") = [(text "device", .list a.deviceBytes)] ∨
      a.devices = [] ∧ s.options.filter (fun o => o.1 = text "device") = []
  absent : ∀ sec, (∀ s ∈ pkg, sectionOf s ≠ some sec) →
    (∀ key ∈ sec.options, a.value sec key = none) ∧ (sec = .main → a.devices = [])

/-! ## Option by option -/

/-- `*err` reports an error. -/
def Reported (err : Bytes) : Prop := err ≠ []

@[simp] theorem text_eq_nil {s : String} : text s = [] ↔ s = "" := by
  simp [text]

theorem reported_append (label : Bytes) {msg : Bytes} (hmsg : msg ≠ []) :
    Reported (label ++ msg) :=
  List.append_ne_nil_of_right_ne_nil label hmsg

section Options

variable {ini : Mini.IniFile} {s : Uci.UciSection} {sec key : String}

theorem parseUint_tracks (hfield : Mini.field ini sec key = (Uci.option s key).getD [])
    (dflt hi : UInt64) (label : String) :
    Tracks Reported (fun v r => r = (true, v)) (Mini.parseUint ini sec key dflt hi label)
      (Uci.parseUint s key dflt hi label) := by
  unfold Mini.parseUint Uci.parseUint
  rw [hfield]
  cases Uci.option s key with
  | none => exact Tracks.pure rfl
  | some v =>
      simp only [Option.getD_some]
      by_cases hv : v = []
      · rw [if_pos hv, if_pos hv]
        exact Tracks.pure rfl
      · rw [if_neg hv, if_neg hv]
        split
        · exact Tracks.fail fun _ => reported_append _ hv
        · split
          · exact Tracks.fail fun _ => reported_append _ (by simp)
          · exact Tracks.pure rfl

theorem parseBool_eq (hfield : Mini.field ini sec key = (Uci.option s key).getD [])
    (fallback : Bool) :
    Mini.parseBool ini sec key fallback = Uci.boolOption (Uci.option s key) fallback := by
  unfold Mini.parseBool Uci.boolOption
  rw [hfield]
  cases Uci.option s key with
  | none => simp [eq_comm (a := ([] : Bytes))]
  | some v => rfl

end Options

/-- Words joined by spaces come apart again. -/
theorem splitOnP_intercalate (ds : List Word) :
    (([32].intercalate (ds.map Word.bytes)).splitOnP Mini.isSpace).filter (· ≠ []) =
      ds.map Word.bytes := by
  induction ds with
  | nil => rfl
  | cons d ds ih =>
      have hd : ∀ b ∈ d.bytes, Mini.isSpace b = false := by
        intro b hb
        have hplain := d.plain b hb
        simp only [special, Bool.or_eq_false_iff] at hplain
        exact hplain.1.1.1.1.1
      cases ds with
      | nil =>
          simp [List.splitOnP_eq_singleton hd, d.ne_nil]
      | cons d' ds =>
          rw [List.map_cons, List.map_cons, List.intercalate_cons_cons]
          rw [List.append_assoc, List.singleton_append,
            List.splitOnP_append_cons_of_forall_mem hd 32 rfl]
          rw [List.filter_cons_of_pos (by simpa using d.ne_nil)]
          rw [← List.map_cons, ih]

/-- Only the options named `device` add devices. -/
theorem flatMap_deviceEntries (os : List (Bytes × Uci.Value)) :
    os.flatMap Uci.deviceEntries =
      (os.filter fun o => o.1 = text "device").flatMap Uci.deviceEntries := by
  induction os with
  | nil => rfl
  | cons o os ih =>
      by_cases hname : o.1 = text "device"
      · simp [hname, ih]
      · simp [hname, ih, Uci.deviceEntries]

/-! ## Section by section -/

section Sections

variable {ini : Mini.IniFile} {s : Uci.UciSection}

/-- The INI file and a UCI section read the same for every option of a
section. -/
def SameFields (ini : Mini.IniFile) (s : Uci.UciSection) (sec : Section) : Prop :=
  ∀ key ∈ sec.options, Mini.field ini sec.iniName key = (Uci.option s key).getD []

/-- The `main` section.  The UCI reader adds to the devices it finds and keeps a
text file that is not set, so the results match from the defaults only. -/
theorem parseMain_tracks (hsame : SameFields ini s .main)
    (hdevices : Mini.parseList ini "main" "device" = s.options.flatMap Uci.deviceEntries)
    (cfg : Main) :
    Tracks Reported (fun r r' => cfg = {} → r' = r) (Mini.parseMain ini)
      (Uci.fillMain s cfg) := by
  -- one number after another, in the order both readers have them
  refine (parseUint_tracks (hsame "tcp_timeout" (by simp [Section.options])) ..).bind
    fun tcp tcp' => ?_
  refine (parseUint_tracks (hsame "udp_timeout" (by simp [Section.options])) ..).bind
    fun udp udp' => ?_
  refine (parseUint_tracks (hsame "icmp_timeout" (by simp [Section.options])) ..).bind
    fun icmp icmp' => ?_
  refine (parseUint_tracks (hsame "general_timeout" (by simp [Section.options])) ..).bind
    fun general general' => ?_
  refine (parseUint_tracks (hsame "max_flows" (by simp [Section.options])) ..).bind
    fun flows flows' => ?_
  refine (parseUint_tracks (hsame "prometheus_interval" (by simp [Section.options])) ..).bind
    fun pi pi' => ?_
  refine Tracks.pure ?_
  rintro rfl rfl rfl rfl rfl rfl rfl
  have hdrops := parseBool_eq (hsame "track_drops" (by simp [Section.options])) false
  have hlevel := hsame "log_level" (by simp [Section.options])
  have hfile := hsame "prometheus_textfile" (by simp [Section.options])
  simp only [Section.iniName] at hdrops hlevel hfile
  simp only [if_true]
  rw [hdrops, hlevel, hfile, hdevices]
  -- an absent text file keeps the empty default, which is what the INI reads
  cases Uci.option s "prometheus_textfile" with
  | none => simp [Uci.parseDevices, List.flatMap_def]
  | some tf => simp [Uci.parseDevices, List.flatMap_def]

theorem parseIpfix_tracks (hsame : SameFields ini s .ipfix) (cfg : Ipfix) :
    Tracks Reported (fun r r' => r' = r) (Mini.parseIpfix ini) (Uci.fillIpfix s cfg) := by
  refine (parseUint_tracks (hsame "collector_port" (by simp [Section.options])) ..).bind
    fun port port' => ?_
  refine (parseUint_tracks (hsame "observation_domain" (by simp [Section.options])) ..).bind
    fun domain domain' => ?_
  refine Tracks.pure ?_
  rintro rfl rfl
  have henabled := parseBool_eq (hsame "enabled" (by simp [Section.options])) false
  have hhost := hsame "collector_host" (by simp [Section.options])
  have haddress := hsame "source_address" (by simp [Section.options])
  simp only [Section.iniName] at henabled hhost haddress
  rw [henabled, hhost, haddress]
  rfl

/-- The empty string stands for an absent option in the INI backend; the UCI
backend asks for null. -/
theorem getD_of_ne_nil {v : Option Bytes} (hv : v ≠ some []) (dflt : Bytes) :
    (if v.getD [] = [] then dflt else v.getD []) = v.getD dflt := by
  cases v with
  | none => rfl
  | some v =>
      have hne : v ≠ [] := fun h => hv (by rw [h])
      simp [hne]

theorem parseSyslog_tracks (hsame : SameFields ini s .syslog)
    (hne : ∀ key ∈ Section.syslog.options, Uci.option s key ≠ some []) (cfg : Syslog) :
    Tracks Reported (fun r r' => r' = r) (Mini.parseSyslog ini) (Uci.fillSyslog s cfg) := by
  refine (parseUint_tracks (hsame "syslog_port" (by simp [Section.options])) ..).bind
    fun port port' => ?_
  refine Tracks.pure ?_
  rintro rfl
  have henabled := parseBool_eq (hsame "enabled" (by simp [Section.options])) false
  have hhost := hsame "syslog_host" (by simp [Section.options])
  have hprotocol := hsame "protocol" (by simp [Section.options])
  have hformat := hsame "format" (by simp [Section.options])
  have hname := hsame "hostname" (by simp [Section.options])
  have haddress := hsame "source_address" (by simp [Section.options])
  simp only [Section.iniName] at henabled hhost hprotocol hformat hname haddress
  simp only [if_true]
  rw [henabled, hhost, hname, haddress, hprotocol, hformat,
    getD_of_ne_nil (hne "protocol" (by simp [Section.options])),
    getD_of_ne_nil (hne "format" (by simp [Section.options]))]

end Sections

/-! ## The parts of a configuration -/

/-- What a section fills. -/
def Part : Section → Type
  | .main => Main
  | .ipfix => Ipfix
  | .syslog => Syslog

def part (cfg : Config) : (sec : Section) → Part sec
  | .main => cfg.toMain
  | .ipfix => cfg.ipfix
  | .syslog => cfg.syslog

def setPart (cfg : Config) : (sec : Section) → Part sec → Config
  | .main, p => { cfg with toMain := p }
  | .ipfix, p => { cfg with ipfix := p }
  | .syslog, p => { cfg with syslog := p }

@[simp] theorem part_setPart_self (cfg : Config) (sec : Section) (p : Part sec) :
    (cfg.setPart sec p).part sec = p := by
  cases sec <;> rfl

theorem part_setPart_ne (cfg : Config) {sec sec' : Section} (p : Part sec) (hne : sec' ≠ sec) :
    (cfg.setPart sec p).part sec' = cfg.part sec' := by
  cases sec <;> cases sec' <;> first | rfl | exact absurd rfl hne

theorem eq_of_parts {cfg cfg' : Config} (h : ∀ sec, cfg.part sec = cfg'.part sec) :
    cfg = cfg' := by
  have hmain : cfg.toMain = cfg'.toMain := h .main
  have hipfix : cfg.ipfix = cfg'.ipfix := h .ipfix
  have hsyslog : cfg.syslog = cfg'.syslog := h .syslog
  cases cfg
  cases cfg'
  simp_all

/-- The part of `Mini.parse` for a section. -/
def parsePart (ini : Mini.IniFile) : (sec : Section) → Except Bytes (Part sec)
  | .main => Mini.parseMain ini
  | .ipfix => Mini.parseIpfix ini
  | .syslog => Mini.parseSyslog ini

/-- The body of `Uci.fill` for a section. -/
def fillPart (s : Uci.UciSection) : (sec : Section) → Part sec → StateM Bytes (Part sec)
  | .main => Uci.fillMain s
  | .ipfix => Uci.fillIpfix s
  | .syslog => Uci.fillSyslog s

/-- The type of a section picks the part it fills, and other types are
skipped. -/
theorem fillSection_eq (cfg : Config) (s : Uci.UciSection) :
    Uci.fillSection cfg s =
      match sectionOf s with
      | some sec => cfg.setPart sec <$> fillPart s sec (cfg.part sec)
      | none => pure cfg := by
  unfold Uci.fillSection sectionOf
  by_cases hmain : s.type = some (text "obserwrt")
  · rw [if_pos hmain, if_pos hmain]
    rfl
  · rw [if_neg hmain, if_neg hmain]
    by_cases hipfix : s.type = some (text "exporter_ipfix")
    · rw [if_pos hipfix, if_pos hipfix]
      rfl
    · rw [if_neg hipfix, if_neg hipfix]
      by_cases hsyslog : s.type = some (text "exporter_syslog")
      · rw [if_pos hsyslog, if_pos hsyslog]
        rfl
      · rw [if_neg hsyslog, if_neg hsyslog]

/-! ## Over the section loop -/

section Loop

variable {a : Assignment} {ini : Mini.IniFile} {pkg : List Uci.UciSection}

/-- A section of the package reads as the INI file does. -/
theorem sameFields_of_mem (hini : IniCarries a ini) (huci : UciCarries a pkg)
    {s : Uci.UciSection} (hmem : s ∈ pkg) {sec : Section} (hsec : sectionOf s = some sec) :
    SameFields ini s sec := by
  intro key hkey
  rw [hini.options sec key hkey, huci.options s hmem sec hsec key hkey]

theorem parseList_devices (hini : IniCarries a ini) :
    Mini.parseList ini "main" "device" = a.deviceBytes := by
  rw [Mini.parseList, hini.devices]
  exact splitOnP_intercalate a.devices

/-- The section fills its part, found at its defaults, with what the INI backend
parses. -/
def Follows (ini : Mini.IniFile) (s : Uci.UciSection) : Prop :=
  ∀ sec, sectionOf s = some sec → ∀ p : Part sec,
    Tracks Reported (fun r r' => p = part {} sec → r' = r) (parsePart ini sec)
      (fillPart s sec p)

theorem follows_of_mem (hini : IniCarries a ini) (huci : UciCarries a pkg)
    {s : Uci.UciSection} (hmem : s ∈ pkg) : Follows ini s := by
  intro sec hsec p
  have hsame := sameFields_of_mem hini huci hmem hsec
  cases sec with
  | main =>
      refine parseMain_tracks hsame ?_ p
      rw [parseList_devices hini, flatMap_deviceEntries]
      rcases huci.devices s hmem hsec with hlist | ⟨hnone, hempty⟩
      · rw [hlist]
        simp [Uci.deviceEntries]
      · rw [hempty]
        simp [Assignment.deviceBytes, hnone]
  | ipfix => exact (parseIpfix_tracks hsame p).mono fun _ _ h _ => h
  | syslog =>
      refine (parseSyslog_tracks hsame ?_ p).mono fun _ _ h _ => h
      intro key hkey
      rw [huci.options s hmem .syslog hsec key hkey, Assignment.bytes]
      cases a.value .syslog key with
      | none => simp
      | some w => simpa using w.ne_nil

/-- A section the package does not have leaves its defaults in the INI backend
as well. -/
theorem parsePart_absent (hini : IniCarries a ini) (huci : UciCarries a pkg) {sec : Section}
    (habsent : sec ∉ pkg.filterMap sectionOf) :
    parsePart ini sec = .ok (part {} sec) := by
  obtain ⟨hnone, hdevices⟩ := huci.absent sec
    fun s hs hsec => habsent (List.mem_filterMap.mpr ⟨s, hs, hsec⟩)
  -- the INI file reads as a UCI section without options does
  have hsame : SameFields ini ⟨none, []⟩ sec := by
    intro key hkey
    rw [hini.options sec key hkey, Assignment.bytes, hnone key hkey]
    rfl
  have htracks : Tracks Reported (fun r r' => part {} sec = part {} sec → r' = r)
      (parsePart ini sec) (fillPart ⟨none, []⟩ sec (part {} sec)) := by
    cases sec with
    | main =>
        refine parseMain_tracks hsame ?_ {}
        rw [parseList_devices hini, Assignment.deviceBytes, hdevices rfl]
        rfl
    | ipfix => exact (parseIpfix_tracks hsame {}).mono fun _ _ h _ => h
    | syslog =>
        refine (parseSyslog_tracks hsame ?_ {}).mono fun _ _ h _ => h
        intro key _
        simp [Uci.option]
  have hrun : fillPart ⟨none, []⟩ sec (part {} sec) [] = (part {} sec, []) := by
    cases sec <;> rfl
  cases hparse : parsePart ini sec with
  | ok p =>
      have hp := (htracks.ok p hparse []).1 rfl
      rw [← hp, hrun]
  | error e =>
      have hreported := htracks.error e hparse []
      rw [hrun] at hreported
      exact absurd rfl hreported

/-- Where the loop of `fill` stands when the sections `rest` are still to come:
their parts have the defaults, all others have what the INI backend parsed. -/
structure LoopInv (want cfg : Config) (rest : List Uci.UciSection) : Prop where
  once : (rest.filterMap sectionOf).Nodup
  fresh : ∀ sec ∈ rest.filterMap sectionOf, cfg.part sec = part {} sec
  done : ∀ sec, sec ∉ rest.filterMap sectionOf → cfg.part sec = want.part sec

/-- One turn, where every part parses. -/
theorem LoopInv.fillSection {want cfg : Config} {s : Uci.UciSection}
    {rest : List Uci.UciSection} (hwant : ∀ sec, parsePart ini sec = .ok (want.part sec))
    (hfollows : Follows ini s) (h : LoopInv want cfg (s :: rest)) (err : Bytes) :
    ∃ cfg', Uci.fillSection cfg s err = (cfg', err) ∧ LoopInv want cfg' rest := by
  rw [fillSection_eq]
  cases hsec : sectionOf s with
  | none =>
      have hrest : (s :: rest).filterMap sectionOf = rest.filterMap sectionOf :=
        List.filterMap_cons_none hsec
      refine ⟨cfg, rfl, ?_, ?_, ?_⟩
      · exact hrest ▸ h.once
      · exact hrest ▸ h.fresh
      · exact hrest ▸ h.done
  | some sec =>
      have hrest : (s :: rest).filterMap sectionOf = sec :: rest.filterMap sectionOf :=
        List.filterMap_cons_some hsec
      have honce := h.once
      rw [hrest, List.nodup_cons] at honce
      have hfresh := h.fresh sec (by rw [hrest]; exact List.mem_cons_self)
      obtain ⟨hpart, herr⟩ := (hfollows sec hsec (cfg.part sec)).ok _ (hwant sec) err
      refine ⟨cfg.setPart sec (want.part sec), ?_, honce.2, ?_, ?_⟩
      · exact Prod.ext (congrArg (cfg.setPart sec) (hpart hfresh)) herr
      · intro sec' hmem
        have hne : sec' ≠ sec := fun heq => honce.1 (heq ▸ hmem)
        rw [part_setPart_ne cfg _ hne]
        exact h.fresh sec' (by rw [hrest]; exact List.mem_cons_of_mem sec hmem)
      · intro sec' hnot
        by_cases heq : sec' = sec
        · subst heq
          exact part_setPart_self cfg sec' _
        · rw [part_setPart_ne cfg _ heq]
          refine h.done sec' ?_
          rw [hrest, List.mem_cons]
          exact fun hor => hor.elim heq hnot

/-- The whole loop, where every part parses. -/
theorem LoopInv.foldlM {want : Config} (hwant : ∀ sec, parsePart ini sec = .ok (want.part sec)) :
    ∀ (rest : List Uci.UciSection) (cfg : Config), LoopInv want cfg rest →
      (∀ s ∈ rest, Follows ini s) → ∀ err, rest.foldlM Uci.fillSection cfg err = (want, err) := by
  intro rest
  induction rest with
  | nil =>
      intro cfg h _ err
      have hcfg : cfg = want := eq_of_parts fun sec => h.done sec (by simp)
      rw [hcfg]
      rfl
  | cons s rest ih =>
      intro cfg h hfollows err
      obtain ⟨cfg', hstep, hnext⟩ :=
        h.fillSection hwant (hfollows s List.mem_cons_self) err
      rw [List.foldlM_cons]
      change rest.foldlM Uci.fillSection (Uci.fillSection cfg s err).1
        (Uci.fillSection cfg s err).2 = _
      rw [hstep]
      exact ih cfg' hnext (fun t ht => hfollows t (List.mem_cons_of_mem s ht)) err

/-- A turn of the loop keeps a reported error. -/
theorem Follows.keeps {s : Uci.UciSection} (h : Follows ini s) (cfg : Config) :
    Keeps Reported (Uci.fillSection cfg s) := by
  rw [fillSection_eq]
  cases hsec : sectionOf s with
  | none => exact Keeps.pure cfg
  | some sec => exact (h sec hsec (cfg.part sec)).keeps.map _

/-- The whole loop, where some section does not parse. -/
theorem foldlM_fillSection_error {sec : Section} {e : Bytes}
    (hfollows : ∀ s ∈ pkg, Follows ini s) (hmem : sec ∈ pkg.filterMap sectionOf)
    (herror : parsePart ini sec = .error e) (cfg : Config) (err : Bytes) :
    Reported (pkg.foldlM Uci.fillSection cfg err).2 := by
  obtain ⟨s, hs, hsec⟩ := List.mem_filterMap.mp hmem
  refine Keeps.foldlM_of_mem (fun cfg' t ht => (hfollows t ht).keeps cfg') hs ?_ cfg err
  intro cfg' err'
  rw [fillSection_eq, hsec]
  exact (hfollows s hs sec hsec (cfg'.part sec)).error e herror err'

end Loop

/-! ## The backends -/

/-- `Mini.parse` when every part parses. -/
theorem parse_of_ok {ini : Mini.IniFile} {want : Config}
    (hwant : ∀ sec, parsePart ini sec = .ok (want.part sec)) :
    Mini.parse ini =
      if want.ipfix.enabled ∧ want.ipfix.collectorHost = [] then
        .error (text "ipfix: enabled but no collector_host configured")
      else .ok want := by
  have hmain : Mini.parseMain ini = .ok want.toMain := hwant .main
  have hipfix : Mini.parseIpfix ini = .ok want.ipfix := hwant .ipfix
  have hsyslog : Mini.parseSyslog ini = .ok want.syslog := hwant .syslog
  simp only [Mini.parse, hmain, hipfix, hsyslog, bind, Except.bind]
  split <;> rfl

/-- Either every part parses, or `Mini.parse` fails as one of them does. -/
theorem parse_cases (ini : Mini.IniFile) :
    (∃ want : Config, ∀ sec, parsePart ini sec = .ok (want.part sec)) ∨
      ∃ sec e, parsePart ini sec = .error e ∧ Mini.parse ini = .error e := by
  cases hmain : Mini.parseMain ini with
  | error e =>
      refine .inr ⟨.main, e, hmain, ?_⟩
      simp only [Mini.parse, hmain, bind, Except.bind]
  | ok main =>
      cases hipfix : Mini.parseIpfix ini with
      | error e =>
          refine .inr ⟨.ipfix, e, hipfix, ?_⟩
          simp only [Mini.parse, hmain, hipfix, bind, Except.bind]
      | ok ipfix =>
          cases hsyslog : Mini.parseSyslog ini with
          | error e =>
              refine .inr ⟨.syslog, e, hsyslog, ?_⟩
              simp only [Mini.parse, hmain, hipfix, hsyslog, bind, Except.bind]
          | ok syslog =>
              refine .inl ⟨{ main with ipfix := ipfix, syslog := syslog }, ?_⟩
              intro sec
              cases sec with
              | main => exact hmain
              | ipfix => exact hipfix
              | syslog => exact hsyslog

/-- `fill` after its loop: the rule about an enabled exporter without a collector
runs on whatever the loop left. -/
theorem fill_eq (pkg : List Uci.UciSection) (target : Bytes) (cfg : Config) (err : Bytes) :
    Uci.fill (.ok pkg) target cfg err =
      let left := pkg.foldlM Uci.fillSection cfg err
      (left.1,
        if left.1.ipfix.enabled ∧ left.1.ipfix.collectorHost = [] then
          text "ipfix: enabled but no collector_host configured"
        else left.2) := by
  cases hloop : pkg.foldlM Uci.fillSection cfg err with
  | mk left err' =>
      simp only [Uci.fill, bind, StateT.bind, hloop]
      split <;> rfl

/-- For one assignment held by an INI file and by a UCI package, either both
backends report an error or both succeed with the same configuration. -/
theorem backends_agree (a : Assignment) (ini : Mini.IniFile) (pkg : List Uci.UciSection)
    (target : Bytes) (hini : IniCarries a ini) (huci : UciCarries a pkg) :
    (∃ e, Mini.parse ini = .error e ∧ (Uci.fill (.ok pkg) target {} []).2 ≠ []) ∨
      ∃ cfg, Mini.parse ini = .ok cfg ∧ Uci.fill (.ok pkg) target {} [] = (cfg, []) := by
  have hfollows : ∀ s ∈ pkg, Follows ini s := fun s hs => follows_of_mem hini huci hs
  rcases parse_cases ini with ⟨want, hwant⟩ | ⟨sec, e, herror, hparse⟩
  · have hinv : LoopInv want {} pkg := by
      refine ⟨huci.once, fun _ _ => rfl, ?_⟩
      intro sec habsent
      have hdefault := parsePart_absent hini huci habsent
      rw [hwant sec] at hdefault
      exact (Except.ok.inj hdefault).symm
    have hloop := hinv.foldlM hwant pkg {} hfollows []
    rw [parse_of_ok hwant, fill_eq, hloop]
    by_cases hrule : want.ipfix.enabled ∧ want.ipfix.collectorHost = []
    · rw [if_pos hrule]
      exact .inl ⟨_, rfl, by simp [hrule]⟩
    · rw [if_neg hrule]
      exact .inr ⟨want, rfl, by simp only [if_neg hrule]⟩
  · refine .inl ⟨e, hparse, ?_⟩
    have hmem : sec ∈ pkg.filterMap sectionOf := by
      by_contra habsent
      rw [parsePart_absent hini huci habsent] at herror
      cases herror
    have hloop := foldlM_fillSection_error hfollows hmem herror {} []
    rw [fill_eq]
    dsimp only
    split
    · simp
    · exact hloop

/-- One timeout, an enabled exporter and two devices. -/
def demoAssignment : Assignment where
  value
    | .main, "tcp_timeout" => some ⟨text "120", by simp, by decide +kernel⟩
    | .ipfix, "enabled" => some ⟨text "yes", by simp, by decide +kernel⟩
    | .ipfix, "collector_host" => some ⟨text "192.0.2.1", by simp, by decide +kernel⟩
    | _, _ => none
  devices := [⟨text "eth0", by simp, by decide +kernel⟩, ⟨text "wlan*", by simp, by decide +kernel⟩]

def demoIni : Mini.IniFile :=
  let main : Store Bytes Bytes :=
    (AList.singleton (text "device") (text "eth0 wlan*")).insert (text "tcp_timeout") (text "120")
  let ipfix : Store Bytes Bytes :=
    (AList.singleton (text "enabled") (text "yes")).insert (text "collector_host")
      (text "192.0.2.1")
  (AList.singleton (text "main") main).insert (text "ipfix") ipfix

/-- The exporter stands before the main section, and there is no syslog
section. -/
def demoPackage : List Uci.UciSection :=
  [⟨some (text "exporter_ipfix"),
      [(text "enabled", .string (text "yes")),
        (text "collector_host", .string (text "192.0.2.1"))]⟩,
    ⟨some (text "obserwrt"),
      [(text "tcp_timeout", .string (text "120")),
        (text "device", .list [text "eth0", text "wlan*"])]⟩]

theorem backends_agree_demo :
    IniCarries demoAssignment demoIni ∧ UciCarries demoAssignment demoPackage ∧
      ∃ cfg, Mini.parse demoIni = .ok cfg ∧
        Uci.fill (.ok demoPackage) (text "obserwrt") {} [] = (cfg, []) := by
  have hini : IniCarries demoAssignment demoIni := by
    refine ⟨?_, by decide +kernel⟩
    intro sec
    cases sec <;> decide +kernel
  have huci : UciCarries demoAssignment demoPackage := by
    refine ⟨by decide +kernel, ?_, by decide +kernel, ?_⟩
    · intro s hs sec
      revert s
      cases sec <;> decide +kernel
    · intro sec
      cases sec <;> decide +kernel
  refine ⟨hini, huci, ?_⟩
  rcases backends_agree demoAssignment demoIni demoPackage (text "obserwrt") hini huci with
    ⟨e, _, hreported⟩ | hagree
  · exact absurd (by decide +kernel) hreported
  · exact hagree

end Config
end Obserwrt
