import Obserwrt.Lib.Text
import Obserwrt.Lib.Store
import Obserwrt.Lifecycle.Run

/-!
# The two configuration backends

`config.hpp` declares one `Config`; `config_mini.cpp` reads it from an INI file
and stops at the first bad option with an exception, `config_uci.cpp` reads it
from a UCI package, notes a bad option in `*err` and carries on.  The two
libraries stay outside: an INI file is the map of sections that inifile-cpp
decoded, a package is the list of sections that libuci loaded.
-/

namespace Obserwrt

open Lib

/-! ## The facade -/

/-- The options of `Config` outside its two exporter records. -/
structure Config.Main where
  devices : List Bytes := []
  timeouts : Lifecycle.Timeouts := {}
  /-- A syslog priority, `LOG_NOTICE` by default. -/
  logLevel : Int := 5
  maxFlows : UInt32 := 0
  trackDrops : Bool := false
  prometheusTextfile : Bytes := []
  prometheusInterval : UInt32 := 20

/-- `Config::Ipfix`. -/
structure Config.Ipfix where
  enabled : Bool := false
  collectorHost : Bytes := []
  collectorPort : UInt16 := 4739
  sourceAddress : Bytes := []
  obsDomain : UInt32 := 1

/-- `Config::Syslog`. -/
structure Config.Syslog where
  enabled : Bool := false
  syslogHost : Bytes := []
  syslogPort : UInt16 := 514
  protocol : Bytes := text "udp"
  format : Bytes := text "json"
  hostname : Bytes := []
  sourceAddress : Bytes := []

/-- `Config`. -/
structure Config extends Config.Main where
  ipfix : Config.Ipfix := {}
  syslog : Config.Syslog := {}

namespace Config

/-- `log_level_from_string`, with the priorities of `syslog.h`. -/
def logLevelFromString (s : Bytes) (dflt : Int) : Int :=
  if s = text "debug" then 7
  else if s = text "info" then 6
  else if s = text "notice" then 5
  else if s = text "warning" ∨ s = text "warn" then 4
  else if s = text "error" ∨ s = text "err" then 3
  else dflt

/-- The error code of `std::from_chars`. -/
inductive Errc where
  | ok
  | invalidArgument
  | resultOutOfRange
deriving DecidableEq

/-- What `std::from_chars` leaves: the characters from `ptr` on, the code and
the value, which stays zero unless a number was read. -/
structure FromChars where
  rest : Bytes
  ec : Errc
  value : UInt64
deriving DecidableEq

/-- `std::from_chars` into a `uint64_t` that was zero: the longest run of digits
at the front, with no sign and no leading space. -/
def fromChars (s : Bytes) : FromChars :=
  let digits := s.takeWhile isDigitByte
  if digits = [] then ⟨s, .invalidArgument, 0⟩
  else if digitsValue digits < 2 ^ 64 then
    ⟨s.dropWhile isDigitByte, .ok, UInt64.ofNat (digitsValue digits)⟩
  else ⟨s.dropWhile isDigitByte, .resultOutOfRange, 0⟩

/-! ## The INI backend -/

namespace Mini

/-- A decoded `ini::IniFile`. -/
abbrev IniFile := Store Bytes (Store Bytes Bytes)

/-- `field`.  Indexing creates an absent section or field, with the empty
value. -/
def field (ini : IniFile) (sec key : String) : Bytes :=
  ((ini.lookup (text sec)).bind fun s => s.lookup (text key)).getD []

/-- `parse_bool`. -/
def parseBool (ini : IniFile) (sec key : String) (fallback : Bool) : Bool :=
  let v := field ini sec key
  if v = text "1" ∨ v = text "on" ∨ v = text "true" ∨ v = text "yes" ∨ v = text "enabled" then
    true
  else if v = text "0" ∨ v = text "off" ∨ v = text "false" ∨ v = text "no" ∨
      v = text "disabled" then
    false
  else fallback

/-- `parse_uint`. -/
def parseUint (ini : IniFile) (sec key : String) (dflt hi : UInt64) (label : String) :
    Except Bytes UInt64 :=
  let s := field ini sec key
  if s = [] then .ok dflt
  else
    let r := fromChars s
    if r.ec ≠ .ok ∨ r.rest ≠ [] then .error (text label ++ text ": invalid value: " ++ s)
    else if r.value > hi then .error (text label ++ text ": out of range")
    else .ok r.value

/-- `isspace` in the "C" locale. -/
def isSpace (b : UInt8) : Bool := b = 32 || (9 ≤ b && b ≤ 13)

/-- `parse_list`: stream extraction skips white space and stops at it. -/
def parseList (ini : IniFile) (sec key : String) : List Bytes :=
  ((field ini sec key).splitOnP isSpace).filter (· ≠ [])

/-- The `main` part of `parse`. -/
def parseMain (ini : IniFile) : Except Bytes Main := do
  let tcp ← parseUint ini "main" "tcp_timeout" 300 86400 "tcp_timeout"
  let udp ← parseUint ini "main" "udp_timeout" 60 86400 "udp_timeout"
  let icmp ← parseUint ini "main" "icmp_timeout" 30 86400 "icmp_timeout"
  let general ← parseUint ini "main" "general_timeout" 10 86400 "general_timeout"
  let maxFlows ← parseUint ini "main" "max_flows" 0 ((1 : UInt64) <<< 30) "max_flows"
  let prometheusInterval ←
    parseUint ini "main" "prometheus_interval" 20 86400 "prometheus_interval"
  return {
    devices := parseList ini "main" "device"
    timeouts := { tcp := tcp, udp := udp, icmp := icmp, general := general }
    maxFlows := maxFlows.toUInt32
    trackDrops := parseBool ini "main" "track_drops" false
    logLevel := logLevelFromString (field ini "main" "log_level") 5
    prometheusTextfile := field ini "main" "prometheus_textfile"
    prometheusInterval := prometheusInterval.toUInt32 }

/-- The `ipfix` part of `parse`. -/
def parseIpfix (ini : IniFile) : Except Bytes Ipfix := do
  let collectorPort ← parseUint ini "ipfix" "collector_port" 4739 65535 "collector_port"
  let obsDomain ←
    parseUint ini "ipfix" "observation_domain" 1 4294967295 "observation_domain"
  return {
    enabled := parseBool ini "ipfix" "enabled" false
    collectorHost := field ini "ipfix" "collector_host"
    collectorPort := collectorPort.toUInt16
    sourceAddress := field ini "ipfix" "source_address"
    obsDomain := obsDomain.toUInt32 }

/-- The `syslog` part of `parse`. -/
def parseSyslog (ini : IniFile) : Except Bytes Syslog := do
  let syslogPort ← parseUint ini "syslog" "syslog_port" 514 65535 "syslog_port"
  let p := field ini "syslog" "protocol"
  let f := field ini "syslog" "format"
  return {
    enabled := parseBool ini "syslog" "enabled" false
    syslogHost := field ini "syslog" "syslog_host"
    syslogPort := syslogPort.toUInt16
    protocol := if p = [] then text "udp" else p
    format := if f = [] then text "json" else f
    hostname := field ini "syslog" "hostname"
    sourceAddress := field ini "syslog" "source_address" }

/-- `parse`. -/
def parse (ini : IniFile) : Except Bytes Config := do
  let main ← parseMain ini
  let ipfix ← parseIpfix ini
  let syslog ← parseSyslog ini
  if ipfix.enabled ∧ ipfix.collectorHost = [] then
    throw (text "ipfix: enabled but no collector_host configured")
  return { main with ipfix := ipfix, syslog := syslog }

end Mini

/-! ## The UCI backend -/

namespace Uci

/-- The value of a UCI option. -/
inductive Value where
  | string (v : Bytes)
  | list (vs : List Bytes)
deriving DecidableEq

/-- A `uci_section`: its type, null if unset, and its options in file order. -/
structure UciSection where
  type : Option Bytes
  options : List (Bytes × Value)
deriving DecidableEq

/-- What `uci_load` can fail with. -/
inductive UciErr where
  | notFound
  | mem
  | inval
  | io
  | parse
  | duplicate
  | unknown
deriving DecidableEq

/-- `uci_err_label`: the label and the fatal flag. -/
def uciErrLabel : UciErr → Bytes × Bool
  | .notFound => (text "not found", false)
  | .mem => (text "out of memory", true)
  | .inval => (text "invalid argument", true)
  | .io => (text "I/O error", true)
  | .parse => (text "parse error", true)
  | .duplicate => (text "duplicate", true)
  | .unknown => (text "unknown error", true)

/-- `bool_option`, on a value that may be null. -/
def boolOption (v : Option Bytes) (fallback : Bool) : Bool :=
  match v with
  | none => fallback
  | some v =>
      if v = text "1" ∨ v = text "on" ∨ v = text "true" ∨ v = text "yes" ∨
          v = text "enabled" then
        true
      else if v = text "0" ∨ v = text "off" ∨ v = text "false" ∨ v = text "no" ∨
          v = text "disabled" then
        false
      else fallback

/-- `option`, that is `uci_lookup_option_string`: the first option of the name,
null unless it is a string. -/
def option (s : UciSection) (k : String) : Option Bytes :=
  match s.options.lookup (text k) with
  | some (.string v) => some v
  | _ => none

/-- `parse_uint`: the returned flag and the value of `out`.  The state is
`*err`. -/
def parseUint (s : UciSection) (k : String) (dflt hi : UInt64) (label : String) :
    StateM Bytes (Bool × UInt64) :=
  match option s k with
  | none => return (true, dflt)
  | some v =>
      if v = [] then return (true, dflt)
      else
        let r := fromChars v
        if r.ec ≠ .ok ∨ r.rest ≠ [] then do
          set (text label ++ text ": invalid value: " ++ v)
          return (false, dflt)
        else if r.value > hi then do
          set (text label ++ text ": out of range")
          return (false, dflt)
        else return (true, r.value)

/-- The entries one option adds to `cfg.devices`. -/
def deviceEntries : Bytes × Value → List Bytes
  | (name, value) =>
      if name = text "device" then
        match value with
        | .list vs => vs
        | .string v => [v]
      else []

/-- `parse_devices`. -/
def parseDevices (s : UciSection) (cfg : Main) : Main :=
  { cfg with devices := s.options.foldl (fun ds o => ds ++ deviceEntries o) cfg.devices }

/-- The body of `fill` for a section of type `obserwrt`. -/
def fillMain (s : UciSection) (cfg : Main) : StateM Bytes Main := do
  let cfg := parseDevices s cfg
  let tcp ← parseUint s "tcp_timeout" 300 86400 "tcp_timeout"
  let cfg := { cfg with timeouts.tcp := tcp.2 }
  let udp ← parseUint s "udp_timeout" 60 86400 "udp_timeout"
  let cfg := { cfg with timeouts.udp := udp.2 }
  let icmp ← parseUint s "icmp_timeout" 30 86400 "icmp_timeout"
  let cfg := { cfg with timeouts.icmp := icmp.2 }
  let general ← parseUint s "general_timeout" 10 86400 "general_timeout"
  let cfg := { cfg with timeouts.general := general.2 }
  let flows ← parseUint s "max_flows" 0 ((1 : UInt64) <<< 30) "max_flows"
  let cfg := if flows.1 then { cfg with maxFlows := flows.2.toUInt32 } else cfg
  let cfg := { cfg with trackDrops := boolOption (option s "track_drops") false }
  let ll := option s "log_level"
  let cfg := { cfg with logLevel := logLevelFromString (ll.getD []) 5 }
  let cfg := match option s "prometheus_textfile" with
    | some tf => { cfg with prometheusTextfile := tf }
    | none => cfg
  let pi ← parseUint s "prometheus_interval" 20 86400 "prometheus_interval"
  return if pi.1 then { cfg with prometheusInterval := pi.2.toUInt32 } else cfg

/-- The body of `fill` for a section of type `exporter_ipfix`. -/
def fillIpfix (s : UciSection) (cfg : Ipfix) : StateM Bytes Ipfix := do
  let cfg := { cfg with enabled := boolOption (option s "enabled") false }
  let cfg := { cfg with collectorHost := (option s "collector_host").getD [] }
  let p ← parseUint s "collector_port" 4739 65535 "collector_port"
  let cfg := if p.1 then { cfg with collectorPort := p.2.toUInt16 } else cfg
  let d ← parseUint s "observation_domain" 1 4294967295 "observation_domain"
  let cfg := if d.1 then { cfg with obsDomain := d.2.toUInt32 } else cfg
  return { cfg with sourceAddress := (option s "source_address").getD [] }

/-- The body of `fill` for a section of type `exporter_syslog`. -/
def fillSyslog (s : UciSection) (cfg : Syslog) : StateM Bytes Syslog := do
  let cfg := { cfg with enabled := boolOption (option s "enabled") false }
  let cfg := { cfg with syslogHost := (option s "syslog_host").getD [] }
  let p ← parseUint s "syslog_port" 514 65535 "syslog_port"
  let cfg := if p.1 then { cfg with syslogPort := p.2.toUInt16 } else cfg
  let cfg := { cfg with protocol := (option s "protocol").getD (text "udp") }
  let cfg := { cfg with format := (option s "format").getD (text "json") }
  let cfg := { cfg with hostname := (option s "hostname").getD [] }
  return { cfg with sourceAddress := (option s "source_address").getD [] }

/-- One turn of the section loop of `fill`. -/
def fillSection (cfg : Config) (s : UciSection) : StateM Bytes Config := do
  if s.type = some (text "obserwrt") then
    let main ← fillMain s cfg.toMain
    return { cfg with toMain := main }
  else if s.type = some (text "exporter_ipfix") then
    let ipfix ← fillIpfix s cfg.ipfix
    return { cfg with ipfix := ipfix }
  else if s.type = some (text "exporter_syslog") then
    let syslog ← fillSyslog s cfg.syslog
    return { cfg with syslog := syslog }
  else return cfg

/-- `fill`, on what `uci_load` gave for `target`. -/
def fill (load : Except UciErr (List UciSection)) (target : Bytes) (cfg : Config) :
    StateM Bytes Config :=
  match load with
  | .error rc => do
      if (uciErrLabel rc).2 then
        set (text "config: uci_load " ++ target ++ text ": " ++ (uciErrLabel rc).1)
      return cfg
  | .ok sections => do
      let cfg ← sections.foldlM fillSection cfg
      if cfg.ipfix.enabled ∧ cfg.ipfix.collectorHost = [] then
        set (text "ipfix: enabled but no collector_host configured")
      return cfg

end Uci

end Config
end Obserwrt
