import Obserwrt.Daemon.Snapshot
import Obserwrt.Metrics.Decode

/-!
# The textfile tells the run

The path of a number to a reader of the textfile: counted along the run, taken
into the metrics by a pass, written at the meter timer, and left alone until
the next successful write.  `Shows` says what the reader finds, all of it in
terms of the run.
-/

namespace Obserwrt

open Lib Lifecycle

variable {w ncpu : Nat}

/-! ## From the pass to the write -/

section Write

variable {st : Setup} {d d' : Daemon w ncpu}

/-- Without a pass under way only the timer begins one, and nothing else changes the
metrics. -/
theorem next_idle {e : Event ncpu} (hidle : d.job = none) (hlives : Lives st d e)
    (htimer : ∀ nowS monoMs, e ≠ .timer nowS monoMs) :
    (d.next st e).job = none ∧ (d.next st e).sinks = d.sinks := by
  have hstep := hlives.eventStep
  generalize d.next st e = d' at hstep ⊢
  cases hstep with
  | packet env hook skb => exact ⟨hidle, rfl⟩
  | kfree cpu now skb reason =>
      exact ⟨(kfree_flows d cpu now skb reason).2.2.trans hidle, kfree_sinks _ _ _ _⟩
  | evict keys => exact ⟨hidle, rfl⟩
  | link ev env _ => exact ⟨hidle, rfl⟩
  | timer nowS monoMs _ => exact absurd rfl (htimer nowS monoMs)
  | advance hjob hpass =>
      rw [hidle] at hjob
      cases hjob
  | meter ok _ =>
      refine ⟨?_, meter_sinks ok⟩
      unfold Daemon.meter
      split <;> exact hidle

/-- Only a successful write changes the textfile. -/
theorem next_textfile {e : Event ncpu} (hlives : Lives st d e) (hmeter : e ≠ .meter true) :
    (d.next st e).textfile = d.textfile := by
  have hstep := hlives.eventStep
  generalize d.next st e = d' at hstep ⊢
  cases hstep with
  | packet env hook skb => rfl
  | kfree cpu now skb reason =>
      unfold Daemon.kfree
      split <;> rfl
  | evict keys => rfl
  | link ev env _ => rfl
  | timer nowS monoMs _ => rfl
  | advance hjob hpass => cases hpass <;> rfl
  | meter ok _ =>
      cases ok with
      | true => exact absurd rfl hmeter
      | false =>
          rw [Daemon.meter, Bool.and_false]
          rfl

/-- The successful write shows the metrics of the last pass. -/
theorem textfile_of_run {after later : List (Event ncpu)} (hidle : d.job = none)
    (hactive : d.sinks.metrics.active = true)
    (hafter : ∀ nowS monoMs, .timer nowS monoMs ∉ after) (hlater : .meter true ∉ later)
    (hrun : Run (Daemon.next st) (Lives st) d (after ++ .meter true :: later) d') :
    d'.textfile = some (d.sinks.metrics.state.write st.build) := by
  obtain ⟨d₁, hfirst, hrest⟩ := hrun.split
  obtain ⟨hwrite, hrest⟩ := hrest.first_step
  have hsame : ∀ {events : List (Event ncpu)} {d₁ : Daemon w ncpu},
      Run (Daemon.next st) (Lives st) d events d₁ →
      (∀ nowS monoMs, .timer nowS monoMs ∉ events) → d₁.job = none ∧ d₁.sinks = d.sinks := by
    intro events d₁ hfirst
    induction hfirst with
    | nil => exact fun _ => ⟨hidle, rfl⟩
    | snoc hrun hlives ih =>
        intro hnone
        obtain ⟨hjob, hsinks⟩ := ih fun nowS monoMs hmem =>
          hnone nowS monoMs (List.mem_append_left _ hmem)
        obtain ⟨hjob', hsinks'⟩ := next_idle hjob hlives fun nowS monoMs heq =>
          hnone nowS monoMs (List.mem_append_right _ (by simp [heq]))
        exact ⟨hjob', hsinks'.trans hsinks⟩
  have hkept : ∀ {events : List (Event ncpu)} {d₁ d₂ : Daemon w ncpu},
      Run (Daemon.next st) (Lives st) d₁ events d₂ → .meter true ∉ events →
      d₂.textfile = d₁.textfile := by
    intro events d₁ d₂ hrest
    induction hrest with
    | nil => exact fun _ => rfl
    | snoc hrun hlives ih =>
        intro hnone
        have hbefore := ih fun hmem => hnone (List.mem_append_left _ hmem)
        refine (next_textfile hlives fun heq => ?_).trans hbefore
        exact hnone (List.mem_append_right _ (by simp [heq]))
  obtain ⟨hjob, hsinks⟩ := hsame hfirst hafter
  rw [hkept hrest hlater]
  have hstep := hwrite.eventStep
  generalize d₁.next st (.meter true) = d₂ at hstep ⊢
  cases hstep with
  | meter _ _ =>
      rw [Daemon.meter, hsinks, hactive]
      rfl

end Write

/-! ## What the reader finds -/

/-- The metrics without labels that show a slot of `bpf_stats`. -/
def slotNames : List (String × Bpf.Stat) :=
  [("obserwrt_packets_total", .packets), ("obserwrt_bytes_total", .bytes),
   ("obserwrt_packets_accounted_total", .parsed), ("obserwrt_flows_created_total", .flowsCreated),
   ("obserwrt_drops_total", .drops), ("obserwrt_drops_unparsed_total", .dropsUnparsed)]

/-- The value of a metric without labels. -/
def total (lines : List PromLine) (name : String) : List Nat :=
  seriesValues lines (text name) []

/-- What a reader of the textfile finds of a pass that found the daemon in `d₁`,
behind the events `before`, and left it in `d` after `during`. -/
structure Shows (st : Setup) (limit : UInt32) (d₀ d₁ d : Daemon w ncpu)
    (before during : List (Event ncpu)) (lines : List PromLine) : Prop where
  exported : total lines "obserwrt_flows_exported_total" =
    [(requested st d₀ (before ++ during)).length % 2 ^ 64]
  errors : ∃ n, Wraps w n d.sinks.refused ∧
    total lines "obserwrt_export_errors_total" = [n % 2 ^ 64]
  counters : ∀ p ∈ slotNames, ∃ part, part <+: during ∧
    total lines p.1 = [counted st p.2 d₀ (before ++ part) % 2 ^ 64]
  flows : ∃ entries now, Walked st d₁ during (fun _ => True) entries ∧ Clocked during now ∧
    total lines "obserwrt_bpf_map_entries" = [entries.length % 2 ^ 32] ∧
    total lines "obserwrt_flows_active" =
      [(entries.countP fun e => !isExpired st.lifecycle now e.1 e.2) % 2 ^ 32]
  limit : total lines "obserwrt_bpf_map_limit" = [limit.toNat]
  known : ∀ i, (d.agent.nameByIndex.lookup i).isSome = d.agent.bpf.isAttached i
  attached : ∀ name,
    seriesValues lines (text "obserwrt_device_attached") [(text "ifname", name)] =
      List.replicate ((Store.pairs d.agent.nameByIndex).countP fun p =>
        Metrics.cString p.2 = name) 1
  number : total lines "obserwrt_devices_attached" =
    [(Store.pairs d.agent.nameByIndex).length % 2 ^ 64]
  moments : ∀ c ∈ measured st d₁ during, ∃ d k slots, Moment st d₁ during d ∧
    d.agent.bpf.maps.devstats.lookup k = some slots ∧
    c = { Bpf.devTotal slots with ifindex := k.ifindex, direction := k.direction }
  devices : let shown := namedCounters d.agent.nameByIndex (measured st d₁ during)
    ∀ c ∈ shown, ∀ cls : PktClass,
      seriesValues lines (text "obserwrt_device_packets_total")
          (Metrics.cLabels (Metrics.deviceLabels c cls)) =
        (shown.filter fun c' => Metrics.SameSeries c' c).map (fun c' => (c'.c.packets cls).toNat) ∧
      seriesValues lines (text "obserwrt_device_bytes_total")
          (Metrics.cLabels (Metrics.deviceLabels c cls)) =
        (shown.filter fun c' => Metrics.SameSeries c' c).map fun c' => (c'.c.bytes cls).toNat

section Shows

variable {st : Setup} {limit : UInt32} {d₀ d₁ d : Daemon w ncpu}
  {before during : List (Event ncpu)}

/-- Whatever the pass measured was there in some state of it. -/
theorem measured_moment (hrun : Run (Daemon.next st) (InPass st) d₁ during d) :
    ∀ c ∈ measured st d₁ during, ∃ d k slots, Moment st d₁ during d ∧
      d.agent.bpf.maps.devstats.lookup k = some slots ∧
      c = { Bpf.devTotal slots with ifindex := k.ifindex, direction := k.direction } := by
  induction hrun with
  | nil => exact fun c hc => absurd hc List.not_mem_nil
  | @snoc history s e hrun hok ih =>
      have hstate := hrun.eq_foldl
      intro c hc
      rw [measured_concat hstate] at hc
      rcases List.mem_append.mp hc with hold | hnew
      · obtain ⟨d, k, slots, hd, hrest⟩ := ih c hold
        exact ⟨d, k, slots, hd.later e, hrest⟩
      · refine ⟨s, ?_⟩
        unfold Daemon.measuredBy at hnew
        split at hnew
        · split at hnew
          · rename_i k hraw hdevice
            obtain ⟨slots, hslots, rfl⟩ := Option.map_eq_some_iff.mp (Option.mem_toList.mp hnew)
            exact ⟨k, slots, (moment_now hstate).later _, hslots, rfl⟩
          · exact absurd hnew List.not_mem_nil
        · exact absurd hnew List.not_mem_nil

/-- A slot as it was in some state of the pass is a count of the run up to there. -/
theorem Counted.toNat_eq {i : Bpf.Stat} {value : UInt64} (h : Counted st d₁ during i value)
    (hbooks : Books st limit d₀ before d₁) (hrun : Run (Daemon.next st) (InPass st) d₁ during d) :
    ∃ part, part <+: during ∧ value.toNat = counted st i d₀ (before ++ part) % 2 ^ 64 := by
  obtain ⟨d', ⟨part, ⟨rest, rfl⟩, rfl⟩, rfl⟩ := h
  obtain ⟨s, hpart, -⟩ := hrun.split
  have hthen := hbooks.run (hpart.mono fun _ _ h => h.1)
  refine ⟨part, List.prefix_append _ _, ?_⟩
  rw [← hpart.eq_foldl, hthen.stats, UInt64.toNat_ofNat']

theorem toNat_ofNat32 (n : Nat) : (UInt32.ofNat n).toUInt64.toNat = n % 2 ^ 32 := by
  rw [UInt32.toNat_toUInt64, UInt32.toNat_ofNat']

/-- A text of what the pass left shows the run. -/
theorem shows_of_pass (hbegin : Books st limit d₀ before d₁)
    (hrun : Run (Daemon.next st) (InPass st) d₁ during d)
    (hbooks : Books st limit d₀ (before ++ during) d) (htaken : Taken st d₁ during d)
    (hdevices : d.sinks.metrics.state.devCounters =
      namedCounters d.agent.nameByIndex (measured st d₁ during)) (b : Metrics.BuildInfo) :
    ∃ lines, readExposition (d.sinks.metrics.state.write b) = some lines ∧
      Shows st limit d₀ d₁ d before during lines := by
  refine ⟨_, Metrics.read_write b _, ?_⟩
  have hblocks := Metrics.blocks_families b d.sinks.metrics.state
  generalize (d.sinks.metrics.state.families b).flatMap Family.lines = lines at hblocks
  have hmetrics := Metrics.deviceMetrics_mem b d.sinks.metrics.state
  have hflows := hbooks.sinks.flows
  have hlimit := hbooks.sinks.limit
  obtain ⟨n, herrors, hwraps⟩ := hbooks.sinks.errors
  obtain ⟨entries, now, hwalked, hclock, hentries, hactive⟩ := htaken.flows
  have hslots := fun i => (htaken.stats i).toNat_eq hbegin hrun
  have hnames := htaken.devices
  have hlisted := hbooks.known.listed
  generalize d.sinks.metrics.state = m at *
  have htotals : ∀ t ∈ m.totals, seriesValues lines t.name [] = [t.value.toNat] :=
    fun t ht => Metrics.seriesValues_total hblocks ht
  simp only [Metrics.State.totals, List.forall_mem_cons, UInt64.toNat_ofNat', toNat_ofNat32,
    hflows, hlimit, herrors, hentries, hactive] at htotals
  obtain ⟨hexported, herrors', hpackets, hbytes, haccounted, hcreated, hdrops, hunparsed, hlive,
    hmap, hlimit', hnumber, -⟩ := htotals
  refine ⟨hexported, ⟨n, ?_, herrors'⟩, ?_, ⟨entries, now, hwalked, hclock, hmap, hlive⟩, ?_,
    hbooks.known.named, fun name => ?_, ?_, measured_moment hrun, ?_⟩
  · rw [htaken.failures, Nat.add_zero] at hwraps
    exact hwraps
  · -- slot by slot, as the metrics name them
    simp only [slotNames, List.forall_mem_cons, total]
    have hslot : ∀ {name : Bytes} {i : Bpf.Stat},
        seriesValues lines name [] = [(m.slot i).toNat] → ∃ part, part <+: during ∧
          seriesValues lines name [] = [counted st i d₀ (before ++ part) % 2 ^ 64] := by
      intro name i hvalue
      obtain ⟨part, hpart, hcounted⟩ := hslots i
      exact ⟨part, hpart, by rw [hvalue, hcounted]⟩
    exact ⟨hslot hpackets, hslot hbytes, hslot haccounted, hslot hcreated, hslot hdrops,
      hslot hunparsed, fun _ hnone => absurd hnone List.not_mem_nil⟩
  · rw [total, hlimit', UInt32.toNat_toUInt64]
  · rw [Metrics.seriesValues_attached hblocks, hnames, hlisted.countP_eq, List.countP_map]
    rfl
  · rw [total, hnumber, hnames, hlisted.length_eq, List.length_map]
  · rw [← hdevices]
    intro shown c hc cls
    exact ⟨Metrics.seriesValues_entries hblocks hmetrics.1 hc cls,
      Metrics.seriesValues_entries hblocks hmetrics.2 hc cls⟩

end Shows

/-- **The textfile tells the run.**  For every configuration with a textfile and
every run of the daemon: after a successful write that a pass precedes, and up to
the next one, the textfile reads as what the last pass found.  The records are
those of the run up to the end of the pass, the failures the refused datagrams
up to there, but for whole turns of the `unsigned long` that counts them.  Each
kernel counter is what the run added to it up to some moment of the pass; the
flows are those that its walk read, each once and as it was at some moment, and
all that stayed if no batch call failed.  Every attached device is there, and
each device counter with those that its labels do not tell apart. -/
theorem textfile_tells_the_run (w ncpu : Nat) (cfg : Config) (env : BootEnv) (st : Setup)
    (d₀ d₁ d d' : Daemon w ncpu) (before during after later : List (Event ncpu))
    (nowS : UInt32) (monoMs : UInt64)
    (hboot : boot w ncpu cfg env = some (st, d₀)) (hfile : cfg.prometheusTextfile ≠ [])
    (hbefore : Run (Daemon.next st) (Lives st) d₀ (before ++ [.timer nowS monoMs]) d₁)
    (hpass : Run (Daemon.next st) (InPass st) d₁ during d) (hend : d.job = none)
    (hafter : ∀ nowS monoMs, .timer nowS monoMs ∉ after) (hlater : .meter true ∉ later)
    (hrest : Run (Daemon.next st) (Lives st) d (after ++ .meter true :: later) d') :
    ∃ lines, d'.textfile.bind readExposition = some lines ∧
      Shows st env.mapLimit d₀ d₁ d (before ++ [.timer nowS monoMs]) during lines := by
  have hbooks := (books_boot hboot hfile).run hbefore
  rw [List.nil_append] at hbooks
  have hbegin : PassInv st d₁ [] d₁ := by
    obtain ⟨s, -, hlives, hnext⟩ := hbefore.last_step
    have hstep := hlives.eventStep
    rw [← hnext] at hstep
    cases hstep with
    | timer _ _ _ => exact passInv_begin s nowS monoMs
  obtain ⟨hbooks', htaken, hdevices⟩ := pass_run hbegin hbooks hpass hend
  rw [textfile_of_run hend hbooks'.sinks.active hafter hlater hrest, Option.bind_some]
  exact shows_of_pass hbooks hpass hbooks' htaken hdevices st.build

theorem textfile_tells_the_run_demo :
    ∃ lines, (passedDaemon.next fullBoot.1 (.meter true)).textfile.bind readExposition =
        some lines ∧
      total lines "obserwrt_flows_exported_total" = [2] ∧
      total lines "obserwrt_devices_attached" = [1] ∧
      seriesValues lines (text "obserwrt_device_attached") [(text "ifname", text "wan")] =
        [1] := by
  set during := passEvents 13
    { now := 6000000000, clock := 1700000005, dataReply := fun i => [87, 111][i]? }
    [⟨7, 0⟩, ⟨7, 1⟩] with hduring
  set before := trafficEvents ++ [.timer 1700000005 6000] with hbefore
  have hfirst : Run (Daemon.next fullBoot.1) (Lives fullBoot.1) fullBoot.2 before
      (before.foldl (Daemon.next fullBoot.1) fullBoot.2) := Run.of_check (by decide +kernel)
  have hpass : Run (Daemon.next fullBoot.1) (InPass fullBoot.1)
      (before.foldl (Daemon.next fullBoot.1) fullBoot.2) during
      (during.foldl (Daemon.next fullBoot.1) (before.foldl (Daemon.next fullBoot.1) fullBoot.2)) :=
    Run.of_check (by decide +kernel)
  have hend : during.foldl (Daemon.next fullBoot.1)
      (before.foldl (Daemon.next fullBoot.1) fullBoot.2) = passedDaemon := by
    rw [← List.foldl_append, hbefore, List.append_assoc]
    rfl
  rw [hend] at hpass
  have hrest : Run (Daemon.next fullBoot.1) (Lives fullBoot.1) passedDaemon
      ([] ++ .meter true :: []) (passedDaemon.next fullBoot.1 (.meter true)) :=
    Run.nil.snoc (by decide +kernel)
  obtain ⟨lines, hread, hshows⟩ :=
    textfile_tells_the_run 32 2 fullConfig fullEnv fullBoot.1 fullBoot.2 _ passedDaemon _
      trafficEvents during [] [] 1700000005 6000 (Option.some_get fullBoot_isSome).symm
      (by decide +kernel) hfirst hpass (Option.isNone_iff_eq_none.mp (by decide +kernel))
      (fun _ _ => List.not_mem_nil) List.not_mem_nil hrest
  have hrecords : (requested fullBoot.1 fullBoot.2 (before ++ during)).length = 2 := by
    decide +kernel
  have hone : ((Store.pairs passedDaemon.agent.nameByIndex).countP fun p =>
      Metrics.cString p.2 = text "wan") = 1 := by
    decide +kernel
  refine ⟨lines, hread, ?_, ?_, ?_⟩
  · rw [hshows.exported, hrecords]
    rfl
  · rw [hshows.number]
    decide +kernel
  · rw [hshows.attached, hone]
    rfl

end Obserwrt
