import Mathlib.Data.List.TakeWhile
import Obserwrt.Metrics.Write

/-!
# Reading the Prometheus text

The calls of `write` grouped by metric: a group of calls with one name adds the
lines of its family to the text, the two headers before the first sample, and
nothing when there is no sample.  The groups have different names, so the text
is the exposition of the families that have samples.
-/

namespace Obserwrt
namespace Metrics

open Lib

/-! ## The builder and the lines -/

/-- A group of `sample` calls with one name, type and help text. -/
structure Metric where
  name : Bytes
  help : Bytes
  kind : MetricKind
  samples : List (Labels × UInt64)

/-- The labels as their strings are read. -/
def cLabels (kv : Labels) : Labels := kv.map fun l => (l.1, cString l.2)

/-- The family of a group of calls. -/
def Metric.family (f : Metric) : Family where
  name := f.name
  help := f.help
  kind := f.kind
  samples := f.samples.map fun s => (cLabels s.1, s.2.toNat)

/-- The calls of a group. -/
def PromExposition.emit (px : PromExposition) (f : Metric) : PromExposition :=
  f.samples.foldl (fun px s => px.sample f.name f.kind.bytes f.help (labels s.1) s.2) px

theorem labelChar_eq : labelChar = promEscape :=
  rfl

theorem labelLoop_false (kv : Labels) :
    labelLoop false kv = (cLabels kv).flatMap fun l => 44 :: labelBytes l := by
  induction kv with
  | nil => rfl
  | cons p kv ih =>
      rw [labelLoop, ih, labelChar_eq]
      simp [cLabels, labelBytes, text, quoteByte]

theorem joinItems_eq_flatMap {α : Type} (enc : α → Bytes) (x : α) (xs : List α) :
    joinItems 44 enc (x :: xs) = enc x ++ xs.flatMap fun y => 44 :: enc y := by
  induction xs generalizing x with
  | nil => simp [joinItems]
  | cons y xs ih => simp [joinItems, ih]

/-- `labels` writes the labels of the format. -/
theorem labels_eq (kv : Labels) : labels kv = labelsBytes (cLabels kv) := by
  cases kv with
  | nil => rfl
  | cons p kv =>
      have hcons : cLabels (p :: kv) = (p.1, cString p.2) :: cLabels kv := rfl
      rw [labels, if_neg (List.cons_ne_nil _ _), labelLoop, labelLoop_false, labelChar_eq, hcons,
        labelsBytes, if_neg (List.cons_ne_nil _ _), joinItems_eq_flatMap]
      simp [labelBytes, text, quoteByte]

/-- The lines that one `sample` call adds. -/
def sampleLines (declared : List Bytes) (f : Metric) (s : Labels × UInt64) : List PromLine :=
  (if declared.contains f.name then [] else [.help f.name f.help, .type f.name f.kind]) ++
    [.sample f.name (cLabels s.1) s.2.toNat]

theorem sample_eq (px : PromExposition) (f : Metric) (s : Labels × UInt64) :
    px.sample f.name f.kind.bytes f.help (labels s.1) s.2 =
      { out := px.out ++ expositionBytes (sampleLines px.declared f s)
        declared :=
          if px.declared.contains f.name then px.declared else f.name :: px.declared } := by
  by_cases hdeclared : f.name ∈ px.declared
  · simp [PromExposition.sample, hdeclared, sampleLines, expositionBytes, PromLine.bytes,
      labels_eq, text]
  · simp [PromExposition.sample, hdeclared, sampleLines, expositionBytes, PromLine.bytes,
      labels_eq, helpMark, typeMark, text]

theorem expositionBytes_append (xs ys : List PromLine) :
    expositionBytes (xs ++ ys) = expositionBytes xs ++ expositionBytes ys :=
  List.flatMap_append

/-- Once the header is out, calls add their samples. -/
theorem samples_declared {px : PromExposition} (f : Metric) (hdeclared : f.name ∈ px.declared)
    (samples : List (Labels × UInt64)) :
    samples.foldl (fun px s => px.sample f.name f.kind.bytes f.help (labels s.1) s.2) px =
      { out := px.out ++ expositionBytes
          (samples.map fun s => .sample f.name (cLabels s.1) s.2.toNat)
        declared := px.declared } := by
  induction samples generalizing px with
  | nil => simp [expositionBytes]
  | cons s samples ih =>
      have hstep := sample_eq px f s
      simp only [sampleLines, List.contains_iff_mem, hdeclared, if_true, List.nil_append] at hstep
      have hnext : f.name ∈ (px.sample f.name f.kind.bytes f.help (labels s.1) s.2).declared := by
        rw [hstep]
        exact hdeclared
      rw [List.foldl_cons, ih hnext, hstep, List.append_assoc, ← expositionBytes_append]
      rfl

/-- A group of calls adds the lines of its family, and nothing when it is empty. -/
theorem emit_new {px : PromExposition} {f : Metric} (hnew : f.name ∉ px.declared) :
    px.emit f =
      if f.samples = [] then px
      else
        { out := px.out ++ expositionBytes f.family.lines
          declared := f.name :: px.declared } := by
  cases hsamples : f.samples with
  | nil => simp [PromExposition.emit, hsamples]
  | cons s samples =>
      have hstep := sample_eq px f s
      simp only [sampleLines, List.contains_iff_mem, hnew, if_false] at hstep
      have hlines : f.family.lines =
          [.help f.name f.help, .type f.name f.kind] ++
            [.sample f.name (cLabels s.1) s.2.toNat] ++
            samples.map fun s => .sample f.name (cLabels s.1) s.2.toNat := by
        simp [Family.lines, Metric.family, hsamples]
      have hnext : f.name ∈ (px.sample f.name f.kind.bytes f.help (labels s.1) s.2).declared := by
        rw [hstep]
        exact List.mem_cons_self
      rw [PromExposition.emit, hsamples, if_neg (List.cons_ne_nil _ _), List.foldl_cons,
        samples_declared f hnext, hstep, hlines, List.append_assoc, ← expositionBytes_append]

/-- The families that have samples. -/
def withSamples (fs : List Metric) : List Family :=
  (fs.map Metric.family).filter fun f => !f.samples.isEmpty

/-- Groups of calls with different names add the lines of their families. -/
theorem emit_all {px : PromExposition} {fs : List Metric} (hnames : (fs.map Metric.name).Nodup)
    (hnew : ∀ f ∈ fs, f.name ∉ px.declared) :
    (fs.foldl PromExposition.emit px).out =
      px.out ++ expositionBytes ((withSamples fs).flatMap Family.lines) := by
  induction fs generalizing px with
  | nil => simp [withSamples, expositionBytes]
  | cons f fs ih =>
      rw [List.map_cons, List.nodup_cons] at hnames
      have hf := hnew f List.mem_cons_self
      have hfs := fun g hg => hnew g (List.mem_cons_of_mem _ hg)
      rw [List.foldl_cons, emit_new hf]
      by_cases hempty : f.samples = []
      · rw [if_pos hempty, ih hnames.2 hfs]
        simp [withSamples, Metric.family, hempty]
      · have hother : ∀ g ∈ fs, g.name ∉ f.name :: px.declared := by
          intro g hg hmem
          rcases List.mem_cons.mp hmem with hsame | hdeclared
          · exact hnames.1 (hsame ▸ List.mem_map_of_mem hg)
          · exact hfs g hg hdeclared
        have hkeep : withSamples (f :: fs) = f.family :: withSamples fs := by
          simp [withSamples, Metric.family, hempty]
        rw [if_neg hempty, ih hnames.2 hother, hkeep, List.flatMap_cons, expositionBytes_append,
          List.append_assoc]

/-! ## The groups of calls of `write` -/

/-- A metric without labels. -/
structure Total where
  name : Bytes
  help : Bytes
  kind : MetricKind
  value : UInt64

def Total.metric (t : Total) : Metric where
  name := t.name
  help := t.help
  kind := t.kind
  samples := [([], t.value)]

/-- The twelve metrics without labels. -/
def State.totals (m : State) : List Total :=
  [⟨text "obserwrt_flows_exported_total", text "Flow records dispatched to exporters.", .counter,
      m.totalFlows⟩,
   ⟨text "obserwrt_export_errors_total", text "Export/lifecycle failures.", .counter,
      m.totalErrors⟩,
   ⟨text "obserwrt_packets_total", text "Packets seen at TC (all, incl. non-IP).", .counter,
      m.bpfPackets⟩,
   ⟨text "obserwrt_bytes_total", text "Bytes seen at TC (all).", .counter, m.bpfBytes⟩,
   ⟨text "obserwrt_packets_accounted_total", text "Packets that entered flow accounting (IP).",
      .counter, m.bpfAccounted⟩,
   ⟨text "obserwrt_flows_created_total", text "Flow entries created in the BPF map.", .counter,
      m.bpfFlowsCreated⟩,
   ⟨text "obserwrt_drops_total",
      text "Packets the kernel dropped on attached devices (drop tracer).", .counter, m.bpfDrops⟩,
   ⟨text "obserwrt_drops_unparsed_total",
      text "Dropped packets not exported (not IPv4/IPv6 or no network header).", .counter,
      m.bpfDropsUnparsed⟩,
   ⟨text "obserwrt_flows_active", text "Currently live flows.", .gauge, m.flowsActive.toUInt64⟩,
   ⟨text "obserwrt_bpf_map_entries", text "Current flow map entries.", .gauge,
      m.mapEntries.toUInt64⟩,
   ⟨text "obserwrt_bpf_map_limit", text "Flow map capacity (LRU).", .gauge, m.mapLimit.toUInt64⟩,
   ⟨text "obserwrt_devices_attached", text "Number of attached netdevs.", .gauge,
      UInt64.ofNat m.devices.length⟩]

def buildMetric (b : BuildInfo) : Metric where
  name := text "obserwrt_build_info"
  help := text "Build and version information."
  kind := .gauge
  samples := [(buildLabels b, 1)]

def State.attachedMetric (m : State) : Metric where
  name := text "obserwrt_device_attached"
  help := text "Attached netdev (1 if attached)."
  kind := .gauge
  samples := m.devices.map fun d => ([(text "ifname", d)], 1)

/-- A metric with a sample for each class of each device and direction. -/
def State.deviceMetric (m : State) (name help : Bytes)
    (value : DeviceCounters → PktClass → UInt64) : Metric where
  name := name
  help := help
  kind := .counter
  samples := m.devCounters.flatMap fun d => classes.map fun cls => (deviceLabels d cls, value d cls)

def State.packetsMetric (m : State) : Metric :=
  m.deviceMetric (text "obserwrt_device_packets_total")
    (text "Packets seen at TC per device, direction and class.") fun d cls => d.c.packets cls

def State.bytesMetric (m : State) : Metric :=
  m.deviceMetric (text "obserwrt_device_bytes_total")
    (text "Bytes seen at TC per device, direction and class.") fun d cls => d.c.bytes cls

/-- The groups of calls of `write`, in order. -/
def State.metrics (b : BuildInfo) (m : State) : List Metric :=
  buildMetric b :: (m.totals.map Total.metric ++ [m.attachedMetric, m.packetsMetric, m.bytesMetric])

theorem emit_counter (px : PromExposition) (name help : Bytes) (value : UInt64) :
    px.emit (Total.metric ⟨name, help, .counter, value⟩) = px.counter name help [] value :=
  rfl

theorem emit_gauge (px : PromExposition) (name help : Bytes) (value : UInt64) :
    px.emit (Total.metric ⟨name, help, .gauge, value⟩) = px.gauge name help [] value :=
  rfl

theorem emit_build (px : PromExposition) (b : BuildInfo) :
    px.emit (buildMetric b) =
      px.gauge (text "obserwrt_build_info") (text "Build and version information.")
        (labels (buildLabels b)) 1 :=
  rfl

theorem emit_attached (px : PromExposition) (m : State) :
    px.emit m.attachedMetric =
      m.devices.foldl (fun px d =>
        px.gauge (text "obserwrt_device_attached") (text "Attached netdev (1 if attached).")
          (labels [(text "ifname", d)]) 1) px := by
  rw [PromExposition.emit, State.attachedMetric, List.foldl_map]
  rfl

theorem emit_device (px : PromExposition) (m : State) (name help : Bytes)
    (value : DeviceCounters → PktClass → UInt64) :
    px.emit (m.deviceMetric name help value) =
      m.devCounters.foldl (fun px d =>
        classes.foldl (fun px cls =>
          px.counter name help (labels (deviceLabels d cls)) (value d cls)) px) px := by
  rw [PromExposition.emit, State.deviceMetric, List.foldl_flatMap]
  simp only [List.foldl_map]
  rfl

theorem write_eq (b : BuildInfo) (m : State) :
    m.write b = ((m.metrics b).foldl PromExposition.emit PromExposition.empty).out := by
  rw [State.metrics, State.totals, List.foldl_cons, List.foldl_append, emit_build]
  -- The checker would otherwise compare the texts of the two sides by evaluation.
  simp -implicitDefEqProofs only [List.map_cons, List.map_nil, List.foldl_cons, List.foldl_nil,
    emit_counter, emit_gauge, emit_attached, State.packetsMetric, State.bytesMetric, emit_device]
  rfl

/-! ## The families of the text -/

/-- What the grammar of the format asks of a group of calls: proper names, a
plain help text, and the same label names, each once, in every call. -/
structure Metric.Fits (f : Metric) (keys : List Bytes) : Prop where
  hname : isName isNameByte f.name = true
  hhelp : f.help.all (fun b => b != 92 && b != 10) = true
  hkeys : ∀ s ∈ f.samples, s.1.map Prod.fst = keys
  hnodup : keys.Nodup
  hkeyNames : ∀ key ∈ keys, isName isLabelByte key = true

/-- A group of calls that fits and gives no label list twice. -/
structure Metric.Good (f : Metric) (keys : List Bytes) : Prop extends Metric.Fits f keys where
  hseries : (f.samples.map fun s => cLabels s.1).Nodup

theorem cLabels_keys (kv : Labels) : (cLabels kv).map Prod.fst = kv.map Prod.fst := by
  simp [cLabels]

theorem Metric.Fits.family_keys {f : Metric} {keys : List Bytes} (hf : f.Fits keys)
    {s : Labels × Nat} (hs : s ∈ f.family.samples) : s.1.map Prod.fst = keys := by
  obtain ⟨t, ht, rfl⟩ := List.mem_map.mp hs
  exact (cLabels_keys t.1).trans (hf.hkeys t ht)

theorem Metric.Fits.lines {f : Metric} {keys : List Bytes} (hf : f.Fits keys) :
    ∀ l ∈ f.family.lines, l.fits = true := by
  intro l hl
  simp only [Family.lines, List.mem_cons, List.mem_map] at hl
  rcases hl with rfl | rfl | ⟨s, hs, rfl⟩
  · simp only [PromLine.fits, Bool.and_eq_true]
    exact ⟨hf.hname, hf.hhelp⟩
  · exact hf.hname
  · simp only [PromLine.fits, Bool.and_eq_true, List.all_eq_true]
    refine ⟨hf.hname, fun label hlabel => hf.hkeyNames label.1 ?_⟩
    rw [← hf.family_keys hs]
    exact List.mem_map_of_mem hlabel

/-- The label lists of two calls are permuted only when equal. -/
theorem Metric.Fits.perm_iff {f : Metric} {keys : List Bytes} (hf : f.Fits keys)
    {s t : Labels × UInt64} (hs : s ∈ f.samples) (ht : t ∈ f.samples) :
    (cLabels s.1).Perm (cLabels t.1) ↔ cLabels s.1 = cLabels t.1 := by
  have hkeys : ∀ u ∈ f.samples, (cLabels u.1).map Prod.fst = keys :=
    fun u hu => (cLabels_keys u.1).trans (hf.hkeys u hu)
  constructor
  · refine labels_eq_of_perm ((hkeys s hs).trans (hkeys t ht).symm) ?_
    rw [hkeys s hs]
    exact hf.hnodup
  · intro heq
    rw [heq]

theorem Metric.Good.series {f : Metric} {keys : List Bytes} (hf : f.Good keys) :
    f.family.samples.Pairwise fun s t => ¬s.1.Perm t.1 := by
  have hseries := hf.hseries
  rw [List.Nodup, List.pairwise_map] at hseries
  rw [Metric.family, List.pairwise_map]
  exact hseries.imp_of_mem fun {s t} hs ht hne hperm =>
    hne ((hf.toFits.perm_iff hs ht).mp hperm)

theorem mem_withSamples {fs : List Metric} {g : Family} (hg : g ∈ withSamples fs) :
    (∃ f ∈ fs, f.family = g) ∧ g.samples ≠ [] := by
  obtain ⟨hmem, hsamples⟩ := List.mem_filter.mp hg
  exact ⟨List.mem_map.mp hmem, by simpa using hsamples⟩

/-- Groups with different names stand one behind the other. -/
theorem blocks_withSamples {fs : List Metric} (hnames : (fs.map Metric.name).Nodup) :
    Blocks ((withSamples fs).flatMap Family.lines) (withSamples fs) where
  hlines := rfl
  hnames := by
    have hfamilies : (fs.map Metric.family).map Family.name = fs.map Metric.name := by
      simp [Metric.family]
    rw [← hfamilies] at hnames
    exact hnames.sublist (List.filter_sublist.map Family.name)

/-- Good groups with different names make an exposition. -/
theorem exposes_withSamples {fs : List Metric} (hnames : (fs.map Metric.name).Nodup)
    (hgood : ∀ f ∈ fs, ∃ keys, f.Good keys) :
    Exposes ((withSamples fs).flatMap Family.lines) (withSamples fs) where
  hlines := rfl
  hnames := (blocks_withSamples hnames).hnames
  hsamples g hg := (mem_withSamples hg).2
  hlabels g hg s hs := by
    obtain ⟨⟨f, hf, rfl⟩, -⟩ := mem_withSamples hg
    obtain ⟨keys, hkeys⟩ := hgood f hf
    rw [hkeys.family_keys hs]
    exact hkeys.hnodup
  hseries g hg := by
    obtain ⟨⟨f, hf, rfl⟩, -⟩ := mem_withSamples hg
    obtain ⟨keys, hkeys⟩ := hgood f hf
    exact hkeys.series

theorem fits_withSamples {fs : List Metric} (hfits : ∀ f ∈ fs, ∃ keys, f.Fits keys) :
    ∀ l ∈ (withSamples fs).flatMap Family.lines, l.fits = true := by
  intro l hl
  obtain ⟨g, hg, hl⟩ := List.mem_flatMap.mp hl
  obtain ⟨⟨f, hf, rfl⟩, -⟩ := mem_withSamples hg
  obtain ⟨keys, hkeys⟩ := hfits f hf
  exact hkeys.lines l hl

/-- What is found under the name of a group are the values of its calls with
these labels, in order. -/
theorem seriesValues_calls {lines : List PromLine} {fs : List Metric}
    (h : Blocks lines (withSamples fs)) (hnames : (fs.map Metric.name).Nodup) {f : Metric}
    (hf : f ∈ fs) (labels : Labels) :
    seriesValues lines f.name labels =
      f.samples.filterMap fun s =>
        if (cLabels s.1).Perm labels then some s.2.toNat else none := by
  cases hsamples : f.samples with
  | nil =>
      -- a group without calls leaves no family, and no other has its name
      refine h.seriesValues_none ?_ labels
      intro g hg hname
      obtain ⟨⟨f', hf', rfl⟩, hne⟩ := mem_withSamples hg
      obtain rfl : f' = f := List.inj_on_of_nodup_map hnames hf' hf hname
      exact hne (by rw [Metric.family, hsamples]; rfl)
  | cons s samples =>
      have hfamily : f.family ∈ withSamples fs := by
        refine List.mem_filter.mpr ⟨List.mem_map_of_mem hf, ?_⟩
        simp [Metric.family, hsamples]
      have hvalues := h.seriesValues_eq hfamily labels
      rw [Metric.family, List.filterMap_map, hsamples] at hvalues
      exact hvalues

/-- The value of a call is read back under its name and labels. -/
theorem seriesValues_call {lines : List PromLine} {fs : List Metric}
    (h : Exposes lines (withSamples fs)) {f : Metric} (hf : f ∈ fs) {s : Labels × UInt64}
    (hs : s ∈ f.samples) : seriesValues lines f.name (cLabels s.1) = [s.2.toNat] := by
  have hsample : (cLabels s.1, s.2.toNat) ∈ f.family.samples :=
    List.mem_map_of_mem (f := fun s : Labels × UInt64 => (cLabels s.1, s.2.toNat)) hs
  have hfamily : f.family ∈ withSamples fs := by
    refine List.mem_filter.mpr ⟨List.mem_map_of_mem hf, ?_⟩
    simpa using List.ne_nil_of_mem hsample
  exact h.seriesValues_eq hfamily hsample

/-! ## The groups of calls are good -/

/-- The state after construction. -/
def State.initial : State where
  totalFlows := 0
  totalErrors := 0
  flowsActive := 0
  mapEntries := 0
  bpfPackets := 0
  bpfBytes := 0
  bpfAccounted := 0
  bpfFlowsCreated := 0
  bpfDrops := 0
  bpfDropsUnparsed := 0
  mapLimit := 0
  devices := []
  devCounters := []

/-- A proper name and a plain help text. -/
def headerGood (name help : Bytes) : Bool :=
  isName isNameByte name && help.all fun b => b != 92 && b != 10

/-- The check on literals, character by character. -/
theorem headerGood_text {name help : List Char}
    (h : headerGood (name.map fun c => c.toNat.toUInt8) (help.map fun c => c.toNat.toUInt8) =
      true) :
    headerGood (text (String.ofList name)) (text (String.ofList help)) = true := by
  rwa [text, text, String.toList_ofList, String.toList_ofList]

theorem totals_headers (m : State) : ∀ t ∈ m.totals, headerGood t.name t.help = true := by
  simp only [State.totals, List.forall_mem_cons]
  refine ⟨?_, ?_, ?_, ?_, ?_, ?_, ?_, ?_, ?_, ?_, ?_, ?_, fun t ht => absurd ht List.not_mem_nil⟩
  all_goals exact headerGood_text (by decide +kernel)

theorem header_good {b : BuildInfo} {m : State} {f : Metric} (hf : f ∈ m.metrics b) :
    headerGood f.name f.help = true := by
  simp only [State.metrics, List.mem_cons, List.mem_append, List.mem_map, List.not_mem_nil,
    or_false] at hf
  rcases hf with rfl | ⟨t, ht, rfl⟩ | rfl | rfl | rfl
  · exact headerGood_text (by decide +kernel)
  · exact totals_headers m t ht
  · exact headerGood_text (by decide +kernel)
  · exact headerGood_text (by decide +kernel)
  · exact headerGood_text (by decide +kernel)

/-- The names do not depend on the state. -/
theorem names_nodup (b : BuildInfo) (m : State) : ((m.metrics b).map Metric.name).Nodup := by
  have hinitial : ((State.initial.metrics ⟨[], [], [], []⟩).map Metric.name).Nodup := by
    decide +kernel
  exact hinitial

/-- What `write` is given: attached names without duplicates, counters of
different devices or directions, and names without a NUL. -/
structure State.Valid (m : State) : Prop where
  hdevices : m.devices.Nodup
  hdeviceNames : ∀ d ∈ m.devices, 0 ∉ d
  hcounters : (m.devCounters.map fun d => (d.ifname, d.c.direction)).Nodup
  hcounterNames : ∀ d ∈ m.devCounters, 0 ∉ d.ifname
  hdirections : ∀ d ∈ m.devCounters, ∃ dir : Direction, d.c.direction = dir.code

theorem cString_eq_self {s : Bytes} (hs : 0 ∉ s) : cString s = s :=
  takeWhile_of_not_mem hs

theorem cString_className (cls : PktClass) : cString (className cls) = className cls := by
  cases cls <;> decide

theorem cLabels_deviceLabels {d : DeviceCounters} (hd : 0 ∉ d.ifname) (cls : PktClass) :
    cLabels (deviceLabels d cls) = deviceLabels d cls := by
  have hingress : cString (text "ingress") = text "ingress" := by decide
  have hegress : cString (text "egress") = text "egress" := by decide
  by_cases hdir : d.c.direction = Direction.ingress.code
  · simp [cLabels, deviceLabels, hdir, hingress, cString_eq_self hd, cString_className]
  · simp [cLabels, deviceLabels, hdir, hegress, cString_eq_self hd, cString_className]

theorem className_injective {cls cls' : PktClass} (h : className cls = className cls') :
    cls = cls' := by
  cases cls <;> cases cls' <;> first | rfl | exact absurd h (by decide)

/-- Labels tell the device, the direction and the class. -/
theorem deviceLabels_injective {d d' : DeviceCounters} {cls cls' : PktClass}
    (hd : ∃ dir : Direction, d.c.direction = dir.code)
    (hd' : ∃ dir : Direction, d'.c.direction = dir.code)
    (h : deviceLabels d cls = deviceLabels d' cls') :
    (d.ifname, d.c.direction) = (d'.ifname, d'.c.direction) ∧ cls = cls' := by
  simp only [deviceLabels, List.cons.injEq, Prod.mk.injEq, true_and, and_true] at h
  obtain ⟨hname, hdir, hclass⟩ := h
  refine ⟨?_, className_injective hclass⟩
  obtain ⟨dir, hdir₁⟩ := hd
  obtain ⟨dir', hdir₂⟩ := hd'
  rw [hdir₁, hdir₂] at hdir ⊢
  rw [hname]
  cases dir <;> cases dir' <;> first | rfl | exact absurd hdir (by decide)

theorem classes_nodup : classes.Nodup := by
  decide

/-- No two samples of a device metric have one label list. -/
theorem deviceMetric_series {m : State} (hm : m.Valid) (name help : Bytes)
    (value : DeviceCounters → PktClass → UInt64) :
    ((m.deviceMetric name help value).samples.map fun s => cLabels s.1).Nodup := by
  have hlabels : ((m.deviceMetric name help value).samples.map fun s => cLabels s.1) =
      m.devCounters.flatMap fun d => classes.map fun cls => deviceLabels d cls := by
    simp only [State.deviceMetric, List.map_flatMap, List.map_map, Function.comp_def]
    exact List.flatMap_congr fun d hd =>
      List.map_congr_left fun cls _ => cLabels_deviceLabels (hm.hcounterNames d hd) cls
  rw [hlabels, List.Nodup, List.pairwise_flatMap]
  refine ⟨?_, ?_⟩
  · intro d hd
    rw [List.pairwise_map]
    refine classes_nodup.imp fun hne heq => hne ?_
    exact (deviceLabels_injective (hm.hdirections d hd) (hm.hdirections d hd) heq).2
  · have hcounters := hm.hcounters
    rw [List.Nodup, List.pairwise_map] at hcounters
    refine hcounters.imp_of_mem fun {d d'} hd hd' hne x hx y hy heq => hne ?_
    obtain ⟨cls, -, rfl⟩ := List.mem_map.mp hx
    obtain ⟨cls', -, rfl⟩ := List.mem_map.mp hy
    exact (deviceLabels_injective (hm.hdirections d hd) (hm.hdirections d' hd') heq).1

def buildKeys : List Bytes := [text "version", text "commit", text "os", text "arch"]

def attachedKeys : List Bytes := [text "ifname"]

def deviceKeys : List Bytes := [text "ifname", text "direction", text "class"]

theorem keys_good {keys : List Bytes} (hkeys : keys ∈ [[], buildKeys, attachedKeys, deviceKeys]) :
    keys.Nodup ∧ ∀ key ∈ keys, isName isLabelByte key = true := by
  have hall : ∀ keys ∈ [[], buildKeys, attachedKeys, deviceKeys],
      keys.Nodup ∧ ∀ key ∈ keys, isName isLabelByte key = true := by
    decide +kernel
  exact hall keys hkeys

theorem deviceMetric_keys (m : State) (name help : Bytes)
    (value : DeviceCounters → PktClass → UInt64) :
    ∀ s ∈ (m.deviceMetric name help value).samples, s.1.map Prod.fst = deviceKeys := by
  intro s hs
  simp only [State.deviceMetric, List.mem_flatMap, List.mem_map] at hs
  obtain ⟨d, -, cls, -, rfl⟩ := hs
  rfl

/-- The label names of the calls of each group. -/
theorem samples_keys {b : BuildInfo} {m : State} {f : Metric} (hf : f ∈ m.metrics b) :
    ∃ keys ∈ [[], buildKeys, attachedKeys, deviceKeys],
      ∀ s ∈ f.samples, s.1.map Prod.fst = keys := by
  simp only [State.metrics, List.mem_cons, List.mem_append, List.mem_map, List.not_mem_nil,
    or_false] at hf
  rcases hf with rfl | ⟨t, -, rfl⟩ | rfl | rfl | rfl
  · exact ⟨buildKeys, by simp, by simp [buildMetric, buildLabels, buildKeys]⟩
  · exact ⟨[], by simp, by simp [Total.metric]⟩
  · exact ⟨attachedKeys, by simp, by simp [State.attachedMetric, attachedKeys]⟩
  · exact ⟨deviceKeys, by simp, deviceMetric_keys m _ _ _⟩
  · exact ⟨deviceKeys, by simp, deviceMetric_keys m _ _ _⟩

/-- Every state's groups of calls fit the grammar. -/
theorem metrics_fit {b : BuildInfo} {m : State} :
    ∀ f ∈ m.metrics b, ∃ keys, f.Fits keys := by
  intro f hf
  have hheader := header_good hf
  rw [headerGood, Bool.and_eq_true] at hheader
  obtain ⟨keys, hmem, hkeys⟩ := samples_keys hf
  obtain ⟨hnodup, hkeyNames⟩ := keys_good hmem
  exact ⟨keys, hheader.1, hheader.2, hkeys, hnodup, hkeyNames⟩

/-- No group of a valid state gives a label list twice. -/
theorem samples_series {b : BuildInfo} {m : State} (hm : m.Valid) {f : Metric}
    (hf : f ∈ m.metrics b) : (f.samples.map fun s => cLabels s.1).Nodup := by
  simp only [State.metrics, List.mem_cons, List.mem_append, List.mem_map, List.not_mem_nil,
    or_false] at hf
  rcases hf with rfl | ⟨t, -, rfl⟩ | rfl | rfl | rfl
  · simp [buildMetric]
  · simp [Total.metric]
  · rw [State.attachedMetric, List.map_map]
    refine hm.hdevices.map_on fun d hd d' hd' heq => ?_
    simp only [Function.comp_apply, cLabels, List.map_cons, List.map_nil, List.cons.injEq,
      Prod.mk.injEq, true_and, and_true] at heq
    rwa [cString_eq_self (hm.hdeviceNames d hd), cString_eq_self (hm.hdeviceNames d' hd')] at heq
  · exact deviceMetric_series hm _ _ _
  · exact deviceMetric_series hm _ _ _

theorem metrics_good {b : BuildInfo} {m : State} (hm : m.Valid) :
    ∀ f ∈ m.metrics b, ∃ keys, f.Good keys := by
  intro f hf
  obtain ⟨keys, hfits⟩ := metrics_fit f hf
  exact ⟨keys, hfits, samples_series hm hf⟩

/-- The families of the text. -/
def State.families (b : BuildInfo) (m : State) : List Family := withSamples (m.metrics b)

/-- The text of every state is an exposition that can be read. -/
theorem read_write (b : BuildInfo) (m : State) :
    readExposition (m.write b) = some ((m.families b).flatMap Family.lines) := by
  rw [write_eq, emit_all (names_nodup b m) fun _ _ => List.not_mem_nil]
  exact readExposition_bytes (fits_withSamples metrics_fit)

theorem mem_classes (cls : PktClass) : cls ∈ classes := by
  cases cls <;> decide

/-! ## Values of a text -/

section Values

variable {b : BuildInfo} {m : State} {lines : List PromLine}

theorem blocks_families (b : BuildInfo) (m : State) :
    Blocks ((m.families b).flatMap Family.lines) (m.families b) :=
  blocks_withSamples (names_nodup b m)

/-- A metric without labels is found with its value. -/
theorem seriesValues_total (h : Blocks lines (m.families b)) {t : Total} (ht : t ∈ m.totals) :
    seriesValues lines t.name [] = [t.value.toNat] := by
  have hmetric : t.metric ∈ m.metrics b :=
    List.mem_cons_of_mem _ (List.mem_append_left _ (List.mem_map_of_mem ht))
  exact seriesValues_calls h (names_nodup b m) hmetric []

theorem attachedMetric_mem (b : BuildInfo) (m : State) : m.attachedMetric ∈ m.metrics b :=
  List.mem_cons_of_mem _ (List.mem_append_right _ List.mem_cons_self)

theorem deviceMetrics_mem (b : BuildInfo) (m : State) :
    m.packetsMetric ∈ m.metrics b ∧ m.bytesMetric ∈ m.metrics b :=
  ⟨List.mem_cons_of_mem _ (List.mem_append_right _ (by simp)),
    List.mem_cons_of_mem _ (List.mem_append_right _ (by simp))⟩

/-- A device name is found once for each device that has it. -/
theorem seriesValues_attached (h : Blocks lines (m.families b)) (name : Bytes) :
    seriesValues lines (text "obserwrt_device_attached") [(text "ifname", name)] =
      List.replicate (m.devices.countP fun d => cString d = name) 1 := by
  have hvalues := seriesValues_calls h (names_nodup b m) (attachedMetric_mem b m)
    [(text "ifname", name)]
  refine hvalues.trans ?_
  rw [State.attachedMetric]
  generalize m.devices = devices
  induction devices with
  | nil => rfl
  | cons d devices ih =>
      rw [List.map_cons, List.filterMap_cons, List.countP_cons, ih]
      by_cases hd : cString d = name
      · simp [cLabels, hd, List.replicate_succ]
      · simp [cLabels, hd]

/-- Two entries are shown under the same labels. -/
def SameSeries (c d : DeviceCounters) : Prop :=
  cString c.ifname = cString d.ifname ∧
    (c.c.direction = Direction.ingress.code ↔ d.c.direction = Direction.ingress.code)

instance (c d : DeviceCounters) : Decidable (SameSeries c d) :=
  inferInstanceAs (Decidable (_ ∧ _))

theorem cLabels_deviceLabels_iff {c d : DeviceCounters} {cls cls' : PktClass} :
    cLabels (deviceLabels c cls') = cLabels (deviceLabels d cls) ↔
      cls' = cls ∧ SameSeries c d := by
  have hclass : className cls' = className cls ↔ cls' = cls :=
    ⟨className_injective, congrArg className⟩
  have hdirections : cString (text "ingress") ≠ cString (text "egress") := by decide
  by_cases hc : c.c.direction = Direction.ingress.code
  · by_cases hd : d.c.direction = Direction.ingress.code
    · simp [cLabels, deviceLabels, SameSeries, hc, hd, cString_className, hclass, and_comm]
    · simp [cLabels, deviceLabels, SameSeries, hc, hd, cString_className, hdirections]
  · by_cases hd : d.c.direction = Direction.ingress.code
    · simp [cLabels, deviceLabels, SameSeries, hc, hd, cString_className, hdirections.symm]
    · simp [cLabels, deviceLabels, SameSeries, hc, hd, cString_className, hclass, and_comm]

/-- The counters of a device, direction and class are found under its labels,
with those of every other entry that has the same labels. -/
theorem seriesValues_entries (h : Blocks lines (m.families b)) {name help : Bytes}
    {value : DeviceCounters → PktClass → UInt64}
    (hmetric : m.deviceMetric name help value ∈ m.metrics b) {d : DeviceCounters}
    (hd : d ∈ m.devCounters) (cls : PktClass) :
    seriesValues lines name (cLabels (deviceLabels d cls)) =
      (m.devCounters.filter fun c => SameSeries c d).map fun c => (value c cls).toNat := by
  have hsample : (deviceLabels d cls, value d cls) ∈ (m.deviceMetric name help value).samples :=
    List.mem_flatMap.mpr ⟨d, hd, List.mem_map.mpr ⟨cls, mem_classes cls, rfl⟩⟩
  obtain ⟨keys, hfits⟩ := metrics_fit _ hmetric
  have hvalues := seriesValues_calls h (names_nodup b m) hmetric (cLabels (deviceLabels d cls))
  rw [List.filterMap_congr fun s hs => if_congr (hfits.perm_iff hs hsample) rfl rfl] at hvalues
  refine hvalues.trans ?_
  rw [State.deviceMetric, List.filterMap_flatMap]
  -- entry by entry, of whose four calls at most one has the labels
  generalize m.devCounters = counters
  induction counters with
  | nil => rfl
  | cons c counters ih =>
      rw [List.flatMap_cons, ih, List.filterMap_map, List.filter_cons]
      simp only [Function.comp_def, cLabels_deviceLabels_iff]
      by_cases hsame : SameSeries c d
      · cases cls <;> simp [classes, hsame]
      · simp [hsame]

/-- The samples of a device metric are read back. -/
theorem seriesValues_device (hm : m.Valid) (h : Exposes lines (m.families b)) {name help : Bytes}
    {value : DeviceCounters → PktClass → UInt64}
    (hmetric : m.deviceMetric name help value ∈ m.metrics b) {d : DeviceCounters}
    (hd : d ∈ m.devCounters) (cls : PktClass) :
    seriesValues lines name (deviceLabels d cls) = [(value d cls).toNat] := by
  have hsample : (deviceLabels d cls, value d cls) ∈ (m.deviceMetric name help value).samples :=
    List.mem_flatMap.mpr ⟨d, hd, List.mem_map.mpr ⟨cls, mem_classes cls, rfl⟩⟩
  have hvalue := seriesValues_call h hmetric hsample
  rwa [cLabels_deviceLabels (hm.hcounterNames d hd)] at hvalue

end Values

/-- **The Prometheus text is valid and decodable.**  For every state of the
metrics the text of `write` reads as an exposition of its families: the lines
about a family are one block of a `# HELP` line, a `# TYPE` line and all its
samples, and no two samples have the same name and label set.  Every metric
without labels, every attached device and all four classes of every device and
direction are found under their own name, with the value of the state. -/
theorem write_decodes (b : BuildInfo) (m : State) (hm : m.Valid) :
    ∃ lines,
      readExposition (m.write b) = some lines ∧
      Exposes lines (m.families b) ∧
      (∀ f ∈ m.families b, ∃ before after, lines = before ++ f.lines ++ after ∧
        ∀ l ∈ before ++ after, l.metric ≠ f.name) ∧
      seriesValues lines (text "obserwrt_build_info") (cLabels (buildLabels b)) = [1] ∧
      (∀ t ∈ m.totals, seriesValues lines t.name [] = [t.value.toNat]) ∧
      (∀ d ∈ m.devices,
        seriesValues lines (text "obserwrt_device_attached") [(text "ifname", d)] = [1]) ∧
      ∀ d ∈ m.devCounters, ∀ cls : PktClass,
        seriesValues lines (text "obserwrt_device_packets_total") (deviceLabels d cls) =
            [(d.c.packets cls).toNat] ∧
          seriesValues lines (text "obserwrt_device_bytes_total") (deviceLabels d cls) =
            [(d.c.bytes cls).toNat] := by
  have hexposes : Exposes ((m.families b).flatMap Family.lines) (m.families b) :=
    exposes_withSamples (names_nodup b m) (metrics_good hm)
  refine ⟨_, read_write b m, hexposes, fun f hf => hexposes.block hf, ?_, ?_, ?_, ?_⟩
  · exact seriesValues_call hexposes (f := buildMetric b) List.mem_cons_self
      (s := (buildLabels b, 1)) List.mem_cons_self
  · exact fun t ht => seriesValues_total hexposes.blocks ht
  · intro d hd
    have hsample : ([(text "ifname", d)], 1) ∈ m.attachedMetric.samples :=
      List.mem_map.mpr ⟨d, hd, rfl⟩
    have hvalue := seriesValues_call hexposes (attachedMetric_mem b m) hsample
    rwa [cLabels, List.map_cons, cString_eq_self (hm.hdeviceNames d hd)] at hvalue
  · intro d hd cls
    exact ⟨seriesValues_device hm hexposes (deviceMetrics_mem b m).1 hd cls,
      seriesValues_device hm hexposes (deviceMetrics_mem b m).2 hd cls⟩

/-- Counters of a device whose name needs every escape. -/
def oddDevice (direction : Direction) : DeviceCounters where
  ifname := text "a\\\"\n"
  c := {
    packets := fun cls => if cls = .arp then 7 else 100
    bytes := fun _ => 420
    ifindex := 2
    direction := direction.code }

def oddState : State :=
  { State.initial with
    totalFlows := 4
    devices := [text "a\\\"\n", text "eth0"]
    devCounters := [oddDevice .ingress, oddDevice .egress] }

theorem oddState_valid : oddState.Valid where
  hdevices := by decide
  hdeviceNames := by decide
  hcounters := by decide
  hcounterNames := by decide
  hdirections d hd := by
    simp only [oddState, List.mem_cons, List.not_mem_nil, or_false] at hd
    rcases hd with rfl | rfl
    · exact ⟨.ingress, rfl⟩
    · exact ⟨.egress, rfl⟩

theorem write_decodes_odd_names :
    ∃ lines,
      readExposition (oddState.write ⟨text "1.0", [], text "linux", text "x86_64"⟩) = some lines ∧
      seriesValues lines (text "obserwrt_device_packets_total")
        (deviceLabels (oddDevice .egress) .arp) = [7] := by
  obtain ⟨lines, hread, -, -, -, -, -, hdevices⟩ :=
    write_decodes ⟨text "1.0", [], text "linux", text "x86_64"⟩ oddState oddState_valid
  refine ⟨lines, hread, ?_⟩
  exact (hdevices (oddDevice .egress) (by simp [oddState]) .arp).1

end Metrics
end Obserwrt
