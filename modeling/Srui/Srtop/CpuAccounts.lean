import Srui.Srtop.CpuHistories

/-!
The CPU account of a process instance over a run of scans: which samples its measured intervals
reach between, and how two of them lie to each other.
-/

namespace Srui.Srtop.CpuSamples

open Std Basic.Runs Srtop.Sources

def ProcFsSource.after (source : ProcFsSource) (scans : List Scan) : ProcFsSource :=
  run ProcFsSource.scanned source scans

def SampledIn (source : ProcFsSource) (scans : List Scan) (inst : Instance)
    (sample : CpuBaseline) : Prop :=
  ∃ earlier scan later, scans = earlier ++ scan :: later ∧
    Sampled (source.after earlier) scan inst sample

/-- A boot or PID namespace observed at the earlier source is the last observed at the later. -/
structure SameIdentity (earlier later : ProcFsSource) : Prop where
  boot : ∀ boot, earlier.cpuBoot = some boot → later.cpuBoot = some boot
  pidNamespace : ∀ number, earlier.cpuNamespace = some number → later.cpuNamespace = some number

/-- An interval published by a scan reaches from a sample of an earlier scan to one of its own,
with no other identity observed between them, and counts what passed between the two. -/
structure Spans (first : ProcFsSource) (before : List Scan) (scan : Scan) (inst : Instance)
    (interval : CpuInterval) (base current : CpuBaseline) : Prop where
  origin : ∃ earlier sampling later, before = earlier ++ sampling :: later ∧
    Sampled (first.after earlier) sampling inst base ∧
    EveryStep ProcFsSource.scanned KeepsIdentity (first.after (earlier ++ [sampling]))
      (later ++ [scan]) ∧
    SameIdentity (first.after (earlier ++ [sampling])) (first.after (before ++ [scan]))
  sampled : Sampled (first.after before) scan inst current
  elapsed : 0 < interval.elapsed
  clock : current.readAt = base.readAt + interval.elapsed
  ticks : current.ticks = base.ticks + interval.ticks
  rate : scan.ticksPerSecond = .known interval.ticksPerSecond

variable {source first : ProcFsSource} {scan : Scan} {inst : Instance}

theorem ProcFsSource.after_append (source : ProcFsSource) (scans scans' : List Scan) :
    source.after (scans ++ scans') = (source.after scans).after scans' := run_append source scans scans'

theorem identityChanged_kept {α : Type} [DecidableEq α] {remembered : Option α}
    {observed : Observed α} {value : α} (hkept : (identityChanged remembered observed).2 = false)
    (h : remembered = some value) : (identityChanged remembered observed).1 = some value := by
  cases observed with
  | missing reason => exact h
  | known other =>
    subst h
    change decide (value ≠ other) = false at hkept
    rw [decide_eq_false_iff_not, not_not] at hkept
    rw [hkept]
    rfl

theorem scanned_identity (hanchored : source.anchored = true) :
    (source.scanned scan).cpuBoot = (identityChanged source.cpuBoot scan.boot).1 ∧
      (source.scanned scan).cpuNamespace =
        (identityChanged source.cpuNamespace scan.pidNamespace).1 := by
  rcases hentries : scan.entries with reason | entries
  · rw [(snapshot_failed hanchored hentries).1]
    exact ⟨rfl, rfl⟩
  · rw [(snapshot_listed hanchored hentries).1]
    exact ⟨rfl, rfl⟩

theorem KeepsIdentity.same (h : KeepsIdentity source scan) :
    SameIdentity source (source.scanned scan) := by
  rcases hanchored : source.anchored with - | -
  · rw [(snapshot_unanchored hanchored).1]
    exact ⟨fun _ h => h, fun _ h => h⟩
  obtain ⟨hboot, hnamespace⟩ := h hanchored
  obtain ⟨hboot', hnamespace'⟩ := @scanned_identity source scan hanchored
  refine ⟨fun boot hknown => ?_, fun number hknown => ?_⟩
  · rw [hboot']
    exact identityChanged_kept hboot hknown
  · rw [hnamespace']
    exact identityChanged_kept hnamespace hknown

variable {scans : List Scan}

theorem same_of_kept
    (h : EveryStep ProcFsSource.scanned KeepsIdentity source scans) :
    SameIdentity source (source.after scans) := by
  induction scans generalizing source with
  | nil => exact ⟨fun _ h => h, fun _ h => h⟩
  | cons scan rest ih =>
    have hstep := h.1.same
    have hrest := ih h.2
    exact ⟨fun boot hknown => hrest.boot boot (hstep.boot boot hknown),
      fun number hknown => hrest.pidNamespace number (hstep.pidNamespace number hknown)⟩

theorem baseline_origin {base : CpuBaseline}
    (h : (source.after scans).cpuBaselines[inst]? = some base) :
    (∃ earlier sampling later, scans = earlier ++ sampling :: later ∧
      Sampled (source.after earlier) sampling inst base ∧
      EveryStep ProcFsSource.scanned KeepsIdentity (source.after (earlier ++ [sampling])) later) ∨
      source.cpuBaselines[inst]? = some base ∧
        EveryStep ProcFsSource.scanned KeepsIdentity source scans := by
  have hstep (source : ProcFsSource) (scan : Scan) (base : CpuBaseline)
      (hheld : (source.scanned scan).cpuBaselines[inst]? = some base) :
      Sampled source scan inst base ∨
        source.cpuBaselines[inst]? = some base ∧ KeepsIdentity source scan :=
    scanned_baseline hheld
  have hrun := exists_origin
    (H := fun (source : ProcFsSource) base => source.cpuBaselines[inst]? = some base)
    (P := fun source scan base => Sampled source scan inst base) hstep scans h
  exact hrun

theorem Measured.spans (hempty : ∀ inst : Instance, first.cpuBaselines[inst]? = none)
    {before : List Scan} {interval : CpuInterval}
    (h : Measured (first.after before) scan inst interval) :
    ∃ base current, Spans first before scan inst interval base current ∧
      (first.after before).cpuBaselines[inst]? = some base ∧
      (ListsOnce scan → (first.after (before ++ [scan])).cpuBaselines[inst]? = some current) := by
  obtain ⟨hkeeps, base, current, hbase, hsampled, hlt, hclock, hticks, hrate, hafter⟩ := h.sample
  refine ⟨base, current, ?_, hbase, fun honce => ?_⟩
  · rcases baseline_origin hbase with ⟨earlier, sampling, later, rfl, hput, hkept⟩ | ⟨hstart, -⟩
    · have hlast : (first.after (earlier ++ [sampling])).after later =
          first.after (earlier ++ sampling :: later) := by
        rw [← ProcFsSource.after_append, List.append_assoc, List.singleton_append]
      have hall : EveryStep ProcFsSource.scanned KeepsIdentity
          (first.after (earlier ++ [sampling])) (later ++ [scan]) := by
        refine EveryStep.append.mpr ⟨hkept, ?_, trivial⟩
        change KeepsIdentity ((first.after (earlier ++ [sampling])).after later) scan
        rw [hlast]
        exact hkeeps
      have hsame := same_of_kept hall
      rw [ProcFsSource.after_append _ later, hlast,
        ← ProcFsSource.after_append] at hsame
      exact {
        origin := ⟨earlier, sampling, later, rfl, hput, hall, hsame⟩
        sampled := hsampled
        elapsed := by omega
        clock := hclock
        ticks := hticks
        rate := hrate }
    · rw [hempty inst] at hstart
      cases hstart
  · rw [ProcFsSource.after_append]
    exact hafter honce

theorem baseline_held {base : CpuBaseline}
    (hbase : source.cpuBaselines[inst]? = some base) (honce : ∀ scan ∈ scans, ListsOnce scan)
    (hsteady : EveryStep ProcFsSource.scanned (fun source scan =>
      ¬Resets source scan inst ∧ ∀ interval, ¬Measured source scan inst interval) source scans) :
    (source.after scans).cpuBaselines[inst]? = some base := by
  induction scans generalizing source with
  | nil => exact hbase
  | cons scan rest ih =>
    have hnext : (source.scanned scan).cpuBaselines[inst]? = some base := by
      rcases held_or_measured hbase (honce scan List.mem_cons_self) hsteady.1.1 with
        ⟨interval, hmeasured⟩ | hheld
      · exact absurd hmeasured (hsteady.1.2 interval)
      · exact hheld
    exact ih hnext (fun scan hscan => honce scan (List.mem_cons_of_mem _ hscan)) hsteady.2

/-- Over every run of scans from a source that has not scanned yet: each measured interval of a
process instance counts what passed between two of its samples, under one observed identity; of
two, the later starts at the earlier's last sample or at one taken since, so the two are disjoint
in clock time where no sample in between reads an earlier clock; with no reset and no interval in
between, the two are adjacent; one scan publishes one interval at most; and a failed listing that
observes no other identity leaves every baseline as it was. -/
theorem measured_intervals_account (name : String) (recordLimit uncertainLimit : Nat)
    (anchored : Bool) :
    let first : ProcFsSource := ProcFsSource.fresh name recordLimit uncertainLimit anchored
    (∀ before scan inst interval, Measured (first.after before) scan inst interval →
      ∃ base current, Spans first before scan inst interval base current) ∧
    (∀ before scan middle next inst interval interval',
      ListsOnce scan → (∀ scan ∈ middle, ListsOnce scan) →
      Measured (first.after before) scan inst interval →
      Measured (first.after (before ++ scan :: middle)) next inst interval' →
      ∃ base current base' current', Spans first before scan inst interval base current ∧
        Spans first (before ++ scan :: middle) next inst interval' base' current' ∧
        (base' = current ∨ SampledIn (first.after (before ++ [scan])) middle inst base') ∧
        ((∀ sample, SampledIn (first.after (before ++ [scan])) middle inst sample →
          current.readAt ≤ sample.readAt) → current.readAt ≤ base'.readAt) ∧
        (EveryStep ProcFsSource.scanned (fun source scan =>
            ¬Resets source scan inst ∧ ∀ interval, ¬Measured source scan inst interval)
          (first.after (before ++ [scan])) middle → base' = current)) ∧
    (∀ before scan inst interval interval', ListsOnce scan →
      Measured (first.after before) scan inst interval →
      Measured (first.after before) scan inst interval' → interval = interval') ∧
    (∀ before scan reason, scan.entries = .error reason →
      KeepsIdentity (first.after before) scan →
      (first.after (before ++ [scan])).cpuBaselines = (first.after before).cpuBaselines) := by
  intro first
  have hempty (inst : Instance) : first.cpuBaselines[inst]? = none := ExtTreeMap.getElem?_empty
  refine ⟨?_, ?_, ?_, ?_⟩
  · intro before scan inst interval hmeasured
    obtain ⟨base, current, hspans, -⟩ := hmeasured.spans hempty
    exact ⟨base, current, hspans⟩
  · intro before scan middle next inst interval interval' honce hmiddle hmeasured hmeasured'
    obtain ⟨base, current, hspans, -, hafter⟩ := hmeasured.spans hempty
    obtain ⟨base', current', hspans', hbefore, -⟩ := hmeasured'.spans hempty
    have hsplit : first.after (before ++ scan :: middle) =
        (first.after (before ++ [scan])).after middle := by
      rw [← ProcFsSource.after_append, List.append_assoc, List.singleton_append]
    rw [hsplit] at hbefore
    have horigin : base' = current ∨
        SampledIn (first.after (before ++ [scan])) middle inst base' := by
      rcases baseline_origin hbefore with ⟨earlier, sampling, later, hmid, hput, -⟩ | ⟨hstart, -⟩
      · exact .inr ⟨earlier, sampling, later, hmid, hput⟩
      · exact .inl (Option.some.inj (hstart.symm.trans (hafter honce)))
    refine ⟨base, current, base', current', hspans, hspans', horigin, fun hforward => ?_,
      fun hsteady => ?_⟩
    · rcases horigin with rfl | hlater
      · exact Nat.le_refl _
      · exact hforward base' hlater
    · have hheld := baseline_held (hafter honce) hmiddle hsteady
      exact Option.some.inj (hbefore.symm.trans hheld)
  · intro before scan inst interval interval' honce hmeasured hmeasured'
    exact hmeasured.unique honce hmeasured'
  · intro before scan reason hentries hkeeps
    rw [ProcFsSource.after_append]
    exact failed_listing_keeps hentries hkeeps

/-! ### Runs on fixed readings -/

instance {interval : CpuInterval} : Decidable (Measured source scan inst interval) :=
  decidable_of_iff (∃ reading ∈ source.readings scan, _ ∧ _) measured_iff.symm

def listed (rate : Observed Nat) (boot : Observed String)
    (entries : Except MissingReason (List (List UInt8 × Nat × Nat))) : Scan where
  sampledAt := 0
  host := .known "host"
  boot := boot
  pidNamespace := .known 1
  pageSize := .known 4096
  ticksPerSecond := rate
  stat := .error .unusable
  memory := .error .unusable
  swap := .error .unusable
  uptime := .error .unusable
  load := .error .unusable
  entries := entries.map fun entries => entries.map fun (name, readAt, ticks) =>
    .named name (.stat readAt (some ⟨⟨"name", none⟩, 1, some ticks⟩) (.pages (some 1)))

def reading (readAt ticks : Nat) : Scan :=
  listed (.known 100) (.known "boot") (.ok [([55], readAt, ticks)])

/-- Samples at 10, 20 and 30 give two adjacent intervals, and a failed listing forgets neither. -/
theorem three_samples_account :
    let first := ProcFsSource.fresh "proc" 4 4 true
    (∃ base current, Spans first [reading 10 100] (reading 20 110) ⟨7, 1⟩ ⟨10, 100, 10⟩
      base current) ∧
    (∃ base current base' current',
      Spans first [reading 10 100] (reading 20 110) ⟨7, 1⟩ ⟨10, 100, 10⟩ base current ∧
      Spans first [reading 10 100, reading 20 110] (reading 30 125) ⟨7, 1⟩ ⟨15, 100, 10⟩
        base' current' ∧ current.readAt ≤ base'.readAt ∧ base' = current) ∧
    (⟨10, 100, 10⟩ : CpuInterval) = ⟨10, 100, 10⟩ ∧
    (first.after ([reading 10 100] ++ [listed (.known 100) (.known "boot") (.error .unavailable)])
      ).cpuBaselines = (first.after [reading 10 100]).cpuBaselines := by
  intro first
  obtain ⟨hone, htwo, hunique, hfailed⟩ := measured_intervals_account "proc" 4 4 true
  have honce : ListsOnce (reading 20 110) := by
    intro entries hentries
    cases hentries
    decide +kernel
  have hfirst : Measured (first.after [reading 10 100]) (reading 20 110) ⟨7, 1⟩ ⟨10, 100, 10⟩ := by
    decide +kernel
  have hsecond : Measured (first.after [reading 10 100, reading 20 110]) (reading 30 125) ⟨7, 1⟩
      ⟨15, 100, 10⟩ := by
    decide +kernel
  obtain ⟨base, current, base', current', hspans, hspans', -, hforward, hadjacent⟩ :=
    htwo [reading 10 100] (reading 20 110) [] (reading 30 125) ⟨7, 1⟩ _ _ honce
      (fun _ hscan => absurd hscan List.not_mem_nil) hfirst hsecond
  refine ⟨hone _ _ _ _ hfirst, ⟨base, current, base', current', hspans, hspans', hforward ?_,
    hadjacent trivial⟩, hunique _ _ _ _ _ honce hfirst hfirst, hfailed _ _ .unavailable rfl ?_⟩
  · rintro sample ⟨earlier, scan, later, hsplit, -⟩
    cases earlier <;> cases hsplit
  · intro _
    decide +kernel

/-- With the clock read at 10, 20, 5 and 15, the two intervals published overlap; ticks counted
under an unknown rate are in no interval; a failed listing of another boot forgets the baselines;
an interval reaches back to before any boot was observed; and a PID listed under two names has
two intervals from one baseline. -/
theorem samples_not_accounted :
    let first := ProcFsSource.fresh "proc" 4 4 true
    (Measured (first.after [reading 10 100]) (reading 20 110) ⟨7, 1⟩ ⟨10, 100, 10⟩ ∧
      Measured (first.after [reading 10 100, reading 20 110, reading 5 120]) (reading 15 130)
        ⟨7, 1⟩ ⟨10, 100, 10⟩) ∧
    (let unrated := listed (.missing .unavailable) (.known "boot") (.ok [([55], 30, 120)]);
      (snapshot (first.after [reading 10 100, reading 20 110]) unrated).2.records.map (·.cpu) =
          [.missing .unavailable] ∧
        Measured (first.after [reading 10 100, reading 20 110, unrated]) (reading 40 130) ⟨7, 1⟩
          ⟨10, 100, 10⟩) ∧
    (let failed := listed (.known 100) (.known "other") (.error .unavailable);
      (first.after [reading 10 100]).cpuBaselines.isEmpty = false ∧
        (first.after [reading 10 100, failed]).cpuBaselines.isEmpty = true) ∧
    (let unobserved := listed (.known 100) (.missing .unavailable) (.ok [([55], 10, 100)]);
      (first.after [unobserved]).cpuBoot = none ∧
        (first.after [unobserved, reading 20 110]).cpuBoot = some "boot" ∧
        Measured (first.after [unobserved]) (reading 20 110) ⟨7, 1⟩ ⟨10, 100, 10⟩) ∧
    (let twice := listed (.known 100) (.known "boot") (.ok [([55], 20, 110), ([48, 55], 21, 112)]);
      Measured (first.after [reading 10 100]) twice ⟨7, 1⟩ ⟨10, 100, 10⟩ ∧
        Measured (first.after [reading 10 100]) twice ⟨7, 1⟩ ⟨12, 100, 11⟩) := by
  decide +kernel

end Srui.Srtop.CpuSamples
