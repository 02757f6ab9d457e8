import Srui.Basic.Runs
import Srui.Srtop.CpuSamples

/-!
CPU samples over whole histories of a process instance.

A scan carries each baseline on, replaces it by its own sample or drops it; a measured interval
reaches from the baseline that was carried to the scan's own sample.
-/

namespace Srui.Srtop.CpuSamples

open Std Basic.FiniteMaps Srtop.Sources

variable {source : ProcFsSource} {scan : Scan} {inst : Instance}

/-! ### One listing -/

def Entry.pid? : Entry → Option Nat
  | .unexamined _ => none
  | .named name _ => parsePid name

def Entry.reading? : Entry → Option Reading
  | .unexamined _ => none
  | .named name record => (parsePid name).bind fun pid => (readRecord pid record).toOption

def publishedReadings (limit : Nat) (entries : List Entry) : List Reading :=
  (entries.filterMap Entry.reading?).take limit

variable {reading : Reading}

theorem readRecord_pid {pid : Nat} {record : RecordRead} (h : readRecord pid record = .ok reading) :
    reading.pid = pid := by
  unfold readRecord at h
  split at h
  case h_6 =>
    split at h
    case h_1 => cases h
    all_goals exact (congrArg Reading.pid (Except.ok.inj h)).symm
  all_goals cases h

theorem reading_pid {entry : Entry} (h : entry.reading? = some reading) :
    entry.pid? = some reading.pid := by
  cases entry with
  | unexamined reason => cases h
  | named name record =>
    obtain ⟨pid, hpid, hread⟩ := Option.bind_eq_some_iff.mp h
    rw [Entry.pid?, hpid]
    rcases hok : readRecord pid record with e | reading'
    · rw [hok] at hread
      cases hread
    · rw [hok] at hread
      cases hread
      rw [readRecord_pid hok]

theorem listing_of_readings (source : ProcFsSource) (scan : Scan) (entries : List Entry)
    (listing : Listing) :
    (entries.foldl (examine source scan) listing).records =
        listing.records ++ (publishedReadings (source.recordLimit - listing.records.length)
          entries).map (recordOf source scan) ∧
      (entries.foldl (examine source scan) listing).baselines =
        (publishedReadings (source.recordLimit - listing.records.length) entries).foldl
          (keepBaseline source scan) listing.baselines := by
  induction entries generalizing listing with
  | nil => simp [publishedReadings]
  | cons entry rest ih =>
    -- An entry that publishes nothing leaves records and baselines as they are.
    have hkept (listing' : Listing) (hexamined : examine source scan listing entry = listing')
        (hrecords : listing'.records = listing.records)
        (hbaselines : listing'.baselines = listing.baselines)
        (hnone : publishedReadings (source.recordLimit - listing.records.length) (entry :: rest) =
          publishedReadings (source.recordLimit - listing.records.length) rest) :
        ((entry :: rest).foldl (examine source scan) listing).records =
            listing.records ++ (publishedReadings (source.recordLimit - listing.records.length)
              (entry :: rest)).map (recordOf source scan) ∧
          ((entry :: rest).foldl (examine source scan) listing).baselines =
            (publishedReadings (source.recordLimit - listing.records.length)
              (entry :: rest)).foldl (keepBaseline source scan) listing.baselines := by
      rw [List.foldl_cons, hexamined, hnone, ← hrecords, ← hbaselines]
      exact ih listing'
    have hunread (h : entry.reading? = none) :
        publishedReadings (source.recordLimit - listing.records.length) (entry :: rest) =
          publishedReadings (source.recordLimit - listing.records.length) rest := by
      rw [publishedReadings, publishedReadings, List.filterMap_cons_none h]
    cases entry with
    | unexamined reason => exact hkept _ rfl rfl rfl (hunread rfl)
    | named name record =>
      rcases hpid : parsePid name with - | pid
      · refine hkept listing (by simp only [examine, hpid]) rfl rfl (hunread ?_)
        rw [Entry.reading?, hpid]
        rfl
      rcases Nat.lt_or_ge listing.records.length source.recordLimit with hroom | hfull
      swap
      · have hexamined : examine source scan listing (.named name record) =
            { listing with
              capped := listing.capped.record pid
              issues :=
                if (listing.capped.record pid).count = 1 then
                  recordIssue listing.issues ⟨.limit, .unavailable⟩
                else listing.issues } := by
          simp only [examine, hpid, if_pos hfull]
        refine hkept _ hexamined rfl rfl ?_
        rw [Nat.sub_eq_zero_of_le hfull]
        rfl
      have hnot := Nat.not_le_of_lt hroom
      rcases hread : readRecord pid record with e | reading
      · have hnone : (Entry.named name record).reading? = none := by
          rw [Entry.reading?, hpid, Option.bind_some, hread]
          rfl
        rcases e with - | reason
        · have hexamined : examine source scan listing (.named name record) =
              { listing with vanished := listing.vanished + 1 } := by
            simp only [examine, hpid, if_neg hnot, hread]
          exact hkept _ hexamined rfl rfl (hunread hnone)
        · have hexamined : examine source scan listing (.named name record) =
              { listing with
                skipped := listing.skipped.record pid
                issues := recordIssue listing.issues ⟨.process pid, reason⟩ } := by
            simp only [examine, hpid, if_neg hnot, hread]
          exact hkept _ hexamined rfl rfl (hunread hnone)
      · have hsome : (Entry.named name record).reading? = some reading := by
          rw [Entry.reading?, hpid, Option.bind_some, hread]
          rfl
        obtain ⟨room, hroom'⟩ := Nat.exists_eq_succ_of_ne_zero (Nat.sub_ne_zero_of_lt hroom)
        have hrest : source.recordLimit - (listing.records.length + 1) = room := by omega
        have hcons : publishedReadings (source.recordLimit - listing.records.length)
            (Entry.named name record :: rest) = reading :: publishedReadings room rest := by
          rw [publishedReadings, List.filterMap_cons_some hsome, hroom', List.take_succ_cons]
          rfl
        have hexamined : examine source scan listing (.named name record) =
            { listing with
              records := listing.records ++ [recordOf source scan reading]
              baselines := keepBaseline source scan listing.baselines reading } := by
          simp only [examine, hpid, if_neg hnot, hread]
        have hih := ih { listing with
          records := listing.records ++ [recordOf source scan reading]
          baselines := keepBaseline source scan listing.baselines reading }
        simp only [List.length_append, List.length_singleton, hrest] at hih
        rw [List.foldl_cons, hexamined, hcons, List.map_cons, List.foldl_cons, hih.1, hih.2,
          List.append_assoc, List.singleton_append]
        exact ⟨rfl, rfl⟩

def ListsOnce (scan : Scan) : Prop :=
  ∀ entries, scan.entries = .ok entries → (entries.filterMap Entry.pid?).Nodup

theorem readings_nodup {entries : List Entry} (h : (entries.filterMap Entry.pid?).Nodup)
    (limit : Nat) : ((publishedReadings limit entries).map Reading.instanceOf).Nodup := by
  have hpids : ((entries.filterMap Entry.reading?).map Reading.pid).Sublist
      (entries.filterMap Entry.pid?) := by
    clear h
    induction entries with
    | nil => exact List.Sublist.slnil
    | cons entry rest ih =>
      rcases hreading : entry.reading? with - | reading
      · rw [List.filterMap_cons_none hreading]
        rcases hpid : entry.pid? with - | pid
        · rwa [List.filterMap_cons_none hpid]
        · rw [List.filterMap_cons_some hpid]
          exact ih.cons pid
      · rw [List.filterMap_cons_some hreading, List.filterMap_cons_some (reading_pid hreading),
          List.map_cons]
        exact ih.cons_cons reading.pid
  have htaken : ((publishedReadings limit entries).map Reading.pid).Nodup :=
    (hpids.nodup h).sublist ((List.take_sublist limit _).map Reading.pid)
  rw [List.Nodup, List.pairwise_map] at htaken ⊢
  exact htaken.imp fun hne heq => hne (congrArg Instance.pid heq)

theorem keepBaseline_lookup (baselines : ExtTreeMap Instance CpuBaseline) (reading : Reading)
    (inst : Instance) :
    (keepBaseline source scan baselines reading)[inst]? =
      if reading.instanceOf = inst then
        (sampleReading source scan reading).2.or baselines[inst]?
      else baselines[inst]? := by
  unfold keepBaseline
  rcases hkeep : (sampleReading source scan reading).2 with - | keep
  · simp only [Option.none_or, ite_self]
  · simp only [getElem?_put, Option.some_or]

variable {base : CpuBaseline}

theorem keepBaselines_origin {readings : List Reading} {baselines : ExtTreeMap Instance CpuBaseline}
    (h : (readings.foldl (keepBaseline source scan) baselines)[inst]? = some base) :
    (∃ reading ∈ readings, reading.instanceOf = inst ∧
      (sampleReading source scan reading).2 = some base) ∨ baselines[inst]? = some base := by
  induction readings generalizing baselines with
  | nil => exact .inr h
  | cons reading rest ih =>
    rcases ih h with ⟨later, hmem, hlater⟩ | hkept
    · exact .inl ⟨later, List.mem_cons_of_mem reading hmem, hlater⟩
    rw [keepBaseline_lookup] at hkept
    split_ifs at hkept with hinst
    · rcases Option.or_eq_some_iff.mp hkept with hleft | ⟨-, hbefore⟩
      · exact .inl ⟨reading, List.mem_cons_self, hinst, hleft⟩
      · exact .inr hbefore
    · exact .inr hkept

theorem keepBaselines_of_absent {readings : List Reading}
    (h : ∀ reading ∈ readings, reading.instanceOf ≠ inst)
    (baselines : ExtTreeMap Instance CpuBaseline) :
    (readings.foldl (keepBaseline source scan) baselines)[inst]? = baselines[inst]? := by
  induction readings generalizing baselines with
  | nil => rfl
  | cons reading rest ih =>
    rw [List.foldl_cons, ih fun later hlater => h later (List.mem_cons_of_mem reading hlater),
      keepBaseline_lookup, if_neg (h reading List.mem_cons_self)]

theorem keepBaselines_of_mem {readings : List Reading}
    (hnodup : (readings.map Reading.instanceOf).Nodup) (hmem : reading ∈ readings)
    {keep : CpuBaseline} (hkeep : (sampleReading source scan reading).2 = some keep)
    (baselines : ExtTreeMap Instance CpuBaseline) :
    (readings.foldl (keepBaseline source scan) baselines)[reading.instanceOf]? = some keep := by
  induction readings generalizing baselines with
  | nil => cases hmem
  | cons head rest ih =>
    rw [List.map_cons, List.nodup_cons] at hnodup
    rw [List.foldl_cons]
    rcases List.mem_cons.mp hmem with rfl | hlater
    · have habsent : ∀ later ∈ rest, later.instanceOf ≠ reading.instanceOf :=
        fun later hlater heq => hnodup.1 (List.mem_map.mpr ⟨later, hlater, heq⟩)
      rw [keepBaselines_of_absent habsent, keepBaseline_lookup, if_pos rfl, hkeep]
      rfl
    · exact ih hnodup.2 hlater _

/-! ### One sample -/

variable {current : CpuBaseline} {previous : Option CpuBaseline}

theorem intervalSince_ok {ticks elapsed : Nat}
    (h : (intervalSince previous current).1 = .ok (ticks, elapsed)) :
    (∃ base, previous = some base ∧ base.readAt < current.readAt ∧
      current.readAt = base.readAt + elapsed ∧ current.ticks = base.ticks + ticks) ∧
      (intervalSince previous current).2 = current := by
  rcases previous with - | base
  · cases h
  unfold intervalSince at h ⊢
  simp only at h ⊢
  split_ifs at h ⊢ with hback hstill hless
  have hpair := Except.ok.inj h
  rw [Prod.mk.injEq] at hpair
  exact ⟨⟨base, rfl, by omega, by omega, by omega⟩, rfl⟩

theorem intervalSince_error {usage : CpuUsage}
    (h : (intervalSince previous current).1 = .error usage) :
    usage = .warmingUp ∨ usage = .missing .unavailable := by
  rcases previous with - | base
  · exact .inl (Except.error.inj h).symm
  unfold intervalSince at h
  simp only at h
  split_ifs at h
  all_goals exact .inr (Except.error.inj h).symm

theorem intervalSince_keep (previous : Option CpuBaseline) (current : CpuBaseline) :
    (intervalSince previous current).2 = current ∨
      ∃ base, previous = some base ∧ base.readAt = current.readAt ∧
        (intervalSince previous current).2 = base := by
  rcases previous with - | base
  · exact .inl rfl
  unfold intervalSince
  simp only
  split_ifs with hback hstill hless
  · exact .inl rfl
  · exact .inr ⟨base, rfl, by omega, rfl⟩
  · exact .inl rfl
  · exact .inl rfl

theorem intervalSince_advanced (hclock : base.readAt < current.readAt)
    (hticks : base.ticks ≤ current.ticks) :
    intervalSince (some base) current =
      (.ok (current.ticks - base.ticks, current.readAt - base.readAt), current) := by
  unfold intervalSince
  simp only
  rw [if_neg (by omega), if_neg (by omega), if_neg (by omega)]

theorem intervalSince_still (hclock : base.readAt = current.readAt) :
    (intervalSince (some base) current).2 = base := by
  unfold intervalSince
  simp only
  rw [if_neg (by omega), if_pos (by omega)]

theorem sampleCpu_keep (previous : Option CpuBaseline) (current : CpuBaseline)
    (rate : Observed Nat) :
    (sampleCpu previous current rate).2 = (intervalSince previous current).2 := by
  unfold sampleCpu
  rcases intervalSince previous current with ⟨usage, keep⟩
  cases rate with
  | missing reason => rfl
  | known rate => cases usage <;> rfl

variable {interval : CpuInterval}

theorem sampleCpu_measured {rate : Observed Nat}
    (h : (sampleCpu previous current rate).1 = .measured interval) :
    (intervalSince previous current).1 = .ok (interval.ticks, interval.elapsed) ∧
      rate = .known interval.ticksPerSecond := by
  unfold sampleCpu at h
  rcases hsince : intervalSince previous current with ⟨usage, keep⟩
  rw [hsince] at h
  cases rate with
  | missing reason => cases h
  | known rate =>
    cases usage with
    | ok measured =>
      cases h
      exact ⟨rfl, rfl⟩
    | error usage =>
      have hgap : usage = .warmingUp ∨ usage = .missing .unavailable :=
        intervalSince_error (by rw [hsince])
      change usage = .measured interval at h
      rcases hgap with hgap | hgap
      · rw [hgap] at h
        cases h
      · rw [hgap] at h
        cases h

/-! ### One scan -/

def ProcFsSource.observing (source : ProcFsSource) (scan : Scan) : ProcFsSource :=
  let observed := observeIdentity source scan
  { observed with systemBaseline := (systemSample observed.systemBaseline scan).2 }

def ProcFsSource.readings (source : ProcFsSource) (scan : Scan) : List Reading :=
  match source.anchored, scan.entries with
  | true, .ok entries => publishedReadings source.recordLimit entries
  | _, _ => []

def ProcFsSource.scanned (source : ProcFsSource) (scan : Scan) : ProcFsSource :=
  (snapshot source scan).1

theorem snapshot_unanchored (h : source.anchored = false) :
    source.scanned scan = source ∧ (snapshot source scan).2.records = [] := by
  unfold ProcFsSource.scanned snapshot
  rw [if_pos h]
  exact ⟨rfl, rfl⟩

theorem snapshot_failed (h : source.anchored = true) {reason : MissingReason}
    (hentries : scan.entries = .error reason) :
    source.scanned scan = source.observing scan ∧ (snapshot source scan).2.records = [] := by
  unfold ProcFsSource.scanned snapshot
  rw [if_neg (by rw [h]; exact Bool.noConfusion)]
  simp only [hentries]
  exact ⟨rfl, trivial⟩

theorem snapshot_listed (h : source.anchored = true) {entries : List Entry}
    (hentries : scan.entries = .ok entries) :
    source.scanned scan = { source.observing scan with
        cpuBaselines := (source.readings scan).foldl (keepBaseline (source.observing scan) scan) ∅ } ∧
      ∀ record, record ∈ (snapshot source scan).2.records ↔
        ∃ reading ∈ source.readings scan, recordOf (source.observing scan) scan reading = record := by
  have hreadings : source.readings scan = publishedReadings source.recordLimit entries := by
    unfold ProcFsSource.readings
    rw [h, hentries]
  obtain ⟨hrecords, hbaselines⟩ := listing_of_readings (source.observing scan) scan entries
    (openListing (source.observing scan) scan)
  have hlimit : (source.observing scan).recordLimit -
      (openListing (source.observing scan) scan).records.length = source.recordLimit := rfl
  rw [hlimit, ← hreadings] at hrecords hbaselines
  unfold ProcFsSource.scanned snapshot
  rw [if_neg (by rw [h]; exact Bool.noConfusion)]
  simp only [hentries]
  refine ⟨?_, fun record => ?_⟩
  · change { source.observing scan with cpuBaselines := (entries.foldl
      (examine (source.observing scan) scan) (openListing (source.observing scan) scan)).baselines } = _
    rw [hbaselines]
    rfl
  · rw [List.mem_mergeSort]
    change record ∈ (entries.foldl (examine (source.observing scan) scan)
      (openListing (source.observing scan) scan)).records ↔ _
    rw [hrecords]
    exact List.mem_map

/-- A scan observes no boot and no PID namespace other than the last ones observed. -/
def KeepsIdentity (source : ProcFsSource) (scan : Scan) : Prop :=
  source.anchored = true →
    (identityChanged source.cpuBoot scan.boot).2 = false ∧
      (identityChanged source.cpuNamespace scan.pidNamespace).2 = false

/-- A scan samples an instance: it publishes a record of it whose counters it read. -/
def Sampled (source : ProcFsSource) (scan : Scan) (inst : Instance) (sample : CpuBaseline) : Prop :=
  ∃ reading ∈ source.readings scan, reading.instanceOf = inst ∧
    reading.fields.cpuTicks = some sample.ticks ∧ reading.readAt = sample.readAt

def Measured (source : ProcFsSource) (scan : Scan) (inst : Instance) (interval : CpuInterval) :
    Prop :=
  ∃ record ∈ (snapshot source scan).2.records, record.key.pid = .known inst.pid ∧
    record.key.creation = .linuxBootTicks inst.startTicks ∧ record.cpu = .measured interval

theorem KeepsIdentity.observing (h : KeepsIdentity source scan)
    (hanchored : source.anchored = true) :
    (source.observing scan).cpuBaselines = source.cpuBaselines := by
  obtain ⟨hboot, hnamespace⟩ := h hanchored
  change (if (identityChanged source.cpuBoot scan.boot).2 ||
    (identityChanged source.cpuNamespace scan.pidNamespace).2 then ∅ else source.cpuBaselines) = _
  rw [hboot, hnamespace]
  rfl

theorem observing_baselines (h : ¬KeepsIdentity source scan) :
    (source.observing scan).cpuBaselines = ∅ := by
  have hchanged : ((identityChanged source.cpuBoot scan.boot).2 ||
      (identityChanged source.cpuNamespace scan.pidNamespace).2) = true := by
    by_contra hnot
    rw [Bool.not_eq_true, Bool.or_eq_false_iff] at hnot
    exact h fun _ => hnot
  change (if (identityChanged source.cpuBoot scan.boot).2 ||
    (identityChanged source.cpuNamespace scan.pidNamespace).2 then ∅ else source.cpuBaselines) = _
  rw [if_pos hchanged]

theorem carried_baseline (h : (source.observing scan).cpuBaselines[inst]? = some base) :
    KeepsIdentity source scan ∧ (source.anchored = true → source.cpuBaselines[inst]? = some base) := by
  by_cases hkeeps : KeepsIdentity source scan
  · refine ⟨hkeeps, fun hanchored => ?_⟩
    rwa [hkeeps.observing hanchored] at h
  · rw [observing_baselines hkeeps] at h
    cases h

theorem sampleReading_of_unread (h : reading.fields.cpuTicks = none) :
    sampleReading source scan reading = (.missing .unavailable, none) := by
  unfold sampleReading
  rw [h]

theorem sampleReading_of_read {ticks : Nat} (h : reading.fields.cpuTicks = some ticks) :
    (sampleReading source scan reading).1 = (sampleCpu source.cpuBaselines[reading.instanceOf]?
        ⟨ticks, reading.readAt⟩ scan.ticksPerSecond).1 ∧
      (sampleReading source scan reading).2 =
        some (intervalSince source.cpuBaselines[reading.instanceOf]? ⟨ticks, reading.readAt⟩).2 := by
  unfold sampleReading
  rw [h, ← sampleCpu_keep _ _ scan.ticksPerSecond]
  exact ⟨rfl, rfl⟩

theorem mem_readings (h : reading ∈ source.readings scan) :
    source.anchored = true ∧ ∃ entries, scan.entries = .ok entries ∧
      source.readings scan = publishedReadings source.recordLimit entries := by
  unfold ProcFsSource.readings at h ⊢
  split at h
  · rename_i entries hanchored hentries
    exact ⟨hanchored, entries, hentries, rfl⟩
  · cases h

theorem scanned_baseline (h : (source.scanned scan).cpuBaselines[inst]? = some base) :
    Sampled source scan inst base ∨
      source.cpuBaselines[inst]? = some base ∧ KeepsIdentity source scan := by
  rcases hanchored : source.anchored with - | -
  · rw [(snapshot_unanchored hanchored).1] at h
    exact .inr ⟨h, fun hthen => absurd hthen (by rw [hanchored]; exact Bool.noConfusion)⟩
  rcases hentries : scan.entries with reason | entries
  · rw [(snapshot_failed hanchored hentries).1] at h
    obtain ⟨hkeeps, hbefore⟩ := carried_baseline h
    exact .inr ⟨hbefore hanchored, hkeeps⟩
  rw [(snapshot_listed hanchored hentries).1] at h
  rcases keepBaselines_origin h with ⟨reading, hmem, hinst, hkeep⟩ | hempty
  swap
  · cases hempty
  rcases hticks : reading.fields.cpuTicks with - | ticks
  · rw [sampleReading_of_unread hticks] at hkeep
    cases hkeep
  rw [(sampleReading_of_read hticks).2, Option.some.injEq, hinst] at hkeep
  rcases intervalSince_keep (source.observing scan).cpuBaselines[inst]? ⟨ticks, reading.readAt⟩ with
    hcurrent | ⟨previous, hprevious, -, hheld⟩
  · rw [hcurrent] at hkeep
    exact .inl ⟨reading, hmem, hinst, by rw [← hkeep]; exact hticks, by rw [← hkeep]⟩
  · rw [hheld] at hkeep
    obtain ⟨hkeeps, hbefore⟩ := carried_baseline hprevious
    exact .inr ⟨hkeep ▸ hbefore hanchored, hkeeps⟩

theorem measured_iff :
    Measured source scan inst interval ↔
      ∃ reading ∈ source.readings scan, reading.instanceOf = inst ∧
        (sampleReading (source.observing scan) scan reading).1 = .measured interval := by
  constructor
  · rintro ⟨record, hrecord, hpid, hcreation, hcpu⟩
    rcases hanchored : source.anchored with - | -
    · rw [(snapshot_unanchored hanchored).2] at hrecord
      cases hrecord
    rcases hentries : scan.entries with reason | entries
    · rw [(snapshot_failed hanchored hentries).2] at hrecord
      cases hrecord
    obtain ⟨reading, hmem, rfl⟩ := ((snapshot_listed hanchored hentries).2 record).mp hrecord
    refine ⟨reading, hmem, ?_, hcpu⟩
    rcases inst with ⟨pid, startTicks⟩
    cases hpid
    cases hcreation
    rfl
  · rintro ⟨reading, hmem, hinst, hcpu⟩
    obtain ⟨hanchored, entries, hentries, -⟩ := mem_readings hmem
    have hrecord := ((snapshot_listed hanchored hentries).2 _).mpr ⟨reading, hmem, rfl⟩
    subst hinst
    exact ⟨_, hrecord, rfl, rfl, hcpu⟩

theorem nodup_readings (honce : ListsOnce scan) :
    ((source.readings scan).map Reading.instanceOf).Nodup := by
  unfold ProcFsSource.readings
  split
  · rename_i entries _ hentries
    exact readings_nodup (honce entries hentries) _
  · exact List.nodup_nil

theorem Measured.sample (h : Measured source scan inst interval) :
    KeepsIdentity source scan ∧ ∃ base current, source.cpuBaselines[inst]? = some base ∧
      Sampled source scan inst current ∧ base.readAt < current.readAt ∧
      current.readAt = base.readAt + interval.elapsed ∧
      current.ticks = base.ticks + interval.ticks ∧
      scan.ticksPerSecond = .known interval.ticksPerSecond ∧
      (ListsOnce scan → (source.scanned scan).cpuBaselines[inst]? = some current) := by
  obtain ⟨reading, hmem, hinst, hcpu⟩ := measured_iff.mp h
  obtain ⟨hanchored, entries, hentries, -⟩ := mem_readings hmem
  rcases hticks : reading.fields.cpuTicks with - | ticks
  · rw [sampleReading_of_unread hticks] at hcpu
    cases hcpu
  obtain ⟨husage, hkeep⟩ := @sampleReading_of_read (source.observing scan) scan _ _ hticks
  rw [husage, hinst] at hcpu
  obtain ⟨hinterval, hrate⟩ := sampleCpu_measured hcpu
  obtain ⟨⟨base, hbase, hclock, hreadAt, hcounter⟩, hcurrent⟩ := intervalSince_ok hinterval
  obtain ⟨hkeeps, hbefore⟩ := carried_baseline hbase
  refine ⟨hkeeps, base, ⟨ticks, reading.readAt⟩, hbefore hanchored,
    ⟨reading, hmem, hinst, hticks, rfl⟩, hclock, hreadAt, hcounter, hrate, fun honce => ?_⟩
  rw [(snapshot_listed hanchored hentries).1]
  rw [hinst, hcurrent] at hkeep
  rw [← hinst]
  exact keepBaselines_of_mem (nodup_readings honce) hmem hkeep ∅

/-- What restarts the account of an instance at a scan, or leaves an interval of it out: another
identity, no sample in a listing, a clock or a counter that went backwards, no tick rate. -/
inductive Resets (source : ProcFsSource) (scan : Scan) (inst : Instance) : Prop where
  | identity (h : ¬KeepsIdentity source scan)
  | unsampled (entries : List Entry) (hentries : scan.entries = .ok entries)
      (h : ∀ sample, ¬Sampled source scan inst sample)
  | clockBack (base current : CpuBaseline) (hbase : source.cpuBaselines[inst]? = some base)
      (hsampled : Sampled source scan inst current) (h : current.readAt < base.readAt)
  | counterBack (base current : CpuBaseline) (hbase : source.cpuBaselines[inst]? = some base)
      (hsampled : Sampled source scan inst current) (hclock : base.readAt < current.readAt)
      (h : current.ticks < base.ticks)
  | unrated (base current : CpuBaseline) (hbase : source.cpuBaselines[inst]? = some base)
      (hsampled : Sampled source scan inst current) (hclock : base.readAt < current.readAt)
      (reason : MissingReason) (h : scan.ticksPerSecond = .missing reason)

theorem held_or_measured (hbase : source.cpuBaselines[inst]? = some base) (honce : ListsOnce scan)
    (hsteady : ¬Resets source scan inst) :
    (∃ interval, Measured source scan inst interval) ∨
      (source.scanned scan).cpuBaselines[inst]? = some base := by
  rcases hanchored : source.anchored with - | -
  · rw [(snapshot_unanchored hanchored).1]
    exact .inr hbase
  have hkeeps : KeepsIdentity source scan := by
    by_contra h
    exact hsteady (.identity h)
  have hcarried : (source.observing scan).cpuBaselines[inst]? = some base := by
    rw [hkeeps.observing hanchored, hbase]
  rcases hentries : scan.entries with reason | entries
  · rw [(snapshot_failed hanchored hentries).1]
    exact .inr hcarried
  have hsampled : ∃ sample, Sampled source scan inst sample := by
    by_contra h
    exact hsteady (.unsampled entries hentries (not_exists.mp h))
  obtain ⟨current, reading, hmem, hinst, hticks, hreadAt⟩ := hsampled
  have hsample : Sampled source scan inst current := ⟨reading, hmem, hinst, hticks, hreadAt⟩
  obtain ⟨husage, hkeep⟩ := @sampleReading_of_read (source.observing scan) scan _ _ hticks
  rw [hinst, hcarried, hreadAt] at husage hkeep
  rcases Nat.lt_trichotomy base.readAt current.readAt with hclock | hstill | hback
  · have hcounter : base.ticks ≤ current.ticks := by
      by_contra hless
      exact hsteady (.counterBack base current hbase hsample hclock (Nat.lt_of_not_le hless))
    rcases hrate : scan.ticksPerSecond with rate | reason
    · left
      rw [sampleCpu, intervalSince_advanced hclock hcounter, hrate] at husage
      exact ⟨⟨current.ticks - base.ticks, rate, current.readAt - base.readAt⟩,
        measured_iff.mpr ⟨reading, hmem, hinst, husage⟩⟩
    · exact absurd (.unrated base current hbase hsample hclock reason hrate) hsteady
  · right
    rw [intervalSince_still hstill] at hkeep
    rw [(snapshot_listed hanchored hentries).1, ← hinst]
    exact keepBaselines_of_mem (nodup_readings honce) hmem hkeep ∅
  · exact absurd (.clockBack base current hbase hsample hback) hsteady

theorem Measured.unique {interval' : CpuInterval} (honce : ListsOnce scan)
    (h : Measured source scan inst interval) (h' : Measured source scan inst interval') :
    interval = interval' := by
  obtain ⟨-, base, current, hbase, -, -, hreadAt, hticks, hrate, hafter⟩ := h.sample
  obtain ⟨-, base', current', hbase', -, -, hreadAt', hticks', hrate', hafter'⟩ := h'.sample
  obtain rfl : base = base' := Option.some.inj (hbase.symm.trans hbase')
  obtain rfl : current = current' :=
    Option.some.inj ((hafter honce).symm.trans (hafter' honce))
  have hrates : Observed.known interval.ticksPerSecond = .known interval'.ticksPerSecond :=
    hrate.symm.trans hrate'
  rcases interval with ⟨ticks, rate, elapsed⟩
  rcases interval' with ⟨ticks', rate', elapsed'⟩
  simp only [Observed.known.injEq] at hrates
  simp only [CpuInterval.mk.injEq]
  simp only at hreadAt hreadAt' hticks hticks'
  exact ⟨by omega, hrates, by omega⟩

theorem failed_listing_keeps {reason : MissingReason} (hentries : scan.entries = .error reason)
    (hkeeps : KeepsIdentity source scan) :
    (source.scanned scan).cpuBaselines = source.cpuBaselines := by
  rcases hanchored : source.anchored with - | -
  · rw [(snapshot_unanchored hanchored).1]
  · rw [(snapshot_failed hanchored hentries).1, hkeeps.observing hanchored]

end Srui.Srtop.CpuSamples
