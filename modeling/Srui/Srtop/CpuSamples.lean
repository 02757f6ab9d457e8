import Srui.Basic.Machine
import Srui.Srtop.Sources

/-!
One-shot reader over a process filesystem, and the CPU baselines it carries from one scan to
the next.

What a scan reads is given as data: each file's parsed contents, or how reading it failed. Of
a record's name and counters only their parsed form is used.
-/

namespace Srui.Srtop.CpuSamples

open Std Basic.Machine Srtop.Sources

/-! ### Process instances -/

structure Instance where
  pid : Nat
  startTicks : Nat
deriving DecidableEq, Repr

instance : Ord Instance := ⟨compareLex (compareOn Instance.pid) (compareOn Instance.startTicks)⟩

instance : TransOrd Instance :=
  inferInstanceAs (TransCmp (compareLex (compareOn Instance.pid) (compareOn Instance.startTicks)))

instance : LawfulEqOrd Instance where
  eq_of_compare := by
    intro a b h
    have hparts : compareLex (compareOn Instance.pid) (compareOn Instance.startTicks) a b = .eq := h
    rw [compareLex_eq_eq] at hparts
    rcases a with ⟨pid, startTicks⟩
    rcases b with ⟨pid', startTicks'⟩
    simp only [compareOn, Nat.compare_eq_eq] at hparts
    rw [hparts.1, hparts.2]

/-! ### CPU baselines -/

/-- One process instance's CPU counter at one sample. The clock reads in nanoseconds. -/
structure CpuBaseline where
  ticks : Nat
  readAt : Nat
deriving DecidableEq, Repr

/-- The counter delta and monotonic interval between two samples, or the state to publish
instead, with the baseline the next scan should use. -/
def intervalSince (previous : Option CpuBaseline) (current : CpuBaseline) :
    Except CpuUsage (Nat × Nat) × CpuBaseline :=
  match previous with
  | none => (.error .warmingUp, current)
  | some previous =>
    if current.readAt < previous.readAt then (.error (.missing .unavailable), current)
    else if current.readAt - previous.readAt = 0 then (.error (.missing .unavailable), previous)
    else if current.ticks < previous.ticks then (.error (.missing .unavailable), current)
    else (.ok (current.ticks - previous.ticks, current.readAt - previous.readAt), current)

def sampleCpu (previous : Option CpuBaseline) (current : CpuBaseline)
    (ticksPerSecond : Observed Nat) : CpuUsage × CpuBaseline :=
  let (usage, keep) := intervalSince previous current
  match usage, ticksPerSecond with
  | _, .missing reason => (.missing reason, keep)
  | .ok (ticks, elapsed), .known rate => (.measured ⟨ticks, rate, elapsed⟩, keep)
  | .error usage, .known _ => (usage, keep)

def identityChanged {α : Type} [DecidableEq α] (remembered : Option α) (observed : Observed α) :
    Option α × Bool :=
  match observed with
  | .missing _ => (remembered, false)
  | .known value => (some value, remembered.any (· ≠ value))

/-! ### System counters -/

structure SystemCpuCounters where
  busy : Nat
  idle : Nat
  cpus : Option Nat
deriving DecidableEq, Repr

def systemCpuSince (previous : Option SystemCpuCounters) (current : SystemCpuCounters) :
    SystemCpu :=
  match previous with
  | none => .warmingUp
  | some previous =>
    if previous.cpus ≠ current.cpus then .interrupted
    else if current.busy < previous.busy ∨ current.idle < previous.idle then .interrupted
    else
      match checkedAdd (current.busy - previous.busy) (current.idle - previous.idle) with
      | none => .interrupted
      | some 0 => .interrupted
      | some total => .measured ⟨current.busy - previous.busy, total, current.cpus⟩

/-! ### What a scan reads -/

structure StatFields where
  displayName : DisplayName
  startTicks : Nat
  cpuTicks : Option Nat
deriving DecidableEq, Repr

/-- Reading a record's `statm`. One that is gone may be confirmed as the exit of the process. -/
inductive StatmRead where
  | ended (confirmed : Bool)
  | refused (reason : MissingReason)
  | pages (resident : Option Nat)
deriving DecidableEq, Repr

/-- Reading a record's directory and its `stat`, with the clock right after it. -/
inductive RecordRead where
  | unopened (reason : Option MissingReason)
  | unread (reason : Option MissingReason)
  | stat (readAt : Nat) (fields : Option StatFields) (statm : StatmRead)
deriving DecidableEq, Repr

/-- One entry of the listing: not examined, or a name and what reading it as a record gives. -/
inductive Entry where
  | unexamined (reason : MissingReason)
  | named (name : List UInt8) (record : RecordRead)
deriving DecidableEq, Repr

structure Scan where
  sampledAt : Int
  host : Observed String
  boot : Observed String
  pidNamespace : Observed Nat
  pageSize : Observed Nat
  ticksPerSecond : Observed Nat
  stat : Figure SystemCpuCounters
  memory : Figure MemoryFigures
  swap : Figure SwapFigures
  uptime : Figure Nat
  load : Figure LoadAverages
  entries : Except MissingReason (List Entry)

/-! ### The source -/

structure ProcFsSource where
  source : String
  recordLimit : Nat
  uncertainLimit : Nat
  anchored : Bool
  cpuBaselines : ExtTreeMap Instance CpuBaseline
  cpuBoot : Option String
  cpuNamespace : Option Nat
  systemBaseline : Option SystemCpuCounters

def ProcFsSource.fresh (source : String) (recordLimit uncertainLimit : Nat) (anchored : Bool) :
    ProcFsSource where
  source := source
  recordLimit := recordLimit
  uncertainLimit := uncertainLimit
  anchored := anchored
  cpuBaselines := ∅
  cpuBoot := none
  cpuNamespace := none
  systemBaseline := none

def parsePid (name : List UInt8) : Option Nat :=
  if name = [] ∨ 10 < name.length ∨ ¬name.all (fun b => 48 ≤ b && b ≤ 57) then none
  else
    let pid := name.foldl (fun n b => n * 10 + (b.toNat - 48)) 0
    if 2 ^ 32 ≤ pid ∨ pid = 0 then none else some pid

def residentBytes : Observed Nat → Observed Nat → Observed Nat
  | .known pages, .known size =>
    if pages * size ≤ u64Max then .known (pages * size) else .missing .unavailable
  | .missing reason, _ => .missing reason
  | _, .missing reason => .missing reason

structure Reading where
  pid : Nat
  fields : StatFields
  readAt : Nat
  resident : Observed Nat
deriving DecidableEq, Repr

def Reading.instanceOf (reading : Reading) : Instance := ⟨reading.pid, reading.fields.startTicks⟩

/-- Why a record was not read: it is gone, or it is skipped for a reason. -/
inductive Unread where
  | vanished
  | skipped (reason : MissingReason)
deriving DecidableEq, Repr

/-- The reads of one record: its directory, its `stat`, its `statm`. -/
def readRecord (pid : Nat) : RecordRead → Except Unread Reading
  | .unopened none => .error .vanished
  | .unopened (some reason) => .error (.skipped reason)
  | .unread none => .error .vanished
  | .unread (some reason) => .error (.skipped reason)
  | .stat _ none _ => .error (.skipped .unavailable)
  | .stat readAt (some fields) statm =>
    match statm with
    | .ended true => .error .vanished
    | .ended false => .ok ⟨pid, fields, readAt, .missing .unavailable⟩
    | .refused reason => .ok ⟨pid, fields, readAt, .missing reason⟩
    | .pages (some resident) => .ok ⟨pid, fields, readAt, .known resident⟩
    | .pages none => .ok ⟨pid, fields, readAt, .missing .unavailable⟩

structure Listing where
  records : List ProcessRecord := []
  baselines : ExtTreeMap Instance CpuBaseline := ∅
  vanished : Nat := 0
  skipped : PidLedger
  capped : PidLedger
  issues : List EnumerationIssue

def sampleReading (source : ProcFsSource) (scan : Scan) (reading : Reading) :
    CpuUsage × Option CpuBaseline :=
  match reading.fields.cpuTicks with
  | some ticks =>
    let (usage, keep) := sampleCpu source.cpuBaselines[reading.instanceOf]?
      ⟨ticks, reading.readAt⟩ scan.ticksPerSecond
    (usage, some keep)
  | none => (.missing .unavailable, none)

def recordOf (source : ProcFsSource) (scan : Scan) (reading : Reading) : ProcessRecord where
  key := {
    source := source.source
    host := scan.host
    boot := scan.boot
    pidNamespace := scan.pidNamespace
    pid := .known reading.pid
    creation := .linuxBootTicks reading.fields.startTicks }
  displayName := reading.fields.displayName
  resident := residentBytes reading.resident scan.pageSize
  cpu := (sampleReading source scan reading).1

def keepBaseline (source : ProcFsSource) (scan : Scan)
    (baselines : ExtTreeMap Instance CpuBaseline) (reading : Reading) :
    ExtTreeMap Instance CpuBaseline :=
  match (sampleReading source scan reading).2 with
  | some keep => baselines.insert reading.instanceOf keep
  | none => baselines

def examine (source : ProcFsSource) (scan : Scan) (listing : Listing) : Entry → Listing
  | .unexamined reason =>
    { listing with
      skipped := listing.skipped.unnamed
      issues := recordIssue listing.issues ⟨.entry, reason⟩ }
  | .named name record =>
    match parsePid name with
    | none => listing
    | some pid =>
      if source.recordLimit ≤ listing.records.length then
        let capped := listing.capped.record pid
        { listing with
          capped := capped
          issues :=
            if capped.count = 1 then recordIssue listing.issues ⟨.limit, .unavailable⟩
            else listing.issues }
      else
        match readRecord pid record with
        | .error .vanished => { listing with vanished := listing.vanished + 1 }
        | .error (.skipped reason) =>
          { listing with
            skipped := listing.skipped.record pid
            issues := recordIssue listing.issues ⟨.process pid, reason⟩ }
        | .ok reading =>
          { listing with
            records := listing.records ++ [recordOf source scan reading]
            baselines := keepBaseline source scan listing.baselines reading }

/-- `ProcFsSource::system_sample`, with the baseline it leaves. -/
def systemSample (baseline : Option SystemCpuCounters) (scan : Scan) :
    SystemSample × Option SystemCpuCounters :=
  let (cpu, baseline) : SystemCpu × Option SystemCpuCounters :=
    match scan.stat with
    | .ok current => (systemCpuSince baseline current, some current)
    | .error gap => (.missing gap, none)
  (⟨cpu, scan.memory, scan.swap, scan.uptime, scan.load⟩, baseline)

def identityIssue {α : Type} (issues : List EnumerationIssue) (scope : IssueScope)
    (observed : Observed α) : List EnumerationIssue :=
  match observed with
  | .known _ => issues
  | .missing reason => recordIssue issues ⟨scope, reason⟩

/-- The PIDs of a record; `u32::MAX` for one that has none. -/
def sortPid (record : ProcessRecord) : Nat :=
  match record.key.pid with
  | .known pid => pid
  | .missing _ => 2 ^ 32 - 1

/-- The source once the scan has observed the global identity: baselines taken under another
boot or PID namespace count other process instances. -/
def observeIdentity (source : ProcFsSource) (scan : Scan) : ProcFsSource :=
  let boot := identityChanged source.cpuBoot scan.boot
  let pidNamespace := identityChanged source.cpuNamespace scan.pidNamespace
  { source with
    cpuBoot := boot.1
    cpuNamespace := pidNamespace.1
    cpuBaselines := if boot.2 || pidNamespace.2 then ∅ else source.cpuBaselines
    systemBaseline := if boot.2 then none else source.systemBaseline }

def openListing (source : ProcFsSource) (scan : Scan) : Listing where
  skipped := .withLimit (min source.recordLimit source.uncertainLimit)
  capped := .withLimit source.uncertainLimit
  issues := identityIssue (identityIssue (identityIssue [] .hostIdentity scan.host)
    .bootIdentity scan.boot) .pidNamespace scan.pidNamespace

/-- `ProcFsSource::snapshot`. -/
def snapshot (source : ProcFsSource) (scan : Scan) : ProcFsSource × ProcessSnapshot :=
  if source.anchored = false then
    (source, {
      source := source.source
      sampledAt := scan.sampledAt
      records := []
      vanished := 0
      capped := .none
      completeness := .fromScan .unenumerable [⟨.root, .unavailable⟩]
      system := .missing (.unread .unavailable) })
  else
    let source := observeIdentity source scan
    let sampled := systemSample source.systemBaseline scan
    let source := { source with systemBaseline := sampled.2 }
    let opened := openListing source scan
    match scan.entries with
    | .error reason =>
      (source, {
        source := source.source
        sampledAt := scan.sampledAt
        records := []
        vanished := 0
        capped := opened.capped
        completeness := .fromScan opened.skipped.markUnenumerable
          (recordIssue opened.issues ⟨.root, reason⟩)
        system := sampled.1 })
    | .ok entries =>
      let listing := entries.foldl (examine source scan) opened
      ({ source with cpuBaselines := listing.baselines }, {
        source := source.source
        sampledAt := scan.sampledAt
        records := listing.records.mergeSort fun a b => decide (sortPid a ≤ sortPid b)
        vanished := listing.vanished
        capped := listing.capped
        completeness := .fromScan listing.skipped listing.issues
        system := sampled.1 })

end Srui.Srtop.CpuSamples
