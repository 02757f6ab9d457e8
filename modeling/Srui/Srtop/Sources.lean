import Srui.Basic.FiniteMaps

/-!
Process snapshots and the identities in them: what one scan of a source says, what it left
out, and which absences it accounts for.
-/

namespace Srui.Srtop.Sources

open Std

inductive MissingReason where
  | unavailable
  | denied
deriving DecidableEq, Repr

inductive Observed (α : Type) where
  | known (value : α)
  | missing (reason : MissingReason)
deriving DecidableEq, Repr

/-- The highest-resolution process creation token the source can observe. -/
inductive CreationToken where
  | linuxBootTicks (ticks : Nat)
  | opaqueToken (token : String)
deriving DecidableEq, Repr

structure ProcessKey where
  source : String
  host : Observed String
  boot : Observed String
  pidNamespace : Observed Nat
  pid : Observed Nat
  creation : CreationToken
deriving DecidableEq, Repr

/-! ### An order on keys, for the maps that hold them -/

def MissingReason.code : MissingReason → Nat
  | .unavailable => 0
  | .denied => 1

def Observed.value? {α : Type} : Observed α → Option α
  | .known value => some value
  | .missing _ => none

def Observed.reason? {α : Type} : Observed α → Option Nat
  | .known _ => none
  | .missing reason => some reason.code

def CreationToken.ticks? : CreationToken → Option Nat
  | .linuxBootTicks ticks => some ticks
  | .opaqueToken _ => none

def CreationToken.token? : CreationToken → Option String
  | .linuxBootTicks _ => none
  | .opaqueToken token => some token

theorem MissingReason.code_injective {a b : MissingReason} (h : a.code = b.code) : a = b := by
  cases a <;> cases b <;> first | rfl | cases h

theorem Observed.eq_of_parts {α : Type} {a b : Observed α} (hvalue : a.value? = b.value?)
    (hreason : a.reason? = b.reason?) : a = b := by
  rcases a with value | reason
  · rcases b with value' | reason'
    · rw [Option.some.inj hvalue]
    · cases hvalue
  · rcases b with value' | reason'
    · cases hreason
    · rw [MissingReason.code_injective (Option.some.inj hreason)]

theorem CreationToken.eq_of_parts {a b : CreationToken} (hticks : a.ticks? = b.ticks?)
    (htoken : a.token? = b.token?) : a = b := by
  rcases a with ticks | token
  · rcases b with ticks' | token'
    · rw [Option.some.inj hticks]
    · cases hticks
  · rcases b with ticks' | token'
    · cases htoken
    · rw [Option.some.inj htoken]

instance {α : Type} [Ord α] : Ord (Observed α) :=
  ⟨compareLex (compareOn Observed.value?) (compareOn Observed.reason?)⟩

instance {α : Type} [Ord α] [TransOrd α] : TransOrd (Observed α) :=
  inferInstanceAs (TransCmp (compareLex (compareOn Observed.value?) (compareOn Observed.reason?)))

instance {α : Type} [Ord α] [TransOrd α] [LawfulEqOrd α] : LawfulEqOrd (Observed α) where
  eq_of_compare := by
    intro a b h
    have hparts : compareLex (compareOn Observed.value?) (compareOn Observed.reason?) a b = .eq := h
    rw [compareLex_eq_eq] at hparts
    exact Observed.eq_of_parts (LawfulEqOrd.eq_of_compare hparts.1)
      (LawfulEqOrd.eq_of_compare hparts.2)

instance : Ord CreationToken :=
  ⟨compareLex (compareOn CreationToken.ticks?) (compareOn CreationToken.token?)⟩

instance : TransOrd CreationToken :=
  inferInstanceAs (TransCmp (compareLex (compareOn CreationToken.ticks?)
    (compareOn CreationToken.token?)))

instance : LawfulEqOrd CreationToken where
  eq_of_compare := by
    intro a b h
    have hparts : compareLex (compareOn CreationToken.ticks?) (compareOn CreationToken.token?)
        a b = .eq := h
    rw [compareLex_eq_eq] at hparts
    exact CreationToken.eq_of_parts (LawfulEqOrd.eq_of_compare hparts.1)
      (LawfulEqOrd.eq_of_compare hparts.2)

def compareKeys : ProcessKey → ProcessKey → Ordering :=
  compareLex (compareOn ProcessKey.source)
    (compareLex (compareOn ProcessKey.host)
      (compareLex (compareOn ProcessKey.boot)
        (compareLex (compareOn ProcessKey.pidNamespace)
          (compareLex (compareOn ProcessKey.pid) (compareOn ProcessKey.creation)))))

instance : Ord ProcessKey := ⟨compareKeys⟩

instance : TransOrd ProcessKey :=
  inferInstanceAs (TransCmp (compareLex (compareOn ProcessKey.source) _))

instance : LawfulEqOrd ProcessKey where
  eq_of_compare := by
    intro a b h
    have hfields : compareKeys a b = .eq := h
    simp only [compareKeys, compareLex_eq_eq] at hfields
    obtain ⟨hsource, hhost, hboot, hnamespace, hpid, hcreation⟩ := hfields
    rcases a with ⟨source, host, boot, pidNamespace, pid, creation⟩
    rcases b with ⟨source', host', boot', pidNamespace', pid', creation'⟩
    rw [ProcessKey.mk.injEq]
    exact ⟨LawfulEqOrd.eq_of_compare hsource, LawfulEqOrd.eq_of_compare hhost,
      LawfulEqOrd.eq_of_compare hboot, LawfulEqOrd.eq_of_compare hnamespace,
      LawfulEqOrd.eq_of_compare hpid, LawfulEqOrd.eq_of_compare hcreation⟩

/-! ### Records -/

/-- CPU time one process instance was scheduled for across one measured interval. The elapsed
time is in nanoseconds. -/
structure CpuInterval where
  ticks : Nat
  ticksPerSecond : Nat
  elapsed : Nat
deriving DecidableEq, Repr

/-- A process instance's CPU usage, which only exists between two samples. -/
inductive CpuUsage where
  | measured (interval : CpuInterval)
  | warmingUp
  | missing (reason : MissingReason)
deriving DecidableEq, Repr

structure DisplayName where
  name : String
  command : Option String
deriving DecidableEq, Repr

structure ProcessRecord where
  key : ProcessKey
  displayName : DisplayName
  resident : Observed Nat
  cpu : CpuUsage
deriving DecidableEq, Repr

inductive IssueScope where
  | root
  | entry
  | limit
  | hostIdentity
  | bootIdentity
  | pidNamespace
  | process (pid : Nat)
deriving DecidableEq, Repr

structure EnumerationIssue where
  scope : IssueScope
  reason : MissingReason
deriving DecidableEq, Repr

def maxRecordedIssues : Nat := 32

def recordIssue (issues : List EnumerationIssue) (issue : EnumerationIssue) :
    List EnumerationIssue :=
  if issues.length < maxRecordedIssues then issues ++ [issue] else issues

/-! ### Ledgers of what a scan did not publish -/

/-- The records one scan listed and did not publish: how many there were, and which PIDs. -/
structure PidLedger where
  limit : Nat
  named : Finset Nat
  count : Nat
  enumerable : Bool
deriving DecidableEq

def PidLedger.withLimit (limit : Nat) : PidLedger where
  limit := limit
  named := ∅
  count := 0
  enumerable := true

def PidLedger.none : PidLedger := PidLedger.withLimit 0

def PidLedger.unenumerable : PidLedger := { PidLedger.withLimit 0 with enumerable := false }

/-- `PidLedger::record`: one record whose PID is known. -/
def PidLedger.record (ledger : PidLedger) (pid : Nat) : PidLedger :=
  if ledger.named.card < ledger.limit ∨ pid ∈ ledger.named then
    { ledger with count := ledger.count + 1, named := insert pid ledger.named }
  else { ledger with count := ledger.count + 1, enumerable := false }

/-- `PidLedger::unnamed`: one record whose PID was never learned. -/
def PidLedger.unnamed (ledger : PidLedger) : PidLedger :=
  { ledger with count := ledger.count + 1, enumerable := false }

def PidLedger.markUnenumerable (ledger : PidLedger) : PidLedger :=
  { ledger with enumerable := false }

inductive Completeness where
  | complete
  | incomplete (skipped : PidLedger) (issues : List EnumerationIssue)
deriving DecidableEq

def Completeness.fromScan (skipped : PidLedger) (issues : List EnumerationIssue) : Completeness :=
  if skipped.count = 0 ∧ skipped.enumerable ∧ issues = [] then .complete
  else .incomplete skipped (issues.take maxRecordedIssues)

/-! ### System-wide figures -/

inductive FigureGap where
  | notProvided
  | unread (reason : MissingReason)
  | unusable
deriving DecidableEq, Repr

abbrev Figure (α : Type) := Except FigureGap α

structure SystemCpuInterval where
  busy : Nat
  total : Nat
  cpus : Option Nat
deriving DecidableEq, Repr

inductive SystemCpu where
  | measured (interval : SystemCpuInterval)
  | warmingUp
  | interrupted
  | missing (gap : FigureGap)
deriving DecidableEq, Repr

structure MemoryFigures where
  total : Nat
  available : Nat
deriving DecidableEq, Repr

structure SwapFigures where
  total : Nat
  free : Nat
deriving DecidableEq, Repr

structure LoadAverages where
  one : Nat
  five : Nat
  fifteen : Nat
deriving DecidableEq, Repr

structure SystemSample where
  cpu : SystemCpu
  memory : Figure MemoryFigures
  swap : Figure SwapFigures
  uptime : Figure Nat
  load : Figure LoadAverages

/-- `SystemSample::missing`. -/
def SystemSample.missing (gap : FigureGap) : SystemSample where
  cpu := .missing gap
  memory := .error gap
  swap := .error gap
  uptime := .error gap
  load := .error gap

/-! ### Snapshots -/

structure ProcessSnapshot where
  source : String
  sampledAt : Int
  records : List ProcessRecord
  vanished : Nat
  capped : PidLedger
  completeness : Completeness
  system : SystemSample

end Srui.Srtop.Sources
