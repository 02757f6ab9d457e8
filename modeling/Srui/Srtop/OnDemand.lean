import Srui.Srtop.Sources

/-!
On-demand collection of expensive fields: reads are handed to a pool of workers, their answers
come back through a channel, and a read that takes too long is given up. Sequences are naturals; the
overflow of the source's `u64` after 2^64 reads is not modelled.
-/

namespace Srui.Srtop.OnDemand

open Std Srtop.Sources

/-- A point on the collector's clock, in nanoseconds since its epoch. -/
abbrev SourceTime := Nat

def ageAt (time now : SourceTime) : Nat := now - time

inductive RawType where
  | unsignedInteger
  | string
  | cpuTicksRecord
  | systemTicksRecord
  | usedOfTotalRecord
  | loadAveragesRecord
  | wallClock
deriving DecidableEq, Repr

inductive RefreshTier where
  | everySample
  | onDemand
deriving DecidableEq, Repr

structure MetricSpec where
  raw : RawType
  tiers : List RefreshTier

def MetricSpec.supports (spec : MetricSpec) (tier : RefreshTier) : Bool := spec.tiers.contains tier

/-- `Catalogue::get`. -/
abbrev Catalogue := String → Option MetricSpec

inductive RawValue where
  | unsignedInteger (value : Nat)
  | string (value : String)
deriving DecidableEq, Repr

def RawValue.rawType : RawValue → RawType
  | .unsignedInteger _ => .unsignedInteger
  | .string _ => .string

inductive Unavailable where
  | permissionDenied
  | unsupported
  | failed
deriving DecidableEq, Repr

abbrev FieldResult := Except Unavailable RawValue

structure Limits where
  maxFields : Nat
  maxInFlight : Nat
  maxAge : Nat
  minInterval : Nat
  readDeadline : Nat
  maxAbandoned : Nat
deriving DecidableEq, Repr

inductive LimitsError where
  | zero (limit : String)
  | abandonedBelowInFlight (maxInFlight maxAbandoned : Nat)
deriving DecidableEq, Repr

/-- `Limits::validate`. -/
def Limits.validate (limits : Limits) : Except LimitsError Unit :=
  if limits.maxFields = 0 then .error (.zero "max_fields")
  else if limits.maxInFlight = 0 then .error (.zero "max_in_flight")
  else if limits.maxAbandoned = 0 then .error (.zero "max_abandoned")
  else if limits.maxAge = 0 then .error (.zero "max_age")
  else if limits.readDeadline = 0 then .error (.zero "read_deadline")
  else if limits.maxAbandoned < limits.maxInFlight then
    .error (.abandonedBelowInFlight limits.maxInFlight limits.maxAbandoned)
  else .ok ()

def Limits.default : Limits where
  maxFields := 1024
  maxInFlight := 4
  maxAge := 10000000000
  minInterval := 1000000000
  readDeadline := 30000000000
  maxAbandoned := 16

inductive FieldState where
  | warmingUp
  | present (value : RawValue) (observedAt : SourceTime)
  | stale (value : RawValue) (observedAt : SourceTime)
  | permissionDenied
  | unsupported
  | failed
deriving DecidableEq, Repr

/-- What one call of `demand` did. -/
structure DemandReport where
  requested : Nat := 0
  dispatched : Nat := 0
  unknown : Nat := 0
  notOnDemand : Nat := 0
  overCapacity : Nat := 0
  forgotten : Nat := 0
deriving DecidableEq, Repr

structure FieldId where
  target : ProcessKey
  key : String
deriving DecidableEq, Repr

instance : Ord FieldId := ⟨compareLex (compareOn FieldId.target) (compareOn FieldId.key)⟩

instance : TransOrd FieldId :=
  inferInstanceAs (TransCmp (compareLex (compareOn FieldId.target) (compareOn FieldId.key)))

instance : LawfulEqOrd FieldId where
  eq_of_compare := by
    intro a b h
    have hparts : compareLex (compareOn FieldId.target) (compareOn FieldId.key) a b = .eq := h
    rw [compareLex_eq_eq] at hparts
    rcases a with ⟨target, key⟩
    rcases b with ⟨target', key'⟩
    rw [FieldId.mk.injEq]
    exact ⟨LawfulEqOrd.eq_of_compare hparts.1, LawfulEqOrd.eq_of_compare hparts.2⟩

structure Pending where
  sequence : Nat
  issuedAt : SourceTime
deriving DecidableEq, Repr

structure Reading where
  sequence : Nat
  observedAt : SourceTime
  result : FieldResult
deriving DecidableEq

structure Slot where
  pending : Option Pending
  reading : Option Reading
  demandedSince : SourceTime
deriving DecidableEq

def Slot.new (now : SourceTime) : Slot := ⟨none, none, now⟩

structure Completion where
  field : FieldId
  sequence : Nat
  started : SourceTime
  finished : SourceTime
  result : FieldResult
deriving DecidableEq

structure Outstanding where
  field : FieldId
  issuedAt : SourceTime
  abandoned : Bool
deriving DecidableEq, Repr

structure Job where
  sequence : Nat
  field : FieldId
  issuedAt : SourceTime
deriving DecidableEq, Repr

structure Store where
  field : FieldId
  reading : Reading
  answer : Option (Completion × SourceTime)

/-- The collector with its channel, and the jobs that have not answered. What was dispatched and
what was stored so far is kept for the statements only: no function reads it. -/
structure OnDemandFields where
  limits : Limits
  slots : ExtTreeMap FieldId Slot
  lastSequence : Nat
  outstanding : ExtTreeMap Nat Outstanding
  readingOf : ExtTreeMap FieldId Nat
  inFlight : Nat
  abandoned : Nat
  completions : List Completion
  jobs : List Job
  dispatched : List Job
  stored : List Store

def OnDemandFields.opened (limits : Limits) : OnDemandFields where
  limits := limits
  slots := ∅
  lastSequence := 0
  outstanding := ∅
  readingOf := ∅
  inFlight := 0
  abandoned := 0
  completions := []
  jobs := []
  dispatched := []
  stored := []

def OnDemandFields.new (limits : Limits) : Except LimitsError OnDemandFields :=
  match limits.validate with
  | .error e => .error e
  | .ok () => .ok (.opened limits)

def storeReading (s : OnDemandFields) (field : FieldId) (slot : Slot) (reading : Reading)
    (answer : Option (Completion × SourceTime)) : OnDemandFields :=
  { s with
    slots := s.slots.insert field { slot with pending := none, reading := some reading }
    stored := s.stored ++ [⟨field, reading, answer⟩] }

def failWaiting (s : OnDemandFields) (sequence : Nat) (read : Outstanding) : OnDemandFields :=
  match s.slots[read.field]? with
  | none => s
  | some slot =>
    if slot.pending.any (·.sequence = sequence) then
      storeReading s read.field slot ⟨sequence, read.issuedAt, .error .failed⟩ none
    else s

/-- One round of the loop of `expire`; a counter that would fall below zero is a panic. -/
def giveUp (now : SourceTime) (s : OnDemandFields) (sequence : Nat) : Option OnDemandFields :=
  match s.outstanding[sequence]? with
  | none => some s
  | some read =>
    if read.abandoned ∨ ageAt read.issuedAt now < s.limits.readDeadline then some s
    else
      match s.inFlight with
      | 0 => none
      | inFlight + 1 =>
        some (failWaiting
          { s with
            outstanding := s.outstanding.insert sequence { read with abandoned := true }
            inFlight := inFlight
            abandoned := s.abandoned + 1 } sequence read)

/-- `OnDemandFields::expire`. -/
def expire (s : OnDemandFields) (now : SourceTime) : Option OnDemandFields :=
  s.outstanding.keys.foldlM (giveUp now) s

def chooseField (catalogue : Catalogue) (maxFields : Nat)
    (chosen : List FieldId × DemandReport) (field : FieldId) : List FieldId × DemandReport :=
  let report := { chosen.2 with requested := chosen.2.requested + 1 }
  match catalogue field.key with
  | none => (chosen.1, { report with unknown := report.unknown + 1 })
  | some spec =>
    if !spec.supports .onDemand then
      (chosen.1, { report with notOnDemand := report.notOnDemand + 1 })
    else if field ∈ chosen.1 then (chosen.1, report)
    else if chosen.1.length = maxFields then
      (chosen.1, { report with overCapacity := report.overCapacity + 1 })
    else (chosen.1 ++ [field], report)

def chooseFields (catalogue : Catalogue) (maxFields : Nat) (wanted : List FieldId) :
    List FieldId × DemandReport :=
  wanted.foldl (chooseField catalogue maxFields) ([], {})

/-- A field to read: the time and the sequence of its last reading, and its place. -/
structure Due where
  last : Option (SourceTime × Nat)
  position : Nat
  field : FieldId

/-- The order of the reads: fields never read first, then the oldest reading, then the place. -/
def dueLe (a b : Due) : Bool :=
  match a.last, b.last with
  | none, none => a.position ≤ b.position
  | none, some _ => true
  | some _, none => false
  | some (time, sequence), some (time', sequence') =>
    time < time' ∨ time = time' ∧
      (sequence < sequence' ∨ sequence = sequence' ∧ a.position ≤ b.position)

/-- A field that is shown again while its read is in flight waits for that read. -/
def adopt (s : OnDemandFields) (field : FieldId) (slot : Slot) (sequence : Nat) :
    OnDemandFields :=
  if slot.pending = none then
    match s.outstanding[sequence]? with
    | none => s
    | some read =>
      if read.abandoned then s
      else
        { s with
          slots := s.slots.insert field
            { slot with pending := some ⟨sequence, read.issuedAt⟩ } }
  else s

def visitField (now : SourceTime) (visited : OnDemandFields × List Due) (wanted : FieldId × Nat) :
    OnDemandFields × List Due :=
  let slot := visited.1.slots[wanted.1]?.getD (Slot.new now)
  let s := { visited.1 with slots := visited.1.slots.insert wanted.1 slot }
  match s.readingOf[wanted.1]? with
  | some sequence => (adopt s wanted.1 slot sequence, visited.2)
  | none =>
    if slot.reading.any fun reading => ageAt reading.observedAt now < s.limits.minInterval then
      (s, visited.2)
    else
      (s, visited.2 ++ [⟨slot.reading.map fun reading => (reading.observedAt, reading.sequence),
        wanted.2, wanted.1⟩])

/-- `OnDemandFields::dispatch`. -/
def dispatch (s : OnDemandFields) (field : FieldId) (now : SourceTime) : OnDemandFields :=
  let sequence := s.lastSequence + 1
  { s with
    lastSequence := sequence
    slots := s.slots.modify field fun slot => { slot with pending := some ⟨sequence, now⟩ }
    outstanding := s.outstanding.insert sequence ⟨field, now, false⟩
    readingOf := s.readingOf.insert field sequence
    inFlight := s.inFlight + 1
    jobs := s.jobs ++ [⟨sequence, field, now⟩]
    dispatched := s.dispatched ++ [⟨sequence, field, now⟩] }

/-- The loop over the fields to read, which ends when no further read may run. -/
def dispatchDue (now : SourceTime) : OnDemandFields → List Due → OnDemandFields × Nat
  | s, [] => (s, 0)
  | s, due :: rest =>
    if s.limits.maxInFlight ≤ s.inFlight ∨ s.limits.maxAbandoned ≤ s.inFlight + s.abandoned then
      (s, 0)
    else
      let served := dispatchDue now (dispatch s due.field now) rest
      (served.1, served.2 + 1)

/-- What `demand` does after it has given up the reads past their deadline. -/
def replaceDemand (catalogue : Catalogue) (s : OnDemandFields) (now : SourceTime)
    (wanted : List FieldId) : OnDemandFields × DemandReport :=
  let chosen := chooseFields catalogue s.limits.maxFields wanted
  let kept := s.slots.filter fun field _ => decide (field ∈ chosen.1)
  let visited := chosen.1.zipIdx.foldl (visitField now) ({ s with slots := kept }, [])
  let served := dispatchDue now visited.1 (visited.2.mergeSort dueLe)
  (served.1,
    { chosen.2 with dispatched := served.2, forgotten := s.slots.size - kept.size })

/-- `OnDemandFields::demand`. -/
def demand (catalogue : Catalogue) (s : OnDemandFields) (now : SourceTime)
    (wanted : List FieldId) : Option (OnDemandFields × DemandReport) :=
  (expire s now).map fun s => replaceDemand catalogue s now wanted

/-- A stamp outside the time from the request to the drain, or a value of the wrong shape, is a
failed read. -/
def checkedReading (catalogue : Catalogue) (pending : Pending) (completion : Completion)
    (now : SourceTime) : Reading :=
  let bounded := decide (pending.issuedAt ≤ completion.started ∧
    completion.started ≤ completion.finished ∧ completion.finished ≤ now)
  let raw := (catalogue completion.field.key).map MetricSpec.raw
  let result :=
    match completion.result with
    | .error e => .error e
    | .ok value =>
      if !bounded then .error .failed
      else if some value.rawType ≠ raw then .error .failed
      else .ok value
  ⟨completion.sequence, if bounded then completion.started else pending.issuedAt, result⟩

/-- What `accept` does with the answer of a read in flight. -/
def acceptLive (catalogue : Catalogue) (s : OnDemandFields) (completion : Completion)
    (now : SourceTime) : OnDemandFields × Bool :=
  match s.slots[completion.field]? with
  | none => (s, false)
  | some slot =>
    match slot.pending with
    | none => (s, false)
    | some pending =>
      if pending.sequence ≠ completion.sequence then (s, false)
      else if slot.reading.any (completion.sequence ≤ ·.sequence) then
        ({ s with slots := s.slots.insert completion.field { slot with pending := none } },
          false)
      else
        (storeReading s completion.field slot (checkedReading catalogue pending completion now)
          (some (completion, now)), true)

def forgetRead (s : OnDemandFields) (sequence : Nat) (read : Outstanding) : OnDemandFields :=
  { s with
    outstanding := s.outstanding.erase sequence
    readingOf :=
      if s.readingOf[read.field]? = some sequence then s.readingOf.erase read.field
      else s.readingOf }

/-- `OnDemandFields::accept`; a counter that would fall below zero is a panic. -/
def accept (catalogue : Catalogue) (s : OnDemandFields) (completion : Completion)
    (now : SourceTime) : Option (OnDemandFields × Bool) :=
  match s.outstanding[completion.sequence]? with
  | none => some (s, false)
  | some read =>
    let s := forgetRead s completion.sequence read
    if read.abandoned then
      match s.abandoned with
      | 0 => none
      | abandoned + 1 => some ({ s with abandoned := abandoned }, false)
    else
      match s.inFlight with
      | 0 => none
      | inFlight + 1 =>
        some (acceptLive catalogue { s with inFlight := inFlight } completion now)

/-- The loop of `collect_completed`: the answers in the channel, each with the time it is taken
at, and how many were accepted. -/
def drain (catalogue : Catalogue) (clock : Nat → SourceTime) :
    Nat → List Completion → OnDemandFields → Option (OnDemandFields × Nat)
  | _, [], s => some (s, 0)
  | taken, completion :: rest, s =>
    match accept catalogue { s with completions := rest } completion (clock taken) with
    | none => none
    | some (s, accepted) =>
      (drain catalogue clock (taken + 1) rest s).map fun drained =>
        (drained.1, drained.2 + accepted.toNat)

/-- `OnDemandFields::collect_completed`, with the readings of the clock during the call. -/
def collectCompleted (catalogue : Catalogue) (s : OnDemandFields) (clock : Nat → SourceTime) :
    Option (OnDemandFields × Nat) :=
  match drain catalogue clock 0 s.completions s with
  | none => none
  | some (drained, accepted) =>
    (expire drained (clock s.completions.length)).map fun s => (s, accepted)

def saturatedByWedgedReads (s : OnDemandFields) : Bool :=
  decide (0 < s.abandoned ∧ s.inFlight < s.limits.maxInFlight ∧
    s.limits.maxAbandoned ≤ s.inFlight + s.abandoned)

def wedged (s : OnDemandFields) (field : FieldId) : Bool :=
  ((s.readingOf[field]?).bind (s.outstanding[·]?)).any (·.abandoned)

/-- `OnDemandFields::state`. -/
def state (s : OnDemandFields) (field : FieldId) (now : SourceTime) : Option FieldState :=
  match s.slots[field]? with
  | none => none
  | some slot =>
    match slot.reading with
    | none =>
      if wedged s field ∨ (slot.pending = none ∧ saturatedByWedgedReads s ∧
          s.limits.readDeadline ≤ ageAt slot.demandedSince now) then
        some .failed
      else some .warmingUp
    | some reading =>
      match reading.result with
      | .ok value =>
        if s.limits.maxAge < ageAt reading.observedAt now then
          some (.stale value reading.observedAt)
        else some (.present value reading.observedAt)
      | .error .permissionDenied => some .permissionDenied
      | .error .unsupported => some .unsupported
      | .error .failed => some .failed

def answer (s : OnDemandFields) (sequence : Nat) (started finished : SourceTime)
    (result : FieldResult) : OnDemandFields :=
  match s.jobs.find? (·.sequence = sequence) with
  | none => s
  | some job =>
    { s with
      jobs := s.jobs.filter (·.sequence ≠ sequence)
      completions := s.completions ++ [⟨job.field, sequence, started, finished, result⟩] }

inductive Input where
  | demand (now : SourceTime) (wanted : List FieldId)
  | answer (sequence : Nat) (started finished : SourceTime) (result : FieldResult)
  | collectCompleted (clock : Nat → SourceTime)

/-- One step of the collector with its workers; `none` is a panic. -/
def step (catalogue : Catalogue) (s : OnDemandFields) : Input → Option OnDemandFields
  | .demand now wanted => (demand catalogue s now wanted).map Prod.fst
  | .answer sequence started finished result => some (answer s sequence started finished result)
  | .collectCompleted clock => (collectCompleted catalogue s clock).map Prod.fst

end Srui.Srtop.OnDemand
