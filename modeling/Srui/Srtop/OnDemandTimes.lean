import Srui.Srtop.OnDemandAccounts

/-!
Times in on-demand collection: on a clock that never goes back, no read was issued and no reading
was taken after the present.
-/

namespace Srui.Srtop.OnDemand

open Std Basic.FiniteMaps

section Readings

def Shows (slots : ExtTreeMap FieldId Slot) (field : FieldId) (reading : Reading) : Prop :=
  ∃ slot : Slot, slots[field]? = some slot ∧ slot.reading = some reading

variable {slots : ExtTreeMap FieldId Slot} {field other : FieldId} {slot : Slot}
  {reading reading' : Reading}

theorem shows_insert :
    Shows (slots.insert field slot) other reading ↔
      if field = other then slot.reading = some reading else Shows slots other reading := by
  unfold Shows
  rw [getElem?_put]
  split_ifs with heq
  · constructor
    · rintro ⟨slot', hslot', hreading⟩
      rwa [Option.some.inj hslot']
    · exact fun hreading => ⟨slot, rfl, hreading⟩
  · rfl

theorem shows_replace (hsame : ∀ reading, slot.reading = some reading ↔ Shows slots field reading) :
    Shows (slots.insert field slot) other reading ↔ Shows slots other reading := by
  rw [shows_insert]
  split_ifs with heq
  · rw [← heq]
    exact hsame reading
  · rfl

theorem shows_of_slot (hslot : slots[field]? = some slot) (reading : Reading) :
    slot.reading = some reading ↔ Shows slots field reading := by
  constructor
  · exact fun hreading => ⟨slot, hslot, hreading⟩
  · rintro ⟨slot', hslot', hreading⟩
    rwa [Option.some.inj (hslot.symm.trans hslot')]

theorem shows_place (now : SourceTime) :
    Shows (slots.insert field (slots[field]?.getD (Slot.new now))) other reading ↔
      Shows slots other reading := by
  apply shows_replace
  intro reading
  rcases hslot : slots[field]? with _ | slot
  · constructor
    · exact nofun
    · rintro ⟨slot, hsome, -⟩
      rw [hslot] at hsome
      cases hsome
  · exact shows_of_slot hslot reading

theorem shows_wait (pending : Pending) :
    Shows (slots.modify field fun slot => { slot with pending := some pending }) other reading ↔
      Shows slots other reading := by
  unfold Shows
  rw [getElem?_adjust]
  split_ifs with heq
  · constructor
    · rintro ⟨slot', hslot', hreading⟩
      obtain ⟨slot, hslot, rfl⟩ := Option.map_eq_some_iff.mp hslot'
      exact ⟨slot, hslot, hreading⟩
    · rintro ⟨slot, hslot, hreading⟩
      exact ⟨_, Option.map_eq_some_iff.mpr ⟨slot, hslot, rfl⟩, hreading⟩
  · rfl

theorem shows_filter {order : List FieldId} :
    Shows (slots.filter fun field _ => decide (field ∈ order)) field reading ↔
      Shows slots field reading ∧ field ∈ order := by
  unfold Shows
  constructor
  · rintro ⟨slot, hslot, hreading⟩
    obtain ⟨hslot, hmem⟩ := (getElem?_select _ _ _ _).mp hslot
    exact ⟨⟨slot, hslot, hreading⟩, of_decide_eq_true hmem⟩
  · rintro ⟨⟨slot, hslot, hreading⟩, hmem⟩
    exact ⟨slot, (getElem?_select _ _ _ _).mpr ⟨hslot, decide_eq_true hmem⟩, hreading⟩

theorem shows_adopt (s : OnDemandFields) {slot : Slot} (hslot : s.slots[field]? = some slot)
    (sequence : Nat) :
    Shows (adopt s field slot sequence).slots other reading ↔ Shows s.slots other reading := by
  unfold adopt
  split_ifs with hpending
  swap
  · rfl
  split
  · rfl
  split_ifs with habandoned
  · rfl
  · exact shows_replace fun reading => shows_of_slot hslot reading

theorem adopt_eq (s : OnDemandFields) (field : FieldId) (slot : Slot) (sequence : Nat) :
    adopt s field slot sequence = { s with slots := (adopt s field slot sequence).slots } := by
  unfold adopt
  repeat' split
  all_goals rfl

end Readings

structure Timely (s : OnDemandFields) (time : SourceTime) : Prop where
  issued : ∀ (sequence : Nat) (read : Outstanding), s.outstanding[sequence]? = some read →
    read.issuedAt ≤ time
  observed : ∀ (field : FieldId) (reading : Reading), Shows s.slots field reading →
    reading.observedAt ≤ time ∧ reading.sequence ≤ s.lastSequence

variable {catalogue : Catalogue} {limits : Limits} {kept : List FieldId} {s : OnDemandFields}
  {time : SourceTime}

theorem timely_opened (limits : Limits) (time : SourceTime) : Timely (.opened limits) time := by
  refine ⟨?_, ?_⟩
  · intro sequence read hread
    simp [OnDemandFields.opened] at hread
  · rintro field reading ⟨slot, hslot, -⟩
    simp [OnDemandFields.opened] at hslot

theorem Timely.mono (h : Timely s time) {later : SourceTime} (hle : time ≤ later) :
    Timely s later := by
  refine ⟨?_, ?_⟩
  · exact fun sequence read hread => (h.issued sequence read hread).trans hle
  · intro field reading hshows
    obtain ⟨hobserved, hsequence⟩ := h.observed field reading hshows
    exact ⟨hobserved.trans hle, hsequence⟩

theorem Timely.withSlots (h : Timely s time) {slots : ExtTreeMap FieldId Slot}
    (hslots : ∀ field reading, Shows slots field reading → Shows s.slots field reading) :
    Timely { s with slots := slots } time :=
  ⟨h.issued, fun field reading hshows => h.observed field reading (hslots field reading hshows)⟩

theorem Timely.storeReading (h : Timely s time) {field : FieldId} (slot : Slot) {reading : Reading}
    (answer : Option (Completion × SourceTime)) (hobserved : reading.observedAt ≤ time)
    (hsequence : reading.sequence ≤ s.lastSequence) :
    Timely (OnDemand.storeReading s field slot reading answer) time := by
  refine ⟨h.issued, ?_⟩
  intro other reading' hshows
  dsimp only [OnDemand.storeReading] at hshows ⊢
  rw [shows_insert] at hshows
  split_ifs at hshows with heq
  · cases hshows
    exact ⟨hobserved, hsequence⟩
  · exact h.observed other reading' hshows

section Expiry

theorem Timely.giveUp (h : Timely s time) (hsound : Sound catalogue limits kept s)
    {now : SourceTime} {sequence : Nat} {s' : OnDemandFields}
    (hs' : OnDemand.giveUp now s sequence = some s') :
    Timely s' time ∧ s'.dispatched = s.dispatched := by
  unfold OnDemand.giveUp at hs'
  rcases hread : s.outstanding[sequence]? with _ | read
  · rw [hread] at hs'
    cases hs'
    exact ⟨h, rfl⟩
  rw [hread] at hs'
  dsimp only at hs'
  split_ifs at hs' with hyoung
  · cases hs'
    exact ⟨h, rfl⟩
  split at hs'
  · cases hs'
  rename_i inFlight _
  cases hs'
  have hgiven : Timely (OnDemand.abandonRead s sequence read inFlight) time := by
    refine ⟨?_, h.observed⟩
    intro other read' hread'
    obtain ⟨old, hold, -, hissuedAt, -⟩ := outstanding_of_abandoned hread hread'
    rw [← hissuedAt]
    exact h.issued other old hold
  change Timely
    (OnDemand.failWaiting (OnDemand.abandonRead s sequence read inFlight) sequence read) time ∧
      (OnDemand.failWaiting (OnDemand.abandonRead s sequence read inFlight) sequence
        read).dispatched = s.dispatched
  unfold OnDemand.failWaiting
  split
  · exact ⟨hgiven, rfl⟩
  split_ifs with hwaits
  · exact ⟨hgiven.storeReading _ none (h.issued sequence read hread)
      (hsound.outstanding_le sequence read hread), rfl⟩
  · exact ⟨hgiven, rfl⟩

theorem Timely.expire (h : Timely s time) (hsound : Sound catalogue limits kept s)
    (now : SourceTime) :
    ∃ s', OnDemand.expire s now = some s' ∧ Sound catalogue limits kept s' ∧
      Timely s' time ∧ s'.dispatched = s.dispatched := by
  refine hsound.giveUps_keep (P := fun s' => Timely s' time ∧ s'.dispatched = s.dispatched)
    ⟨h, rfl⟩ ?_ s.outstanding.keys
  rintro middle s' sequence hmiddle ⟨htimely, hsame⟩ hs'
  obtain ⟨htimely', hsame'⟩ := htimely.giveUp hmiddle hs'
  exact ⟨htimely', hsame'.trans hsame⟩

theorem expire_young {now : SourceTime}
    (hyoung : ∀ (sequence : Nat) (read : Outstanding), s.outstanding[sequence]? = some read →
      ageAt read.issuedAt now < s.limits.readDeadline) :
    OnDemand.expire s now = some s := by
  have hkept : ∀ sequence, OnDemand.giveUp now s sequence = some s := by
    intro sequence
    unfold OnDemand.giveUp
    rcases hread : s.outstanding[sequence]? with _ | read
    · rfl
    · exact if_pos (.inr (hyoung sequence read hread))
  unfold OnDemand.expire
  induction s.outstanding.keys with
  | nil => rfl
  | cons sequence rest ih =>
    rw [List.foldlM_cons, hkept]
    exact ih

end Expiry

section Answers

variable {completion : Completion} {now : SourceTime}

theorem checkedReading_observedAt (pending : Pending) (completion : Completion)
    (now : SourceTime) :
    pending.issuedAt ≤ (checkedReading catalogue pending completion now).observedAt ∧
      (checkedReading catalogue pending completion now).observedAt ≤ max pending.issuedAt now := by
  unfold checkedReading
  dsimp only
  split_ifs with hbounded
  · obtain ⟨hissued, hstarted, hfinished⟩ := of_decide_eq_true hbounded
    exact ⟨hissued, (hstarted.trans hfinished).trans (Nat.le_max_right _ _)⟩
  · exact ⟨Nat.le_refl _, Nat.le_max_left _ _⟩

theorem Timely.accept (h : Timely s time) (hsound : Sound catalogue limits kept s)
    {read : Outstanding} (hread : s.outstanding[completion.sequence]? = some read)
    (hle : time ≤ now) {s' : OnDemandFields} {accepted : Bool}
    (hs' : OnDemand.accept catalogue s completion now = some (s', accepted)) :
    Timely s' now ∧ s'.dispatched = s.dispatched := by
  have hforget : ∀ inFlight abandoned, Timely
      { OnDemand.forgetRead s completion.sequence read with
        inFlight := inFlight, abandoned := abandoned } now := by
    intro inFlight abandoned
    refine ⟨?_, (h.mono hle).observed⟩
    intro other old hold
    dsimp only [OnDemand.forgetRead] at hold
    rw [getElem?_drop] at hold
    split_ifs at hold with heq
    exact (h.issued other old hold).trans hle
  unfold OnDemand.accept at hs'
  rw [hread] at hs'
  dsimp only at hs'
  split_ifs at hs' with habandoned
  · split at hs'
    · cases hs'
    · cases hs'
      exact ⟨hforget _ _, rfl⟩
  split at hs'
  · cases hs'
  rename_i inFlight _
  have hgone := hforget inFlight s.abandoned
  rw [Option.some.injEq, Prod.ext_iff] at hs'
  obtain ⟨rfl, -⟩ := hs'
  unfold OnDemand.acceptLive
  have hslots : (OnDemand.forgetRead s completion.sequence read).slots = s.slots := rfl
  dsimp only
  rw [hslots]
  rcases hslot : s.slots[completion.field]? with _ | slot
  · exact ⟨hgone, rfl⟩
  dsimp only
  rcases hpending : slot.pending with _ | pending
  · exact ⟨hgone, rfl⟩
  dsimp only
  split_ifs with hother hold
  · exact ⟨hgone, rfl⟩
  · refine ⟨hgone.withSlots ?_, rfl⟩
    intro other reading hshows
    rw [shows_replace] at hshows
    · exact hshows
    · exact fun reading => shows_of_slot hslot reading
  · have hwaits := hsound.pending completion.field slot pending hslot hpending
    have hissued := (h.issued _ _ hwaits).trans hle
    refine ⟨hgone.storeReading slot _ ?_ (hsound.outstanding_le _ _ hread), rfl⟩
    exact (checkedReading_observedAt pending completion now).2.trans
      (max_le hissued (Nat.le_refl _))

theorem Timely.collectCompleted (h : Timely s time) (hsound : Sound catalogue limits kept s)
    {clock : Nat → SourceTime} (hstart : time ≤ clock 0) (hclock : Monotone clock) :
    ∃ s' accepted, OnDemand.collectCompleted catalogue s clock = some (s', accepted) ∧
      Sound catalogue limits kept s' ∧ Timely s' (clock s.completions.length) ∧
      s'.dispatched = s.dispatched := by
  obtain ⟨drained, accepted, hdrain, hdrained, -, htimely, hsame⟩ :=
    hsound.drain_keeps clock 0
      (P := fun taken s' => Timely s' (clock taken) ∧ s'.dispatched = s.dispatched)
      ⟨h.mono hstart, rfl⟩ (by
        rintro taken middle s' completion rest read accepted hmiddle hqueue hread - ⟨htimely, hsame⟩
          hs'
        have hrest : Timely { middle with completions := rest } (clock taken) :=
          ⟨htimely.issued, htimely.observed⟩
        obtain ⟨htimely', hsame'⟩ :=
          hrest.accept (hmiddle.rest hqueue) hread (Nat.le_refl _) hs'
        exact ⟨htimely'.mono (hclock (Nat.le_succ taken)), hsame'.trans hsame⟩) rfl
  rw [Nat.zero_add] at htimely
  obtain ⟨s', hs', hsound', htimely', hsame'⟩ :=
    htimely.expire hdrained (clock s.completions.length)
  refine ⟨s', accepted, ?_, hsound', htimely', hsame'.trans hsame⟩
  unfold OnDemand.collectCompleted
  rw [hdrain]
  dsimp only
  rw [hs']
  rfl

theorem Timely.answer (h : Timely s time) (sequence : Nat) (started finished : SourceTime)
    (result : FieldResult) :
    Timely (OnDemand.answer s sequence started finished result) time ∧
      (OnDemand.answer s sequence started finished result).dispatched = s.dispatched := by
  unfold OnDemand.answer
  split
  · exact ⟨h, rfl⟩
  · exact ⟨⟨h.issued, h.observed⟩, rfl⟩

end Answers

section Demand

variable {now : SourceTime}

theorem Timely.visitField (now : SourceTime) {visited : OnDemandFields × List Due}
    (h : Timely visited.1 time) (wanted : FieldId × Nat) :
    Timely (OnDemand.visitField now visited wanted).1 time := by
  have hplaced : Timely { visited.1 with
      slots := visited.1.slots.insert wanted.1
        (visited.1.slots[wanted.1]?.getD (Slot.new now)) } time :=
    h.withSlots fun field reading => (shows_place now).mp
  unfold OnDemand.visitField
  dsimp only
  split
  · rw [adopt_eq]
    apply hplaced.withSlots
    intro field reading hshows
    exact (shows_adopt _ ((getElem?_put _ _ _ _).trans (if_pos rfl)) _).mp hshows
  · split_ifs with hfresh
    · exact hplaced
    · exact hplaced

theorem Timely.dispatch (h : Timely s time) (field : FieldId) (hle : time ≤ now) :
    Timely (OnDemand.dispatch s field now) now := by
  refine ⟨?_, ?_⟩
  · intro sequence read hread
    dsimp only [OnDemand.dispatch] at hread
    rw [getElem?_put] at hread
    split_ifs at hread with heq
    · cases hread
      exact Nat.le_refl _
    · exact (h.issued sequence read hread).trans hle
  · intro other reading hshows
    obtain ⟨hobserved, hsequence⟩ := h.observed other reading ((shows_wait _).mp hshows)
    exact ⟨hobserved.trans hle, hsequence.trans (Nat.le_succ _)⟩

theorem Timely.dispatchDue (h : Timely s now) (dues : List Due) :
    Timely (OnDemand.dispatchDue now s dues).1 now := by
  induction dues generalizing s with
  | nil => exact h
  | cons due rest ih =>
    unfold OnDemand.dispatchDue
    split_ifs with hfull
    · exact h
    · exact ih (h.dispatch due.field (Nat.le_refl _))

theorem Timely.replaceDemand (h : Timely s now) (wanted : List FieldId) :
    Timely (OnDemand.replaceDemand catalogue s now wanted).1 now := by
  unfold OnDemand.replaceDemand
  dsimp only
  apply Timely.dispatchDue
  apply List.foldlRecOn (motive := fun visited : OnDemandFields × List Due => Timely visited.1 now)
  · exact h.withSlots fun field reading hshows => (shows_filter.mp hshows).1
  · exact fun visited htimely wanted _ => htimely.visitField now wanted

end Demand

/-- The clock does not go back during an input. -/
def InOrder (time : SourceTime) : Input → Prop
  | .demand now _ => time ≤ now
  | .answer .. => True
  | .collectCompleted clock => time ≤ clock 0 ∧ Monotone clock

def timeAfter (s : OnDemandFields) (time : SourceTime) : Input → SourceTime
  | .demand now _ => now
  | .answer .. => time
  | .collectCompleted clock => clock s.completions.length

theorem InOrder.le {input : Input} (h : InOrder time input) (s : OnDemandFields) :
    time ≤ timeAfter s time input := by
  cases input with
  | demand now wanted => exact h
  | answer sequence started finished result => exact Nat.le_refl _
  | collectCompleted clock => exact h.1.trans (h.2 (Nat.zero_le _))

/-- The states of a collector with accepted limits on a clock that never goes back. -/
inductive Reached (catalogue : Catalogue) (limits : Limits) : OnDemandFields → SourceTime → Prop
  | opened {opened : OnDemandFields} (time : SourceTime) :
      OnDemandFields.new limits = .ok opened → Reached catalogue limits opened time
  | step {s s' : OnDemandFields} {time : SourceTime} {input : Input} :
      Reached catalogue limits s time → InOrder time input → step catalogue s input = some s' →
        Reached catalogue limits s' (timeAfter s time input)

theorem Timely.step (h : Timely s time) (hsound : Sound catalogue limits kept s) {input : Input}
    (horder : InOrder time input) :
    ∃ s' kept', OnDemand.step catalogue s input = some s' ∧ Sound catalogue limits kept' s' ∧
      Timely s' (timeAfter s time input) := by
  cases input with
  | demand now wanted =>
    obtain ⟨expired, hexpire, hexpired, htimely, -⟩ := h.expire hsound now
    refine ⟨_, _, ?_, hexpired.replaceDemand now wanted, (htimely.mono horder).replaceDemand wanted⟩
    dsimp only [OnDemand.step]
    unfold demand
    rw [hexpire]
    rfl
  | answer sequence started finished result =>
    exact ⟨_, kept, rfl, hsound.answer sequence started finished result,
      (h.answer sequence started finished result).1⟩
  | collectCompleted clock =>
    obtain ⟨s', accepted, hs', hsound', htimely, -⟩ := h.collectCompleted hsound horder.1 horder.2
    refine ⟨s', kept, ?_, hsound', htimely⟩
    dsimp only [OnDemand.step]
    rw [hs']
    rfl

theorem opened_of_new {opened : OnDemandFields} (h : OnDemandFields.new limits = .ok opened) :
    limits.validate = .ok () ∧ OnDemandFields.opened limits = opened := by
  unfold OnDemandFields.new at h
  split at h
  · cases h
  · rename_i hvalidate
    exact ⟨hvalidate, Except.ok.inj h⟩

theorem Reached.sound (h : Reached catalogue limits s time) :
    limits.validate = .ok () ∧ ∃ kept, Sound catalogue limits kept s ∧ Timely s time := by
  induction h with
  | opened time hnew =>
    obtain ⟨hvalidate, rfl⟩ := opened_of_new hnew
    exact ⟨hvalidate, [], sound_opened catalogue limits, timely_opened limits time⟩
  | step _ horder hstep ih =>
    obtain ⟨hvalidate, kept, hsound, htimely⟩ := ih
    obtain ⟨s', kept', hs', hsound', htimely'⟩ := htimely.step hsound horder
    obtain rfl := Option.some.inj (hs'.symm.trans hstep)
    exact ⟨hvalidate, kept', hsound', htimely'⟩

end Srui.Srtop.OnDemand
