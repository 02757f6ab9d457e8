import Srui.Basic.Rotations
import Srui.Srtop.OnDemandTimes

/-!
Fairness of on-demand collection: while every read answers before the next demand, the demanded
fields take turns, and none waits longer than it takes to read all of them once.
-/

namespace Srui.Srtop.OnDemand

open Std Basic.FiniteMaps Basic.MapCounts Basic.Rotations

variable {catalogue : Catalogue} {limits : Limits} {kept : List FieldId} {s : OnDemandFields}
  {now time : SourceTime}

section DueOrder

theorem dueLe_total (a b : Due) : (dueLe a b || dueLe b a) = true := by
  rcases a with ⟨_ | ⟨time, sequence⟩, position, field⟩ <;>
    rcases b with ⟨_ | ⟨time', sequence'⟩, position', field'⟩ <;>
    simp only [dueLe, Bool.or_eq_true, decide_eq_true_eq, Bool.true_or, Bool.or_true]
  · exact Nat.le_total position position'
  · grind

theorem dueLe_trans (a b c : Due) (hab : dueLe a b = true) (hbc : dueLe b c = true) :
    dueLe a c = true := by
  rcases a with ⟨_ | ⟨time, sequence⟩, position, field⟩ <;>
    rcases b with ⟨_ | ⟨time', sequence'⟩, position', field'⟩ <;>
    rcases c with ⟨_ | ⟨time'', sequence''⟩, position'', field''⟩ <;>
    simp only [dueLe, decide_eq_true_eq, reduceCtorEq] at hab hbc ⊢
  · exact Nat.le_trans hab hbc
  · grind

/-- A field that was read at `start` or later goes after one that was not. -/
theorem dueLe_eq_false {a b : Due} {start first time sequence : Nat}
    (ha : a.last = some (time, sequence)) (hstart : start ≤ time) (hfirst : first < sequence)
    (hb : ∀ time' sequence' : Nat, b.last = some (time', sequence') →
      time' ≤ start ∧ sequence' ≤ first) :
    dueLe a b = false := by
  unfold dueLe
  rw [ha]
  rcases hlast : b.last with _ | ⟨time', sequence'⟩
  · rfl
  · obtain ⟨htime, hsequence⟩ := hb time' sequence' hlast
    rw [decide_eq_false_iff_not]
    grind

end DueOrder

section Choice

variable {fields : Finset FieldId}

theorem mem_chooseFields
    (hsupports : ∀ field ∈ fields, ∃ spec, catalogue field.key = some spec ∧
      spec.supports .onDemand = true)
    {maxFields : Nat} (hroom : fields.card ≤ maxFields) {wanted : List FieldId}
    (hwanted : ∀ field, field ∈ wanted ↔ field ∈ fields) (field : FieldId) :
    field ∈ (chooseFields catalogue maxFields wanted).1 ↔ field ∈ fields := by
  have hround : ∀ (wanted : List FieldId) (chosen : List FieldId × DemandReport),
      chosen.1.Nodup → (∀ field ∈ chosen.1, field ∈ fields) →
      (∀ field ∈ wanted, field ∈ fields) →
      (field ∈ (wanted.foldl (chooseField catalogue maxFields) chosen).1 ↔
        field ∈ chosen.1 ∨ field ∈ wanted) := by
    intro wanted
    induction wanted with
    | nil =>
      intro chosen _ _ _
      simp
    | cons next rest ih =>
      intro chosen hnodup hchosen hnext
      have hmem : next ∈ fields := hnext next List.mem_cons_self
      have hrest : ∀ field ∈ rest, field ∈ fields := fun field hfield =>
        hnext field (List.mem_cons_of_mem _ hfield)
      obtain ⟨spec, hspec, htier⟩ := hsupports next hmem
      rw [List.foldl_cons]
      by_cases hold : next ∈ chosen.1
      · have hsame : (chooseField catalogue maxFields chosen next).1 = chosen.1 := by
          simp [chooseField, hspec, htier, hold]
        rw [ih _ (hsame ▸ hnodup) (hsame ▸ hchosen) hrest, hsame, List.mem_cons]
        grind
      · have hlength : chosen.1.length < maxFields := by
          have hsubset : insert next chosen.1.toFinset ⊆ fields := by
            intro field hfield
            rcases Finset.mem_insert.mp hfield with rfl | hfield
            · exact hmem
            · exact hchosen field (List.mem_toFinset.mp hfield)
          have hcard := Finset.card_le_card hsubset
          rw [Finset.card_insert_of_notMem (fun h => hold (List.mem_toFinset.mp h)),
            List.toFinset_card_of_nodup hnodup] at hcard
          omega
        have hadded : (chooseField catalogue maxFields chosen next).1 = chosen.1 ++ [next] := by
          simp [chooseField, hspec, htier, hold, Nat.ne_of_lt hlength]
        rw [ih, hadded, List.mem_append, List.mem_singleton, List.mem_cons, or_assoc]
        · rw [hadded]
          refine List.nodup_append.mpr ⟨hnodup, List.nodup_singleton _, ?_⟩
          intro other hother last hlast hsame
          exact hold (List.mem_singleton.mp hlast ▸ hsame ▸ hother)
        · rw [hadded]
          intro field hfield
          rcases List.mem_append.mp hfield with hfield | hfield
          · exact hchosen field hfield
          · exact List.mem_singleton.mp hfield ▸ hmem
        · exact hrest
  refine (hround wanted ([], {}) List.nodup_nil (fun _ h => absurd h List.not_mem_nil)
    (fun field h => (hwanted field).mp h)).trans ?_
  rw [hwanted field]
  simp

end Choice

section Survey

/-- A field to read carries the time and the sequence of what it shows. -/
def Dated (slots : ExtTreeMap FieldId Slot) (due : Due) : Prop :=
  ∀ time sequence, due.last = some (time, sequence) ↔
    ∃ reading : Reading, Shows slots due.field reading ∧ reading.observedAt = time ∧
      reading.sequence = sequence

/-- What the loop over the fields kept has done when no read is outstanding: every field visited
is to be read, and no field shows anything new. -/
structure Surveyed (start : OnDemandFields) (visited : OnDemandFields × List Due)
    (fields : List FieldId) : Prop where
  same : visited.1 = { start with slots := visited.1.slots }
  shows : ∀ (field : FieldId) (reading : Reading),
    Shows visited.1.slots field reading ↔ Shows start.slots field reading
  fields_eq : visited.2.map Due.field = fields
  placed : ∀ field ∈ fields, ∃ slot : Slot, visited.1.slots[field]? = some slot
  dated : ∀ due ∈ visited.2, Dated start.slots due

variable {start : OnDemandFields} {visited : OnDemandFields × List Due} {fields : List FieldId}

theorem Surveyed.visitField (h : Surveyed start visited fields) (wanted : FieldId × Nat)
    (hidle : start.readingOf[wanted.1]? = none) (hinterval : start.limits.minInterval = 0)
    (now : SourceTime) :
    Surveyed start (visitField now visited wanted) (fields ++ [wanted.1]) := by
  obtain ⟨slot, hslot⟩ : ∃ slot, visited.1.slots[wanted.1]?.getD (Slot.new now) = slot := ⟨_, rfl⟩
  have hplace : ∀ (field : FieldId) (reading : Reading),
      Shows (visited.1.slots.insert wanted.1 slot) field reading ↔
        Shows visited.1.slots field reading := by
    intro field reading
    rw [← hslot]
    exact shows_place now
  have hreading : visited.1.readingOf[wanted.1]? = none := by
    rw [h.same]
    exact hidle
  have hold : ¬slot.reading.any (fun reading =>
      ageAt reading.observedAt now < visited.1.limits.minInterval) = true := by
    rw [h.same, hinterval]
    simp
  have heq : OnDemand.visitField now visited wanted =
      ({ visited.1 with slots := visited.1.slots.insert wanted.1 slot },
        visited.2 ++ [⟨slot.reading.map fun reading => (reading.observedAt, reading.sequence),
          wanted.2, wanted.1⟩]) := by
    unfold OnDemand.visitField
    dsimp only
    rw [hreading, hslot]
    exact if_neg hold
  rw [heq]
  refine ⟨?_, ?_, ?_, ?_, ?_⟩
  · rw [h.same]
  · exact fun field reading => (hplace field reading).trans (h.shows field reading)
  · rw [List.map_append, h.fields_eq]
    rfl
  · intro field hfield
    rw [getElem?_put]
    split_ifs with hsame
    · exact ⟨slot, rfl⟩
    · rcases List.mem_append.mp hfield with hfield | hfield
      · exact h.placed field hfield
      · exact absurd (List.mem_singleton.mp hfield).symm hsame
  · intro due hdue
    rcases List.mem_append.mp hdue with hdue | hdue
    · exact h.dated due hdue
    · rw [List.mem_singleton.mp hdue]
      intro time sequence
      have hshown : ∀ reading, slot.reading = some reading ↔
          Shows start.slots wanted.1 reading := by
        intro reading
        rw [← h.shows, ← hplace, shows_insert, if_pos rfl]
      dsimp only
      rw [Option.map_eq_some_iff]
      simp only [hshown, Prod.mk.injEq]

theorem Surveyed.visitFields (h : Surveyed start visited fields) (wanted : List (FieldId × Nat))
    (hidle : ∀ field : FieldId, start.readingOf[field]? = none)
    (hinterval : start.limits.minInterval = 0) (now : SourceTime) :
    Surveyed start (wanted.foldl (OnDemand.visitField now) visited)
      (fields ++ wanted.map Prod.fst) := by
  induction wanted generalizing visited fields with
  | nil => rwa [List.map_nil, List.append_nil]
  | cons first rest ih =>
    have hfirst := ih (h.visitField first (hidle first.1) hinterval now)
    rwa [List.append_assoc] at hfirst

theorem Surveyed.dated_after (h : Surveyed start visited fields) {due : Due}
    (hdue : due ∈ visited.2) : Dated visited.1.slots due := by
  intro time sequence
  simp only [h.shows]
  exact h.dated due hdue time sequence

end Survey

section Rotation

def served (jobs : List Job) : Finset FieldId := (jobs.map Job.field).toFinset

@[simp] theorem served_nil : served [] = ∅ := rfl

@[simp] theorem mem_served {jobs : List Job} {field : FieldId} :
    field ∈ served jobs ↔ field ∈ jobs.map Job.field := List.mem_toFinset

/-- The turns taken since the clock read `start` and `first` was the last sequence: `jobs` were
dispatched after `history`. A field of theirs waits for its read, or shows a reading from after
`start`; any other shows none from after `start`. -/
structure Rotation (fields : Finset FieldId) (history jobs : List Job) (start : SourceTime)
    (first : Nat) (s : OnDemandFields) : Prop where
  grown : s.dispatched = history ++ jobs
  within : served jobs ⊆ fields
  first_le : first ≤ s.lastSequence
  live : ∀ (sequence : Nat) (read : Outstanding), s.outstanding[sequence]? = some read →
    start ≤ read.issuedAt ∧ first < sequence ∧ read.field ∈ served jobs ∧
      ∃ slot : Slot, s.slots[read.field]? = some slot ∧
        slot.pending = some ⟨sequence, read.issuedAt⟩ ∧
        ∀ reading, slot.reading = some reading → reading.sequence < sequence
  early : ∀ (field : FieldId) (reading : Reading), field ∉ served jobs →
    Shows s.slots field reading → reading.observedAt ≤ start ∧ reading.sequence ≤ first
  late : ∀ field ∈ served jobs, (∃ sequence : Nat, s.readingOf[field]? = some sequence) ∨
    ∃ reading, Shows s.slots field reading ∧ start ≤ reading.observedAt ∧
      first < reading.sequence

variable {fields : Finset FieldId} {history jobs : List Job} {start : SourceTime} {first : Nat}

theorem Sound.quiet (h : Sound catalogue limits kept s) (hquiet : s.outstanding = ∅) :
    s.inFlight = 0 ∧ s.abandoned = 0 ∧ ∀ field : FieldId, s.readingOf[field]? = none := by
  refine ⟨?_, ?_, ?_⟩
  · rw [h.inFlight_eq, hquiet, countOf_empty]
  · rw [h.abandoned_eq, hquiet, countOf_empty]
  · intro field
    rcases hreading : s.readingOf[field]? with _ | sequence
    · rfl
    · obtain ⟨read, hread, -⟩ := (h.reading field sequence).mp hreading
      rw [hquiet] at hread
      simp at hread

theorem rotation_begins (fields : Finset FieldId) (hquiet : s.outstanding = ∅)
    (htimely : Timely s time) : Rotation fields s.dispatched [] time s.lastSequence s := by
  refine ⟨(List.append_nil _).symm, Finset.empty_subset _, Nat.le_refl _, ?_, ?_, ?_⟩
  · intro sequence read hread
    rw [hquiet] at hread
    simp at hread
  · exact fun field reading _ hshows => htimely.observed field reading hshows
  · exact fun field hfield => absurd hfield (Finset.notMem_empty field)

section Answers

variable {completion : Completion} {read : Outstanding}

theorem Rotation.accept_eq (h : Rotation fields history jobs start first s)
    (hsound : Sound catalogue limits kept s)
    (hread : s.outstanding[completion.sequence]? = some read)
    (hfield : read.field = completion.field) {s' : OnDemandFields} {accepted : Bool}
    (hs' : accept catalogue s completion now = some (s', accepted)) :
    ∃ slot inFlight, s' = storeReading
        { forgetRead s completion.sequence read with inFlight := inFlight } completion.field slot
        (checkedReading catalogue ⟨completion.sequence, read.issuedAt⟩ completion now)
        (some (completion, now)) := by
  obtain ⟨-, -, -, slot, hslot, hpending, holder⟩ := h.live completion.sequence read hread
  have hwaits := hsound.pending read.field slot _ hslot hpending
  rw [hread, Option.some.injEq] at hwaits
  have hlive : read.abandoned = false := by rw [hwaits]
  obtain ⟨inFlight, hinFlight⟩ := hsound.inFlight_pos hread hlive
  rw [hfield] at hslot
  have hnewer : ¬slot.reading.any (completion.sequence ≤ ·.sequence) = true := by
    rw [Option.any_eq_true]
    rintro ⟨reading, hreading, hle⟩
    exact absurd (of_decide_eq_true hle) (Nat.not_le_of_lt (holder reading hreading))
  refine ⟨slot, inFlight, ?_⟩
  unfold accept at hs'
  rw [hread] at hs'
  dsimp only at hs'
  rw [hlive, if_neg Bool.false_ne_true,
    show (forgetRead s completion.sequence read).inFlight = inFlight + 1 from hinFlight] at hs'
  dsimp only at hs'
  unfold acceptLive at hs'
  rw [show (forgetRead s completion.sequence read).slots = s.slots from rfl, hslot] at hs'
  dsimp only at hs'
  rw [hpending] at hs'
  dsimp only at hs'
  rw [if_neg (not_not.mpr rfl), if_neg hnewer, Option.some.injEq, Prod.mk.injEq] at hs'
  exact hs'.1.symm

theorem Rotation.accept (h : Rotation fields history jobs start first s)
    (hsound : Sound catalogue limits kept s)
    (hread : s.outstanding[completion.sequence]? = some read)
    (hfield : read.field = completion.field) (slot : Slot) (inFlight : Nat)
    (answer : Option (Completion × SourceTime)) :
    Rotation fields history jobs start first (storeReading
        { forgetRead s completion.sequence read with inFlight := inFlight } completion.field slot
        (checkedReading catalogue ⟨completion.sequence, read.issuedAt⟩ completion now)
        answer) := by
  obtain ⟨hissued, hfirst, hserved, -⟩ := h.live completion.sequence read hread
  have hreadings := hsound.readingOf_forget hread
  obtain ⟨reading, hnew⟩ : ∃ reading,
      checkedReading catalogue ⟨completion.sequence, read.issuedAt⟩ completion now = reading :=
    ⟨_, rfl⟩
  have hsequence : reading.sequence = completion.sequence := by
    rw [← hnew]
    exact checkedReading_sequence _ completion now
  have hobserved : read.issuedAt ≤ reading.observedAt := by
    rw [← hnew]
    exact (checkedReading_observedAt ⟨completion.sequence, read.issuedAt⟩ completion now).1
  rw [hnew]
  refine ⟨h.grown, h.within, h.first_le, ?_, ?_, ?_⟩
  · intro other read' hread'
    change (s.outstanding.erase completion.sequence)[other]? = some read' at hread'
    rw [getElem?_drop] at hread'
    split_ifs at hread' with hsame
    obtain ⟨hissued', hfirst', hserved', slot', hslot', hrest⟩ := h.live other read' hread'
    refine ⟨hissued', hfirst', hserved', slot', ?_, hrest⟩
    dsimp only [OnDemand.storeReading, forgetRead]
    rw [getElem?_put, if_neg]
    · exact hslot'
    · exact fun heq => hsame (hsound.one_read hread hread' (hfield.trans heq))
  · intro field reading' hearly hshows
    dsimp only [OnDemand.storeReading, forgetRead] at hshows
    rw [shows_insert] at hshows
    split_ifs at hshows with heq
    · exact absurd (heq ▸ hfield ▸ hserved) hearly
    · exact h.early field reading' hearly hshows
  · intro field hlate
    dsimp only [OnDemand.storeReading]
    rw [hreadings, getElem?_drop, hfield]
    by_cases heq : completion.field = field
    · refine .inr ⟨reading, ?_, hissued.trans hobserved, ?_⟩
      · exact shows_insert.mpr ((if_pos heq).mpr rfl)
      · rwa [hsequence]
    · rcases h.late field hlate with ⟨sequence, hreading⟩ | ⟨old, hold, hbounds⟩
      · exact .inl ⟨sequence, (if_neg heq).trans hreading⟩
      · exact .inr ⟨old, shows_insert.mpr ((if_neg heq).mpr hold), hbounds⟩

/-- Every read outstanding is taken from the channel now, or `now` is before its deadline. -/
def Prompt (s : OnDemandFields) (now : SourceTime) : Prop :=
  ∀ (sequence : Nat) (read : Outstanding), s.outstanding[sequence]? = some read →
    (∃ completion ∈ s.completions, completion.sequence = sequence) ∨
      ageAt read.issuedAt now < s.limits.readDeadline

theorem Rotation.collectCompleted (h : Rotation fields history jobs start first s)
    (hsound : Sound catalogue limits kept s) {clock : Nat → SourceTime}
    (hprompt : Prompt s (clock s.completions.length)) :
    ∃ s' accepted, OnDemand.collectCompleted catalogue s clock = some (s', accepted) ∧
      Rotation fields history jobs start first s' := by
  obtain ⟨drained, accepted, hdrain, -, hempty, hdrained, hlast⟩ :=
    hsound.drain_keeps clock 0
      (P := fun _ s' => Rotation fields history jobs start first s' ∧
        Prompt s' (clock s.completions.length))
      ⟨h, hprompt⟩ (by
        rintro taken middle s' completion rest read accepted hmiddle hqueue hread hfield
          ⟨hrotation, hprompt⟩ hs'
        have hrest : Rotation fields history jobs start first { middle with completions := rest } :=
          { hrotation with }
        obtain ⟨slot, inFlight, rfl⟩ := hrest.accept_eq (hmiddle.rest hqueue) hread hfield hs'
        refine ⟨hrest.accept (hmiddle.rest hqueue) hread hfield slot inFlight _, ?_⟩
        intro other read' hread'
        change (middle.outstanding.erase completion.sequence)[other]? = some read' at hread'
        rw [getElem?_drop] at hread'
        split_ifs at hread' with hsame
        refine (hprompt other read' hread').imp_left ?_
        rintro ⟨answer, hanswer, hsequence⟩
        rw [hqueue, List.mem_cons] at hanswer
        rcases hanswer with rfl | hanswer
        · exact absurd hsequence hsame
        · exact ⟨answer, hanswer, hsequence⟩) rfl
  refine ⟨drained, accepted, ?_, hdrained⟩
  have hyoung := expire_young fun sequence read hread =>
    (hlast sequence read hread).resolve_left (by
      rintro ⟨completion, hcompletion, -⟩
      rw [hempty] at hcompletion
      cases hcompletion)
  unfold OnDemand.collectCompleted
  rw [hdrain]
  dsimp only
  rw [hyoung]
  rfl

theorem Rotation.answer (h : Rotation fields history jobs start first s) (sequence : Nat)
    (started finished : SourceTime) (result : FieldResult) :
    Rotation fields history jobs start first (answer s sequence started finished result) := by
  unfold OnDemand.answer
  split
  · exact h
  · exact { h with }

end Answers

section Turns

theorem Rotation.dispatch (h : Rotation fields history jobs start first s)
    (hsound : Sound catalogue limits kept s) (htimely : Timely s now) (hstart : start ≤ now)
    {field : FieldId} (hmem : field ∈ fields) {slot : Slot}
    (hslot : s.slots[field]? = some slot) (hidle : s.readingOf[field]? = none) :
    Rotation fields history (jobs ++ [⟨s.lastSequence + 1, field, now⟩]) start first
      (dispatch s field now) := by
  have hserved : ∀ other,
      other ∈ served (jobs ++ [⟨s.lastSequence + 1, field, now⟩]) ↔
        other ∈ served jobs ∨ other = field := by
    intro other
    rw [mem_served, mem_served, List.map_append, List.map_singleton, List.mem_append,
      List.mem_singleton]
  refine ⟨?_, ?_, h.first_le.trans (Nat.le_succ _), ?_, ?_, ?_⟩
  · dsimp only [OnDemand.dispatch]
    rw [h.grown, List.append_assoc]
  · intro other hother
    rcases (hserved other).mp hother with hold | rfl
    · exact h.within hold
    · exact hmem
  · intro sequence read hread
    dsimp only [OnDemand.dispatch] at hread ⊢
    rw [getElem?_put] at hread
    split_ifs at hread with heq
    · cases hread
      refine ⟨hstart, ?_, (hserved field).mpr (.inr rfl),
        { slot with pending := some ⟨s.lastSequence + 1, now⟩ }, ?_, heq ▸ rfl, ?_⟩
      · rw [← heq]
        exact Nat.lt_succ_of_le h.first_le
      · rw [getElem?_adjust, if_pos rfl, hslot]
        rfl
      · intro reading hreading
        rw [← heq]
        exact Nat.lt_succ_of_le (htimely.observed field reading ⟨slot, hslot, hreading⟩).2
    · obtain ⟨hissued, hfirst, hold, slot', hslot', hrest⟩ := h.live sequence read hread
      refine ⟨hissued, hfirst, (hserved _).mpr (.inl hold), slot', ?_, hrest⟩
      rw [getElem?_adjust, if_neg]
      · exact hslot'
      · -- The field that is read now has no other read.
        rintro rfl
        rw [(hsound.reading _ sequence).mpr ⟨read, hread, rfl⟩] at hidle
        cases hidle
  · intro other reading hearly hshows
    exact h.early other reading (fun hold => hearly ((hserved other).mpr (.inl hold)))
      ((shows_wait _).mp hshows)
  · intro other hlate
    dsimp only [OnDemand.dispatch]
    rw [getElem?_put]
    split_ifs with heq
    · exact .inl ⟨_, rfl⟩
    · have hold := ((hserved other).mp hlate).resolve_right fun hsame => heq hsame.symm
      refine (h.late other hold).imp_right ?_
      rintro ⟨reading, hshows, hbounds⟩
      exact ⟨reading, (shows_wait _).mpr hshows, hbounds⟩

theorem Rotation.dispatchDue (h : Rotation fields history jobs start first s)
    (hsound : Sound catalogue limits kept s) (htimely : Timely s now) (hstart : start ≤ now)
    (habandoned : s.abandoned = 0) (hlimits : limits.maxInFlight ≤ limits.maxAbandoned)
    {dues : List Due} (hdistinct : (dues.map Due.field).Nodup)
    (hdues : ∀ due ∈ dues, due.field ∈ fields ∧ s.readingOf[due.field]? = none ∧
      ∃ slot : Slot, s.slots[due.field]? = some slot) :
    ∃ more : List Job, Rotation fields history (jobs ++ more) start first
        (OnDemand.dispatchDue now s dues).1 ∧
      more.map Job.field = (dues.take (limits.maxInFlight - s.inFlight)).map Due.field := by
  induction dues generalizing s jobs with
  | nil =>
    refine ⟨[], ?_, ?_⟩
    · rwa [List.append_nil]
    · simp
  | cons due rest ih =>
    unfold OnDemand.dispatchDue
    rw [hsound.limits_eq, habandoned, Nat.add_zero]
    split_ifs with hfull
    · refine ⟨[], ?_, ?_⟩
      · rwa [List.append_nil]
      · rw [show limits.maxInFlight - s.inFlight = 0 by omega]
        rfl
    obtain ⟨hflight, hrunning⟩ := not_or.mp hfull
    rw [Nat.not_le] at hflight hrunning
    rw [List.map_cons, List.nodup_cons] at hdistinct
    obtain ⟨hmem, hidle, slot, hslot⟩ := hdues due List.mem_cons_self
    have hdispatched := h.dispatch hsound htimely hstart hmem hslot hidle
    have hsound' := hsound.dispatch hidle hflight (by omega) now
    obtain ⟨more, hmore, hfields⟩ := ih hdispatched hsound'
      (htimely.dispatch due.field (Nat.le_refl _)) habandoned hdistinct.2 (by
        intro other hother
        obtain ⟨hmem', hidle', slot', hslot'⟩ := hdues other (List.mem_cons_of_mem _ hother)
        have hne : due.field ≠ other.field := fun hsame =>
          hdistinct.1 (hsame ▸ List.mem_map_of_mem hother)
        refine ⟨hmem', ?_, slot', ?_⟩
        · exact (getElem?_put _ _ _ _).trans ((if_neg hne).trans hidle')
        · exact (getElem?_adjust _ _ _ _).trans ((if_neg hne).trans hslot'))
    refine ⟨⟨s.lastSequence + 1, due.field, now⟩ :: more, ?_, ?_⟩
    · rw [List.append_cons]
      exact hmore
    · have hroom : limits.maxInFlight - s.inFlight =
          limits.maxInFlight - (OnDemand.dispatch s due.field now).inFlight + 1 := by
        dsimp only [OnDemand.dispatch]
        omega
      rw [hroom, List.take_succ_cons, List.map_cons, List.map_cons, hfields]

structure Demandable (catalogue : Catalogue) (limits : Limits) (fields : Finset FieldId) :
    Prop where
  supports : ∀ field ∈ fields, ∃ spec, catalogue field.key = some spec ∧
    spec.supports .onDemand = true
  room : fields.card ≤ limits.maxFields

theorem Rotation.inFront (h : Rotation fields history jobs start first s)
    (hreading : ∀ field : FieldId, s.readingOf[field]? = none) {dues : List Due}
    (hdated : ∀ due ∈ dues, Dated s.slots due) :
    InFront (fun due => decide (due.field ∉ served jobs)) (dues.mergeSort dueLe) := by
  have hperm := List.mergeSort_perm dues dueLe
  refine inFront_of_sorted (List.pairwise_mergeSort dueLe_trans dueLe_total dues) ?_
  intro a ha b hb hearly hlate
  rw [decide_eq_true_eq] at hearly
  rw [decide_eq_true_eq, not_not] at hlate
  rcases h.late a.field hlate with ⟨sequence, hsequence⟩ | ⟨reading, hshows, hstart, hfirst⟩
  · rw [hreading] at hsequence
    cases hsequence
  have hlast := (hdated a (hperm.mem_iff.mp ha) _ _).mpr ⟨reading, hshows, rfl, rfl⟩
  refine dueLe_eq_false hlast hstart hfirst ?_
  intro time' sequence' hlast'
  obtain ⟨reading', hshows', rfl, rfl⟩ := (hdated b (hperm.mem_iff.mp hb) _ _).mp hlast'
  exact h.early b.field reading' hearly hshows'

theorem card_waiting_le {dues : List Due} (hdistinct : (dues.map Due.field).Nodup)
    (hfields : ∀ field, field ∈ dues.map Due.field ↔ field ∈ fields)
    (hfront : InFront (fun due => decide (due.field ∉ served jobs)) dues) {room : Nat}
    {more : List Job} (hmore : more.map Job.field = (dues.take room).map Due.field) :
    (fields \ served (jobs ++ more)).card ≤ (fields \ served jobs).card - room := by
  obtain ⟨waits, hwaits⟩ : ∃ waits : Due → Bool,
      (fun due => decide (due.field ∉ served jobs)) = waits := ⟨_, rfl⟩
  rw [hwaits] at hfront
  have hiff : ∀ due, waits due = true ↔ due.field ∉ served jobs := by
    intro due
    rw [← hwaits]
    exact decide_eq_true_iff
  have hafter : (fields \ served (jobs ++ more)).card ≤ (dues.drop room).countP waits := by
    rw [List.countP_eq_length_filter, ← List.length_map Due.field]
    refine (Finset.card_le_card ?_).trans (List.toFinset_card_le _)
    intro field hfield
    rw [Finset.mem_sdiff, mem_served, List.map_append, List.mem_append, not_or, hmore] at hfield
    obtain ⟨hmem, hnever, hnow⟩ := hfield
    obtain ⟨due, hdue, rfl⟩ := List.mem_map.mp ((hfields field).mpr hmem)
    rw [← List.take_append_drop room dues, List.mem_append] at hdue
    have hlater := hdue.resolve_left fun htaken => hnow (List.mem_map_of_mem htaken)
    refine List.mem_toFinset.mpr (List.mem_map_of_mem (List.mem_filter.mpr ⟨hlater, ?_⟩))
    exact (hiff due).mpr fun hold => hnever (mem_served.mp hold)
  have hbefore : dues.countP waits ≤ (fields \ served jobs).card := by
    have hnodup : ((dues.filter waits).map Due.field).Nodup :=
      hdistinct.sublist (List.filter_sublist.map _)
    rw [List.countP_eq_length_filter, ← List.length_map Due.field,
      ← List.toFinset_card_of_nodup hnodup]
    refine Finset.card_le_card ?_
    intro field hfield
    obtain ⟨due, hdue, rfl⟩ := List.mem_map.mp (List.mem_toFinset.mp hfield)
    obtain ⟨hmem, hwaiting⟩ := List.mem_filter.mp hdue
    exact Finset.mem_sdiff.mpr
      ⟨(hfields due.field).mp (List.mem_map_of_mem hmem), (hiff due).mp hwaiting⟩
  calc
    _ ≤ (dues.drop room).countP waits := hafter
    _ = dues.countP waits - room := countP_drop hfront room
    _ ≤ (fields \ served jobs).card - room := Nat.sub_le_sub_right hbefore room

theorem Rotation.survey (h : Rotation fields history jobs start first s)
    (hquiet : s.outstanding = ∅) {order : List FieldId}
    (hchosen : ∀ field, field ∈ order ↔ field ∈ fields) {visited : OnDemandFields × List Due}
    (hsurveyed : Surveyed { s with slots := s.slots.filter fun field _ => decide (field ∈ order) }
      visited order) :
    Rotation fields history jobs start first visited.1 := by
  have hshown : ∀ field reading, Shows visited.1.slots field reading ↔
      Shows s.slots field reading ∧ field ∈ order := fun field reading =>
    (hsurveyed.shows field reading).trans shows_filter
  rw [hsurveyed.same]
  refine ⟨h.grown, h.within, h.first_le, ?_, ?_, ?_⟩
  · intro sequence read hread
    change s.outstanding[sequence]? = some read at hread
    rw [hquiet] at hread
    simp at hread
  · intro field reading hearly hshows
    exact h.early field reading hearly ((hshown field reading).mp hshows).1
  · intro field hlate
    refine (h.late field hlate).imp_right ?_
    rintro ⟨reading, hshows, hbounds⟩
    exact ⟨reading, (hshown field reading).mpr ⟨hshows, (hchosen field).mpr (h.within hlate)⟩,
      hbounds⟩

theorem Rotation.demand (h : Rotation fields history jobs start first s)
    (hsound : Sound catalogue limits kept s) (htimely : Timely s now) (hstart : start ≤ now)
    (hquiet : s.outstanding = ∅) (hlimits : limits.maxInFlight ≤ limits.maxAbandoned)
    (hinterval : limits.minInterval = 0) (hdemandable : Demandable catalogue limits fields)
    {wanted : List FieldId} (hwanted : ∀ field, field ∈ wanted ↔ field ∈ fields) :
    ∃ s' report more, demand catalogue s now wanted = some (s', report) ∧
      Rotation fields history (jobs ++ more) start first s' ∧
      (fields \ served (jobs ++ more)).card ≤
        (fields \ served jobs).card - limits.maxInFlight := by
  obtain ⟨hinFlight, habandoned, hreading⟩ := hsound.quiet hquiet
  have hexpire : expire s now = some s := by
    apply expire_young
    intro sequence read hread
    rw [hquiet] at hread
    simp at hread
  have hchosen := mem_chooseFields hdemandable.supports hdemandable.room hwanted
  have hnodup := (chooseFields_bounded catalogue limits.maxFields wanted).1
  rw [← hsound.limits_eq] at hchosen hnodup
  unfold OnDemand.demand
  rw [hexpire]
  dsimp only [Option.map_some]
  unfold replaceDemand
  dsimp only
  generalize (chooseFields catalogue s.limits.maxFields wanted).1 = order at hchosen hnodup ⊢
  have hvisiting := hsound.survey hnodup now
  have hsurveyed : Surveyed
      { s with slots := s.slots.filter fun field _ => decide (field ∈ order) }
      (order.zipIdx.foldl (visitField now)
        ({ s with slots := s.slots.filter fun field _ => decide (field ∈ order) }, [])) order := by
    have hnone : Surveyed { s with slots := s.slots.filter fun field _ => decide (field ∈ order) }
        ({ s with slots := s.slots.filter fun field _ => decide (field ∈ order) }, []) [] :=
      ⟨rfl, fun _ _ => Iff.rfl, rfl, fun _ h => absurd h List.not_mem_nil,
        fun _ h => absurd h List.not_mem_nil⟩
    have hall := hnone.visitFields order.zipIdx hreading (hsound.limits_eq ▸ hinterval) now
    rwa [List.nil_append, List.zipIdx_map_fst] at hall
  generalize order.zipIdx.foldl (visitField now)
    ({ s with slots := s.slots.filter fun field _ => decide (field ∈ order) }, []) = visited
    at hvisiting hsurveyed ⊢
  have hrotation := h.survey hquiet hchosen hsurveyed
  have hsame := hsurveyed.same
  have hperm := List.mergeSort_perm visited.2 dueLe
  have hdistinct : ((visited.2.mergeSort dueLe).map Due.field).Nodup :=
    (hperm.map _).nodup_iff.mpr hvisiting.distinct
  have hfields : ∀ field, field ∈ (visited.2.mergeSort dueLe).map Due.field ↔ field ∈ fields := by
    intro field
    rw [(hperm.map _).mem_iff, hsurveyed.fields_eq, hchosen]
  have hfront := hrotation.inFront (by rw [hsame]; exact hreading)
    fun due hdue => hsurveyed.dated_after hdue
  have htimely' : Timely visited.1 now := by
    rw [hsame]
    exact htimely.withSlots fun field reading hshows =>
      (shows_filter.mp ((hsurveyed.shows field reading).mp hshows)).1
  obtain ⟨more, hmore, htaken⟩ := hrotation.dispatchDue hvisiting.sound htimely' hstart
    (by rw [hsame]; exact habandoned) hlimits hdistinct (by
      intro due hdue
      have hmem := List.mem_map_of_mem (f := Due.field) hdue
      refine ⟨(hfields due.field).mp hmem, ?_, ?_⟩
      · rw [hsame]
        exact hreading due.field
      · exact hsurveyed.placed due.field ((hchosen due.field).mpr ((hfields due.field).mp hmem)))
  rw [show visited.1.inFlight = 0 by rw [hsame]; exact hinFlight, Nat.sub_zero] at htaken
  exact ⟨_, _, more, rfl, hmore, card_waiting_le hdistinct hfields hfront htaken⟩

end Turns

end Rotation

section Runs

/-- A demand wants the same fields each time, in any order and as often as it likes, and comes
when every read has been answered and collected; a read is collected before its deadline. -/
def Steady (fields : Finset FieldId) (s : OnDemandFields) : Input → Prop
  | .demand _ wanted => s.outstanding = ∅ ∧ ∀ field, field ∈ wanted ↔ field ∈ fields
  | .answer .. => True
  | .collectCompleted clock => Prompt s (clock s.completions.length)

/-- The clock goes back in no input of a run, and every input is steady. -/
def Steadily (catalogue : Catalogue) (fields : Finset FieldId) :
    OnDemandFields → SourceTime → List Input → Prop
  | _, _, [] => True
  | s, time, input :: rest =>
    InOrder time input ∧ Steady fields s input ∧
      ∀ s', step catalogue s input = some s' →
        Steadily catalogue fields s' (timeAfter s time input) rest

def Input.isDemand : Input → Bool
  | .demand .. => true
  | _ => false

variable {fields : Finset FieldId} {history jobs : List Job} {start : SourceTime} {first : Nat}

theorem room_of_validate (h : limits.validate = .ok ()) :
    0 < limits.maxInFlight ∧ limits.maxInFlight ≤ limits.maxAbandoned := by
  unfold Limits.validate at h
  split_ifs at h
  omega

theorem Reached.next (h : Reached catalogue limits s time) {input : Input}
    (horder : InOrder time input) :
    ∃ s', OnDemand.step catalogue s input = some s' ∧
      Reached catalogue limits s' (timeAfter s time input) := by
  obtain ⟨-, kept, hsound, htimely⟩ := h.sound
  obtain ⟨s', -, hs', -⟩ := htimely.step hsound horder
  exact ⟨s', hs', h.step horder hs'⟩

theorem Rotation.step (h : Rotation fields history jobs start first s)
    (hreached : Reached catalogue limits s time) (hstart : start ≤ time)
    (hinterval : limits.minInterval = 0) (hdemandable : Demandable catalogue limits fields)
    {input : Input} (horder : InOrder time input) (hsteady : Steady fields s input) :
    ∃ s' more, OnDemand.step catalogue s input = some s' ∧
      Rotation fields history (jobs ++ more) start first s' ∧
      (fields \ served (jobs ++ more)).card ≤
        (fields \ served jobs).card - [input].countP Input.isDemand * limits.maxInFlight := by
  obtain ⟨hvalidate, kept, hsound, htimely⟩ := hreached.sound
  cases input with
  | demand now wanted =>
    obtain ⟨s', report, more, hs', hrotation, hcard⟩ :=
      h.demand hsound (htimely.mono horder) (hstart.trans horder) hsteady.1
        (room_of_validate hvalidate).2 hinterval hdemandable hsteady.2
    refine ⟨s', more, ?_, hrotation, ?_⟩
    · dsimp only [OnDemand.step]
      rw [hs']
      rfl
    · rw [List.countP_singleton, Input.isDemand, if_pos rfl, Nat.one_mul]
      exact hcard
  | answer sequence started finished result =>
    refine ⟨_, [], rfl, ?_, ?_⟩
    · rw [List.append_nil]
      exact h.answer sequence started finished result
    · simp [Input.isDemand]
  | collectCompleted clock =>
    obtain ⟨s', accepted, hs', hrotation⟩ := h.collectCompleted hsound hsteady
    refine ⟨s', [], ?_, ?_, ?_⟩
    · dsimp only [OnDemand.step]
      rw [hs']
      rfl
    · rwa [List.append_nil]
    · simp [Input.isDemand]

theorem Rotation.run (h : Rotation fields history jobs start first s)
    (hreached : Reached catalogue limits s time) (hstart : start ≤ time)
    (hinterval : limits.minInterval = 0) (hdemandable : Demandable catalogue limits fields)
    {inputs : List Input} (hsteady : Steadily catalogue fields s time inputs) :
    ∃ s' more, inputs.foldlM (OnDemand.step catalogue) s = some s' ∧
      Rotation fields history (jobs ++ more) start first s' ∧
      (fields \ served (jobs ++ more)).card ≤
        (fields \ served jobs).card - inputs.countP Input.isDemand * limits.maxInFlight := by
  induction inputs generalizing s time jobs with
  | nil =>
    refine ⟨s, [], rfl, ?_, ?_⟩
    · rwa [List.append_nil]
    · simp
  | cons input rest ih =>
    obtain ⟨horder, hinput, hrest⟩ := hsteady
    obtain ⟨middle, taken, hmiddle, hrotation, hcard⟩ :=
      h.step hreached hstart hinterval hdemandable horder hinput
    obtain ⟨s', more, hs', hrotation', hcard'⟩ :=
      ih hrotation (hreached.step horder hmiddle) (hstart.trans (horder.le s))
        (hrest middle hmiddle)
    refine ⟨s', taken ++ more, ?_, ?_, ?_⟩
    · rw [List.foldlM_cons, hmiddle]
      exact hs'
    · rwa [List.append_assoc] at hrotation'
    · rw [List.append_assoc] at hcard'
      rw [← List.singleton_append, List.countP_append, Nat.add_mul]
      omega

theorem Reached.turns (hreached : Reached catalogue limits s time)
    (hinterval : limits.minInterval = 0) (hdemandable : Demandable catalogue limits fields)
    {inputs : List Input} (hsteady : Steadily catalogue fields s time inputs) :
    ∃ s' jobs, inputs.foldlM (OnDemand.step catalogue) s = some s' ∧
      s'.dispatched = s.dispatched ++ jobs ∧
      (fields \ served jobs).card ≤
        fields.card - inputs.countP Input.isDemand * limits.maxInFlight := by
  induction inputs generalizing s time with
  | nil => exact ⟨s, [], rfl, (List.append_nil _).symm, by simp⟩
  | cons input rest ih =>
    obtain ⟨-, kept, hsound, htimely⟩ := hreached.sound
    have hwhole := hsteady
    obtain ⟨horder, hinput, hrest⟩ := hsteady
    -- Before the first demand nothing is dispatched.
    have hskip : input.isDemand = false →
        (∀ s', OnDemand.step catalogue s input = some s' → s'.dispatched = s.dispatched) →
        ∃ s' jobs, (input :: rest).foldlM (OnDemand.step catalogue) s = some s' ∧
          s'.dispatched = s.dispatched ++ jobs ∧
          (fields \ served jobs).card ≤
            fields.card - (input :: rest).countP Input.isDemand * limits.maxInFlight := by
      intro hdemand hsame
      obtain ⟨middle, hmiddle, hnext⟩ := hreached.next horder
      obtain ⟨s', jobs, hs', hgrown, hcard⟩ := ih hnext (hrest middle hmiddle)
      refine ⟨s', jobs, ?_, hsame middle hmiddle ▸ hgrown, ?_⟩
      · rw [List.foldlM_cons, hmiddle]
        exact hs'
      · rwa [List.countP_cons_of_neg (by rw [hdemand]; exact Bool.false_ne_true)]
    cases input with
    | demand now wanted =>
      obtain ⟨s', jobs, hs', hrotation, hcard⟩ :=
        (rotation_begins fields hinput.1 htimely).run hreached (Nat.le_refl _) hinterval
          hdemandable hwhole
      refine ⟨s', jobs, hs', hrotation.grown, ?_⟩
      rwa [List.nil_append, served_nil, Finset.sdiff_empty] at hcard
    | answer sequence started finished result =>
      refine hskip rfl ?_
      intro s' hs'
      obtain rfl := Option.some.inj hs'
      exact (htimely.answer sequence started finished result).2
    | collectCompleted clock =>
      refine hskip rfl ?_
      intro s' hs'
      obtain ⟨collected, accepted, hcollect, -, -, hsame⟩ :=
        htimely.collectCompleted hsound horder.1 horder.2
      dsimp only [OnDemand.step] at hs'
      rw [hcollect] at hs'
      obtain rfl := Option.some.inj hs'
      exact hsame

theorem Reached.run (hreached : Reached catalogue limits s time) {before window : List Input}
    (hsteady : Steadily catalogue fields s time (before ++ window)) :
    ∃ middle later, before.foldlM (OnDemand.step catalogue) s = some middle ∧
      Reached catalogue limits middle later ∧ Steadily catalogue fields middle later window := by
  induction before generalizing s time with
  | nil => exact ⟨s, time, rfl, hreached, hsteady⟩
  | cons input rest ih =>
    obtain ⟨horder, -, hrest⟩ := hsteady
    obtain ⟨next, hnext, hreached'⟩ := hreached.next horder
    obtain ⟨middle, later, hmiddle, hlater⟩ := ih hreached' (hrest next hnext)
    refine ⟨middle, later, ?_, hlater⟩
    rw [List.foldlM_cons, hnext]
    exact hmiddle

/-- Dispatch is fair: wherever it starts in a steady run, a window of as many demands as it takes
to read all fields once dispatches every one of them. -/
theorem every_field_has_its_turn (catalogue : Catalogue) (limits : Limits) (s : OnDemandFields)
    (time : SourceTime) (hreached : Reached catalogue limits s time)
    (fields : Finset FieldId)
    (hsupports : ∀ field ∈ fields, ∃ spec, catalogue field.key = some spec ∧
      spec.supports .onDemand = true)
    (hroom : fields.card ≤ limits.maxFields) (hinterval : limits.minInterval = 0)
    (before window : List Input)
    (hsteady : Steadily catalogue fields s time (before ++ window))
    (hcalls : (fields.card + limits.maxInFlight - 1) / limits.maxInFlight ≤
      window.countP Input.isDemand) :
    ∃ middle last jobs, before.foldlM (step catalogue) s = some middle ∧
      window.foldlM (step catalogue) middle = some last ∧
      last.dispatched = middle.dispatched ++ jobs ∧
      ∀ field ∈ fields, ∃ job ∈ jobs, job.field = field := by
  obtain ⟨middle, later, hmiddle, hreached', hwindow⟩ := hreached.run hsteady
  obtain ⟨last, jobs, hlast, hgrown, hcard⟩ := hreached'.turns hinterval ⟨hsupports, hroom⟩ hwindow
  have hpositive := (room_of_validate hreached.sound.1).1
  have hall := le_mul_of_ceil_le hpositive hcalls
  have hnone : fields \ served jobs = ∅ := Finset.card_eq_zero.mp (by omega)
  refine ⟨middle, last, jobs, hmiddle, hlast, hgrown, ?_⟩
  intro field hfield
  have hserved := (Finset.sdiff_eq_empty_iff_subset.mp hnone) hfield
  exact List.mem_map.mp (mem_served.mp hserved)

def oneByOne : Limits := { Limits.default with minInterval := 0, maxInFlight := 1 }

def anyCatalogue : Catalogue := fun _ => some ⟨.unsignedInteger, [.onDemand]⟩

variable {field other : FieldId}

theorem first_read (hne : field ≠ other) :
    ∃ s s', step anyCatalogue (.opened oneByOne) (.demand 0 [field, other]) = some s ∧
      step anyCatalogue s (.answer 1 2 3 (.ok (.unsignedInteger 7))) = some s' ∧ Prompt s' 4 ∧
      ∀ last, step anyCatalogue s' (.collectCompleted fun _ => 4) = some last →
        last.outstanding = ∅ := by
  have hnone : (∅ : ExtTreeMap Nat Outstanding).keys = [] := rfl
  have hgone : ((∅ : ExtTreeMap Nat Outstanding).insert 1 ⟨field, 0, false⟩).erase 1 = ∅ := by
    apply ExtTreeMap.ext_getElem?
    intro sequence
    rw [getElem?_drop, getElem?_put]
    split_ifs
    · simp
    · rfl
  have hsorted : [(⟨none, 0, field⟩ : Due), ⟨none, 1, other⟩].mergeSort dueLe =
      [⟨none, 0, field⟩, ⟨none, 1, other⟩] := List.mergeSort_of_pairwise (by simp [dueLe])
  have hdemand : step anyCatalogue (.opened oneByOne) (.demand 0 [field, other]) =
      some (dispatch { OnDemandFields.opened oneByOne with
        slots := (((∅ : ExtTreeMap FieldId Slot).filter fun wanted _ =>
          decide (wanted ∈ [field, other])).insert field (Slot.new 0)).insert other (Slot.new 0) }
        field 0) := by
    simp [step, demand, expire, OnDemandFields.opened, replaceDemand, chooseFields, chooseField,
      visitField, dispatchDue, dispatch, anyCatalogue, MetricSpec.supports, oneByOne,
      Limits.default, Slot.new, ExtTreeMap.getElem?_insert, hnone, hne, hne.symm, hsorted]
  refine ⟨_, _, hdemand, rfl, ?_, ?_⟩
  · intro sequence read hread
    refine .inl ⟨_, List.mem_singleton_self _, ?_⟩
    change ((∅ : ExtTreeMap Nat Outstanding).insert 1 ⟨field, 0, false⟩)[sequence]? =
      some read at hread
    rw [getElem?_put] at hread
    split_ifs at hread with heq
    · exact heq
    · simp at hread
  · intro last hlast
    simp [step, collectCompleted, answer, dispatch, drain, accept, acceptLive, forgetRead,
      storeReading, expire, OnDemandFields.opened, Slot.new, ExtTreeMap.getElem_insert, hnone,
      hgone, hne.symm] at hlast
    rw [← hlast]

def uptime : FieldId := ⟨anyProcess, "uptime"⟩

def threads : FieldId := ⟨anyProcess, "threads"⟩

def takingTurns : List Input :=
  [.demand 0 [uptime, threads], .answer 1 2 3 (.ok (.unsignedInteger 7)),
    .collectCompleted fun _ => 4, .demand 4 [threads, uptime]]

theorem takingTurns_steadily :
    Steadily anyCatalogue {uptime, threads} (.opened oneByOne) 0 takingTurns := by
  obtain ⟨read, answered, hread, hanswered, hprompt, hquiet⟩ :=
    first_read (show uptime ≠ threads by decide)
  refine ⟨Nat.zero_le 0, ⟨rfl, by simp⟩, ?_⟩
  intro s hs
  obtain rfl := Option.some.inj (hread.symm.trans hs)
  refine ⟨trivial, trivial, ?_⟩
  intro s' hs'
  obtain rfl := Option.some.inj (hanswered.symm.trans hs')
  refine ⟨⟨Nat.zero_le 4, monotone_const⟩, hprompt, ?_⟩
  intro last hlast
  exact ⟨Nat.le_refl 4, ⟨hquiet last hlast, by simp [or_comm]⟩, fun _ _ => trivial⟩

/-- Two fields that are read one at a time, and demanded twice. -/
theorem both_fields_have_their_turn :
    ∃ last, takingTurns.foldlM (step anyCatalogue) (.opened oneByOne) = some last ∧
      ∀ field ∈ ({uptime, threads} : Finset FieldId), ∃ job ∈ last.dispatched,
        job.field = field := by
  obtain ⟨middle, last, jobs, hmiddle, hlast, hgrown, hall⟩ :=
    every_field_has_its_turn anyCatalogue oneByOne (.opened oneByOne) 0 (.opened 0 rfl)
      {uptime, threads} (fun _ _ => ⟨_, rfl, rfl⟩) (by decide) rfl [] takingTurns
      takingTurns_steadily (by decide)
  obtain rfl := Option.some.inj hmiddle
  refine ⟨last, hlast, fun field hfield => ?_⟩
  obtain ⟨job, hjob, hsame⟩ := hall field hfield
  exact ⟨job, hgrown ▸ List.mem_append_right _ hjob, hsame⟩

end Runs

end Srui.Srtop.OnDemand
