import Srui.Basic.MapCounts
import Srui.Srtop.OnDemand

/-!
The accounts of on-demand collection: every read that is outstanding is counted once and belongs
to one field, and a field shows only what its own reads have answered.
-/

namespace Srui.Srtop.OnDemand

open Std Basic.FiniteMaps Basic.MapCounts

variable {catalogue : Catalogue} {limits : Limits} {kept : List FieldId} {s : OnDemandFields}

/-- A value comes from a read of its field: the read was issued, started, finished and collected
in this order, its answer was stored, and it has the type of the catalogue. -/
def Measured (catalogue : Catalogue) (s : OnDemandFields) (field : FieldId) (reading : Reading)
    (value : RawValue) : Prop :=
  ∃ issuedAt finished collectedAt,
    ⟨reading.sequence, field, issuedAt⟩ ∈ s.dispatched ∧
    ⟨field, reading,
      some (⟨field, reading.sequence, reading.observedAt, finished, .ok value⟩, collectedAt)⟩ ∈
        s.stored ∧
    issuedAt ≤ reading.observedAt ∧ reading.observedAt ≤ finished ∧ finished ≤ collectedAt ∧
    ∃ spec, catalogue field.key = some spec ∧ spec.raw = value.rawType

variable {field : FieldId}

theorem Measured.mono {s' : OnDemandFields} {reading : Reading} {value : RawValue}
    (h : Measured catalogue s field reading value) (hdispatched : s.dispatched ⊆ s'.dispatched)
    (hstored : s.stored ⊆ s'.stored) :
    Measured catalogue s' field reading value := by
  obtain ⟨issuedAt, finished, collectedAt, hissued, hstore, hrest⟩ := h
  exact ⟨issuedAt, finished, collectedAt, hdispatched hissued, hstored hstore, hrest⟩

/-- The invariant of the collector; `kept` are the fields demanded last. -/
structure Sound (catalogue : Catalogue) (limits : Limits) (kept : List FieldId)
    (s : OnDemandFields) : Prop where
  limits_eq : s.limits = limits
  within : ∀ (field : FieldId) (slot : Slot), s.slots[field]? = some slot → field ∈ kept
  inFlight_eq : s.inFlight = countOf s.outstanding fun read => !read.abandoned
  abandoned_eq : s.abandoned = countOf s.outstanding fun read => read.abandoned
  inFlight_le : s.inFlight ≤ limits.maxInFlight
  running_le : s.inFlight + s.abandoned ≤ limits.maxAbandoned
  reading : ∀ (field : FieldId) (sequence : Nat), s.readingOf[field]? = some sequence ↔
    ∃ read : Outstanding, s.outstanding[sequence]? = some read ∧ read.field = field
  outstanding_le : ∀ (sequence : Nat) (read : Outstanding), s.outstanding[sequence]? = some read →
    sequence ≤ s.lastSequence
  pending : ∀ (field : FieldId) (slot : Slot) (pending : Pending), s.slots[field]? = some slot →
    slot.pending = some pending →
      s.outstanding[pending.sequence]? = some ⟨field, pending.issuedAt, false⟩
  owed : ∀ job ∈ s.jobs, ∃ read : Outstanding,
    s.outstanding[job.sequence]? = some read ∧ read.field = job.field
  answered : ∀ completion ∈ s.completions, ∃ read : Outstanding,
    s.outstanding[completion.sequence]? = some read ∧ read.field = completion.field
  once : (s.jobs.map (·.sequence) ++ s.completions.map (·.sequence)).Nodup
  increasing : s.stored.Pairwise fun earlier later =>
    earlier.field = later.field → earlier.reading.sequence < later.reading.sequence
  stored_le : ∀ store ∈ s.stored, store.reading.sequence ≤ s.lastSequence
  before : ∀ (sequence : Nat) (read : Outstanding), s.outstanding[sequence]? = some read →
    read.abandoned = false → ∀ store ∈ s.stored, store.field = read.field →
      store.reading.sequence < sequence
  dispatched_le : ∀ job ∈ s.dispatched, job.sequence ≤ s.lastSequence
  dispatched_once : (s.dispatched.map (·.sequence)).Nodup
  issued : ∀ (sequence : Nat) (read : Outstanding), s.outstanding[sequence]? = some read →
    ⟨sequence, read.field, read.issuedAt⟩ ∈ s.dispatched
  measured : ∀ (field : FieldId) (slot : Slot) (reading : Reading) (value : RawValue),
    s.slots[field]? = some slot → slot.reading = some reading → reading.result = .ok value →
      Measured catalogue s field reading value

theorem sound_opened (catalogue : Catalogue) (limits : Limits) :
    Sound catalogue limits [] (.opened limits) := by
  constructor <;> simp [OnDemandFields.opened, countOf_empty]

def Unwatched (s : OnDemandFields) (sequence : Nat) : Prop :=
  ∀ (field : FieldId) (slot : Slot) (pending : Pending), s.slots[field]? = some slot →
    slot.pending = some pending → pending.sequence ≠ sequence

section Slots

variable {field : FieldId}

theorem Sound.putSlot (h : Sound catalogue limits kept s) {slot : Slot}
    (hkept : field ∈ kept)
    (hpending : ∀ pending, slot.pending = some pending →
      s.outstanding[pending.sequence]? = some ⟨field, pending.issuedAt, false⟩)
    (hmeasured : ∀ reading value, slot.reading = some reading → reading.result = .ok value →
      Measured catalogue s field reading value) :
    Sound catalogue limits kept { s with slots := s.slots.insert field slot } := by
  refine { h with within := ?_, pending := ?_, measured := ?_ }
  · intro other slot' hslot
    rw [getElem?_put] at hslot
    split_ifs at hslot with heq
    · exact heq ▸ hkept
    · exact h.within other slot' hslot
  · intro other slot' pending hslot hwaits
    rw [getElem?_put] at hslot
    split_ifs at hslot with heq
    · cases hslot
      exact heq ▸ hpending pending hwaits
    · exact h.pending other slot' pending hslot hwaits
  · intro other slot' reading value hslot hreading hvalue
    rw [getElem?_put] at hslot
    split_ifs at hslot with heq
    · cases hslot
      exact heq ▸ hmeasured reading value hreading hvalue
    · exact h.measured other slot' reading value hslot hreading hvalue

theorem Sound.clearPending (h : Sound catalogue limits kept s) {slot : Slot}
    (hslot : s.slots[field]? = some slot) :
    Sound catalogue limits kept
      { s with slots := s.slots.insert field { slot with pending := none } } :=
  h.putSlot (h.within field slot hslot) nofun fun reading value hreading hvalue =>
    h.measured field slot reading value hslot hreading hvalue

variable {read : Outstanding}

variable (h : Sound catalogue limits kept s)

include h

theorem Sound.unwatched {sequence : Nat} (hread : s.outstanding[sequence]? = some read)
    (hslot : ∀ (slot : Slot) (pending : Pending), s.slots[read.field]? = some slot →
      slot.pending = some pending →
      pending.sequence ≠ sequence) : Unwatched s sequence := by
  intro field slot pending hfield hpending hsame
  have hwaits := h.pending field slot pending hfield hpending
  rw [hsame, hread, Option.some.injEq] at hwaits
  have hown : read.field = field := by rw [hwaits]
  exact hslot slot pending (hown ▸ hfield) hpending hsame

theorem Sound.unwatched_abandoned {sequence : Nat} (hread : s.outstanding[sequence]? = some read)
    (habandoned : read.abandoned = true) :
    Unwatched s sequence := by
  intro field slot pending hfield hpending hsame
  have hwaits := h.pending field slot pending hfield hpending
  rw [hsame, hread, Option.some.injEq] at hwaits
  rw [hwaits] at habandoned
  cases habandoned

theorem Sound.unwatched_cleared {sequence : Nat} (hread : s.outstanding[sequence]? = some read)
    (slot : Slot) :
    Unwatched { s with slots := s.slots.insert read.field { slot with pending := none } }
      sequence := by
  intro field slot' pending hfield hpending hsame
  rw [getElem?_put] at hfield
  split_ifs at hfield with heq
  · cases hfield
    cases hpending
  · have hwaits := h.pending field slot' pending hfield hpending
    rw [hsame, hread, Option.some.injEq] at hwaits
    exact heq (by rw [hwaits])

theorem Sound.storeReading (slot : Slot) (reading : Reading)
    (answer : Option (Completion × SourceTime)) (hkept : field ∈ kept)
    (hle : reading.sequence ≤ s.lastSequence)
    (hnewer : ∀ store ∈ s.stored, store.field = field → store.reading.sequence < reading.sequence)
    (hidle : ∀ (sequence : Nat) (read : Outstanding), s.outstanding[sequence]? = some read →
      read.abandoned = false →
      read.field ≠ field) (hmeasured : ∀ value, reading.result = .ok value →
      Measured catalogue (storeReading s field slot reading answer) field reading value) :
    Sound catalogue limits kept (storeReading s field slot reading answer) := by
  have hmem : ∀ store ∈ s.stored ++ [⟨field, reading, answer⟩],
      store ∈ s.stored ∨ store = ⟨field, reading, answer⟩ := by
    intro store hstore
    rwa [List.mem_append, List.mem_singleton] at hstore
  have hput : Sound catalogue limits kept
      { s with stored := s.stored ++ [⟨field, reading, answer⟩] } := by
    refine { h with increasing := ?_, stored_le := ?_, before := ?_, measured := ?_ }
    · refine List.pairwise_append.mpr ⟨h.increasing, List.pairwise_singleton _ _, ?_⟩
      intro store hstore later hlater hsame
      rw [List.mem_singleton] at hlater
      rw [hlater] at hsame ⊢
      exact hnewer store hstore hsame
    · intro store hstore
      rcases hmem store hstore with hold | rfl
      · exact h.stored_le store hold
      · exact hle
    · intro sequence read hread hlive store hstore hsame
      rcases hmem store hstore with hold | rfl
      · exact h.before sequence read hread hlive store hold hsame
      · exact absurd hsame.symm (hidle sequence read hread hlive)
    · intro other slot' reading' value hslot hreading hvalue
      exact (h.measured other slot' reading' value hslot hreading hvalue).mono
        (List.Subset.refl _) (List.subset_append_left _ _)
  refine hput.putSlot hkept nofun ?_
  intro reading' value hreading hvalue
  cases hreading
  exact hmeasured value hvalue

end Slots

section Reads

def abandonRead (s : OnDemandFields) (sequence : Nat) (read : Outstanding) (inFlight : Nat) :
    OnDemandFields :=
  { s with
    outstanding := s.outstanding.insert sequence { read with abandoned := true }
    inFlight := inFlight
    abandoned := s.abandoned + 1 }

variable {inFlight sequence : Nat} {read : Outstanding}

theorem outstanding_of_abandoned {other : Nat} {read' : Outstanding}
    (hread : s.outstanding[sequence]? = some read)
    (hafter : (abandonRead s sequence read inFlight).outstanding[other]? = some read') :
    ∃ old : Outstanding, s.outstanding[other]? = some old ∧ old.field = read'.field ∧
      old.issuedAt = read'.issuedAt ∧ (read'.abandoned = false → old = read') := by
  rw [abandonRead, getElem?_put] at hafter
  split_ifs at hafter with heq
  · cases hafter
    exact ⟨read, heq ▸ hread, rfl, rfl, nofun⟩
  · exact ⟨read', hafter, rfl, rfl, fun _ => rfl⟩

theorem abandoned_of_outstanding {other : Nat} {old : Outstanding} (inFlight : Nat)
    (hread : s.outstanding[sequence]? = some read) (hold : s.outstanding[other]? = some old) :
    ∃ read' : Outstanding,
      (abandonRead s sequence read inFlight).outstanding[other]? = some read' ∧
        read'.field = old.field := by
  rw [abandonRead, getElem?_put]
  split_ifs with heq
  · rw [← heq, hread, Option.some.injEq] at hold
    exact ⟨_, rfl, (congrArg Outstanding.field hold : read.field = old.field)⟩
  · exact ⟨old, hold, rfl⟩

variable (h : Sound catalogue limits kept s) (hread : s.outstanding[sequence]? = some read)

include h hread

theorem Sound.abandonRead (hlive : read.abandoned = false) (hunwatched : Unwatched s sequence)
    (hinFlight : s.inFlight = inFlight + 1) :
    Sound catalogue limits kept (abandonRead s sequence read inFlight) := by
  have hcount := countOf_insert_of_present { read with abandoned := true } hread
  refine { h with
    inFlight_eq := ?_, abandoned_eq := ?_, inFlight_le := ?_, running_le := ?_, reading := ?_,
    outstanding_le := ?_, pending := ?_, owed := ?_, answered := ?_, before := ?_, issued := ?_ }
  · have hlost := hcount fun read => !read.abandoned
    have heq := h.inFlight_eq
    simp only [hlive, Bool.not_false, Bool.not_true, Bool.toNat_true, Bool.toNat_false] at hlost
    dsimp only [OnDemand.abandonRead]
    omega
  · have hgained := hcount fun read => read.abandoned
    have heq := h.abandoned_eq
    simp only [hlive, Bool.toNat_true, Bool.toNat_false] at hgained
    dsimp only [OnDemand.abandonRead]
    omega
  · have hle := h.inFlight_le
    dsimp only [OnDemand.abandonRead]
    omega
  · have hle := h.running_le
    dsimp only [OnDemand.abandonRead]
    omega
  · intro field other
    refine (h.reading field other).trans ⟨?_, ?_⟩
    · rintro ⟨old, hold, hfield⟩
      obtain ⟨read', hread', hsame⟩ := abandoned_of_outstanding inFlight hread hold
      exact ⟨read', hread', hsame.trans hfield⟩
    · rintro ⟨read', hread', hfield⟩
      obtain ⟨old, hold, hsame, -⟩ := outstanding_of_abandoned hread hread'
      exact ⟨old, hold, hsame.trans hfield⟩
  · intro other read' hread'
    obtain ⟨old, hold, -⟩ := outstanding_of_abandoned hread hread'
    exact h.outstanding_le other old hold
  · intro field slot pending hslot hpending
    have hwaits := h.pending field slot pending hslot hpending
    have hother := hunwatched field slot pending hslot hpending
    rw [OnDemand.abandonRead, getElem?_put, if_neg (Ne.symm hother)]
    exact hwaits
  · intro job hjob
    obtain ⟨old, hold, hfield⟩ := h.owed job hjob
    obtain ⟨read', hread', hsame⟩ := abandoned_of_outstanding inFlight hread hold
    exact ⟨read', hread', hsame.trans hfield⟩
  · intro completion hcompletion
    obtain ⟨old, hold, hfield⟩ := h.answered completion hcompletion
    obtain ⟨read', hread', hsame⟩ := abandoned_of_outstanding inFlight hread hold
    exact ⟨read', hread', hsame.trans hfield⟩
  · intro other read' hread' hlive' store hstore hsame
    obtain ⟨old, hold, -, -, heq⟩ := outstanding_of_abandoned hread hread'
    obtain rfl := heq hlive'
    exact h.before other old hold hlive' store hstore hsame
  · intro other read' hread'
    obtain ⟨old, hold, hfield, hissuedAt, -⟩ := outstanding_of_abandoned hread hread'
    rw [← hfield, ← hissuedAt]
    exact h.issued other old hold

theorem Sound.one_read {sequence' : Nat} {read' : Outstanding}
    (hread' : s.outstanding[sequence']? = some read') (hsame : read.field = read'.field) :
    sequence = sequence' := by
  have hown := (h.reading read.field sequence).mpr ⟨read, hread, rfl⟩
  have hother := (h.reading read.field sequence').mpr ⟨read', hread', hsame.symm⟩
  exact Option.some.inj (hown.symm.trans hother)

theorem Sound.readingOf_forget :
    (forgetRead s sequence read).readingOf = s.readingOf.erase read.field := by
  rw [forgetRead]
  exact if_pos ((h.reading read.field sequence).mpr ⟨read, hread, rfl⟩)

theorem Sound.forgetRead {abandoned : Nat} (hunwatched : Unwatched s sequence)
    (hinFlight : s.inFlight = inFlight + (!read.abandoned).toNat)
    (habandoned : s.abandoned = abandoned + read.abandoned.toNat)
    (howed : ∀ job ∈ s.jobs, job.sequence ≠ sequence)
    (hanswered : ∀ completion ∈ s.completions, completion.sequence ≠ sequence) :
    Sound catalogue limits kept
      { forgetRead s sequence read with inFlight := inFlight, abandoned := abandoned } := by
  have hkept : ∀ (other : Nat) (old : Outstanding),
      (s.outstanding.erase sequence)[other]? = some old ↔
        sequence ≠ other ∧ s.outstanding[other]? = some old := by
    intro other old
    rw [getElem?_drop]
    split_ifs with heq
    · exact ⟨nofun, fun hboth => absurd heq hboth.1⟩
    · exact ⟨fun hold => ⟨heq, hold⟩, And.right⟩
  refine { h with
    inFlight_eq := ?_, abandoned_eq := ?_, inFlight_le := ?_, running_le := ?_, reading := ?_,
    outstanding_le := ?_, pending := ?_, owed := ?_, answered := ?_, before := ?_, issued := ?_ }
  · have hlost := countOf_erase_of_present hread fun read => !read.abandoned
    have heq := h.inFlight_eq
    dsimp only [OnDemand.forgetRead] at hlost ⊢
    omega
  · have hlost := countOf_erase_of_present hread fun read => read.abandoned
    have heq := h.abandoned_eq
    dsimp only [OnDemand.forgetRead] at hlost ⊢
    omega
  · have hle := h.inFlight_le
    dsimp only
    omega
  · have hle := h.running_le
    dsimp only
    omega
  · intro field other
    change (OnDemand.forgetRead s sequence read).readingOf[field]? = some other ↔
      ∃ old, (s.outstanding.erase sequence)[other]? = some old ∧ old.field = field
    rw [h.readingOf_forget hread, getElem?_drop]
    split_ifs with heq
    · refine ⟨nofun, ?_⟩
      rintro ⟨old, hold, hfield⟩
      obtain ⟨hne, hold⟩ := (hkept other old).mp hold
      exact absurd (h.one_read hread hold (heq.trans hfield.symm)) hne
    · refine (h.reading field other).trans ⟨?_, ?_⟩
      · rintro ⟨old, hold, hfield⟩
        refine ⟨old, (hkept other old).mpr ⟨?_, hold⟩, hfield⟩
        rintro rfl
        rw [hread, Option.some.injEq] at hold
        exact heq ((congrArg Outstanding.field hold).trans hfield)
      · rintro ⟨old, hold, hfield⟩
        exact ⟨old, ((hkept other old).mp hold).2, hfield⟩
  · exact fun other old hold => h.outstanding_le other old ((hkept other old).mp hold).2
  · intro field slot pending hslot hpending
    have hother := hunwatched field slot pending hslot hpending
    exact (hkept _ _).mpr ⟨Ne.symm hother, h.pending field slot pending hslot hpending⟩
  · intro job hjob
    obtain ⟨old, hold, hfield⟩ := h.owed job hjob
    exact ⟨old, (hkept _ _).mpr ⟨Ne.symm (howed job hjob), hold⟩, hfield⟩
  · intro completion hcompletion
    obtain ⟨old, hold, hfield⟩ := h.answered completion hcompletion
    exact ⟨old, (hkept _ _).mpr ⟨Ne.symm (hanswered completion hcompletion), hold⟩, hfield⟩
  · exact fun other old hold => h.before other old ((hkept other old).mp hold).2
  · exact fun other old hold => h.issued other old ((hkept other old).mp hold).2

theorem Sound.inFlight_pos (hlive : read.abandoned = false) :
    ∃ inFlight, s.inFlight = inFlight + 1 := by
  have hcount := countOf_erase_of_present hread fun read => !read.abandoned
  simp only [hlive, Bool.not_false, Bool.toNat_true] at hcount
  exact ⟨_, h.inFlight_eq.trans hcount.symm⟩

theorem Sound.abandoned_pos (habandoned : read.abandoned = true) :
    ∃ abandoned, s.abandoned = abandoned + 1 := by
  have hcount := countOf_erase_of_present hread fun read => read.abandoned
  simp only [habandoned, Bool.toNat_true] at hcount
  exact ⟨_, h.abandoned_eq.trans hcount.symm⟩

end Reads

section Expiry

variable (h : Sound catalogue limits kept s)

include h

theorem Sound.failWaiting {sequence inFlight : Nat} {read : Outstanding}
    (hread : s.outstanding[sequence]? = some read) (hlive : read.abandoned = false)
    (hinFlight : s.inFlight = inFlight + 1) :
    Sound catalogue limits kept
      (OnDemand.failWaiting (OnDemand.abandonRead s sequence read inFlight) sequence read) := by
  unfold OnDemand.failWaiting
  have hslots : (OnDemand.abandonRead s sequence read inFlight).slots = s.slots := rfl
  rw [hslots]
  rcases hslot : s.slots[read.field]? with _ | slot
  · refine h.abandonRead hread hlive (h.unwatched hread ?_) hinFlight
    intro slot pending hsome
    rw [hslot] at hsome
    cases hsome
  dsimp only
  split_ifs with hwaits
  · have hcleared := (h.clearPending hslot).abandonRead hread hlive
      (h.unwatched_cleared hread slot) hinFlight
    have hstored := hcleared.storeReading slot ⟨sequence, read.issuedAt, .error .failed⟩ none
      (h.within read.field slot hslot)
      (h.outstanding_le sequence read hread) (h.before sequence read hread hlive) ?_ nofun
    · unfold OnDemand.storeReading at hstored ⊢
      dsimp only [OnDemand.abandonRead] at hstored ⊢
      rwa [insert_insert] at hstored
    · -- The read of the field is the one that was given up.
      intro other read' hread' hlive' hfield
      rw [OnDemand.abandonRead, getElem?_put] at hread'
      split_ifs at hread' with hsame
      · cases hread'
        cases hlive'
      · exact hsame (h.one_read hread hread' hfield.symm)
  · refine h.abandonRead hread hlive (h.unwatched hread ?_) hinFlight
    intro slot' pending hsome hpending hsame
    rw [hslot, Option.some.injEq] at hsome
    rw [hsome, hpending] at hwaits
    exact hwaits (decide_eq_true hsame)

theorem Sound.giveUp (now : SourceTime) (sequence : Nat) :
    ∃ s', OnDemand.giveUp now s sequence = some s' ∧ Sound catalogue limits kept s' := by
  unfold OnDemand.giveUp
  rcases hread : s.outstanding[sequence]? with _ | read
  · exact ⟨s, rfl, h⟩
  dsimp only
  split_ifs with hyoung
  · exact ⟨s, rfl, h⟩
  obtain ⟨hlive, -⟩ := not_or.mp hyoung
  rw [Bool.not_eq_true] at hlive
  obtain ⟨inFlight, hinFlight⟩ := h.inFlight_pos hread hlive
  rw [hinFlight]
  exact ⟨_, rfl, h.failWaiting hread hlive hinFlight⟩

theorem Sound.giveUps_keep {now : SourceTime} {P : OnDemandFields → Prop} (hstart : P s)
    (hgiveUp : ∀ (s s' : OnDemandFields) (sequence : Nat), Sound catalogue limits kept s → P s →
      OnDemand.giveUp now s sequence = some s' → P s') (sequences : List Nat) :
    ∃ s', sequences.foldlM (OnDemand.giveUp now) s = some s' ∧
      Sound catalogue limits kept s' ∧ P s' := by
  induction sequences generalizing s with
  | nil => exact ⟨s, rfl, h, hstart⟩
  | cons sequence rest ih =>
    obtain ⟨s', hs', hsound⟩ := h.giveUp now sequence
    rw [List.foldlM_cons, hs']
    exact ih hsound (hgiveUp s s' sequence h hstart hs')

theorem Sound.expire (now : SourceTime) :
    ∃ s', OnDemand.expire s now = some s' ∧ Sound catalogue limits kept s' := by
  obtain ⟨s', hs', hsound, -⟩ :=
    h.giveUps_keep (P := fun _ => True) trivial (fun _ _ _ _ _ _ => trivial) s.outstanding.keys
  exact ⟨s', hs', hsound⟩

end Expiry

section Answers

variable {completion : Completion}

theorem checkedReading_ok {pending : Pending} {now : SourceTime}
    {value : RawValue}
    (h : (checkedReading catalogue pending completion now).result = .ok value) :
    completion.result = .ok value ∧ pending.issuedAt ≤ completion.started ∧
      completion.started ≤ completion.finished ∧ completion.finished ≤ now ∧
      (checkedReading catalogue pending completion now).observedAt = completion.started ∧
      ∃ spec, catalogue completion.field.key = some spec ∧ spec.raw = value.rawType := by
  unfold checkedReading at h ⊢
  dsimp only at h ⊢
  rcases hresult : completion.result with e | measured
  · rw [hresult] at h
    cases h
  rw [hresult] at h
  dsimp only at h
  split_ifs at h with hbounded htype
  cases h
  rw [Bool.not_eq_true', Bool.not_eq_false] at hbounded
  rw [not_not] at htype
  obtain ⟨hissued, hstarted, hfinished⟩ := of_decide_eq_true hbounded
  obtain ⟨spec, hspec, hraw⟩ := Option.map_eq_some_iff.mp htype.symm
  exact ⟨rfl, hissued, hstarted, hfinished, if_pos hbounded, spec, hspec, hraw⟩

theorem checkedReading_sequence (pending : Pending) (completion : Completion) (now : SourceTime) :
    (checkedReading catalogue pending completion now).sequence = completion.sequence :=
  rfl

theorem Sound.acceptLive (h : Sound catalogue limits kept s)
    {read : Outstanding} {inFlight : Nat}
    (hread : s.outstanding[completion.sequence]? = some read)
    (hfield : read.field = completion.field) (hlive : read.abandoned = false)
    (hinFlight : s.inFlight = inFlight + 1)
    (howed : ∀ job ∈ s.jobs, job.sequence ≠ completion.sequence)
    (hanswered : ∀ other ∈ s.completions, other.sequence ≠ completion.sequence)
    (now : SourceTime) :
    Sound catalogue limits kept (acceptLive catalogue
      { OnDemand.forgetRead s completion.sequence read with inFlight := inFlight }
      completion now).1 := by
  have hcounted : s.inFlight = inFlight + (!read.abandoned).toNat := by rw [hlive, hinFlight]; rfl
  have hothers : s.abandoned = s.abandoned + read.abandoned.toNat := by rw [hlive]; rfl
  have hforget : Unwatched s completion.sequence → Sound catalogue limits kept
      { OnDemand.forgetRead s completion.sequence read with inFlight := inFlight } :=
    fun hunwatched => h.forgetRead hread hunwatched hcounted hothers howed hanswered
  unfold OnDemand.acceptLive
  have hslots : (OnDemand.forgetRead s completion.sequence read).slots = s.slots := rfl
  dsimp only
  rw [hslots]
  rcases hslot : s.slots[completion.field]? with _ | slot
  · refine hforget (h.unwatched hread ?_)
    intro slot pending hsome
    rw [hfield, hslot] at hsome
    cases hsome
  dsimp only
  have hown : ∀ (slot' : Slot) (pending : Pending), s.slots[read.field]? = some slot' →
      slot'.pending = some pending → slot.pending = some pending := by
    intro slot' pending hsome hpending
    rw [hfield, hslot, Option.some.injEq] at hsome
    rw [hsome, hpending]
  rcases hpending : slot.pending with _ | pending
  · refine hforget (h.unwatched hread ?_)
    intro slot' pending hsome hsome'
    have hnone := hown slot' pending hsome hsome'
    rw [hpending] at hnone
    cases hnone
  dsimp only
  split_ifs with hother hold
  · refine hforget (h.unwatched hread ?_)
    intro slot' pending' hsome hsome'
    have hsame := hown slot' pending' hsome hsome'
    rw [hpending, Option.some.injEq] at hsame
    rw [← hsame]
    exact hother
  · have hcleared := h.clearPending hslot
    have hunwatched := h.unwatched_cleared hread slot
    rw [hfield] at hunwatched
    exact hcleared.forgetRead hread hunwatched hcounted hothers howed hanswered
  · rw [not_not] at hother
    have hcleared := h.clearPending hslot
    have hunwatched := h.unwatched_cleared hread slot
    rw [hfield] at hunwatched
    have hgone := hcleared.forgetRead hread hunwatched hcounted hothers howed hanswered
    have hwaits := h.pending completion.field slot pending hslot hpending
    have hstored := hgone.storeReading slot
      (checkedReading catalogue pending completion now) (some (completion, now))
      (h.within completion.field slot hslot)
      (h.outstanding_le completion.sequence read hread) ?_ ?_ ?_
    · unfold OnDemand.storeReading at hstored ⊢
      dsimp only [OnDemand.forgetRead] at hstored ⊢
      rwa [insert_insert] at hstored
    · intro store hstore hsame
      exact h.before completion.sequence read hread hlive store hstore (hsame.trans hfield.symm)
    · -- The field has one read outstanding, and it has answered.
      intro other read' hread' _ hfield'
      change (s.outstanding.erase completion.sequence)[other]? = some read' at hread'
      rw [getElem?_drop] at hread'
      split_ifs at hread' with hsame
      exact hsame (h.one_read hread hread' (hfield.trans hfield'.symm))
    · intro value hvalue
      obtain ⟨hresult, hissued, hstarted, hfinished, hobserved, htype⟩ := checkedReading_ok hvalue
      refine ⟨pending.issuedAt, completion.finished, now, ?_, ?_, ?_, ?_, hfinished, htype⟩
      · have hdispatched := h.issued _ _ hwaits
        rw [hother] at hdispatched
        exact hdispatched
      · refine List.mem_append_right _ (List.mem_singleton.mpr ?_)
        rw [hobserved, checkedReading_sequence, ← hresult]
      · rwa [hobserved]
      · rwa [hobserved]

theorem acceptLive_completions (s : OnDemandFields) (completion : Completion) (now : SourceTime) :
    (acceptLive catalogue s completion now).1.completions = s.completions := by
  unfold acceptLive
  repeat' split
  all_goals rfl

variable (h : Sound catalogue limits kept s)

include h

theorem Sound.accept {read : Outstanding} (hread : s.outstanding[completion.sequence]? = some read)
    (hfield : read.field = completion.field)
    (howed : ∀ job ∈ s.jobs, job.sequence ≠ completion.sequence)
    (hanswered : ∀ other ∈ s.completions, other.sequence ≠ completion.sequence) (now : SourceTime) :
    ∃ s' accepted, OnDemand.accept catalogue s completion now = some (s', accepted) ∧
      Sound catalogue limits kept s' ∧ s'.completions = s.completions := by
  unfold OnDemand.accept
  rw [hread]
  dsimp only
  split_ifs with habandoned
  · obtain ⟨abandoned, hcount⟩ := h.abandoned_pos hread habandoned
    have hunwatched := h.unwatched_abandoned hread habandoned
    rw [show (OnDemand.forgetRead s completion.sequence read).abandoned = abandoned + 1 from hcount]
    refine ⟨_, _, rfl, ?_, rfl⟩
    refine h.forgetRead hread hunwatched ?_ ?_ howed hanswered
    · rw [habandoned]
      rfl
    · rw [habandoned, hcount]
      rfl
  · rw [Bool.not_eq_true] at habandoned
    obtain ⟨inFlight, hcount⟩ := h.inFlight_pos hread habandoned
    rw [show (OnDemand.forgetRead s completion.sequence read).inFlight = inFlight + 1 from hcount]
    exact ⟨_, _, congrArg some Prod.mk.eta.symm,
      h.acceptLive hread hfield habandoned hcount howed hanswered now,
      acceptLive_completions _ completion now⟩

theorem Sound.rest {rest : List Completion} (hqueue : s.completions = completion :: rest) :
    Sound catalogue limits kept { s with completions := rest } := by
  refine { h with answered := ?_, once := ?_ }
  · intro other hother
    exact h.answered other (hqueue ▸ List.mem_cons_of_mem _ hother)
  · refine h.once.sublist (List.Sublist.append_left ?_ _)
    rw [hqueue]
    exact (List.sublist_cons_self _ _).map _

theorem Sound.drain_keeps (clock : Nat → SourceTime) (taken : Nat) {P : Nat → OnDemandFields → Prop}
    (hstart : P taken s)
    (haccept : ∀ (taken : Nat) (s s' : OnDemandFields) (completion : Completion)
      (rest : List Completion) (read : Outstanding) (accepted : Bool),
      Sound catalogue limits kept s → s.completions = completion :: rest →
      s.outstanding[completion.sequence]? = some read → read.field = completion.field →
      P taken s →
      OnDemand.accept catalogue { s with completions := rest } completion (clock taken) =
        some (s', accepted) →
      P (taken + 1) s') {queue : List Completion} (hqueue : s.completions = queue) :
    ∃ s' accepted, OnDemand.drain catalogue clock taken queue s = some (s', accepted) ∧
      Sound catalogue limits kept s' ∧ s'.completions = [] ∧ P (taken + queue.length) s' := by
  induction queue generalizing s taken with
  | nil => exact ⟨s, 0, rfl, h, hqueue, hstart⟩
  | cons completion rest ih =>
    obtain ⟨read, hread, hfield⟩ := h.answered completion (hqueue ▸ List.mem_cons_self)
    have honce := h.once
    rw [hqueue, List.map_cons, List.nodup_append] at honce
    obtain ⟨-, hrest, hdisjoint⟩ := honce
    have howed : ∀ job ∈ s.jobs, job.sequence ≠ completion.sequence := fun job hjob =>
      hdisjoint _ (List.mem_map_of_mem hjob) _ List.mem_cons_self
    have hanswered : ∀ other ∈ rest, other.sequence ≠ completion.sequence := by
      intro other hother hsame
      exact (List.nodup_cons.mp hrest).1 (hsame ▸ List.mem_map_of_mem hother)
    obtain ⟨s', accepted, hs', hsound, hcompletions⟩ :=
      (h.rest hqueue).accept hread hfield howed hanswered (clock taken)
    have hnext := haccept taken s s' completion rest read accepted h hqueue hread hfield hstart hs'
    obtain ⟨last, more, hdrain, hlast, hempty, hkept⟩ := ih hsound (taken + 1) hnext hcompletions
    refine ⟨last, more + accepted.toNat, ?_, hlast, hempty, ?_⟩
    · rw [OnDemand.drain, hs']
      dsimp only
      rw [hdrain]
      rfl
    · rw [List.length_cons, Nat.add_comm rest.length, ← Nat.add_assoc]
      exact hkept

theorem Sound.collectCompleted (clock : Nat → SourceTime) :
    ∃ s' accepted, OnDemand.collectCompleted catalogue s clock = some (s', accepted) ∧
      Sound catalogue limits kept s' := by
  obtain ⟨drained, accepted, hdrain, hdrained, -⟩ :=
    h.drain_keeps clock 0 (P := fun _ _ => True) trivial
      (fun _ _ _ _ _ _ _ _ _ _ _ _ _ => trivial) rfl
  obtain ⟨s', hexpire, hsound⟩ := hdrained.expire (clock s.completions.length)
  refine ⟨s', accepted, ?_, hsound⟩
  unfold OnDemand.collectCompleted
  rw [hdrain]
  dsimp only
  rw [hexpire]
  rfl

theorem Sound.answer (sequence : Nat) (started finished : SourceTime) (result : FieldResult) :
    Sound catalogue limits kept (OnDemand.answer s sequence started finished result) := by
  unfold OnDemand.answer
  split
  · exact h
  rename_i job hfind
  have hjob := List.mem_of_find?_eq_some hfind
  have hsequence : job.sequence = sequence := by simpa using List.find?_some hfind
  obtain ⟨read, hread, hfield⟩ := h.owed job hjob
  have hwhole := List.nodup_append.mp h.once
  obtain ⟨hjobs, hcompletions, hdisjoint⟩ := hwhole
  refine { h with owed := ?_, answered := ?_, once := ?_ }
  · exact fun other hother => h.owed other (List.mem_of_mem_filter hother)
  · intro completion hcompletion
    rcases List.mem_append.mp hcompletion with hold | hnew
    · exact h.answered completion hold
    · rw [List.mem_singleton.mp hnew]
      exact ⟨read, hsequence ▸ hread, hfield⟩
  · rw [List.map_append, List.map_singleton]
    refine List.nodup_append.mpr ⟨hjobs.sublist (List.filter_sublist.map _), ?_, ?_⟩
    · refine List.nodup_append.mpr ⟨hcompletions, List.nodup_singleton _, ?_⟩
      intro other hother last hlast
      rw [List.mem_singleton.mp hlast, ← hsequence]
      exact (hdisjoint _ (List.mem_map_of_mem hjob) _ hother).symm
    · intro other hother last hlast
      obtain ⟨waiting, hwaiting, rfl⟩ := List.mem_map.mp hother
      obtain ⟨hmem, hne⟩ := List.mem_filter.mp hwaiting
      rcases List.mem_append.mp hlast with hold | hnew
      · exact hdisjoint _ (List.mem_map_of_mem hmem) _ hold
      · rw [List.mem_singleton.mp hnew]
        exact of_decide_eq_true hne

end Answers

section Demand

theorem chooseField_bounded {maxFields : Nat} {chosen : List FieldId × DemandReport}
    (h : chosen.1.Nodup ∧ chosen.1.length ≤ maxFields) (field : FieldId) :
    (chooseField catalogue maxFields chosen field).1.Nodup ∧
      (chooseField catalogue maxFields chosen field).1.length ≤ maxFields := by
  unfold chooseField
  dsimp only
  split
  · exact h
  split_ifs with htier hmem hfull
  · exact h
  · exact h
  · exact h
  · refine ⟨List.nodup_append.mpr ⟨h.1, List.nodup_singleton _, ?_⟩, ?_⟩
    · intro other hother last hlast hsame
      rw [List.mem_singleton.mp hlast] at hsame
      exact hmem (hsame ▸ hother)
    · rw [List.length_append, List.length_singleton]
      have hle := h.2
      omega

theorem chooseFields_bounded (catalogue : Catalogue) (maxFields : Nat) (wanted : List FieldId) :
    (chooseFields catalogue maxFields wanted).1.Nodup ∧
      (chooseFields catalogue maxFields wanted).1.length ≤ maxFields := by
  unfold chooseFields
  have hstart : ([] : List FieldId).Nodup ∧ ([] : List FieldId).length ≤ maxFields :=
    ⟨List.nodup_nil, Nat.zero_le _⟩
  generalize hchosen : (([], {}) : List FieldId × DemandReport) = chosen
  have hbounded : chosen.1.Nodup ∧ chosen.1.length ≤ maxFields := by
    rw [← hchosen]
    exact hstart
  clear hchosen hstart
  induction wanted generalizing chosen with
  | nil => exact hbounded
  | cons field rest ih => exact ih _ (chooseField_bounded hbounded field)

theorem Sound.retain (h : Sound catalogue limits kept s) (order : List FieldId) :
    Sound catalogue limits order
      { s with slots := s.slots.filter fun field _ => decide (field ∈ order) } := by
  refine { h with within := ?_, pending := ?_, measured := ?_ }
  · intro field slot hslot
    exact of_decide_eq_true ((getElem?_select _ _ _ _).mp hslot).2
  · intro field slot pending hslot
    exact h.pending field slot pending ((getElem?_select _ _ _ _).mp hslot).1
  · intro field slot reading value hslot
    exact h.measured field slot reading value ((getElem?_select _ _ _ _).mp hslot).1

theorem Sound.place (h : Sound catalogue limits kept s) (hfield : field ∈ kept) (now : SourceTime) :
    Sound catalogue limits kept
      { s with slots := s.slots.insert field (s.slots[field]?.getD (Slot.new now)) } := by
  apply h.putSlot hfield
  · intro pending hpending
    rcases hslot : s.slots[field]? with _ | slot
    · rw [hslot] at hpending
      cases hpending
    · rw [hslot] at hpending
      exact h.pending field slot pending hslot hpending
  · intro reading value hreading hvalue
    rcases hslot : s.slots[field]? with _ | slot
    · rw [hslot] at hreading
      cases hreading
    · rw [hslot] at hreading
      exact h.measured field slot reading value hslot hreading hvalue

theorem Sound.adopt (h : Sound catalogue limits kept s) {slot : Slot} {sequence : Nat}
    (hslot : s.slots[field]? = some slot) (hreading : s.readingOf[field]? = some sequence) :
    Sound catalogue limits kept (OnDemand.adopt s field slot sequence) := by
  unfold OnDemand.adopt
  split_ifs with hpending
  swap
  · exact h
  split
  · exact h
  rename_i read hread
  split_ifs with habandoned
  · exact h
  obtain ⟨read', hread', hfield⟩ := (h.reading field sequence).mp hreading
  obtain rfl := Option.some.inj (hread.symm.trans hread')
  rw [Bool.not_eq_true] at habandoned
  apply h.putSlot (h.within field slot hslot)
  · intro pending hsome
    cases hsome
    rw [hread, ← hfield, ← habandoned]
  · intro reading value
    exact h.measured field slot reading value hslot

/-- The fields that are due are distinct, none is being read, and none is still to be visited. -/
structure Visiting (catalogue : Catalogue) (limits : Limits) (kept : List FieldId)
    (visited : OnDemandFields × List Due) (rest : List FieldId) : Prop where
  sound : Sound catalogue limits kept visited.1
  distinct : (visited.2.map (·.field)).Nodup
  idle : ∀ due ∈ visited.2, visited.1.readingOf[due.field]? = none
  before : ∀ due ∈ visited.2, due.field ∉ rest

theorem adopt_readingOf (s : OnDemandFields) (field : FieldId) (slot : Slot) (sequence : Nat) :
    (adopt s field slot sequence).readingOf = s.readingOf := by
  unfold adopt
  repeat' split
  all_goals rfl

theorem Visiting.visitField {visited : OnDemandFields × List Due} {wanted : FieldId × Nat}
    {rest : List FieldId} (h : Visiting catalogue limits kept visited (wanted.1 :: rest))
    (hkept : wanted.1 ∈ kept) (hrest : wanted.1 ∉ rest) (now : SourceTime) :
    Visiting catalogue limits kept (visitField now visited wanted) rest := by
  have hplaced := h.sound.place hkept now
  have hlater : ∀ due ∈ visited.2, due.field ∉ rest := fun due hdue hmem =>
    h.before due hdue (List.mem_cons_of_mem _ hmem)
  unfold OnDemand.visitField
  dsimp only
  split
  · rename_i sequence hreading
    refine ⟨hplaced.adopt ?_ hreading, h.distinct, ?_, hlater⟩
    · rw [getElem?_put, if_pos rfl]
    · intro due hdue
      rw [adopt_readingOf]
      exact h.idle due hdue
  rename_i hnone
  split_ifs with hfresh
  · exact ⟨hplaced, h.distinct, h.idle, hlater⟩
  · refine ⟨hplaced, ?_, ?_, ?_⟩
    · rw [List.map_append, List.map_singleton]
      refine List.nodup_append.mpr ⟨h.distinct, List.nodup_singleton _, ?_⟩
      intro field hfield last hlast hsame
      obtain ⟨due, hdue, rfl⟩ := List.mem_map.mp hfield
      rw [List.mem_singleton.mp hlast] at hsame
      exact h.before due hdue (hsame ▸ List.mem_cons_self)
    · intro due hdue
      rcases List.mem_append.mp hdue with hold | hnew
      · exact h.idle due hold
      · rw [List.mem_singleton.mp hnew]
        exact hnone
    · intro due hdue
      rcases List.mem_append.mp hdue with hold | hnew
      · exact hlater due hold
      · rw [List.mem_singleton.mp hnew]
        exact hrest

theorem Visiting.visitFields {visited : OnDemandFields × List Due} {wanted : List (FieldId × Nat)}
    (h : Visiting catalogue limits kept visited (wanted.map Prod.fst))
    (hkept : ∀ field ∈ wanted.map Prod.fst, field ∈ kept) (hnodup : (wanted.map Prod.fst).Nodup)
    (now : SourceTime) :
    Visiting catalogue limits kept (wanted.foldl (OnDemand.visitField now) visited) [] := by
  induction wanted generalizing visited with
  | nil => exact h
  | cons first rest ih =>
    rw [List.map_cons, List.nodup_cons] at hnodup
    have hfirst := h.visitField (hkept _ List.mem_cons_self) hnodup.1 now
    exact ih hfirst (fun field hfield => hkept field (List.mem_cons_of_mem _ hfield)) hnodup.2

variable (h : Sound catalogue limits kept s)

include h

theorem Sound.dispatch (hidle : s.readingOf[field]? = none)
    (hflight : s.inFlight < limits.maxInFlight)
    (hrunning : s.inFlight + s.abandoned < limits.maxAbandoned) (now : SourceTime) :
    Sound catalogue limits kept (OnDemand.dispatch s field now) := by
  have hfresh : s.outstanding[s.lastSequence + 1]? = none := by
    rcases hread : s.outstanding[s.lastSequence + 1]? with _ | read
    · rfl
    · exact absurd (h.outstanding_le _ read hread) (by omega)
  have hlookup : ∀ (sequence : Nat) (read : Outstanding),
      (s.outstanding.insert (s.lastSequence + 1) ⟨field, now, false⟩)[sequence]? = some read →
        s.lastSequence + 1 = sequence ∧ ⟨field, now, false⟩ = read ∨
          s.outstanding[sequence]? = some read := by
    intro sequence read hread
    rw [getElem?_put] at hread
    split_ifs at hread with heq
    · exact .inl ⟨heq, Option.some.inj hread⟩
    · exact .inr hread
  have hkeeps : ∀ (sequence : Nat) (read : Outstanding), s.outstanding[sequence]? = some read →
      (s.outstanding.insert (s.lastSequence + 1) ⟨field, now, false⟩)[sequence]? = some read := by
    intro sequence read hread
    rw [getElem?_put, if_neg]
    · exact hread
    · rintro rfl
      rw [hfresh] at hread
      cases hread
  have hput := countOf_insert_of_fresh (⟨field, now, false⟩ : Outstanding) hfresh
  refine { h with
    within := ?within, inFlight_eq := ?inFlight_eq, abandoned_eq := ?abandoned_eq,
    inFlight_le := ?inFlight_le, running_le := ?running_le, reading := ?reading,
    outstanding_le := ?outstanding_le, pending := ?pending, owed := ?owed, answered := ?answered,
    once := ?once, stored_le := ?stored_le, before := ?before, dispatched_le := ?dispatched_le,
    dispatched_once := ?dispatched_once, issued := ?issued, measured := ?measured }
  case within =>
    intro other slot hslot
    dsimp only [OnDemand.dispatch] at hslot
    rw [getElem?_adjust] at hslot
    split_ifs at hslot with heq
    · obtain ⟨slot', hslot', -⟩ := Option.map_eq_some_iff.mp hslot
      exact h.within other slot' hslot'
    · exact h.within other slot hslot
  case inFlight_eq =>
    have hgained := hput fun read => !read.abandoned
    have heq := h.inFlight_eq
    simp only [Bool.not_false, Bool.toNat_true] at hgained
    dsimp only [OnDemand.dispatch]
    omega
  case abandoned_eq =>
    have hsame := hput fun read => read.abandoned
    have heq := h.abandoned_eq
    simp only [Bool.toNat_false] at hsame
    dsimp only [OnDemand.dispatch]
    omega
  case inFlight_le => exact hflight
  case running_le =>
    dsimp only [OnDemand.dispatch]
    omega
  case reading =>
    intro other sequence
    dsimp only [OnDemand.dispatch]
    rw [getElem?_put]
    split_ifs with heq
    · constructor
      · intro hsequence
        cases hsequence
        exact ⟨_, (getElem?_put _ _ _ _).trans (if_pos rfl), heq⟩
      · rintro ⟨read, hread, hfield⟩
        rcases hlookup sequence read hread with ⟨rfl, -⟩ | hold
        · rfl
        · have hnone := (h.reading other sequence).mpr ⟨read, hold, hfield⟩
          rw [← heq, hidle] at hnone
          cases hnone
    · refine (h.reading other sequence).trans ⟨?_, ?_⟩
      · rintro ⟨read, hread, hfield⟩
        exact ⟨read, hkeeps sequence read hread, hfield⟩
      · rintro ⟨read, hread, hfield⟩
        rcases hlookup sequence read hread with ⟨-, rfl⟩ | hold
        · exact absurd hfield heq
        · exact ⟨read, hold, hfield⟩
  case outstanding_le =>
    intro sequence read hread
    dsimp only [OnDemand.dispatch]
    rcases hlookup sequence read hread with ⟨rfl, -⟩ | hold
    · exact Nat.le_refl _
    · exact (h.outstanding_le sequence read hold).trans (Nat.le_succ _)
  case pending =>
    intro other slot pending hslot hpending
    dsimp only [OnDemand.dispatch] at hslot ⊢
    rw [getElem?_adjust] at hslot
    split_ifs at hslot with heq
    · obtain ⟨slot', -, rfl⟩ := Option.map_eq_some_iff.mp hslot
      cases hpending
      rw [getElem?_put, if_pos rfl, heq]
    · exact hkeeps _ _ (h.pending other slot pending hslot hpending)
  case owed =>
    intro job hjob
    rcases List.mem_append.mp hjob with hold | hnew
    · obtain ⟨read, hread, hfield⟩ := h.owed job hold
      exact ⟨read, hkeeps _ _ hread, hfield⟩
    · rw [List.mem_singleton.mp hnew]
      exact ⟨_, (getElem?_put _ _ _ _).trans (if_pos rfl), rfl⟩
  case answered =>
    intro completion hcompletion
    obtain ⟨read, hread, hfield⟩ := h.answered completion hcompletion
    exact ⟨read, hkeeps _ _ hread, hfield⟩
  case once =>
    have hbelow : ∀ sequence ∈ s.jobs.map (·.sequence) ++ s.completions.map (·.sequence),
        sequence ≤ s.lastSequence := by
      intro sequence hsequence
      rcases List.mem_append.mp hsequence with hjob | hcompletion
      · obtain ⟨job, hmem, rfl⟩ := List.mem_map.mp hjob
        obtain ⟨read, hread, -⟩ := h.owed job hmem
        exact h.outstanding_le _ read hread
      · obtain ⟨completion, hmem, rfl⟩ := List.mem_map.mp hcompletion
        obtain ⟨read, hread, -⟩ := h.answered completion hmem
        exact h.outstanding_le _ read hread
    dsimp only [OnDemand.dispatch]
    rw [List.map_append, List.map_singleton, List.append_assoc]
    refine (List.perm_middle.nodup_iff).mpr (List.nodup_cons.mpr ⟨fun hmem => ?_, h.once⟩)
    exact absurd (hbelow _ hmem) (Nat.not_succ_le_self _)
  case stored_le =>
    intro store hstore
    exact (h.stored_le store hstore).trans (Nat.le_succ _)
  case before =>
    intro sequence read hread hlive store hstore hsame
    rcases hlookup sequence read hread with ⟨rfl, -⟩ | hold
    · exact Nat.lt_succ_of_le (h.stored_le store hstore)
    · exact h.before sequence read hold hlive store hstore hsame
  case dispatched_le =>
    intro job hjob
    rcases List.mem_append.mp hjob with hold | hnew
    · exact (h.dispatched_le job hold).trans (Nat.le_succ _)
    · rw [List.mem_singleton.mp hnew]
      exact Nat.le_refl _
  case dispatched_once =>
    dsimp only [OnDemand.dispatch]
    rw [List.map_append, List.map_singleton]
    refine List.nodup_append.mpr ⟨h.dispatched_once, List.nodup_singleton _, ?_⟩
    intro sequence hsequence last hlast
    obtain ⟨job, hjob, rfl⟩ := List.mem_map.mp hsequence
    rw [List.mem_singleton.mp hlast]
    exact Nat.ne_of_lt (Nat.lt_succ_of_le (h.dispatched_le job hjob))
  case issued =>
    intro sequence read hread
    rcases hlookup sequence read hread with ⟨rfl, rfl⟩ | hold
    · exact List.mem_append_right _ (List.mem_singleton_self _)
    · exact List.mem_append_left _ (h.issued sequence read hold)
  case measured =>
    intro other slot reading value hslot hreading hvalue
    dsimp only [OnDemand.dispatch] at hslot
    rw [getElem?_adjust] at hslot
    have hbefore : ∃ slot', s.slots[other]? = some slot' ∧ slot'.reading = some reading := by
      split_ifs at hslot with heq
      · obtain ⟨slot', hslot', rfl⟩ := Option.map_eq_some_iff.mp hslot
        exact ⟨slot', hslot', hreading⟩
      · exact ⟨slot, hslot, hreading⟩
    obtain ⟨slot', hslot', hreading'⟩ := hbefore
    exact (h.measured other slot' reading value hslot' hreading' hvalue).mono
      (List.subset_append_left _ _) (List.Subset.refl _)

theorem Sound.dispatchDue {dues : List Due} (hdistinct : (dues.map (·.field)).Nodup)
    (hidle : ∀ due ∈ dues, s.readingOf[due.field]? = none) (now : SourceTime) :
    Sound catalogue limits kept (OnDemand.dispatchDue now s dues).1 := by
  induction dues generalizing s with
  | nil => exact h
  | cons due rest ih =>
    unfold OnDemand.dispatchDue
    split_ifs with hfull
    · exact h
    obtain ⟨hflight, hrunning⟩ := not_or.mp hfull
    rw [h.limits_eq, Nat.not_le] at hflight hrunning
    rw [List.map_cons, List.nodup_cons] at hdistinct
    have hdispatched := h.dispatch (hidle due List.mem_cons_self) hflight hrunning now
    refine ih hdispatched hdistinct.2 ?_
    intro other hother
    dsimp only [OnDemand.dispatch]
    rw [getElem?_put, if_neg]
    · exact hidle other (List.mem_cons_of_mem _ hother)
    · exact fun hsame => hdistinct.1 (hsame ▸ List.mem_map_of_mem hother)

theorem Sound.survey {order : List FieldId} (hnodup : order.Nodup) (now : SourceTime) :
    Visiting catalogue limits order
      (order.zipIdx.foldl (OnDemand.visitField now)
        ({ s with slots := s.slots.filter fun field _ => decide (field ∈ order) }, [])) [] := by
  have hstart : Visiting catalogue limits order
      ({ s with slots := s.slots.filter fun field _ => decide (field ∈ order) }, [])
      (order.zipIdx.map Prod.fst) :=
    ⟨h.retain order, List.nodup_nil, fun _ hmem => absurd hmem List.not_mem_nil,
      fun _ hmem => absurd hmem List.not_mem_nil⟩
  have hfields : order.zipIdx.map Prod.fst = order := List.zipIdx_map_fst 0 order
  apply hstart.visitFields
  · rw [hfields]
    exact fun _ hmem => hmem
  · rwa [hfields]

theorem Sound.replaceDemand (now : SourceTime) (wanted : List FieldId) :
    Sound catalogue limits (chooseFields catalogue limits.maxFields wanted).1
      (OnDemand.replaceDemand catalogue s now wanted).1 := by
  have hend := h.survey (chooseFields_bounded catalogue limits.maxFields wanted).1 now
  have hchosen : chooseFields catalogue s.limits.maxFields wanted =
      chooseFields catalogue limits.maxFields wanted := by rw [h.limits_eq]
  unfold OnDemand.replaceDemand
  dsimp only
  rw [hchosen]
  generalize List.foldl (visitField now) _ _ = visited at hend ⊢
  have hperm := List.mergeSort_perm visited.2 dueLe
  refine hend.sound.dispatchDue ((hperm.map _).nodup_iff.mpr hend.distinct) ?_ now
  exact fun due hdue => hend.idle due (hperm.mem_iff.mp hdue)

end Demand

/-- What is kept from call to call: the invariant, of no more fields than may be tracked. -/
def Accountable (catalogue : Catalogue) (limits : Limits) (s : OnDemandFields) : Prop :=
  ∃ kept : List FieldId, kept.length ≤ limits.maxFields ∧ Sound catalogue limits kept s

theorem Accountable.step (h : Accountable catalogue limits s) (input : Input) :
    ∃ s', OnDemand.step catalogue s input = some s' ∧ Accountable catalogue limits s' := by
  obtain ⟨kept, hkept, hsound⟩ := h
  cases input with
  | demand now wanted =>
    obtain ⟨expired, hexpire, hexpired⟩ := hsound.expire now
    refine ⟨_, ?_, _, (chooseFields_bounded catalogue limits.maxFields wanted).2,
      hexpired.replaceDemand now wanted⟩
    dsimp only [OnDemand.step]
    unfold demand
    rw [hexpire]
    rfl
  | answer sequence started finished result =>
    exact ⟨_, rfl, kept, hkept, hsound.answer sequence started finished result⟩
  | collectCompleted clock =>
    obtain ⟨collected, accepted, hcollect, hcollected⟩ := hsound.collectCompleted clock
    refine ⟨collected, ?_, kept, hkept, hcollected⟩
    dsimp only [OnDemand.step]
    rw [hcollect]
    rfl

theorem Accountable.run (h : Accountable catalogue limits s) (inputs : List Input) :
    ∃ s', inputs.foldlM (OnDemand.step catalogue) s = some s' ∧
      Accountable catalogue limits s' := by
  induction inputs generalizing s with
  | nil => exact ⟨s, rfl, h⟩
  | cons input rest ih =>
    obtain ⟨next, hnext, haccountable⟩ := h.step input
    rw [List.foldlM_cons, hnext]
    exact ih haccountable

structure Accounted (catalogue : Catalogue) (limits : Limits) (s : OnDemandFields) : Prop where
  limits_eq : s.limits = limits
  inFlight_eq : s.inFlight = countOf s.outstanding fun read => !read.abandoned
  abandoned_eq : s.abandoned = countOf s.outstanding fun read => read.abandoned
  inFlight_le : s.inFlight ≤ limits.maxInFlight
  running_le : s.inFlight + s.abandoned ≤ limits.maxAbandoned
  tracked_le : s.slots.size ≤ limits.maxFields
  one_read : ∀ (sequence sequence' : Nat) (read read' : Outstanding),
    s.outstanding[sequence]? = some read → s.outstanding[sequence']? = some read' →
      read.field = read'.field → sequence = sequence'
  readingOf : ∀ (field : FieldId) (sequence : Nat), s.readingOf[field]? = some sequence ↔
    ∃ read : Outstanding, s.outstanding[sequence]? = some read ∧ read.field = field
  pending : ∀ (field : FieldId) (slot : Slot) (pending : Pending), s.slots[field]? = some slot →
    slot.pending = some pending →
      s.outstanding[pending.sequence]? = some ⟨field, pending.issuedAt, false⟩
  increasing : s.stored.Pairwise fun earlier later =>
    earlier.field = later.field → earlier.reading.sequence < later.reading.sequence
  dispatched_once : (s.dispatched.map (·.sequence)).Nodup
  present : ∀ (field : FieldId) (now : SourceTime) (value : RawValue) (observedAt : SourceTime),
    state s field now = some (.present value observedAt) →
      ageAt observedAt now ≤ limits.maxAge ∧
        ∃ reading : Reading, reading.observedAt = observedAt ∧
          Measured catalogue s field reading value

theorem Sound.tracked_le (h : Sound catalogue limits kept s) : s.slots.size ≤ kept.length := by
  have hsubset : keySet s.slots ⊆ kept.toFinset := by
    intro field hfield
    obtain ⟨slot, hslot⟩ := mem_keySet.mp hfield
    exact List.mem_toFinset.mpr (h.within field slot hslot)
  rw [← card_keySet]
  exact (Finset.card_le_card hsubset).trans (List.toFinset_card_le kept)

theorem state_present {now observedAt : SourceTime} {value : RawValue}
    (h : state s field now = some (.present value observedAt)) :
    ∃ (slot : Slot) (reading : Reading), s.slots[field]? = some slot ∧
      slot.reading = some reading ∧ reading.result = .ok value ∧
      reading.observedAt = observedAt ∧ ageAt observedAt now ≤ s.limits.maxAge := by
  unfold state at h
  split at h
  · cases h
  rename_i slot hslot
  split at h
  · split_ifs at h
    all_goals cases h
  rename_i reading hreading
  split at h
  · rename_i value' hresult
    split_ifs at h with hold
    · cases h
    cases h
    exact ⟨slot, reading, hslot, hreading, hresult, rfl, Nat.le_of_not_lt hold⟩
  · cases h
  · cases h
  · cases h

theorem Accountable.accounted (h : Accountable catalogue limits s) :
    Accounted catalogue limits s := by
  obtain ⟨kept, hkept, hsound⟩ := h
  refine { hsound with
    tracked_le := hsound.tracked_le.trans hkept, one_read := ?_, readingOf := hsound.reading,
    present := ?_ }
  · exact fun sequence sequence' read read' hread hread' => hsound.one_read hread hread'
  · intro field now value observedAt hstate
    obtain ⟨slot, reading, hslot, hreading, hresult, hobserved, hage⟩ := state_present hstate
    rw [hsound.limits_eq] at hage
    exact ⟨hage, reading, hobserved,
      hsound.measured field slot reading value hslot hreading hresult⟩

/-- In every run from an accepted set of limits, whatever is demanded and however the reads
answer, no counter falls below zero and the accounts hold. -/
theorem on_demand_accounted (catalogue : Catalogue) (limits : Limits) (opened : OnDemandFields)
    (hnew : OnDemandFields.new limits = .ok opened) (inputs : List Input) :
    ∃ s, inputs.foldlM (step catalogue) opened = some s ∧ Accounted catalogue limits s := by
  have hopened : OnDemandFields.opened limits = opened := by
    unfold OnDemandFields.new at hnew
    split at hnew
    · cases hnew
    · exact Except.ok.inj hnew
  have hstart : Accountable catalogue limits opened :=
    ⟨[], Nat.zero_le _, hopened ▸ sound_opened catalogue limits⟩
  obtain ⟨s, hrun, haccountable⟩ := hstart.run inputs
  exact ⟨s, hrun, haccountable.accounted⟩

def anyProcess : Sources.ProcessKey :=
  ⟨"test", .missing .unavailable, .missing .unavailable, .missing .unavailable,
    .missing .unavailable, .linuxBootTicks 1⟩

/-- A field that is hidden while it is read, shown again, and answered. -/
theorem on_demand_accounted_shown_again :
    ∃ s, [Input.demand 0 [⟨anyProcess, "field"⟩], .demand 1 [], .demand 2 [⟨anyProcess, "field"⟩],
        .answer 1 0 1 (.ok (.unsignedInteger 7)), .collectCompleted fun _ => 3].foldlM
          (step fun _ => some ⟨.unsignedInteger, [.onDemand]⟩) (.opened .default) = some s ∧
      Accounted (fun _ => some ⟨.unsignedInteger, [.onDemand]⟩) .default s :=
  on_demand_accounted _ .default (.opened .default) rfl _

end Srui.Srtop.OnDemand
