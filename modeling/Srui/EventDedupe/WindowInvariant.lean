import Srui.Basic.Listings
import Srui.EventDedupe.Windows

/-!
The invariant of one receive window: the tables agree with each other, the
frontier separates the settled sequences from the open ones, and every sequence
on record lies in the receive window.
-/

namespace Srui.EventDedupe.WindowInvariant

open Std Basic.FiniteMaps Basic.Listings Basic.Machine EventDedupe.Windows

structure WindowInv (maxEntries : Nat) (w : ClientDedupeWindow) : Prop where
  listing : Listing w.order w.seenIds
  inverse : ∀ (seq : Nat) (id : Bytes), w.idsBySeq[seq]? = some id ↔
    seq ≠ 0 ∧ ∃ r : EventRecord, w.seenIds[id]? = some r ∧ r.eventSeq = seq
  size_le : w.seenIds.size ≤ maxEntries
  inFlight_above : ∀ (id : Bytes) (seq : Nat) (ty : EventType),
    w.seenIds[id]? = some (.inFlight seq ty) → w.lastContiguousProcessedSeq < seq
  ahead_iff : ∀ seq : Nat, seq ∈ w.settledOutOfOrder ↔ w.lastContiguousProcessedSeq < seq ∧
    ∃ (id : Bytes) (ty : EventType) (outcome : EventOutcomeRecord),
      w.seenIds[id]? = some (.settled seq ty outcome)
  within : ∀ (id : Bytes) (r : EventRecord), w.seenIds[id]? = some r →
    r.eventSeq ≤ saturatingAdd w.lastContiguousProcessedSeq maxEntries
  gap : w.lastContiguousProcessedSeq + 1 ∉ w.settledOutOfOrder

/-- The sequences a window knows to be settled: those up to its frontier, and
those settled ahead of it. -/
def Covered (w : ClientDedupeWindow) (seq : Nat) : Prop :=
  seq ≤ w.lastContiguousProcessedSeq ∨ seq ∈ w.settledOutOfOrder

variable {maxEntries : Nat} {w w' : ClientDedupeWindow}

theorem windowInv_startingAt (maxEntries frontier : Nat) :
    WindowInv maxEntries (ClientDedupeWindow.startingAt frontier) where
  listing := Listing.empty
  inverse := by simp [ClientDedupeWindow.startingAt]
  size_le := by simp [ClientDedupeWindow.startingAt]
  inFlight_above := by simp [ClientDedupeWindow.startingAt]
  ahead_iff := by simp [ClientDedupeWindow.startingAt]
  within := by simp [ClientDedupeWindow.startingAt]
  gap := by simp [ClientDedupeWindow.startingAt]

variable {a id : Bytes} {r : EventRecord}

theorem WindowInv.id_unique (h : WindowInv maxEntries w) {b : Bytes} {q : EventRecord}
    (ha : w.seenIds[a]? = some r) (hb : w.seenIds[b]? = some q) (hseq : r.eventSeq = q.eventSeq)
    (hne : r.eventSeq ≠ 0) : a = b := by
  have hfirst := (h.inverse r.eventSeq a).mpr ⟨hne, r, ha, rfl⟩
  have hsecond := (h.inverse r.eventSeq b).mpr ⟨hne, q, hb, hseq.symm⟩
  rw [hfirst] at hsecond
  exact Option.some.inj hsecond

variable {outcome : EventOutcomeRecord} {seq frontier : Nat} {ty : EventType}

theorem WindowInv.covered_of_settled (h : WindowInv maxEntries w)
    (hid : w.seenIds[id]? = some (.settled seq ty outcome)) : Covered w seq := by
  rcases Nat.lt_or_ge w.lastContiguousProcessedSeq seq with hlt | hge
  · exact Or.inr ((h.ahead_iff seq).mpr ⟨hlt, id, ty, outcome, hid⟩)
  · exact Or.inl hge

theorem WindowInv.not_covered_of_inFlight (h : WindowInv maxEntries w)
    (hid : w.seenIds[id]? = some (.inFlight seq ty)) : ¬Covered w seq := by
  have habove := h.inFlight_above id seq ty hid
  rintro (hle | hahead)
  · omega
  · obtain ⟨-, other, ty', outcome, hother⟩ := (h.ahead_iff seq).mp hahead
    have hsame := h.id_unique hid hother rfl (by simp only [EventRecord.eventSeq]; omega)
    rw [← hsame, hid] at hother
    cases hother

theorem WindowInv.ahead_above (h : WindowInv maxEntries w)
    (hseq : seq ∈ w.settledOutOfOrder) : w.lastContiguousProcessedSeq < seq :=
  ((h.ahead_iff seq).mp hseq).1

theorem WindowInv.ahead_le (h : WindowInv maxEntries w)
    (hseq : seq ∈ w.settledOutOfOrder) : seq ≤ u64Max := by
  obtain ⟨-, id, ty, outcome, hid⟩ := (h.ahead_iff seq).mp hseq
  exact Nat.le_trans (h.within id _ hid) (Nat.min_le_right _ _)

/-!
Eviction of a record.
-/

structure Evicted (w : ClientDedupeWindow) (id : Bytes) (r : EventRecord)
    (w' : ClientDedupeWindow) : Prop where
  held : w.seenIds[id]? = some r
  evictable : r.isEvictable w.lastContiguousProcessedSeq = true
  seenIds : w'.seenIds = w.seenIds.erase id
  idsBySeq : w'.idsBySeq = if r.eventSeq ≠ 0 then w.idsBySeq.erase r.eventSeq else w.idsBySeq
  order : w'.order = w.order.filter (· ≠ id)
  frontier : w'.lastContiguousProcessedSeq = w.lastContiguousProcessedSeq
  ahead : w'.settledOutOfOrder =
    if r.eventSeq ≠ 0 then w.settledOutOfOrder.erase r.eventSeq else w.settledOutOfOrder

theorem evictableId_iff : evictableId w id = true ↔
    ∃ r : EventRecord, w.seenIds[id]? = some r ∧
      r.isEvictable w.lastContiguousProcessedSeq = true := by
  rw [evictableId]
  cases hid : w.seenIds[id]? with
  | none => simp
  | some r => simp

theorem evictOldestSettled_some (hnodup : w.order.Nodup) (h : evictOldestSettled w = some w') :
    ∃ id r, Evicted w id r w' := by
  rw [evictOldestSettled] at h
  cases hfind : w.order.find? (evictableId w) with
  | none => simp [hfind] at h
  | some id =>
    obtain ⟨r, hheld, hevictable⟩ := evictableId_iff.mp (List.find?_some hfind)
    simp only [hfind, Option.some.injEq, dropRecord, hheld] at h
    refine ⟨id, r, ?_⟩
    have horder := eraseP_eq_filter hnodup hfind
    by_cases hzero : r.eventSeq ≠ 0
    · rw [if_pos hzero] at h
      subst h
      exact ⟨hheld, hevictable, rfl, by simp [hzero], horder, rfl, by simp [hzero]⟩
    · rw [if_neg hzero] at h
      subst h
      exact ⟨hheld, hevictable, rfl, by simp [hzero], horder, rfl, by simp [hzero]⟩

theorem evictOldestSettled_none (h : WindowInv maxEntries w) (hnone : evictOldestSettled w = none)
    (hid : w.seenIds[id]? = some r) :
    r.isEvictable w.lastContiguousProcessedSeq = false := by
  rw [evictOldestSettled] at hnone
  cases hfind : w.order.find? (evictableId w) with
  | some id => simp [hfind] at hnone
  | none =>
    rw [List.find?_eq_none] at hfind
    have hnot := hfind id (h.listing.mem_of_lookup hid)
    rw [evictableId_iff] at hnot
    by_contra hcon
    exact hnot ⟨r, hid, by simpa using hcon⟩

theorem isEvictable_iff : r.isEvictable frontier = true ↔
    ∃ seq ty outcome, r = .settled seq ty outcome ∧ seq ≤ frontier := by
  cases r with
  | inFlight seq ty => simp [EventRecord.isEvictable]
  | settled seq ty outcome =>
    simp only [EventRecord.isEvictable, decide_eq_true_eq, EventRecord.settled.injEq]
    constructor
    · intro h
      exact ⟨seq, ty, outcome, ⟨rfl, rfl, rfl⟩, by omega⟩
    · rintro ⟨_, _, _, ⟨rfl, -, -⟩, hle⟩
      exact Or.inr hle

section

variable (h : Evicted w id r w')

include h

theorem Evicted.seq_le :
    r.eventSeq ≤ w.lastContiguousProcessedSeq := by
  obtain ⟨seq, ty, outcome, rfl, hle⟩ := isEvictable_iff.mp h.evictable
  exact hle

theorem Evicted.ahead_same (hinv : WindowInv maxEntries w) :
    w'.settledOutOfOrder = w.settledOutOfOrder := by
  rw [h.ahead]
  split
  · refine Finset.erase_eq_of_notMem fun hmem => ?_
    have := hinv.ahead_above hmem
    have := h.seq_le
    omega
  · rfl

theorem Evicted.lookup (a : Bytes) :
    w'.seenIds[a]? = if id = a then none else w.seenIds[a]? := by
  rw [h.seenIds, getElem?_drop]

theorem Evicted.lookup_some {q : EventRecord} (ha : w'.seenIds[a]? = some q) :
    id ≠ a ∧ w.seenIds[a]? = some q := by
  rw [h.lookup] at ha
  by_cases heq : id = a
  · simp [heq] at ha
  · exact ⟨heq, by simpa [heq] using ha⟩

theorem Evicted.inverse (hinv : WindowInv maxEntries w) (seq : Nat) (a : Bytes) :
    w'.idsBySeq[seq]? = some a ↔
      seq ≠ 0 ∧ ∃ q : EventRecord, w'.seenIds[a]? = some q ∧ q.eventSeq = seq := by
  have hkeep : w'.idsBySeq[seq]? = some a ↔ w.idsBySeq[seq]? = some a ∧ id ≠ a := by
    rw [h.idsBySeq]
    constructor
    · intro hsome
      have hold : w.idsBySeq[seq]? = some a ∧ (r.eventSeq ≠ 0 → r.eventSeq ≠ seq) := by
        by_cases hzero : r.eventSeq ≠ 0
        · rw [if_pos hzero, getElem?_drop] at hsome
          by_cases hseq : r.eventSeq = seq
          · simp [hseq] at hsome
          · exact ⟨by simpa [hseq] using hsome, fun _ => hseq⟩
        · rw [if_neg hzero] at hsome
          exact ⟨hsome, fun hcon => absurd hcon hzero⟩
      refine ⟨hold.1, ?_⟩
      rintro rfl
      obtain ⟨hne, q, hq, hqseq⟩ := (hinv.inverse seq id).mp hold.1
      rw [h.held, Option.some.injEq] at hq
      subst hq
      exact hold.2 (hqseq ▸ hne) hqseq
    · rintro ⟨hsome, hne⟩
      by_cases hzero : r.eventSeq ≠ 0
      · rw [if_pos hzero, getElem?_drop, if_neg, hsome]
        intro hseq
        have hown := (hinv.inverse r.eventSeq id).mpr ⟨hzero, r, h.held, rfl⟩
        rw [hseq, hsome] at hown
        exact hne (Option.some.inj hown).symm
      · rw [if_neg hzero, hsome]
  rw [hkeep, hinv.inverse, h.lookup]
  by_cases heq : id = a
  · simp [heq]
  · simp [heq]

theorem Evicted.windowInv (hinv : WindowInv maxEntries w) : WindowInv maxEntries w' where
  listing := by
    rw [h.order, h.seenIds]
    exact hinv.listing.drop id
  inverse := h.inverse hinv
  size_le := by
    have hsize := size_erase_of_present h.held
    have hle := hinv.size_le
    rw [h.seenIds]
    omega
  inFlight_above := by
    intro a seq ty ha
    rw [h.frontier]
    exact hinv.inFlight_above a seq ty (h.lookup_some ha).2
  ahead_iff := by
    intro seq
    rw [h.ahead_same hinv, h.frontier, hinv.ahead_iff]
    refine and_congr_right fun habove => ?_
    constructor
    · rintro ⟨a, ty, outcome, ha⟩
      refine ⟨a, ty, outcome, ?_⟩
      rw [h.lookup, if_neg, ha]
      rintro rfl
      -- the evicted record lies at or below the frontier, this one above it
      have hle := h.seq_le
      rw [h.held, Option.some.injEq] at ha
      rw [ha, EventRecord.eventSeq] at hle
      omega
    · rintro ⟨a, ty, outcome, ha⟩
      exact ⟨a, ty, outcome, (h.lookup_some ha).2⟩
  within := by
    intro a q ha
    rw [h.frontier]
    exact hinv.within a q (h.lookup_some ha).2
  gap := by
    rw [h.ahead_same hinv, h.frontier]
    exact hinv.gap

theorem Evicted.lookup_none (ha : w.seenIds[a]? = none) : w'.seenIds[a]? = none := by
  rw [h.lookup, ha, ite_self]

end

/-!
The eviction loop. What a single eviction keeps, the loop keeps; it fails only
when the table is full and holds nothing evictable.
-/

/-- The invariant, with the facts about the window before the loop that every
round keeps. -/
structure SpaceMade (maxEntries : Nat) (w w' : ClientDedupeWindow) : Prop where
  inv : WindowInv maxEntries w'
  frontier : w'.lastContiguousProcessedSeq = w.lastContiguousProcessedSeq
  ahead : w'.settledOutOfOrder = w.settledOutOfOrder
  fresh : ∀ a : Bytes, w.seenIds[a]? = none → w'.seenIds[a]? = none
  kept : ∀ (a : Bytes) (r : EventRecord), w'.seenIds[a]? = some r → w.seenIds[a]? = some r

theorem SpaceMade.refl (h : WindowInv maxEntries w) : SpaceMade maxEntries w w where
  inv := h
  frontier := rfl
  ahead := rfl
  fresh := fun _ ha => ha
  kept := fun _ _ ha => ha

theorem SpaceMade.evict {w'' : ClientDedupeWindow} (h : WindowInv maxEntries w)
    (hevicted : Evicted w id r w'') (hrest : SpaceMade maxEntries w'' w') :
    SpaceMade maxEntries w w' where
  inv := hrest.inv
  frontier := hrest.frontier.trans hevicted.frontier
  ahead := hrest.ahead.trans (hevicted.ahead_same h)
  fresh := fun a ha => hrest.fresh a (hevicted.lookup_none ha)
  kept := fun a q ha => (hevicted.lookup_some (hrest.kept a q ha)).2

theorem SpaceMade.covered_iff (h : SpaceMade maxEntries w w') (seq : Nat) :
    Covered w' seq ↔ Covered w seq := by
  rw [Covered, Covered, h.frontier, h.ahead]

theorem SpaceMade.unassigned (h : SpaceMade maxEntries w w') (hinv : WindowInv maxEntries w)
    (hseq : w.idsBySeq[seq]? = none) : w'.idsBySeq[seq]? = none := by
  rw [Option.eq_none_iff_forall_ne_some]
  intro id hid
  obtain ⟨hne, r, hr, hrseq⟩ := (h.inv.inverse seq id).mp hid
  have hold := (hinv.inverse seq id).mpr ⟨hne, r, h.kept id r hr, hrseq⟩
  rw [hseq] at hold
  exact absurd hold (by simp)

theorem makeSpace_spaceMade (rounds : Nat) (h : WindowInv maxEntries w) :
    SpaceMade maxEntries w (makeSpace maxEntries rounds w).1 := by
  induction rounds generalizing w with
  | zero =>
    rw [makeSpace]
    split <;> exact SpaceMade.refl h
  | succ rounds ih =>
    rw [makeSpace]
    split
    · exact SpaceMade.refl h
    · cases hevict : evictOldestSettled w with
      | none => exact SpaceMade.refl h
      | some w'' =>
        obtain ⟨id, r, hevicted⟩ := evictOldestSettled_some h.listing.nodup hevict
        exact SpaceMade.evict h hevicted (ih (hevicted.windowInv h))

theorem makeSpace_true {rounds : Nat} (h : (makeSpace maxEntries rounds w).2 = true) :
    (makeSpace maxEntries rounds w).1.seenIds.size < maxEntries := by
  induction rounds generalizing w with
  | zero =>
    rw [makeSpace] at h ⊢
    split
    · assumption
    · rename_i hfull
      simp [hfull] at h
  | succ rounds ih =>
    rw [makeSpace] at h ⊢
    split
    · assumption
    · rename_i hfull
      rw [if_neg hfull] at h
      cases hevict : evictOldestSettled w with
      | none => simp [hevict] at h
      | some w'' =>
        rw [hevict] at h
        exact ih h

theorem makeSpace_false {rounds : Nat} (hpos : 1 ≤ maxEntries) (hinv : WindowInv maxEntries w)
    (hrounds : w.seenIds.size ≤ rounds) (h : (makeSpace maxEntries rounds w).2 = false) :
    maxEntries ≤ (makeSpace maxEntries rounds w).1.seenIds.size ∧
      evictOldestSettled (makeSpace maxEntries rounds w).1 = none := by
  induction rounds generalizing w with
  | zero =>
    rw [makeSpace, if_pos (by omega)] at h
    simp at h
  | succ rounds ih =>
    rw [makeSpace] at h ⊢
    split
    · rename_i hroom
      simp [hroom] at h
    · rename_i hfull
      rw [if_neg hfull] at h
      cases hevict : evictOldestSettled w with
      | none => exact ⟨by simpa using hfull, hevict⟩
      | some w'' =>
        obtain ⟨id, r, hevicted⟩ := evictOldestSettled_some hinv.listing.nodup hevict
        have hsize := size_erase_of_present hevicted.held
        rw [← hevicted.seenIds] at hsize
        rw [hevict] at h
        exact ih (hevicted.windowInv hinv) (by omega) h

theorem full_of_nothing_evictable (hinv : WindowInv maxEntries w)
    (hfull : maxEntries ≤ w.seenIds.size) (hnone : evictOldestSettled w = none)
    (habove : w.lastContiguousProcessedSeq < seq)
    (hlast : seq ≤ saturatingAdd w.lastContiguousProcessedSeq maxEntries) :
    w.idsBySeq[seq]? ≠ none := by
  intro hfree
  let seqOf : Bytes → Nat := fun id => (w.seenIds[id]?.map EventRecord.eventSeq).getD 0
  have hrecord : ∀ id ∈ keySet w.seenIds, ∃ r : EventRecord, w.seenIds[id]? = some r ∧
      seqOf id = r.eventSeq ∧ w.lastContiguousProcessedSeq < r.eventSeq := by
    intro id hid
    obtain ⟨r, hr⟩ := mem_keySet.mp hid
    refine ⟨r, hr, by simp [seqOf, hr], ?_⟩
    have hkept := evictOldestSettled_none hinv hnone hr
    cases r with
    | inFlight s ty => exact hinv.inFlight_above id s ty hr
    | settled s ty outcome =>
      simp only [EventRecord.isEvictable, decide_eq_false_iff_not, not_or, Nat.not_le] at hkept
      exact hkept.2
  have hmaps : ∀ id ∈ keySet w.seenIds, seqOf id ∈
      (Finset.Ioc w.lastContiguousProcessedSeq
        (saturatingAdd w.lastContiguousProcessedSeq maxEntries)).erase seq := by
    intro id hid
    obtain ⟨r, hr, hseqOf, habove⟩ := hrecord id hid
    rw [Finset.mem_erase, Finset.mem_Ioc, hseqOf]
    refine ⟨?_, habove, hinv.within id r hr⟩
    intro heq
    have hown := (hinv.inverse seq id).mpr ⟨by omega, r, hr, heq⟩
    rw [hfree] at hown
    simp at hown
  have hinj : Set.InjOn seqOf (keySet w.seenIds : Set Bytes) := by
    intro a ha b hb heq
    obtain ⟨r, hr, hseqA, haboveA⟩ := hrecord a ha
    obtain ⟨q, hq, hseqB, -⟩ := hrecord b hb
    rw [hseqA, hseqB] at heq
    exact hinv.id_unique hr hq heq (by omega)
  have hcard := Finset.card_le_card_of_injOn seqOf hmaps hinj
  have hmem : seq ∈ Finset.Ioc w.lastContiguousProcessedSeq
      (saturatingAdd w.lastContiguousProcessedSeq maxEntries) :=
    Finset.mem_Ioc.mpr ⟨habove, hlast⟩
  rw [card_keySet, Finset.card_erase_of_mem hmem, Nat.card_Ioc, saturatingAdd] at hcard
  have hpos := Nat.min_le_left (w.lastContiguousProcessedSeq + maxEntries) u64Max
  have : seq ≤ w.lastContiguousProcessedSeq + maxEntries := Nat.le_trans hlast hpos
  omega

/-!
Admission.
-/

theorem fileInFlight_lookup (a : Bytes) :
    (fileInFlight w id seq ty).seenIds[a]? =
      if id = a then some (.inFlight seq ty) else w.seenIds[a]? :=
  getElem?_put _ _ _ _

theorem fileInFlight_windowInv (h : WindowInv maxEntries w)
    (ty : EventType) (hroom : w.seenIds.size < maxEntries) (hid : w.seenIds[id]? = none)
    (hseq : w.idsBySeq[seq]? = none) (habove : w.lastContiguousProcessedSeq < seq)
    (hlast : seq ≤ saturatingAdd w.lastContiguousProcessedSeq maxEntries) :
    WindowInv maxEntries (fileInFlight w id seq ty) where
  listing := h.listing.push hid _
  inverse := by
    intro s a
    rw [fileInFlight_lookup]
    change (w.idsBySeq.insert seq id)[s]? = some a ↔ _
    rw [getElem?_put]
    by_cases ha : id = a
    · subst ha
      by_cases hs : seq = s
      · subst hs
        simp [EventRecord.eventSeq]
        omega
      · simp [hs, h.inverse, hid, EventRecord.eventSeq]
    · by_cases hs : seq = s
      · subst hs
        have hnot := (h.inverse seq a).not.mp (by simp [hseq])
        simpa [ha] using hnot
      · simp [hs, ha, h.inverse]
  size_le := by
    change (w.seenIds.insert id _).size ≤ maxEntries
    rw [size_insert_of_fresh _ hid]
    omega
  inFlight_above := by
    intro a s t ha
    rw [fileInFlight_lookup] at ha
    by_cases heq : id = a
    · simp only [heq, if_true, Option.some.injEq, EventRecord.inFlight.injEq] at ha
      exact ha.1 ▸ habove
    · rw [if_neg heq] at ha
      exact h.inFlight_above a s t ha
  ahead_iff := by
    intro s
    change s ∈ w.settledOutOfOrder ↔ w.lastContiguousProcessedSeq < s ∧ _
    rw [h.ahead_iff]
    refine and_congr_right fun _ => exists_congr fun a => ?_
    rw [fileInFlight_lookup]
    by_cases heq : id = a
    · subst heq
      simp [hid]
    · simp [heq]
  within := by
    intro a r ha
    rw [fileInFlight_lookup] at ha
    by_cases heq : id = a
    · simp only [heq, if_true, Option.some.injEq] at ha
      rw [← ha]
      exact hlast
    · rw [if_neg heq] at ha
      exact h.within a r ha
  gap := h.gap

/-- The checks of `admit` that a new identity passes. -/
structure Admissible (maxEntries : Nat) (w : ClientDedupeWindow) (id : Bytes) (seq : Nat) :
    Prop where
  fresh : w.seenIds[id]? = none
  unassigned : w.idsBySeq[seq]? = none
  above : w.lastContiguousProcessedSeq < seq
  last : seq ≤ saturatingAdd w.lastContiguousProcessedSeq maxEntries

section

variable (h : WindowInv maxEntries w)

include h

theorem Admissible.space (hok : Admissible maxEntries w id seq) (rounds : Nat) :
    Admissible maxEntries (makeSpace maxEntries rounds w).1 id seq := by
  have hmade := makeSpace_spaceMade rounds h
  refine ⟨hmade.fresh id hok.fresh, hmade.unassigned h hok.unassigned, ?_, ?_⟩
  · rw [hmade.frontier]
    exact hok.above
  · rw [hmade.frontier]
    exact hok.last

variable (hpos : 1 ≤ maxEntries)

include hpos

theorem Admissible.makeSpace_true (hok : Admissible maxEntries w id seq) :
    (makeSpace maxEntries w.seenIds.size w).2 = true := by
  by_contra hfalse
  rw [Bool.not_eq_true] at hfalse
  obtain ⟨hfull, hnone⟩ := makeSpace_false hpos h (Nat.le_refl _) hfalse
  have hspace := hok.space h w.seenIds.size
  exact full_of_nothing_evictable (makeSpace_spaceMade _ h).inv hfull hnone hspace.above
    hspace.last hspace.unassigned

/-- What `admit` does: it answers a replay, refuses, or files the new identity
after making space for it. -/
theorem admit_cases (id : Bytes) (seq : Nat) (ty : EventType) :
    (∃ r : EventRecord, w.seenIds[id]? = some r ∧
      admitToWindow w id seq ty maxEntries = (w, replayOutcome w r seq ty)) ∨
    (w.seenIds[id]? = none ∧ ¬ Admissible maxEntries w id seq ∧
      ∃ e, e ≠ EventSequenceError.receiveWindowFull ∧
        admitToWindow w id seq ty maxEntries = (w, .error e)) ∨
    (Admissible maxEntries w id seq ∧ admitToWindow w id seq ty maxEntries =
      (fileInFlight (makeSpace maxEntries w.seenIds.size w).1 id seq ty,
        .ok (.fresh w.lastContiguousProcessedSeq))) := by
  cases hid : w.seenIds[id]? with
  | some r => exact Or.inl ⟨r, rfl, by simp [admitToWindow, hid]⟩
  | none =>
    right
    by_cases hassigned : w.idsBySeq.contains seq = true
    · refine Or.inl ⟨rfl, ?_, .sequenceAlreadyAssigned seq, by simp, by simp [admitToWindow, hid, hassigned]⟩
      intro hok
      rw [ExtTreeMap.contains_eq_isSome_getElem?, hok.unassigned] at hassigned
      simp at hassigned
    · by_cases houtside : seq = 0 ∨ seq ≤ w.lastContiguousProcessedSeq ∨
          seq > saturatingAdd w.lastContiguousProcessedSeq maxEntries
      · refine Or.inl ⟨rfl, ?_, _, ?_, by simp only [admitToWindow, hid, hassigned, houtside]; rfl⟩
        · intro hok
          have := hok.above
          have := hok.last
          omega
        · simp
      · have hok : Admissible maxEntries w id seq := by
          refine ⟨hid, ?_, by omega, by omega⟩
          rw [ExtTreeMap.contains_eq_isSome_getElem?] at hassigned
          simpa using hassigned
        refine Or.inr ⟨hok, ?_⟩
        have htrue := hok.makeSpace_true h hpos
        have hfrontier := (makeSpace_spaceMade w.seenIds.size h).frontier
        simp only [admitToWindow, hid]
        rw [if_neg hassigned, if_neg houtside]
        generalize makeSpace maxEntries w.seenIds.size w = made at htrue hfrontier
        obtain ⟨made, ok⟩ := made
        subst htrue
        simp only at hfrontier ⊢
        rw [hfrontier]

theorem admit_windowInv (id : Bytes) (seq : Nat) (ty : EventType) :
    WindowInv maxEntries
    (admitToWindow w id seq ty maxEntries).1 := by
  obtain ⟨r, -, heq⟩ | ⟨-, -, e, -, heq⟩ | ⟨hok, heq⟩ := admit_cases h hpos id seq ty
  · rw [heq]
    exact h
  · rw [heq]
    exact h
  · rw [heq]
    have hspace := hok.space h w.seenIds.size
    exact fileInFlight_windowInv (makeSpace_spaceMade _ h).inv ty
      (makeSpace_true (hok.makeSpace_true h hpos)) hspace.fresh hspace.unassigned hspace.above
      hspace.last

theorem admit_frontier (id : Bytes) (seq : Nat) (ty : EventType) :
    (admitToWindow w id seq ty maxEntries).1.lastContiguousProcessedSeq = w.lastContiguousProcessedSeq := by
  obtain ⟨r, -, heq⟩ | ⟨-, -, e, -, heq⟩ | ⟨hok, heq⟩ := admit_cases h hpos id seq ty
  · rw [heq]
  · rw [heq]
  · rw [heq]
    exact (makeSpace_spaceMade _ h).frontier

theorem admit_covered (id : Bytes) (seq : Nat) (ty : EventType) (s : Nat) :
    Covered (admitToWindow w id seq ty maxEntries).1 s ↔ Covered w s := by
  obtain ⟨r, -, heq⟩ | ⟨-, -, e, -, heq⟩ | ⟨hok, heq⟩ := admit_cases h hpos id seq ty
  · rw [heq]
  · rw [heq]
  · rw [heq]
    exact (makeSpace_spaceMade w.seenIds.size h).covered_iff s

end

theorem replayOutcome_not_fresh (r : EventRecord) (seq : Nat) (ty : EventType) (frontier : Nat) :
    replayOutcome w r seq ty ≠ .ok (.fresh frontier) := by
  cases r <;>
    · unfold replayOutcome
      split_ifs <;> simp

theorem admit_not_fresh_of_covered (h : WindowInv maxEntries w) (hpos : 1 ≤ maxEntries)
    (id : Bytes) (ty : EventType) (hcovered : Covered w seq) (frontier : Nat) :
    (admitToWindow w id seq ty maxEntries).2 ≠ .ok (.fresh frontier) := by
  obtain ⟨r, -, heq⟩ | ⟨-, -, e, -, heq⟩ | ⟨hok, heq⟩ := admit_cases h hpos id seq ty
  · rw [heq]
    exact replayOutcome_not_fresh r seq ty frontier
  · rw [heq]
    simp
  · exfalso
    rcases hcovered with hle | hahead
    · have := hok.above
      omega
    · obtain ⟨habove, a, t, outcome, ha⟩ := (h.ahead_iff seq).mp hahead
      have hown := (h.inverse seq a).mpr ⟨by omega, _, ha, rfl⟩
      rw [hok.unassigned] at hown
      simp at hown

theorem legacyRecord_windowInv (h : WindowInv maxEntries w)
    (outcome : EventOutcomeRecord) (hroom : w.seenIds.size < maxEntries)
    (hid : w.seenIds[id]? = none) :
    WindowInv maxEntries
      { w with order := w.order ++ [id], seenIds := w.seenIds.insert id (.settled 0 none outcome) }
    where
  listing := h.listing.push hid _
  inverse := by
    intro s a
    simp only [getElem?_put, h.inverse]
    refine and_congr_right fun hne => ?_
    by_cases ha : id = a
    · subst ha
      simp [hid, EventRecord.eventSeq, Ne.symm hne]
    · simp [ha]
  size_le := by
    simp only [size_insert_of_fresh _ hid]
    omega
  inFlight_above := by
    intro a s t ha
    simp only [getElem?_put] at ha
    by_cases heq : id = a
    · simp [heq] at ha
    · rw [if_neg heq] at ha
      exact h.inFlight_above a s t ha
  ahead_iff := by
    intro s
    simp only [getElem?_put]
    rw [h.ahead_iff]
    refine and_congr_right fun habove => exists_congr fun a => ?_
    by_cases heq : id = a
    · subst heq
      simp only [hid, if_true, Option.some.injEq, EventRecord.settled.injEq]
      simp
      omega
    · simp [heq]
  within := by
    intro a r ha
    simp only [getElem?_put] at ha
    by_cases heq : id = a
    · simp only [heq, if_true, Option.some.injEq] at ha
      rw [← ha]
      exact Nat.zero_le _
    · rw [if_neg heq] at ha
      exact h.within a r ha
  gap := h.gap

theorem replayOutcome_not_full (r : EventRecord) (seq : Nat) (ty : EventType) :
    replayOutcome w r seq ty ≠ .error .receiveWindowFull := by
  cases r <;>
    · unfold replayOutcome
      split_ifs <;> simp

theorem admit_not_full (h : WindowInv maxEntries w) (hpos : 1 ≤ maxEntries) (id : Bytes)
    (seq : Nat) (ty : EventType) :
    (admitToWindow w id seq ty maxEntries).2 ≠ .error .receiveWindowFull := by
  obtain ⟨r, -, heq⟩ | ⟨-, -, e, hne, heq⟩ | ⟨-, heq⟩ := admit_cases h hpos id seq ty
  · rw [heq]
    exact replayOutcome_not_full r seq ty
  · rw [heq]
    simpa using hne
  · rw [heq]
    simp

theorem Admissible.admit_fresh (h : WindowInv maxEntries w) (hpos : 1 ≤ maxEntries)
    (hok : Admissible maxEntries w id seq) (ty : EventType) :
    (admitToWindow w id seq ty maxEntries).2 = .ok (.fresh w.lastContiguousProcessedSeq) := by
  obtain ⟨r, hr, -⟩ | ⟨-, hnot, -⟩ | ⟨-, heq⟩ := admit_cases h hpos id seq ty
  · rw [hok.fresh] at hr
    simp at hr
  · exact absurd hok hnot
  · rw [heq]

theorem insertLegacySettled_windowInv (h : WindowInv maxEntries w) (id : Bytes)
    (outcome : EventOutcomeRecord) :
    WindowInv maxEntries (insertLegacySettled w id outcome maxEntries).1 := by
  rw [insertLegacySettled]
  split
  · exact h
  · rename_i hcontains
    have hfresh : w.seenIds[id]? = none := by
      rw [ExtTreeMap.contains_eq_isSome_getElem?] at hcontains
      simpa using hcontains
    have hmade := makeSpace_spaceMade w.seenIds.size h
    have hroom := @makeSpace_true maxEntries w w.seenIds.size
    generalize makeSpace maxEntries w.seenIds.size w = made at hmade hroom
    obtain ⟨made, ok⟩ := made
    cases ok with
    | false => exact hmade.inv
    | true => exact legacyRecord_windowInv hmade.inv outcome (hroom rfl) (hmade.fresh id hfresh)

/-!
Settlement. The frontier advances over the sequences settled ahead of it.
-/

structure Advanced (frontier : Nat) (ahead : Finset Nat) (result : Nat × Finset Nat) : Prop where
  le : frontier ≤ result.1
  passed : ∀ s, frontier < s → s ≤ result.1 → s ∈ ahead
  rest_iff : ∀ s, s ∈ result.2 ↔ s ∈ ahead ∧ ¬ (frontier < s ∧ s ≤ result.1)
  gap : result.1 + 1 ∉ result.2

theorem Advanced.stop {ahead : Finset Nat} (h : frontier + 1 ∉ ahead) :
    Advanced frontier ahead (frontier, ahead) where
  le := Nat.le_refl _
  passed := by
    intro s habove hle
    exact absurd hle (Nat.not_le.mpr habove)
  rest_iff := by
    intro s
    simp only
    constructor
    · intro hs
      exact ⟨hs, by omega⟩
    · exact fun hs => hs.1
  gap := h

theorem Advanced.next {ahead : Finset Nat} {result : Nat × Finset Nat}
    (hnext : frontier + 1 ∈ ahead)
    (h : Advanced (frontier + 1) (ahead.erase (frontier + 1)) result) :
    Advanced frontier ahead result where
  le := Nat.le_trans (Nat.le_succ _) h.le
  passed := by
    intro s habove hle
    by_cases heq : s = frontier + 1
    · rw [heq]
      exact hnext
    · exact Finset.mem_of_mem_erase (h.passed s (by omega) hle)
  rest_iff := by
    intro s
    have hle := h.le
    rw [h.rest_iff, Finset.mem_erase]
    constructor
    · rintro ⟨⟨hne, hs⟩, hnot⟩
      exact ⟨hs, by omega⟩
    · rintro ⟨hs, hnot⟩
      exact ⟨⟨by omega, hs⟩, by omega⟩
  gap := h.gap

theorem advanceFrontier_advanced (rounds frontier : Nat) (ahead : Finset Nat)
    (hrounds : ahead.card ≤ rounds) (hbound : ∀ s ∈ ahead, s ≤ u64Max) :
    Advanced frontier ahead (advanceFrontier rounds frontier ahead) := by
  induction rounds generalizing frontier ahead with
  | zero =>
    have hempty : ahead = ∅ := Finset.card_eq_zero.mp (Nat.le_zero.mp hrounds)
    exact Advanced.stop (by simp [hempty])
  | succ rounds ih =>
    rw [advanceFrontier]
    cases hadd : checkedAdd frontier 1 with
    | none =>
      rw [checkedAdd_eq_none] at hadd
      exact Advanced.stop fun hmem => absurd (hbound _ hmem) (by omega)
    | some next =>
      obtain ⟨-, rfl⟩ := checkedAdd_eq_some.mp hadd
      by_cases hmem : frontier + 1 ∈ ahead
      · simp only [if_pos hmem]
        refine Advanced.next hmem (ih _ _ ?_ fun s hs => hbound s (Finset.mem_of_mem_erase hs))
        rw [Finset.card_erase_of_mem hmem]
        omega
      · simp only [if_neg hmem]
        exact Advanced.stop hmem

/-- What `note_settled_sequence` does to the sequences known to be settled: it
adds the one it is given. -/
structure Noted (w : ClientDedupeWindow) (seq : Nat) (w' : ClientDedupeWindow) : Prop where
  seenIds : w'.seenIds = w.seenIds
  idsBySeq : w'.idsBySeq = w.idsBySeq
  order : w'.order = w.order
  frontier_le : w.lastContiguousProcessedSeq ≤ w'.lastContiguousProcessedSeq
  covered_iff : ∀ s, Covered w' s ↔ Covered w s ∨ s = seq
  ahead_above : ∀ s ∈ w'.settledOutOfOrder, w'.lastContiguousProcessedSeq < s
  gap : w'.lastContiguousProcessedSeq + 1 ∉ w'.settledOutOfOrder

theorem noteSettledSequence_noted (habove : w.lastContiguousProcessedSeq < seq)
    (hseq : seq ≤ u64Max) (hahead : ∀ s ∈ w.settledOutOfOrder, w.lastContiguousProcessedSeq < s)
    (hbound : ∀ s ∈ w.settledOutOfOrder, s ≤ u64Max)
    (hgap : w.lastContiguousProcessedSeq + 1 ∉ w.settledOutOfOrder) :
    Noted w seq (noteSettledSequence w seq) := by
  have hsat : saturatingAdd w.lastContiguousProcessedSeq 1 = w.lastContiguousProcessedSeq + 1 :=
    Nat.min_eq_left (by omega)
  rw [noteSettledSequence, if_neg (by omega), hsat]
  split
  · rename_i heq
    have hadv := advanceFrontier_advanced _ seq w.settledOutOfOrder (Nat.le_refl _) hbound
    have hle := hadv.le
    refine ⟨rfl, rfl, rfl, ?_, ?_, ?_, hadv.gap⟩
    · exact Nat.le_trans (Nat.le_of_lt habove) hadv.le
    · intro s
      simp only [Covered, hadv.rest_iff]
      constructor
      · rintro (hs | hs)
        · by_cases hbelow : s ≤ w.lastContiguousProcessedSeq
          · exact Or.inl (Or.inl hbelow)
          · by_cases hsame : s = seq
            · exact Or.inr hsame
            · exact Or.inl (Or.inr (hadv.passed s (by omega) hs))
        · exact Or.inl (Or.inr hs.1)
      · rintro ((hs | hs) | rfl)
        · exact Or.inl (by omega)
        · by_cases hpassed : s ≤ (advanceFrontier w.settledOutOfOrder.card seq
              w.settledOutOfOrder).1
          · exact Or.inl hpassed
          · exact Or.inr ⟨hs, by omega⟩
        · exact Or.inl hle
    · intro s hs
      obtain ⟨hmem, hnot⟩ := (hadv.rest_iff s).mp hs
      have := hahead s hmem
      have hne : s ≠ seq := by
        rintro rfl
        exact hgap (heq ▸ hmem)
      simp only
      omega
  · rename_i hne
    refine ⟨rfl, rfl, rfl, Nat.le_refl _, ?_, ?_, ?_⟩
    · intro s
      simp only [Covered, Finset.mem_insert]
      tauto
    · intro s hs
      rcases Finset.mem_insert.mp hs with rfl | hs
      · exact habove
      · exact hahead s hs
    · simp only [Finset.mem_insert, not_or]
      exact ⟨fun hcon => hne hcon.symm, hgap⟩

/-- What `settle` does with an identity in flight. -/
structure SettledAs (w : ClientDedupeWindow) (id : Bytes) (seq : Nat) (ty : EventType)
    (outcome : EventOutcomeRecord) (w' : ClientDedupeWindow) : Prop where
  lookup : ∀ a : Bytes, w'.seenIds[a]? =
    if id = a then some (.settled seq ty outcome) else w.seenIds[a]?
  idsBySeq : w'.idsBySeq = w.idsBySeq
  frontier_le : w.lastContiguousProcessedSeq ≤ w'.lastContiguousProcessedSeq
  covered_iff : ∀ s, Covered w' s ↔ Covered w s ∨ s = seq
  ahead_above : ∀ s ∈ w'.settledOutOfOrder, w'.lastContiguousProcessedSeq < s
  gap : w'.lastContiguousProcessedSeq + 1 ∉ w'.settledOutOfOrder

theorem settle_inFlight (h : WindowInv maxEntries w)
    (outcome : EventOutcomeRecord) (hid : w.seenIds[id]? = some (.inFlight seq ty)) :
    SettledAs w id seq ty outcome (settle w id outcome).1 ∧
      Listing (settle w id outcome).1.order (settle w id outcome).1.seenIds := by
  simp only [settle, hid]
  have habove := h.inFlight_above id seq ty hid
  have hseq : seq ≤ u64Max := Nat.le_trans (h.within id _ hid) (Nat.min_le_right _ _)
  have hnoted := noteSettledSequence_noted
    (w := { w with seenIds := w.seenIds.insert id (.settled seq ty outcome) }) habove hseq
    (fun s hs => h.ahead_above hs) (fun s hs => h.ahead_le hs) h.gap
  constructor
  · refine ⟨?_, hnoted.idsBySeq, hnoted.frontier_le, hnoted.covered_iff, hnoted.ahead_above,
      hnoted.gap⟩
    intro a
    rw [hnoted.seenIds, getElem?_put]
  · rw [hnoted.order, hnoted.seenIds]
    exact h.listing.put hid _

theorem settle_not_inFlight (outcome : EventOutcomeRecord)
    (hid : ∀ (seq : Nat) (ty : EventType), w.seenIds[id]? ≠ some (.inFlight seq ty)) :
    (settle w id outcome).1 = w := by
  unfold settle
  split
  · rename_i seq ty heq
    exact absurd heq (hid seq ty)
  · rfl

theorem SettledAs.not_covered_of_inFlight (hsettled : SettledAs w id seq ty outcome w')
    (h : WindowInv maxEntries w) (hid : w.seenIds[id]? = some (.inFlight seq ty))
    {s : Nat} {t : EventType} (ha : w.seenIds[a]? = some (.inFlight s t)) (hne : id ≠ a) :
    ¬ Covered w' s := by
  have habove := h.inFlight_above a s t ha
  rw [hsettled.covered_iff]
  rintro ((hle | hahead) | rfl)
  · omega
  · obtain ⟨-, b, u, other, hb⟩ := (h.ahead_iff s).mp hahead
    have hsame := h.id_unique ha hb rfl (by simp only [EventRecord.eventSeq]; omega)
    subst hsame
    rw [ha] at hb
    simp at hb
  · exact hne (h.id_unique hid ha rfl (by simp only [EventRecord.eventSeq]; omega))

theorem SettledAs.windowInv (hsettled : SettledAs w id seq ty outcome w')
    (hlisting : Listing w'.order w'.seenIds) (h : WindowInv maxEntries w)
    (hid : w.seenIds[id]? = some (.inFlight seq ty)) : WindowInv maxEntries w' where
  listing := hlisting
  inverse := by
    intro s a
    rw [hsettled.idsBySeq, h.inverse, hsettled.lookup]
    by_cases ha : id = a
    · subst ha
      simp [hid, EventRecord.eventSeq]
    · simp [ha]
  size_le := by
    have hkeys : keySet w'.seenIds = keySet w.seenIds := by
      ext a
      rw [mem_keySet, mem_keySet, hsettled.lookup]
      by_cases ha : id = a
      · subst ha
        simp [hid]
      · simp [ha]
    rw [← card_keySet, hkeys, card_keySet]
    exact h.size_le
  inFlight_above := by
    intro a s t ha
    rw [hsettled.lookup] at ha
    by_cases heq : id = a
    · simp [heq] at ha
    · rw [if_neg heq] at ha
      have hnot := hsettled.not_covered_of_inFlight h hid ha heq
      exact Nat.lt_of_not_le fun hle => hnot (Or.inl hle)
  ahead_iff := by
    intro s
    have hmem : s ∈ w'.settledOutOfOrder ↔ w'.lastContiguousProcessedSeq < s ∧ Covered w' s := by
      constructor
      · exact fun hs => ⟨hsettled.ahead_above s hs, Or.inr hs⟩
      · rintro ⟨habove, hle | hs⟩
        · omega
        · exact hs
    rw [hmem]
    refine and_congr_right fun habove => ?_
    have hold := Nat.lt_of_le_of_lt hsettled.frontier_le habove
    rw [hsettled.covered_iff]
    constructor
    · rintro ((hle | hahead) | rfl)
      · omega
      · obtain ⟨-, a, t, other, ha⟩ := (h.ahead_iff s).mp hahead
        refine ⟨a, t, other, ?_⟩
        rw [hsettled.lookup, if_neg, ha]
        rintro rfl
        rw [hid] at ha
        simp at ha
      · exact ⟨id, ty, outcome, by rw [hsettled.lookup, if_pos rfl]⟩
    · rintro ⟨a, t, other, ha⟩
      rw [hsettled.lookup] at ha
      by_cases heq : id = a
      · simp only [heq, if_true, Option.some.injEq, EventRecord.settled.injEq] at ha
        exact Or.inr ha.1.symm
      · rw [if_neg heq] at ha
        exact Or.inl (Or.inr ((h.ahead_iff s).mpr ⟨hold, a, t, other, ha⟩))
  within := by
    intro a r ha
    have hmono : saturatingAdd w.lastContiguousProcessedSeq maxEntries ≤
        saturatingAdd w'.lastContiguousProcessedSeq maxEntries := by
      have := hsettled.frontier_le
      simp only [saturatingAdd]
      omega
    refine Nat.le_trans ?_ hmono
    rw [hsettled.lookup] at ha
    by_cases heq : id = a
    · simp only [heq, if_true, Option.some.injEq] at ha
      have hle := h.within id _ hid
      rw [← ha]
      exact hle
    · rw [if_neg heq] at ha
      exact h.within a r ha
  gap := hsettled.gap

theorem settle_windowInv (h : WindowInv maxEntries w) (id : Bytes) (outcome : EventOutcomeRecord) :
    WindowInv maxEntries (settle w id outcome).1 := by
  by_cases hid : ∃ (seq : Nat) (ty : EventType), w.seenIds[id]? = some (.inFlight seq ty)
  · obtain ⟨seq, ty, hid⟩ := hid
    obtain ⟨hsettled, hlisting⟩ := settle_inFlight h outcome hid
    exact hsettled.windowInv hlisting h hid
  · simp only [not_exists] at hid
    rw [settle_not_inFlight outcome hid]
    exact h

/-!
Abandonment.
-/

theorem abandon_not_inFlight
    (hid : ∀ (seq : Nat) (ty : EventType), w.seenIds[id]? ≠ some (.inFlight seq ty)) :
    abandon w id = w := by
  unfold abandon
  split
  · rename_i seq ty heq
    exact absurd heq (hid seq ty)
  · rfl

theorem abandon_frontier (w : ClientDedupeWindow) (id : Bytes) :
    (abandon w id).lastContiguousProcessedSeq = w.lastContiguousProcessedSeq := by
  unfold abandon
  split <;> rfl

theorem abandon_covered (w : ClientDedupeWindow) (id : Bytes) (s : Nat) :
    Covered (abandon w id) s ↔ Covered w s := by
  unfold abandon
  split <;> rfl

theorem abandon_windowInv (h : WindowInv maxEntries w) (id : Bytes) :
    WindowInv maxEntries (abandon w id) := by
  by_cases hid : ∃ (seq : Nat) (ty : EventType), w.seenIds[id]? = some (.inFlight seq ty)
  · obtain ⟨seq, ty, hid⟩ := hid
    have habove := h.inFlight_above id seq ty hid
    have hdrop : ∀ (a : Bytes) (r : EventRecord), (w.seenIds.erase id)[a]? = some r →
        id ≠ a ∧ w.seenIds[a]? = some r := by
      intro a r ha
      rw [getElem?_drop] at ha
      by_cases heq : id = a
      · simp [heq] at ha
      · exact ⟨heq, by simpa [heq] using ha⟩
    simp only [abandon, hid]
    refine ⟨h.listing.drop id, ?_, ?_, ?_, ?_, ?_, h.gap⟩
    · intro s a
      simp only [getElem?_drop]
      by_cases ha : id = a
      · subst ha
        by_cases hs : seq = s
        · simp [hs]
        · simp [hs, h.inverse, hid, EventRecord.eventSeq]
      · by_cases hs : seq = s
        · subst hs
          have hown := (h.inverse seq id).mpr ⟨by omega, _, hid, rfl⟩
          have hnot := (h.inverse seq a).not.mp (by simp [hown, ha])
          simpa [ha] using hnot
        · simp [hs, ha, h.inverse]
    · have hsize := size_erase_of_present hid
      have hle := h.size_le
      simp only
      omega
    · intro a s t ha
      exact h.inFlight_above a s t (hdrop a _ ha).2
    · intro s
      simp only
      rw [h.ahead_iff]
      refine and_congr_right fun _ => exists_congr fun a => ?_
      rw [getElem?_drop]
      by_cases heq : id = a
      · subst heq
        simp [hid]
      · simp [heq]
    · intro a r ha
      exact h.within a r (hdrop a r ha).2
  · simp only [not_exists] at hid
    rw [abandon_not_inFlight hid]
    exact h

/-!
Pinned windows.
-/

theorem hasInFlight_iff : hasInFlight w = true ↔
    ∃ (id : Bytes) (seq : Nat) (ty : EventType), w.seenIds[id]? = some (.inFlight seq ty) := by
  rw [hasInFlight, List.any_eq_true]
  constructor
  · rintro ⟨⟨id, r⟩, hmem, hflight⟩
    cases r with
    | inFlight seq ty => exact ⟨id, seq, ty, mem_toList.mp hmem⟩
    | settled seq ty outcome => simp [EventRecord.isInFlight] at hflight
  · rintro ⟨id, seq, ty, hid⟩
    exact ⟨(id, _), mem_toList.mpr hid, rfl⟩

theorem not_pinned_ahead (h : isPinned w = false) : w.settledOutOfOrder = ∅ := by
  simp only [isPinned, Bool.or_eq_false_iff, decide_eq_false_iff_not, not_not] at h
  exact h.2

end Srui.EventDedupe.WindowInvariant
