import Srui.Scheduling.LogicalChannels

/-!
Service gaps of the weighted selector.

A ready class is at most its documented gap ahead of the cursor. Whatever the other classes do,
a selection that does not return it moves the cursor, and never past one of its slots.
-/

namespace Srui.Scheduling.ServiceGaps

open Scheduling.LogicalChannels

/-- The maximum circular service distance while every lane remains ready. -/
def maxServiceGap : LogicalChannelClass → Nat
  | .control => 5
  | .input => 5
  | .ui => 8
  | .terminalHigh => 12
  | .terminalNormal => 14
  | .resource => 24

/-- The class has one of the next so many slots. -/
def Within (logicalClass : LogicalChannelClass) (distance : Nat) (cursor : Fin 24) : Prop :=
  ∃ slot < distance, serviceCycle (cursor + Fin.ofNat 24 slot) = logicalClass

instance (logicalClass : LogicalChannelClass) (distance : Nat) (cursor : Fin 24) :
    Decidable (Within logicalClass distance cursor) :=
  inferInstanceAs (Decidable (∃ slot < distance, _))

theorem within_gap (cursor : Fin 24) (logicalClass : LogicalChannelClass) :
    Within logicalClass (maxServiceGap logicalClass) cursor := by
  have hevery : ∀ cursor : Fin 24, ∀ logicalClass ∈ LogicalChannelClass.allCases,
      Within logicalClass (maxServiceGap logicalClass) cursor := by decide +kernel
  exact hevery cursor logicalClass (LogicalChannelClass.mem_allCases logicalClass)

variable {distance : Nat}

theorem Within.next {logicalClass : LogicalChannelClass} {cursor : Fin 24}
    (h : Within logicalClass (distance + 1) cursor)
    (hother : serviceCycle cursor ≠ logicalClass) :
    Within logicalClass distance (cursor + 1) := by
  obtain ⟨slot, hslot, hclass⟩ := h
  cases slot with
  | zero =>
    have hfirst : cursor + Fin.ofNat 24 0 = cursor := add_zero cursor
    rw [hfirst] at hclass
    exact absurd hclass hother
  | succ slot =>
    refine ⟨slot, Nat.lt_of_succ_lt_succ hslot, ?_⟩
    have hnext : cursor + 1 + Fin.ofNat 24 slot = cursor + Fin.ofNat 24 (slot + 1) := by
      apply Fin.ext
      simp only [Fin.ofNat, Fin.val_add]
      omega
    rw [hnext]
    exact hclass

theorem Within.mono {logicalClass : LogicalChannelClass} {further : Nat}
    {cursor : Fin 24} (h : Within logicalClass distance cursor) (hle : distance ≤ further) :
    Within logicalClass further cursor := by
  obtain ⟨slot, hslot, hclass⟩ := h
  exact ⟨slot, Nat.lt_of_lt_of_le hslot hle, hclass⟩

variable {ready : LogicalChannelClass → Bool} {logicalClass : LogicalChannelClass}

variable {scheduler : LogicalChannelScheduler}

theorem inspect_within (hready : ready logicalClass = true) {slots : Nat}
    (h : Within logicalClass (distance + 1) scheduler.cursor) (hslots : distance < slots) :
    (LogicalChannelScheduler.inspect ready slots scheduler).1 = some logicalClass ∨
      Within logicalClass distance
        (LogicalChannelScheduler.inspect ready slots scheduler).2.cursor := by
  induction slots generalizing distance scheduler with
  | zero => exact absurd hslots (Nat.not_lt_zero distance)
  | succ slots ih =>
    rw [LogicalChannelScheduler.inspect]
    by_cases hclass : serviceCycle scheduler.cursor = logicalClass
    · rw [hclass, if_pos hready]
      exact Or.inl rfl
    · have hnext : Within logicalClass distance (scheduler.cursor + 1) := h.next hclass
      split_ifs with hskip
      · exact Or.inr hnext
      · cases distance with
        | zero =>
          obtain ⟨slot, hslot, -⟩ := hnext
          exact absurd hslot (Nat.not_lt_zero slot)
        | succ distance =>
          have hwithin : Within logicalClass (distance + 1)
              (⟨scheduler.cursor + 1⟩ : LogicalChannelScheduler).cursor := hnext
          have hrest := ih hwithin (Nat.lt_of_succ_lt_succ hslots)
          exact hrest.imp id fun hwithin => hwithin.mono (Nat.le_succ distance)

theorem selectNext_within (hready : ready logicalClass = true)
    (h : Within logicalClass (distance + 1) scheduler.cursor) (hdistance : distance < 24) :
    (scheduler.selectNext ready).1 = some logicalClass ∨
      Within logicalClass distance (scheduler.selectNext ready).2.cursor :=
  inspect_within hready h hdistance

/-! ### Sequences of selections -/

def selections : LogicalChannelScheduler → List (LogicalChannelClass → Bool) →
    List (Option LogicalChannelClass)
  | _, [] => []
  | scheduler, ready :: readiness =>
    (scheduler.selectNext ready).1 :: selections (scheduler.selectNext ready).2 readiness

def afterSelections : LogicalChannelScheduler → List (LogicalChannelClass → Bool) →
    LogicalChannelScheduler
  | scheduler, [] => scheduler
  | scheduler, ready :: readiness =>
    afterSelections (scheduler.selectNext ready).2 readiness

theorem selections_append (scheduler : LogicalChannelScheduler)
    (first second : List (LogicalChannelClass → Bool)) :
    selections scheduler (first ++ second) =
      selections scheduler first ++ selections (afterSelections scheduler first) second := by
  induction first generalizing scheduler with
  | nil => rfl
  | cons ready first ih =>
    rw [List.cons_append, selections, selections, afterSelections, ih, List.cons_append]

theorem selections_length (scheduler : LogicalChannelScheduler)
    (readiness : List (LogicalChannelClass → Bool)) :
    (selections scheduler readiness).length = readiness.length := by
  induction readiness generalizing scheduler with
  | nil => rfl
  | cons ready readiness ih => rw [selections, List.length_cons, List.length_cons, ih]

theorem mem_selections_of_within {window : List (LogicalChannelClass → Bool)}
    (h : Within logicalClass window.length scheduler.cursor) (hcycle : window.length ≤ 24)
    (hready : ∀ ready ∈ window, ready logicalClass = true) :
    some logicalClass ∈ selections scheduler window := by
  induction window generalizing scheduler with
  | nil =>
    obtain ⟨slot, hslot, -⟩ := h
    exact absurd hslot (Nat.not_lt_zero slot)
  | cons ready window ih =>
    rw [selections]
    have hfirst : ready logicalClass = true := hready ready List.mem_cons_self
    rcases selectNext_within hfirst h hcycle with hserved | hcloser
    · rw [hserved]
      exact List.mem_cons_self
    · apply List.mem_cons_of_mem
      apply ih hcloser (Nat.le_of_succ_le hcycle)
      exact fun ready hmem => hready ready (List.mem_cons_of_mem _ hmem)

/-- What one call returns is ready, and is nothing exactly when nothing is ready. -/
def Sound (ready : LogicalChannelClass → Bool) (selection : Option LogicalChannelClass) :
    Prop :=
  (∀ logicalClass, selection = some logicalClass → ready logicalClass = true) ∧
    (selection = none ↔ ∀ logicalClass, ready logicalClass = false)

theorem selectNext_sound (scheduler : LogicalChannelScheduler)
    (ready : LogicalChannelClass → Bool) : Sound ready (scheduler.selectNext ready).1 := by
  refine ⟨fun _ => LogicalChannelScheduler.ready_of_selectNext,
    LogicalChannelScheduler.selectNext_eq_none, ?_⟩
  intro hidle
  by_contra hsome
  obtain ⟨logicalClass, hclass⟩ := Option.ne_none_iff_exists'.mp hsome
  have hready : ready logicalClass = true := LogicalChannelScheduler.ready_of_selectNext hclass
  rw [hidle logicalClass] at hready
  cases hready

theorem selections_sound (scheduler : LogicalChannelScheduler)
    (readiness : List (LogicalChannelClass → Bool)) :
    List.Forall₂ Sound readiness (selections scheduler readiness) := by
  induction readiness generalizing scheduler with
  | nil => exact List.Forall₂.nil
  | cons ready readiness ih =>
    exact List.Forall₂.cons (selectNext_sound scheduler ready) (ih _)

/-- Each call returns a ready class when there is one, and a class that stays ready for as many
calls as its gap is returned by one of them. -/
structure Fair (readiness : List (LogicalChannelClass → Bool))
    (selected : List (Option LogicalChannelClass)) : Prop where
  sound : List.Forall₂ Sound readiness selected
  served : ∀ logicalClass before window after, readiness = before ++ window ++ after →
    window.length = maxServiceGap logicalClass →
    (∀ ready ∈ window, ready logicalClass = true) →
      some logicalClass ∈ (selected.drop before.length).take window.length

theorem selections_fair (scheduler : LogicalChannelScheduler)
    (readiness : List (LogicalChannelClass → Bool)) :
    Fair readiness (selections scheduler readiness) := by
  refine ⟨selections_sound scheduler readiness, ?_⟩
  rintro logicalClass before window after rfl hlength hready
  have hgap : window.length ≤ 24 := by
    rw [hlength]
    cases logicalClass <;> decide
  have hwithin := within_gap (afterSelections scheduler before).cursor logicalClass
  rw [← hlength] at hwithin
  have hserved : some logicalClass ∈ selections (afterSelections scheduler before) window :=
    mem_selections_of_within hwithin hgap hready
  rw [List.append_assoc, selections_append, selections_append,
    List.drop_left' (selections_length scheduler before),
    List.take_left' (selections_length _ window)]
  exact hserved

end Srui.Scheduling.ServiceGaps
