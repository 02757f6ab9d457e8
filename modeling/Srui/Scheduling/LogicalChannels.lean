import Mathlib

/-!
The weighted selector of logical channels that client and server share.
-/

namespace Srui.Scheduling.LogicalChannels

inductive LogicalChannelClass where
  | control
  | input
  | ui
  | terminalHigh
  | terminalNormal
  | resource
deriving DecidableEq

def LogicalChannelClass.allCases : List LogicalChannelClass :=
  [.control, .input, .ui, .terminalHigh, .terminalNormal, .resource]

theorem LogicalChannelClass.mem_allCases (logicalClass : LogicalChannelClass) :
    logicalClass ∈ allCases := by
  cases logicalClass <;> decide

def serviceCycle : Fin 24 → LogicalChannelClass :=
  ![.control, .input, .ui, .control, .input, .terminalHigh, .control, .input, .ui, .control,
    .input, .terminalNormal, .control, .input, .ui, .control, .input, .terminalHigh, .ui,
    .control, .input, .terminalNormal, .terminalHigh, .resource]

instance serviceCycle_neZero : NeZero 24 := ⟨by decide⟩

structure LogicalChannelScheduler where
  cursor : Fin 24 := 0
deriving DecidableEq

namespace LogicalChannelScheduler

/-- The next so many slots: the first ready class, and the cursor past it. -/
def inspect (ready : LogicalChannelClass → Bool) :
    Nat → LogicalChannelScheduler → Option LogicalChannelClass × LogicalChannelScheduler
  | 0, scheduler => (none, scheduler)
  | slots + 1, scheduler =>
    if ready (serviceCycle scheduler.cursor) then
      (some (serviceCycle scheduler.cursor), ⟨scheduler.cursor + 1⟩)
    else inspect ready slots ⟨scheduler.cursor + 1⟩

def selectNext (scheduler : LogicalChannelScheduler) (ready : LogicalChannelClass → Bool) :
    Option LogicalChannelClass × LogicalChannelScheduler :=
  inspect ready 24 scheduler

variable {ready : LogicalChannelClass → Bool}

variable {scheduler : LogicalChannelScheduler}

theorem inspect_ready {slots : Nat}
    {logicalClass : LogicalChannelClass}
    (h : (inspect ready slots scheduler).1 = some logicalClass) : ready logicalClass = true := by
  induction slots generalizing scheduler with
  | zero => cases h
  | succ slots ih =>
    rw [inspect] at h
    split_ifs at h with hready
    · rw [← Option.some.inj h]
      exact hready
    · exact ih h

theorem inspect_none {slots : Nat}
    (h : (inspect ready slots scheduler).1 = none) :
    ∀ slot < slots, ready (serviceCycle (scheduler.cursor + Fin.ofNat 24 slot)) = false := by
  induction slots generalizing scheduler with
  | zero => exact fun slot hslot => absurd hslot (Nat.not_lt_zero slot)
  | succ slots ih =>
    rw [inspect] at h
    split_ifs at h with hready
    intro slot hslot
    cases slot with
    | zero =>
      have hfirst : scheduler.cursor + Fin.ofNat 24 0 = scheduler.cursor := add_zero _
      rw [hfirst]
      exact Bool.eq_false_iff.mpr hready
    | succ slot =>
      have hrest := ih h slot (Nat.lt_of_succ_lt_succ hslot)
      have hnext : scheduler.cursor + Fin.ofNat 24 (slot + 1) =
          scheduler.cursor + 1 + Fin.ofNat 24 slot := by
        apply Fin.ext
        simp only [Fin.ofNat, Fin.val_add]
        omega
      rw [hnext]
      exact hrest

theorem exists_slot (cursor : Fin 24) (logicalClass : LogicalChannelClass) :
    ∃ slot < 24, serviceCycle (cursor + Fin.ofNat 24 slot) = logicalClass := by
  have hslot : ∃ place : Fin 24, serviceCycle place = logicalClass := by
    cases logicalClass
    · exact ⟨0, rfl⟩
    · exact ⟨1, rfl⟩
    · exact ⟨2, rfl⟩
    · exact ⟨5, rfl⟩
    · exact ⟨11, rfl⟩
    · exact ⟨23, rfl⟩
  obtain ⟨place, rfl⟩ := hslot
  refine ⟨(place - cursor).val, (place - cursor).isLt, ?_⟩
  have hback : Fin.ofNat 24 (place - cursor).val = place - cursor := Fin.ofNat_val_eq_self _
  rw [hback, add_sub_cancel]

theorem ready_of_selectNext
    {logicalClass : LogicalChannelClass}
    (h : (scheduler.selectNext ready).1 = some logicalClass) : ready logicalClass = true :=
  inspect_ready h

theorem selectNext_eq_none
    (h : (scheduler.selectNext ready).1 = none) (logicalClass : LogicalChannelClass) :
    ready logicalClass = false := by
  obtain ⟨slot, hslot, rfl⟩ := exists_slot scheduler.cursor logicalClass
  exact inspect_none h slot hslot

end LogicalChannelScheduler

end Srui.Scheduling.LogicalChannels
