import Mathlib

/-!
Inputs that lead from one state to another, each accepted by the state before
it, through states with a given property.
-/

namespace Srui.Basic.Traces

variable {σ ι : Type}

/-- `s` accepts the inputs in order and ends as `t`. -/
def Trace (accepts : σ → ι → σ → Prop) (visits : σ → Prop) : σ → List ι → σ → Prop
  | s, [], t => s = t
  | s, i :: rest, t =>
    ∃ middle, visits middle ∧ accepts s i middle ∧ Trace accepts visits middle rest t

variable {accepts : σ → ι → σ → Prop} {visits visits' : σ → Prop} {s t : σ}

theorem Trace.mono (hvisits : ∀ x, visits x → visits' x) {inputs : List ι}
    (h : Trace accepts visits s inputs t) : Trace accepts visits' s inputs t := by
  induction inputs generalizing s with
  | nil => exact h
  | cons i rest ih =>
    obtain ⟨middle, hmiddle, haccepts, hrest⟩ := h
    exact ⟨middle, hvisits middle hmiddle, haccepts, ih hrest⟩

theorem trace_append {xs ys : List ι} :
    Trace accepts visits s (xs ++ ys) t ↔
      ∃ middle, Trace accepts visits s xs middle ∧ Trace accepts visits middle ys t := by
  induction xs generalizing s with
  | nil => simp [Trace]
  | cons i rest ih =>
    constructor
    · rintro ⟨first, hfirst, haccepts, hrest⟩
      obtain ⟨middle, hbefore, hafter⟩ := ih.mp hrest
      exact ⟨middle, ⟨first, hfirst, haccepts, hbefore⟩, hafter⟩
    · rintro ⟨middle, ⟨first, hfirst, haccepts, hbefore⟩, hafter⟩
      exact ⟨first, hfirst, haccepts, ih.mpr ⟨middle, hbefore, hafter⟩⟩

theorem trace_single {i : ι} (ht : visits t) (h : accepts s i t) :
    Trace accepts visits s [i] t := ⟨t, ht, h, rfl⟩

theorem Trace.visits_end {inputs : List ι} (h : Trace accepts visits s inputs t)
    (hs : visits s) : visits t := by
  induction inputs generalizing s with
  | nil => exact h ▸ hs
  | cons i rest ih =>
    obtain ⟨middle, hmiddle, -, hrest⟩ := h
    exact ih hrest hmiddle

end Srui.Basic.Traces
