import Mathlib

/-!
Runs of a transition function over a list of inputs: conditions on the steps
taken, conditions on the states visited, and the invariant rules linking them.
-/

namespace Srui.Basic.Runs

variable {σ ι : Type} (step : σ → ι → σ)

def run (s : σ) (inputs : List ι) : σ := inputs.foldl step s

/-- Every step of a run meets a condition on the state it is taken in. -/
def EveryStep (ok : σ → ι → Prop) : σ → List ι → Prop
  | _, [] => True
  | s, i :: rest => ok s i ∧ EveryStep ok (step s i) rest

/-- Every state a run visits, the first and the last included. -/
def EveryState (P : σ → Prop) : σ → List ι → Prop
  | s, [] => P s
  | s, i :: rest => P s ∧ EveryState P (step s i) rest

variable {step} {ok : σ → ι → Prop} {P : σ → Prop}

instance decidableEveryStep [∀ s i, Decidable (ok s i)] :
    ∀ s inputs, Decidable (EveryStep step ok s inputs)
  | _, [] => isTrue trivial
  | s, i :: rest =>
    have := decidableEveryStep (step s i) rest
    inferInstanceAs (Decidable (_ ∧ _))

instance decidableEveryState [DecidablePred P] :
    ∀ s inputs, Decidable (EveryState step P s inputs)
  | s, [] => inferInstanceAs (Decidable (P s))
  | s, i :: rest =>
    have := decidableEveryState (step s i) rest
    inferInstanceAs (Decidable (_ ∧ _))

@[simp] theorem run_nil (s : σ) : run step s [] = s := rfl

@[simp] theorem run_cons (s : σ) (i : ι) (rest : List ι) :
    run step s (i :: rest) = run step (step s i) rest := rfl

theorem run_append (s : σ) (xs ys : List ι) :
    run step s (xs ++ ys) = run step (run step s xs) ys := List.foldl_append

variable {s : σ}

theorem EveryStep.append {xs ys : List ι} :
    EveryStep step ok s (xs ++ ys) ↔
      EveryStep step ok s xs ∧ EveryStep step ok (run step s xs) ys := by
  induction xs generalizing s with
  | nil => simp [EveryStep]
  | cons i rest ih =>
    rw [List.cons_append, EveryStep, EveryStep, ih, run_cons, and_assoc]

theorem everyStep_of_forall (h : ∀ s i, ok s i) (s : σ) (inputs : List ι) :
    EveryStep step ok s inputs := by
  induction inputs generalizing s with
  | nil => trivial
  | cons i rest ih => exact ⟨h s i, ih _⟩

variable {inputs : List ι}

theorem everyStep_of_mem {allowed : ι → Prop} (h : ∀ i ∈ inputs, allowed i)
    (s : σ) : EveryStep step (fun _ i => allowed i) s inputs := by
  induction inputs generalizing s with
  | nil => trivial
  | cons i rest ih =>
    exact ⟨h i List.mem_cons_self, ih (fun j hj => h j (List.mem_cons_of_mem i hj)) _⟩

theorem EveryStep.invariant (hstep : ∀ s i, P s → ok s i → P (step s i))
    (hrun : EveryStep step ok s inputs) (hinit : P s) :
    P (run step s inputs) := by
  induction inputs generalizing s with
  | nil => exact hinit
  | cons i rest ih => exact ih hrun.2 (hstep s i hinit hrun.1)

theorem EveryStep.everyState (hstep : ∀ s i, P s → ok s i → P (step s i))
    (hrun : EveryStep step ok s inputs) (hinit : P s) :
    EveryState step P s inputs := by
  induction inputs generalizing s with
  | nil => exact hinit
  | cons i rest ih => exact ⟨hinit, ih hrun.2 (hstep s i hinit hrun.1)⟩

theorem EveryStep.and {ok' : σ → ι → Prop}
    (h : EveryStep step ok s inputs) (h' : EveryStep step ok' s inputs) :
    EveryStep step (fun s i => ok s i ∧ ok' s i) s inputs := by
  induction inputs generalizing s with
  | nil => trivial
  | cons i rest ih => exact ⟨⟨h.1, h'.1⟩, ih h.2 h'.2⟩

variable {Q : σ → Prop}

theorem EveryState.combine {R : σ → Prop} (himp : ∀ s, P s → Q s → R s)
    (h : EveryState step P s inputs) (h' : EveryState step Q s inputs) :
    EveryState step R s inputs := by
  induction inputs generalizing s with
  | nil => exact himp s h h'
  | cons i rest ih => exact ⟨himp s h.1 h'.1, ih h.2 h'.2⟩

theorem EveryState.mono (himp : ∀ s, P s → Q s)
    (h : EveryState step P s inputs) : EveryState step Q s inputs :=
  h.combine (fun s hs _ => himp s hs) h

theorem EveryState.last (h : EveryState step P s inputs) :
    P (run step s inputs) := by
  induction inputs generalizing s with
  | nil => exact h
  | cons i rest ih => exact ih h.2

theorem everyStep_of_last (hback : ∀ s i, P (step s i) → P s)
    (h : P (run step s inputs)) : P s ∧ EveryStep step (fun s _ => P s) s inputs := by
  induction inputs generalizing s with
  | nil => exact ⟨h, trivial⟩
  | cons i rest ih =>
    obtain ⟨hnext, hrest⟩ := ih h
    exact ⟨hback s i hnext, hback s i hnext, hrest⟩

theorem EveryStep.of_invariant {allowed : σ → ι → Prop}
    (hstep : ∀ s i, P s → allowed s i → P (step s i)) (hok : ∀ s i, P s → allowed s i → ok s i)
    (hrun : EveryStep step allowed s inputs) (hinit : P s) :
    EveryStep step ok s inputs := by
  induction inputs generalizing s with
  | nil => trivial
  | cons i rest ih => exact ⟨hok s i hinit hrun.1, ih hrun.2 (hstep s i hinit hrun.1)⟩

theorem run_invariant (hstep : ∀ s i, P s → P (step s i)) (hinit : P s)
    (inputs : List ι) : P (run step s inputs) := by
  have hevery : EveryStep step (fun _ _ => True) s inputs :=
    everyStep_of_forall (fun _ _ => trivial) s inputs
  exact hevery.invariant (fun s i h _ => hstep s i h) hinit

theorem EveryState.carries
    (hstep : ∀ s i, P s → ok s i → Q (step s i) → P (step s i))
    (hrun : EveryStep step ok s inputs) (hstates : EveryState step Q s inputs) (hinit : P s) :
    P (run step s inputs) := by
  induction inputs generalizing s with
  | nil => exact hinit
  | cons i rest ih =>
    have hnext : Q (step s i) := by
      cases rest with
      | nil => exact hstates.2
      | cons j more => exact hstates.2.1
    exact ih hrun.2 hstates.2 (hstep s i hinit hrun.1 hnext)

theorem EveryState.keeps (hstep : ∀ s i, Q s → P s → P (step s i))
    (hstates : EveryState step Q s inputs) (hinit : P s) :
    EveryState step P s inputs := by
  induction inputs generalizing s with
  | nil => exact hinit
  | cons i rest ih => exact ⟨hinit, ih hstates.2 (hstep s i hstates.1 hinit)⟩

theorem everyState_iff_everyStep_of {J : σ → Prop} {allowed : σ → ι → Prop}
    (hinvariant : ∀ s i, J s → allowed s i → J (step s i))
    (hstep : ∀ s i, J s → allowed s i → P s → (P (step s i) ↔ ok s i))
    (hJ : J s) (hinit : P s) (hrun : EveryStep step allowed s inputs) :
    EveryState step P s inputs ↔ EveryStep step ok s inputs := by
  induction inputs generalizing s with
  | nil => simp [EveryState, EveryStep, hinit]
  | cons i rest ih =>
    have hnextJ : J (step s i) := hinvariant s i hJ hrun.1
    have hexact := hstep s i hJ hrun.1 hinit
    rw [EveryState, EveryStep]
    constructor
    · rintro ⟨-, hrest⟩
      have hnext : P (step s i) := by
        cases rest with
        | nil => exact hrest
        | cons j more => exact hrest.1
      exact ⟨hexact.mp hnext, (ih hnextJ hnext hrun.2).mp hrest⟩
    · rintro ⟨hok, hrest⟩
      have hnext : P (step s i) := hexact.mpr hok
      exact ⟨hinit, (ih hnextJ hnext hrun.2).mpr hrest⟩

theorem exists_origin {β : Type} {H : σ → β → Prop} {P : σ → ι → β → Prop}
    {K : σ → ι → Prop} (hstep : ∀ s i b, H (step s i) b → P s i b ∨ H s b ∧ K s i)
    (inputs : List ι) {b : β} (h : H (run step s inputs) b) :
    (∃ earlier i later, inputs = earlier ++ i :: later ∧ P (run step s earlier) i b ∧
      EveryStep step K (run step s (earlier ++ [i])) later) ∨
      H s b ∧ EveryStep step K s inputs := by
  induction inputs using List.reverseRecOn with
  | nil => exact .inr ⟨h, trivial⟩
  | append_singleton inputs last ih =>
    rw [run_append] at h
    rcases hstep _ last b h with hput | ⟨hheld, hkept⟩
    · exact .inl ⟨inputs, last, [], rfl, hput, trivial⟩
    rcases ih hheld with ⟨earlier, i, later, rfl, hput, hlater⟩ | ⟨hstart, hall⟩
    · refine .inl ⟨earlier, i, later ++ [last], ?_, hput, EveryStep.append.mpr ⟨hlater, ?_⟩⟩
      · rw [List.append_assoc, List.cons_append]
      · rw [← run_append, List.append_assoc, List.singleton_append]
        exact ⟨hkept, trivial⟩
    · exact .inr ⟨hstart, EveryStep.append.mpr ⟨hall, hkept, trivial⟩⟩

end Srui.Basic.Runs
