import Mathlib

/-!
Forests kept in two redundant forms: a parent pointer for every live element,
and an ordered list of elements for every container, where a container is a
live element or, written `none`, the top level.

The lemmas say which edits of the two forms keep them in step and what happens
to the depth of the elements.
-/

namespace Srui.Basic.Forests

variable {α : Type} {up up' : α → Option (Option α)} {kids kids' : Option α → List α}

/-- Number of elements on the way from `x` to the top level, `x` included. -/
inductive Depth (up : α → Option (Option α)) : α → Nat → Prop
  | root {x : α} (h : up x = some none) : Depth up x 1
  | child {x p : α} {d : Nat} (h : up x = some (some p)) (hp : Depth up p d) : Depth up x (d + 1)

/-- Number of elements on the way from `y` up to `x`, both included. -/
inductive Below (up : α → Option (Option α)) (x : α) : α → Nat → Prop
  | self : Below up x x 1
  | step {y p : α} {k : Nat} (h : up y = some (some p)) (hp : Below up x p k) :
      Below up x y (k + 1)

/-- The two forms agree, no list repeats an element, and every live element
reaches the top level. -/
structure Forest (up : α → Option (Option α)) (kids : Option α → List α) : Prop where
  hangs : ∀ x c, x ∈ kids c ↔ up x = some c
  nodup : ∀ c, (kids c).Nodup
  grounded : ∀ x c, up x = some c → ∃ d, Depth up x d

variable {x y p : α} {d k : Nat}

theorem Depth.live (h : Depth up x d) : ∃ c, up x = some c := by
  cases h with
  | root h => exact ⟨_, h⟩
  | child h _ => exact ⟨_, h⟩

theorem Depth.unique {e : Nat} (h : Depth up x d) (h' : Depth up x e) : d = e := by
  induction h generalizing e with
  | root h =>
    cases h' with
    | root _ => rfl
    | child h' _ => simp [h] at h'
  | child h hp ih =>
    cases h' with
    | root h' => simp [h] at h'
    | child h' hp' =>
      rw [h, Option.some.injEq, Option.some.injEq] at h'
      subst h'
      rw [ih hp']

theorem Depth.pos (h : Depth up x d) : 1 ≤ d := by
  cases h with
  | root _ => exact Nat.le_refl 1
  | child _ _ => omega

theorem Depth.ancestor (h : Depth up x d) :
    ∀ j, 1 ≤ j → j ≤ d → ∃ y, Depth up y j := by
  induction h with
  | root h =>
    intro j hlow hhigh
    have hone : j = 1 := by omega
    exact hone ▸ ⟨_, .root h⟩
  | @child x p d h hp ih =>
    intro j hlow hhigh
    by_cases htop : j = d + 1
    · exact htop ▸ ⟨x, .child h hp⟩
    · exact ih j hlow (by omega)

theorem Depth.le_card [DecidableEq α] {live : Finset α} (hlive : ∀ y c, up y = some c → y ∈ live)
    (h : Depth up x d) : d ≤ live.card := by
  classical
  have hexists : ∀ j : Nat, ∃ y : α, 1 ≤ j → j ≤ d → Depth up y j := by
    intro j
    by_cases hj : 1 ≤ j ∧ j ≤ d
    · obtain ⟨y, hy⟩ := h.ancestor j hj.1 hj.2
      exact ⟨y, fun _ _ => hy⟩
    · exact ⟨x, fun hlow hhigh => absurd ⟨hlow, hhigh⟩ hj⟩
  choose way hway using hexists
  have hcard : (Finset.Icc 1 d).card ≤ live.card := by
    apply Finset.card_le_card_of_injOn way
    · intro j hj
      obtain ⟨hlow, hhigh⟩ := Finset.mem_Icc.mp hj
      obtain ⟨c, hc⟩ := (hway j hlow hhigh).live
      exact hlive _ c hc
    · intro i hi j hj heq
      obtain ⟨hlow, hhigh⟩ := Finset.mem_Icc.mp hi
      obtain ⟨hlow', hhigh'⟩ := Finset.mem_Icc.mp hj
      exact (hway i hlow hhigh).unique (heq ▸ hway j hlow' hhigh')
  rwa [Nat.card_Icc, Nat.add_sub_cancel] at hcard

theorem Depth.congr (hsame : ∀ y e, Depth up y e → up' y = up y)
    (h : Depth up x d) : Depth up' x d := by
  induction h with
  | root h => exact .root ((hsame _ _ (.root h)).trans h)
  | child h hp ih => exact .child ((hsame _ _ (.child h hp)).trans h) ih

theorem Below.pos (h : Below up x y k) : 1 ≤ k := by
  cases h with
  | self => exact Nat.le_refl 1
  | step _ _ => omega

theorem Below.depth (hx : Depth up x d) (h : Below up x y k) :
    Depth up y (d + k - 1) := by
  induction h with
  | self => simpa using hx
  | @step y p k hy hp ih =>
    have hk := hp.pos
    have heq : d + (k + 1) - 1 = (d + k - 1) + 1 := by omega
    exact heq ▸ .child hy ih

theorem Below.not_parent (hx : Depth up x d) (hup : up x = some (some p)) :
    ¬Below up x p k := by
  intro h
  have hdepth := h.depth hx
  have hk := h.pos
  have := hx.unique (.child hup hdepth)
  omega

theorem Below.head (h : Below up x y (k + 2)) :
    ∃ z, up z = some (some x) ∧ Below up z y (k + 1) := by
  induction k generalizing y with
  | zero =>
    cases h with
    | step hy hp =>
      cases hp with
      | self => exact ⟨y, hy, .self⟩
      | step _ hp =>
        have := hp.pos
        omega
  | succ k ih =>
    cases h with
    | step hy hp =>
      obtain ⟨z, hz, hbelow⟩ := ih hp
      exact ⟨z, hz, .step hy hbelow⟩

theorem Depth.below_root (h : Depth up x d) :
    ∃ y k, up y = some none ∧ Below up y x k := by
  induction h with
  | root h => exact ⟨_, 1, h, .self⟩
  | child h _ ih =>
    obtain ⟨y, k, hy, hk⟩ := ih
    exact ⟨y, k + 1, hy, .step h hk⟩

theorem Below.under (h : Below up x y k) (hx : up x = some (some p)) :
    Below up p y (k + 1) := by
  induction h with
  | self => exact .step hx .self
  | step hy _ ih => exact .step hy ih

theorem Below.top (h : Below up x y k) :
    y = x ∨ ∃ z j, up z = some (some x) ∧ Below up z y j := by
  match k, h with
  | _, .self => exact Or.inl rfl
  | _, .step (k := 0) _ hp =>
    have := hp.pos
    omega
  | _, .step (k := k + 1) hy hp =>
    obtain ⟨z, hz, hbelow⟩ := Below.head (.step hy hp)
    exact Or.inr ⟨z, _, hz, hbelow⟩

theorem Forest.parent_live (h : Forest up kids) (hx : up x = some (some p)) :
    ∃ c, up p = some c := by
  obtain ⟨d, hd⟩ := h.grounded x _ hx
  cases hd with
  | root hroot => simp [hx] at hroot
  | child hchild hp =>
    rw [hx, Option.some.injEq, Option.some.injEq] at hchild
    exact hchild ▸ hp.live

theorem Forest.kids_of_dead (h : Forest up kids) (hp : up p = none) :
    kids (some p) = [] := by
  rw [List.eq_nil_iff_forall_not_mem]
  intro x hx
  obtain ⟨c, hc⟩ := h.parent_live ((h.hangs x _).mp hx)
  rw [hp] at hc
  simp at hc

theorem Below.unique {z : α} (h : Below up x z k) (h' : Below up y z k) : x = y := by
  induction h with
  | self =>
    cases h' with
    | self => rfl
    | step _ hp =>
      have := hp.pos
      omega
  | step hz hp ih =>
    cases h' with
    | self =>
      have := hp.pos
      omega
    | step hz' hp' =>
      rw [hz, Option.some.injEq, Option.some.injEq] at hz'
      subst hz'
      exact ih hp'

theorem Depth.sibling {c : Option α} (hd : Depth up x d) (hx : up x = some c)
    (hy : up y = some c) : Depth up y d := by
  cases hd with
  | root hroot =>
    rw [hx, Option.some.injEq] at hroot
    exact .root (hroot ▸ hy)
  | child hchild hp =>
    rw [hx, Option.some.injEq] at hchild
    exact .child (hchild ▸ hy) hp

theorem Forest.siblings_disjoint (h : Forest up kids) {z : α} {c : Option α} {j : Nat}
    (hx : up x = some c) (hy : up y = some c) (hne : x ≠ y) (hxz : Below up x z j) :
    ¬ Below up y z k := by
  intro hyz
  obtain ⟨d, hd⟩ := h.grounded x c hx
  have hlength := (hxz.depth hd).unique (hyz.depth (hd.sibling hx hy))
  have hj := hxz.pos
  have hk := hyz.pos
  have hdpos := hd.pos
  have hjk : j = k := by omega
  exact hne (hxz.unique (hjk ▸ hyz))

/-- The container `c` exists. -/
def Container (up : α → Option (Option α)) (c : Option α) : Prop :=
  ∀ p, c = some p → ∃ c', up p = some c'

def ContainerDepth (up : α → Option (Option α)) (c : Option α) (d : Nat) : Prop :=
  match c with
  | none => d = 0
  | some p => Depth up p d

theorem ContainerDepth.member {c : Option α} (hc : ContainerDepth up c d)
    (hx : up x = some c) : Depth up x (d + 1) := by
  cases c with
  | none =>
    have hzero : d = 0 := hc
    subst hzero
    exact .root hx
  | some p => exact .child hx hc

theorem Forest.reorder (h : Forest up kids) (hperm : ∀ c, (kids' c).Perm (kids c)) :
    Forest up kids' := by
  refine ⟨?_, ?_, h.grounded⟩
  · intro x c
    rw [(hperm c).mem_iff]
    exact h.hangs x c
  · intro c
    exact (hperm c).nodup_iff.mpr (h.nodup c)

section Edits

variable [DecidableEq α]

variable {c : Option α}

variable {d : Nat} {x : α}

theorem Depth.attach (hx : up x = none) (hup : ∀ y, up' y = if y = x then some c else up y) {y : α}
    (h : Depth up y d) :
    Depth up' y d := by
  refine h.congr ?_
  intro z e hz
  rw [hup, if_neg]
  rintro rfl
  obtain ⟨c', hc'⟩ := hz.live
  rw [hx] at hc'
  simp at hc'

theorem Forest.attach (h : Forest up kids) (hx : up x = none) (hc : ∃ d, ContainerDepth up c d)
    (hup : ∀ y, up' y = if y = x then some c else up y)
    (hkids : ∀ c', (kids' c').Perm (if c' = c then x :: kids c else kids c')) :
    Forest up' kids' := by
  have hnot : ∀ c', x ∉ kids c' := by
    intro c' hmem
    rw [h.hangs, hx] at hmem
    simp at hmem
  refine ⟨?_, ?_, ?_⟩
  · intro y c'
    rw [(hkids c').mem_iff, hup]
    by_cases hy : y = x
    · subst hy
      by_cases hcc : c' = c
      · simp [hcc]
      · have hne : ¬c = c' := fun heq => hcc heq.symm
        simp [hcc, hne, hnot c']
    · by_cases hcc : c' = c
      · simp [hcc, hy, h.hangs]
      · simp [hcc, hy, h.hangs]
  · intro c'
    rw [(hkids c').nodup_iff]
    split
    · exact List.nodup_cons.mpr ⟨hnot c, h.nodup c⟩
    · exact h.nodup c'
  · intro y c' hy
    rw [hup] at hy
    split at hy
    · rename_i hyx
      obtain ⟨d, hd⟩ := hc
      refine ⟨d + 1, ?_⟩
      have hcontainer : ContainerDepth up' c d := by
        cases c with
        | none => exact hd
        | some p => exact Depth.attach hx hup hd
      apply hcontainer.member
      rw [hup, if_pos hyx]
    · obtain ⟨d, hd⟩ := h.grounded y c' hy
      exact ⟨d, hd.attach hx hup⟩

theorem Depth.move_outside (hup : ∀ y, up' y = if y = x then some c else up y) {y : α}
    (h : Depth up y d) (hout : ∀ k, ¬Below up x y k) : Depth up' y d := by
  induction h with
  | @root y h =>
    refine .root ?_
    rw [hup, if_neg]
    · exact h
    · rintro rfl
      exact hout 1 .self
  | @child y p d h hp ih =>
    refine .child (p := p) ?_ (ih fun k hk => hout (k + 1) (.step h hk))
    rw [hup, if_neg]
    · exact h
    · rintro rfl
      exact hout 1 .self

theorem Depth.move_inside {dx : Nat} (hx : Depth up x dx)
    (hup : ∀ y, up' y = if y = x then some c else up y) (hc : ContainerDepth up' c d) {y : α}
    {k : Nat} (h : Below up x y k) : Depth up' y (d + k) := by
  induction h with
  | self =>
    apply hc.member
    rw [hup, if_pos rfl]
  | @step y p k hy hp ih =>
    refine .child (p := p) ?_ ih
    rw [hup, if_neg]
    · exact hy
    · rintro rfl
      exact Below.not_parent hx hy hp

theorem ContainerDepth.move (hup : ∀ y, up' y = if y = x then some c else up y)
    (hout : ∀ p, c = some p → ∀ k, ¬Below up x p k) (hc : ContainerDepth up c d) :
    ContainerDepth up' c d := by
  cases c with
  | none => exact hc
  | some p => exact Depth.move_outside hup hc (hout p rfl)

theorem Forest.move (h : Forest up kids) {dx : Nat} (hx : Depth up x dx)
    (hc : ContainerDepth up c d) (hout : ∀ p, c = some p → ∀ k, ¬Below up x p k)
    (hup : ∀ y, up' y = if y = x then some c else up y) (hkids : ∀ c', (kids' c').Perm
      (if c' = c then x :: (kids c').erase x else (kids c').erase x)) :
    Forest up' kids' := by
  have herase : ∀ y c', y ∈ (kids c').erase x ↔ y ≠ x ∧ up y = some c' := by
    intro y c'
    rw [(h.nodup c').mem_erase_iff, h.hangs]
  refine ⟨?_, ?_, ?_⟩
  · intro y c'
    rw [(hkids c').mem_iff, hup]
    by_cases hcc : c' = c
    · subst hcc
      rw [if_pos rfl, List.mem_cons, herase]
      by_cases hy : y = x
      · simp [hy]
      · simp [hy]
    · rw [if_neg hcc, herase]
      by_cases hy : y = x
      · have hne : ¬c = c' := fun heq => hcc heq.symm
        simp [hy, hne]
      · simp [hy]
  · intro c'
    rw [(hkids c').nodup_iff]
    split
    · refine List.nodup_cons.mpr ⟨?_, (h.nodup c').erase x⟩
      rw [herase]
      simp
    · exact (h.nodup c').erase x
  · intro y c' hy
    have hcontainer := hc.move hup hout
    by_cases hbelow : ∃ k, Below up x y k
    · obtain ⟨k, hk⟩ := hbelow
      exact ⟨d + k, hk |> Depth.move_inside hx hup hcontainer⟩
    · have hne : y ≠ x := by
        rintro rfl
        exact hbelow ⟨1, .self⟩
      rw [hup, if_neg hne] at hy
      obtain ⟨e, he⟩ := h.grounded y c' hy
      exact ⟨e, he.move_outside hup fun k hk => hbelow ⟨k, hk⟩⟩

omit [DecidableEq α] in
theorem Depth.prune {gone : α → Prop} [DecidablePred gone]
    (hclosed : ∀ x p, up x = some (some p) → gone p → gone x)
    (hup : ∀ y, up' y = if gone y then none else up y) {y : α} (h : Depth up y d) (hy : ¬gone y) :
    Depth up' y d := by
  induction h with
  | root h =>
    refine .root ?_
    rw [hup, if_neg hy, h]
  | @child y p d h hp ih =>
    refine .child (p := p) ?_ (ih fun hgone => hy (hclosed _ _ h hgone))
    rw [hup, if_neg hy, h]

omit [DecidableEq α] in
theorem Forest.prune (h : Forest up kids) (gone : α → Prop) [DecidablePred gone]
    (hclosed : ∀ x p, up x = some (some p) → gone p → gone x)
    (hup : ∀ y, up' y = if gone y then none else up y)
    (hkids : ∀ c, (∀ p, c = some p → ¬gone p) → kids' c = (kids c).filter fun y => ¬gone y)
    (hdead : ∀ p, gone p → kids' (some p) = []) : Forest up' kids' := by
  refine ⟨?_, ?_, ?_⟩
  · intro y c
    by_cases hc : ∃ p, c = some p ∧ gone p
    · obtain ⟨p, rfl, hp⟩ := hc
      rw [hdead p hp, hup]
      constructor
      · intro hmem
        simp at hmem
      · intro hy
        split at hy
        · simp at hy
        · rename_i hstays
          exact absurd (hclosed y p hy hp) hstays
    · rw [hkids c (fun p hp hgone => hc ⟨p, hp, hgone⟩), List.mem_filter, h.hangs, hup]
      by_cases hy : gone y
      · simp [hy]
      · simp [hy]
  · intro c
    by_cases hc : ∃ p, c = some p ∧ gone p
    · obtain ⟨p, rfl, hp⟩ := hc
      rw [hdead p hp]
      exact List.nodup_nil
    · rw [hkids c fun p hp hgone => hc ⟨p, hp, hgone⟩]
      exact (h.nodup c).filter _
  · intro y c hy
    rw [hup] at hy
    split at hy
    · simp at hy
    · rename_i hstays
      obtain ⟨d, hd⟩ := h.grounded y c hy
      exact ⟨d, hd.prune hclosed hup hstays⟩

end Edits

end Srui.Basic.Forests
