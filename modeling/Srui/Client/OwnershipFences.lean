import Srui.Basic.Runs

/-!
The ownership fence of the state that outlives session controllers: one active ownership, counted
mutation leases, and the calls that wait until the leases of retired ownerships are gone.
-/

namespace Srui.Client.OwnershipFences

open Basic.Runs

/-- `SessionContinuityOwnership`: a connection and the session incarnation it drives. -/
structure Ownership where
  binding : Nat
  sessionIncarnation : Nat
deriving DecidableEq

abbrev CallId := Nat

/-- `SessionContinuityContext`. A waiting call stands for its continuation. -/
structure SessionContinuityContext where
  activeOwnership : Option Ownership := none
  retiredOwnerships : Finset Ownership := ∅
  mutationCounts : Ownership → Option Nat := fun _ => none
  mutationDrainWaiters : Ownership → List CallId := fun _ => []

namespace SessionContinuityContext

def isActive (context : SessionContinuityContext) (ownership : Ownership) : Bool :=
  context.activeOwnership = some ownership

/-- The ownerships that a call of `activate` drains. -/
def ownershipsToDrain (context : SessionContinuityContext) (next : Ownership) : Finset Ownership :=
  match context.activeOwnership with
  | some active =>
    if active ≠ next then insert active context.retiredOwnerships
    else context.retiredOwnerships
  | none => context.retiredOwnerships

/-- The first section of `activate`. -/
def activate (context : SessionContinuityContext) (next : Ownership) : SessionContinuityContext :=
  { context with
    retiredOwnerships := context.retiredOwnerships ∪ context.ownershipsToDrain next
    activeOwnership := some next }

/-- The section of `advanceSessionIncarnationIfActive` that moves the active ownership on. -/
def advance (context : SessionContinuityContext) (previous next : Ownership) :
    SessionContinuityContext :=
  { context with
    retiredOwnerships := insert previous context.retiredOwnerships
    activeOwnership := some next }

def retire (context : SessionContinuityContext) (binding : Nat) : SessionContinuityContext :=
  match context.activeOwnership with
  | some active =>
    if active.binding = binding then
      { context with
        retiredOwnerships := insert active context.retiredOwnerships
        activeOwnership := none }
    else context
  | none => context

def acquireMutation (context : SessionContinuityContext) (ownership : Ownership) :
    Option SessionContinuityContext :=
  if context.activeOwnership = some ownership then
    some { context with
      mutationCounts := Function.update context.mutationCounts ownership
        (some ((context.mutationCounts ownership).getD 0 + 1)) }
  else none

/-- `releaseMutation`: the context without one lease, and the calls it resumes. -/
def releaseMutation (context : SessionContinuityContext) (ownership : Ownership) :
    SessionContinuityContext × List CallId :=
  match context.mutationCounts ownership with
  | none => (context, [])
  | some count =>
    if 1 < count then
      ({ context with
        mutationCounts := Function.update context.mutationCounts ownership (some (count - 1)) },
        [])
    else
      ({ context with
        mutationCounts := Function.update context.mutationCounts ownership none
        mutationDrainWaiters := Function.update context.mutationDrainWaiters ownership [] },
        context.mutationDrainWaiters ownership)

theorem releaseMutation_activeOwnership (context : SessionContinuityContext)
    (ownership : Ownership) :
    (context.releaseMutation ownership).1.activeOwnership = context.activeOwnership := by
  unfold releaseMutation
  split
  · rfl
  · split_ifs <;> rfl

/-- `waitForMutationDrain` of a call that has to wait. -/
def awaitDrain (context : SessionContinuityContext) (ownership : Ownership) (call : CallId) :
    SessionContinuityContext :=
  { context with
    mutationDrainWaiters := Function.update context.mutationDrainWaiters ownership
      (context.mutationDrainWaiters ownership ++ [call]) }

def drained (context : SessionContinuityContext) (ownerships : Finset Ownership) :
    SessionContinuityContext :=
  { context with retiredOwnerships := context.retiredOwnerships \ ownerships }

end SessionContinuityContext

/-- A call of `activate` or of `advanceSessionIncarnationIfActive`, past its first section.
`before` remembers the ownerships that had been active when the call came. -/
structure DrainingCall where
  next : Ownership
  advances : Bool
  ownershipsToDrain : Finset Ownership
  undrained : List Ownership
  suspended : Bool := false
  returned : Option Bool := none
  before : Finset Ownership

/-- The context with its calls in progress and its outstanding leases. `everActive`, `registered`
and `resumed` record what has happened. -/
structure Fence where
  context : SessionContinuityContext := {}
  calls : CallId → Option DrainingCall := fun _ => none
  leases : List Ownership := []
  everActive : Finset Ownership := ∅
  registered : List (CallId × Ownership) := []
  resumed : List (CallId × Ownership) := []

/-- One locked section. The order in which `activate` drains is that of a set. -/
inductive Section where
  | activate (call : CallId) (next : Ownership) (order : List Ownership)
  | advance (call : CallId) (binding fromIncarnation toIncarnation : Nat)
  | waitForMutationDrain (call : CallId)
  | finish (call : CallId)
  | retire (binding : Nat)
  | acquireMutation (ownership : Ownership)
  | releaseMutation (lease : Ownership)

def DrainingCall.resume (call : DrainingCall) : DrainingCall :=
  { call with suspended := false, undrained := call.undrained.tail }

namespace Fence

def install (f : Fence) (id : CallId) (context : SessionContinuityContext) (call : DrainingCall) :
    Fence :=
  { f with
    context := context
    calls := Function.update f.calls id (some call)
    everActive := insert call.next f.everActive }

def activate (f : Fence) (id : CallId) (next : Ownership) (order : List Ownership) : Fence :=
  if f.calls id = none ∧ order.Nodup ∧ order.toFinset = f.context.ownershipsToDrain next then
    f.install id (f.context.activate next) {
      next := next
      advances := false
      ownershipsToDrain := f.context.ownershipsToDrain next
      undrained := order
      before := f.everActive }
  else f

def advance (f : Fence) (id : CallId) (previous next : Ownership) : Fence :=
  if f.calls id = none then
    if previous = next ∨ f.context.activeOwnership ≠ some previous then
      { f with
        calls := Function.update f.calls id (some {
          next := next
          advances := true
          ownershipsToDrain := ∅
          undrained := []
          returned := some (decide (previous = next) && f.context.isActive next)
          before := f.everActive }) }
    else
      f.install id (f.context.advance previous next) {
        next := next
        advances := true
        ownershipsToDrain := {previous}
        undrained := [previous]
        before := f.everActive }
  else f

def waitForMutationDrain (f : Fence) (id : CallId) : Fence :=
  match f.calls id with
  | some call =>
    match call.suspended, call.undrained with
    | false, ownership :: rest =>
      if f.context.mutationCounts ownership = none then
        { f with calls := Function.update f.calls id (some { call with undrained := rest }) }
      else
        { f with
          context := f.context.awaitDrain ownership id
          calls := Function.update f.calls id (some { call with suspended := true })
          registered := f.registered ++ [(id, ownership)] }
    | _, _ => f
  | none => f

def finish (f : Fence) (id : CallId) : Fence :=
  match f.calls id with
  | some call =>
    if call.undrained = [] ∧ call.returned = none then
      { f with
        context := f.context.drained call.ownershipsToDrain
        calls := Function.update f.calls id (some { call with
          returned := some (!call.advances || f.context.isActive call.next) }) }
    else f
  | none => f

def acquireMutation (f : Fence) (ownership : Ownership) : Fence :=
  match f.context.acquireMutation ownership with
  | some context => { f with context := context, leases := ownership :: f.leases }
  | none => f

def releaseMutation (f : Fence) (lease : Ownership) : Fence :=
  let released := f.context.releaseMutation lease
  { f with
    context := released.1
    calls := fun id =>
      if id ∈ released.2 then (f.calls id).map DrainingCall.resume else f.calls id
    leases := f.leases.erase lease
    resumed := f.resumed ++ released.2.map fun id => (id, lease) }

def step (f : Fence) : Section → Fence
  | .activate call next order => f.activate call next order
  | .advance call binding fromIncarnation toIncarnation =>
    f.advance call ⟨binding, fromIncarnation⟩ ⟨binding, toIncarnation⟩
  | .waitForMutationDrain call => f.waitForMutationDrain call
  | .finish call => f.finish call
  | .retire binding => { f with context := f.context.retire binding }
  | .acquireMutation ownership => f.acquireMutation ownership
  | .releaseMutation lease => f.releaseMutation lease

/-- What the controllers promise: an ownership is installed once, an advance starts from an
ownership whose own call has returned, and each lease is released once. -/
def Promised (f : Fence) : Section → Prop
  | .activate _ next _ => next ∉ f.everActive
  | .advance _ binding fromIncarnation toIncarnation =>
    (⟨binding, toIncarnation⟩ : Ownership) ∉ f.everActive ∧
      ∀ id call, f.calls id = some call → call.returned = none →
        call.next ≠ ⟨binding, fromIncarnation⟩
  | .releaseMutation lease => lease ∈ f.leases
  | _ => True

def Past (f : Fence) (ownership : Ownership) : Prop :=
  ownership ∈ f.everActive ∧ f.context.activeOwnership ≠ some ownership

/-- What a step keeps: a past ownership stays past and gets no lease, and an ownership known
before is active afterwards only if it was and nothing was installed. -/
structure Follows (f f' : Fence) : Prop where
  past : ∀ o, f.Past o → f'.Past o
  leases : ∀ o, f.Past o → o ∈ f'.leases → o ∈ f.leases
  newest : ∀ o ∈ f.everActive, f'.context.activeOwnership = some o →
    f.context.activeOwnership = some o ∧ f'.everActive = f.everActive
  everActive : f.everActive ⊆ f'.everActive

/-- What holds of a call: all it drains is past, and what it has drained has no lease; an
ownership from before the call that it does not drain has none either. -/
structure CallSound (f : Fence) (call : DrainingCall) : Prop where
  nodup : call.undrained.Nodup
  drains : ∀ o ∈ call.ownershipsToDrain, f.Past o ∧ (o ∉ call.undrained → o ∉ f.leases)
  before : call.returned ≠ some false → ∀ o ∈ call.before,
    f.Past o ∧ (o ∉ call.ownershipsToDrain → o ∉ f.leases)
  installed : call.returned ≠ some false → call.next ∈ f.everActive
  newest : call.returned ≠ some false → f.context.activeOwnership = some call.next →
    f.everActive = insert call.next call.before
  settled : call.returned ≠ none → call.undrained = []

structure Sound (f : Fence) : Prop where
  counted : ∀ o, f.context.mutationCounts o =
    if f.leases.count o = 0 then none else some (f.leases.count o)
  leased : ∀ o ∈ f.leases, o ∈ f.everActive
  active : ∀ o, f.context.activeOwnership = some o → o ∈ f.everActive
  retired : ∀ o ∈ f.context.retiredOwnerships, f.Past o
  accounted : ∀ o, f.Past o → o ∈ f.context.retiredOwnerships ∨ o ∉ f.leases
  current : ∀ a, f.context.activeOwnership = some a →
    (∀ o, f.Past o → o ∉ f.leases) ∨
      ∃ id call, f.calls id = some call ∧ call.returned = none ∧ call.next = a
  call : ∀ id call, f.calls id = some call → f.CallSound call
  balanced : ∀ id o, f.resumed.count (id, o) + (f.context.mutationDrainWaiters o).count id =
    f.registered.count (id, o)
  once : f.registered.Nodup
  waiting : ∀ o, f.context.mutationDrainWaiters o ≠ [] → o ∈ f.leases
  suspended : ∀ id o, id ∈ f.context.mutationDrainWaiters o →
    ∃ call, f.calls id = some call ∧ call.suspended = true ∧ call.undrained.head? = some o
  registered : ∀ id o, (id, o) ∈ f.registered → ∃ call, f.calls id = some call ∧
    (o ∈ call.undrained → call.suspended = true ∧ call.undrained.head? = some o)

/-! ### What every step keeps -/

theorem Follows.same {f f' : Fence}
    (hactive : f'.context.activeOwnership = f.context.activeOwnership)
    (hever : f'.everActive = f.everActive) (hleases : f'.leases = f.leases) : Follows f f' where
  past := by
    rintro o ⟨hmem, hne⟩
    rw [Past, hactive, hever]
    exact ⟨hmem, hne⟩
  leases := fun o _ hlease => hleases ▸ hlease
  newest := fun o _ ho => ⟨hactive ▸ ho, hever⟩
  everActive := hever ▸ subset_rfl

variable {call : DrainingCall}

theorem CallSound.follows {f f' : Fence} (h : f.CallSound call)
    (hfollows : Follows f f') : f'.CallSound call where
  nodup := h.nodup
  drains := by
    intro o ho
    obtain ⟨hpast, hundrained⟩ := h.drains o ho
    exact ⟨hfollows.past o hpast,
      fun hnot hlease => hundrained hnot (hfollows.leases o hpast hlease)⟩
  before := by
    intro hreturned o ho
    obtain ⟨hpast, hnone⟩ := h.before hreturned o ho
    exact ⟨hfollows.past o hpast, fun hnot hlease => hnone hnot (hfollows.leases o hpast hlease)⟩
  installed := fun hreturned => hfollows.everActive (h.installed hreturned)
  newest := by
    intro hreturned hactive
    obtain ⟨hactive', heq⟩ := hfollows.newest _ (h.installed hreturned) hactive
    rw [heq]
    exact h.newest hreturned hactive'
  settled := h.settled

variable {next o lease : Ownership} {context : SessionContinuityContext}

theorem mem_ownershipsToDrain
    (hnext : context.activeOwnership ≠ some next) :
    o ∈ context.ownershipsToDrain next ↔
      context.activeOwnership = some o ∨ o ∈ context.retiredOwnerships := by
  unfold SessionContinuityContext.ownershipsToDrain
  rcases hactive : context.activeOwnership with - | active
  · simp
  · have hne : active ≠ next := fun heq => hnext (heq ▸ hactive)
    simp only [ne_eq, hne, not_false_eq_true, if_true, Finset.mem_insert, Option.some.injEq]
    rw [eq_comm]

variable {id : CallId}

theorem follows_install {f : Fence} (hfresh : call.next ∉ f.everActive)
    (hactive : context.activeOwnership = some call.next) :
    Follows f (f.install id context call) where
  past := by
    rintro o ⟨hmem, -⟩
    refine ⟨Finset.mem_insert_of_mem hmem, ?_⟩
    change context.activeOwnership ≠ some o
    rw [hactive, Ne, Option.some.injEq]
    rintro rfl
    exact hfresh hmem
  leases := fun _ _ hlease => hlease
  newest := by
    intro o hmem ho
    change context.activeOwnership = some o at ho
    rw [hactive, Option.some.injEq] at ho
    exact absurd (ho ▸ hmem) hfresh
  everActive := Finset.subset_insert call.next f.everActive

variable {calls : CallId → Option DrainingCall} {new : DrainingCall}

theorem exists_update {id' : CallId} {P : DrainingCall → Prop}
    (hcall : ∀ call, calls id = some call → P call → P new)
    (h : ∃ call, calls id' = some call ∧ P call) :
    ∃ call, Function.update calls id (some new) id' = some call ∧ P call := by
  obtain ⟨call, hlookup, hP⟩ := h
  by_cases hid : id' = id
  · subst hid
    exact ⟨new, Function.update_self id' _ calls, hcall call hlookup hP⟩
  · exact ⟨call, (Function.update_of_ne hid _ _).trans hlookup, hP⟩

theorem exists_update_new {id' : CallId} {P : DrainingCall → Prop} (hnone : calls id = none)
    (h : ∃ call, calls id' = some call ∧ P call) :
    ∃ call, Function.update calls id (some new) id' = some call ∧ P call :=
  exists_update (fun _ hsome => absurd (hnone.symm.trans hsome) (Option.some_ne_none _).symm) h

theorem update_cases {id' : CallId} (h : Function.update calls id (some new) id' = some call) :
    id' = id ∧ call = new ∨ id' ≠ id ∧ calls id' = some call := by
  by_cases heq : id' = id
  · subst heq
    rw [Function.update_self, Option.some.injEq] at h
    exact .inl ⟨rfl, h.symm⟩
  · rw [Function.update_of_ne heq] at h
    exact .inr ⟨heq, h⟩

/-! ### One section at a time -/

variable {f : Fence}

theorem Sound.install (h : f.Sound) (hnone : f.calls id = none) (hfresh : call.next ∉ f.everActive)
    (hactive : context.activeOwnership = some call.next)
    (hcounts : context.mutationCounts = f.context.mutationCounts)
    (hwaiters : context.mutationDrainWaiters = f.context.mutationDrainWaiters)
    (hretired : ∀ o ∈ context.retiredOwnerships, o ∈ f.everActive)
    (hkept : ∀ o, f.context.activeOwnership = some o ∨ o ∈ f.context.retiredOwnerships →
      o ∈ context.retiredOwnerships)
    (hreturned : call.returned = none) (hnodup : call.undrained.Nodup)
    (hset : call.undrained.toFinset = call.ownershipsToDrain)
    (hbefore : call.before = f.everActive)
    (hdrains : ∀ o ∈ call.ownershipsToDrain, o ∈ f.everActive)
    (hrest : ∀ o ∈ f.everActive, o ∉ call.ownershipsToDrain → o ∉ f.leases) :
    (f.install id context call).Sound := by
  have hfollows : Follows f (f.install id context call) := follows_install hfresh hactive
  have hinstalled {o : Ownership} (ho : o ∈ f.everActive) : (f.install id context call).Past o := by
    refine ⟨Finset.mem_insert_of_mem ho, ?_⟩
    change context.activeOwnership ≠ some o
    rw [hactive, Ne, Option.some.injEq]
    rintro rfl
    exact hfresh ho
  refine ⟨?_, ?_, ?_, ?_, ?_, ?_, ?_, ?_, h.once, ?_, ?_, ?_⟩
  · intro o
    change context.mutationCounts o = _
    rw [hcounts]
    exact h.counted o
  · exact fun o ho => Finset.mem_insert_of_mem (h.leased o ho)
  · intro o ho
    change context.activeOwnership = some o at ho
    rw [hactive, Option.some.injEq] at ho
    exact ho ▸ Finset.mem_insert_self call.next f.everActive
  · exact fun o ho => hinstalled (hretired o ho)
  · rintro o ⟨hmem, hne⟩
    rcases Finset.mem_insert.mp hmem with rfl | hmem
    · exact absurd hactive hne
    by_cases hold : f.context.activeOwnership = some o
    · exact .inl (hkept o (.inl hold))
    · rcases h.accounted o ⟨hmem, hold⟩ with hretired | hnone
      · exact .inl (hkept o (.inr hretired))
      · exact .inr hnone
  · intro a ha
    change context.activeOwnership = some a at ha
    rw [hactive, Option.some.injEq] at ha
    exact .inr ⟨id, call, Function.update_self id _ f.calls, hreturned, ha⟩
  · intro id' other hlookup
    rcases update_cases hlookup with ⟨rfl, rfl⟩ | ⟨-, hold⟩
    · refine ⟨hnodup, ?_, ?_, ?_, ?_, ?_⟩
      · intro o ho
        refine ⟨hinstalled (hdrains o ho), fun hnot => absurd ?_ hnot⟩
        rwa [← hset, List.mem_toFinset] at ho
      · intro _ o ho
        rw [hbefore] at ho
        exact ⟨hinstalled ho, hrest o ho⟩
      · exact fun _ => Finset.mem_insert_self _ f.everActive
      · intro _ _
        rw [hbefore]
        rfl
      · exact fun hsome => absurd hreturned hsome
    · exact (h.call id' other hold).follows hfollows
  · intro id' o
    change f.resumed.count (id', o) + (context.mutationDrainWaiters o).count id' = _
    rw [hwaiters]
    exact h.balanced id' o
  · intro o ho
    change context.mutationDrainWaiters o ≠ [] at ho
    rw [hwaiters] at ho
    exact h.waiting o ho
  · intro id' o hwaits
    change id' ∈ context.mutationDrainWaiters o at hwaits
    rw [hwaiters] at hwaits
    exact exists_update_new hnone (h.suspended id' o hwaits)
  · exact fun id' o hregistered => exists_update_new hnone (h.registered id' o hregistered)

theorem Sound.putNew (h : f.Sound) (hnone : f.calls id = none)
    (hcall : f.CallSound call) :
    ({ f with calls := Function.update f.calls id (some call) } : Fence).Sound := by
  refine ⟨h.counted, h.leased, h.active, h.retired, h.accounted, ?_, ?_, h.balanced, h.once,
    h.waiting, ?_, ?_⟩
  · exact fun a ha => (h.current a ha).imp_right fun ⟨id', hopen⟩ =>
      ⟨id', exists_update_new hnone hopen⟩
  · intro id' other hlookup
    rcases update_cases hlookup with ⟨-, rfl⟩ | ⟨-, hold⟩
    · exact hcall.follows (.same rfl rfl rfl)
    · exact (h.call id' other hold).follows (.same rfl rfl rfl)
  · exact fun id' o hwaits => exists_update_new hnone (h.suspended id' o hwaits)
  · exact fun id' o hregistered => exists_update_new hnone (h.registered id' o hregistered)

theorem Sound.activate (h : f.Sound) {order : List Ownership}
    (hfresh : next ∉ f.everActive) : (f.activate id next order).Sound := by
  unfold Fence.activate
  split_ifs with hcall
  swap
  · exact h
  obtain ⟨hnone, hnodup, hset⟩ := hcall
  have hnext : f.context.activeOwnership ≠ some next := fun hactive =>
    hfresh (h.active next hactive)
  have hdrains : ∀ o ∈ f.context.ownershipsToDrain next, o ∈ f.everActive := by
    intro o ho
    rcases (mem_ownershipsToDrain hnext).mp ho with hactive | hretired
    · exact h.active o hactive
    · exact (h.retired o hretired).1
  refine h.install hnone hfresh rfl rfl rfl ?_ ?_ rfl hnodup hset rfl hdrains ?_
  · intro o ho
    rcases Finset.mem_union.mp ho with hretired | hnew
    · exact (h.retired o hretired).1
    · exact hdrains o hnew
  · exact fun o ho => Finset.mem_union_right _ ((mem_ownershipsToDrain hnext).mpr ho)
  · intro o ho hnot
    rw [mem_ownershipsToDrain hnext, not_or] at hnot
    exact (h.accounted o ⟨ho, hnot.1⟩).resolve_left hnot.2

theorem Sound.advance (h : f.Sound) {previous : Ownership}
    (hfresh : next ∉ f.everActive)
    (hreturned : ∀ id call, f.calls id = some call → call.returned = none →
      call.next ≠ previous) : (f.advance id previous next).Sound := by
  unfold Fence.advance
  split_ifs with hnone hrefused
  · -- a call that installs nothing returns at once, and does not report success
    have hinactive : f.context.isActive next = false := by
      unfold SessionContinuityContext.isActive
      exact decide_eq_false fun hactive => hfresh (h.active next hactive)
    refine h.putNew hnone ⟨List.nodup_nil, ?_, ?_, ?_, ?_, fun _ => rfl⟩
    · exact fun o ho => absurd ho (Finset.notMem_empty o)
    all_goals
      intro hsuccess
      simp [hinactive] at hsuccess
  · rw [not_or, not_not] at hrefused
    have hactive := hrefused.2
    refine h.install hnone hfresh rfl rfl rfl ?_ ?_ rfl (List.nodup_singleton previous) rfl rfl
      ?_ ?_
    · intro o ho
      rcases Finset.mem_insert.mp ho with rfl | hretired
      · exact h.active o hactive
      · exact (h.retired o hretired).1
    · rintro o (hold | hretired)
      · rw [hactive, Option.some.injEq] at hold
        exact hold ▸ Finset.mem_insert_self previous _
      · exact Finset.mem_insert_of_mem hretired
    · intro o ho
      rw [Finset.mem_singleton.mp ho]
      exact h.active previous hactive
    · intro o ho hnot
      rw [Finset.mem_singleton] at hnot
      have hpast : f.Past o := by
        refine ⟨ho, fun heq => hnot ?_⟩
        rw [hactive, Option.some.injEq] at heq
        exact heq.symm
      rcases h.current previous hactive with hnone | ⟨id', call, hlookup, hopen, hnext⟩
      · exact hnone o hpast
      · exact absurd hnext (hreturned id' call hlookup hopen)
  · exact h

theorem Sound.not_leased (h : f.Sound) :
    f.context.mutationCounts o = none ↔ o ∉ f.leases := by
  rw [h.counted o, ← List.count_eq_zero]
  split_ifs with hzero
  · exact iff_of_true rfl hzero
  · simp only [hzero]

theorem CallSound.rest (h : f.CallSound call) {rest : List Ownership} {suspended : Bool}
    (hundrained : call.undrained = o :: rest) (hclear : o ∉ f.leases) :
    f.CallSound { call with suspended := suspended, undrained := rest } := by
  have hnodup := h.nodup
  rw [hundrained, List.nodup_cons] at hnodup
  refine ⟨hnodup.2, ?_, h.before, h.installed, h.newest, ?_⟩
  · intro p hp
    obtain ⟨hpast, hdrained⟩ := h.drains p hp
    refine ⟨hpast, fun hnot => ?_⟩
    by_cases heq : p = o
    · exact heq ▸ hclear
    · apply hdrained
      rw [hundrained, List.mem_cons, not_or]
      exact ⟨heq, hnot⟩
  · intro hreturned
    have hnil := h.settled hreturned
    rw [hundrained] at hnil
    cases hnil

theorem Sound.drainOne (h : f.Sound)
    {rest : List Ownership} (hlookup : f.calls id = some call) (hfree : call.suspended = false)
    (hundrained : call.undrained = o :: rest) (hclear : o ∉ f.leases) :
    ({ f with calls := Function.update f.calls id (some { call with undrained := rest }) } :
      Fence).Sound := by
  have hrest : f.CallSound { call with undrained := rest } :=
    (h.call id call hlookup).rest hundrained hclear
  have hawake {other : DrainingCall} (hother : f.calls id = some other) :
      other = call ∧ ¬other.suspended = true := by
    rw [hlookup, Option.some.injEq] at hother
    rw [← hother, hfree]
    exact ⟨rfl, Bool.false_ne_true⟩
  refine ⟨h.counted, h.leased, h.active, h.retired, h.accounted, ?_, ?_, h.balanced, h.once,
    h.waiting, ?_, ?_⟩
  · exact fun a ha => (h.current a ha).imp_right fun ⟨id', hcall⟩ =>
      ⟨id', exists_update (fun _ hother hopen => (hawake hother).1 ▸ hopen) hcall⟩
  · intro id' other hother
    rcases update_cases hother with ⟨-, rfl⟩ | ⟨-, hold⟩
    · exact hrest.follows (.same rfl rfl rfl)
    · exact (h.call id' other hold).follows (.same rfl rfl rfl)
  · exact fun id' p hwaits => exists_update
      (fun _ hother hp => absurd hp.1 (hawake hother).2) (h.suspended id' p hwaits)
  · refine fun id' p hregistered => exists_update
      (fun _ hother hp hmem => absurd (hp ?_).1 (hawake hother).2) (h.registered id' p hregistered)
    rw [(hawake hother).1, hundrained]
    exact List.mem_cons_of_mem o hmem

theorem Sound.suspend (h : f.Sound)
    {rest : List Ownership} (hlookup : f.calls id = some call) (hfree : call.suspended = false)
    (hundrained : call.undrained = o :: rest) (hleased : o ∈ f.leases) :
    ({ f with
      context := f.context.awaitDrain o id
      calls := Function.update f.calls id (some { call with suspended := true })
      registered := f.registered ++ [(id, o)] } : Fence).Sound := by
  have hcall := h.call id call hlookup
  have hhead : call.undrained.head? = some o := by rw [hundrained, List.head?_cons]
  have hsame {other : DrainingCall} (hother : f.calls id = some other) : other = call := by
    rwa [hlookup, Option.some.injEq, eq_comm] at hother
  refine ⟨h.counted, h.leased, h.active, h.retired, h.accounted, ?_, ?_, ?_, ?_, ?_, ?_, ?_⟩
  · exact fun a ha => (h.current a ha).imp_right fun ⟨id', hopen⟩ =>
      ⟨id', exists_update (fun _ hother hopen => hsame hother ▸ hopen) hopen⟩
  · intro id' other hother
    rcases update_cases hother with ⟨-, rfl⟩ | ⟨-, hold⟩
    · exact ⟨hcall.nodup, hcall.drains, hcall.before, hcall.installed, hcall.newest,
        hcall.settled⟩
    · exact (h.call id' other hold).follows (.same rfl rfl rfl)
  · intro id' p
    have hbalanced := h.balanced id' p
    change f.resumed.count (id', p) +
      (Function.update f.context.mutationDrainWaiters o
        (f.context.mutationDrainWaiters o ++ [id]) p).count id' =
      (f.registered ++ [(id, o)]).count (id', p)
    rw [List.count_append, Function.update_apply]
    split_ifs with hp
    · subst hp
      rw [List.count_append, ← hbalanced, Nat.add_assoc]
      congr 2
      simp only [List.count_singleton, beq_iff_eq, Prod.mk.injEq, and_true]
    · rw [← hbalanced, List.count_singleton, if_neg, Nat.add_zero]
      simp only [beq_iff_eq, Prod.mk.injEq]
      exact fun heq => hp heq.2.symm
  · refine List.nodup_append.mpr ⟨h.once, List.nodup_singleton _, ?_⟩
    intro entry hentry entry' hentry' heq
    rw [List.mem_singleton] at hentry'
    rw [heq, hentry'] at hentry
    obtain ⟨other, hother, hsuspended⟩ := h.registered id o hentry
    rw [hsame hother, hundrained, hfree] at hsuspended
    exact Bool.false_ne_true (hsuspended List.mem_cons_self).1
  · intro p hp
    by_cases heq : p = o
    · exact heq ▸ hleased
    · exact h.waiting p (by
        change Function.update f.context.mutationDrainWaiters o _ p ≠ [] at hp
        rwa [Function.update_of_ne heq] at hp)
  · intro id' p hwaits
    change id' ∈ Function.update f.context.mutationDrainWaiters o
      (f.context.mutationDrainWaiters o ++ [id]) p at hwaits
    rw [Function.update_apply] at hwaits
    have hkeeps (hold : id' ∈ f.context.mutationDrainWaiters p) :
        ∃ other, Function.update f.calls id (some { call with suspended := true }) id' =
          some other ∧ other.suspended = true ∧ other.undrained.head? = some p :=
      exists_update (fun _ hother hp => ⟨rfl, hsame hother ▸ hp.2⟩) (h.suspended id' p hold)
    split_ifs at hwaits with hp
    · subst hp
      rcases List.mem_append.mp hwaits with hwaits | hnew
      · exact hkeeps hwaits
      · rw [List.mem_singleton.mp hnew]
        exact ⟨_, Function.update_self id _ f.calls, rfl, hhead⟩
    · exact hkeeps hwaits
  · intro id' p hregistered
    rcases List.mem_append.mp hregistered with hold | hnew
    · exact exists_update (fun _ hother hp hmem => ⟨rfl, hsame hother ▸ (hp
        (hsame hother ▸ hmem)).2⟩) (h.registered id' p hold)
    · rw [List.mem_singleton, Prod.mk.injEq] at hnew
      rw [hnew.1, hnew.2]
      exact ⟨_, Function.update_self id _ f.calls, fun _ => ⟨rfl, hhead⟩⟩

theorem Sound.finish (h : f.Sound) (id : CallId) : (f.finish id).Sound := by
  unfold Fence.finish
  rcases hlookup : f.calls id with - | call
  · exact h
  simp only
  split_ifs with hdone
  swap
  · exact h
  obtain ⟨hundrained, hopen⟩ := hdone
  have hcall := h.call id call hlookup
  have hsuccess : call.returned ≠ some false := by
    rw [hopen]
    exact Option.some_ne_none false |>.symm
  have hsame {other : DrainingCall} (hother : f.calls id = some other) : other = call := by
    rwa [hlookup, Option.some.injEq, eq_comm] at hother
  have hempty (o : Ownership) : o ∉ call.undrained := by
    rw [hundrained]
    exact List.not_mem_nil
  have hdrained : ∀ o ∈ call.before, o ∉ f.leases := by
    intro o ho
    by_cases hdrain : o ∈ call.ownershipsToDrain
    · exact (hcall.drains o hdrain).2 (hempty o)
    · exact (hcall.before hsuccess o ho).2 hdrain
  refine ⟨h.counted, h.leased, h.active, ?_, ?_, ?_, ?_, h.balanced, h.once, h.waiting, ?_, ?_⟩
  · exact fun o ho => h.retired o (Finset.mem_sdiff.mp ho).1
  · intro o hpast
    rcases h.accounted o hpast with hretired | hnone
    · by_cases hdrain : o ∈ call.ownershipsToDrain
      · exact .inr ((hcall.drains o hdrain).2 (hempty o))
      · exact .inl (Finset.mem_sdiff.mpr ⟨hretired, hdrain⟩)
    · exact .inr hnone
  · intro a ha
    rcases h.current a ha with hclear | ⟨id', other, hother, hopen', hnext⟩
    · exact .inl hclear
    · by_cases hid : id' = id
      · -- the call that installed the active ownership returns: all before it is drained
        rw [hid] at hother
        rw [hsame hother] at hnext
        refine .inl fun o hpast => hdrained o ?_
        have hmem := hpast.1
        change o ∈ f.everActive at hmem
        rw [hcall.newest hsuccess (hnext ▸ ha)] at hmem
        refine (Finset.mem_insert.mp hmem).resolve_left fun heq => hpast.2 ?_
        rw [heq, hnext]
        exact ha
      · exact .inr ⟨id', other, (Function.update_of_ne hid _ _).trans hother, hopen', hnext⟩
  · intro id' other hother
    rcases update_cases hother with ⟨-, rfl⟩ | ⟨-, hold⟩
    · exact ⟨hcall.nodup, hcall.drains, fun _ => hcall.before hsuccess,
        fun _ => hcall.installed hsuccess, fun _ => hcall.newest hsuccess, fun _ => hundrained⟩
    · exact (h.call id' other hold).follows (.same rfl rfl rfl)
  · refine fun id' p hwaits => exists_update (fun _ hother hp => ?_) (h.suspended id' p hwaits)
    rw [hsame hother, hundrained] at hp
    cases hp.2
  · exact fun id' p hregistered => exists_update
      (fun _ hother hp hmem => absurd hmem (hempty p)) (h.registered id' p hregistered)

theorem Sound.retire (h : f.Sound) (binding : Nat) :
    ({ f with context := f.context.retire binding } : Fence).Sound := by
  unfold SessionContinuityContext.retire
  rcases hactive : f.context.activeOwnership with - | active
  · exact h
  simp only
  split_ifs with hbinding
  swap
  · exact h
  have hpast {o : Ownership} (ho : o ∈ f.everActive) :
      Past { f with context := { f.context with
        retiredOwnerships := insert active f.context.retiredOwnerships
        activeOwnership := none } } o := ⟨ho, (Option.some_ne_none o).symm⟩
  refine ⟨h.counted, h.leased, ?_, ?_, ?_, ?_, ?_, h.balanced, h.once, h.waiting, h.suspended,
    h.registered⟩
  · exact fun o ho => absurd ho (Option.some_ne_none o).symm
  · intro o ho
    rcases Finset.mem_insert.mp ho with rfl | hretired
    · exact hpast (h.active o hactive)
    · exact hpast (h.retired o hretired).1
  · rintro o ⟨hmem, -⟩
    by_cases heq : o = active
    · subst heq
      exact .inl (Finset.mem_insert_self o f.context.retiredOwnerships)
    · have hold : f.Past o := by
        refine ⟨hmem, fun hsame => heq ?_⟩
        rw [hactive, Option.some.injEq] at hsame
        exact hsame.symm
      rcases h.accounted o hold with hretired | hnone
      · exact .inl (Finset.mem_insert_of_mem hretired)
      · exact .inr hnone
  · exact fun a ha => absurd ha (Option.some_ne_none a).symm
  · intro id call hlookup
    refine (h.call id call hlookup).follows ⟨fun o ho => hpast ho.1, fun _ _ hl => hl, ?_,
      subset_rfl⟩
    exact fun o _ ho => absurd ho (Option.some_ne_none o).symm

theorem Sound.acquireMutation (h : f.Sound) (ownership : Ownership) :
    (f.acquireMutation ownership).Sound := by
  unfold Fence.acquireMutation SessionContinuityContext.acquireMutation
  split_ifs with hactive
  swap
  · exact h
  have hpast {o : Ownership} (ho : f.Past o) : o ≠ ownership := by
    rintro rfl
    exact ho.2 hactive
  have hunleased {o : Ownership} (ho : f.Past o) (hnot : o ∉ f.leases) :
      o ∉ ownership :: f.leases := by
    rw [List.mem_cons, not_or]
    exact ⟨hpast ho, hnot⟩
  refine ⟨?_, ?_, h.active, h.retired, ?_, ?_, ?_, h.balanced, h.once, ?_, h.suspended,
    h.registered⟩
  · intro o
    change Function.update f.context.mutationCounts ownership _ o = _
    rw [List.count_cons, Function.update_apply]
    by_cases heq : o = ownership
    · subst heq
      rw [if_pos rfl, h.counted o]
      simp only [beq_self_eq_true, if_true]
      split_ifs with hzero hzero'
      · omega
      · rw [hzero]
        rfl
      · omega
      · rfl
    · have hother : ¬(ownership == o) = true := by
        rw [beq_iff_eq]
        exact fun hsame => heq hsame.symm
      rw [if_neg heq, h.counted o, if_neg hother, Nat.add_zero]
  · intro o ho
    rcases List.mem_cons.mp ho with rfl | hold
    · exact h.active o hactive
    · exact h.leased o hold
  · intro o ho
    rcases h.accounted o ho with hretired | hnone
    · exact .inl hretired
    · exact .inr (hunleased ho hnone)
  · intro a ha
    rcases h.current a ha with hclear | hcall
    · exact .inl fun o ho => hunleased ho (hclear o ho)
    · exact .inr hcall
  · intro id call hlookup
    refine (h.call id call hlookup).follows ⟨fun _ ho => ho, ?_, fun _ _ ho => ⟨ho, rfl⟩,
      subset_rfl⟩
    intro o ho hlease
    exact (List.mem_cons.mp hlease).resolve_left (hpast ho)
  · exact fun o ho => List.mem_cons_of_mem ownership (h.waiting o ho)

theorem Sound.counted_erase (h : f.Sound) {count : Option Nat}
    (hcount : (if f.leases.count lease - 1 = 0 then none
      else some (f.leases.count lease - 1)) = count) :
    Function.update f.context.mutationCounts lease count o =
    if (f.leases.erase lease).count o = 0 then none
    else some ((f.leases.erase lease).count o) := by
  by_cases heq : o = lease
  · rw [heq, Function.update_self, List.count_erase_self, hcount]
  · rw [Function.update_of_ne heq, List.count_erase_of_ne heq]
    exact h.counted o

theorem CallSound.erase (h : f.CallSound call) {f' : Fence} (hcontext : f'.context.activeOwnership =
    f.context.activeOwnership) (hever : f'.everActive = f.everActive)
    (hleases : f'.leases = f.leases.erase lease) : f'.CallSound call := by
  refine h.follows ⟨?_, ?_, ?_, hever ▸ subset_rfl⟩
  · intro o ho
    rwa [Past, hcontext, hever]
  · intro o _ hlease
    rw [hleases] at hlease
    exact List.mem_of_mem_erase hlease
  · exact fun o _ ho => ⟨hcontext ▸ ho, hever⟩

theorem Sound.releaseOne (h : f.Sound) (hcount : 1 < f.leases.count lease) :
    ({ f with
      context := { f.context with
        mutationCounts := Function.update f.context.mutationCounts lease
          (some (f.leases.count lease - 1)) }
      leases := f.leases.erase lease } : Fence).Sound := by
  refine ⟨?_, ?_, h.active, h.retired, ?_, ?_, ?_, h.balanced, h.once, ?_, h.suspended,
    h.registered⟩
  · exact fun o => h.counted_erase (if_neg (by omega))
  · exact fun o ho => h.leased o (List.mem_of_mem_erase ho)
  · exact fun o ho => (h.accounted o ho).imp_right fun hnot hlease =>
      hnot (List.mem_of_mem_erase hlease)
  · exact fun a ha => (h.current a ha).imp_left fun hclear o ho hlease =>
      hclear o ho (List.mem_of_mem_erase hlease)
  · exact fun id call hlookup => (h.call id call hlookup).erase rfl rfl rfl
  · intro o ho
    have hlease := h.waiting o ho
    by_cases heq : o = lease
    · subst heq
      rw [← List.count_pos_iff, List.count_erase_self]
      omega
    · exact (List.mem_erase_of_ne heq).mpr hlease

theorem CallSound.resume (h : f.CallSound call)
    (hhead : call.undrained.head? = some lease) (hclear : lease ∉ f.leases) :
    f.CallSound call.resume :=
  h.rest (List.eq_cons_of_mem_head? hhead) hclear

theorem Sound.releaseLast (h : f.Sound) (hcount : f.leases.count lease = 1) :
    ({ f with
      context := { f.context with
        mutationCounts := Function.update f.context.mutationCounts lease none
        mutationDrainWaiters := Function.update f.context.mutationDrainWaiters lease [] }
      calls := fun id =>
        if id ∈ f.context.mutationDrainWaiters lease then (f.calls id).map DrainingCall.resume
        else f.calls id
      leases := f.leases.erase lease
      resumed := f.resumed ++ (f.context.mutationDrainWaiters lease).map fun id => (id, lease) } :
      Fence).Sound := by
  have hclear : lease ∉ f.leases.erase lease := by
    rw [← List.count_eq_zero, List.count_erase_self]
    omega
  -- the call behind an identity is resumed exactly when it waits for this lease
  have hlookup {id : CallId} {call : DrainingCall} (hcall : f.calls id = some call) :
      (if id ∈ f.context.mutationDrainWaiters lease then (f.calls id).map DrainingCall.resume
        else f.calls id) =
      some (if id ∈ f.context.mutationDrainWaiters lease then call.resume else call) := by
    rw [hcall]
    split_ifs <;> rfl
  have hhead {id : CallId} {call : DrainingCall} (hcall : f.calls id = some call)
      (hwaits : id ∈ f.context.mutationDrainWaiters lease) :
      call.undrained.head? = some lease := by
    obtain ⟨other, hother, -, hfirst⟩ := h.suspended id lease hwaits
    rw [hcall, Option.some.injEq] at hother
    exact hother ▸ hfirst
  refine ⟨?_, ?_, h.active, h.retired, ?_, ?_, ?_, ?_, h.once, ?_, ?_, ?_⟩
  · exact fun o => h.counted_erase (if_pos (by omega))
  · exact fun o ho => h.leased o (List.mem_of_mem_erase ho)
  · exact fun o ho => (h.accounted o ho).imp_right fun hnot hlease =>
      hnot (List.mem_of_mem_erase hlease)
  · intro a ha
    rcases h.current a ha with hnone | ⟨id, call, hcall, hopen, hnext⟩
    · exact .inl fun o ho hlease => hnone o ho (List.mem_of_mem_erase hlease)
    · refine .inr ⟨id, _, hlookup hcall, ?_⟩
      split_ifs
      · exact ⟨hopen, hnext⟩
      · exact ⟨hopen, hnext⟩
  · intro id call' hcall'
    rcases hcall : f.calls id with - | call
    · change (if id ∈ _ then (f.calls id).map DrainingCall.resume else f.calls id) = _ at hcall'
      rw [hcall, Option.map_none, ite_self] at hcall'
      cases hcall'
    · have heq := (hlookup hcall).symm.trans hcall'
      rw [Option.some.injEq] at heq
      rw [← heq]
      split_ifs with hwaits
      · refine CallSound.resume ?_ (hhead hcall hwaits) hclear
        exact (h.call id call hcall).erase rfl rfl rfl
      · exact (h.call id call hcall).erase rfl rfl rfl
  · intro id o
    have hbalanced := h.balanced id o
    change (f.resumed ++ (f.context.mutationDrainWaiters lease).map fun id => (id, lease)).count
      (id, o) + (Function.update f.context.mutationDrainWaiters lease [] o).count id = _
    rw [List.count_append, Function.update_apply]
    split_ifs with ho
    · subst ho
      have hinjective : Function.Injective fun id : CallId => (id, o) := fun _ _ heq =>
        (Prod.mk.inj heq).1
      rw [List.count_nil, Nat.add_zero, List.count_map_of_injective _ _ hinjective]
      exact hbalanced
    · have hnone : ((f.context.mutationDrainWaiters lease).map fun id => (id, lease)).count
          (id, o) = 0 := by
        rw [List.count_eq_zero, List.mem_map]
        rintro ⟨_, _, heq⟩
        exact ho (Prod.mk.inj heq).2.symm
      rw [hnone, Nat.add_zero]
      exact hbalanced
  · intro o ho
    change Function.update f.context.mutationDrainWaiters lease [] o ≠ [] at ho
    by_cases heq : o = lease
    · rw [heq, Function.update_self] at ho
      exact absurd rfl ho
    · rw [Function.update_of_ne heq] at ho
      exact (List.mem_erase_of_ne heq).mpr (h.waiting o ho)
  · intro id o hwaits
    change id ∈ Function.update f.context.mutationDrainWaiters lease [] o at hwaits
    by_cases heq : o = lease
    · rw [heq, Function.update_self] at hwaits
      exact absurd hwaits List.not_mem_nil
    rw [Function.update_of_ne heq] at hwaits
    obtain ⟨call, hcall, hsuspended, hfirst⟩ := h.suspended id o hwaits
    have hother : id ∉ f.context.mutationDrainWaiters lease := by
      intro hlease
      rw [hhead hcall hlease, Option.some.injEq] at hfirst
      exact heq hfirst.symm
    refine ⟨call, ?_, hsuspended, hfirst⟩
    exact (hlookup hcall).trans (congrArg some (if_neg hother))
  · intro id o hregistered
    obtain ⟨call, hcall, hsuspended⟩ := h.registered id o hregistered
    refine ⟨_, hlookup hcall, ?_⟩
    split_ifs with hwaits
    · intro hmem
      -- the head that the call waited for is not drained twice
      have hfirst := (hsuspended (List.mem_of_mem_tail hmem)).2
      have hnodup := (h.call id call hcall).nodup
      rw [List.eq_cons_of_mem_head? hfirst] at hnodup
      exact absurd hmem (List.nodup_cons.mp hnodup).1
    · exact hsuspended

theorem Sound.releaseMutation (h : f.Sound) (hlease : lease ∈ f.leases) :
    (f.releaseMutation lease).Sound := by
  have hpos : 0 < f.leases.count lease := List.count_pos_iff.mpr hlease
  have hcounted := h.counted lease
  rw [if_neg (by omega)] at hcounted
  unfold Fence.releaseMutation SessionContinuityContext.releaseMutation
  rw [hcounted]
  simp only
  split_ifs with hmore
  · simp only [List.not_mem_nil, if_false, List.map_nil, List.append_nil]
    exact h.releaseOne hmore
  · exact h.releaseLast (by omega)

theorem Sound.waitForMutationDrain (h : f.Sound) (id : CallId) :
    (f.waitForMutationDrain id).Sound := by
  unfold Fence.waitForMutationDrain
  rcases hlookup : f.calls id with - | call
  · exact h
  rcases hfree : call.suspended with - | -
  swap
  · simp only [hfree]
    exact h
  rcases hundrained : call.undrained with - | ⟨o, rest⟩
  · simp only [hfree, hundrained]
    exact h
  simp only [hfree, hundrained]
  split_ifs with hnone
  · exact hfree ▸ h.drainOne hlookup hfree hundrained (h.not_leased.mp hnone)
  · exact hundrained ▸ h.suspend hlookup hfree hundrained
      (not_not.mp fun hnot => hnone (h.not_leased.mpr hnot))

theorem Sound.step (h : f.Sound) {action : Section} (hpromised : f.Promised action) :
    (f.step action).Sound := by
  cases action with
  | activate call next order => exact h.activate hpromised
  | advance call binding fromIncarnation toIncarnation =>
    exact h.advance hpromised.1 hpromised.2
  | waitForMutationDrain id => exact h.waitForMutationDrain id
  | finish id => exact h.finish id
  | retire binding => exact h.retire binding
  | acquireMutation ownership => exact h.acquireMutation ownership
  | releaseMutation lease => exact h.releaseMutation hpromised

/-! ### Runs -/

def Gone (f : Fence) (ownership : Ownership) : Prop := f.Past ownership ∧ ownership ∉ f.leases

theorem follows_retire (binding : Nat) :
    Follows f { f with context := f.context.retire binding } := by
  unfold SessionContinuityContext.retire
  rcases hlookup : f.context.activeOwnership with - | active
  · exact .same rfl rfl rfl
  simp only
  split_ifs with hbinding
  · exact ⟨fun o ho => ⟨ho.1, (Option.some_ne_none o).symm⟩, fun _ _ hl => hl,
      fun o _ ho => absurd ho (Option.some_ne_none o).symm, subset_rfl⟩
  · exact .same rfl rfl rfl

theorem follows_step {action : Section} (hpromised : f.Promised action) :
    Follows f (f.step action) := by
  have hrefl : Follows f f := .same rfl rfl rfl
  cases action with
  | activate call next order =>
    change Follows f (f.activate call next order)
    unfold Fence.activate
    split_ifs with hcall
    · exact follows_install hpromised rfl
    · exact hrefl
  | advance call binding fromIncarnation toIncarnation =>
    change Follows f (f.advance call _ _)
    unfold Fence.advance
    split_ifs with hcall hrefused
    · exact .same rfl rfl rfl
    · exact follows_install hpromised.1 rfl
    · exact hrefl
  | waitForMutationDrain id =>
    change Follows f (f.waitForMutationDrain id)
    unfold Fence.waitForMutationDrain
    split
    · split
      · split_ifs
        · exact .same rfl rfl rfl
        · exact .same rfl rfl rfl
      · exact hrefl
    · exact hrefl
  | finish id =>
    change Follows f (f.finish id)
    unfold Fence.finish
    split
    · split_ifs
      · exact .same rfl rfl rfl
      · exact hrefl
    · exact hrefl
  | retire binding => exact follows_retire binding
  | acquireMutation ownership =>
    change Follows f (f.acquireMutation ownership)
    unfold Fence.acquireMutation SessionContinuityContext.acquireMutation
    split_ifs with hactive
    · refine ⟨fun _ ho => ho, ?_, fun _ _ ho => ⟨ho, rfl⟩, subset_rfl⟩
      intro o ho hlease
      refine (List.mem_cons.mp hlease).resolve_left ?_
      rintro rfl
      exact ho.2 hactive
    · exact hrefl
  | releaseMutation lease =>
    change Follows f (f.releaseMutation lease)
    have hactive := f.context.releaseMutation_activeOwnership lease
    refine ⟨?_, fun _ _ hlease => List.mem_of_mem_erase hlease, ?_, subset_rfl⟩
    · rintro o ⟨hmem, hne⟩
      refine ⟨hmem, ?_⟩
      change (f.context.releaseMutation lease).1.activeOwnership ≠ some o
      rwa [hactive]
    · intro o _ ho
      change (f.context.releaseMutation lease).1.activeOwnership = some o at ho
      exact ⟨hactive ▸ ho, rfl⟩

theorem sound_initial : ({} : Fence).Sound where
  counted := fun _ => rfl
  leased := fun _ ho => absurd ho List.not_mem_nil
  active := fun o ho => absurd ho (Option.some_ne_none o).symm
  retired := fun o ho => absurd ho (Finset.notMem_empty o)
  accounted := fun _ _ => .inr List.not_mem_nil
  current := fun a ha => absurd ha (Option.some_ne_none a).symm
  call := fun _ call hcall => absurd hcall (Option.some_ne_none call).symm
  balanced := fun _ _ => rfl
  once := List.nodup_nil
  waiting := fun _ ho => absurd rfl ho
  suspended := fun _ _ hwaits => absurd hwaits List.not_mem_nil
  registered := fun _ _ hregistered => absurd hregistered List.not_mem_nil

theorem granted_active (action : Section) (o : Ownership)
    (hgranted : f.leases.count o < (f.step action).leases.count o) :
    f.context.activeOwnership = some o := by
  have hnone (heq : (f.step action).leases = f.leases) : False := by
    rw [heq] at hgranted
    exact Nat.lt_irrefl _ hgranted
  cases action with
  | activate call next order =>
    refine (hnone ?_).elim
    change (f.activate call next order).leases = f.leases
    unfold Fence.activate
    split_ifs <;> rfl
  | advance call binding fromIncarnation toIncarnation =>
    refine (hnone ?_).elim
    change (f.advance call _ _).leases = f.leases
    unfold Fence.advance
    split_ifs <;> rfl
  | waitForMutationDrain id =>
    refine (hnone ?_).elim
    change (f.waitForMutationDrain id).leases = f.leases
    unfold Fence.waitForMutationDrain
    split
    · split
      · split_ifs <;> rfl
      · rfl
    · rfl
  | finish id =>
    refine (hnone ?_).elim
    change (f.finish id).leases = f.leases
    unfold Fence.finish
    split
    · split_ifs <;> rfl
    · rfl
  | retire binding => exact (hnone rfl).elim
  | acquireMutation ownership =>
    change f.leases.count o < (f.acquireMutation ownership).leases.count o at hgranted
    unfold Fence.acquireMutation SessionContinuityContext.acquireMutation at hgranted
    split_ifs at hgranted with hactive
    · by_cases heq : ownership = o
      · exact heq ▸ hactive
      · change f.leases.count o < (ownership :: f.leases).count o at hgranted
        rw [List.count_cons_of_ne heq] at hgranted
        exact absurd hgranted (Nat.lt_irrefl _)
    · exact absurd hgranted (Nat.lt_irrefl _)
  | releaseMutation lease =>
    change f.leases.count o < (f.leases.erase lease).count o at hgranted
    rw [List.count_erase] at hgranted
    omega

end Fence

open Fence in
/-- Leases are counted, waiting calls are resumed once and never left behind, and what was active
before a call of `activate` or a successful advance has no lease once that call has returned, nor
ever after. -/
theorem ownership_fence_holds (sections : List Section)
    (hrun : EveryStep step Promised {} sections) :
    (∀ o, (run step {} sections).context.mutationCounts o =
      if (run step {} sections).leases.count o = 0 then none
      else some ((run step {} sections).leases.count o)) ∧
    (∀ id o, (run step {} sections).resumed.count (id, o) +
        ((run step {} sections).context.mutationDrainWaiters o).count id =
      (run step {} sections).registered.count (id, o) ∧
      (run step {} sections).registered.count (id, o) ≤ 1) ∧
    (∀ o, o ∉ (run step {} sections).leases →
      (run step {} sections).context.mutationDrainWaiters o = []) ∧
    EveryStep step (fun f action => ∀ o, f.leases.count o < (f.step action).leases.count o →
      f.context.activeOwnership = some o) {} sections ∧
    ∀ earlier later, sections = earlier ++ later → ∀ id call,
      (run step {} earlier).calls id = some call → call.returned = some true →
        ∀ o ∈ call.before, o ∉ (run step {} sections).leases := by
  have hstep : ∀ (f : Fence) action, f.Sound → f.Promised action → (f.step action).Sound :=
    fun f action h hpromised => h.step hpromised
  have hsound : (run step {} sections).Sound := hrun.invariant hstep sound_initial
  refine ⟨hsound.counted, ?_, ?_, ?_, ?_⟩
  · exact fun id o => ⟨hsound.balanced id o, List.nodup_iff_count_le_one.mp hsound.once _⟩
  · exact fun o ho => not_not.mp fun hwaits => ho (hsound.waiting o hwaits)
  · exact everyStep_of_forall (fun _ action o => granted_active action o) ({} : Fence) sections
  · rintro earlier later rfl id call hlookup hreturned o ho
    obtain ⟨hearlier, hlater⟩ := EveryStep.append.mp hrun
    have hthen : (run step {} earlier).Sound := hearlier.invariant hstep sound_initial
    have hcall := hthen.call id call hlookup
    have hsuccess : call.returned ≠ some false := by
      rw [hreturned]
      exact fun heq => Bool.noConfusion (Option.some.inj heq)
    have hgone : Gone (run step {} earlier) o := by
      obtain ⟨hpast, hnone⟩ := hcall.before hsuccess o ho
      refine ⟨hpast, ?_⟩
      by_cases hdrain : o ∈ call.ownershipsToDrain
      · refine (hcall.drains o hdrain).2 ?_
        rw [hcall.settled (by rw [hreturned]; exact Option.some_ne_none true)]
        exact List.not_mem_nil
      · exact hnone hdrain
    -- once gone, an ownership stays gone
    have hstays : ∀ (f : Fence) action, (Sound f ∧ Gone f o) → Promised f action →
        Sound (f.step action) ∧ Gone (f.step action) o := by
      rintro f action ⟨h, hpast, hnone⟩ hpromised
      have hfollows := follows_step hpromised
      exact ⟨h.step hpromised, hfollows.past o hpast,
        fun hlease => hnone (hfollows.leases o hpast hlease)⟩
    rw [run_append]
    exact (hlater.invariant hstays ⟨hthen, hgone⟩).2.2

/-- A controller replaced while it holds a lease, and an advance of its successor. -/
def handover : List Section :=
  [.activate 0 ⟨0, 0⟩ [], .finish 0, .acquireMutation ⟨0, 0⟩, .activate 1 ⟨1, 0⟩ [⟨0, 0⟩],
    .waitForMutationDrain 1, .releaseMutation ⟨0, 0⟩, .finish 1, .acquireMutation ⟨1, 0⟩,
    .advance 2 1 0 1, .waitForMutationDrain 2, .releaseMutation ⟨1, 0⟩, .finish 2]

theorem handover_fenced : (⟨0, 0⟩ : Ownership) ∉ (run Fence.step {} handover).leases ∧
    (⟨1, 0⟩ : Ownership) ∉ (run Fence.step {} handover).leases := by
  have hadvance : ∀ id call, (run Fence.step {} (handover.take 8)).calls id = some call →
      call.returned = none → call.next ≠ ⟨1, 0⟩ := by
    rintro (- | - | id) call hcall hopen
    · cases hcall
      cases hopen
    · cases hcall
      cases hopen
    · cases hcall
  have hfresh : (⟨1, 0⟩ : Ownership) ∉ (run Fence.step {} (handover.take 3)).everActive := by
    decide
  have hfresh' : (⟨1, 1⟩ : Ownership) ∉ (run Fence.step {} (handover.take 8)).everActive := by
    decide
  have hlease : (⟨0, 0⟩ : Ownership) ∈ (run Fence.step {} (handover.take 5)).leases := by decide
  have hlease' : (⟨1, 0⟩ : Ownership) ∈ (run Fence.step {} (handover.take 10)).leases := by decide
  have hrun : EveryStep Fence.step Fence.Promised {} handover :=
    ⟨Finset.notMem_empty _, trivial, trivial, hfresh, trivial, hlease, trivial, trivial,
      ⟨hfresh', hadvance⟩, trivial, hlease', trivial, trivial⟩
  have hfenced := (ownership_fence_holds handover hrun).2.2.2.2 handover [] rfl 2 _ rfl rfl
  exact ⟨hfenced ⟨0, 0⟩ (by decide), hfenced ⟨1, 0⟩ (by decide)⟩

/-- What the controllers promise one another, whatever the order of one controller's own
calls: an ownership is installed once and each lease is released once. -/
def Fence.InstalledOnce (f : Fence) : Section → Prop
  | .activate _ next _ => next ∉ f.everActive
  | .advance _ binding _ toIncarnation => (⟨binding, toIncarnation⟩ : Ownership) ∉ f.everActive
  | .releaseMutation lease => lease ∈ f.leases
  | _ => True

/-- An advance from an ownership whose own activation still waits for its predecessor. -/
def hastyAdvance : List Section :=
  [.activate 0 ⟨0, 0⟩ [], .finish 0, .acquireMutation ⟨0, 0⟩, .activate 1 ⟨1, 0⟩ [⟨0, 0⟩],
    .advance 2 1 0 1, .waitForMutationDrain 2, .finish 2]

/-- The advance drains only the ownership it leaves and returns before the predecessor's lease. -/
theorem hastyAdvance_unfenced : ¬ ∀ sections, EveryStep Fence.step Fence.InstalledOnce {} sections →
    ∀ earlier later, sections = earlier ++ later → ∀ id call,
      (run Fence.step {} earlier).calls id = some call → call.returned = some true →
        ∀ o ∈ call.before, o ∉ (run Fence.step {} sections).leases := by
  intro hall
  have hfresh : (⟨1, 0⟩ : Ownership) ∉ (run Fence.step {} (hastyAdvance.take 3)).everActive := by
    decide
  have hfresh' : (⟨1, 1⟩ : Ownership) ∉ (run Fence.step {} (hastyAdvance.take 4)).everActive := by
    decide
  have hrun : EveryStep Fence.step Fence.InstalledOnce {} hastyAdvance :=
    ⟨Finset.notMem_empty _, trivial, trivial, hfresh, hfresh', trivial, trivial, trivial⟩
  exact hall hastyAdvance hrun hastyAdvance [] rfl 2 _ rfl rfl ⟨0, 0⟩ (by decide) (by decide)

end Srui.Client.OwnershipFences
