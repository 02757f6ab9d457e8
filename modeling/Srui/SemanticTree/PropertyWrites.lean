import Srui.Basic.LastWrites
import Srui.SemanticTree.Replay

/-!
Runs of `SetProperty` operations: what they leave behind is decided by the last
write to each property, whatever comes before it.
-/

namespace Srui.SemanticTree.PropertyWrites

open Std Basic.FiniteMaps Basic.LastWrites SemanticTree.Values SemanticTree.Stores
open SemanticTree.Operations SemanticTree.OperationEffects SemanticTree.Transactions
open SemanticTree.Replay

abbrev Write := (NodeId × PropertyRef) × Value

def writeOp (write : Write) : Operation := .setProperty write.1.1 write.1.2 write.2

def Writable (s : SemanticStore) (write : Write) : Prop :=
  validateProperty s write.1.2 write.2 = .ok () ∧ ∃ n, s.nodes[write.1.1]? = some n

/-- `s'` is `s` with the given values in place of those it has, up to the
revision. -/
structure Overwritten (s : SemanticStore) (latest : NodeId × PropertyRef → Option Value)
    (s' : SemanticStore) : Prop where
  roots : s'.roots = s.roots
  usedIds : s'.usedIds = s.usedIds
  models : s'.models = s.models
  usedModelIds : s'.usedModelIds = s.usedModelIds
  limits : s'.limits = s.limits
  absent : ∀ x : NodeId, s.nodes[x]? = none → s'.nodes[x]? = none
  present : ∀ (x : NodeId) (n : Node), s.nodes[x]? = some n →
    ∃ properties : PropertyMap, s'.nodes[x]? = some { n with properties := properties } ∧
      ∀ property : PropertyRef,
        properties[property]? = (latest (x, property)).or n.properties[property]?

variable {s s' s'' : SemanticStore} {f g : NodeId × PropertyRef → Option Value}

theorem Overwritten.refl (s : SemanticStore) : Overwritten s (fun _ => none) s := by
  refine ⟨rfl, rfl, rfl, rfl, rfl, fun _ h => h, ?_⟩
  intro x n hn
  exact ⟨n.properties, hn, fun _ => rfl⟩

theorem Overwritten.trans (h : Overwritten s f s') (h' : Overwritten s' g s'') :
    Overwritten s (fun key => (g key).or (f key)) s'' where
  roots := h'.roots.trans h.roots
  usedIds := h'.usedIds.trans h.usedIds
  models := h'.models.trans h.models
  usedModelIds := h'.usedModelIds.trans h.usedModelIds
  limits := h'.limits.trans h.limits
  absent := fun x hx => h'.absent x (h.absent x hx)
  present := by
    intro x n hn
    obtain ⟨middle, hmiddle, hfirst⟩ := h.present x n hn
    obtain ⟨properties, hlast, hsecond⟩ := h'.present x _ hmiddle
    refine ⟨properties, hlast, ?_⟩
    intro property
    rw [hsecond, Option.or_assoc]
    exact congrArg _ (hfirst property)

theorem Overwritten.unique (h : Overwritten s f s') (h' : Overwritten s f s'')
    (hrevision : s'.revision = s''.revision) : s' = s'' := by
  have hnodes : s'.nodes = s''.nodes := by
    apply ExtTreeMap.ext_getElem?
    intro x
    cases hx : s.nodes[x]? with
    | none => rw [h.absent x hx, h'.absent x hx]
    | some n =>
      obtain ⟨properties, hn, hfirst⟩ := h.present x n hx
      obtain ⟨properties', hn', hsecond⟩ := h'.present x n hx
      have hsame : properties = properties' := by
        apply ExtTreeMap.ext_getElem?
        intro property
        rw [hfirst, hsecond]
      rw [hn, hn', hsame]
  cases s'
  cases s''
  simp only [SemanticStore.mk.injEq]
  exact ⟨hnodes, h.roots.trans h'.roots.symm, h.usedIds.trans h'.usedIds.symm,
    h.models.trans h'.models.symm, h.usedModelIds.trans h'.usedModelIds.symm,
    h.limits.trans h'.limits.symm, hrevision⟩

theorem Overwritten.writable_iff (h : Overwritten s f s') (write : Write) :
    Writable s' write ↔ Writable s write := by
  rw [Writable, Writable, validateProperty_congr h.models h.limits]
  refine and_congr Iff.rfl ?_
  cases hx : s.nodes[write.1.1]? with
  | none => rw [h.absent _ hx]
  | some n =>
    obtain ⟨properties, hn, -⟩ := h.present _ n hx
    rw [hn]
    simp

theorem writeOp_ok {write : Write} :
    (apply (writeOp write) s).2 = .ok () ↔ Writable s write := by
  rw [writeOp, apply, setProperty, Writable]
  cases hvalid : validateProperty s write.1.2 write.2 with
  | error e => simp [commitFst]
  | ok _ =>
    cases hnode : s.nodes[write.1.1]? with
    | none => simp [commitFst]
    | some n => simp [commitFst]

theorem writeOp_overwrites {write : Write} (h : Writable s write) :
    Overwritten s (fun key => if write.1 = key then some write.2 else none)
      (apply (writeOp write) s).1 := by
  obtain ⟨⟨id, property⟩, value⟩ := write
  obtain ⟨hvalid, node, hnode⟩ := h
  have happly : (apply (writeOp ((id, property), value)) s).1 =
      putNode s id { node with properties := node.properties.insert property value } := by
    simp only at hvalid hnode
    rw [writeOp, apply, setProperty]
    simp only [hvalid, hnode]
    rfl
  rw [happly]
  refine ⟨rfl, rfl, rfl, rfl, rfl, ?_, ?_⟩
  · intro x hx
    change (s.nodes.insert id _)[x]? = none
    rw [getElem?_put, if_neg, hx]
    rintro rfl
    simp only at hnode
    rw [hx] at hnode
    simp at hnode
  · intro x n hn
    change ∃ properties : PropertyMap, (s.nodes.insert id _)[x]? = some _ ∧ _
    rw [getElem?_put]
    by_cases hx : id = x
    · subst hx
      simp only at hnode
      rw [hnode, Option.some.injEq] at hn
      subst hn
      refine ⟨node.properties.insert property value, by rw [if_pos rfl], ?_⟩
      intro other
      rw [getElem?_put]
      by_cases hother : property = other
      · simp [hother]
      · simp [hother]
    · refine ⟨n.properties, by rw [if_neg hx]; exact hn, ?_⟩
      intro other
      simp [hx]

variable {writes : List Write}

theorem applies_writes_iff :
    (∃ s', Applies s (writes.map writeOp) s') ↔ ∀ write ∈ writes, Writable s write := by
  induction writes generalizing s with
  | nil => simp [Applies]
  | cons write rest ih =>
    simp only [List.map_cons, Applies, writeOp_ok, List.forall_mem_cons, exists_and_left]
    refine and_congr_right fun hwrite => ?_
    rw [ih]
    exact forall₂_congr fun other _ => (writeOp_overwrites hwrite).writable_iff other

theorem applies_writes_overwrite (h : Applies s (writes.map writeOp) s') :
    Overwritten s (lastWrite writes) s' := by
  induction writes generalizing s with
  | nil =>
    rw [List.map_nil, Applies] at h
    rw [h]
    exact Overwritten.refl s
  | cons write rest ih =>
    obtain ⟨hok, hrest⟩ := h
    exact (writeOp_overwrites (writeOp_ok.mp hok)).trans (ih hrest)

theorem coalesceable_writes {txn : Transaction} (h : isCoalesceable txn = true) :
    ∃ writes : List Write, writes ≠ [] ∧ txn.operations = writes.map writeOp ∧
      ∀ write ∈ writes, write.2.isScalar = true := by
  simp only [isCoalesceable, Bool.and_eq_true, Bool.not_eq_true', List.isEmpty_eq_false_iff] at h
  obtain ⟨hne, hall⟩ := h
  generalize txn.operations = ops at hne hall
  have hwrites : ∃ writes : List Write, ops = writes.map writeOp ∧
      ∀ write ∈ writes, write.2.isScalar = true := by
    clear hne
    induction ops with
    | nil => exact ⟨[], rfl, by simp⟩
    | cons op rest ih =>
      rw [List.all_cons, Bool.and_eq_true] at hall
      obtain ⟨writes, rfl, hscalar⟩ := ih hall.2
      cases op with
      | setProperty id property value =>
        refine ⟨((id, property), value) :: writes, rfl, ?_⟩
        intro write hwrite
        rcases List.mem_cons.mp hwrite with rfl | hwrite
        · exact hall.1
        · exact hscalar write hwrite
      | _ => simp at hall
  obtain ⟨writes, rfl, hscalar⟩ := hwrites
  exact ⟨writes, by rintro rfl; exact hne rfl, rfl, hscalar⟩

theorem isCoalesceable_writes (hne : writes ≠ [])
    (hscalar : ∀ write ∈ writes, write.2.isScalar = true) {txn : Transaction}
    (htxn : txn.operations = writes.map writeOp) : isCoalesceable txn = true := by
  rw [isCoalesceable, htxn, Bool.and_eq_true]
  refine ⟨by simpa using hne, ?_⟩
  rw [List.all_map, List.all_eq_true]
  exact hscalar

end Srui.SemanticTree.PropertyWrites
