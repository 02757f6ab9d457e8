import Srui.Srtop.Projections

/-!
The order of the published rows does not depend on the order they arrive in.

The comparison of rows is the lexicographic one of their order values and their identities. Each
part is an optional value, what is there before what is not.
-/

namespace Srui.Srtop.RowOrders

open Std SemanticTree.Values
open Srtop.Sources Srtop.Columns Srtop.Projections

def presentFirst {α : Type} [Ord α] (direction : SortDirection) : Option α → Option α → Ordering
  | some left, some right => directed direction (compare left right)
  | some _, none => .lt
  | none, some _ => .gt
  | none, none => .eq

def compareBy {α β : Type} (f : β → α) (cmp : α → α → Ordering) (left right : β) : Ordering :=
  cmp (f left) (f right)

instance {α β : Type} {f : β → α} {cmp : α → α → Ordering} [TransCmp cmp] :
    TransCmp (compareBy f cmp) where
  eq_swap {a b} := by
    change cmp (f a) (f b) = (cmp (f b) (f a)).swap
    exact OrientedCmp.eq_swap
  isLE_trans {a b c} hab hbc := by
    change (cmp (f a) (f c)).isLE
    exact TransCmp.isLE_trans hab hbc

theorem directed_trans {α : Type} [Ord α] [TransOrd α] (direction : SortDirection) :
    TransCmp fun a b : α => directed direction (compare a b) := by
  cases direction with
  | ascending => exact inferInstanceAs (TransCmp (compare : α → α → Ordering))
  | descending =>
    have hswap : (fun a b : α => (compare a b).swap) = fun a b => compare b a := by
      funext a b
      exact OrientedCmp.eq_swap.symm
    change TransCmp fun a b : α => (compare a b).swap
    rw [hswap]
    exact TransCmp.opposite

instance {α : Type} [Ord α] [TransOrd α] (direction : SortDirection) :
    TransCmp (presentFirst direction : Option α → Option α → Ordering) where
  eq_swap {a b} := by
    rcases a with - | a
    · rcases b with - | b
      · rfl
      · rfl
    · rcases b with - | b
      · rfl
      · exact (directed_trans direction).eq_swap
  isLE_trans {a b c} hab hbc := by
    rcases c with - | c
    · rcases a with - | a
      · rfl
      · rfl
    · rcases b with - | b
      · cases hbc
      · rcases a with - | a
        · cases hab
        · exact (directed_trans direction).isLE_trans hab hbc

variable {α : Type} [Ord α]

theorem presentFirst_eq [LawfulEqOrd α] {direction : SortDirection} {a b : Option α} :
    presentFirst direction a b = .eq ↔ a = b := by
  rcases a with - | a <;> rcases b with - | b
  · simp [presentFirst]
  · simp [presentFirst]
  · simp [presentFirst]
  · cases direction with
    | ascending | descending => simp [presentFirst, directed]

/-! ### Identities -/

structure SameIdentity (a b : ProcessKey) : Prop where
  source : a.source = b.source
  host : a.host.value? = b.host.value?
  boot : a.boot.value? = b.boot.value?
  pidNamespace : a.pidNamespace.value? = b.pidNamespace.value?
  pid : a.pid.value? = b.pid.value?
  creation : a.creation = b.creation

def keyOrder : ProcessKey → ProcessKey → Ordering :=
  compareLex (compareBy ProcessKey.source compare)
    (compareLex (compareBy (·.host.value?) (presentFirst .ascending))
      (compareLex (compareBy (·.boot.value?) (presentFirst .ascending))
        (compareLex (compareBy (·.pidNamespace.value?) (presentFirst .ascending))
          (compareLex (compareBy (·.pid.value?) (presentFirst .ascending))
            (compareLex (compareBy (·.creation.ticks?) (presentFirst .ascending))
              (compareBy (·.creation.token?) (presentFirst .ascending)))))))

instance : TransCmp keyOrder := inferInstanceAs (TransCmp (compareLex _ _))

theorem observedOrder_eq (a b : Observed α) :
    observedOrder compare a b = presentFirst .ascending a.value? b.value? := by
  rcases a with a | a <;> rcases b with b | b <;> rfl

theorem creationOrder_eq (a b : CreationToken) : creationOrder a b =
    (presentFirst .ascending a.ticks? b.ticks?).then
      (presentFirst .ascending a.token? b.token?) := by
  rcases a with a | a <;> rcases b with b | b
  · exact Ordering.then_eq.symm
  · rfl
  · rfl
  · rfl

theorem processKeyOrder_eq (a b : ProcessKey) : processKeyOrder a b = keyOrder a b := by
  simp only [processKeyOrder, observedOrder_eq, creationOrder_eq]
  rfl

theorem keyOrder_eq_iff {a b : ProcessKey} : keyOrder a b = .eq ↔ SameIdentity a b := by
  simp only [keyOrder, compareLex_eq_eq, compareBy, presentFirst_eq,
    LawfulEqCmp.compare_eq_iff_eq]
  constructor
  · rintro ⟨hsource, hhost, hboot, hnamespace, hpid, hticks, htoken⟩
    exact ⟨hsource, hhost, hboot, hnamespace, hpid, CreationToken.eq_of_parts hticks htoken⟩
  · rintro ⟨hsource, hhost, hboot, hnamespace, hpid, hcreation⟩
    exact ⟨hsource, hhost, hboot, hnamespace, hpid, by rw [hcreation], by rw [hcreation]⟩

/-! ### Rows -/

def number? : SortValue → Option Nat
  | .number n => some n
  | .text _ => none
  | .missing => none

def text? : SortValue → Option String
  | .number _ => none
  | .text s => some s
  | .missing => none

def rowOrder (order : SortOrder) : Row → Row → Ordering :=
  compareLex (compareBy (fun row => number? (row.sort.get order.field))
      (presentFirst order.direction))
    (compareLex (compareBy (fun row => text? (row.sort.get order.field))
        (presentFirst order.direction))
      (compareBy Row.key keyOrder))

instance (order : SortOrder) : TransCmp (rowOrder order) :=
  inferInstanceAs (TransCmp (compareLex _ _))

def Projected (row : Row) : Prop := ∃ record, row.sort = .ofRecord row.key record

theorem Projected.shape {row : Row} (h : Projected row) (field : ProcessField) :
    if field = .name then ∃ s, row.sort.get field = .text s
    else ∃ n, row.sort.get field = .number n ∨ row.sort.get field = .missing := by
  obtain ⟨record, hsort⟩ := h
  have hobserved : ∀ value : Observed Nat, ∃ n, SortValue.ofObserved value = .number n ∨
      SortValue.ofObserved value = .missing := by
    rintro (n | reason)
    · exact ⟨n, .inl rfl⟩
    · exact ⟨0, .inr rfl⟩
  rw [hsort]
  cases field with
  | pid => exact hobserved _
  | name => exact ⟨_, rfl⟩
  | resident => exact hobserved _
  | cpu =>
    simp only [reduceCtorEq, if_false, SortValues.get, SortValues.ofRecord, valueOf]
    rcases record.cpu with interval | - | -
    · rcases htenths : cpuTenthsOfPercent interval with - | tenths
      · exact ⟨0, .inr (by simp only [htenths])⟩
      · exact ⟨tenths, .inl (by simp only [htenths])⟩
    · exact ⟨0, .inr rfl⟩
    · exact ⟨0, .inr rfl⟩

variable {left right : Row}

theorem compareRows_eq (hleft : Projected left) (hright : Projected right) (order : SortOrder) :
    compareRows order left right = rowOrder order left right := by
  have hshape := hleft.shape order.field
  have hshape' := hright.shape order.field
  simp only [compareRows, rowOrder, compareLex, compareBy, processKeyOrder_eq]
  by_cases hname : order.field = .name
  · rw [if_pos hname] at hshape hshape'
    obtain ⟨s, hs⟩ := hshape
    obtain ⟨s', hs'⟩ := hshape'
    rw [hs, hs']
    rfl
  · rw [if_neg hname] at hshape hshape'
    obtain ⟨n, hn | hn⟩ := hshape
    all_goals
      obtain ⟨n', hn' | hn'⟩ := hshape'
      · rw [hn, hn']
        rfl
      · rw [hn, hn']
        rfl

theorem sortRows_eq {rows : List Row} (h : ∀ row ∈ rows, Projected row) (order : SortOrder) :
    sortRows order rows = rows.mergeSort fun left right => (rowOrder order left right).isLE := by
  have hmap := List.map_mergeSort (f := id) (l := rows)
    (r := fun left right => (compareRows order left right).isLE)
    (s := fun left right => (rowOrder order left right).isLE)
    fun a ha b hb => by simp only [compareRows_eq (h a ha) (h b hb), id]
  rwa [List.map_id, List.map_id] at hmap

theorem sortRows_pairwise {rows : List Row} (h : ∀ row ∈ rows, Projected row) (order : SortOrder) :
    (sortRows order rows).Pairwise fun left right => (rowOrder order left right).isLE := by
  rw [sortRows_eq h]
  refine List.pairwise_mergeSort ?_ ?_ rows
  · intro a b c hab hbc
    have htrans : (rowOrder order a c).isLE := TransCmp.isLE_trans hab hbc
    exact htrans
  · intro a b
    have hswap : rowOrder order b a = (rowOrder order a b).swap := OrientedCmp.eq_swap
    rw [hswap]
    cases rowOrder order a b <;> rfl

theorem sameIdentity_of_eq {order : SortOrder} (h : rowOrder order left right = .eq) :
    SameIdentity left.key right.key := by
  rw [rowOrder, compareLex_eq_eq, compareLex_eq_eq] at h
  exact keyOrder_eq_iff.mp h.2.2

def Distinct (rows : List Row) : Prop :=
  rows.Pairwise fun left right => ¬SameIdentity left.key right.key

theorem SameIdentity.symm {a b : ProcessKey} (h : SameIdentity a b) : SameIdentity b a :=
  ⟨h.source.symm, h.host.symm, h.boot.symm, h.pidNamespace.symm, h.pid.symm, h.creation.symm⟩

instance : Symm fun left right : Row => ¬SameIdentity left.key right.key where
  symm _ _ hne hsame := hne hsame.symm

variable {rows : List Row} {order : SortOrder}

theorem sortRows_perm (order : SortOrder) (rows : List Row) : (sortRows order rows).Perm rows :=
  List.mergeSort_perm rows _

theorem sortRows_strict (h : ∀ row ∈ rows, Projected row) (hdistinct : Distinct rows)
    (order : SortOrder) :
    (sortRows order rows).Pairwise fun left right => rowOrder order left right = .lt := by
  have hdistinct' : Distinct (sortRows order rows) :=
    (sortRows_perm order rows).symm.pairwise hdistinct fun hne hsame => hne hsame.symm
  refine (sortRows_pairwise h order).imp₂ (fun left right hle hne => ?_) hdistinct'
  rcases hcompare : rowOrder order left right
  · rfl
  · exact absurd (sameIdentity_of_eq hcompare) hne
  · rw [hcompare] at hle
    cases hle

theorem pair_sublist (hleft : left ∈ rows) (hright : right ∈ rows) (hne : left ≠ right) :
    [left, right].Sublist rows ∨ [right, left].Sublist rows := by
  have hsymm : Symm fun a b => [a, b].Sublist rows ∨ [b, a].Sublist rows := ⟨fun _ _ h => h.symm⟩
  have hpairs : rows.Pairwise fun a b => [a, b].Sublist rows ∨ [b, a].Sublist rows :=
    List.pairwise_iff_forall_sublist.mpr .inl
  exact hpairs.forall hleft hright hne

theorem before_iff (h : ∀ row ∈ rows, Projected row) (hdistinct : Distinct rows)
    (hleft : left ∈ rows) (hright : right ∈ rows) :
    [left, right].Sublist (sortRows order rows) ↔ compareRows order left right = .lt := by
  have hstrict := sortRows_strict h hdistinct order
  rw [compareRows_eq (h left hleft) (h right hright)]
  refine ⟨fun hsub => hstrict.forall_sublist hsub, fun hlt => ?_⟩
  have hne : left ≠ right := by
    rintro rfl
    have hself : rowOrder order left left = .eq := ReflCmp.compare_self
    rw [hself] at hlt
    cases hlt
  have hmem := fun row => (sortRows_perm order rows).mem_iff (a := row)
  rcases pair_sublist ((hmem left).mpr hleft) ((hmem right).mpr hright) hne with hsub | hsub
  · exact hsub
  · have hgt := hstrict.forall_sublist hsub
    have hswap : rowOrder order right left = (rowOrder order left right).swap :=
      OrientedCmp.eq_swap
    rw [hswap, hlt] at hgt
    cases hgt

theorem sortRows_of_perm (h : ∀ row ∈ rows, Projected row) (hdistinct : Distinct rows)
    {rows' : List Row} (hperm : rows'.Perm rows) : sortRows order rows' = sortRows order rows := by
  have h' : ∀ row ∈ rows', Projected row := fun row hrow => h row (hperm.mem_iff.mp hrow)
  refine List.Perm.eq_of_pairwise ?_ (sortRows_pairwise h' order) (sortRows_pairwise h order)
    (((sortRows_perm order rows').trans hperm).trans (sortRows_perm order rows).symm)
  intro a b ha hb hab hba
  by_contra hne
  have ha' := hperm.mem_iff.mp ((sortRows_perm order rows').mem_iff.mp ha)
  have hb' := (sortRows_perm order rows).mem_iff.mp hb
  exact hdistinct.forall ha' hb' hne (sameIdentity_of_eq (OrientedCmp.isLE_antisymm hab hba))

def valueIn (order : SortOrder) (row : Row) : SortValue := row.sort.get order.field

def reversed (order : SortOrder) : SortOrder := ⟨order.field, opposite order.direction⟩

theorem compareRows_missing (hvalue : valueIn order left = .missing)
    (hle : (compareRows order left right).isLE) : valueIn order right = .missing := by
  unfold valueIn at hvalue ⊢
  rw [compareRows, hvalue] at hle
  rcases hright : right.sort.get order.field with n | s | -
  · rw [hright] at hle
    cases hle
  · rw [hright] at hle
    cases hle
  · rfl

theorem compareRows_reversed_same (hvalue : valueIn order left = valueIn order right) :
    compareRows (reversed order) left right = compareRows order left right := by
  unfold valueIn at hvalue
  simp only [compareRows, reversed, hvalue]
  cases right.sort.get order.field <;> cases order.direction <;>
    simp [directed, opposite, ReflCmp.compare_self]

theorem directed_opposite {β : Type} [Ord β] [TransOrd β] [LawfulEqOrd β]
    (direction : SortDirection) {a b : β} (hne : a ≠ b) (byKey byKey' : Ordering) :
    (directed (opposite direction) (compare b a)).then byKey =
      (directed direction (compare a b)).then byKey' := by
  have hcompare : compare a b ≠ .eq := fun h => hne (LawfulEqOrd.eq_of_compare h)
  rw [OrientedOrd.eq_swap (a := b)]
  cases direction <;> cases hab : compare a b <;> first | rfl | exact absurd hab hcompare

theorem compareRows_reversed (hleft : Projected left) (hright : Projected right)
    (hne : valueIn order left ≠ valueIn order right) (hpresent : valueIn order left ≠ .missing)
    (hpresent' : valueIn order right ≠ .missing) :
    compareRows (reversed order) right left = compareRows order left right := by
  have hshape := hleft.shape order.field
  have hshape' := hright.shape order.field
  unfold valueIn at hne hpresent hpresent'
  simp only [compareRows, reversed]
  by_cases hname : order.field = .name
  · rw [if_pos hname] at hshape hshape'
    obtain ⟨s, hs⟩ := hshape
    obtain ⟨s', hs'⟩ := hshape'
    rw [hs, hs'] at hne ⊢
    exact directed_opposite _ (fun h => hne (congrArg _ h)) _ _
  · rw [if_neg hname] at hshape hshape'
    obtain ⟨n, hn⟩ := hshape
    obtain ⟨n', hn'⟩ := hshape'
    rw [hn.resolve_right hpresent, hn'.resolve_right hpresent'] at hne ⊢
    exact directed_opposite _ (fun h => hne (congrArg _ h)) _ _

/-- The comparison of projected rows is a total order of their values and identities. Rows with
distinct identities come in one order, whichever they arrive in: what is missing is last, and the
other direction reverses what differs in value and keeps what does not. -/
theorem sorting_is_history_free (order : SortOrder) :
    (∀ a, Projected a → compareRows order a a = .eq) ∧
    (∀ a b, Projected a → Projected b →
      compareRows order b a = (compareRows order a b).swap ∧
      (compareRows order a b = .eq → SameIdentity a.key b.key)) ∧
    (∀ a b c, Projected a → Projected b → Projected c → (compareRows order a b).isLE →
      (compareRows order b c).isLE → (compareRows order a c).isLE) ∧
    ∀ rows, (∀ row ∈ rows, Projected row) → Distinct rows →
      (sortRows order rows).Perm rows ∧
      (∀ rows', rows'.Perm rows → sortRows order rows' = sortRows order rows) ∧
      (sortRows order rows).Pairwise (fun a b =>
        valueIn order a = .missing → valueIn order b = .missing) ∧
      ∀ a ∈ rows, ∀ b ∈ rows,
        (valueIn order a = valueIn order b → ([a, b].Sublist (sortRows order rows) ↔
          [a, b].Sublist (sortRows (reversed order) rows))) ∧
        (valueIn order a ≠ valueIn order b → valueIn order a ≠ .missing →
          valueIn order b ≠ .missing → ([a, b].Sublist (sortRows order rows) ↔
            [b, a].Sublist (sortRows (reversed order) rows))) := by
  refine ⟨fun a ha => ?_, fun a b ha hb => ⟨?_, fun heq => ?_⟩, fun a b c ha hb hc hab hbc => ?_,
    fun rows h hdistinct => ⟨sortRows_perm order rows, fun rows' hperm =>
      sortRows_of_perm h hdistinct hperm, ?_, fun a ha b hb => ⟨fun hvalue => ?_,
        fun hne hpresent hpresent' => ?_⟩⟩⟩
  · rw [compareRows_eq ha ha]
    exact ReflCmp.compare_self
  · rw [compareRows_eq hb ha, compareRows_eq ha hb]
    exact OrientedCmp.eq_swap
  · rw [compareRows_eq ha hb] at heq
    exact sameIdentity_of_eq heq
  · rw [compareRows_eq ha hb] at hab
    rw [compareRows_eq hb hc] at hbc
    rw [compareRows_eq ha hc]
    exact TransCmp.isLE_trans hab hbc
  · refine (sortRows_pairwise h order).imp_of_mem fun {a b} ha hb hle hvalue => ?_
    have hmem := fun row => (sortRows_perm order rows).mem_iff (a := row)
    rw [← compareRows_eq (h a ((hmem a).mp ha)) (h b ((hmem b).mp hb))] at hle
    exact compareRows_missing hvalue hle
  · rw [before_iff h hdistinct ha hb, before_iff h hdistinct ha hb,
      compareRows_reversed_same hvalue]
  · rw [before_iff h hdistinct ha hb, before_iff h hdistinct hb ha,
      compareRows_reversed (h a ha) (h b hb) hne hpresent hpresent']

def scannedRow (pid : Nat) (resident : Observed Nat) : Row :=
  let key : ProcessKey :=
    ⟨"procfs", .known "host", .known "boot", .known 1, .known pid, .linuxBootTicks 100⟩
  projectRow .default ⟨key, ⟨"worker", none⟩, resident, .warmingUp⟩ key pid

/-- Three processes, one of them with memory that could not be read. -/
def scannedRows : List Row :=
  [scannedRow 7 (.missing .denied), scannedRow 8 (.known 20), scannedRow 9 (.known 10)]

def byMemory : SortOrder := ⟨.resident, .ascending⟩

theorem scannedRows_sorted :
    sortRows byMemory scannedRows.reverse = sortRows byMemory scannedRows ∧
      (sortRows byMemory scannedRows).Pairwise (fun a b =>
        valueIn byMemory a = .missing → valueIn byMemory b = .missing) ∧
      ([scannedRow 9 (.known 10), scannedRow 8 (.known 20)].Sublist
          (sortRows byMemory scannedRows) ↔
        [scannedRow 8 (.known 20), scannedRow 9 (.known 10)].Sublist
          (sortRows (reversed byMemory) scannedRows)) := by
  have hprojected : ∀ row ∈ scannedRows, Projected row := by
    simp only [scannedRows, List.forall_mem_cons]
    exact ⟨⟨_, rfl⟩, ⟨_, rfl⟩, ⟨_, rfl⟩, fun _ h => absurd h List.not_mem_nil⟩
  have hdistinct : Distinct scannedRows := by
    have hpids : scannedRows.Pairwise fun a b => a.key.pid.value? ≠ b.key.pid.value? := by decide
    exact hpids.imp fun hne hsame => hne hsame.pid
  obtain ⟨-, hperm, hlast, hpairs⟩ :=
    (sorting_is_history_free byMemory).2.2.2 scannedRows hprojected hdistinct
  refine ⟨hperm _ (List.reverse_perm _), hlast, ?_⟩
  exact (hpairs _ (by simp [scannedRows]) _ (by simp [scannedRows])).2 (by decide) (by decide)
    (by decide)

end Srui.Srtop.RowOrders
