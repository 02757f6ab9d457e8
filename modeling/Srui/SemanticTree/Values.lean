import Srui.Basic.FiniteMaps
import Srui.Basic.Machine

/-!
Identifiers and the dynamic values of the semantic graph.

Node, item and model identifiers are the source's `u64` newtypes. Doubles are
carried as their bit patterns, since no modelled function computes with them.
-/

namespace Srui.SemanticTree.Values

open Std Basic.FiniteMaps

abbrev NodeId := Nat
abbrev ItemId := Nat
abbrev ModelId := Nat

abbrev Revision := Nat

structure TypeRef where
  namespaceId : Nat
  localId : Nat
deriving DecidableEq, Repr

structure PropertyRef where
  namespaceId : Nat
  localId : Nat
deriving DecidableEq, Repr

instance : Ord PropertyRef :=
  ⟨compareLex (compareOn PropertyRef.namespaceId) (compareOn PropertyRef.localId)⟩

instance : TransOrd PropertyRef :=
  inferInstanceAs (TransCmp (compareLex (compareOn PropertyRef.namespaceId)
    (compareOn PropertyRef.localId)))

instance : LawfulEqOrd PropertyRef where
  eq_of_compare := by
    intro a b h
    have hcompare : compareLex (compareOn PropertyRef.namespaceId)
        (compareOn PropertyRef.localId) a b = .eq := h
    rw [compareLex_eq_eq] at hcompare
    rcases a with ⟨namespaceId, localId⟩
    rcases b with ⟨namespaceId', localId'⟩
    simp only [compareOn, Nat.compare_eq_eq] at hcompare
    simp [hcompare.1, hcompare.2]

/-- `PropertyRef::MODEL_REF`, standard property 17. -/
def PropertyRef.modelRef : PropertyRef := ⟨0, 17⟩

structure ResourceHash where
  bytes : List UInt8
  length_eq : bytes.length = 32
deriving DecidableEq, Repr

instance : Ord ResourceHash := ⟨compareOn ResourceHash.bytes⟩

instance : TransOrd ResourceHash := inferInstanceAs (TransCmp (compareOn ResourceHash.bytes))

instance : LawfulEqOrd ResourceHash where
  eq_of_compare := by
    intro a b h
    have hbytes : a.bytes = b.bytes := LawfulEqOrd.eq_of_compare h
    rcases a with ⟨bytes, hlength⟩
    rcases b with ⟨bytes', hlength'⟩
    simpa using hbytes

/-- Bit pattern of an `f64`. -/
abbrev Float64 := UInt64

/-- The fifteen value variants that hold no further value. -/
inductive Scalar where
  | null
  | bool (b : Bool)
  | signedInt (i : Int)
  | unsignedInt (u : Nat)
  | float64 (f : Float64)
  | string (s : String)
  | nodeId (id : NodeId)
  | itemId (id : ItemId)
  | resourceHash (h : ResourceHash)
  | enumToken (enumId valueId : Nat)
  | size (width height : Float64)
  | point (x y : Float64)
  | range (start length : Nat)
  | rect (x y width height : Float64)
  | edgeInsets (top leading bottom trailing : Float64)
deriving DecidableEq, Repr

/-- Dynamic value: a scalar, a list, or a small typed record. -/
inductive Value where
  | scalar (s : Scalar)
  | list (items : List Value)
  | record (typeRef : TypeRef) (properties : List (PropertyRef × Value))
deriving Repr

mutual
def decEq : (a b : Value) → Decidable (a = b)
  | .scalar s, .scalar t =>
    if h : s = t then isTrue (by rw [h]) else isFalse (by simpa using h)
  | .list xs, .list ys =>
    match decEqList xs ys with
    | isTrue h => isTrue (by rw [h])
    | isFalse h => isFalse (by simpa using h)
  | .record t ps, .record u qs =>
    if ht : t = u then
      match decEqProperties ps qs with
      | isTrue h => isTrue (by rw [ht, h])
      | isFalse h => isFalse (by simp [h])
    else isFalse (by simp [ht])
  | .scalar _, .list _ => isFalse (by simp)
  | .scalar _, .record _ _ => isFalse (by simp)
  | .list _, .scalar _ => isFalse (by simp)
  | .list _, .record _ _ => isFalse (by simp)
  | .record _ _, .scalar _ => isFalse (by simp)
  | .record _ _, .list _ => isFalse (by simp)

def decEqList : (xs ys : List Value) → Decidable (xs = ys)
  | [], [] => isTrue rfl
  | [], _ :: _ => isFalse (by simp)
  | _ :: _, [] => isFalse (by simp)
  | x :: xs, y :: ys =>
    match decEq x y with
    | isTrue h =>
      match decEqList xs ys with
      | isTrue h' => isTrue (by rw [h, h'])
      | isFalse h' => isFalse (by simp [h'])
    | isFalse h => isFalse (by simp [h])

def decEqProperties : (xs ys : List (PropertyRef × Value)) → Decidable (xs = ys)
  | [], [] => isTrue rfl
  | [], _ :: _ => isFalse (by simp)
  | _ :: _, [] => isFalse (by simp)
  | (p, x) :: xs, (q, y) :: ys =>
    if hp : p = q then
      match decEq x y with
      | isTrue h =>
        match decEqProperties xs ys with
        | isTrue h' => isTrue (by rw [hp, h, h'])
        | isFalse h' => isFalse (by simp [h'])
      | isFalse h => isFalse (by simp [h])
    else isFalse (by simp [hp])
end

instance : DecidableEq Value := decEq

/-- `Value::Null`. -/
abbrev Value.null : Value := .scalar .null

/-- `Value::is_scalar`: neither a list nor a record. -/
def Value.isScalar : Value → Bool
  | .scalar _ => true
  | _ => false

abbrev PropertyMap := ExtTreeMap PropertyRef Value

def insertProperties (map : PropertyMap) (properties : List (PropertyRef × Value)) : PropertyMap :=
  insertAll map properties

def collectProperties (properties : List (PropertyRef × Value)) : PropertyMap :=
  insertProperties ∅ properties

end Srui.SemanticTree.Values
