import Srui.SemanticTree.Operations

/-!
The transactional context a closure mutates: a staged copy of the store beside
the operations recorded for the wire.
-/

namespace Srui.Sdk.UiTransactions

open SemanticTree Basic.Machine SemanticTree.Values SemanticTree.Limits SemanticTree.Stores
open SemanticTree.Operations

structure UiTransaction where
  staged : SemanticStore
  operations : List Operation
  opCount : Nat
  maxOps : Nat

/-- `UiTransaction::new`. -/
def UiTransaction.new (staged : SemanticStore) (maxOps : Nat) : UiTransaction where
  staged := staged
  operations := []
  opCount := 0
  maxOps := maxOps

variable (ui : UiTransaction)

/-- `UiTransaction::record_op`. A refused call is counted all the same. -/
def UiTransaction.recordOp : UiTransaction × Except StoreError Unit :=
  let ui := { ui with opCount := ui.opCount + 1 }
  if ui.opCount > ui.maxOps then
    (ui, .error (.operationError ("maximum transaction operations exceeded (limit: " ++
      toString ui.maxOps ++ ", actual: " ++ toString ui.opCount ++ ")")))
  else (ui, .ok ())

def UiTransaction.recorded {α : Type} (op : Operation)
    (mutate : SemanticStore → SemanticStore × Outcome StoreError α) :
    UiTransaction × Outcome StoreError α :=
  match ui.recordOp with
  | (ui, .error e) => (ui, err e)
  | (ui, .ok ()) =>
    ({ ui with operations := ui.operations ++ [op], staged := (mutate ui.staged).1 },
      (mutate ui.staged).2)

def settle {α : Type} (s : SemanticStore) :
    Outcome StoreError (SemanticStore × α) → SemanticStore × Outcome StoreError α
  | .ok (s', a) => (s', .ok a)
  | .error f => (s, .error f)

/-- `UiTransaction::create_node`. -/
def UiTransaction.createNode (id : NodeId) (nodeType : TypeRef) (parentId : Option NodeId)
    (childIndex : Option Nat) (properties : List (PropertyRef × Value)) :
    UiTransaction × Outcome StoreError Unit :=
  ui.recorded (.createNode id nodeType parentId childIndex properties)
    fun s => commit s (Stores.createNode s id nodeType parentId childIndex properties)

/-- `UiTransaction::set`. -/
def UiTransaction.set (node : NodeId) (prop : PropertyRef) (val : Value) :
    UiTransaction × Outcome StoreError (Option Value) :=
  ui.recorded (.setProperty node prop val) fun s => settle s (setProperty s node prop val)

/-- `UiTransaction::clear`. -/
def UiTransaction.clear (node : NodeId) (prop : PropertyRef) :
    UiTransaction × Outcome StoreError (Option Value) :=
  ui.recorded (.clearProperty node prop) fun s => settle s (clearProperty s node prop)

/-- `UiTransaction::delete`. -/
def UiTransaction.delete (node : NodeId) : UiTransaction × Outcome StoreError (List NodeId) :=
  ui.recorded (.deleteNode node) fun s => settle s (deleteNode s node)

/-- `UiTransaction::move_node`. -/
def UiTransaction.moveNode (node : NodeId) (newParentId : Option NodeId)
    (newChildIndex : Option Nat) : UiTransaction × Outcome StoreError Unit :=
  ui.recorded (.moveNode node newParentId newChildIndex)
    fun s => commit s (Stores.moveNode s node newParentId newChildIndex)

/-- `UiTransaction::reorder_children`. -/
def UiTransaction.reorderChildren (parent : NodeId) (newOrder : List NodeId) :
    UiTransaction × Outcome StoreError Unit :=
  ui.recorded (.reorderChildren parent newOrder)
    fun s => commit s (Stores.reorderChildren s parent newOrder)

/-- `UiTransaction::apply_op`. -/
def UiTransaction.applyOp (op : Operation) : UiTransaction × Outcome StoreError Unit :=
  ui.recorded op fun s => apply op s

/-!
Closures.
-/

inductive UiCall where
  | createNode (id : NodeId) (nodeType : TypeRef) (parentId : Option NodeId)
      (childIndex : Option Nat) (properties : List (PropertyRef × Value))
  | set (node : NodeId) (prop : PropertyRef) (val : Value)
  | clear (node : NodeId) (prop : PropertyRef)
  | delete (node : NodeId)
  | moveNode (node : NodeId) (newParentId : Option NodeId) (newChildIndex : Option Nat)
  | reorderChildren (parent : NodeId) (newOrder : List NodeId)
  | applyOp (op : Operation)

inductive Reply where
  | unit
  | previous (value : Option Value)
  | deleted (ids : List NodeId)

def answer {α : Type} (reply : α → Reply) (result : UiTransaction × Outcome StoreError α) :
    UiTransaction × Outcome StoreError Reply :=
  (result.1, result.2.map reply)

def UiTransaction.perform : UiCall → UiTransaction × Outcome StoreError Reply
  | .createNode id nodeType parentId childIndex properties =>
    answer (fun _ => .unit) (ui.createNode id nodeType parentId childIndex properties)
  | .set node prop val => answer .previous (ui.set node prop val)
  | .clear node prop => answer .previous (ui.clear node prop)
  | .delete node => answer .deleted (ui.delete node)
  | .moveNode node newParentId newChildIndex =>
    answer (fun _ => .unit) (ui.moveNode node newParentId newChildIndex)
  | .reorderChildren parent newOrder =>
    answer (fun _ => .unit) (ui.reorderChildren parent newOrder)
  | .applyOp op => answer (fun _ => .unit) (ui.applyOp op)

/-- A closure: a finite sequence of calls, each chosen from the transaction and
the results seen so far, that returns or panics in the end. -/
inductive UiClosure (τ : Type) where
  | finish (result : Except StoreError τ)
  | panic
  | call (c : UiCall) (next : UiTransaction → Except StoreError Reply → UiClosure τ)

variable {τ : Type}

def runClosure : UiClosure τ → UiTransaction → UiTransaction × Outcome StoreError τ
  | .finish (.ok value), ui => (ui, .ok value)
  | .finish (.error e), ui => (ui, err e)
  | .panic, ui => (ui, .error .panicked)
  | .call c next, ui =>
    match ui.perform c with
    | (ui, .ok reply) => runClosure (next ui (.ok reply)) ui
    | (ui, .error (.error e)) => runClosure (next ui (.error e)) ui
    | (ui, .error .panicked) => (ui, .error .panicked)
    | (ui, .error .diverges) => (ui, .error .diverges)

end Srui.Sdk.UiTransactions
