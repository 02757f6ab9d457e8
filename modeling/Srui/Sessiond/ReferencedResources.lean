import Srui.Resources.ResourceStores
import Srui.Sessiond.EventCalls
import Srui.Sessiond.ModelRanges

/-!
The resources a session retains while its store refers to them.

A publication collects the references and plans its evictions in one critical section,
and nothing else takes an entry out of the resource store.
-/

namespace Srui.Sessiond.ReferencedResources

open Std Basic.Machine Basic.FiniteMaps Basic.Runs Resources.ResourceStores SemanticTree.Values
open SemanticTree.Limits SemanticTree.Models SemanticTree.Stores Sessiond.EventProcessing
open Sessiond.EventCalls Sessiond.ModelRanges

mutual

/-- `Value::collect_resource_hashes`. -/
def collectResourceHashes (out : Finset ResourceHash) : Value → Finset ResourceHash
  | .scalar (.resourceHash hash) => insert hash out
  | .scalar _ => out
  | .list items => collectItems out items
  | .record _ properties => collectRecord out properties

def collectItems (out : Finset ResourceHash) : List Value → Finset ResourceHash
  | [] => out
  | item :: rest => collectItems (collectResourceHashes out item) rest

def collectRecord (out : Finset ResourceHash) :
    List (PropertyRef × Value) → Finset ResourceHash
  | [] => out
  | (_, value) :: rest => collectRecord (collectResourceHashes out value) rest

end

def collectProperties (out : Finset ResourceHash) (properties : PropertyMap) :
    Finset ResourceHash :=
  properties.toList.foldl (fun out entry => collectResourceHashes out entry.2) out

def collectNode (out : Finset ResourceHash) (node : Node) : Finset ResourceHash :=
  collectProperties out node.properties

def collectModelItem (out : Finset ResourceHash) (item : ModelItem) : Finset ResourceHash :=
  collectProperties (collectResourceHashes out item.value) item.properties

def collectModel (out : Finset ResourceHash) (model : Model) : Finset ResourceHash :=
  model.items.toList.foldl (fun out entry => collectModelItem out entry.2) out

/-- `SemanticStore::referenced_resource_hashes`. -/
def referencedResourceHashes (store : SemanticStore) : Finset ResourceHash :=
  store.models.toList.foldl (fun out entry => collectModel out entry.2)
    (store.nodes.toList.foldl (fun out entry => collectNode out entry.2) ∅)

inductive Holds (hash : ResourceHash) : Value → Prop where
  | here : Holds hash (.scalar (.resourceHash hash))
  | item {items : List Value} {value : Value} (hmem : value ∈ items) (h : Holds hash value) :
      Holds hash (.list items)
  | field {typeRef : TypeRef} {properties : List (PropertyRef × Value)} {property : PropertyRef}
      {value : Value} (hmem : (property, value) ∈ properties) (h : Holds hash value) :
      Holds hash (.record typeRef properties)

def HeldIn (hash : ResourceHash) (properties : PropertyMap) : Prop :=
  ∃ (property : PropertyRef) (value : Value), properties[property]? = some value ∧ Holds hash value

/-- A hash is referenced: by a property of a node, or by the value or a property of
a cached item. -/
def Referenced (store : SemanticStore) (hash : ResourceHash) : Prop :=
  (∃ (id : NodeId) (node : Node), store.nodes[id]? = some node ∧ HeldIn hash node.properties) ∨
    ∃ (id : ModelId) (model : Model) (index : Nat) (item : ModelItem),
      store.models[id]? = some model ∧ model.items[index]? = some item ∧
        (Holds hash item.value ∨ HeldIn hash item.properties)

structure ResourceSystem where
  events : EventSystem
  resources : ResourceStore

def ResourceSystem.store (s : ResourceSystem) : SemanticStore := s.events.inner.session.store

/-- The critical sections that commit a transaction, and those that publish. -/
inductive ResourceInput where
  | call (input : EventCalls.Input)
  | fulfill (query : ModelRangeQuery) (answer : Except ModelRangeError (List ModelItem))
  | publish (bytes : Bytes)

variable (env : Externals) (hashBytes : Bytes → ResourceHash)

/-- `Session::publish_resource` while it holds the lock. -/
def publishResource (s : ResourceSystem) (bytes : Bytes) :
    ResourceSystem × Outcome ResourceError PublishOutcome :=
  let published := publishResourceProtecting hashBytes s.resources bytes
    (referencedResourceHashes s.store)
  ({ s with resources := published.1 }, published.2)

def resourceStep (s : ResourceSystem) : ResourceInput → ResourceSystem
  | .call input => { s with events := EventCalls.step env s.events input }
  | .fulfill query answer =>
    { s with
      events.inner.session := (fulfillModelRange s.events.inner.session query answer).1 }
  | .publish bytes => (publishResource hashBytes s bytes).1

def openedWith (limits : StoreLimits) (resourceLimits : ResourceLimits)
    (capacity maxEntries maxWindows maxStreams : Nat) : ResourceSystem :=
  ⟨opened limits capacity maxEntries maxWindows maxStreams, .withLimits resourceLimits⟩

variable {hash : ResourceHash}

theorem mem_foldl_collect {α : Type} {collect : Finset ResourceHash → α → Finset ResourceHash}
    {held : α → Prop}
    (h : ∀ out a, hash ∈ collect out a ↔ hash ∈ out ∨ held a) (as : List α)
    (out : Finset ResourceHash) :
    hash ∈ as.foldl collect out ↔ hash ∈ out ∨ ∃ a ∈ as, held a := by
  induction as generalizing out with
  | nil => simp
  | cons a rest ih =>
    rw [List.foldl_cons, ih, h, List.exists_mem_cons_iff, or_assoc]

theorem holds_scalar_iff {s : Scalar} :
    Holds hash (.scalar s) ↔ s = .resourceHash hash := by
  constructor
  · rintro ⟨⟩
    rfl
  · rintro rfl
    exact .here

theorem holds_list_iff {items : List Value} :
    Holds hash (.list items) ↔ ∃ item ∈ items, Holds hash item := by
  constructor
  · rintro (_ | ⟨hmem, h⟩)
    exact ⟨_, hmem, h⟩
  · rintro ⟨item, hmem, h⟩
    exact .item hmem h

theorem holds_record_iff {typeRef : TypeRef}
    {properties : List (PropertyRef × Value)} :
    Holds hash (.record typeRef properties) ↔ ∃ entry ∈ properties, Holds hash entry.2 := by
  constructor
  · rintro (_ | _ | ⟨hmem, h⟩)
    exact ⟨_, hmem, h⟩
  · rintro ⟨entry, hmem, h⟩
    exact .field hmem h

mutual

variable {hash : ResourceHash}

theorem mem_collectResourceHashes :
    ∀ (out : Finset ResourceHash) (value : Value),
      hash ∈ collectResourceHashes out value ↔ hash ∈ out ∨ Holds hash value
  | out, .scalar s => by
    rw [holds_scalar_iff]
    rcases Classical.em (∃ other, s = .resourceHash other) with ⟨other, rfl⟩ | hother
    · rw [collectResourceHashes, Finset.mem_insert, Scalar.resourceHash.injEq, or_comm,
        eq_comm (a := hash)]
    · have hne : s ≠ .resourceHash hash := fun heq => hother ⟨hash, heq⟩
      have hskip : collectResourceHashes out (.scalar s) = out := by
        rw [collectResourceHashes]
        intro other heq
        exact hother ⟨other, heq⟩
      rw [hskip]
      simp [hne]
  | out, .list items => by
    rw [collectResourceHashes, mem_collectItems out items, holds_list_iff]
  | out, .record typeRef properties => by
    rw [collectResourceHashes, mem_collectRecord out properties, holds_record_iff]

theorem mem_collectItems :
    ∀ (out : Finset ResourceHash) (items : List Value),
      hash ∈ collectItems out items ↔ hash ∈ out ∨ ∃ item ∈ items, Holds hash item
  | out, [] => by simp [collectItems]
  | out, item :: rest => by
    rw [collectItems, mem_collectItems (collectResourceHashes out item) rest,
      mem_collectResourceHashes out item, List.exists_mem_cons_iff, or_assoc]

theorem mem_collectRecord :
    ∀ (out : Finset ResourceHash) (properties : List (PropertyRef × Value)),
      hash ∈ collectRecord out properties ↔
        hash ∈ out ∨ ∃ entry ∈ properties, Holds hash entry.2
  | out, [] => by simp [collectRecord]
  | out, (property, value) :: rest => by
    rw [collectRecord, mem_collectRecord (collectResourceHashes out value) rest,
      mem_collectResourceHashes out value, List.exists_mem_cons_iff, or_assoc]

end

theorem mem_collectProperties (out : Finset ResourceHash)
    (properties : PropertyMap) :
    hash ∈ collectProperties out properties ↔ hash ∈ out ∨ HeldIn hash properties := by
  rw [collectProperties, mem_foldl_collect (fun out entry => mem_collectResourceHashes out entry.2)]
  simp only [HeldIn, Prod.exists, mem_toList]

theorem mem_collectModelItem (out : Finset ResourceHash) (item : ModelItem) :
    hash ∈ collectModelItem out item ↔
      hash ∈ out ∨ Holds hash item.value ∨ HeldIn hash item.properties := by
  rw [collectModelItem, mem_collectProperties, mem_collectResourceHashes, or_assoc]

theorem mem_collectModel (out : Finset ResourceHash) (model : Model) :
    hash ∈ collectModel out model ↔ hash ∈ out ∨
      ∃ (index : Nat) (item : ModelItem), model.items[index]? = some item ∧
        (Holds hash item.value ∨ HeldIn hash item.properties) := by
  rw [collectModel, mem_foldl_collect (fun out entry => mem_collectModelItem out entry.2)]
  simp only [Prod.exists, mem_toList]

theorem mem_referencedResourceHashes {store : SemanticStore} :
    hash ∈ referencedResourceHashes store ↔ Referenced store hash := by
  rw [referencedResourceHashes, mem_foldl_collect (fun out entry => mem_collectModel out entry.2),
    mem_foldl_collect (fun out entry => mem_collectProperties out entry.2.properties), Referenced]
  simp only [Prod.exists, mem_toList, Finset.notMem_empty, false_or, exists_and_left]

theorem resourceStep_retains {s : ResourceSystem}
    (hreferenced : Referenced s.store hash) (hretained : s.resources.contains hash = true)
    (input : ResourceInput) :
    (resourceStep env hashBytes s input).resources.contains hash = true := by
  cases input with
  | call input => exact hretained
  | fulfill query answer => exact hretained
  | publish bytes =>
    rw [ResourceStore.contains, ExtTreeMap.contains_eq_isSome_getElem?,
      Option.isSome_iff_exists] at hretained ⊢
    obtain ⟨entry, hentry⟩ := hretained
    exact ⟨entry, publish_keeps hashBytes (mem_referencedResourceHashes.mpr hreferenced)
      hentry bytes⟩

/-- Once retained, a resource stays retained for as long as it stays referenced. -/
theorem referenced_stays_retained (limits : StoreLimits)
    (resourceLimits : ResourceLimits) (capacity maxEntries maxWindows maxStreams : Nat)
    (before during : List ResourceInput) (hash : ResourceHash)
    (hretained : (run (resourceStep env hashBytes)
      (openedWith limits resourceLimits capacity maxEntries maxWindows maxStreams)
        before).resources.contains hash = true)
    (hreferenced : EveryState (resourceStep env hashBytes)
      (fun s => Referenced s.store hash)
      (run (resourceStep env hashBytes)
        (openedWith limits resourceLimits capacity maxEntries maxWindows maxStreams) before)
      during) :
    EveryState (resourceStep env hashBytes) (fun s => s.resources.contains hash = true)
      (run (resourceStep env hashBytes)
        (openedWith limits resourceLimits capacity maxEntries maxWindows maxStreams) before)
      during :=
  hreferenced.keeps
    (fun _ input href hret => resourceStep_retains env hashBytes href hret input) hretained

def digestOfNothing : ResourceHash where
  bytes := [0xe3, 0xb0, 0xc4, 0x42, 0x98, 0xfc, 0x1c, 0x14, 0x9a, 0xfb, 0xf4, 0xc8, 0x99, 0x6f,
    0xb9, 0x24, 0x27, 0xae, 0x41, 0xe4, 0x64, 0x9b, 0x93, 0x4c, 0xa4, 0x95, 0x99, 0x1b, 0x78, 0x52,
    0xb8, 0x55]
  length_eq := rfl

/-- The SHA-256 digest of the letter `a`. -/
def digestOfLetter : ResourceHash where
  bytes := [0xca, 0x97, 0x81, 0x12, 0xca, 0x1b, 0xbd, 0xca, 0xfa, 0xc2, 0x31, 0xb3, 0x9a, 0x23,
    0xdc, 0x4d, 0xa7, 0x86, 0xef, 0xf8, 0x14, 0x7c, 0x4e, 0x72, 0xb9, 0x80, 0x77, 0x85, 0xaf, 0xee,
    0x48, 0xbb]
  length_eq := rfl

def digests (bytes : Bytes) : ResourceHash :=
  if bytes = [] then digestOfNothing else digestOfLetter

def plainTexts : Externals :=
  ⟨fun _ => "", fun _ => "", fun _ => "", fun _ => "", id⟩

def published : ResourceSystem :=
  run (resourceStep plainTexts digests) (openedWith .default ⟨10, 1, 10⟩ 8 8 8 8)
    [.publish [], .call (.transaction fun _ _ => applying
      [.createNode 1 ⟨0, 8⟩ none none [(⟨0, 5⟩, .list [.scalar (.resourceHash digestOfNothing)])]])]

theorem published_stays :
    EveryState (resourceStep plainTexts digests)
      (fun s => s.resources.contains digestOfNothing = true) published [.publish [97]] := by
  refine referenced_stays_retained plainTexts digests .default ⟨10, 1, 10⟩ 8 8 8 8 _
    [.publish [97]] digestOfNothing (by decide +kernel) ?_
  refine ⟨mem_referencedResourceHashes.mp (by decide +kernel), ?_⟩
  exact mem_referencedResourceHashes.mp (by decide +kernel)

end Srui.Sessiond.ReferencedResources
