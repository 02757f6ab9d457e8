import Srui.Basic.Shelves
import Srui.SemanticTree.Values

/-!
The bounded content-addressed store of resource bytes. The digest of a payload is
a parameter.

A publication plans every eviction before it changes the store, so one that fails
leaves it as it was.
-/

namespace Srui.Resources.ResourceStores

open Std Basic.Machine Basic.FiniteMaps Basic.Shelves SemanticTree.Values

abbrev Bytes := List UInt8

structure ResourceLimits where
  maxResourceBytes : Nat
  maxEntries : Nat
  maxTotalBytes : Nat
deriving DecidableEq, Repr

def ResourceLimits.default : ResourceLimits where
  maxResourceBytes := 50 * 1024 * 1024
  maxEntries := 1024
  maxTotalBytes := 256 * 1024 * 1024

inductive ResourceError where
  | resourceTooLarge (length limit : Nat)
  | entryLimitExceeded (limit : Nat)
  | totalBytesLimitExceeded (limit : Nat)
deriving DecidableEq, Repr

structure ResourceEntry where
  hash : ResourceHash
  mediaType : String
  encodedLength : Nat
  bytes : Bytes
deriving DecidableEq

structure PublishOutcome where
  hash : ResourceHash
  inserted : Bool
  entry : ResourceEntry
deriving DecidableEq

structure ResourceStore where
  limits : ResourceLimits
  entries : ExtTreeMap ResourceHash ResourceEntry
  order : List ResourceHash
  totalBytes : Nat

def ResourceStore.withLimits (limits : ResourceLimits) : ResourceStore :=
  ⟨limits, ∅, [], 0⟩

def ResourceStore.contains (store : ResourceStore) (hash : ResourceHash) : Bool :=
  store.entries.contains hash

/-- `infer_media_type`: the well-known signatures of raster images. -/
def inferMediaType (bytes : Bytes) : String :=
  if [0x89, 0x50, 0x4E, 0x47, 0x0D, 0x0A, 0x1A, 0x0A].isPrefixOf bytes then "image/png"
  else if [0xFF, 0xD8, 0xFF].isPrefixOf bytes then "image/jpeg"
  else if [0x47, 0x49, 0x46, 0x38, 0x37, 0x61].isPrefixOf bytes ||
      [0x47, 0x49, 0x46, 0x38, 0x39, 0x61].isPrefixOf bytes then "image/gif"
  else if 12 ≤ bytes.length && [0x52, 0x49, 0x46, 0x46].isPrefixOf bytes &&
      (bytes.drop 8).take 4 = [0x57, 0x45, 0x42, 0x50] then "image/webp"
  else if [0x42, 0x4D].isPrefixOf bytes then "image/bmp"
  else "application/octet-stream"

structure EvictionPlan where
  evictions : List ResourceHash
  retainedEntries : Nat
  retainedBytes : Nat

def planEvictions (store : ResourceStore) (length : Nat) :
    EvictionPlan → List ResourceHash → Outcome ResourceError EvictionPlan
  | plan, [] => .ok plan
  | plan, candidate :: rest =>
    match checkedAdd plan.retainedBytes length with
    | none => err (.totalBytesLimitExceeded store.limits.maxTotalBytes)
    | some nextTotal =>
      if plan.retainedEntries < store.limits.maxEntries ∧
          nextTotal ≤ store.limits.maxTotalBytes then .ok plan
      else
        match store.entries[candidate]? with
        | none => .error .panicked
        | some entry =>
          planEvictions store length
            ⟨plan.evictions ++ [candidate], plan.retainedEntries - 1,
              plan.retainedBytes - entry.bytes.length⟩ rest

/-- `ResourceStore::remove`. -/
def ResourceStore.remove (store : ResourceStore) (hash : ResourceHash) : ResourceStore :=
  match store.entries[hash]? with
  | some entry =>
    { store with
      order := store.order.erase hash
      entries := store.entries.erase hash
      totalBytes := store.totalBytes - entry.bytes.length }
  | none => { store with order := store.order.erase hash }

variable (hashBytes : Bytes → ResourceHash)

/-- The entry a publication of `bytes` inserts. -/
def entryOf (bytes : Bytes) : ResourceEntry :=
  ⟨hashBytes bytes, inferMediaType bytes, bytes.length, bytes⟩

/-- `ResourceStore::publish_resource_protecting`. -/
def publishResourceProtecting (store : ResourceStore) (bytes : Bytes)
    (protectedHashes : Finset ResourceHash) :
    ResourceStore × Outcome ResourceError PublishOutcome :=
  if store.limits.maxResourceBytes < bytes.length then
    (store, err (.resourceTooLarge bytes.length store.limits.maxResourceBytes))
  else
    match store.entries[hashBytes bytes]? with
    | some existing => (store, .ok ⟨hashBytes bytes, false, existing⟩)
    | none =>
      match planEvictions store bytes.length ⟨[], store.entries.size, store.totalBytes⟩
          (store.order.filter fun hash => decide (hash ∉ protectedHashes)) with
      | .error fault => (store, .error fault)
      | .ok plan =>
        if store.limits.maxEntries ≤ plan.retainedEntries then
          (store, err (.entryLimitExceeded store.limits.maxEntries))
        else
          match checkedAdd plan.retainedBytes bytes.length with
          | none => (store, err (.totalBytesLimitExceeded store.limits.maxTotalBytes))
          | some nextTotal =>
            if store.limits.maxTotalBytes < nextTotal then
              (store, err (.totalBytesLimitExceeded store.limits.maxTotalBytes))
            else
              let kept := plan.evictions.foldl ResourceStore.remove store
              ({ kept with
                  entries := kept.entries.insert (hashBytes bytes) (entryOf hashBytes bytes)
                  order := kept.order ++ [hashBytes bytes]
                  totalBytes := nextTotal },
                .ok ⟨hashBytes bytes, true, entryOf hashBytes bytes⟩)

def entrySize (entry : ResourceEntry) : Nat := entry.bytes.length

def ResourceStore.shelf (store : ResourceStore) :
    Shelf ResourceHash ResourceEntry compare :=
  ⟨store.order, store.entries, store.totalBytes⟩

theorem remove_shelf (store : ResourceStore) (hash : ResourceHash) :
    (store.remove hash).shelf = store.shelf.remove entrySize hash := by
  rw [ResourceStore.remove, Shelf.remove]
  rcases hentry : store.entries[hash]? with _ | entry
  · have herase : store.entries.erase hash = store.entries := by
      refine ExtTreeMap.ext_getElem? fun k => ?_
      rw [getElem?_drop]
      split
      · rename_i hk
        rw [← hk, hentry]
      · rfl
    simp [ResourceStore.shelf, hentry, herase]
  · simp [ResourceStore.shelf, hentry, entrySize]

theorem remove_limits (store : ResourceStore) (hash : ResourceHash) :
    (store.remove hash).limits = store.limits := by
  rw [ResourceStore.remove]
  split <;> rfl

theorem foldl_remove (store : ResourceStore) (hashes : List ResourceHash) :
    (hashes.foldl ResourceStore.remove store).shelf = store.shelf.removeAll entrySize hashes ∧
      (hashes.foldl ResourceStore.remove store).limits = store.limits := by
  induction hashes generalizing store with
  | nil => exact ⟨rfl, rfl⟩
  | cons hash rest ih =>
    obtain ⟨hshelf, hlimits⟩ := ih (store.remove hash)
    rw [remove_shelf] at hshelf
    rw [remove_limits] at hlimits
    exact ⟨hshelf, hlimits⟩

variable {length : Nat} {store : ResourceStore} {plan : EvictionPlan}
    {candidates : List ResourceHash}

theorem planEvictions_subset {result : EvictionPlan}
    (h : planEvictions store length plan candidates = .ok result) :
    result.evictions ⊆ plan.evictions ++ candidates := by
  induction candidates generalizing plan with
  | nil =>
    rw [planEvictions, Except.ok.injEq] at h
    rw [← h, List.append_nil]
    exact List.Subset.refl _
  | cons candidate rest ih =>
    rw [planEvictions] at h
    split at h
    · simp [err] at h
    split at h
    · rw [Except.ok.injEq] at h
      rw [← h]
      exact List.subset_append_left _ _
    split at h
    · simp at h
    · have hsubset := ih h
      rwa [List.append_assoc, List.singleton_append] at hsubset

theorem planEvictions_planned {result : EvictionPlan}
    (hnodup : (plan.evictions ++ candidates).Nodup)
    (hplan : Planned entrySize store.shelf plan.evictions plan.retainedEntries plan.retainedBytes)
    (h : planEvictions store length plan candidates = .ok result) :
    Planned entrySize store.shelf result.evictions result.retainedEntries
      result.retainedBytes := by
  induction candidates generalizing plan with
  | nil =>
    rw [planEvictions, Except.ok.injEq] at h
    exact h ▸ hplan
  | cons candidate rest ih =>
    rw [planEvictions] at h
    split at h
    · simp [err] at h
    split at h
    · rw [Except.ok.injEq] at h
      exact h ▸ hplan
    split at h
    · simp at h
    · rename_i entry hentry
      have hnew : candidate ∉ plan.evictions := fun hmem =>
        (List.nodup_append.mp hnodup).2.2 candidate hmem candidate List.mem_cons_self rfl
      refine ih ?_ (hplan.next hentry hnew) h
      rwa [List.append_assoc, List.singleton_append]

structure Inserts (store : ResourceStore) (bytes : Bytes) (protectedHashes : Finset ResourceHash)
    (store' : ResourceStore) : Prop where
  fresh : store.entries[hashBytes bytes]? = none
  limits_eq : store'.limits = store.limits
  planned : ∃ plan nextTotal,
    planEvictions store bytes.length ⟨[], store.entries.size, store.totalBytes⟩
        (store.order.filter fun hash => decide (hash ∉ protectedHashes)) = .ok plan ∧
      plan.retainedEntries < store.limits.maxEntries ∧
      nextTotal = plan.retainedBytes + bytes.length ∧ nextTotal ≤ store.limits.maxTotalBytes ∧
      store'.shelf = ⟨(store.shelf.removeAll entrySize plan.evictions).order ++ [hashBytes bytes],
        (store.shelf.removeAll entrySize plan.evictions).entries.insert (hashBytes bytes)
          (entryOf hashBytes bytes), nextTotal⟩

theorem publish_spec (store : ResourceStore) (bytes : Bytes)
    (protectedHashes : Finset ResourceHash) :
    (publishResourceProtecting hashBytes store bytes protectedHashes).1 = store ∧
        (∀ outcome, (publishResourceProtecting hashBytes store bytes protectedHashes).2 =
          .ok outcome →
            outcome.inserted = false ∧ store.entries[hashBytes bytes]? = some outcome.entry) ∨
      (publishResourceProtecting hashBytes store bytes protectedHashes).2 =
          .ok ⟨hashBytes bytes, true, entryOf hashBytes bytes⟩ ∧
        Inserts hashBytes store bytes protectedHashes
          (publishResourceProtecting hashBytes store bytes protectedHashes).1 := by
  rw [publishResourceProtecting]
  split
  · exact .inl ⟨rfl, by simp⟩
  split
  · rename_i existing hfound
    refine .inl ⟨rfl, ?_⟩
    rintro outcome ⟨⟩
    exact ⟨rfl, hfound⟩
  rename_i hfresh
  split
  · exact .inl ⟨rfl, by simp⟩
  rename_i plan hplan
  split
  · exact .inl ⟨rfl, by simp⟩
  rename_i hentries
  split
  · exact .inl ⟨rfl, by simp⟩
  rename_i nextTotal htotal
  split
  · exact .inl ⟨rfl, by simp⟩
  rename_i hbytes
  obtain ⟨hshelf, hlimits⟩ := foldl_remove store plan.evictions
  refine .inr ⟨rfl, hfresh, hlimits, plan, nextTotal, hplan, Nat.lt_of_not_le hentries,
    (checkedAdd_eq_some.mp htotal).2, Nat.le_of_not_lt hbytes, ?_⟩
  rw [← hshelf]
  rfl

theorem publish_cases (store : ResourceStore) (bytes : Bytes)
    (protectedHashes : Finset ResourceHash) :
    (publishResourceProtecting hashBytes store bytes protectedHashes).1 = store ∨
      Inserts hashBytes store bytes protectedHashes
        (publishResourceProtecting hashBytes store bytes protectedHashes).1 :=
  (publish_spec hashBytes store bytes protectedHashes).imp And.left And.right

variable {protectedHashes : Finset ResourceHash}

theorem publish_ok_cases {bytes : Bytes} {outcome : PublishOutcome}
    (h : (publishResourceProtecting hashBytes store bytes protectedHashes).2 = .ok outcome) :
    outcome.inserted = false ∧ store.entries[hashBytes bytes]? = some outcome.entry ∨
      outcome = ⟨hashBytes bytes, true, entryOf hashBytes bytes⟩ ∧
        Inserts hashBytes store bytes protectedHashes
          (publishResourceProtecting hashBytes store bytes protectedHashes).1 := by
  rcases publish_spec hashBytes store bytes protectedHashes with ⟨-, hfound⟩ | ⟨hok, hinserts⟩
  · exact .inl (hfound outcome h)
  · rw [hok, Except.ok.injEq] at h
    exact .inr ⟨h.symm, hinserts⟩

theorem Inserts.lookup {store' : ResourceStore} {bytes : Bytes}
    (h : Inserts hashBytes store bytes protectedHashes store') {hash : ResourceHash}
    {entry : ResourceEntry} (hentry : store'.entries[hash]? = some entry) :
    hash = hashBytes bytes ∧ entry = entryOf hashBytes bytes ∨
      hash ≠ hashBytes bytes ∧ store.entries[hash]? = some entry := by
  obtain ⟨plan, nextTotal, -, -, -, -, hshelf⟩ := h.planned
  have hentries := congrArg Shelf.entries hshelf
  change store'.entries = _ at hentries
  rw [hentries, getElem?_put] at hentry
  split at hentry
  · rename_i hsame
    exact .inl ⟨hsame.symm, (Option.some.inj hentry).symm⟩
  · rename_i hother
    exact .inr ⟨Ne.symm hother, lookup_of_removeAll hentry⟩

theorem publish_keeps
    {hash : ResourceHash} {entry : ResourceEntry} (hprotected : hash ∈ protectedHashes)
    (hentry : store.entries[hash]? = some entry) (bytes : Bytes) :
    (publishResourceProtecting hashBytes store bytes protectedHashes).1.entries[hash]? =
      some entry := by
  rcases publish_cases hashBytes store bytes protectedHashes with hsame | hinserts
  · rw [hsame, hentry]
  obtain ⟨plan, nextTotal, hplan, -, -, -, hshelf⟩ := hinserts.planned
  have hsubset := planEvictions_subset hplan
  have hkept : hash ∉ plan.evictions := by
    intro hmem
    have hcandidate := hsubset hmem
    rw [List.nil_append, List.mem_filter, decide_eq_true_eq] at hcandidate
    exact hcandidate.2 hprotected
  have hother : hashBytes bytes ≠ hash := by
    intro heq
    have hfresh := hinserts.fresh
    rw [heq, hentry] at hfresh
    exact absurd hfresh (by simp)
  show (publishResourceProtecting hashBytes store bytes protectedHashes).1.shelf.entries[hash]? =
    some entry
  rw [hshelf, getElem?_put, if_neg hother, lookup_removeAll hkept]
  exact hentry

/-- What every publication keeps: the order lists each entry once, and the count and
the total are those of the entries and within the limits. -/
structure Sound (store : ResourceStore) : Prop where
  tallied : Tallied entrySize store.shelf
  entries_le : store.entries.size ≤ store.limits.maxEntries
  bytes_le : store.totalBytes ≤ store.limits.maxTotalBytes

theorem withLimits_sound (limits : ResourceLimits) : Sound (.withLimits limits) :=
  ⟨Tallied.empty, by simp [ResourceStore.withLimits], Nat.zero_le _⟩

theorem publish_sound (h : Sound store) (bytes : Bytes)
    (protectedHashes : Finset ResourceHash) :
    Sound (publishResourceProtecting hashBytes store bytes protectedHashes).1 := by
  rcases publish_cases hashBytes store bytes protectedHashes with hsame | hinserts
  · rwa [hsame]
  obtain ⟨plan, nextTotal, hplan, hentries, htotal, hbytes, hshelf⟩ := hinserts.planned
  have hnodup : ([] ++ store.order.filter fun hash => decide (hash ∉ protectedHashes)).Nodup :=
    h.tallied.listing.nodup.filter _
  have hplanned := planEvictions_planned hnodup (Planned.start store.shelf) hplan
  have hfresh : (store.shelf.removeAll entrySize plan.evictions).entries[hashBytes bytes]? =
      none := by
    refine Option.eq_none_iff_forall_ne_some.mpr fun entry hentry => ?_
    have hbefore : store.entries[hashBytes bytes]? = some entry := lookup_of_removeAll hentry
    rw [hinserts.fresh] at hbefore
    exact absurd hbefore (by simp)
  have hpush := (h.tallied.removeAll plan.evictions).push hfresh (entryOf hashBytes bytes)
  constructor
  · rw [hshelf, htotal, hplanned.bytes_eq]
    exact hpush
  · have hsize := congrArg (fun shelf => shelf.entries.size) hshelf
    rw [hinserts.limits_eq]
    refine hsize.le.trans ?_
    show (ExtTreeMap.insert _ _ _).size ≤ _
    rw [size_insert_of_fresh _ hfresh, ← hplanned.count_eq]
    exact hentries
  · rw [hinserts.limits_eq]
    exact (congrArg Shelf.total hshelf).le.trans hbytes

theorem planEvictions_ne_panicked
    (h : ∀ hash ∈ candidates, ∃ entry, store.entries[hash]? = some entry) :
    planEvictions store length plan candidates ≠ .error .panicked := by
  induction candidates generalizing plan with
  | nil =>
    rw [planEvictions]
    exact nofun
  | cons candidate rest ih =>
    obtain ⟨entry, hentry⟩ := h candidate List.mem_cons_self
    rw [planEvictions]
    split
    · simp [err]
    split
    · exact nofun
    rw [hentry]
    exact ih fun hash hmem => h hash (List.mem_cons_of_mem candidate hmem)

theorem publish_ne_panicked (h : Sound store) (bytes : Bytes)
    (protectedHashes : Finset ResourceHash) :
    (publishResourceProtecting hashBytes store bytes protectedHashes).2 ≠ .error .panicked := by
  have hpresent : ∀ hash ∈ store.order.filter fun hash => decide (hash ∉ protectedHashes),
      ∃ entry, store.entries[hash]? = some entry := fun hash hmem =>
    (h.tallied.listing.mem_iff hash).mp (List.mem_of_mem_filter hmem)
  rw [publishResourceProtecting]
  split
  · simp [err]
  split
  · simp
  split
  · rename_i fault hplan
    rintro heq
    rw [Except.error.injEq] at heq
    exact planEvictions_ne_panicked hpresent (heq ▸ hplan)
  split
  · simp [err]
  split
  · simp [err]
  split
  · simp [err]
  · simp

end Srui.Resources.ResourceStores
