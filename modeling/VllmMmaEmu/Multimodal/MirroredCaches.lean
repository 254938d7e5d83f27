import Mathlib.Data.List.Sort
import VllmMmaEmu.Library.LRUCache
import VllmMmaEmu.Library.Runs

/-!
# The multimodal caches of frontend and engine

`MultiModalProcessorSenderCache` of the frontend and `MultiModalReceiverCache` of the engine
(`vllm/multimodal/cache.py`), with the functions that call them: `_get_cache_missing_items` and
`_merge_mm_kwargs` (`vllm/multimodal/processing.py`), `process_inputs`
(`vllm/v1/engine/processor.py`) and `preprocess_add_request` (`vllm/v1/engine/core.py`).

The frontend sends no data for an item that it takes to be in the cache of the engine. The two
caches see the same lookups and assignments, as long as every request that reaches the cache of
the frontend is sent and its items stand in the prompt in the order in which they were merged.
-/

namespace VllmV1.Multimodal

open Python

-- The data of an item, the processed data that are sent, and the prompt updates of an item.
variable {Data Kwargs Updates : Type} {itemSize : Kwargs → Nat}

/-- `MultiModalProcessorCacheItemMetadata`. -/
structure CacheItemMetadata (Updates : Type) where
  itemSize : Nat
  promptUpdates : Updates

abbrev SenderCache (Updates : Type) := LRUCache String (CacheItemMetadata Updates) (·.itemSize)

abbrev ReceiverCache (itemSize : Kwargs → Nat) := LRUCache String Kwargs itemSize

/-- `get_and_update_item` of the frontend. An exception leaves the cache as it is. -/
def SenderCache.getAndUpdateItem (itemSize : Kwargs → Nat) (c : SenderCache Updates)
    (mmItem : Option (Kwargs × Updates)) (mmHash : String) :
    Except PyError (Option Kwargs × Updates) × SenderCache Updates :=
  match c.get mmHash with
  | (some cachedItem, c) => (.ok (none, cachedItem.promptUpdates), c)
  | (none, c) => match mmItem with
    | none => (.error .assertionError, c)
    | some (kwargs, updates) => match c.setItem mmHash ⟨itemSize kwargs, updates⟩ with
      | .error e => (.error e, c)
      | .ok c => (.ok (some kwargs, updates), c)

/-- `get_and_update_item` of the engine. -/
def ReceiverCache.getAndUpdateItem (c : ReceiverCache itemSize) (mmItem : Option Kwargs)
    (mmHash : String) : Except PyError (Kwargs × ReceiverCache itemSize) :=
  match c.get mmHash with
  | (some cachedItem, c) => .ok (cachedItem, c)
  | (none, c) => match mmItem with
    | none => .error .assertionError
    | some mmItem => do
      let c ← c.setItem mmHash mmItem
      return (mmItem, c)

/-- An item with its hash, its data unless only the hash is given, and its place in the prompt. -/
structure MmItem (Data : Type) where
  hash : String
  data : Option Data
  offset : Nat

structure MultiModalFeatureSpec (Kwargs : Type) where
  data : Option Kwargs
  modality : String
  identifier : String
  offset : Nat

/-- The items of a request by modality, and what a check after the preprocessing raises. -/
structure MmRequest (Data : Type) where
  items : Dict String (List (MmItem Data))
  rejected : Option PyError

/-- The loop of `_get_cache_missing_items` over the items of one modality. -/
def getMissingData (c : SenderCache Updates) (modality : String) :
    List (MmItem Data) → Nat → Except PyError (List Data)
  | [], _ => .ok []
  | item :: rest, idx =>
    if c.contains item.hash then getMissingData c modality rest (idx + 1)
    else match item.data with
      | none => .error (.valueError
          s!"Cache miss for {modality} at index {idx} but data is not provided.")
      | some data => do
        let missing ← getMissingData c modality rest (idx + 1)
        return data :: missing

def getCacheMissingItems (c : SenderCache Updates) (r : MmRequest Data) :
    Except PyError (List (String × List Data)) :=
  r.items.entries.mapM fun p => do
    let missing ← getMissingData c p.1 p.2 0
    return (p.1, missing)

/-- The loop of `_merge_mm_kwargs` over the items of one modality: which of them were cached at
the beginning, and the processed data of those that were not. -/
def mergeModality (itemSize : Kwargs → Nat) (missing : List (Kwargs × Updates)) (modality : String)
    (c : SenderCache Updates) : List (MmItem Data × Bool) → Nat →
    Except PyError (List (MultiModalFeatureSpec Kwargs)) × SenderCache Updates
  | [], _ => (.ok [], c)
  | (item, isCached) :: rest, missingNextIdx =>
    match if isCached then .ok (none, missingNextIdx)
      else (pyIndex missing missingNextIdx).map fun kwargs => (some kwargs, missingNextIdx + 1) with
    | .error e => (.error e, c)
    | .ok (mmItem, missingNextIdx) =>
      match c.getAndUpdateItem itemSize mmItem item.hash with
      | (.error e, c) => (.error e, c)
      | (.ok (kwargs, _), c) =>
        match mergeModality itemSize missing modality c rest missingNextIdx with
        | (.error e, c) => (.error e, c)
        | (.ok features, c) => (.ok (⟨kwargs, modality, item.hash, item.offset⟩ :: features), c)

/-- The loop of `_merge_mm_kwargs` over the modalities. -/
def mergeModalities (itemSize : Kwargs → Nat) (missing : String → List (Kwargs × Updates))
    (c : SenderCache Updates) : List (String × List (MmItem Data × Bool)) →
    Except PyError (List (MultiModalFeatureSpec Kwargs)) × SenderCache Updates
  | [] => (.ok [], c)
  | (modality, items) :: rest =>
    match mergeModality itemSize (missing modality) modality c items 0 with
    | (.error e, c) => (.error e, c)
    | (.ok features, c) => match mergeModalities itemSize missing c rest with
      | (.error e, c) => (.error e, c)
      | (.ok others, c) => (.ok (features ++ others), c)

def mergeMmKwargs (itemSize : Kwargs → Nat) (missing : String → List (Kwargs × Updates))
    (c : SenderCache Updates) (r : MmRequest Data) :
    Except PyError (List (MultiModalFeatureSpec Kwargs)) × SenderCache Updates :=
  mergeModalities itemSize missing c
    (r.items.entries.map fun p => (p.1, p.2.map fun item => (item, c.contains item.hash)))

/-- What the processor of a model makes of the missing data, by modality. -/
abbrev HfProcessor (Data Kwargs Updates : Type) :=
  List (String × List Data) → String → List (Kwargs × Updates)

/-- `_cached_apply_hf_processor`: the features in the order of the modalities. -/
def cachedApplyHfProcessor (itemSize : Kwargs → Nat) (hf : HfProcessor Data Kwargs Updates)
    (c : SenderCache Updates) (r : MmRequest Data) :
    Except PyError (List (MultiModalFeatureSpec Kwargs)) × SenderCache Updates :=
  match getCacheMissingItems c r with
  | .error e => (.error e, c)
  | .ok missing => mergeMmKwargs itemSize (hf missing) c r

/-- `argsort_mm_positions`, applied to the features. -/
def sortByPosition (features : List (MultiModalFeatureSpec Kwargs)) :
    List (MultiModalFeatureSpec Kwargs) := features.insertionSort (·.offset ≤ ·.offset)

/-- `process_inputs`: the features of the request that is sent, unless one of the checks raises. -/
def processInputs (itemSize : Kwargs → Nat) (hf : HfProcessor Data Kwargs Updates)
    (c : SenderCache Updates) (r : MmRequest Data) :
    Except PyError (List (MultiModalFeatureSpec Kwargs)) × SenderCache Updates :=
  match cachedApplyHfProcessor itemSize hf c r with
  | (.error e, c) => (.error e, c)
  | (.ok features, c) => match r.rejected with
    | some e => (.error e, c)
    | none => (.ok (sortByPosition features), c)

def getAndUpdateFeatures (c : ReceiverCache itemSize) :
    List (MultiModalFeatureSpec Kwargs) →
    Except PyError (List (MultiModalFeatureSpec Kwargs) × ReceiverCache itemSize)
  | [] => .ok ([], c)
  | feature :: rest => do
    let (data, c) ← c.getAndUpdateItem feature.data feature.identifier
    let (rest, c) ← getAndUpdateFeatures c rest
    return ({ feature with data := some data } :: rest, c)

/-- The two caches, and the requests that are on their way. -/
structure MmCaches (Updates : Type) (itemSize : Kwargs → Nat) where
  sender : SenderCache Updates
  receiver : ReceiverCache itemSize
  queue : List (List (MultiModalFeatureSpec Kwargs))

/-- A request may also bypass the cache of the frontend, when it comes with embeddings. -/
inductive MmOp (Data Kwargs : Type) where
  | request (r : MmRequest Data)
  | bypass (features : List (MultiModalFeatureSpec Kwargs))
  | deliver

namespace MmCaches

def init (maxsize : Nat) : MmCaches Updates itemSize := ⟨.empty maxsize, .empty maxsize, []⟩

def step (hf : HfProcessor Data Kwargs Updates) (s : MmCaches Updates itemSize) :
    MmOp Data Kwargs → Except PyError (MmCaches Updates itemSize)
  | .request r => match processInputs itemSize hf s.sender r with
    | (.error _, c) => .ok { s with sender := c }
    | (.ok features, c) => .ok { s with sender := c, queue := s.queue ++ [features] }
  | .bypass features => .ok { s with queue := s.queue ++ [sortByPosition features] }
  | .deliver => match s.queue with
    | [] => .ok s
    | features :: rest => do
      let (_, c) ← getAndUpdateFeatures s.receiver features
      return { s with receiver := c, queue := rest }

end MmCaches

/-- A request that bypasses the cache comes with all of its data. -/
def MmOp.Possible : MmOp Data Kwargs → Prop
  | .bypass features => ∀ f ∈ features, f.data.isSome
  | .request _ | .deliver => True

/-- The items in the order of the modalities. -/
def MmRequest.allItems (r : MmRequest Data) : List (MmItem Data) := r.items.entries.flatMap (·.2)

/-- The request has items, none of which lacks its data. -/
def MmRequest.ReachesCache (c : SenderCache Updates) (r : MmRequest Data) : Prop :=
  r.allItems ≠ [] ∧ (getCacheMissingItems c r).isOk

/-- The items stand in the prompt in the order of the modalities. -/
def MmRequest.InOrder (r : MmRequest Data) : Prop := r.allItems.Pairwise (·.offset ≤ ·.offset)

/-- Whatever reaches the cache of the frontend is sent, in the same order. -/
def MmOp.Mirrored (hf : HfProcessor Data Kwargs Updates) (s : MmCaches Updates itemSize) :
    MmOp Data Kwargs → Prop
  | .request r => r.ReachesCache s.sender → r.InOrder ∧ r.rejected = none ∧
      (cachedApplyHfProcessor itemSize hf s.sender r).1.isOk
  | .bypass features => features = []
  | .deliver => True

instance (c : SenderCache Updates) (r : MmRequest Data) : Decidable (r.ReachesCache c) :=
  inferInstanceAs (Decidable (r.allItems ≠ [] ∧ (getCacheMissingItems c r).isOk))

instance (r : MmRequest Data) : Decidable r.InOrder :=
  inferInstanceAs (Decidable (r.allItems.Pairwise (·.offset ≤ ·.offset)))

instance (hf : HfProcessor Data Kwargs Updates) (s : MmCaches Updates itemSize)
    (op : MmOp Data Kwargs) : Decidable (op.Mirrored hf s) := match op with
  | .request r => inferInstanceAs (Decidable (r.ReachesCache s.sender → r.InOrder ∧
      r.rejected = none ∧ (cachedApplyHfProcessor itemSize hf s.sender r).1.isOk))
  | .bypass features => inferInstanceAs (Decidable (features = []))
  | .deliver => .isTrue trivial

variable {c d : SenderCache Updates} {c' : ReceiverCache itemSize}

lemma getAndUpdateItem_mirrored (h : LRUCache.SameShape c c') {mmItem : Option (Kwargs × Updates)}
    {mmHash : String} {kwargs : Option Kwargs} {updates : Updates}
    (hrun : c.getAndUpdateItem itemSize mmItem mmHash = (.ok (kwargs, updates), d)) :
    ∃ out d', c'.getAndUpdateItem kwargs mmHash = .ok (out, d') ∧ LRUCache.SameShape d d' := by
  obtain ⟨hfound, hshape⟩ := h.get mmHash
  unfold SenderCache.getAndUpdateItem at hrun
  unfold ReceiverCache.getAndUpdateItem
  rcases hget : c.get mmHash with ⟨_ | cached, c₁⟩
  · rcases hget' : c'.get mmHash with ⟨_ | cached', c₁'⟩
    · rw [hget, hget'] at hshape
      rw [hget] at hrun
      cases mmItem with
      | none => exact absurd (congrArg Prod.fst hrun) (by simp)
      | some item =>
        obtain ⟨kw, up⟩ := item
        simp only at hrun hshape
        cases hset : c₁.setItem mmHash ⟨itemSize kw, up⟩ with
        | error e =>
          rw [hset] at hrun
          exact absurd (congrArg Prod.fst hrun) (by simp)
        | ok d₁ =>
          rw [hset] at hrun
          obtain ⟨hout, rfl⟩ := Prod.mk.inj hrun
          obtain ⟨rfl, rfl⟩ := Prod.mk.inj (Except.ok.inj hout)
          obtain ⟨d', hd', hsame⟩ := hshape.setItem mmHash (w := kw) rfl hset
          exact ⟨kw, d', bind_eq_ok.mpr ⟨d', hd', rfl⟩, hsame⟩
    · rw [hget, hget'] at hfound
      cases hfound
  · rcases hget' : c'.get mmHash with ⟨_ | cached', c₁'⟩
    · rw [hget, hget'] at hfound
      cases hfound
    · rw [hget, hget'] at hshape
      rw [hget] at hrun
      obtain ⟨-, rfl⟩ := Prod.mk.inj hrun
      exact ⟨cached', c₁', rfl, hshape⟩

lemma getAndUpdateFeatures_cons {feature : MultiModalFeatureSpec Kwargs} {data : Kwargs}
    {f out : List (MultiModalFeatureSpec Kwargs)} {c d e : ReceiverCache itemSize}
    (hone : c.getAndUpdateItem feature.data feature.identifier = .ok (data, d))
    (hf : getAndUpdateFeatures d f = .ok (out, e)) :
    getAndUpdateFeatures c (feature :: f) = .ok ({ feature with data := some data } :: out, e) :=
  bind_eq_ok.mpr ⟨_, hone, bind_eq_ok.mpr ⟨_, hf, rfl⟩⟩

lemma getAndUpdateFeatures_append {f g out out' : List (MultiModalFeatureSpec Kwargs)}
    {c d e : ReceiverCache itemSize} (hf : getAndUpdateFeatures c f = .ok (out, d))
    (hg : getAndUpdateFeatures d g = .ok (out', e)) :
    getAndUpdateFeatures c (f ++ g) = .ok (out ++ out', e) := by
  induction f generalizing c out with
  | nil =>
    obtain ⟨rfl, rfl⟩ := Prod.mk.inj (Except.ok.inj hf)
    exact hg
  | cons feature f ih =>
    obtain ⟨⟨data, c₁⟩, hone, hf⟩ := bind_eq_ok.mp hf
    obtain ⟨⟨rest, c₂⟩, hrest, hf⟩ := bind_eq_ok.mp hf
    obtain ⟨rfl, rfl⟩ := Prod.mk.inj (Except.ok.inj hf)
    exact getAndUpdateFeatures_cons hone (ih hrest)

/-- The engine follows the frontend through the items of one modality. -/
lemma mergeModality_mirrored (h : LRUCache.SameShape c c') {missing : List (Kwargs × Updates)}
    {modality : String} {items : List (MmItem Data × Bool)} {idx : Nat}
    {features : List (MultiModalFeatureSpec Kwargs)}
    (hrun : mergeModality itemSize missing modality c items idx = (.ok features, d)) :
    features.map (·.offset) = items.map (·.1.offset) ∧
      ∃ out d', getAndUpdateFeatures c' features = .ok (out, d') ∧ LRUCache.SameShape d d' := by
  induction items generalizing c c' idx features with
  | nil =>
    obtain ⟨hout, rfl⟩ := Prod.mk.inj hrun
    obtain rfl := Except.ok.inj hout
    exact ⟨rfl, [], c', rfl, h⟩
  | cons p items ih =>
    obtain ⟨item, isCached⟩ := p
    unfold mergeModality at hrun
    split at hrun
    · exact absurd (congrArg Prod.fst hrun) (by simp)
    · split at hrun
      · exact absurd (congrArg Prod.fst hrun) (by simp)
      · rename_i hone
        split at hrun
        · exact absurd (congrArg Prod.fst hrun) (by simp)
        · rename_i hrest
          obtain ⟨hout, rfl⟩ := Prod.mk.inj hrun
          obtain rfl := Except.ok.inj hout
          obtain ⟨data, c₁', hone', hsame⟩ := getAndUpdateItem_mirrored h hone
          obtain ⟨hoffsets, out, d', hrest', hsame'⟩ := ih hsame hrest
          exact ⟨by simp [hoffsets], _, d', getAndUpdateFeatures_cons hone' hrest', hsame'⟩

lemma mergeModalities_mirrored (h : LRUCache.SameShape c c')
    {missing : String → List (Kwargs × Updates)}
    {modalities : List (String × List (MmItem Data × Bool))}
    {features : List (MultiModalFeatureSpec Kwargs)}
    (hrun : mergeModalities itemSize missing c modalities = (.ok features, d)) :
    features.map (·.offset) = modalities.flatMap (fun p => p.2.map (·.1.offset)) ∧
      ∃ out d', getAndUpdateFeatures c' features = .ok (out, d') ∧ LRUCache.SameShape d d' := by
  induction modalities generalizing c c' features with
  | nil =>
    obtain ⟨hout, rfl⟩ := Prod.mk.inj hrun
    obtain rfl := Except.ok.inj hout
    exact ⟨rfl, [], c', rfl, h⟩
  | cons p modalities ih =>
    obtain ⟨modality, items⟩ := p
    unfold mergeModalities at hrun
    split at hrun
    · exact absurd (congrArg Prod.fst hrun) (by simp)
    · rename_i hone
      split at hrun
      · exact absurd (congrArg Prod.fst hrun) (by simp)
      · rename_i hrest
        obtain ⟨hout, rfl⟩ := Prod.mk.inj hrun
        obtain rfl := Except.ok.inj hout
        obtain ⟨hoffsets, out, d', hone', hsame⟩ := mergeModality_mirrored h hone
        obtain ⟨hoffsets', out', e', hrest', hsame'⟩ := ih hsame hrest
        exact ⟨by simp [hoffsets, hoffsets'], _, e', getAndUpdateFeatures_append hone' hrest', hsame'⟩

/-- What the engine makes of the requests that are on their way. -/
def deliverAll (c : ReceiverCache itemSize) (queue : List (List (MultiModalFeatureSpec Kwargs))) :
    Except PyError (ReceiverCache itemSize) :=
  queue.foldlM (fun c features => (getAndUpdateFeatures c features).map Prod.snd) c

/-- When all requests are delivered, the caches have the same shape. -/
def MmCaches.Pending (s : MmCaches Updates itemSize) : Prop :=
  ∃ c', deliverAll s.receiver s.queue = .ok c' ∧ LRUCache.SameShape s.sender c'

variable {s s' : MmCaches Updates itemSize} {hf : HfProcessor Data Kwargs Updates}

lemma sortByPosition_of_offsets {features : List (MultiModalFeatureSpec Kwargs)}
    (h : (features.map (·.offset)).Pairwise (· ≤ ·)) : sortByPosition features = features :=
  (List.pairwise_map.mp h).insertionSort_eq

/-- A request that is sent in order takes both caches to the same shape. -/
lemma processInputs_of_mirrored {r : MmRequest Data} (h : LRUCache.SameShape s.sender c')
    (horder : r.InOrder) (hrejected : r.rejected = none)
    (hok : (cachedApplyHfProcessor itemSize hf s.sender r).1.isOk) :
    ∃ features d out d', processInputs itemSize hf s.sender r = (.ok features, d) ∧
      getAndUpdateFeatures c' features = .ok (out, d') ∧ LRUCache.SameShape d d' := by
  unfold processInputs
  rcases hrun : cachedApplyHfProcessor itemSize hf s.sender r with ⟨_ | features, d⟩
  · rw [hrun] at hok
    cases hok
  · unfold cachedApplyHfProcessor at hrun
    split at hrun
    · exact absurd (congrArg Prod.fst hrun) (by simp)
    · obtain ⟨hoffsets, out, d', hrest, hsame⟩ := mergeModalities_mirrored h hrun
      have hsorted : sortByPosition features = features := by
        refine sortByPosition_of_offsets ?_
        have hmap := List.pairwise_map.mpr horder
        rw [MmRequest.allItems, List.map_flatMap] at hmap
        rw [hoffsets, List.flatMap_map]
        simpa [Function.comp_def] using hmap
      exact ⟨features, d, out, d', by simp [hrejected, hsorted], hrest, hsame⟩

lemma mergeModalities_nil {missing : String → List (Kwargs × Updates)}
    {modalities : List (String × List (MmItem Data × Bool))} (h : ∀ p ∈ modalities, p.2 = []) :
    mergeModalities itemSize missing c modalities = (.ok [], c) := by
  induction modalities with
  | nil => rfl
  | cons p modalities ih =>
    obtain ⟨modality, items⟩ := p
    obtain rfl : items = [] := h _ List.mem_cons_self
    have htail := ih fun q hq => h q (List.mem_cons_of_mem _ hq)
    simp only [mergeModalities, mergeModality, htail, List.nil_append]

/-- A request without items, or without the data for one, leaves the caches alone. -/
lemma processInputs_of_not_reaches (itemSize : Kwargs → Nat) (hf : HfProcessor Data Kwargs Updates)
    {r : MmRequest Data} (h : ¬r.ReachesCache c) :
    (∃ e, processInputs itemSize hf c r = (.error e, c)) ∨
      processInputs itemSize hf c r = (.ok [], c) := by
  unfold processInputs cachedApplyHfProcessor
  cases hmissing : getCacheMissingItems c r with
  | error e => exact Or.inl ⟨e, rfl⟩
  | ok missing =>
    have hnone : r.allItems = [] := by
      by_contra hne
      exact h ⟨hne, by rw [hmissing]; rfl⟩
    have hempty : ∀ p ∈ r.items.entries, p.2 = [] := by
      simpa [MmRequest.allItems, List.flatMap_eq_nil_iff] using hnone
    have hmerge : mergeMmKwargs itemSize (hf missing) c r = (.ok [], c) := by
      refine mergeModalities_nil fun p hp => ?_
      obtain ⟨q, hq, rfl⟩ := List.mem_map.mp hp
      rw [hempty q hq, List.map_nil]
    simp only [hmerge]
    cases r.rejected with
    | some e => exact Or.inl ⟨e, rfl⟩
    | none => exact Or.inr rfl

lemma deliverAll_concat {c d : ReceiverCache itemSize}
    {queue : List (List (MultiModalFeatureSpec Kwargs))}
    {features out : List (MultiModalFeatureSpec Kwargs)} (hqueue : deliverAll c queue = .ok c')
    (hlast : getAndUpdateFeatures c' features = .ok (out, d)) :
    deliverAll c (queue ++ [features]) = .ok d := by
  unfold deliverAll at hqueue ⊢
  rw [List.foldlM_append]
  refine bind_eq_ok.mpr ⟨c', hqueue, ?_⟩
  rw [List.foldlM_cons, hlast]
  rfl

/-- One step keeps it true that the caches have the same shape once all is delivered. -/
theorem MmCaches.Pending.step {op : MmOp Data Kwargs} (h : s.Pending) (hop : op.Mirrored hf s)
    (hrun : s.step hf op = .ok s') : s'.Pending := by
  obtain ⟨c', hqueue, hshape⟩ := h
  cases op with
  | request r =>
    by_cases hreach : r.ReachesCache s.sender
    · obtain ⟨horder, hrejected, hok⟩ := hop hreach
      obtain ⟨features, d, out, d', hinputs, hlast, hsame⟩ :=
        processInputs_of_mirrored hshape horder hrejected hok
      simp only [MmCaches.step, hinputs] at hrun
      obtain rfl := Except.ok.inj hrun
      exact ⟨d', deliverAll_concat hqueue hlast, hsame⟩
    · rcases processInputs_of_not_reaches itemSize hf hreach with ⟨e, hinputs⟩ | hinputs
      · simp only [MmCaches.step, hinputs] at hrun
        obtain rfl := Except.ok.inj hrun
        exact ⟨c', hqueue, hshape⟩
      · simp only [MmCaches.step, hinputs] at hrun
        obtain rfl := Except.ok.inj hrun
        exact ⟨c', deliverAll_concat hqueue rfl, hshape⟩
  | bypass features =>
    obtain rfl : features = [] := hop
    obtain rfl := Except.ok.inj hrun
    exact ⟨c', deliverAll_concat hqueue rfl, hshape⟩
  | deliver =>
    simp only [MmCaches.step] at hrun
    split at hrun
    · obtain rfl := Except.ok.inj hrun
      exact ⟨c', hqueue, hshape⟩
    · rename_i features rest hcons
      obtain ⟨⟨out, c₁⟩, hone, hrun⟩ := bind_eq_ok.mp hrun
      obtain rfl := Except.ok.inj hrun
      rw [hcons, deliverAll, List.foldlM_cons, hone] at hqueue
      exact ⟨c', hqueue, hshape⟩

/-- What is promised: the engine has every item whose data were not sent. -/
def MmCaches.Deliverable (s : MmCaches Updates itemSize) : Prop :=
  ∀ features rest, s.queue = features :: rest →
    ∃ out c, getAndUpdateFeatures s.receiver features = .ok (out, c)

/-- The caches of a new engine. -/
def MmCaches.Started (s : MmCaches Updates itemSize) : Prop := ∃ maxsize, s = .init maxsize

/-- A processor whose results are the data themselves. -/
def plainProcessor : HfProcessor Nat Nat Unit :=
  fun missing modality => ((missing.lookup modality).getD []).map fun data => (data, ())

def oneImage (rejected : Option PyError) : MmRequest Nat where
  items := ⟨[("image", [⟨"a", some 1, 0⟩])], by simp⟩
  rejected := rejected

end VllmV1.Multimodal
