import VllmMmaEmu.Multimodal.MirroredCaches

/-!
# Cached and fresh items of a request

`_merge_mm_kwargs` of `vllm/multimodal/processing.py` with all that it returns, over either LRU
cache of the processor (`vllm/multimodal/cache.py`). Which items are cached is settled at the
beginning; an item that is evicted by an earlier one of its request is then missing.
-/

namespace VllmV1.Multimodal

open Python LruWindow

variable {Kwargs U V : Type} {itemSize : Kwargs → Nat}

/-- The fields of `ResolvedPromptUpdate`: the index of the item, and the others. -/
structure ResolvedPromptUpdate (U : Type) where
  itemIdx : Nat
  content : U
  deriving DecidableEq

def recomputeCachedPromptUpdate (cachedUpdate : ResolvedPromptUpdate U) (newItemIdx : Nat) :
    ResolvedPromptUpdate U := { cachedUpdate with itemIdx := newItemIdx }

/-- The processed data of an item, which a cache may hold back, with its prompt updates. -/
abbrev Processed (Kwargs U : Type) := Kwargs × List (ResolvedPromptUpdate U)

/-- What the caches of the processor differ in: what they store of an item, and what they
return for it. -/
structure ProcessorCache (Kwargs U V : Type) (itemSize : Kwargs → Nat) where
  getsizeof : V → Nat
  store : Processed Kwargs U → V
  output : V → Processed (Option Kwargs) U
  size_store : ∀ p, getsizeof (store p) = itemSize p.1
  updates_store : ∀ p, (output (store p)).2 = p.2
  data_store : ∀ p, ∀ kwargs ∈ (output (store p)).1, kwargs = p.1

/-- `MultiModalProcessorOnlyCache`. -/
def processorOnlyCache (U : Type) (itemSize : Kwargs → Nat) :
    ProcessorCache Kwargs U (Processed Kwargs U) itemSize where
  getsizeof item := itemSize item.1
  store item := item
  output item := (some item.1, item.2)
  size_store _ := rfl
  updates_store _ := rfl
  data_store _ _ h := (Option.some.inj h).symm

/-- `MultiModalProcessorSenderCache`. -/
def processorSenderCache (U : Type) (itemSize : Kwargs → Nat) :
    ProcessorCache Kwargs U (CacheItemMetadata (List (ResolvedPromptUpdate U))) itemSize where
  getsizeof item := item.itemSize
  store item := ⟨itemSize item.1, item.2⟩
  output item := (none, item.promptUpdates)
  size_store _ := rfl
  updates_store _ := rfl
  data_store _ _ h := nomatch h

namespace ProcessorCache

variable (P : ProcessorCache Kwargs U V itemSize)

def getAndUpdateItem (c : LRUCache String V P.getsizeof) (mmItem : Option (Processed Kwargs U))
    (mmHash : String) :
    Except PyError (Processed (Option Kwargs) U × LRUCache String V P.getsizeof) :=
  match c.get mmHash with
  | (some cachedItem, c) => .ok (P.output cachedItem, c)
  | (none, c) => match mmItem with
    | none => .error .assertionError
    | some (kwargs, updates) => do
      let c ← c.setItem mmHash (P.store (kwargs, updates))
      return ((some kwargs, updates), c)

/-- The processed data that come with an item, unless it was cached at the beginning. -/
def nextMissing (missingKwargs : List Kwargs)
    (missingPromptUpdates : List (List (ResolvedPromptUpdate U))) (isCached : Bool)
    (missingNextIdx : Nat) : Except PyError (Option (Processed Kwargs U) × Nat) :=
  if isCached then .ok (none, missingNextIdx)
  else do
    let kwargs ← pyIndex missingKwargs missingNextIdx
    let updates ← pyIndex missingPromptUpdates missingNextIdx
    return (some (kwargs, updates), missingNextIdx + 1)

/-- The loop over the items of one modality. -/
def mergeItems (missingKwargs : List Kwargs)
    (missingPromptUpdates : List (List (ResolvedPromptUpdate U))) :
    List (String × Bool) → (itemIdx missingNextIdx : Nat) → LRUCache String V P.getsizeof →
    Except PyError (List (Processed (Option Kwargs) U) × LRUCache String V P.getsizeof)
  | [], _, _, c => .ok ([], c)
  | (itemHash, isCached) :: rest, itemIdx, missingNextIdx, c => do
    let (item, missingNextIdx) ←
      nextMissing missingKwargs missingPromptUpdates isCached missingNextIdx
    let ((kwargs, updates), c) ← P.getAndUpdateItem c item itemHash
    let (merged, c) ← mergeItems missingKwargs missingPromptUpdates rest (itemIdx + 1)
      missingNextIdx c
    return ((kwargs, updates.map (recomputeCachedPromptUpdate · itemIdx)) :: merged, c)

/-- The loop over the modalities. -/
def mergeHashes (mmMissingKwargs : String → List Kwargs)
    (mmMissingPromptUpdates : String → List (List (ResolvedPromptUpdate U))) :
    List (String × List (String × Bool)) → LRUCache String V P.getsizeof →
    Except PyError (List (String × List (Processed (Option Kwargs) U)) ×
      LRUCache String V P.getsizeof)
  | [], c => .ok ([], c)
  | (modality, hashes) :: rest, c => do
    let (merged, c) ← P.mergeItems (mmMissingKwargs modality) (mmMissingPromptUpdates modality)
      hashes 0 0 c
    let (others, c) ← mergeHashes mmMissingKwargs mmMissingPromptUpdates rest c
    return ((modality, merged) :: others, c)

/-- `_merge_mm_kwargs`: the data and the prompt updates of every item, by modality. What is
missing in a modality that has no entry is the empty list. -/
def mergeMmKwargs (c : LRUCache String V P.getsizeof) (mmHashes : Dict String (List String))
    (mmMissingKwargs : String → List Kwargs)
    (mmMissingPromptUpdates : String → List (List (ResolvedPromptUpdate U))) :
    Except PyError (List (String × List (Processed (Option Kwargs) U)) ×
      LRUCache String V P.getsizeof) :=
  P.mergeHashes mmMissingKwargs mmMissingPromptUpdates
    (mmHashes.entries.map fun p => (p.1, p.2.map fun h => (h, c.contains h))) c

end ProcessorCache

/-- The data of an item and the contents of its prompt updates, which its hash determines. -/
structure ItemsByHash (Kwargs U : Type) where
  data : String → Kwargs
  updates : String → List U

namespace ProcessorCache

variable {P : ProcessorCache Kwargs U V itemSize} (w : ItemsByHash Kwargs U)

/-- Every entry of the cache was stored for the item of its hash. -/
def Consistent (P : ProcessorCache Kwargs U V itemSize) (w : ItemsByHash Kwargs U)
    (c : LRUCache String V P.getsizeof) : Prop :=
  ∀ h, ∀ v ∈ c.entries.get? h, ∃ updates, v = P.store (w.data h, updates) ∧
    updates.map (·.content) = w.updates h

/-- The size of the item of a hash. -/
def sizeOf (itemSize : Kwargs → Nat) (w : ItemsByHash Kwargs U) (h : String) : Nat :=
  itemSize (w.data h)

/-- The entries are those of the hashes, and the keys the most recently used hashes. -/
structure Tracks (P : ProcessorCache Kwargs U V itemSize) (w : ItemsByHash Kwargs U)
    (uses : List String) (c : LRUCache String V P.getsizeof) : Prop where
  consistent : P.Consistent w c
  holds : Holds (sizeOf itemSize w) c.maxsize uses c.entries.keys

variable {w} {uses : List String} {c : LRUCache String V P.getsizeof} {mmHash : String}

lemma Consistent.size (h : P.Consistent w c) {v : V} (hv : v ∈ c.entries.get? mmHash) :
    P.getsizeof v = sizeOf itemSize w mmHash := by
  obtain ⟨updates, rfl, -⟩ := h mmHash v hv
  exact P.size_store _

lemma evictFrom_keys {l : List (String × V)} {n cap : Nat}
    (hsize : ∀ p ∈ l, P.getsizeof p.2 = sizeOf itemSize w p.1) :
    (LRUCache.evictFrom P.getsizeof cap n l).map Prod.fst =
      evict (sizeOf itemSize w) cap n (l.map Prod.fst) := by
  induction l with
  | nil => rfl
  | cons p rest ih =>
    have hweight : ((p :: rest).map fun q => P.getsizeof q.2).sum =
        weight (sizeOf itemSize w) ((p :: rest).map Prod.fst) := by
      rw [weight, List.map_map, List.map_congr_left hsize]
      rfl
    rw [LRUCache.evictFrom, hweight, List.map_cons, evict]
    split_ifs
    · exact ih fun q hq => hsize q (List.mem_cons_of_mem p hq)
    · rfl

/-- A cached item is used; it gives what was stored for it. -/
lemma Tracks.hit (h : Tracks P w uses c) (hk : mmHash ∈ c.entries.keys)
    (mmItem : Option (Processed Kwargs U)) :
    ∃ updates c', P.getAndUpdateItem c mmItem mmHash =
        .ok (P.output (P.store (w.data mmHash, updates)), c') ∧
      updates.map (·.content) = w.updates mmHash ∧ Tracks P w (uses ++ [mmHash]) c' ∧
      c'.maxsize = c.maxsize := by
  obtain ⟨v, hv⟩ := Dict.mem_keys_iff.mp hk
  obtain ⟨hout, hentries, hmax⟩ := LRUCache.get_of_some hv
  obtain ⟨updates, rfl, hcontent⟩ := h.consistent mmHash v hv
  refine ⟨updates, (c.get mmHash).2, ?_, hcontent, ⟨?_, ?_⟩, hmax⟩
  · unfold getAndUpdateItem
    rw [show c.get mmHash = (some (P.store (w.data mmHash, updates)), (c.get mmHash).2) from
      Prod.ext hout rfl]
  · intro h' v' hv'
    rw [hentries, Option.mem_def, Dict.get?_set] at hv'
    split_ifs at hv' with heq
    · subst heq
      obtain rfl := Option.some.inj hv'
      exact ⟨updates, rfl, hcontent⟩
    · rw [Dict.get?_erase_of_ne heq] at hv'
      exact h.consistent h' v' hv'
  · rw [hentries, hmax, LRUCache.keys_moveToEnd]
    exact h.holds.hit hk

lemma getAndUpdateItem_missing (hk : mmHash ∉ c.entries.keys) :
    P.getAndUpdateItem c none mmHash = .error .assertionError := by
  unfold getAndUpdateItem
  rw [LRUCache.get_of_none (Dict.get?_eq_none_iff.mpr hk)]

lemma Tracks.insert (h : Tracks P w uses c) (hk : mmHash ∉ c.entries.keys)
    (hfits : sizeOf itemSize w mmHash ≤ c.maxsize) {updates : List (ResolvedPromptUpdate U)}
    (hcontent : updates.map (·.content) = w.updates mmHash) :
    ∃ c', P.getAndUpdateItem c (some (w.data mmHash, updates)) mmHash =
        .ok ((some (w.data mmHash), updates), c') ∧ Tracks P w (uses ++ [mmHash]) c' ∧
      c'.maxsize = c.maxsize := by
  have hnone := Dict.get?_eq_none_iff.mpr hk
  have hsize : P.getsizeof (P.store (w.data mmHash, updates)) = sizeOf itemSize w mmHash :=
    P.size_store _
  obtain ⟨c', hset, hentries, hmax⟩ :=
    LRUCache.setItem_eq_ok (k := mmHash) (v := P.store (w.data mmHash, updates)) (hsize ▸ hfits)
  rw [LRUCache.kept, hnone, Option.any_none, if_neg Bool.false_ne_true, hsize] at hentries
  have hkeys : (c.evict (sizeOf itemSize w mmHash)).keys =
      evict (sizeOf itemSize w) c.maxsize (sizeOf itemSize w mmHash) c.entries.keys :=
    evictFrom_keys fun p hp => h.consistent.size (Dict.get?_eq_some_iff.mpr hp)
  have hout : mmHash ∉ (c.evict (sizeOf itemSize w mmHash)).keys := fun hmem =>
    hk ((evict_suffix _).subset (hkeys ▸ hmem))
  refine ⟨c', ?_, ⟨?_, ?_⟩, hmax⟩
  · unfold getAndUpdateItem
    rw [LRUCache.get_of_none hnone]
    dsimp only
    rw [hset, ok_bind]
    rfl
  · intro h' v' hv'
    rw [hentries, Option.mem_def, Dict.get?_set] at hv'
    split_ifs at hv' with heq
    · subst heq
      obtain rfl := Option.some.inj hv'
      exact ⟨updates, rfl, hcontent⟩
    · rw [Dict.get?_erase_of_ne heq] at hv'
      refine h.consistent h' v' (Dict.get?_eq_some_iff.mpr ?_)
      exact (LRUCache.evictFrom_suffix _ _ _).subset (Dict.get?_eq_some_iff.mp hv')
  · rw [hentries, hmax, LRUCache.keys_moveToEnd, List.erase_of_not_mem hout, hkeys]
    exact h.holds.insert hk hfits

/-- What is returned for an item: its data, or what the cache returns in their place, and its
prompt updates under its index. -/
structure Own (P : ProcessorCache Kwargs U V itemSize) (w : ItemsByHash Kwargs U) (h : String)
    (itemIdx : Nat) (out : Processed (Option Kwargs) U) : Prop where
  data : out.1 = some (w.data h) ∨ ∃ updates, out.1 = (P.output (P.store (w.data h, updates))).1
  updates : out.2 = (w.updates h).map fun u => ⟨itemIdx, u⟩

/-- Every item is its own, from index `itemIdx` on. -/
def OwnFrom (P : ProcessorCache Kwargs U V itemSize) (w : ItemsByHash Kwargs U) (itemIdx : Nat)
    (hashes : List String) (outs : List (Processed (Option Kwargs) U)) : Prop :=
  List.Forall₂ (fun p out => Own P w p.1 p.2 out) (hashes.zipIdx itemIdx) outs

/-- Of the hashes `rest`, after `done`, those that were cached at the beginning still are when
their turn comes: the hashes used since their last use fit together with them. -/
def Stays (itemSize : Kwargs → Nat) (w : ItemsByHash Kwargs U) (cap : Nat)
    (cached done rest : List String) : Prop :=
  ∀ j, ∀ h ∈ rest[j]?, h ∈ cached →
    weight (sizeOf itemSize w) (since (cached ++ done ++ rest.take j) h) ≤ cap

/-- The processed data that were supplied, from `missingNextIdx` on, are those of the hashes
that were not cached. -/
structure Supplied (w : ItemsByHash Kwargs U) (cached hashes : List String)
    (missingKwargs : List Kwargs) (missingPromptUpdates : List (List (ResolvedPromptUpdate U)))
    (missingNextIdx : Nat) : Prop where
  kwargs : missingKwargs.drop missingNextIdx = (hashes.filter (· ∉ cached)).map w.data
  updates : (missingPromptUpdates.drop missingNextIdx).map (·.map (·.content)) =
    (hashes.filter (· ∉ cached)).map w.updates

variable {cached done rest hashes : List String} {cap missingNextIdx : Nat}
  {missingKwargs : List Kwargs} {missingPromptUpdates : List (List (ResolvedPromptUpdate U))}

lemma stays_nil : Stays itemSize w cap cached done [] := fun j h hj => by simp at hj

lemma stays_cons : Stays itemSize w cap cached done (mmHash :: rest) ↔
    (mmHash ∈ cached → weight (sizeOf itemSize w) (since (cached ++ done) mmHash) ≤ cap) ∧
      Stays itemSize w cap cached (done ++ [mmHash]) rest := by
  constructor
  · intro h
    refine ⟨fun hmem => by simpa using h 0 mmHash rfl hmem, fun j h' hj hmem => ?_⟩
    simpa using h (j + 1) h' hj hmem
  · rintro ⟨hfirst, hrest⟩ j h' hj hmem
    cases j with
    | zero =>
      obtain rfl := Option.some.inj hj
      simpa using hfirst hmem
    | succ j => simpa using hrest j h' hj hmem

lemma stays_append {l l' : List String} : Stays itemSize w cap cached done (l ++ l') ↔
    Stays itemSize w cap cached done l ∧ Stays itemSize w cap cached (done ++ l) l' := by
  induction l generalizing done with
  | nil => simp [stays_nil]
  | cons a l ih =>
    rw [List.cons_append, stays_cons, stays_cons, ih, and_assoc, List.append_assoc]
    rfl

lemma Supplied.tail (h : Supplied w cached (mmHash :: rest) missingKwargs missingPromptUpdates
    missingNextIdx) (hmem : mmHash ∈ cached) :
    Supplied w cached rest missingKwargs missingPromptUpdates missingNextIdx := by
  have hfilter : (mmHash :: rest).filter (· ∉ cached) = rest.filter (· ∉ cached) :=
    List.filter_cons_of_neg (by simpa using hmem)
  exact ⟨hfilter ▸ h.kwargs, hfilter ▸ h.updates⟩

lemma Supplied.next (h : Supplied w cached (mmHash :: rest) missingKwargs missingPromptUpdates
    missingNextIdx) (hmem : mmHash ∉ cached) :
    ∃ updates, nextMissing missingKwargs missingPromptUpdates false missingNextIdx =
        .ok (some (w.data mmHash, updates), missingNextIdx + 1) ∧
      updates.map (·.content) = w.updates mmHash ∧
      Supplied w cached rest missingKwargs missingPromptUpdates (missingNextIdx + 1) := by
  obtain ⟨hkwargs, hupdates⟩ := h
  rw [List.filter_cons_of_pos (by simpa using hmem), List.map_cons] at hkwargs hupdates
  obtain ⟨updates, others, hdrop, hcontent, hothers⟩ := List.map_eq_cons_iff.mp hupdates
  have hdata := congrArg (·[0]?) hkwargs
  have hnext := congrArg (·[0]?) hdrop
  simp only [List.getElem?_drop, Nat.add_zero, List.getElem?_cons_zero] at hdata hnext
  refine ⟨updates, ?_, hcontent, ?_, ?_⟩
  · rw [nextMissing, if_neg Bool.false_ne_true, pyIndex_eq_ok.mpr hdata, pyIndex_eq_ok.mpr hnext]
    rfl
  · rw [← List.tail_drop, hkwargs, List.tail_cons]
  · rw [← List.tail_drop, hdrop, List.tail_cons, hothers]

lemma Tracks.mergeItem (h : Tracks P w (cached ++ done) c)
    (hfits : sizeOf itemSize w mmHash ≤ c.maxsize)
    (hsup : Supplied w cached (mmHash :: rest) missingKwargs missingPromptUpdates missingNextIdx)
    (hstays : mmHash ∈ cached →
      weight (sizeOf itemSize w) (since (cached ++ done) mmHash) ≤ c.maxsize) (itemIdx : Nat) :
    ∃ item next out c', nextMissing missingKwargs missingPromptUpdates
        (decide (mmHash ∈ cached)) missingNextIdx = .ok (item, next) ∧
      P.getAndUpdateItem c item mmHash = .ok (out, c') ∧
      Supplied w cached rest missingKwargs missingPromptUpdates next ∧
      Own P w mmHash itemIdx (out.1, out.2.map (recomputeCachedPromptUpdate · itemIdx)) ∧
      Tracks P w (cached ++ (done ++ [mmHash])) c' ∧ c'.maxsize = c.maxsize := by
  have hrecompute : ∀ updates : List (ResolvedPromptUpdate U),
      updates.map (·.content) = w.updates mmHash →
      updates.map (recomputeCachedPromptUpdate · itemIdx) =
        (w.updates mmHash).map fun u => ⟨itemIdx, u⟩ := by
    intro updates hcontent
    rw [← hcontent, List.map_map]
    rfl
  have hhit : ∀ item, mmHash ∈ c.entries.keys → ∃ out c',
      P.getAndUpdateItem c item mmHash = .ok (out, c') ∧
      Own P w mmHash itemIdx (out.1, out.2.map (recomputeCachedPromptUpdate · itemIdx)) ∧
      Tracks P w (cached ++ (done ++ [mmHash])) c' ∧ c'.maxsize = c.maxsize := by
    intro item hk
    obtain ⟨updates, c', hrun, hcontent, htracks, hmax⟩ := h.hit hk item
    rw [List.append_assoc] at htracks
    refine ⟨_, c', hrun, ⟨Or.inr ⟨updates, rfl⟩, ?_⟩, htracks, hmax⟩
    rw [P.updates_store]
    exact hrecompute updates hcontent
  by_cases hmem : mmHash ∈ cached
  · have hk := (h.holds.mem_iff (List.mem_append_left done hmem)).mpr (hstays hmem)
    obtain ⟨out, c', hrun, hown, htracks, hmax⟩ := hhit none hk
    exact ⟨none, missingNextIdx, out, c', if_pos (decide_eq_true hmem), hrun, hsup.tail hmem, hown,
      htracks, hmax⟩
  · obtain ⟨updates, hnext, hcontent, hsup'⟩ := hsup.next hmem
    rw [← decide_eq_false hmem] at hnext
    by_cases hk : mmHash ∈ c.entries.keys
    · obtain ⟨out, c', hrun, hown, htracks, hmax⟩ := hhit (some (w.data mmHash, updates)) hk
      exact ⟨_, _, out, c', hnext, hrun, hsup', hown, htracks, hmax⟩
    · obtain ⟨c', hrun, htracks, hmax⟩ := h.insert hk hfits hcontent
      rw [List.append_assoc] at htracks
      exact ⟨_, _, _, c', hnext, hrun, hsup', ⟨Or.inl rfl, hrecompute updates hcontent⟩, htracks,
        hmax⟩

/-- The loop over the items of a modality succeeds with their own data when the cached ones
stay, and else with an assertion error. -/
lemma Tracks.mergeItems (h : Tracks P w (cached ++ done) c) (hcap : c.maxsize = cap)
    (hfits : ∀ h ∈ hashes, sizeOf itemSize w h ≤ cap)
    (hsup : Supplied w cached hashes missingKwargs missingPromptUpdates missingNextIdx)
    (itemIdx : Nat) :
    (Stays itemSize w cap cached done hashes → ∃ outs c',
      P.mergeItems missingKwargs missingPromptUpdates
        (hashes.map fun h => (h, decide (h ∈ cached))) itemIdx missingNextIdx c = .ok (outs, c') ∧
      OwnFrom P w itemIdx hashes outs ∧ Tracks P w (cached ++ (done ++ hashes)) c' ∧
      c'.maxsize = cap) ∧
    (¬ Stays itemSize w cap cached done hashes →
      P.mergeItems missingKwargs missingPromptUpdates
        (hashes.map fun h => (h, decide (h ∈ cached))) itemIdx missingNextIdx c =
          .error .assertionError) := by
  induction hashes generalizing done c itemIdx missingNextIdx with
  | nil =>
    refine ⟨fun _ => ⟨[], c, rfl, .nil, by rwa [List.append_nil], hcap⟩, fun hno => ?_⟩
    exact absurd stays_nil hno
  | cons a hashes ih =>
    rw [stays_cons, List.map_cons, ProcessorCache.mergeItems]
    by_cases hfirst : a ∈ cached → weight (sizeOf itemSize w) (since (cached ++ done) a) ≤ cap
    · obtain ⟨item, next, out, c₁, hnext, hrun, hsup', hown, htracks, hmax⟩ :=
        h.mergeItem (hcap ▸ hfits a List.mem_cons_self) hsup (hcap ▸ hfirst) itemIdx
      rw [hnext, ok_bind]
      dsimp only
      rw [hrun, ok_bind]
      dsimp only
      obtain ⟨hok, herr⟩ := ih htracks (hmax.trans hcap)
        (fun b hb => hfits b (List.mem_cons_of_mem a hb)) hsup' (itemIdx + 1)
      constructor
      · rintro ⟨-, hrest⟩
        obtain ⟨outs, c₂, hloop, howns, htracks₂, hmax₂⟩ := hok hrest
        rw [hloop, ok_bind]
        refine ⟨_, c₂, rfl, .cons hown howns, ?_, hmax₂⟩
        rwa [List.append_assoc] at htracks₂
      · intro hno
        rw [herr fun hrest => hno ⟨hfirst, hrest⟩]
        rfl
    · refine ⟨fun hstays => absurd hstays.1 hfirst, fun _ => ?_⟩
      obtain ⟨hmem, hover⟩ := Classical.not_imp.mp hfirst
      have hk : a ∉ c.entries.keys := fun hk =>
        hover (hcap ▸ (h.holds.mem_iff (List.mem_append_left done hmem)).mp hk)
      rw [nextMissing, if_pos (decide_eq_true hmem), ok_bind]
      dsimp only
      rw [getAndUpdateItem_missing hk]
      rfl

/-- The same over the modalities, each of which has its own missing data. -/
lemma Tracks.mergeHashes {mmHashes : List (String × List String)}
    {mmMissingKwargs : String → List Kwargs}
    {mmMissingPromptUpdates : String → List (List (ResolvedPromptUpdate U))}
    (h : Tracks P w (cached ++ done) c) (hcap : c.maxsize = cap)
    (hfits : ∀ p ∈ mmHashes, ∀ h ∈ p.2, sizeOf itemSize w h ≤ cap)
    (hsup : ∀ p ∈ mmHashes, Supplied w cached p.2 (mmMissingKwargs p.1)
      (mmMissingPromptUpdates p.1) 0) :
    (Stays itemSize w cap cached done (mmHashes.flatMap Prod.snd) → ∃ outs c',
      P.mergeHashes mmMissingKwargs mmMissingPromptUpdates
        (mmHashes.map fun p => (p.1, p.2.map fun h => (h, decide (h ∈ cached)))) c =
          .ok (outs, c') ∧
      List.Forall₂ (fun p out => out.1 = p.1 ∧ OwnFrom P w 0 p.2 out.2) mmHashes outs) ∧
    (¬ Stays itemSize w cap cached done (mmHashes.flatMap Prod.snd) →
      P.mergeHashes mmMissingKwargs mmMissingPromptUpdates
        (mmHashes.map fun p => (p.1, p.2.map fun h => (h, decide (h ∈ cached)))) c =
          .error .assertionError) := by
  induction mmHashes generalizing done c with
  | nil => exact ⟨fun _ => ⟨[], c, rfl, .nil⟩, fun hno => absurd stays_nil hno⟩
  | cons p mmHashes ih =>
    obtain ⟨hok, herr⟩ := h.mergeItems hcap (hfits p List.mem_cons_self)
      (hsup p List.mem_cons_self) 0
    rw [List.flatMap_cons, stays_append, List.map_cons, ProcessorCache.mergeHashes]
    by_cases hfirst : Stays itemSize w cap cached done p.2
    · obtain ⟨merged, c₁, hloop, hown, htracks, hcap₁⟩ := hok hfirst
      obtain ⟨hoks, herrs⟩ := ih htracks hcap₁ (fun q hq => hfits q (List.mem_cons_of_mem p hq))
        fun q hq => hsup q (List.mem_cons_of_mem p hq)
      rw [hloop, ok_bind]
      dsimp only
      constructor
      · rintro ⟨-, hrest⟩
        obtain ⟨others, c₂, hloops, howns⟩ := hoks hrest
        rw [hloops]
        exact ⟨_, c₂, rfl, .cons ⟨rfl, hown⟩ howns⟩
      · intro hno
        rw [herrs fun hrest => hno ⟨hfirst, hrest⟩]
        rfl
    · refine ⟨fun hstays => absurd hstays.1 hfirst, fun _ => ?_⟩
      rw [herr hfirst]
      rfl

lemma Consistent.tracks (h : P.Consistent w c) : Tracks P w (c.entries.keys ++ []) c where
  consistent := h
  holds := by
    rw [List.append_nil]
    refine Holds.start c.entries.nodup ?_
    have hsizes : weight (sizeOf itemSize w) c.entries.keys = c.entries.sumBy P.getsizeof := by
      rw [weight, Dict.keys, List.map_map]
      refine congrArg List.sum (List.map_congr_left fun p hp => ?_)
      exact (h.size (Dict.get?_eq_some_iff.mpr hp)).symm
    exact hsizes ▸ c.fits

/-- The prompt updates of the items, each under its own index. -/
def ownUpdates (w : ItemsByHash Kwargs U) (hashes : List String) :
    List (List (ResolvedPromptUpdate U)) :=
  hashes.zipIdx.map fun p => (w.updates p.1).map fun u => ⟨p.2, u⟩

/-- The items of a request as its cache finds and takes them: each fits, and the data of those
that are missing at the beginning are supplied in their order. -/
structure Prepared (P : ProcessorCache Kwargs U V itemSize) (w : ItemsByHash Kwargs U)
    (c : LRUCache String V P.getsizeof) (mmHashes : Dict String (List String))
    (mmMissingKwargs : String → List Kwargs)
    (mmMissingPromptUpdates : String → List (List (ResolvedPromptUpdate U))) : Prop where
  consistent : P.Consistent w c
  fits : ∀ p ∈ mmHashes.entries, ∀ h ∈ p.2, sizeOf itemSize w h ≤ c.maxsize
  supplied : ∀ p ∈ mmHashes.entries, Supplied w c.entries.keys p.2 (mmMissingKwargs p.1)
    (mmMissingPromptUpdates p.1) 0

/-- The items that are cached at the beginning stay until their turn. -/
def CachedStay (P : ProcessorCache Kwargs U V itemSize) (w : ItemsByHash Kwargs U)
    (c : LRUCache String V P.getsizeof) (mmHashes : Dict String (List String)) : Prop :=
  Stays itemSize w c.maxsize c.entries.keys [] (mmHashes.entries.flatMap Prod.snd)

variable {mmHashes : Dict String (List String)} {mmMissingKwargs : String → List Kwargs}
  {mmMissingPromptUpdates : String → List (List (ResolvedPromptUpdate U))}

lemma Prepared.mergeMmKwargs (h : Prepared P w c mmHashes mmMissingKwargs mmMissingPromptUpdates) :
    (CachedStay P w c mmHashes → ∃ outs c',
      P.mergeMmKwargs c mmHashes mmMissingKwargs mmMissingPromptUpdates = .ok (outs, c') ∧
      List.Forall₂ (fun p out => out.1 = p.1 ∧ OwnFrom P w 0 p.2 out.2) mmHashes.entries outs) ∧
    (¬ CachedStay P w c mmHashes →
      P.mergeMmKwargs c mmHashes mmMissingKwargs mmMissingPromptUpdates =
        .error .assertionError) :=
  h.consistent.tracks.mergeHashes rfl h.fits h.supplied

lemma OwnFrom.updates {itemIdx : Nat} {outs : List (Processed (Option Kwargs) U)}
    (h : OwnFrom P w itemIdx hashes outs) :
    outs.map Prod.snd = (hashes.zipIdx itemIdx).map fun p => (w.updates p.1).map fun u =>
      ⟨p.2, u⟩ := by
  rw [← List.forall₂_eq_eq_eq, List.forall₂_map_left_iff, List.forall₂_map_right_iff]
  exact h.flip.imp fun _ _ hown => hown.updates

/-- The data and the prompt updates of the items, each under its own index. -/
def ownItems (w : ItemsByHash Kwargs U) (hashes : List String) :
    List (Processed (Option Kwargs) U) :=
  hashes.zipIdx.map fun p => (some (w.data p.1), (w.updates p.1).map fun u => ⟨p.2, u⟩)

lemma OwnFrom.items {outs : List (Processed (Option Kwargs) U)}
    (h : OwnFrom (processorOnlyCache U itemSize) w 0 hashes outs) : outs = ownItems w hashes := by
  rw [ownItems, ← List.forall₂_eq_eq_eq, List.forall₂_map_right_iff]
  refine h.flip.imp fun out p hown => Prod.ext ?_ hown.updates
  rcases hown.data with hdata | ⟨updates, hdata⟩
  · exact hdata
  · exact hdata

end ProcessorCache

open ProcessorCache

/-- Merging returns for every item its own prompt updates, and its own data where the cache
holds them, exactly when the items that are cached at the beginning stay until their turn. -/
theorem mergeMmKwargs_own_iff {w : ItemsByHash Kwargs U} {mmHashes : Dict String (List String)}
    {mmMissingKwargs : String → List Kwargs}
    {mmMissingPromptUpdates : String → List (List (ResolvedPromptUpdate U))}
    {c : LRUCache String (Processed Kwargs U) (processorOnlyCache U itemSize).getsizeof}
    {s : LRUCache String (CacheItemMetadata (List (ResolvedPromptUpdate U)))
      (processorSenderCache U itemSize).getsizeof} :
    (Prepared (processorOnlyCache U itemSize) w c mmHashes mmMissingKwargs
        mmMissingPromptUpdates →
      ((∃ c', (processorOnlyCache U itemSize).mergeMmKwargs c mmHashes mmMissingKwargs
          mmMissingPromptUpdates = .ok (mmHashes.entries.map fun p => (p.1, ownItems w p.2), c')) ↔
        CachedStay (processorOnlyCache U itemSize) w c mmHashes)) ∧
    (Prepared (processorSenderCache U itemSize) w s mmHashes mmMissingKwargs
        mmMissingPromptUpdates →
      ((∃ outs s', (processorSenderCache U itemSize).mergeMmKwargs s mmHashes mmMissingKwargs
          mmMissingPromptUpdates = .ok (outs, s') ∧
          (outs.map fun out => (out.1, out.2.map Prod.snd)) =
            mmHashes.entries.map fun p => (p.1, ownUpdates w p.2)) ↔
        CachedStay (processorSenderCache U itemSize) w s mmHashes)) := by
  constructor
  · intro h
    obtain ⟨hok, herr⟩ := h.mergeMmKwargs
    refine ⟨fun hrun => ?_, fun hstay => ?_⟩
    · obtain ⟨c', hrun⟩ := hrun
      by_contra hno
      exact nomatch (herr hno).symm.trans hrun
    · obtain ⟨outs, c', hrun, hown⟩ := hok hstay
      have houts : outs = mmHashes.entries.map fun p => (p.1, ownItems w p.2) := by
        rw [← List.forall₂_eq_eq_eq, List.forall₂_map_right_iff]
        exact hown.flip.imp fun _ _ h => Prod.ext h.1 h.2.items
      exact ⟨c', houts ▸ hrun⟩
  · intro h
    obtain ⟨hok, herr⟩ := h.mergeMmKwargs
    refine ⟨fun hrun => ?_, fun hstay => ?_⟩
    · obtain ⟨outs, s', hrun, -⟩ := hrun
      by_contra hno
      exact nomatch (herr hno).symm.trans hrun
    · obtain ⟨outs, s', hrun, hown⟩ := hok hstay
      refine ⟨outs, s', hrun, ?_⟩
      rw [← List.forall₂_eq_eq_eq, List.forall₂_map_left_iff, List.forall₂_map_right_iff]
      exact hown.flip.imp fun _ _ h => Prod.ext h.1 h.2.updates

/-- Items of size one, and caches of size one that hold the item `"a"`. -/
def unitItems : ItemsByHash Unit Unit := ⟨fun _ => (), fun _ => [()]⟩

def onlyA : LRUCache String (Processed Unit Unit)
    (processorOnlyCache Unit fun _ => 1).getsizeof :=
  ⟨⟨[("a", ((), [⟨0, ()⟩]))], by decide⟩, 1, by decide⟩

def senderA : LRUCache String (CacheItemMetadata (List (ResolvedPromptUpdate Unit)))
    (processorSenderCache Unit fun _ : Unit => 1).getsizeof :=
  ⟨⟨[("a", ⟨1, [⟨0, ()⟩]⟩)], by decide⟩, 1, by decide⟩

def images (hashes : List String) : Dict String (List String) := ⟨[("image", hashes)], by simp⟩

lemma prepared_images {V : Type} {P : ProcessorCache Unit Unit V fun _ => 1}
    {c : LRUCache String V P.getsizeof}
    (hentries : c.entries.entries = [("a", P.store (unitItems.data "a", [⟨0, ()⟩]))])
    (hmax : c.maxsize = 1) (hashes : List String)
    (hmissing : hashes.filter (· ∉ ["a"]) = ["b"]) :
    Prepared P unitItems c (images hashes) (fun _ => [()]) fun _ => [[⟨0, ()⟩]] where
  consistent h v hv := by
    have hmem := Dict.get?_eq_some_iff.mp hv
    rw [hentries] at hmem
    obtain ⟨rfl, rfl⟩ := Prod.ext_iff.mp (List.mem_singleton.mp hmem)
    exact ⟨_, rfl, rfl⟩
  fits _ _ _ _ := hmax.ge
  supplied p hp := by
    obtain rfl := List.mem_singleton.mp hp
    have hkeys : c.entries.keys = ["a"] := congrArg (List.map Prod.fst) hentries
    rw [hkeys]
    exact ⟨(congrArg (List.map unitItems.data) hmissing).symm,
      (congrArg (List.map unitItems.updates) hmissing).symm⟩

/-- When `"a"` comes before `"b"`, it still is cached. -/
theorem mergeMmKwargs_own_iff_hit_first :
    ((∃ c', (processorOnlyCache Unit fun _ => 1).mergeMmKwargs onlyA (images ["a", "b"])
        (fun _ => [()]) (fun _ => [[⟨0, ()⟩]]) =
          .ok ((images ["a", "b"]).entries.map fun p => (p.1, ownItems unitItems p.2), c')) ↔
      CachedStay (processorOnlyCache Unit fun _ => 1) unitItems onlyA (images ["a", "b"])) ∧
    ((∃ outs s', (processorSenderCache Unit fun _ => 1).mergeMmKwargs senderA (images ["a", "b"])
        (fun _ => [()]) (fun _ => [[⟨0, ()⟩]]) = .ok (outs, s') ∧
        (outs.map fun out => (out.1, out.2.map Prod.snd)) =
          (images ["a", "b"]).entries.map fun p => (p.1, ownUpdates unitItems p.2)) ↔
      CachedStay (processorSenderCache Unit fun _ => 1) unitItems senderA (images ["a", "b"])) :=
  ⟨mergeMmKwargs_own_iff (s := senderA).1 (prepared_images rfl rfl ["a", "b"] rfl),
    mergeMmKwargs_own_iff (c := onlyA).2 (prepared_images rfl rfl ["a", "b"] rfl)⟩

/-- When `"b"` comes first, it evicts `"a"`, which was counted as cached. -/
theorem not_merged_miss_first :
    Prepared (processorOnlyCache Unit fun _ => 1) unitItems onlyA (images ["b", "a"])
      (fun _ => [()]) (fun _ => [[⟨0, ()⟩]]) ∧
    (processorOnlyCache Unit fun _ => 1).mergeMmKwargs onlyA (images ["b", "a"]) (fun _ => [()])
      (fun _ => [[⟨0, ()⟩]]) = .error .assertionError ∧
    Prepared (processorSenderCache Unit fun _ => 1) unitItems senderA (images ["b", "a"])
      (fun _ => [()]) (fun _ => [[⟨0, ()⟩]]) ∧
    (processorSenderCache Unit fun _ => 1).mergeMmKwargs senderA (images ["b", "a"])
      (fun _ => [()]) (fun _ => [[⟨0, ()⟩]]) = .error .assertionError :=
  ⟨prepared_images rfl rfl ["b", "a"] rfl, rfl, prepared_images rfl rfl ["b", "a"] rfl, rfl⟩

end VllmV1.Multimodal
