import Mathlib.Algebra.Order.BigOperators.Group.List
import Mathlib.Data.List.Dedup
import VllmMmaEmu.KvCache.LayerSpecs
import VllmMmaEmu.Library.Columns

/-!
# The layout of the KV cache on the workers

`get_kv_cache_configs` splits the layers of all workers into groups and lays out the layers of
each worker in tensors: no layer is left out or laid out twice, and the tensors fit into the
memory of the worker.
-/

namespace VllmV1.Interface

open Python Columns

variable {config : VllmConfig} {kvCacheSpec merged : LayerSpecs} {groups : List KVCacheGroupSpec}

def layersOf (groups : List KVCacheGroupSpec) : List String := groups.flatMap (·.layerNames)

/-- A layer is added to those of its spec, or to the specs. -/
lemma setEntry_append_perm {K : Type*} [DecidableEq K] (l : List (K × List String)) (k : K)
    (x : String) :
    ((Dict.setEntry l k ((Dict.lookupEntry l k).getD [] ++ [x])).flatMap Prod.snd).Perm
      (x :: l.flatMap Prod.snd) := by
  induction l with
  | nil => exact List.Perm.refl _
  | cons p rest ih =>
    obtain ⟨a, w⟩ := p
    rw [Dict.setEntry, Dict.lookupEntry]
    split_ifs
    · rw [List.flatMap_cons, List.flatMap_cons, Option.getD_some, List.append_assoc]
      exact List.perm_middle
    · rw [List.flatMap_cons, List.flatMap_cons]
      exact (ih.append_left w).trans List.perm_middle

lemma sameTypeLayers_perm (kvCacheSpec : LayerSpecs) :
    (sameTypeLayers kvCacheSpec).values.flatten.Perm kvCacheSpec.keys := by
  have hfold : ∀ (l : List (String × KVCacheSpec)) (d : Dict KVCacheSpec (List String)),
      ((l.foldl (fun d p => d.set p.2 ((d.get? p.2).getD [] ++ [p.1])) d).entries.flatMap
          Prod.snd).Perm (d.entries.flatMap Prod.snd ++ l.map Prod.fst) := by
    intro l
    induction l with
    | nil =>
      intro d
      rw [List.map_nil, List.append_nil]
      exact List.Perm.refl _
    | cons p rest ih =>
      intro d
      refine (ih _).trans ?_
      refine ((setEntry_append_perm d.entries p.2 p.1).append_right _).trans ?_
      exact List.perm_middle.symm
  rw [Dict.values, ← List.flatMap_def]
  exact hfold kvCacheSpec.entries Dict.empty

lemma mem_setEntry {K V : Type*} [DecidableEq K] {l : List (K × V)} {k : K} {v : V} {p : K × V}
    (hp : p ∈ Dict.setEntry l k v) : p = (k, v) ∨ p ∈ l := by
  induction l with
  | nil => exact Or.inl (List.mem_singleton.mp hp)
  | cons q rest ih =>
    rw [Dict.setEntry] at hp
    split_ifs at hp
    · rcases List.mem_cons.mp hp with rfl | hp
      · exact Or.inl rfl
      · exact Or.inr (List.mem_cons_of_mem q hp)
    · rcases List.mem_cons.mp hp with rfl | hp
      · exact Or.inr List.mem_cons_self
      · exact (ih hp).imp id (List.mem_cons_of_mem q)

lemma sameTypeLayers_ne_nil (kvCacheSpec : LayerSpecs) :
    ∀ layers ∈ (sameTypeLayers kvCacheSpec).values, layers ≠ [] := by
  have hfold : ∀ (l : List (String × KVCacheSpec)) (d : Dict KVCacheSpec (List String)),
      (∀ p ∈ d.entries, p.2 ≠ []) →
      ∀ p ∈ (l.foldl (fun d p => d.set p.2 ((d.get? p.2).getD [] ++ [p.1])) d).entries,
        p.2 ≠ [] := by
    intro l
    induction l with
    | nil => exact fun d hd => hd
    | cons q rest ih =>
      refine fun d hd => ih _ fun p hp => ?_
      rcases mem_setEntry hp with rfl | hp
      · simp
      · exact hd p hp
  intro layers hlayers
  obtain ⟨p, hp, rfl⟩ := List.mem_map.mp hlayers
  exact hfold kvCacheSpec.entries Dict.empty (by simp [Dict.empty]) p hp

lemma minGroupSize_pos {groupSize : Nat}
    (h : minGroupSize (sameTypeLayers kvCacheSpec).values = .ok groupSize) : 0 < groupSize := by
  unfold minGroupSize at h
  split at h
  · cases h
  · rename_i size hmin
    obtain rfl := Except.ok.inj h
    obtain ⟨layers, hlayers, rfl⟩ := List.mem_map.mp (List.min?_mem hmin)
    exact List.length_pos_of_ne_nil (sameTypeLayers_ne_nil kvCacheSpec layers hlayers)

lemma createKvCacheGroupSpecs_names {grouped : List (List String)}
    (h : createKvCacheGroupSpecs kvCacheSpec grouped = .ok groups) :
    groups.map (·.layerNames) = grouped ∧
      ∀ g ∈ groups, ∃ spec, g.kvCacheSpec = .one spec := by
  have hall := forall₂_of_mapM h
  clear h
  induction hall with
  | nil => exact ⟨rfl, fun g hg => nomatch hg⟩
  | cons hx _ ih =>
    obtain ⟨specs, -, hx⟩ := bind_eq_ok.mp hx
    obtain ⟨spec, -, hx⟩ := bind_eq_ok.mp hx
    obtain rfl := Except.ok.inj hx
    refine ⟨by rw [List.map_cons, ih.1], fun g hg => ?_⟩
    rcases List.mem_cons.mp hg with rfl | hg
    · exact ⟨spec, rfl⟩
    · exact ih.2 g hg

lemma everyNth_eq (layers : List String) (i n : Nat) :
    everyNth layers i n = stride layers i n := rfl

lemma layersOf_of_names {grouped : List (List String)}
    (h : groups.map (·.layerNames) = grouped) : layersOf groups = grouped.flatten := by
  rw [layersOf, List.flatMap_def, h]

/-- The specs from which a worker's pages are sized have the pages of the layers' own specs. -/
def SamePages (specs kvCacheSpec : LayerSpecs) : Prop :=
  ∀ layerName, ∀ spec ∈ kvCacheSpec.get? layerName,
    ∃ spec' ∈ specs.get? layerName, spec'.pageSizeBytes = spec.pageSizeBytes

/-- The groups of the whole model: every layer is in one of them, and a group of layers with
different sizes is the only one. -/
structure Grouped (merged : LayerSpecs) (groups : List KVCacheGroupSpec) : Prop where
  layers : (layersOf groups).Perm merged.keys
  uniformType : ∀ g ∈ groups, ∀ specs, g.kvCacheSpec = .uniformType specs →
    g.layerNames = specs.keys ∧ SamePages specs merged

lemma toFullAttention_pageSizeBytes (spec : KVCacheSpec) :
    spec.toFullAttention.pageSizeBytes = spec.pageSizeBytes := by
  cases spec <;> rfl

lemma mapSpecs_keys (f : KVCacheSpec → KVCacheSpec) (specs : LayerSpecs) :
    (mapSpecs f specs).keys = specs.keys := by
  rw [Dict.keys, Dict.keys, mapSpecs, List.map_map]
  rfl

lemma mapSpecs_get? (f : KVCacheSpec → KVCacheSpec) (specs : LayerSpecs) (layerName : String) :
    (mapSpecs f specs).get? layerName = (specs.get? layerName).map f := by
  have hentries : ∀ l : List (String × KVCacheSpec),
      Dict.lookupEntry (l.map fun p => (p.1, f p.2)) layerName =
        (Dict.lookupEntry l layerName).map f := by
    intro l
    induction l with
    | nil => rfl
    | cons p rest ih =>
      rw [List.map_cons, Dict.lookupEntry, Dict.lookupEntry, ih]
      split_ifs <;> rfl
  exact hentries specs.entries

lemma unifyHybridKvCacheSpecs_keeps {unified : LayerSpecs}
    (h : unifyHybridKvCacheSpecs merged = .ok unified) :
    unified.keys = merged.keys ∧ SamePages unified merged := by
  have hself : SamePages merged merged := fun _ spec hspec => ⟨spec, hspec, rfl⟩
  have hfull : SamePages (mapSpecs KVCacheSpec.toFullAttention merged) merged := by
    intro layerName spec hspec
    refine ⟨spec.toFullAttention, ?_, toFullAttention_pageSizeBytes spec⟩
    rw [Option.mem_def, mapSpecs_get?, Option.mem_def.mp hspec]
    rfl
  obtain ⟨uniform, -, h⟩ := bind_eq_ok.mp h
  split at h
  · obtain rfl := Except.ok.inj h
    exact ⟨rfl, hself⟩
  · obtain ⟨uniform', -, h⟩ := bind_eq_ok.mp h
    split at h
    · obtain rfl := Except.ok.inj h
      split_ifs
      · exact ⟨mapSpecs_keys _ _, hfull⟩
      · exact ⟨rfl, hself⟩
    · cases h

lemma uniformPageSize_perm {groupSize : Nat} (h : 0 < groupSize) (layersOfType : List (List String)) :
    (layersOfType.flatMap fun layers =>
      let numGroups := (cdiv layers.length groupSize).toNat
      (List.range numGroups).map fun i => everyNth layers i numGroups).flatten.Perm
        layersOfType.flatten := by
  induction layersOfType with
  | nil => exact List.Perm.refl _
  | cons layers rest ih =>
    rw [List.flatMap_cons, List.flatten_append, List.flatten_cons]
    refine List.Perm.append ?_ ih
    dsimp only
    rw [← List.flatMap_def]
    rcases layers.length.eq_zero_or_pos with hzero | hpos
    · rw [List.length_eq_zero_iff.mp hzero]
      refine List.Perm.of_eq (List.flatMap_eq_nil_iff.mpr fun i _ => ?_)
      rw [everyNth_eq, stride, List.drop_nil]
      rfl
    · refine flatMap_stride_perm layers ?_
      have hsize : (0 : Int) < groupSize := Int.natCast_pos.mpr h
      have hmul : 0 < cdiv layers.length groupSize * groupSize :=
        (Int.natCast_pos.mpr hpos).trans_le (le_cdiv_mul hsize)
      exact Int.lt_toNat.mpr ((mul_pos_iff_of_pos_right hsize).mp hmul)

lemma grouped_of_unified (config : VllmConfig) {unified : LayerSpecs} (hkeys : unified.keys = merged.keys)
    (hpages : SamePages unified merged)
    (h : getKvCacheGroups { config with disableHybridKvCacheManager := false } unified =
      .ok groups) : Grouped merged groups := by
  unfold getKvCacheGroups at h
  dsimp only at h
  rw [if_neg Bool.false_ne_true, pure_eq, ok_bind] at h
  have hone : ∀ {grouped}, createKvCacheGroupSpecs unified grouped = .ok groups →
      grouped.flatten.Perm unified.keys → Grouped merged groups := by
    intro grouped hcreate hperm
    obtain ⟨hnames, hspecs⟩ := createKvCacheGroupSpecs_names hcreate
    refine ⟨?_, fun g hg specs hspec => ?_⟩
    · rw [layersOf_of_names hnames, ← hkeys]
      exact hperm
    · obtain ⟨spec, hone⟩ := hspecs g hg
      rw [hone] at hspec
      cases hspec
  split at h
  · rename_i hempty
    obtain rfl := Except.ok.inj h
    refine ⟨?_, fun g hg => nomatch hg⟩
    rw [← hkeys, Dict.keys, hempty]
    exact List.Perm.refl _
  · obtain ⟨uniform, -, h⟩ := bind_eq_ok.mp h
    split at h
    · exact hone h (by rw [List.flatten_singleton])
    · obtain ⟨uniformType, -, h⟩ := bind_eq_ok.mp h
      split at h
      · obtain rfl := Except.ok.inj h
        refine ⟨?_, fun g hg specs hspec => ?_⟩
        · rw [← hkeys]
          exact List.Perm.of_eq (List.append_nil _)
        · obtain rfl := List.mem_singleton.mp hg
          cases hspec
          exact ⟨rfl, hpages⟩
      · split at h
        · obtain ⟨groupSize, hsize, h⟩ := bind_eq_ok.mp h
          refine hone h ?_
          exact (uniformPageSize_perm (minGroupSize_pos hsize) _).trans (sameTypeLayers_perm unified)
        · cases h

lemma getKvCacheGroups_grouped (h : getKvCacheGroups config merged = .ok groups) :
    Grouped merged groups := by
  unfold getKvCacheGroups at h
  dsimp only at h
  split at h
  · obtain ⟨unified, hunified, h⟩ := bind_eq_ok.mp h
    obtain ⟨hkeys, hpages⟩ := unifyHybridKvCacheSpecs_keeps hunified
    exact grouped_of_unified config hkeys hpages h
  · exact grouped_of_unified config rfl (fun _ spec hspec => ⟨spec, hspec, rfl⟩) h

lemma mergeLayers_get? {layers : List (String × KVCacheSpec)} {d : LayerSpecs}
    (h : layers.foldlM mergeLayer d = .ok merged) :
    (∀ layerName, ∀ spec ∈ d.get? layerName, spec ∈ merged.get? layerName) ∧
      ∀ layer ∈ layers, layer.2 ∈ merged.get? layer.1 := by
  induction layers generalizing d with
  | nil =>
    obtain rfl := Except.ok.inj h
    exact ⟨fun _ _ hspec => hspec, fun _ hlayer => nomatch hlayer⟩
  | cons layer layers ih =>
    rw [List.foldlM_cons] at h
    obtain ⟨d₁, hlayer, hrest⟩ := bind_eq_ok.mp h
    obtain ⟨hkeep, hall⟩ := ih hrest
    obtain ⟨hold, hnew⟩ : (∀ layerName, ∀ spec ∈ d.get? layerName, spec ∈ d₁.get? layerName) ∧
        layer.2 ∈ d₁.get? layer.1 := by
      unfold mergeLayer at hlayer
      split at hlayer
      · rename_i hnone
        obtain rfl := Except.ok.inj hlayer
        refine ⟨fun layerName spec hspec => ?_, Dict.get?_set_self _ _ _⟩
        have hne : layer.1 ≠ layerName := by
          rintro rfl
          rw [hnone] at hspec
          cases hspec
        rwa [Option.mem_def, Dict.get?_set_of_ne hne]
      · rename_i spec hsome
        obtain ⟨_, hsame, hlayer⟩ := bind_eq_ok.mp hlayer
        obtain rfl := Except.ok.inj hlayer
        exact ⟨fun _ _ hspec => hspec, hsome.trans (congrArg some (pyAssert_eq_ok.mp hsame))⟩
    refine ⟨fun layerName spec hspec => hkeep layerName spec (hold layerName spec hspec), ?_⟩
    intro other hother
    rcases List.mem_cons.mp hother with rfl | hother
    · exact hkeep _ _ hnew
    · exact hall other hother

lemma groupsOfWorker_layers (h : (layersOf groups).Perm merged.keys)
    (hsub : ∀ layerName ∈ kvCacheSpec.keys, layerName ∈ merged.keys) :
    (layersOf (groupsOfWorker groups kvCacheSpec)).Perm kvCacheSpec.keys := by
  have hfilter : layersOf (groupsOfWorker groups kvCacheSpec) =
      (layersOf groups).filter (· ∈ kvCacheSpec.keys) := by
    rw [layersOf, layersOf, groupsOfWorker, List.flatMap_map, List.filter_flatMap]
  rw [hfilter]
  refine (h.filter _).trans ((List.perm_ext_iff_of_nodup ?_ kvCacheSpec.keys_nodup).mpr ?_)
  · exact merged.keys_nodup.filter _
  · intro layerName
    rw [List.mem_filter, decide_eq_true_eq]
    exact ⟨And.right, fun hmem => ⟨hsub layerName hmem, hmem⟩⟩

/-- What the configuration of a worker is for: the groups, and the tensors, have each layer of
the worker once; no tensor has two layers of a group; the tensors have a page of each of their
layers for every block; and, unless the number of blocks is overridden, they fit into the
memory. A worker without layers has no tensors. -/
structure Layout (config : VllmConfig) (kvCacheSpec : LayerSpecs) (availableMemory : Int)
    (c : KVCacheConfig) : Prop where
  grouped : (c.kvCacheGroups.flatMap (·.layerNames)).Perm kvCacheSpec.keys
  shared : (c.kvCacheTensors.flatMap (·.sharedBy)).Perm kvCacheSpec.keys
  onePerGroup : ∀ t ∈ c.kvCacheTensors, ∀ g ∈ c.kvCacheGroups, ∀ l ∈ t.sharedBy,
    ∀ l' ∈ t.sharedBy, l ∈ g.layerNames → l' ∈ g.layerNames → l = l'
  pages : ∀ t ∈ c.kvCacheTensors, ∀ l ∈ t.sharedBy, ∀ spec ∈ kvCacheSpec.get? l,
    c.numBlocks * spec.pageSizeBytes ≤ t.size
  fits : config.numGpuBlocksOverride = none →
    (c.kvCacheTensors.map (·.size)).sum ≤ availableMemory ∨
      kvCacheSpec.entries = [] ∧ c.kvCacheTensors = []

lemma Layout.lower {availableMemory : Int} {c : KVCacheConfig} {n : Int}
    (h : Layout config kvCacheSpec availableMemory c) (hn : n ≤ c.numBlocks) :
    Layout config kvCacheSpec availableMemory { c with numBlocks := n } where
  grouped := h.grouped
  shared := h.shared
  onePerGroup := h.onePerGroup
  pages t ht l hl spec hspec :=
    (mul_le_mul_of_nonneg_right hn (Int.natCast_nonneg _)).trans (h.pages t ht l hl spec hspec)
  fits := h.fits

lemma group_eq_of_mem (hnodup : (layersOf groups).Nodup) {g g' : KVCacheGroupSpec}
    (hg : g ∈ groups) (hg' : g' ∈ groups) {l : String} (hl : l ∈ g.layerNames)
    (hl' : l ∈ g'.layerNames) : g = g' := by
  induction groups with
  | nil => cases hg
  | cons first rest ih =>
    obtain ⟨-, hrest, hdisjoint⟩ := List.nodup_append'.mp hnodup
    have hapart : ∀ {h : KVCacheGroupSpec}, h ∈ rest → l ∈ h.layerNames →
        l ∉ first.layerNames := fun hh hlh hlf =>
      hdisjoint hlf (List.mem_flatMap.mpr ⟨_, hh, hlh⟩)
    rcases List.mem_cons.mp hg with rfl | hin
    · rcases List.mem_cons.mp hg' with rfl | hin'
      · rfl
      · exact absurd hl (hapart hin' hl')
    · rcases List.mem_cons.mp hg' with rfl | hin'
      · exact absurd hl' (hapart hin hl)
      · exact ih hrest hin hin'

lemma le_maxGroupSize {g : KVCacheGroupSpec} (hg : g ∈ groups) :
    g.layerNames.length ≤ maxGroupSize groups := by
  induction groups with
  | nil => cases hg
  | cons first rest ih =>
    rcases List.mem_cons.mp hg with rfl | hg
    · exact le_max_left _ _
    · exact (ih hg).trans (le_max_right _ _)

lemma sharedTensors_perm (groups : List KVCacheGroupSpec) :
    ((List.range (maxGroupSize groups)).flatMap fun i =>
      groups.filterMap fun g => g.layerNames[i]?).Perm (layersOf groups) := by
  have hsize : ∀ row ∈ groups.map (·.layerNames), row.length ≤ maxGroupSize groups := by
    intro row hrow
    obtain ⟨g, hg, rfl⟩ := List.mem_map.mp hrow
    exact le_maxGroupSize hg
  have hcolumns := columns_perm hsize
  simp only [List.filterMap_map] at hcolumns
  rwa [← List.flatMap_def] at hcolumns

/-- The tensors of a worker whose layers have pages of one size. -/
lemma layout_shared {availableMemory pageSize : Int} {numBlocks : Int}
    (hlayers : (layersOf groups).Perm kvCacheSpec.keys)
    (hpage : ∀ l, ∀ spec ∈ kvCacheSpec.get? l, (spec.pageSizeBytes : Int) = pageSize)
    (hfits : config.numGpuBlocksOverride = none →
      maxGroupSize groups * (pageSize * numBlocks) ≤ availableMemory) :
    Layout config kvCacheSpec availableMemory ⟨numBlocks, (List.range (maxGroupSize groups)).map
      fun i => ⟨pageSize * numBlocks, groups.filterMap fun g => g.layerNames[i]?⟩, groups⟩ where
  grouped := hlayers
  shared := by
    rw [List.flatMap_map]
    exact (sharedTensors_perm groups).trans hlayers
  onePerGroup t ht g hg l hl l' hl' hlg hlg' := by
    obtain ⟨i, -, rfl⟩ := List.mem_map.mp ht
    obtain ⟨g₁, hg₁, hi⟩ := List.mem_filterMap.mp hl
    obtain ⟨g₂, hg₂, hi'⟩ := List.mem_filterMap.mp hl'
    have hnodup := hlayers.nodup_iff.mpr kvCacheSpec.keys_nodup
    obtain rfl := group_eq_of_mem hnodup hg₁ hg (List.mem_of_getElem? hi) hlg
    obtain rfl := group_eq_of_mem hnodup hg₂ hg₁ (List.mem_of_getElem? hi') hlg'
    exact Option.some.inj (hi.symm.trans hi')
  pages t ht l hl spec hspec := by
    obtain ⟨i, -, rfl⟩ := List.mem_map.mp ht
    rw [hpage l spec hspec, mul_comm]
  fits hnone := Or.inl (by simpa [List.map_map, Function.comp_def] using hfits hnone)

/-- The pages of the layers, by name. -/
def pageOf (specs : LayerSpecs) (layerName : String) : Nat :=
  ((specs.get? layerName).map KVCacheSpec.pageSizeBytes).getD 0

lemma pageOf_of_mem {specs : LayerSpecs} {l : String} {spec : KVCacheSpec}
    (h : spec ∈ specs.get? l) : pageOf specs l = spec.pageSizeBytes := by
  rw [pageOf, Option.mem_def.mp h]
  rfl

lemma sum_pageOf (specs : LayerSpecs) :
    (specs.keys.map (pageOf specs)).sum = (GroupSpec.uniformType specs).pageSizeBytes := by
  rw [Dict.keys, GroupSpec.pageSizeBytes, Dict.values, List.map_map, List.map_map]
  refine congrArg List.sum (List.map_congr_left fun p hp => ?_)
  exact pageOf_of_mem (Dict.get?_eq_some_iff.mpr hp)

lemma mul_ediv_le {a : Int} (ha : 0 ≤ a) (b : Int) : b * (a / b) ≤ a := by
  by_cases hb : b = 0
  · rw [hb, zero_mul]
    exact ha
  · exact Int.mul_ediv_self_le hb

lemma sum_sizes {specs : LayerSpecs} {numBlocks : Int} (layerNames : List String) :
    (layerNames.map fun l => (pageOf specs l : Int) * numBlocks).sum =
      ((layerNames.map (pageOf specs)).sum : Nat) * numBlocks := by
  induction layerNames with
  | nil => exact (zero_mul _).symm
  | cons l rest ih =>
    rw [List.map_cons, List.sum_cons, ih, List.map_cons, List.sum_cons, Nat.cast_add, add_mul]

/-- The tensors of a worker whose layers have pages of different sizes, one for each. -/
lemma layout_uniformType {availableMemory numBlocks : Int} {layerNames : List String}
    {specs : LayerSpecs} {tensors : List KVCacheTensor} (hlayers : layerNames.Perm kvCacheSpec.keys)
    (hsub : layerNames.Sublist specs.keys) (hpages : SamePages specs kvCacheSpec)
    (hpos : kvCacheSpec.entries ≠ [] → 0 < availableMemory)
    (hblocks : config.numGpuBlocksOverride = none →
      numBlocks = availableMemory.fdiv (GroupSpec.uniformType specs).pageSizeBytes)
    (htensors : layerNames.mapM (fun layerName => do
      let spec ← specs.getItem layerName
      return (⟨spec.pageSizeBytes * numBlocks, [layerName]⟩ : KVCacheTensor)) = .ok tensors) :
    Layout config kvCacheSpec availableMemory
      ⟨numBlocks, tensors, [⟨layerNames, .uniformType specs⟩]⟩ := by
  have htensors : tensors = layerNames.map fun l => ⟨pageOf specs l * numBlocks, [l]⟩ := by
    have hall := forall₂_of_mapM htensors
    rw [← List.forall₂_eq_eq_eq, List.forall₂_map_right_iff]
    refine hall.flip.imp fun t l ht => ?_
    obtain ⟨spec, hspec, ht⟩ := bind_eq_ok.mp ht
    rw [pageOf_of_mem (Dict.getItem_eq_ok.mp hspec)]
    exact (Except.ok.inj ht).symm
  subst htensors
  constructor
  · exact (List.Perm.of_eq (List.append_nil _)).trans hlayers
  · rw [List.flatMap_map, List.flatMap_singleton']
    exact hlayers
  · intro t ht g _ l hl l' hl' _ _
    obtain ⟨l₀, -, rfl⟩ := List.mem_map.mp ht
    exact (List.mem_singleton.mp hl).trans (List.mem_singleton.mp hl').symm
  · intro t ht l hl spec hspec
    obtain ⟨l₀, -, rfl⟩ := List.mem_map.mp ht
    obtain rfl := List.mem_singleton.mp hl
    obtain ⟨spec', hspec', hsame⟩ := hpages l spec hspec
    rw [pageOf_of_mem hspec', hsame, mul_comm]
  · intro hnone
    by_cases hempty : kvCacheSpec.entries = []
    · have hnil : layerNames = [] := by
        rw [Dict.keys, hempty] at hlayers
        exact hlayers.eq_nil
      exact Or.inr ⟨hempty, by rw [hnil]; rfl⟩
    · have hsum : ((layerNames.map fun l => (⟨pageOf specs l * numBlocks, [l]⟩ : KVCacheTensor)).map
          (·.size)).sum = ((layerNames.map (pageOf specs)).sum : Nat) * numBlocks := by
        rw [List.map_map]
        exact sum_sizes layerNames
      have hle : (layerNames.map (pageOf specs)).sum ≤
          (GroupSpec.uniformType specs).pageSizeBytes :=
        sum_pageOf specs ▸ (hsub.map _).sum_le_sum fun _ _ => Nat.zero_le _
      have hmem := hpos hempty
      rw [hblocks hnone, Int.fdiv_eq_ediv_of_nonneg _ (Int.natCast_nonneg _)] at hsum ⊢
      refine Or.inl (hsum ▸ ?_)
      refine (mul_le_mul_of_nonneg_right (Int.ofNat_le.mpr hle)
        (Int.ediv_nonneg hmem.le (Int.natCast_nonneg _))).trans ?_
      exact mul_ediv_le hmem.le _

lemma getUniformPageSize_spec {pageSize : Nat}
    (h : getUniformPageSize kvCacheSpec = .ok pageSize) : kvCacheSpec.entries ≠ [] ∧
      ∀ l, ∀ spec ∈ kvCacheSpec.get? l, (spec.pageSizeBytes : Int) = pageSize := by
  unfold getUniformPageSize at h
  split at h
  · rename_i size hsizes
    obtain rfl := Except.ok.inj h
    refine ⟨fun hempty => ?_, fun l spec hspec => ?_⟩
    · rw [Dict.values, hempty] at hsizes
      cases hsizes
    · have hmem : spec.pageSizeBytes ∈ (kvCacheSpec.values.map KVCacheSpec.pageSizeBytes).dedup :=
        List.mem_dedup.mpr (List.mem_map_of_mem (List.mem_map.mpr
          ⟨_, Dict.get?_eq_some_iff.mp hspec, rfl⟩))
      rw [hsizes] at hmem
      exact congrArg Nat.cast (List.mem_singleton.mp hmem)
  · cases h

lemma getNumBlocks_fits {numLayers pageSize : Nat} {availableMemory numBlocks : Int}
    (hnone : config.numGpuBlocksOverride = none) (hpos : 0 < availableMemory)
    (h : getNumBlocks config numLayers availableMemory pageSize = .ok numBlocks) :
    numLayers * ((pageSize : Int) * numBlocks) ≤ availableMemory := by
  obtain ⟨pages, hpages, h⟩ := bind_eq_ok.mp h
  obtain ⟨blocks, hblocks, h⟩ := bind_eq_ok.mp h
  unfold floorDiv at hpages hblocks
  split_ifs at hpages hblocks
  obtain rfl := Except.ok.inj hpages
  obtain rfl := Except.ok.inj hblocks
  obtain rfl := Except.ok.inj h
  rw [mayOverrideNumBlocks, hnone, Int.fdiv_eq_ediv_of_nonneg _ (Int.natCast_nonneg _),
    Int.fdiv_eq_ediv_of_nonneg _ (Int.natCast_nonneg _)]
  have hpages : 0 ≤ availableMemory / (pageSize : Int) :=
    Int.ediv_nonneg hpos.le (Int.natCast_nonneg _)
  dsimp only
  rw [max_eq_left (Int.ediv_nonneg hpages (Int.natCast_nonneg _)), mul_left_comm]
  exact (mul_le_mul_of_nonneg_left (mul_ediv_le hpages _) (Int.natCast_nonneg _)).trans
    (mul_ediv_le hpos.le _)

lemma getKvCacheConfigFromGroups_layout {availableMemory : Int} {c : KVCacheConfig}
    (hlayers : (layersOf groups).Perm kvCacheSpec.keys)
    (huniform : ∀ g ∈ groups, ∀ specs, g.kvCacheSpec = .uniformType specs →
      g.layerNames.Sublist specs.keys ∧ SamePages specs kvCacheSpec)
    (hpos : kvCacheSpec.entries ≠ [] → 0 < availableMemory)
    (h : getKvCacheConfigFromGroups config groups kvCacheSpec availableMemory = .ok c) :
    Layout config kvCacheSpec availableMemory c ∧ c.kvCacheGroups = groups := by
  unfold getKvCacheConfigFromGroups at h
  split at h
  · obtain rfl := Except.ok.inj h
    have hempty : kvCacheSpec.entries = [] := List.map_eq_nil_iff.mp hlayers.symm.eq_nil
    exact ⟨⟨hlayers, hlayers, fun _ ht => (nomatch ht), fun _ ht => (nomatch ht),
      fun _ => Or.inr ⟨hempty, rfl⟩⟩, rfl⟩
  · rename_i layerNames specs
    obtain ⟨blocks, hblocks, h⟩ := bind_eq_ok.mp h
    obtain ⟨tensors, htensors, h⟩ := bind_eq_ok.mp h
    obtain ⟨_, -, h⟩ := bind_eq_ok.mp h
    obtain rfl := Except.ok.inj h
    obtain ⟨hsub, hpages⟩ := huniform _ List.mem_cons_self specs rfl
    refine ⟨layout_uniformType ?_ hsub hpages hpos ?_ htensors, rfl⟩
    · exact (List.Perm.of_eq (List.append_nil _).symm).trans hlayers
    · intro hnone
      unfold floorDiv at hblocks
      split_ifs at hblocks
      rw [mayOverrideNumBlocks, hnone]
      exact (Except.ok.inj hblocks).symm
  · obtain ⟨pageSize, hsize, h⟩ := bind_eq_ok.mp h
    obtain ⟨_, -, h⟩ := bind_eq_ok.mp h
    obtain ⟨numBlocks, hblocks, h⟩ := bind_eq_ok.mp h
    obtain ⟨_, -, h⟩ := bind_eq_ok.mp h
    obtain rfl := Except.ok.inj h
    obtain ⟨hne, hpage⟩ := getUniformPageSize_spec hsize
    exact ⟨layout_shared hlayers hpage fun hnone => getNumBlocks_fits hnone (hpos hne) hblocks, rfl⟩

lemma checkEnoughKvCacheMemory_pos {availableMemory : Int} {u : Unit}
    (h : checkEnoughKvCacheMemory config kvCacheSpec availableMemory = .ok u) :
    kvCacheSpec.entries ≠ [] → 0 < availableMemory := by
  intro hne
  unfold checkEnoughKvCacheMemory at h
  rw [if_neg hne] at h
  split_ifs at h with hle
  exact not_le.mp hle

lemma exists_of_forall₂ {A B : Type} {R : A → B → Prop} {l : List A} {ys : List B}
    (h : List.Forall₂ R l ys) : ∀ x ∈ l, ∃ y ∈ ys, R x y := by
  induction h with
  | nil => exact fun x hx => nomatch hx
  | cons hfirst _ ih =>
    intro x hx
    rcases List.mem_cons.mp hx with rfl | hx
    · exact ⟨_, List.mem_cons_self, hfirst⟩
    · obtain ⟨y, hy, hxy⟩ := ih x hx
      exact ⟨y, List.mem_cons_of_mem _ hy, hxy⟩

lemma Grouped.worker {availableMemory : Int} {c : KVCacheConfig} (h : Grouped merged groups)
    (hspecs : ∀ l, ∀ spec ∈ kvCacheSpec.get? l, spec ∈ merged.get? l)
    (hpos : kvCacheSpec.entries ≠ [] → 0 < availableMemory)
    (hrun : (pyAssert (((groupsOfWorker groups kvCacheSpec).map fun g => g.layerNames.length).sum =
        kvCacheSpec.entries.length) >>= fun _ => getKvCacheConfigFromGroups config
          (groupsOfWorker groups kvCacheSpec) kvCacheSpec availableMemory) = .ok c) :
    Layout config kvCacheSpec availableMemory c ∧
      c.kvCacheGroups.map (·.kvCacheSpec) = groups.map (·.kvCacheSpec) := by
  obtain ⟨_, -, hrun⟩ := bind_eq_ok.mp hrun
  have hlayers := groupsOfWorker_layers h.layers fun l hl => by
    obtain ⟨spec, hspec⟩ := Dict.mem_keys_iff.mp hl
    exact Dict.mem_keys_iff.mpr ⟨spec, hspecs l spec hspec⟩
  obtain ⟨hlayout, hgroups⟩ := getKvCacheConfigFromGroups_layout hlayers
    (fun g hg specs hspec => by
      obtain ⟨g₀, hg₀, rfl⟩ := List.mem_map.mp hg
      obtain ⟨hnames, hpages⟩ := h.uniformType g₀ hg₀ specs hspec
      refine ⟨hnames ▸ List.filter_sublist, fun l spec hspec => ?_⟩
      exact hpages l spec (hspecs l spec hspec)) hpos hrun
  refine ⟨hlayout, ?_⟩
  rw [hgroups, groupsOfWorker, List.map_map]
  rfl

variable {workers : List (LayerSpecs × Int)} {configs : List KVCacheConfig}

/-- The layers of every worker are laid out once each, in groups and in tensors that fit, and
the workers agree in the number of blocks and in the specs of the groups. -/
theorem kvCacheConfigs_layout (h : getKvCacheConfigs config workers = .ok configs) :
    List.Forall₂ (fun w c => Layout config w.1 w.2 c) workers configs ∧
      ∃ numBlocks specs, ∀ c ∈ configs, c.numBlocks = numBlocks ∧
        c.kvCacheGroups.map (·.kvCacheSpec) = specs := by
  obtain ⟨checks, hchecks, h⟩ := bind_eq_ok.mp h
  obtain ⟨merged, hmerged, h⟩ := bind_eq_ok.mp h
  obtain ⟨groups, hgroups, h⟩ := bind_eq_ok.mp h
  obtain ⟨before, hbefore, h⟩ := bind_eq_ok.mp h
  have hmember : ∀ w ∈ workers, (w.1.entries ≠ [] → 0 < w.2) ∧
      ∀ l, ∀ spec ∈ w.1.get? l, spec ∈ merged.get? l := by
    intro w hw
    obtain ⟨_, -, hcheck⟩ := exists_of_forall₂ (forall₂_of_mapM hchecks) w hw
    refine ⟨checkEnoughKvCacheMemory_pos hcheck, fun l spec hspec => ?_⟩
    exact (mergeLayers_get? hmerged).2 (l, spec)
      (List.mem_flatMap.mpr ⟨w, hw, Dict.get?_eq_some_iff.mp hspec⟩)
  have hgrouped := getKvCacheGroups_grouped hgroups
  have hworkers : List.Forall₂ (fun w c => Layout config w.1 w.2 c ∧
      c.kvCacheGroups.map (·.kvCacheSpec) = groups.map (·.kvCacheSpec)) workers before := by
    refine (List.forall₂_and_left _ _ |>.mpr ⟨hmember, forall₂_of_mapM hbefore⟩).imp ?_
    rintro ⟨specs, availableMemory⟩ c ⟨⟨hpos, hspecs⟩, hrun⟩
    exact hgrouped.worker hspecs hpos hrun
  split at h
  · cases h
  · rename_i minNumBlocks hmin
    obtain rfl := Except.ok.inj h
    obtain ⟨-, hle⟩ := List.min?_eq_some_iff.mp hmin
    have hmins : List.Forall₂ (fun c w => minNumBlocks ≤ c.numBlocks ∧
        (Layout config w.1 w.2 c ∧ c.kvCacheGroups.map (·.kvCacheSpec) =
          groups.map (·.kvCacheSpec))) before workers :=
      (List.forall₂_and_left _ _).mpr
        ⟨fun c hc => hle _ (List.mem_map_of_mem hc), hworkers.flip⟩
    constructor
    · rw [List.forall₂_map_right_iff]
      exact hmins.flip.imp fun w c hc => hc.2.1.lower hc.1
    · refine ⟨minNumBlocks, groups.map (·.kvCacheSpec), fun c hc => ?_⟩
      obtain ⟨c₀, hc₀, rfl⟩ := List.mem_map.mp hc
      obtain ⟨w, -, -, hspecs⟩ := exists_of_forall₂ hworkers.flip c₀ hc₀
      exact ⟨rfl, hspecs⟩

def onePage : AttentionSpec :=
  { blockSize := 2, numKvHeads := 1, headSize := 1, dtype := ⟨"uint8", 1⟩,
    blockSize_pos := Nat.two_pos }

def fullLayer : KVCacheSpec := .fullAttention onePage none none

def windowLayer : KVCacheSpec := .slidingWindow onePage 2 Nat.two_pos rfl

/-- Full attention and sliding windows on both stages, which have different memory. -/
def twoStages : List (LayerSpecs × Int) :=
  [(⟨[("full.0", fullLayer), ("sw.0", windowLayer), ("sw.1", windowLayer)], by decide⟩, 50),
    (⟨[("full.1", fullLayer), ("sw.2", windowLayer)], by decide⟩, 70)]

def fourTokens : VllmConfig where
  maxModelLen := 4
  maxNumBatchedTokens := 4

/-- The three groups have one layer each on the first stage; the last one has none on the
second. -/
theorem kvCacheConfigs_layout_twoStages : ∃ configs,
    getKvCacheConfigs fourTokens twoStages = .ok configs ∧
      (configs.map fun c => (c.numBlocks, c.kvCacheTensors.map fun t => (t.size, t.sharedBy))) =
        [(12, [(48, ["full.0", "sw.0", "sw.1"])]), (12, [(68, ["full.1", "sw.2"])])] ∧
      (List.Forall₂ (fun w c => Layout fourTokens w.1 w.2 c) twoStages configs ∧
        ∃ numBlocks specs, ∀ c ∈ configs, c.numBlocks = numBlocks ∧
          c.kvCacheGroups.map (·.kvCacheSpec) = specs) :=
  ⟨_, rfl, rfl, kvCacheConfigs_layout rfl⟩

/-- A worker without layers is accepted whatever its memory. -/
theorem layout_exceeds_negative_memory :
    getKvCacheConfigs fourTokens [(Dict.empty, -1)] = .ok [⟨1, [], []⟩] ∧
      fourTokens.numGpuBlocksOverride = none ∧
      ¬ (([] : List KVCacheTensor).map (·.size)).sum ≤ (-1 : Int) :=
  ⟨rfl, rfl, by decide⟩

end VllmV1.Interface
