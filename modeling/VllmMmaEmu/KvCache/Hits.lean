import Mathlib.Data.List.Forall2
import Mathlib.Data.List.Sort
import VllmMmaEmu.KvCache.Manager
import VllmMmaEmu.KvCache.PoolInvariant

/-!
# Prefix cache hits

Every kind of manager returns, for each group, blocks that the map holds under the request's
hashes at the same positions and under that group, with null blocks in between.
-/

namespace VllmV1

open Python

/-- A hit that is not null is held by the map under the hash at its position. -/
def AlignedHits (p : BlockPool) (hashes : List BlockHash) (g : Nat) (hits : List BlockId) : Prop :=
  ∀ (j : Nat) (b : BlockId), hits[j]? = some b → b ≠ nullBlock →
    ∃ h, hashes[j]? = some h ∧ p.cachedBlockHashToBlock.Holds (h, g) b

section Lists

variable {α β γ δ : Type}

lemma forall₂_zipWith {P : α → β → Prop} {Q : α → γ → Prop} {R : α → δ → Prop} {f : β → γ → δ}
    {as : List α} {bs : List β} {cs : List γ} (hP : List.Forall₂ P as bs)
    (hQ : List.Forall₂ Q as cs) (hR : ∀ a b c, P a b → Q a c → R a (f b c)) :
    List.Forall₂ R as (List.zipWith f bs cs) := by
  induction hP generalizing cs with
  | nil => cases hQ; exact .nil
  | cons hab _ ih =>
    cases hQ with
    | cons hac hQ => exact .cons (hR _ _ _ hab hac) (ih hQ)

lemma forall₂_map {P : α → β → Prop} {R : α → γ → Prop} {f : β → γ} {as : List α} {bs : List β}
    (hP : List.Forall₂ P as bs) (hR : ∀ a b, P a b → R a (f b)) :
    List.Forall₂ R as (bs.map f) := by
  induction hP with
  | nil => exact .nil
  | cons hab _ ih => exact .cons (hR _ _ hab) ih

lemma forall₂_map_const {R : α → β → Prop} (as : List α) (b : β) (h : ∀ a, R a b) :
    List.Forall₂ R as (as.map fun _ => b) := by
  induction as with
  | nil => exact .nil
  | cons a as ih => exact .cons (h a) ih

lemma forall₂_exists_left {R : α → β → Prop} {as : List α} {bs : List β}
    (h : List.Forall₂ R as bs) {b : β} (hb : b ∈ bs) : ∃ a ∈ as, R a b := by
  induction h with
  | nil => cases hb
  | @cons a b' as bs hab _ ih =>
    rcases List.mem_cons.mp hb with rfl | hb
    · exact ⟨a, by simp, hab⟩
    · obtain ⟨a', ha', hab'⟩ := ih hb
      exact ⟨a', by simp [ha'], hab'⟩

lemma forall₂_getElem? {R : α → β → Prop} {as : List α} {bs : List β}
    (h : List.Forall₂ R as bs) {k : Nat} {a : α} {b : β} (ha : as[k]? = some a)
    (hb : bs[k]? = some b) : R a b := by
  induction h generalizing k with
  | nil => simp at ha
  | @cons a' b' as bs hab _ ih =>
    cases k with
    | zero =>
      obtain rfl := Option.some.inj ha
      obtain rfl := Option.some.inj hb
      exact hab
    | succ k => exact ih ha hb

end Lists

section OneGroup

variable {p : BlockPool} {hashes : List BlockHash} {g : Nat} {hits : List BlockId}

lemma alignedHits_replicate (n : Nat) : AlignedHits p hashes g (List.replicate n nullBlock) := by
  intro j b hj hb
  rw [List.getElem?_replicate] at hj
  split_ifs at hj
  exact absurd (Option.some.inj hj).symm hb

lemma alignedHits_nil : AlignedHits p hashes g [] := alignedHits_replicate 0

lemma AlignedHits.take (h : AlignedHits p hashes g hits) (n : Nat) :
    AlignedHits p hashes g (hits.take n) := by
  intro j b hj
  rw [List.getElem?_take] at hj
  split_ifs at hj
  exact h j b hj

lemma AlignedHits.dropLast (h : AlignedHits p hashes g hits) :
    AlignedHits p hashes g hits.dropLast := by
  rw [List.dropLast_eq_take]
  exact h.take _

lemma AlignedHits.of_prefix {n : Nat} (h : AlignedHits p (hashes.take n) g hits) :
    AlignedHits p hashes g hits := by
  intro j b hj hb
  obtain ⟨hash, hhash, hholds⟩ := h j b hj hb
  rw [List.getElem?_take] at hhash
  split_ifs at hhash
  exact ⟨hash, hhash, hholds⟩

lemma AlignedHits.set (h : AlignedHits p hashes g hits) {i : Nat} {hash : BlockHash} {b : BlockId}
    (hhash : hashes[i]? = some hash) (hholds : p.cachedBlockHashToBlock.Holds (hash, g) b) :
    AlignedHits p hashes g (hits.set i b) := by
  intro j c hj hc
  rw [List.getElem?_set] at hj
  split_ifs at hj with hij hlt
  · obtain rfl := Option.some.inj hj
    exact ⟨hash, hij ▸ hhash, hholds⟩
  · exact h j c hj hc

lemma AlignedHits.concat (h : AlignedHits p hashes g hits) (hash : BlockHash) {b : BlockId}
    (hhash : hashes[hits.length]? = some hash)
    (hholds : p.cachedBlockHashToBlock.Holds (hash, g) b) :
    AlignedHits p hashes g (hits ++ [b]) := by
  intro j c hj hc
  rw [List.getElem?_append] at hj
  split_ifs at hj with hlt
  · exact h j c hj hc
  · rw [List.getElem?_singleton] at hj
    split_ifs at hj with hj0
    obtain rfl := Option.some.inj hj
    have hlen : j = hits.length := by omega
    exact ⟨hash, hlen ▸ hhash, hholds⟩

lemma AlignedHits.inPool (h : AlignedHits p hashes g hits) (hmap : p.MapOk)
    (hpos : 0 < p.numGpuBlocks) {b : BlockId} (hb : b ∈ hits) : b < p.numGpuBlocks := by
  obtain ⟨j, hj⟩ := List.mem_iff_getElem?.mp hb
  by_cases hnull : b = nullBlock
  · exact hnull ▸ hpos
  · obtain ⟨hash, -, hholds⟩ := h j b hj hnull
    exact hmap.inPool _ b hholds

/-- With distinct hashes no block is hit twice: a block carries one hash only. -/
lemma AlignedHits.nodup (h : AlignedHits p hashes g hits) (hmap : p.MapOk)
    (hhashes : hashes.Nodup) : (hits.filter (· ≠ 0)).Nodup := by
  have hinj : ∀ (i j : Nat) (b : BlockId), hits[i]? = some b → hits[j]? = some b → b ≠ 0 → i = j := by
    intro i j b hi hj hb
    obtain ⟨h₁, hh₁, hold₁⟩ := h i b hi hb
    obtain ⟨h₂, hh₂, hold₂⟩ := h j b hj hb
    have heq : (h₁, g) = (h₂, g) :=
      Option.some.inj ((hmap.hashed _ b hold₁ hb).symm.trans (hmap.hashed _ b hold₂ hb))
    obtain ⟨hlt, -⟩ := List.getElem?_eq_some_iff.mp hh₁
    refine (List.getElem?_inj hlt hhashes).mp ?_
    rw [hh₁, hh₂, (Prod.mk.inj heq).1]
  clear h
  induction hits with
  | nil => exact List.nodup_nil
  | cons b hits ih =>
    have htail : (hits.filter (· ≠ 0)).Nodup := by
      refine ih fun i j c hi hj hc => ?_
      have := hinj (i + 1) (j + 1) c hi hj hc
      omega
    by_cases hb : b = 0
    · rwa [List.filter_cons_of_neg (by simp [hb])]
    · rw [List.filter_cons_of_pos (by simp [hb])]
      refine List.nodup_cons.mpr ⟨fun hmem => ?_, htail⟩
      obtain ⟨j, hj⟩ := List.mem_iff_getElem?.mp (List.mem_of_mem_filter hmem)
      have := hinj 0 (j + 1) b rfl hj hb
      omega

/-- A block carries one group id only, so no block is hit in two groups. -/
lemma alignedHits_flatten_nodup {gs : List Nat} {computed : List (List BlockId)}
    (h : List.Forall₂ (AlignedHits p hashes) gs computed) (hgs : gs.Nodup) (hmap : p.MapOk)
    (hhashes : hashes.Nodup) : (computed.flatten.filter (· ≠ 0)).Nodup := by
  induction h with
  | nil => exact List.nodup_nil
  | @cons g c gs computed hc htail ih =>
    obtain ⟨hg, hgs⟩ := List.nodup_cons.mp hgs
    rw [List.flatten_cons, List.filter_append, List.nodup_append']
    refine ⟨hc.nodup hmap hhashes, ih hgs, ?_⟩
    intro b hb hb'
    rw [List.mem_filter, decide_eq_true_eq] at hb hb'
    obtain ⟨c', hc', hbc'⟩ := List.mem_flatten.mp hb'.1
    obtain ⟨g', hg', hal'⟩ := forall₂_exists_left htail hc'
    obtain ⟨i, hi⟩ := List.mem_iff_getElem?.mp hb.1
    obtain ⟨j, hj⟩ := List.mem_iff_getElem?.mp hbc'
    obtain ⟨h₁, -, hold₁⟩ := hc i b hi hb.2
    obtain ⟨h₂, -, hold₂⟩ := hal' j b hj hb.2
    have heq : (h₁, g) = (h₂, g') :=
      Option.some.inj ((hmap.hashed _ b hold₁ hb.2).symm.trans (hmap.hashed _ b hold₂ hb.2))
    exact hg ((Prod.mk.inj heq).2 ▸ hg')

end OneGroup

namespace SingleTypeManager

variable {p : BlockPool} {hashes : List BlockHash} {gs : List Nat}

/-- A lookup that finds something has looked up one block for each group. -/
lemma getCachedBlock_oneBlock {hash : BlockHash} {bs : List BlockId}
    (h : p.getCachedBlock hash gs = some bs) :
    List.Forall₂ (fun g b => p.cachedBlockHashToBlock.getOneBlock (hash, g) = some b) gs bs := by
  induction gs generalizing bs with
  | nil =>
    obtain rfl : bs = [] := by simpa [BlockPool.getCachedBlock] using h.symm
    exact .nil
  | cons g gs ih =>
    simp only [BlockPool.getCachedBlock, List.mapM_cons, Option.bind_eq_bind,
      Option.bind_eq_some_iff, Option.pure_def, Option.some.injEq] at h
    obtain ⟨b, hb, rest, hrest, rfl⟩ := h
    exact .cons hb (ih hrest)

lemma getCachedBlock_holds {hash : BlockHash} {bs : List BlockId}
    (h : p.getCachedBlock hash gs = some bs) :
    List.Forall₂ (fun g b => p.cachedBlockHashToBlock.Holds (hash, g) b) gs bs :=
  (getCachedBlock_oneBlock h).imp fun _ _ hone => BlockHashToBlockMap.holds_of_getOneBlock hone

/-- Hits in a row: the lists so far cover the hashes `pre`. -/
lemma hitLoop_aligned (p : BlockPool) (gs : List Nat) (pre rest : List BlockHash)
    {computed : List (List BlockId)}
    (h : List.Forall₂ (fun g c => AlignedHits p (pre ++ rest) g c ∧ c.length = pre.length)
      gs computed) :
    List.Forall₂ (AlignedHits p (pre ++ rest)) gs (hitLoop p gs rest computed) := by
  induction rest generalizing pre computed with
  | nil => exact h.imp fun _ _ => And.left
  | cons hash rest ih =>
    unfold hitLoop
    split
    · rename_i b bs hcached
      have hsplit : pre ++ hash :: rest = (pre ++ [hash]) ++ rest := by simp
      rw [hsplit] at h ⊢
      refine ih (pre ++ [hash]) (forall₂_zipWith h (getCachedBlock_holds hcached) ?_)
      rintro g c b ⟨hc, hlen⟩ hb
      refine ⟨hc.concat hash ?_ hb, by simp [hlen]⟩
      rw [hlen]
      simp
    · exact h.imp fun _ _ => And.left

lemma dropLastHit_aligned {computed hits : List (List BlockId)} {useEagle : Bool}
    (h : List.Forall₂ (AlignedHits p hashes) gs computed)
    (hdrop : dropLastHit useEagle computed = .ok hits) :
    List.Forall₂ (AlignedHits p hashes) gs hits := by
  unfold dropLastHit at hdrop
  split_ifs at hdrop
  · split at hdrop
    · cases hdrop
    · obtain rfl := Except.ok.inj hdrop
      split_ifs
      · exact forall₂_map h fun _ _ hc => hc.dropLast
      · exact h
  · obtain rfl := Except.ok.inj hdrop
    exact h

lemma fullCacheHit_aligned {maxLength blockSize : Int} {useEagle : Bool}
    {hits : List (List BlockId)}
    (h : fullCacheHit p hashes maxLength blockSize gs useEagle = .ok hits) :
    List.Forall₂ (AlignedHits p hashes) gs hits := by
  simp only [fullCacheHit] at h
  split_ifs at h
  refine dropLastHit_aligned ?_ h
  have hloop := hitLoop_aligned p gs [] (hashes.take (maxLength.fdiv blockSize).toNat)
    (forall₂_map_const gs [] fun _ => ⟨alignedHits_nil, rfl⟩)
  exact hloop.imp fun _ _ hc => AlignedHits.of_prefix hc

lemma slidingHitLoop_aligned {needed : Int} {i n : Nat} {computed hits : List (List BlockId)}
    (hc : List.Forall₂ (AlignedHits p hashes) gs computed)
    (h : slidingHitLoop p hashes gs needed i n computed = .ok hits) :
    List.Forall₂ (AlignedHits p hashes) gs hits := by
  induction i generalizing n computed with
  | zero =>
    obtain rfl := Except.ok.inj h
    exact forall₂_map hc fun _ _ hc => hc.take _
  | succ i ih =>
    unfold slidingHitLoop at h
    split at h
    · cases h
    · rename_i hash hhash
      split at h
      · rename_i b bs hcached
        have hset := forall₂_zipWith hc (getCachedBlock_holds hcached)
          fun g c b (hc : AlignedHits p hashes g c) hb => hc.set hhash hb
        simp only at h
        split_ifs at h
        · obtain rfl := Except.ok.inj h
          exact forall₂_map hset fun _ _ hc => hc.take _
        · exact ih hset h
      · exact ih hc h

lemma slidingCacheHit_aligned {maxLength blockSize : Int} {slidingWindow : Nat} {useEagle : Bool}
    {hits : List (List BlockId)}
    (h : slidingCacheHit p hashes maxLength blockSize slidingWindow gs useEagle = .ok hits) :
    List.Forall₂ (AlignedHits p hashes) gs hits := by
  obtain ⟨computed, hloop, hhits⟩ := bind_eq_ok.mp h
  exact dropLastHit_aligned (slidingHitLoop_aligned
    (forall₂_map_const gs _ fun _ => alignedHits_replicate _) hloop) hhits

lemma chunkedHitLoop_aligned (pre rest : List BlockHash) {n : Nat}
    {computed hits : List (List BlockId)}
    (hc : List.Forall₂ (fun g c => AlignedHits p (pre ++ rest) g c ∧ c.length = pre.length)
      gs computed)
    (h : chunkedHitLoop p gs n rest computed = .ok hits) :
    List.Forall₂ (AlignedHits p (pre ++ rest)) gs hits := by
  induction n generalizing pre rest computed with
  | zero =>
    obtain rfl := Except.ok.inj h
    exact hc.imp fun _ _ => And.left
  | succ n ih =>
    cases rest with
    | nil => cases h
    | cons hash rest =>
      unfold chunkedHitLoop at h
      split at h
      · rename_i b bs hcached
        have hsplit : pre ++ hash :: rest = (pre ++ [hash]) ++ rest := by simp
        rw [hsplit] at hc ⊢
        refine ih (pre ++ [hash]) rest
          (forall₂_zipWith hc (getCachedBlock_holds hcached) ?_) h
        rintro g c b ⟨hc, hlen⟩ hb
        refine ⟨hc.concat hash ?_ hb, by simp [hlen]⟩
        rw [hlen]
        simp
      · obtain rfl := Except.ok.inj h
        exact hc.imp fun _ _ => And.left

lemma chunkedCacheHit_aligned {maxLength blockSize : Int} {chunk : Nat}
    {hits : List (List BlockId)}
    (h : chunkedCacheHit p hashes maxLength blockSize chunk gs = .ok hits) :
    List.Forall₂ (AlignedHits p hashes) gs hits := by
  simp only [chunkedCacheHit] at h
  set start := ((if maxLength > 0 then maxLength.fdiv chunk * chunk else 0).fdiv blockSize).toNat
  by_cases hstart : start ≤ hashes.length
  · have hsplit : hashes.take start ++ hashes.drop start = hashes := List.take_append_drop _ _
    rw [← hsplit]
    refine chunkedHitLoop_aligned _ _ (forall₂_map_const gs _ fun _ => ?_) h
    exact ⟨alignedHits_replicate _, by simp [hstart]⟩
  · -- past the last hash: nothing is looked up
    rw [List.drop_eq_nil_of_le (by omega)] at h
    cases hn : (maxLength.fdiv blockSize).toNat - start with
    | zero =>
      rw [hn] at h
      obtain rfl := Except.ok.inj h
      exact forall₂_map_const gs _ fun _ => alignedHits_replicate _
    | succ n =>
      rw [hn] at h
      cases h

lemma findLongestCacheHit_aligned {spec : KVCacheSpec} {maxLength : Int} {useEagle : Bool}
    {dcpWorldSize : Nat} {hits : List (List BlockId)}
    (h : findLongestCacheHit spec p hashes maxLength gs useEagle dcpWorldSize = .ok hits) :
    List.Forall₂ (AlignedHits p hashes) gs hits := by
  unfold findLongestCacheHit at h
  cases hkind : spec.kind with
  | full =>
    rw [hkind] at h
    exact fullCacheHit_aligned h
  | slidingWindow w =>
    rw [hkind] at h
    obtain ⟨_, -, h⟩ := bind_eq_ok.mp h
    exact slidingCacheHit_aligned h
  | chunkedLocal chunk =>
    rw [hkind] at h
    obtain ⟨_, -, h⟩ := bind_eq_ok.mp h
    obtain ⟨_, -, h⟩ := bind_eq_ok.mp h
    exact chunkedCacheHit_aligned h
  | mamba n =>
    rw [hkind] at h
    obtain ⟨_, -, h⟩ := bind_eq_ok.mp h
    obtain rfl := Except.ok.inj h
    exact forall₂_map_const gs [] fun _ => alignedHits_nil
  | cross =>
    rw [hkind] at h
    cases h

end SingleTypeManager

lemma groupIdsOf_sorted (specs : List KVCacheSpec) (q : KVCacheSpec × Nat → Bool) :
    (groupIdsOf specs q).Pairwise (· < ·) := by
  refine List.Pairwise.sublist (List.filter_sublist.map Prod.snd) ?_
  rw [List.zipIdx_map_snd]
  exact List.pairwise_lt_range'

lemma groupIdsOf_append {specs : List KVCacheSpec} {q q' : KVCacheSpec × Nat → Bool}
    (hq : ∀ g, q' g = !q g) (h : ∀ i ∈ groupIdsOf specs q, ∀ j ∈ groupIdsOf specs q', i < j) :
    groupIdsOf specs q ++ groupIdsOf specs q' = List.range specs.length := by
  have hperm : (groupIdsOf specs q ++ groupIdsOf specs q').Perm (List.range specs.length) := by
    have := (List.filter_append_perm q specs.zipIdx).map Prod.snd
    rw [List.map_append, List.zipIdx_map_snd, ← funext hq] at this
    rwa [List.range_eq_range']
  have hsorted : (groupIdsOf specs q ++ groupIdsOf specs q').Pairwise (· < ·) :=
    List.pairwise_append.mpr ⟨groupIdsOf_sorted specs q, groupIdsOf_sorted specs q', h⟩
  exact hperm.eq_of_pairwise' hsorted List.pairwise_lt_range

namespace KVCacheManager

/-- The groups of a hybrid coordinator in the order in which its hits are joined. -/
lemma verifyAndSplit_ids {config : KVCacheConfig} {g : HybridGroups}
    (h : verifyAndSplitKvCacheGroups config = .ok g) :
    (if g.fullAttnFirst then g.fullAttentionGroupIds ++ g.otherGroupIds
      else g.otherGroupIds ++ g.fullAttentionGroupIds) =
      List.range config.kvCacheGroups.length := by
  obtain ⟨full, -, h⟩ := bind_eq_ok.mp h
  obtain ⟨other, -, h⟩ := bind_eq_ok.mp h
  obtain ⟨_, -, h⟩ := bind_eq_ok.mp h
  obtain ⟨first, hfirst, h⟩ := bind_eq_ok.mp h
  obtain rfl := Except.ok.inj h
  unfold isFullAttnFirst at hfirst
  split_ifs at hfirst with hlt hgt
  · obtain rfl := Except.ok.inj hfirst
    exact groupIdsOf_append (by simp) hlt
  · obtain rfl := Except.ok.inj hfirst
    exact groupIdsOf_append (by simp) fun i hi j hj => hgt j hj i hi

lemma hybridCacheHit_aligned {s : KVCacheManager} {g : HybridGroups} {hashes : List BlockHash}
    {maxLength length : Int} {hits : List (List BlockId)}
    (hg : verifyAndSplitKvCacheGroups s.config = .ok g)
    (h : s.hybridCacheHit g hashes maxLength = .ok (hits, length)) :
    List.Forall₂ (AlignedHits s.blockPool hashes) (List.range s.config.kvCacheGroups.length)
      hits := by
  obtain ⟨hitFull, hfull, h⟩ := bind_eq_ok.mp h
  obtain ⟨hitOther, hother, h⟩ := bind_eq_ok.mp h
  obtain ⟨_, -, h⟩ := bind_eq_ok.mp h
  obtain ⟨rfl, -⟩ := Prod.mk.inj (Except.ok.inj h)
  have hfull' := SingleTypeManager.findLongestCacheHit_aligned hfull
  have hother' := SingleTypeManager.findLongestCacheHit_aligned hother
  have hcut := forall₂_map hfull' fun _ _ hc => hc.take
    (((hitOther.head?.getD []).length * g.otherSpec.blockSize : Int).fdiv
      g.fullAttentionSpec.blockSize).toNat
  rw [← verifyAndSplit_ids hg]
  split_ifs
  · exact List.rel_append hcut hother'
  · exact List.rel_append hother' hcut

lemma getComputedBlocks_aligned {s : KVCacheManager} {request : Request} {length : Int}
    {hits : List (List BlockId)} (hcoord : getKvCacheCoordinator s.config = .ok s.coordinator)
    (hlen : s.singleTypeManagers.length = s.config.kvCacheGroups.length)
    (h : s.getComputedBlocks request = .ok (hits, length)) :
    List.Forall₂ (AlignedHits s.blockPool request.blockHashes)
      (List.range s.config.kvCacheGroups.length) hits := by
  have hempty : ∀ n, List.Forall₂ (AlignedHits s.blockPool request.blockHashes) (List.range n)
      (List.replicate n []) := by
    intro n
    have := forall₂_map_const (R := AlignedHits s.blockPool request.blockHashes) (List.range n) []
      fun _ => alignedHits_nil
    rwa [List.map_const', List.length_range] at this
  unfold getComputedBlocks at h
  split_ifs at h with hskip
  · obtain ⟨rfl, -⟩ := Prod.mk.inj (Except.ok.inj h)
    rw [createEmptyBlockList, List.map_const']
    exact hempty _
  · unfold findLongestCacheHit at h
    unfold getKvCacheCoordinator at hcoord
    cases hkind : s.coordinator with
    | noPrefixCache =>
      rw [hkind] at h
      obtain ⟨rfl, -⟩ := Prod.mk.inj (Except.ok.inj h)
      rw [List.map_const', hlen]
      exact hempty _
    | unitary spec =>
      rw [hkind] at h hcoord
      have hone : s.config.kvCacheGroups.length = 1 := by
        split_ifs at hcoord
        · cases hcoord
        · split at hcoord
          · rename_i heq
            rw [heq]
            rfl
          · obtain ⟨_, -, hcoord⟩ := bind_eq_ok.mp hcoord
            obtain ⟨_, -, hcoord⟩ := bind_eq_ok.mp hcoord
            cases hcoord
      obtain ⟨hits', hhits, h⟩ := bind_eq_ok.mp h
      obtain ⟨rfl, -⟩ := Prod.mk.inj (Except.ok.inj h)
      rw [hone]
      exact SingleTypeManager.findLongestCacheHit_aligned hhits
    | hybrid g =>
      rw [hkind] at h hcoord
      refine hybridCacheHit_aligned ?_ h
      split_ifs at hcoord
      · cases hcoord
      · split at hcoord
        · cases hcoord
        · obtain ⟨_, -, hcoord⟩ := bind_eq_ok.mp hcoord
          obtain ⟨g', hg', hcoord⟩ := bind_eq_ok.mp hcoord
          obtain rfl := CoordinatorKind.hybrid.inj (Except.ok.inj hcoord)
          exact hg'

end KVCacheManager

end VllmV1
