import Mathlib.Algebra.Order.Floor.Div
import VllmMmaEmu.KvCache.Hits
import VllmMmaEmu.Library.WindowSearch

/-!
# The longest cache hit

What `find_longest_cache_hit` returns is the greatest length that is usable in all groups:
a cached prefix for full attention, a cached window for a sliding window, both for the hybrid
coordinator. The blocks before the window are null.
-/

namespace VllmV1

open Python WindowSearch

/-- The hash at a position is cached in all of the groups. -/
def CachedAt (p : BlockPool) (hashes : List BlockHash) (gs : List Nat) (j : Nat) : Prop :=
  ∃ h, hashes[j]? = some h ∧
    ∀ g ∈ gs, (p.cachedBlockHashToBlock.getOneBlock (h, g)).isSome

instance (p : BlockPool) (hashes : List BlockHash) (gs : List Nat) :
    DecidablePred (CachedAt p hashes gs) := fun j =>
  match heq : hashes[j]? with
  | none => isFalse (by rintro ⟨h, hh, -⟩; simp [heq] at hh)
  | some h => decidable_of_iff
      (∀ g ∈ gs, (p.cachedBlockHashToBlock.getOneBlock (h, g)).isSome) (by simp [CachedAt, heq])

/-- The list holds the block that is cached under the hash at this position. -/
def Hit (p : BlockPool) (hashes : List BlockHash) (g : Nat) (row : List BlockId) (j : Nat) : Prop :=
  ∃ h b, hashes[j]? = some h ∧ row[j]? = some b ∧
    p.cachedBlockHashToBlock.getOneBlock (h, g) = some b

/-- Null blocks before `first`, hits from there on. -/
structure HitRow (p : BlockPool) (hashes : List BlockHash) (first len g : Nat)
    (row : List BlockId) : Prop where
  length : row.length = len
  null : ∀ j < first, j < len → row[j]? = some nullBlock
  hit : ∀ j, first ≤ j → j < len → Hit p hashes g row j

variable {p : BlockPool} {hashes : List BlockHash} {gs : List Nat} {g : Nat} {row : List BlockId}

lemma Hit.blockHash {j : Nat} (h : Hit p hashes g row j) (hmap : p.MapOk) :
    ∃ hash b, hashes[j]? = some hash ∧ row[j]? = some b ∧
      (b ≠ nullBlock → p.blockHash b = some (hash, g)) := by
  obtain ⟨hash, b, hhash, hb, hone⟩ := h
  exact ⟨hash, b, hhash, hb,
    hmap.hashed _ _ (BlockHashToBlockMap.holds_of_getOneBlock hone)⟩

lemma HitRow.nil : HitRow p hashes 0 0 g [] where
  length := rfl
  null := by omega
  hit := by omega

lemma HitRow.concat {first len : Nat} (h : HitRow p hashes first len g row) (hle : first ≤ len)
    {hash : BlockHash} {b : BlockId} (hhash : hashes[len]? = some hash)
    (hone : p.cachedBlockHashToBlock.getOneBlock (hash, g) = some b) :
    HitRow p hashes first (len + 1) g (row ++ [b]) where
  length := by simp [h.length]
  null := by
    intro j hj _
    rw [List.getElem?_append_left (by rw [h.length]; omega)]
    exact h.null j hj (by omega)
  hit := by
    intro j hlow hj
    by_cases heq : j = len
    · subst heq
      exact ⟨hash, b, hhash, by simp [← h.length], hone⟩
    · obtain ⟨hash', b', hh, hb, hone'⟩ := h.hit j hlow (by omega)
      refine ⟨hash', b', hh, ?_, hone'⟩
      rw [List.getElem?_append_left (by rw [h.length]; omega), hb]

lemma HitRow.take {first len n : Nat} (h : HitRow p hashes first len g row) (hn : n ≤ len) :
    HitRow p hashes first n g (row.take n) where
  length := by
    rw [List.length_take, h.length]
    omega
  null := by
    intro j hfirst hj
    rw [List.getElem?_take_of_lt hj]
    exact h.null j hfirst (by omega)
  hit := by
    intro j hfirst hj
    obtain ⟨hash, b, hh, hb, hone⟩ := h.hit j hfirst (by omega)
    exact ⟨hash, b, hh, by rw [List.getElem?_take_of_lt hj, hb], hone⟩

lemma HitRow.dropLast {first len : Nat} (h : HitRow p hashes first len g row) :
    HitRow p hashes first (len - 1) g row.dropLast := by
  rw [List.dropLast_eq_take, h.length]
  exact h.take (by omega)

lemma HitRow.of_prefix {first len n : Nat} (h : HitRow p (hashes.take n) first len g row) :
    HitRow p hashes first len g row where
  length := h.length
  null := h.null
  hit := by
    intro j hfirst hj
    obtain ⟨hash, b, hh, hb, hone⟩ := h.hit j hfirst hj
    rw [List.getElem?_take] at hh
    split_ifs at hh
    exact ⟨hash, b, hh, hb, hone⟩

namespace SingleTypeManager

lemma getCachedBlock_of_cached {hash : BlockHash}
    (h : ∀ g ∈ gs, (p.cachedBlockHashToBlock.getOneBlock (hash, g)).isSome) :
    ∃ bs, p.getCachedBlock hash gs = some bs ∧
      List.Forall₂ (fun g b => p.cachedBlockHashToBlock.getOneBlock (hash, g) = some b) gs bs := by
  induction gs with
  | nil => exact ⟨[], rfl, .nil⟩
  | cons g gs ih =>
    obtain ⟨b, hb⟩ := Option.isSome_iff_exists.mp (h g (by simp))
    obtain ⟨bs, hbs, hall⟩ := ih fun g' hg' => h g' (by simp [hg'])
    refine ⟨b :: bs, ?_, .cons hb hall⟩
    rw [BlockPool.getCachedBlock] at hbs ⊢
    simp [List.mapM_cons, hb, hbs]

lemma getCachedBlock_of_not_cached {hash : BlockHash}
    (h : ¬ ∀ g ∈ gs, (p.cachedBlockHashToBlock.getOneBlock (hash, g)).isSome) :
    p.getCachedBlock hash gs = none := by
  rw [Option.eq_none_iff_forall_ne_some]
  intro bs hbs
  refine h fun g hg => ?_
  clear h
  induction gs generalizing bs with
  | nil => cases hg
  | cons g' gs ih =>
    simp only [BlockPool.getCachedBlock, List.mapM_cons, Option.bind_eq_bind,
      Option.bind_eq_some_iff, Option.pure_def, Option.some.injEq] at hbs
    obtain ⟨b, hb, rest, hrest, -⟩ := hbs
    rcases List.mem_cons.mp hg with rfl | hg
    · simp [hb]
    · exact ih rest hrest hg

/-- Hits in a row: the lists so far cover the hashes `pre`. -/
lemma hitLoop_spec (hgs : gs ≠ []) (pre rest : List BlockHash) {computed : List (List BlockId)}
    (h : List.Forall₂ (HitRow p (pre ++ rest) 0 pre.length) gs computed) :
    ∃ len, len ≤ (pre ++ rest).length ∧
      (∀ j, pre.length ≤ j → j < len → CachedAt p (pre ++ rest) gs j) ∧
      (len < (pre ++ rest).length → ¬ CachedAt p (pre ++ rest) gs len) ∧
      List.Forall₂ (HitRow p (pre ++ rest) 0 len) gs (hitLoop p gs rest computed) := by
  induction rest generalizing pre computed with
  | nil => exact ⟨pre.length, by simp, by omega, by simp, h⟩
  | cons hash rest ih =>
    have hat : (pre ++ hash :: rest)[pre.length]? = some hash := by simp
    by_cases hcached : ∀ g ∈ gs, (p.cachedBlockHashToBlock.getOneBlock (hash, g)).isSome
    · obtain ⟨bs, hbs, hall⟩ := getCachedBlock_of_cached hcached
      obtain ⟨b, bs, rfl⟩ : ∃ b bs', bs = b :: bs' := by
        cases hall with
        | nil => exact absurd rfl hgs
        | cons hb hall => exact ⟨_, _, rfl⟩
      have hnext := forall₂_zipWith h hall fun g c b hc hb => hc.concat (Nat.zero_le _) hat hb
      have hsplit : pre ++ hash :: rest = (pre ++ [hash]) ++ rest := by simp
      rw [hsplit] at hnext hat ⊢
      rw [show pre.length + 1 = (pre ++ [hash]).length by simp] at hnext
      obtain ⟨len, hle, hbefore, hstop, hrows⟩ := ih (pre ++ [hash]) hnext
      refine ⟨len, hle, fun j hlow hj => ?_, hstop, ?_⟩
      · by_cases heq : j = pre.length
        · exact ⟨hash, heq ▸ hat, hcached⟩
        · exact hbefore j (by simp; omega) hj
      · simpa only [hitLoop, hbs, appendHit] using hrows
    · refine ⟨pre.length, by simp, by omega, ?_, ?_⟩
      · rintro - ⟨hash', hh, hall⟩
        obtain rfl := Option.some.inj (hat.symm.trans hh)
        exact hcached hall
      · simpa only [hitLoop, getCachedBlock_of_not_cached hcached] using h

lemma cachedAt_take {n j : Nat} :
    CachedAt p (hashes.take n) gs j ↔ j < n ∧ CachedAt p hashes gs j := by
  simp only [CachedAt, List.getElem?_take]
  by_cases hj : j < n <;> simp [hj]

lemma hitLoop_noGroups (rest : List BlockHash) : hitLoop p [] rest [] = [] := by
  cases rest <;> simp [hitLoop, BlockPool.getCachedBlock]

/-- The search over the first `n` hashes finds the cached prefix. -/
lemma hitLoop_longest (p : BlockPool) (hashes : List BlockHash) (gs : List Nat) (n : Nat) :
    ∃ len, IsLongestPrefix (CachedAt p hashes gs) n len ∧
      List.Forall₂ (HitRow p hashes 0 len) gs
        (hitLoop p gs (hashes.take n) (gs.map fun _ => [])) := by
  by_cases hgs : gs = []
  · subst hgs
    refine ⟨min n hashes.length, isLongestPrefix_of_stop (by omega) ?_ ?_, ?_⟩
    · intro j hj
      exact ⟨hashes[j], List.getElem?_eq_getElem (by omega), by simp⟩
    · rintro hlt ⟨h, hh, -⟩
      have := (List.getElem?_eq_some_iff.mp hh).1
      omega
    · rw [List.map_nil, hitLoop_noGroups]
      exact .nil
  · obtain ⟨len, hle, hbefore, hstop, hrows⟩ :=
      hitLoop_spec (p := p) hgs [] (hashes.take n) (forall₂_map_const gs [] fun _ => HitRow.nil)
    simp only [List.nil_append, List.length_take, cachedAt_take] at hle hbefore hstop hrows
    refine ⟨len, isLongestPrefix_of_stop (by omega) ?_ ?_, ?_⟩
    · intro j hj
      exact (hbefore j (by simp) hj).2
    · rintro hlt ⟨h, hh, hall⟩
      have := (List.getElem?_eq_some_iff.mp hh).1
      exact hstop (by omega) ⟨hlt, h, hh, hall⟩
    · exact hrows.imp fun _ _ hr => hr.of_prefix

/-- A list of the search from right to left: null before `i`, hits in the run from there. -/
structure Segment (p : BlockPool) (hashes : List BlockHash) (bound i run g : Nat)
    (row : List BlockId) : Prop where
  length : row.length = bound
  null : ∀ j < i, row[j]? = some nullBlock
  hit : ∀ j, i ≤ j → j < i + run → Hit p hashes g row j

lemma Segment.start (bound : Nat) :
    Segment p hashes bound bound 0 g (List.replicate bound nullBlock) where
  length := List.length_replicate
  null := by
    intro j hj
    simp [hj]
  hit := by omega

lemma Segment.skip {bound i run : Nat} (h : Segment p hashes bound (i + 1) run g row) :
    Segment p hashes bound i 0 g row where
  length := h.length
  null := fun j hj => h.null j (by omega)
  hit := by omega

lemma Segment.grow {bound i run : Nat} (h : Segment p hashes bound (i + 1) run g row)
    (hi : i < bound) {hash : BlockHash} {b : BlockId} (hhash : hashes[i]? = some hash)
    (hone : p.cachedBlockHashToBlock.getOneBlock (hash, g) = some b) :
    Segment p hashes bound i (run + 1) g (row.set i b) where
  length := by simp [h.length]
  null := by
    intro j hj
    rw [List.getElem?_set_ne (by omega)]
    exact h.null j (by omega)
  hit := by
    intro j hlow hj
    by_cases heq : j = i
    · subst heq
      exact ⟨hash, b, hhash, List.getElem?_set_self (by rw [h.length]; exact hi), hone⟩
    · obtain ⟨hash', b', hh, hb, hone'⟩ := h.hit j (by omega) (by omega)
      exact ⟨hash', b', hh, by rw [List.getElem?_set_ne (by omega), hb], hone'⟩

/-- What is kept of a list: the blocks up to the end of the run. -/
lemma Segment.take {bound i run : Nat} (h : Segment p hashes bound i run g row)
    (hle : i + run ≤ bound) : HitRow p hashes i (i + run) g (row.take (i + run)) where
  length := by
    rw [List.length_take, h.length]
    omega
  null := by
    intro j hj _
    rw [List.getElem?_take_of_lt (by omega)]
    exact h.null j hj
  hit := by
    intro j hlow hj
    obtain ⟨hash, b, hh, hb, hone⟩ := h.hit j hlow hj
    exact ⟨hash, b, hh, by rw [List.getElem?_take_of_lt hj, hb], hone⟩

/-- The loop does the search, and the lists end where it ends. -/
lemma slidingHitLoop_spec (hgs : gs ≠ []) {window bound i run : Nat}
    (hs : Searching (CachedAt p hashes gs) window bound i run) (hi : i ≤ hashes.length)
    {computed : List (List BlockId)}
    (h : List.Forall₂ (Segment p hashes bound i run) gs computed) :
    ∃ hits, slidingHitLoop p hashes gs window i run computed = .ok hits ∧
      List.Forall₂ (HitRow p hashes (search (CachedAt p hashes gs) window i run - window)
        (search (CachedAt p hashes gs) window i run)) gs hits := by
  induction i generalizing run computed with
  | zero =>
    have hshort := hs.short
    refine ⟨_, rfl, forall₂_map h fun g row hrow => ?_⟩
    have hkept := hrow.take hs.le_bound
    rw [search, Nat.sub_eq_zero_of_le hshort.le]
    rwa [Nat.zero_add] at hkept
  | succ i ih =>
    have hbound := hs.le_bound
    have hhash : hashes[i]? = some hashes[i] := List.getElem?_eq_getElem (by omega)
    by_cases hcached : ∀ g ∈ gs,
        (p.cachedBlockHashToBlock.getOneBlock (hashes[i], g)).isSome
    · have hat : CachedAt p hashes gs i := ⟨_, hhash, hcached⟩
      obtain ⟨bs, hbs, hall⟩ := getCachedBlock_of_cached hcached
      obtain ⟨b, bs, rfl⟩ : ∃ b bs', bs = b :: bs' := by
        cases hall with
        | nil => exact absurd rfl hgs
        | cons hb hall => exact ⟨_, _, rfl⟩
      have hnext := forall₂_zipWith h hall fun g c b hc hb => hc.grow (by omega) hhash hb
      simp only [slidingHitLoop, hhash, hbs, search, hat, if_true]
      by_cases hfull : window ≤ run + 1
      · rw [if_pos (by omega), if_pos hfull]
        refine ⟨_, rfl, forall₂_map hnext fun g row hrow => ?_⟩
        have hshort := hs.short
        rw [show i + (run + 1) - window = i by omega]
        exact hrow.take (by omega)
      · rw [if_neg (by omega), if_neg hfull]
        exact ih (hs.grow hat (by omega)) (by omega) hnext
    · have hat : ¬ CachedAt p hashes gs i := by
        rintro ⟨hash, hh, hall⟩
        obtain rfl := Option.some.inj (hhash.symm.trans hh)
        exact hcached hall
      simp only [slidingHitLoop, hhash, getCachedBlock_of_not_cached hcached, search, hat,
        if_false]
      exact ih (hs.skip hat) (by omega) (h.imp fun _ _ hrow => hrow.skip)

lemma slidingHitLoop_noGroups {needed : Int} {i run : Nat} (hi : i ≤ hashes.length) :
    slidingHitLoop p hashes [] needed i run [] = .ok [] := by
  induction i generalizing run with
  | zero => rfl
  | succ i ih =>
    simp only [slidingHitLoop, List.getElem?_eq_getElem (show i < hashes.length by omega),
      BlockPool.getCachedBlock, List.mapM_nil]
    exact ih (by omega)

/-- The search over the first `bound` hashes finds the longest usable hit. -/
lemma slidingHitLoop_longest (p : BlockPool) (gs : List Nat) {window bound : Nat}
    (hwindow : 0 < window) (hbound : bound ≤ hashes.length) :
    ∃ len hits, slidingHitLoop p hashes gs window bound 0
        (gs.map fun _ => List.replicate bound nullBlock) = .ok hits ∧
      IsLongest (CachedAt p hashes gs) window bound len ∧
      List.Forall₂ (HitRow p hashes (len - window) len) gs hits := by
  have hstart : Searching (CachedAt p hashes gs) window bound bound 0 := .start hwindow
  by_cases hgs : gs = []
  · subst hgs
    exact ⟨_, [], slidingHitLoop_noGroups hbound, hstart.isLongest, .nil⟩
  · obtain ⟨hits, hrun, hrows⟩ := slidingHitLoop_spec hgs hstart hbound
      (forall₂_map_const gs _ fun _ => Segment.start bound)
    exact ⟨_, hits, hrun, hstart.isLongest, hrows⟩

lemma dropLastHit_true (hgs : gs ≠ []) {first len : Nat} {computed : List (List BlockId)}
    (h : List.Forall₂ (HitRow p hashes first len) gs computed) :
    ∃ hits, dropLastHit true computed = .ok hits ∧
      List.Forall₂ (HitRow p hashes first (len - 1)) gs hits := by
  cases h with
  | nil => exact absurd rfl hgs
  | @cons g row gs rows hrow hrows =>
    by_cases hempty : row = []
    · subst hempty
      have hlen : len = 0 := hrow.length.symm
      subst hlen
      exact ⟨_, by simp [dropLastHit], .cons hrow hrows⟩
    · refine ⟨(row :: rows).map List.dropLast, by simp [dropLastHit, hempty], ?_⟩
      exact forall₂_map (.cons hrow hrows) fun _ _ hr => hr.dropLast

/-- The tokens of the window before the end of `len` blocks lie in hit blocks. -/
def CoversWindow (p : BlockPool) (hashes : List BlockHash) (blockSize slidingWindow len g : Nat)
    (row : List BlockId) : Prop :=
  ∀ q, q < len * blockSize → len * blockSize < q + slidingWindow →
    Hit p hashes g row (q / blockSize)

end SingleTypeManager

lemma HitRow.covers {first len blockSize slidingWindow window : Nat}
    (h : HitRow p hashes first len g row) (hpos : 0 < blockSize)
    (hwindow : slidingWindow - 1 ≤ window * blockSize) (hfirst : first ≤ len - window) :
    SingleTypeManager.CoversWindow p hashes blockSize slidingWindow len g row := by
  intro q hq hlow
  obtain ⟨hge, hlt⟩ := token_in_window hpos hwindow (by omega) hq
  exact h.hit _ (by omega) hlt

/-- The block size of the hashes, scaled by the DCP world size. -/
def hitBlockSize (spec : KVCacheSpec) (dcpWorldSize : Nat) : Nat :=
  if dcpWorldSize > 1 then spec.blockSize * dcpWorldSize else spec.blockSize

/-- The blocks that cover the window of the next token. -/
def windowBlocks (slidingWindow blockSize : Nat) : Nat := (slidingWindow - 1) ⌈/⌉ blockSize

/-- The longest prefix that is cached in all groups. -/
def IsPrefixHit (p : BlockPool) (hashes : List BlockHash) (gs : List Nat) (bound : Nat)
    (hits : List (List BlockId)) : Prop :=
  ∃ len, IsLongestPrefix (CachedAt p hashes gs) bound len ∧
    List.Forall₂ (HitRow p hashes 0 len) gs hits

/-- The longest hit for a window of blocks. -/
def IsWindowHit (p : BlockPool) (hashes : List BlockHash) (gs : List Nat) (window bound : Nat)
    (hits : List (List BlockId)) : Prop :=
  ∃ len, IsLongest (CachedAt p hashes gs) window bound len ∧
    List.Forall₂ (HitRow p hashes (len - window) len) gs hits

/-- The longest cached prefix without its last block, which still covers every window. -/
def IsEaglePrefixHit (p : BlockPool) (hashes : List BlockHash) (gs : List Nat)
    (blockSize bound : Nat) (hits : List (List BlockId)) : Prop :=
  ∃ len, IsLongestPrefix (CachedAt p hashes gs) bound len ∧
    List.Forall₂ (HitRow p hashes 0 (len - 1)) gs hits ∧
    ∀ slidingWindow, List.Forall₂
      (SingleTypeManager.CoversWindow p hashes blockSize slidingWindow (len - 1)) gs hits

/-- The longest hit for a window that is one block longer, without its last block; what is
kept covers the window. -/
def IsEagleWindowHit (p : BlockPool) (hashes : List BlockHash) (gs : List Nat)
    (blockSize slidingWindow bound : Nat) (hits : List (List BlockId)) : Prop :=
  ∃ len, IsLongest (CachedAt p hashes gs) (windowBlocks slidingWindow blockSize + 1) bound len ∧
    List.Forall₂ (HitRow p hashes (len - (windowBlocks slidingWindow blockSize + 1)) (len - 1))
      gs hits ∧
    List.Forall₂ (SingleTypeManager.CoversWindow p hashes blockSize slidingWindow (len - 1)) gs hits

lemma cdiv_natCast {a b : Nat} (hb : 0 < b) :
    cdiv (a : Int) (b : Int) = ((a ⌈/⌉ b : Nat) : Int) := by
  have hb' : (0 : Int) < b := by exact_mod_cast hb
  have hceil : a ⌈/⌉ b = (a + b - 1) / b := Nat.ceilDiv_eq_add_pred_div a b
  have hmul : (a + b - 1) / b * b ≤ a + b - 1 := Nat.div_mul_le_self _ _
  have hadd : a + b - 1 < (a + b - 1) / b * b + b := Nat.lt_div_mul_add hb
  rw [cdiv_eq hb', hceil]
  generalize (a + b - 1) / b = c at hmul hadd ⊢
  have hquot : (-(a : Int)) / b = -(c : Int) := by
    have hlow : -(c : Int) ≤ (-(a : Int)) / b := by
      rw [Int.le_ediv_iff_mul_le hb', neg_mul, neg_le_neg_iff]
      have : a ≤ c * b := by omega
      exact_mod_cast this
    have hhigh : (-(a : Int)) / b < -(c : Int) + 1 := by
      rw [Int.ediv_lt_iff_lt_mul hb', add_mul, neg_mul, one_mul]
      have : c * b < a + b := by omega
      have : (c : Int) * b < a + b := by exact_mod_cast this
      omega
    omega
  rw [hquot, neg_neg]

namespace SingleTypeManager

variable (p : BlockPool) (hashes : List BlockHash) (gs : List Nat) (maxLength : Nat)
  {spec : KVCacheSpec}

lemma findLongestCacheHit_full (hkind : spec.kind = .full) (useEagle : Bool)
    (dcpWorldSize : Nat) :
    findLongestCacheHit spec p hashes maxLength gs useEagle dcpWorldSize =
      dropLastHit useEagle (hitLoop p gs
        (hashes.take (maxLength / hitBlockSize spec dcpWorldSize)) (gs.map fun _ => [])) := by
  have hsize : (if dcpWorldSize > 1 then (spec.blockSize * dcpWorldSize : Int)
      else spec.blockSize) = (hitBlockSize spec dcpWorldSize : Int) := by
    unfold hitBlockSize
    split_ifs <;> push_cast <;> rfl
  have hdiv : (maxLength : Int).fdiv (hitBlockSize spec dcpWorldSize) =
      ((maxLength / hitBlockSize spec dcpWorldSize : Nat) : Int) := by
    rw [Int.fdiv_eq_ediv_of_nonneg _ (by omega)]
    exact (Int.natCast_div _ _).symm
  simp only [findLongestCacheHit, hkind, hsize, fullCacheHit, hdiv, Int.toNat_natCast]
  rw [if_neg (Int.not_lt.mpr (Int.natCast_nonneg _))]

lemma fullAttention_hit (hkind : spec.kind = .full) (dcpWorldSize : Nat) :
    ∃ hits, findLongestCacheHit spec p hashes maxLength gs false dcpWorldSize = .ok hits ∧
      IsPrefixHit p hashes gs (maxLength / hitBlockSize spec dcpWorldSize) hits := by
  obtain ⟨len, hlen, hrows⟩ := hitLoop_longest p hashes gs
    (maxLength / hitBlockSize spec dcpWorldSize)
  rw [findLongestCacheHit_full p hashes gs maxLength hkind]
  exact ⟨_, rfl, len, hlen, hrows⟩

lemma fullAttention_eagle_hit (hkind : spec.kind = .full) (dcpWorldSize : Nat) (hgs : gs ≠ []) :
    ∃ hits, findLongestCacheHit spec p hashes maxLength gs true dcpWorldSize = .ok hits ∧
      IsEaglePrefixHit p hashes gs (hitBlockSize spec dcpWorldSize)
        (maxLength / hitBlockSize spec dcpWorldSize) hits := by
  obtain ⟨len, hlen, hrows⟩ := hitLoop_longest p hashes gs
    (maxLength / hitBlockSize spec dcpWorldSize)
  obtain ⟨hits, hdrop, hkept⟩ := dropLastHit_true hgs hrows
  rw [findLongestCacheHit_full p hashes gs maxLength hkind]
  refine ⟨hits, hdrop, len, hlen, hkept, fun _ => hkept.imp fun g row hrow q hq _ => ?_⟩
  exact hrow.hit _ (Nat.zero_le _) (Nat.div_lt_of_lt_mul (by rwa [Nat.mul_comm] at hq))

variable {w : Nat}

lemma windowBlocks_pos (hw : 2 ≤ w) : 0 < windowBlocks w spec.blockSize := by
  rw [windowBlocks, Nat.ceilDiv_eq_add_pred_div]
  exact Nat.div_pos (by omega) spec.blockSize_pos

lemma findLongestCacheHit_sliding (hkind : spec.kind = .slidingWindow w) (hw : 2 ≤ w)
    (useEagle : Bool) :
    findLongestCacheHit spec p hashes maxLength gs useEagle 1 =
      (slidingHitLoop p hashes gs
        (windowBlocks w spec.blockSize + if useEagle then 1 else 0 : Nat)
        (maxLength / spec.blockSize) 0
        (gs.map fun _ => List.replicate (maxLength / spec.blockSize) nullBlock) >>=
        dropLastHit useEagle) := by
  have hwindow : cdiv ((w : Int) - 1) spec.blockSize = (windowBlocks w spec.blockSize : Nat) := by
    have := cdiv_natCast (a := w - 1) spec.blockSize_pos
    rwa [Nat.cast_sub (by omega), Nat.cast_one] at this
  have hdiv : ((maxLength : Int).fdiv spec.blockSize).toNat = maxLength / spec.blockSize := by
    rw [Int.fdiv_eq_ediv_of_nonneg _ (by omega), ← Int.natCast_div, Int.toNat_natCast]
  simp only [findLongestCacheHit, hkind, slidingCacheHit, hwindow, hdiv, pyAssert, if_true,
    ok_bind]
  cases useEagle <;> simp

lemma slidingWindow_hit (hkind : spec.kind = .slidingWindow w) (hw : 2 ≤ w)
    (hlen : maxLength / spec.blockSize ≤ hashes.length) :
    ∃ hits, findLongestCacheHit spec p hashes maxLength gs false 1 = .ok hits ∧
      IsWindowHit p hashes gs (windowBlocks w spec.blockSize) (maxLength / spec.blockSize)
        hits := by
  have hpos : 0 < windowBlocks w spec.blockSize := windowBlocks_pos hw
  obtain ⟨len, hits, hrun, hlongest, hrows⟩ := slidingHitLoop_longest p gs hpos hlen
  rw [findLongestCacheHit_sliding p hashes gs maxLength hkind hw]
  refine ⟨hits, ?_, len, hlongest, hrows⟩
  simp only [Bool.false_eq_true, if_false, Nat.add_zero]
  rw [hrun]
  rfl

lemma slidingWindow_eagle_hit (hkind : spec.kind = .slidingWindow w) (hw : 2 ≤ w)
    (hlen : maxLength / spec.blockSize ≤ hashes.length) (hgs : gs ≠ []) :
    ∃ hits, findLongestCacheHit spec p hashes maxLength gs true 1 = .ok hits ∧
      IsEagleWindowHit p hashes gs spec.blockSize w (maxLength / spec.blockSize) hits := by
  obtain ⟨len, hits, hrun, hlongest, hrows⟩ := slidingHitLoop_longest p gs
    (Nat.succ_pos (windowBlocks w spec.blockSize)) hlen
  obtain ⟨kept, hdrop, hkept⟩ := dropLastHit_true hgs hrows
  rw [findLongestCacheHit_sliding p hashes gs maxLength hkind hw]
  refine ⟨kept, ?_, len, hlongest, hkept, hkept.imp fun g row hrow => ?_⟩
  · simp only [if_true]
    rw [hrun]
    exact hdrop
  · have hwindow : w - 1 ≤ windowBlocks w spec.blockSize * spec.blockSize := by
      rw [Nat.mul_comm]
      exact le_smul_ceilDiv spec.blockSize_pos
    exact hrow.covers spec.blockSize_pos hwindow (by omega)

lemma slidingWindow_raises (hkind : spec.kind = .slidingWindow w) (hw : 2 ≤ w) (useEagle : Bool)
    (hlen : hashes.length < maxLength / spec.blockSize) :
    findLongestCacheHit spec p hashes maxLength gs useEagle 1 = .error .indexError := by
  rw [findLongestCacheHit_sliding p hashes gs maxLength hkind hw]
  generalize maxLength / spec.blockSize = bound at hlen ⊢
  obtain ⟨i, rfl⟩ : ∃ i, bound = i + 1 := ⟨bound - 1, by omega⟩
  simp [slidingHitLoop, List.getElem?_eq_none (show hashes.length ≤ i by omega)]

end SingleTypeManager

lemma mem_of_sameSpec {specs : List KVCacheSpec} {spec : KVCacheSpec}
    (h : sameSpec specs = .ok spec) : spec ∈ specs := by
  cases specs with
  | nil => cases h
  | cons first rest =>
    obtain ⟨_, -, h⟩ := bind_eq_ok.mp h
    obtain rfl := Except.ok.inj h
    exact List.mem_cons_self

lemma groupIdsOf_ne_nil {specs : List KVCacheSpec} {q : KVCacheSpec → Bool} {spec : KVCacheSpec}
    (h : spec ∈ specs.filter q) : groupIdsOf specs (fun g => q g.1) ≠ [] := by
  obtain ⟨hmem, hq⟩ := List.mem_filter.mp h
  obtain ⟨i, hi⟩ := List.mem_iff_getElem?.mp hmem
  have hpair : (spec, i) ∈ specs.zipIdx.filter fun g => q g.1 :=
    List.mem_filter.mpr ⟨List.mem_zipIdx_iff_getElem?.mpr hi, hq⟩
  exact List.ne_nil_of_mem (List.mem_map_of_mem (f := Prod.snd) hpair)

/-- What the split of the groups has verified. -/
structure HybridGroups.Verified (g : HybridGroups) : Prop where
  full : g.fullAttentionSpec.kind = .full
  fullIds : g.fullAttentionGroupIds ≠ []
  otherIds : g.otherGroupIds ≠ []
  divisible : g.fullAttentionSpec.blockSize ∣ g.otherSpec.blockSize

lemma verifyAndSplit_verified {config : KVCacheConfig} {g : HybridGroups}
    (hcaching : config.enableCaching = true)
    (h : verifyAndSplitKvCacheGroups config = .ok g) : g.Verified := by
  obtain ⟨full, hfull, h⟩ := bind_eq_ok.mp h
  obtain ⟨other, hother, h⟩ := bind_eq_ok.mp h
  obtain ⟨_, hdiv, h⟩ := bind_eq_ok.mp h
  obtain ⟨first, -, h⟩ := bind_eq_ok.mp h
  obtain rfl := Except.ok.inj h
  have hfull := mem_of_sameSpec hfull
  have hother := mem_of_sameSpec hother
  exact {
    full := by simpa using (List.mem_filter.mp hfull).2
    fullIds := groupIdsOf_ne_nil hfull
    otherIds := groupIdsOf_ne_nil hother
    divisible := Nat.dvd_of_mod_eq_zero ((pyAssert_eq_ok.mp hdiv) hcaching) }

lemma coordinator_hybrid {config : KVCacheConfig} {g : HybridGroups}
    (h : getKvCacheCoordinator config = .ok (.hybrid g)) :
    config.enableCaching = true ∧ verifyAndSplitKvCacheGroups config = .ok g := by
  unfold getKvCacheCoordinator at h
  split_ifs at h with hcaching
  · cases h
  · refine ⟨by simpa using hcaching, ?_⟩
    split at h
    · cases h
    · obtain ⟨_, -, h⟩ := bind_eq_ok.mp h
      obtain ⟨g', hg', h⟩ := bind_eq_ok.mp h
      obtain rfl := CoordinatorKind.hybrid.inj (Except.ok.inj h)
      exact hg'

/-- For all groups in their order the longest hit that both kinds of groups allow, and its
number of tokens. -/
def IsHybridHit (p : BlockPool) (hashes : List BlockHash) (numGroups : Nat) (g : HybridGroups)
    (slidingWindow maxLength : Nat) (hits : List (List BlockId) × Int) : Prop :=
  ∃ len fullHits otherHits,
    hits = (if g.fullAttnFirst then fullHits ++ otherHits else otherHits ++ fullHits,
      ((len * g.otherSpec.blockSize : Nat) : Int)) ∧
    (if g.fullAttnFirst then g.fullAttentionGroupIds ++ g.otherGroupIds
      else g.otherGroupIds ++ g.fullAttentionGroupIds) = List.range numGroups ∧
    IsGreatest {l | l * g.otherSpec.blockSize ≤ maxLength ∧
      (∀ j < l * (g.otherSpec.blockSize / g.fullAttentionSpec.blockSize),
        CachedAt p hashes g.fullAttentionGroupIds j) ∧
      Usable (CachedAt p hashes g.otherGroupIds)
        (windowBlocks slidingWindow g.otherSpec.blockSize) l} len ∧
    List.Forall₂
      (HitRow p hashes 0 (len * (g.otherSpec.blockSize / g.fullAttentionSpec.blockSize)))
      g.fullAttentionGroupIds fullHits ∧
    List.Forall₂
      (HitRow p hashes (len - windowBlocks slidingWindow g.otherSpec.blockSize) len)
      g.otherGroupIds otherHits

lemma prefix_le_hashes {bound len : Nat}
    (h : IsLongestPrefix (CachedAt p hashes gs) bound len) : len ≤ hashes.length := by
  by_contra hlt
  obtain ⟨hash, hhash, -⟩ := h.1.2 hashes.length (by omega)
  simp at hhash

lemma head_length {first len : Nat} {hits : List (List BlockId)}
    (h : List.Forall₂ (HitRow p hashes first len) gs hits) (hgs : gs ≠ []) :
    (hits.head?.getD []).length = len := by
  cases h with
  | nil => exact absurd rfl hgs
  | cons hrow hrows => exact hrow.length

namespace KVCacheManager

lemma hybridCacheHit_longest {s : KVCacheManager} {g : HybridGroups} {w : Nat}
    (hg : g.Verified)
    (hids : (if g.fullAttnFirst then g.fullAttentionGroupIds ++ g.otherGroupIds
      else g.otherGroupIds ++ g.fullAttentionGroupIds) = List.range s.config.kvCacheGroups.length)
    (hkind : g.otherSpec.kind = .slidingWindow w) (hw : 2 ≤ w)
    (heagle : s.config.useEagle = false) (hashes : List BlockHash) (maxLength : Nat) :
    ∃ hits, s.hybridCacheHit g hashes maxLength = .ok hits ∧
      IsHybridHit s.blockPool hashes s.config.kvCacheGroups.length g w maxLength hits := by
  obtain ⟨ratio, hratio⟩ := hg.divisible
  have hfullpos := g.fullAttentionSpec.blockSize_pos
  have hratiopos : 0 < ratio := by
    have := g.otherSpec.blockSize_pos
    rw [hratio] at this
    exact Nat.pos_of_mul_pos_left this
  have hquot : g.otherSpec.blockSize / g.fullAttentionSpec.blockSize = ratio := by
    rw [hratio, Nat.mul_div_cancel_left _ hfullpos]
  obtain ⟨hitFull, hfull, fine, hfine, hfullRows⟩ := SingleTypeManager.fullAttention_hit
    s.blockPool hashes g.fullAttentionGroupIds maxLength hg.full 1
  rw [show hitBlockSize g.fullAttentionSpec 1 = g.fullAttentionSpec.blockSize by
    simp [hitBlockSize]] at hfine
  have hbound : fine * g.fullAttentionSpec.blockSize / g.otherSpec.blockSize = fine / ratio := by
    rw [hratio, Nat.mul_comm fine, Nat.mul_div_mul_left _ _ hfullpos]
  have hhashes : fine / ratio ≤ hashes.length :=
    (Nat.div_le_self _ _).trans (prefix_le_hashes hfine)
  obtain ⟨hitOther, hother, len, hlen, hotherRows⟩ := SingleTypeManager.slidingWindow_hit
    s.blockPool hashes g.otherGroupIds (fine * g.fullAttentionSpec.blockSize) hkind hw
    (hbound ▸ hhashes)
  rw [hbound] at hlen
  have hgreatest := hlen.within_prefix hratiopos hfine
  simp only [Nat.le_div_iff_mul_le hfullpos, Nat.mul_assoc] at hgreatest
  rw [Nat.mul_comm ratio, ← hratio] at hgreatest
  have hcut : len * ratio ≤ fine := (Nat.le_div_iff_mul_le hratiopos).mp hlen.1.1
  have hfullCut := forall₂_map hfullRows fun _ _ hrow => hrow.take hcut
  refine ⟨_, ?_, len, hitFull.map (List.take (len * ratio)), hitOther, rfl, hids, ?_, ?_,
    hotherRows⟩
  · have hfullLength : ((hitFull.head?.getD []).length : Int) * g.fullAttentionSpec.blockSize =
        ((fine * g.fullAttentionSpec.blockSize : Nat) : Int) := by
      rw [head_length hfullRows hg.fullIds, Nat.cast_mul]
    have htotal : len * ratio * g.fullAttentionSpec.blockSize = len * g.otherSpec.blockSize := by
      rw [hratio, Nat.mul_comm g.fullAttentionSpec.blockSize, Nat.mul_assoc]
    have hotherLength : ((hitOther.head?.getD []).length : Int) * g.otherSpec.blockSize =
        ((len * ratio * g.fullAttentionSpec.blockSize : Nat) : Int) := by
      rw [head_length hotherRows hg.otherIds, htotal, Nat.cast_mul]
    have hfdiv : ((len * ratio * g.fullAttentionSpec.blockSize : Nat) : Int).fdiv
        g.fullAttentionSpec.blockSize = ((len * ratio : Nat) : Int) := by
      rw [Int.fdiv_eq_ediv_of_nonneg _ (by omega), ← Int.natCast_div,
        Nat.mul_div_cancel _ hfullpos]
    have hfmod : ((len * ratio * g.fullAttentionSpec.blockSize : Nat) : Int).fmod
        g.fullAttentionSpec.blockSize = 0 := by
      rw [Int.fmod_eq_emod_of_nonneg _ (by omega)]
      exact Int.emod_eq_zero_of_dvd (by push_cast; exact Dvd.intro_left _ rfl)
    rw [htotal] at hotherLength hfdiv hfmod
    unfold hybridCacheHit
    rw [heagle, hfull, ok_bind]
    simp only [hfullLength, hother, hotherLength, hfmod, hfdiv, Int.toNat_natCast, pyAssert,
      if_true, ok_bind, pure_eq]
  · rw [hquot]
    exact hgreatest
  · rw [hquot]
    exact hfullCut

lemma hybrid_hit {s : KVCacheManager} {g : HybridGroups} {w : Nat}
    (hcoord : getKvCacheCoordinator s.config = .ok s.coordinator)
    (hhybrid : s.coordinator = .hybrid g) (hkind : g.otherSpec.kind = .slidingWindow w)
    (hw : 2 ≤ w) (heagle : s.config.useEagle = false) (hashes : List BlockHash)
    (maxLength : Nat) :
    ∃ hits, s.findLongestCacheHit hashes maxLength = .ok hits ∧
      IsHybridHit s.blockPool hashes s.config.kvCacheGroups.length g w maxLength hits := by
  obtain ⟨hcaching, hsplit⟩ := coordinator_hybrid (hhybrid ▸ hcoord)
  rw [findLongestCacheHit, hhybrid]
  exact hybridCacheHit_longest (verifyAndSplit_verified hcaching hsplit)
    (verifyAndSplit_ids hsplit) hkind hw heagle hashes maxLength

/-- In every pool the searches return the longest hits: a prefix for full attention, a window
for sliding windows (which must have a hash for every block of `maxLength`), both at once
for the hybrid coordinator; with eagle without the last block, over a window of one more. -/
theorem findLongestCacheHit_longest (p : BlockPool) (hashes : List BlockHash)
    (maxLength : Nat) :
    (∀ gs spec dcp, spec.kind = .full →
      ∃ hits, SingleTypeManager.findLongestCacheHit spec p hashes maxLength gs false dcp =
          .ok hits ∧
        IsPrefixHit p hashes gs (maxLength / hitBlockSize spec dcp) hits) ∧
    (∀ gs spec w, spec.kind = .slidingWindow w → 2 ≤ w →
      (maxLength / spec.blockSize ≤ hashes.length →
        ∃ hits, SingleTypeManager.findLongestCacheHit spec p hashes maxLength gs false 1 =
            .ok hits ∧
          IsWindowHit p hashes gs (windowBlocks w spec.blockSize) (maxLength / spec.blockSize)
            hits) ∧
      (hashes.length < maxLength / spec.blockSize →
        SingleTypeManager.findLongestCacheHit spec p hashes maxLength gs false 1 =
          .error .indexError)) ∧
    (∀ (s : KVCacheManager) g w, s.blockPool = p →
      getKvCacheCoordinator s.config = .ok s.coordinator → s.coordinator = .hybrid g →
      g.otherSpec.kind = .slidingWindow w → 2 ≤ w → s.config.useEagle = false →
      ∃ hits, s.findLongestCacheHit hashes maxLength = .ok hits ∧
        IsHybridHit p hashes s.config.kvCacheGroups.length g w maxLength hits) ∧
    (∀ gs spec dcp, gs ≠ [] → spec.kind = .full →
      ∃ hits, SingleTypeManager.findLongestCacheHit spec p hashes maxLength gs true dcp =
          .ok hits ∧
        IsEaglePrefixHit p hashes gs (hitBlockSize spec dcp)
          (maxLength / hitBlockSize spec dcp) hits) ∧
    (∀ gs spec w, gs ≠ [] → spec.kind = .slidingWindow w → 2 ≤ w →
      maxLength / spec.blockSize ≤ hashes.length →
      ∃ hits, SingleTypeManager.findLongestCacheHit spec p hashes maxLength gs true 1 =
          .ok hits ∧
        IsEagleWindowHit p hashes gs spec.blockSize w (maxLength / spec.blockSize) hits) ∧
    (p.MapOk → ∀ g row j, Hit p hashes g row j →
      ∃ hash b, hashes[j]? = some hash ∧ row[j]? = some b ∧
        (b ≠ nullBlock → p.blockHash b = some (hash, g))) := by
  refine ⟨?_, ?_, ?_, ?_, ?_, ?_⟩
  · intro gs spec dcp hkind
    exact SingleTypeManager.fullAttention_hit p hashes gs maxLength hkind dcp
  · intro gs spec w hkind hw
    exact ⟨SingleTypeManager.slidingWindow_hit p hashes gs maxLength hkind hw,
      SingleTypeManager.slidingWindow_raises p hashes gs maxLength hkind hw false⟩
  · rintro s g w rfl hcoord hhybrid hkind hw heagle
    exact hybrid_hit hcoord hhybrid hkind hw heagle hashes maxLength
  · intro gs spec dcp hgs hkind
    exact SingleTypeManager.fullAttention_eagle_hit p hashes gs maxLength hkind dcp hgs
  · intro gs spec w hgs hkind hw hlen
    exact SingleTypeManager.slidingWindow_eagle_hit p hashes gs maxLength hkind hw hlen hgs
  · intro hmap g row j hhit
    exact hhit.blockHash hmap

/-- Blocks 5, 6 and 7 are cached under the first, third and fourth of four hashes. -/
def holePool : BlockPool where
  numGpuBlocks := 8
  enableCaching := true
  enableKvCacheEvents := false
  refCnt := fun _ => 0
  blockHash := fun b => if b = 5 then some ([1], 0) else if b = 6 then some ([3], 0)
    else if b = 7 then some ([4], 0) else none
  freeBlockQueue := [1, 2, 3, 4, 5, 6, 7]
  cachedBlockHashToBlock := ((BlockHashToBlockMap.insert (fun _ => none) ([1], 0) 5).insert
    ([3], 0) 6).insert ([4], 0) 7
  kvEventQueue := []

def windowSpec : KVCacheSpec := { blockSize := 4, kind := .slidingWindow 6 }

/-- A window of two blocks ends after the fourth; with eagle no window of three exists, and
of the cached prefix, one block, nothing is kept. -/
theorem findLongestCacheHit_longest_hole :
    (SingleTypeManager.findLongestCacheHit windowSpec holePool [[1], [2], [3], [4]] 17 [0] false
        1 = .ok [[0, 0, 6, 7]] ∧
      ∃ hits, SingleTypeManager.findLongestCacheHit windowSpec holePool [[1], [2], [3], [4]] 17
          [0] false 1 = .ok hits ∧
        IsWindowHit holePool [[1], [2], [3], [4]] [0] 2 4 hits) ∧
    SingleTypeManager.findLongestCacheHit windowSpec holePool [[1], [2], [3], [4]] 17 [0] true
        1 = .ok [[]] ∧
      ∃ hits, SingleTypeManager.findLongestCacheHit windowSpec holePool [[1], [2], [3], [4]] 17
          [0] true 1 = .ok hits ∧
        IsEagleWindowHit holePool [[1], [2], [3], [4]] [0] 4 6 4 hits := by
  obtain ⟨-, hsliding, -, -, heagle, -⟩ :=
    findLongestCacheHit_longest holePool [[1], [2], [3], [4]] 17
  exact ⟨⟨by decide +kernel, (hsliding [0] windowSpec 6 rfl (by decide)).1 (by decide)⟩,
    by decide +kernel, heagle [0] windowSpec 6 (by decide) rfl (by decide) (by decide)⟩

/-- Without a hash for every block the sliding window search raises. -/
theorem not_windowHit_short_hashes :
    ¬ ∀ p hashes (maxLength : Nat) gs spec w, spec.kind = .slidingWindow w → 2 ≤ w →
      ∃ hits, SingleTypeManager.findLongestCacheHit spec p hashes maxLength gs false 1 =
          .ok hits ∧
        IsWindowHit p hashes gs (windowBlocks w spec.blockSize) (maxLength / spec.blockSize)
          hits := by
  intro hall
  obtain ⟨hits, hok, -⟩ := hall holePool [] 4 [0] windowSpec 6 rfl (by decide)
  have hraises : SingleTypeManager.findLongestCacheHit windowSpec holePool [] (4 : Nat) [0] false
      1 = .error .indexError := by decide +kernel
  rw [hraises] at hok
  cases hok

end KVCacheManager

end VllmV1
