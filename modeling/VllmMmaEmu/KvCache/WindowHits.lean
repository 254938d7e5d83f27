import VllmMmaEmu.KvCache.Capacity
import VllmMmaEmu.KvCache.LongestHit

/-!
# Windows and the hits before them

The search for hits, the null padding and the removal of skipped blocks each compute the start
of a window, with different roundings. Here each of them is compared with the first block that
the next token attends to.
-/

namespace VllmV1

open Python WindowSearch

namespace AttentionKind

/-- The token at `p` attends to the position `q`. -/
def Attends : AttentionKind → (p q : Nat) → Prop
  | .slidingWindow w, p, q => q ≤ p ∧ p < q + w
  | .chunkedLocal c, p, q => q ≤ p ∧ q / c = p / c
  | .full, p, q | .mamba _, p, q | .cross, p, q => q ≤ p

/-- The kinds that attend to a part of the tokens only. -/
def IsLocal : AttentionKind → Prop
  | .slidingWindow w => 2 ≤ w
  | .chunkedLocal c => 0 < c
  | .full | .mamba _ | .cross => False

/-- The first position that the token at `p` attends to. -/
def windowStart : AttentionKind → Int → Int
  | .slidingWindow w, p => p - w + 1
  | .chunkedLocal c, p => p.fdiv c * c
  | .full, _ | .mamba _, _ | .cross, _ => 0

variable {kind : AttentionKind}

lemma Attends.le {p q : Nat} (h : kind.Attends p q) : q ≤ p := by
  cases kind with
  | slidingWindow w => exact h.1
  | chunkedLocal c => exact h.1
  | full => exact h
  | mamba _ => exact h
  | cross => exact h

lemma Attends.windowStart_le {p q : Nat} (h : kind.Attends p q) : kind.windowStart p ≤ q := by
  cases kind with
  | slidingWindow w =>
    obtain ⟨-, hlow⟩ := h
    simp only [windowStart]
    omega
  | chunkedLocal c =>
    obtain ⟨-, hchunk⟩ := h
    simp only [windowStart]
    rw [← Int.ofNat_fdiv, ← hchunk, ← Nat.cast_mul]
    exact_mod_cast Nat.div_mul_le_self q c
  | full => exact Int.natCast_nonneg q
  | mamba _ => exact Int.natCast_nonneg q
  | cross => exact Int.natCast_nonneg q

lemma windowStart_mono {p p' : Int} (h : p ≤ p') : kind.windowStart p ≤ kind.windowStart p' := by
  cases kind with
  | slidingWindow w =>
    simp only [windowStart]
    omega
  | chunkedLocal c =>
    simp only [windowStart]
    rw [Int.fdiv_eq_ediv_of_nonneg _ (by omega), Int.fdiv_eq_ediv_of_nonneg _ (by omega)]
    rcases Nat.eq_zero_or_pos c with rfl | hc
    · simp
    · exact mul_le_mul_of_nonneg_right (Int.ediv_le_ediv (by omega) h) (by omega)
  | full => exact le_rfl
  | mamba _ => exact le_rfl
  | cross => exact le_rfl

end AttentionKind

/-- The first block that the token at `n` attends to. -/
def KVCacheSpec.windowBlock (spec : KVCacheSpec) (n : Int) : Int :=
  max 0 ((spec.kind.windowStart n).fdiv spec.blockSize)

lemma KVCacheSpec.windowBlock_mono (spec : KVCacheSpec) {n n' : Int} (h : n ≤ n') :
    spec.windowBlock n ≤ spec.windowBlock n' := by
  have hpos : (0 : Int) < spec.blockSize := by exact_mod_cast spec.blockSize_pos
  rw [windowBlock, windowBlock, Int.fdiv_eq_ediv_of_nonneg _ hpos.le,
    Int.fdiv_eq_ediv_of_nonneg _ hpos.le]
  exact max_le_max_left 0 (Int.ediv_le_ediv hpos (AttentionKind.windowStart_mono h))

/-- A token at `p` or later attends to no block before the window of `n`, for `n ≤ p`. -/
lemma KVCacheSpec.windowBlock_le {spec : KVCacheSpec} {n : Int} {p q : Nat} (hn : n ≤ p)
    (h : spec.kind.Attends p q) : spec.windowBlock n ≤ (q / spec.blockSize : Nat) := by
  have hpos : (0 : Int) < spec.blockSize := by exact_mod_cast spec.blockSize_pos
  refine (spec.windowBlock_mono hn).trans (max_le (Int.natCast_nonneg _) ?_)
  rw [Int.fdiv_eq_ediv_of_nonneg _ hpos.le, Int.natCast_div]
  exact Int.ediv_le_ediv hpos h.windowStart_le

/-- The removal of skipped blocks stops at the window of the next token. -/
lemma SingleTypeManager.firstUsefulBlock_le {m : SingleTypeManager}
    (hsize : m.blockSize = m.kvCacheSpec.blockSize) (requestId : String) (n : Int) :
    max 0 (m.firstUsefulBlock requestId n) ≤ m.kvCacheSpec.windowBlock n := by
  have hle : m.firstUsefulBlock requestId n ≤
      (m.kvCacheSpec.kind.windowStart n).fdiv m.kvCacheSpec.blockSize := by
    unfold firstUsefulBlock
    rw [hsize]
    cases m.kvCacheSpec.kind with
    | slidingWindow w => exact le_rfl
    | chunkedLocal chunk =>
      simp only
      split_ifs
      · exact min_le_left _ _
      · exact le_rfl
    | full => exact (Int.zero_fdiv _).ge
    | mamba _ => exact (Int.zero_fdiv _).ge
    | cross => exact (Int.zero_fdiv _).ge
  exact max_le_max_left 0 hle

variable {p : BlockPool} {hashes : List BlockHash} {gs : List Nat} {g : Nat}

namespace SingleTypeManager

lemma chunkedHitLoop_rows {n first len : Nat} {computed rows : List (List BlockId)}
    (h : chunkedHitLoop p gs n (hashes.drop len) computed = .ok rows) (hle : first ≤ len)
    (hc : List.Forall₂ (HitRow p hashes first len) gs computed) :
    ∃ len', len ≤ len' ∧ len' ≤ len + n ∧ List.Forall₂ (HitRow p hashes first len') gs rows := by
  induction n generalizing len computed with
  | zero =>
    obtain rfl := Except.ok.inj h
    exact ⟨len, le_rfl, by omega, hc⟩
  | succ n ih =>
    cases hdrop : hashes.drop len with
    | nil =>
      rw [hdrop] at h
      cases h
    | cons hash rest =>
      rw [hdrop] at h
      have hhash : hashes[len]? = some hash := by
        rw [← Nat.add_zero len, ← List.getElem?_drop, hdrop]
        rfl
      have hrest : rest = hashes.drop (len + 1) := by
        rw [← List.tail_drop, hdrop]
        rfl
      unfold chunkedHitLoop at h
      split at h
      · rename_i b bs hcached
        rw [hrest] at h
        obtain ⟨len', hlow, hhigh, hrows⟩ := ih h (by omega)
          (forall₂_zipWith hc (getCachedBlock_oneBlock hcached)
            fun _ _ _ hrow hone => hrow.concat hle hhash hone)
        exact ⟨len', by omega, by omega, hrows⟩
      · obtain rfl := Except.ok.inj h
        exact ⟨len, le_rfl, by omega, hc⟩

lemma hitRow_replicate (n g : Nat) : HitRow p hashes n n g (List.replicate n nullBlock) where
  length := List.length_replicate
  null := by
    intro j hj _
    simp [hj]
  hit := by omega

/-- The block at which the search for a chunk starts; the ones before it count as hits. -/
def chunkStart (blockSize chunk maxLength : Nat) : Nat := maxLength / chunk * chunk / blockSize

lemma chunkedCacheHit_rows {blockSize chunk maxLength : Nat} {rows : List (List BlockId)}
    (h : chunkedCacheHit p hashes maxLength blockSize chunk gs = .ok rows) :
    ∃ len, chunkStart blockSize chunk maxLength ≤ len ∧
      len ≤ max (chunkStart blockSize chunk maxLength) (maxLength / blockSize) ∧
      List.Forall₂ (HitRow p hashes (chunkStart blockSize chunk maxLength) len) gs rows := by
  have hstart : ((if (maxLength : Int) > 0 then (maxLength : Int).fdiv chunk * chunk else 0).fdiv
      blockSize).toNat = chunkStart blockSize chunk maxLength := by
    have hidx : (if (maxLength : Int) > 0 then (maxLength : Int).fdiv chunk * chunk else 0) =
        ((maxLength / chunk * chunk : Nat) : Int) := by
      rw [← Int.ofNat_fdiv, ← Nat.cast_mul]
      split_ifs with hpos
      · rfl
      · obtain rfl : maxLength = 0 := by omega
        simp
    rw [hidx, ← Int.ofNat_fdiv, Int.toNat_natCast, chunkStart]
  have hmax : ((maxLength : Int).fdiv blockSize).toNat = maxLength / blockSize := by
    rw [← Int.ofNat_fdiv, Int.toNat_natCast]
  simp only [chunkedCacheHit, hstart, hmax] at h
  obtain ⟨len, hlow, hhigh, hrows⟩ := chunkedHitLoop_rows h le_rfl
    (forall₂_map_const gs _ fun g => hitRow_replicate _ g)
  exact ⟨len, hlow, by omega, hrows⟩

/-- The padding ends at the start of a chunk, or a block of the last chunk is hit. -/
def PaddingAligned (spec : KVCacheSpec) (maxLength len : Nat) : Prop :=
  match spec.kind with
  | .chunkedLocal chunk =>
    chunk ∣ chunkStart spec.blockSize chunk maxLength * spec.blockSize ∨
      chunkStart spec.blockSize chunk maxLength < len
  | .slidingWindow _ | .full | .mamba _ | .cross => True

lemma windowBlock_sliding {spec : KVCacheSpec} {w window : Nat}
    (hkind : spec.kind = .slidingWindow w) (hwindow : w - 1 ≤ window * spec.blockSize)
    (len : Nat) : ((len - window : Nat) : Int) ≤ spec.windowBlock (len * spec.blockSize : Nat) := by
  by_cases hle : len ≤ window
  · rw [Nat.sub_eq_zero_of_le hle]
    exact le_max_left _ _
  · have hpos : (0 : Int) < spec.blockSize := by exact_mod_cast spec.blockSize_pos
    refine le_max_of_le_right ?_
    rw [hkind, Int.fdiv_eq_ediv_of_nonneg _ hpos.le, Int.le_ediv_iff_mul_le hpos]
    have hsplit : (len - window) * spec.blockSize + window * spec.blockSize =
        len * spec.blockSize := by
      rw [← Nat.add_mul, Nat.sub_add_cancel (by omega)]
    simp only [AttentionKind.windowStart]
    have : ((len - window) * spec.blockSize : Nat) ≤ (len * spec.blockSize : Nat) - (w : Int) + 1 := by
      omega
    exact_mod_cast this

lemma windowBlock_chunked {spec : KVCacheSpec} {chunk : Nat}
    (hkind : spec.kind = .chunkedLocal chunk) (n : Nat) :
    spec.windowBlock n = chunkStart spec.blockSize chunk n := by
  rw [KVCacheSpec.windowBlock, hkind]
  simp only [AttentionKind.windowStart]
  rw [← Int.ofNat_fdiv, ← Nat.cast_mul, ← Int.ofNat_fdiv, max_eq_right (Int.natCast_nonneg _),
    chunkStart]

lemma chunkStart_le {blockSize chunk maxLength len : Nat} (hpos : 0 < blockSize)
    (hlow : chunkStart blockSize chunk maxLength ≤ len)
    (h : chunk ∣ chunkStart blockSize chunk maxLength * blockSize ∨
      chunkStart blockSize chunk maxLength < len) :
    chunkStart blockSize chunk maxLength ≤ chunkStart blockSize chunk (len * blockSize) := by
  have hmono : ∀ n, chunk ∣ n → n ≤ len * blockSize → n ≤ len * blockSize / chunk * chunk := by
    intro n hdvd hn
    have hle := Nat.mul_le_mul_right chunk (Nat.div_le_div_right (c := chunk) hn)
    rwa [Nat.div_mul_cancel hdvd] at hle
  rcases h with hdvd | hlt
  · refine (Nat.le_div_iff_mul_le hpos).mpr (hmono _ hdvd ?_)
    exact Nat.mul_le_mul_right _ hlow
  · refine Nat.div_le_div_right (hmono _ (Nat.dvd_mul_left _ _) ?_)
    have hnext : maxLength / chunk * chunk < (chunkStart blockSize chunk maxLength + 1) *
        blockSize := (Nat.div_lt_iff_lt_mul hpos).mp (Nat.lt_succ_self _)
    have hle := Nat.mul_le_mul_right blockSize (show _ + 1 ≤ len from hlt)
    omega

lemma findLongestCacheHit_rows {spec : KVCacheSpec} {maxLength dcpWorldSize : Nat}
    {useEagle : Bool} {rows : List (List BlockId)} (hlocal : spec.kind.IsLocal) (hgs : gs ≠ [])
    (h : findLongestCacheHit spec p hashes maxLength gs useEagle dcpWorldSize = .ok rows) :
    dcpWorldSize = 1 ∧ ∃ first len : Nat, List.Forall₂ (HitRow p hashes first len) gs rows ∧
      (PaddingAligned spec maxLength len →
        (first : Int) ≤ spec.windowBlock (len * spec.blockSize : Nat)) := by
  cases hkind : spec.kind with
  | slidingWindow w =>
    rw [hkind] at hlocal
    have hw : 2 ≤ w := hlocal
    obtain rfl : dcpWorldSize = 1 := by
      rw [findLongestCacheHit, hkind] at h
      obtain ⟨_, hone, -⟩ := bind_eq_ok.mp h
      exact pyAssert_eq_ok.mp hone
    have hlen : maxLength / spec.blockSize ≤ hashes.length := by
      by_contra hshort
      rw [slidingWindow_raises p hashes gs maxLength hkind hw useEagle (not_le.mp hshort)] at h
      cases h
    have hwindow : w - 1 ≤ windowBlocks w spec.blockSize * spec.blockSize := by
      rw [Nat.mul_comm]
      exact le_smul_ceilDiv spec.blockSize_pos
    refine ⟨rfl, ?_⟩
    cases useEagle with
    | false =>
      obtain ⟨rows', hrun, len, -, hrows⟩ := slidingWindow_hit p hashes gs maxLength hkind hw hlen
      obtain rfl := Except.ok.inj (hrun.symm.trans h)
      exact ⟨_, len, hrows, fun _ => windowBlock_sliding hkind hwindow len⟩
    | true =>
      obtain ⟨rows', hrun, len, -, hrows, -⟩ :=
        slidingWindow_eagle_hit p hashes gs maxLength hkind hw hlen hgs
      obtain rfl := Except.ok.inj (hrun.symm.trans h)
      refine ⟨_, len - 1, hrows, fun _ => ?_⟩
      rw [show len - (windowBlocks w spec.blockSize + 1) =
        len - 1 - windowBlocks w spec.blockSize by omega]
      exact windowBlock_sliding hkind hwindow (len - 1)
  | chunkedLocal chunk =>
    rw [findLongestCacheHit, hkind] at h
    obtain ⟨_, -, h⟩ := bind_eq_ok.mp h
    obtain ⟨_, hone, h⟩ := bind_eq_ok.mp h
    obtain ⟨len, hlow, -, hrows⟩ := chunkedCacheHit_rows h
    refine ⟨pyAssert_eq_ok.mp hone, _, len, hrows, fun haligned => ?_⟩
    rw [PaddingAligned, hkind] at haligned
    rw [windowBlock_chunked hkind]
    exact_mod_cast chunkStart_le spec.blockSize_pos hlow haligned
  | full =>
    rw [hkind] at hlocal
    exact hlocal.elim
  | mamba _ =>
    rw [hkind] at hlocal
    exact hlocal.elim
  | cross =>
    rw [hkind] at hlocal
    exact hlocal.elim

end SingleTypeManager

namespace KVCacheManager

variable {s : KVCacheManager} {i : Nat} {spec : KVCacheSpec} {hits : List (List BlockId)}
  {length : Int}

/-- The hits of group `i` are a row of one search, and `length` counts their tokens. -/
def FoundAt (s : KVCacheManager) (hashes : List BlockHash) (i : Nat) (spec : KVCacheSpec)
    (hits : List (List BlockId)) (length : Int) : Prop :=
  ∃ (maxLength : Nat) (gs : List Nat) (rows : List (List BlockId)) (k : Nat)
      (row : List BlockId),
    SingleTypeManager.findLongestCacheHit spec s.blockPool hashes maxLength gs
      s.config.useEagle s.config.dcpWorldSize = .ok rows ∧
    gs[k]? = some i ∧ rows[k]? = some row ∧ hits[i]? = some row ∧
    length = (row.length * spec.blockSize : Nat)

lemma mem_groupIdsOf {specs : List KVCacheSpec} {q : KVCacheSpec × Nat → Bool} :
    i ∈ groupIdsOf specs q ↔ ∃ spec, specs[i]? = some spec ∧ q (spec, i) = true := by
  simp [groupIdsOf, List.mem_zipIdx_iff_getElem?]

/-- The row of a group that is not full attention among the joined hits. -/
lemma joined_at {fullIds otherIds : List Nat} (hitFull hitOther : List (List BlockId)) {n : Nat}
    {fullFirst : Bool}
    (hids : (if fullFirst then fullIds ++ otherIds else otherIds ++ fullIds) = List.range n)
    (hi : i < n) (hother : i ∉ fullIds) (hfullLength : hitFull.length = fullIds.length)
    (hotherLength : hitOther.length = otherIds.length) :
    ∃ (k : Nat) (row : List BlockId), otherIds[k]? = some i ∧ hitOther[k]? = some row ∧
      (if fullFirst then hitFull ++ hitOther else hitOther ++ hitFull)[i]? = some row := by
  have hat : (List.range n)[i]? = some i := List.getElem?_range hi
  rw [← hids] at hat
  cases fullFirst with
  | true =>
    simp only [if_pos] at hat ⊢
    have hge : fullIds.length ≤ i := by
      by_contra hlt
      rw [List.getElem?_append_left (not_le.mp hlt)] at hat
      exact hother (List.mem_of_getElem? hat)
    rw [List.getElem?_append_right hge] at hat
    have hlt := (List.getElem?_eq_some_iff.mp hat).1
    rw [← hotherLength] at hlt
    refine ⟨i - fullIds.length, _, hat, List.getElem?_eq_getElem hlt, ?_⟩
    rw [List.getElem?_append_right (by omega), hfullLength]
    exact List.getElem?_eq_getElem hlt
  | false =>
    simp only [Bool.false_eq_true, if_false] at hat ⊢
    have hlt : i < otherIds.length := by
      by_contra hge
      rw [List.getElem?_append_right (not_lt.mp hge)] at hat
      exact hother (List.mem_of_getElem? hat)
    rw [List.getElem?_append_left hlt] at hat
    rw [← hotherLength] at hlt
    refine ⟨i, _, hat, List.getElem?_eq_getElem hlt, ?_⟩
    rw [List.getElem?_append_left hlt]
    exact List.getElem?_eq_getElem hlt

lemma hybridCacheHit_found {g : HybridGroups} {maxLength : Int}
    (hg : verifyAndSplitKvCacheGroups s.config = .ok g) (hdcp : s.config.dcpWorldSize = 1)
    (hgroup : s.config.kvCacheGroups[i]? = some spec) (hlocal : spec.kind.IsLocal)
    (hrun : s.hybridCacheHit g hashes maxLength = .ok (hits, length)) :
    s.FoundAt hashes i spec hits length := by
  have hids := verifyAndSplit_ids hg
  have hnotFull : spec.kind ≠ .full := by
    intro hfull
    rw [hfull] at hlocal
    exact hlocal
  obtain ⟨hother, hnotId⟩ : g.otherSpec = spec ∧ i ∉ g.fullAttentionGroupIds := by
    obtain ⟨full, -, hg⟩ := bind_eq_ok.mp hg
    obtain ⟨other, hother, hg⟩ := bind_eq_ok.mp hg
    obtain ⟨_, -, hg⟩ := bind_eq_ok.mp hg
    obtain ⟨first, -, hg⟩ := bind_eq_ok.mp hg
    obtain rfl := Except.ok.inj hg
    refine ⟨(sameSpec_mem hother (List.mem_filter.mpr
      ⟨List.mem_of_getElem? hgroup, by simpa using hnotFull⟩)).symm, fun hmem => ?_⟩
    obtain ⟨spec', hspec', hfull⟩ := mem_groupIdsOf.mp hmem
    obtain rfl := Option.some.inj (hgroup.symm.trans hspec')
    exact hnotFull (of_decide_eq_true hfull)
  obtain ⟨hitFull, hfull, hrun⟩ := bind_eq_ok.mp hrun
  obtain ⟨hitOther, hfound, hrun⟩ := bind_eq_ok.mp hrun
  obtain ⟨_, -, hret⟩ := bind_eq_ok.mp hrun
  obtain ⟨rfl, rfl⟩ := Prod.mk.inj (Except.ok.inj hret)
  rw [← Nat.cast_mul, hother, ← hdcp] at hfound
  have hfullLength := (SingleTypeManager.findLongestCacheHit_aligned hfull).length_eq
  have hotherLength := (SingleTypeManager.findLongestCacheHit_aligned hfound).length_eq
  obtain ⟨k, row, hk, hrow, hat⟩ := joined_at
    (hitFull.map (List.take (((hitOther.head?.getD []).length *
      g.otherSpec.blockSize : Int).fdiv g.fullAttentionSpec.blockSize).toNat)) hitOther
    hids (List.getElem?_eq_some_iff.mp hgroup).1 hnotId
    (by rw [List.length_map, hfullLength]) hotherLength.symm
  have hne : g.otherGroupIds ≠ [] := List.ne_nil_of_mem (List.mem_of_getElem? hk)
  obtain ⟨-, first, len, hrows, -⟩ :=
    SingleTypeManager.findLongestCacheHit_rows hlocal hne hfound
  refine ⟨_, _, hitOther, k, row, hfound, hk, hrow, hat, ?_⟩
  rw [head_length hrows hne, (forall₂_getElem? hrows hk hrow).length, hother, Nat.cast_mul]

lemma getComputedBlocks_found {request : Request} (h : s.WellKept)
    (hgroup : s.config.kvCacheGroups[i]? = some spec) (hlocal : spec.kind.IsLocal)
    (hcaching : s.config.enableCaching = true)
    (hlogprobs : request.samplingParams.bind SamplingParams.promptLogprobs = none)
    (htokens : 0 < request.numTokens)
    (hrun : s.getComputedBlocks request = .ok (hits, length)) :
    s.FoundAt request.blockHashes i spec hits length := by
  rw [getComputedBlocks, if_neg (by simp [hcaching, hlogprobs])] at hrun
  have hcoord := h.coordinator
  rw [getKvCacheCoordinator, if_neg (by simp [hcaching])] at hcoord
  split at hcoord
  · rename_i spec' hgroups
    rw [hgroups] at hgroup
    obtain ⟨rfl, rfl⟩ : i = 0 ∧ spec' = spec := by
      cases i with
      | zero => exact ⟨rfl, Option.some.inj hgroup⟩
      | succ i => simp at hgroup
    rw [findLongestCacheHit, ← Except.ok.inj hcoord] at hrun
    obtain ⟨rows, hfound, hret⟩ := bind_eq_ok.mp hrun
    obtain ⟨rfl, rfl⟩ := Prod.mk.inj (Except.ok.inj hret)
    rw [← Nat.cast_one, ← Nat.cast_sub htokens] at hfound
    obtain ⟨hdcp, first, len, hrows, -⟩ :=
      SingleTypeManager.findLongestCacheHit_rows hlocal (by simp) hfound
    obtain ⟨row, hrow⟩ : ∃ row, rows[0]? = some row := by
      have hone := hrows.length_eq
      exact ⟨_, List.getElem?_eq_getElem (by rw [← hone]; simp)⟩
    refine ⟨_, [0], rows, 0, row, hfound, rfl, hrow, hrow, ?_⟩
    rw [if_neg (by omega), head_length hrows (by simp),
      (forall₂_getElem? hrows (k := 0) rfl hrow).length, Nat.cast_mul]
  · obtain ⟨_, hdcp, hcoord⟩ := bind_eq_ok.mp hcoord
    obtain ⟨g, hg, hcoord⟩ := bind_eq_ok.mp hcoord
    rw [findLongestCacheHit, ← Except.ok.inj hcoord] at hrun
    exact hybridCacheHit_found hg (pyAssert_eq_ok.mp hdcp) hgroup hlocal hrun

end KVCacheManager

end VllmV1
