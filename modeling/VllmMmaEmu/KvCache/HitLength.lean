import VllmMmaEmu.KvCache.Manager

/-!
# The length of a prefix cache hit

Whatever the kind of a group, its hits are blocks for at most the tokens the search was given.
`get_computed_blocks` asks for one token less than the request has, so that something is left
to compute.
-/

namespace VllmV1

open Python

/-- No group has more than `n` hits. -/
def RowsWithin (n : Nat) (rows : List (List BlockId)) : Prop := ∀ row ∈ rows, row.length ≤ n

namespace RowsWithin

variable {n m : Nat} {rows : List (List BlockId)}

lemma const {α : Type} (gs : List α) (row : List BlockId) :
    RowsWithin row.length (gs.map fun _ => row) := by
  intro row' hrow
  obtain ⟨_, -, rfl⟩ := List.mem_map.mp hrow
  exact le_refl _

lemma mono (h : RowsWithin n rows) (hle : n ≤ m) : RowsWithin m rows :=
  fun row hrow => (h row hrow).trans hle

lemma map (h : RowsWithin n rows) {f : List BlockId → List BlockId}
    (hf : ∀ row, row.length ≤ n → (f row).length ≤ m) : RowsWithin m (rows.map f) := by
  intro row' hrow
  obtain ⟨row, hmem, rfl⟩ := List.mem_map.mp hrow
  exact hf row (h row hmem)

lemma zipWith (h : RowsWithin n rows) {f : List BlockId → BlockId → List BlockId}
    (hf : ∀ row b, row.length ≤ n → (f row b).length ≤ m) (bs : List BlockId) :
    RowsWithin m (List.zipWith f rows bs) := by
  intro row' hrow
  rw [← List.map_uncurry_zip_eq_zipWith] at hrow
  obtain ⟨⟨row, b⟩, hmem, rfl⟩ := List.mem_map.mp hrow
  exact hf row b (h row (List.of_mem_zip hmem).1)

end RowsWithin

/-- The tokens of the blocks that fit into `maxLength` tokens. -/
lemma floor_mul_le {maxLength blockSize : Int} (hpos : 0 < blockSize) (hlen : 0 ≤ maxLength)
    {n : Nat} (hn : n ≤ (maxLength.fdiv blockSize).toNat) : (n : Int) * blockSize ≤ maxLength := by
  have hfloor : 0 ≤ maxLength.fdiv blockSize := Int.fdiv_nonneg hlen hpos.le
  have hle : (n : Int) ≤ maxLength.fdiv blockSize := by omega
  have hmul : maxLength.fdiv blockSize * blockSize ≤ maxLength := by
    rw [Int.fdiv_eq_ediv_of_nonneg maxLength hpos.le]
    exact Int.ediv_mul_le maxLength hpos.ne'
  exact (Int.mul_le_mul_of_nonneg_right hle hpos.le).trans hmul

namespace SingleTypeManager

variable {p : BlockPool} {hashes : List BlockHash} {gs : List Nat} {n : Nat}
  {computed hits : List (List BlockId)}

lemma hitLoop_within (h : RowsWithin n computed) :
    RowsWithin (n + hashes.length) (hitLoop p gs hashes computed) := by
  induction hashes generalizing n computed with
  | nil => exact h
  | cons hash rest ih =>
    unfold hitLoop
    split
    · refine (ih (h.zipWith (m := n + 1) (fun row b hrow => ?_) _)).mono ?_
      · simpa using hrow
      · simp only [List.length_cons]
        omega
    · exact h.mono (Nat.le_add_right n _)

lemma dropLastHit_within {useEagle : Bool} (h : RowsWithin n computed)
    (hdrop : dropLastHit useEagle computed = .ok hits) : RowsWithin n hits := by
  unfold dropLastHit at hdrop
  split_ifs at hdrop
  · split at hdrop
    · cases hdrop
    · obtain rfl := Except.ok.inj hdrop
      split_ifs
      · exact h.map fun row hrow => (List.dropLast_sublist row).length_le.trans hrow
      · exact h
  · obtain rfl := Except.ok.inj hdrop
    exact h

lemma fullCacheHit_within {maxLength blockSize : Int} {useEagle : Bool}
    (h : fullCacheHit p hashes maxLength blockSize gs useEagle = .ok hits) :
    RowsWithin (maxLength.fdiv blockSize).toNat hits := by
  simp only [fullCacheHit] at h
  split_ifs at h
  refine dropLastHit_within ((hitLoop_within (RowsWithin.const gs [])).mono ?_) h
  rw [List.length_nil, Nat.zero_add]
  exact List.length_take_le _ _

lemma slidingHitLoop_within {needed : Int} {i k : Nat} (hc : RowsWithin n computed)
    (h : slidingHitLoop p hashes gs needed i k computed = .ok hits) : RowsWithin n hits := by
  have htake : ∀ (rows : List (List BlockId)) (j : Nat), RowsWithin n rows →
      RowsWithin n (rows.map (List.take j)) :=
    fun rows j hrows => hrows.map fun row hrow => (List.length_take_le' _ _).trans hrow
  induction i generalizing k computed with
  | zero =>
    obtain rfl := Except.ok.inj h
    exact htake _ _ hc
  | succ i ih =>
    unfold slidingHitLoop at h
    split at h
    · cases h
    · split at h
      · rename_i b bs hcached
        have hset : RowsWithin n (List.zipWith (fun c b => c.set i b) computed (b :: bs)) :=
          hc.zipWith (fun row b hrow => by rwa [List.length_set]) _
        simp only at h
        split_ifs at h
        · obtain rfl := Except.ok.inj h
          exact htake _ _ hset
        · exact ih hset h
      · exact ih hc h

lemma slidingCacheHit_within {maxLength blockSize : Int} {slidingWindow : Nat} {useEagle : Bool}
    (h : slidingCacheHit p hashes maxLength blockSize slidingWindow gs useEagle = .ok hits) :
    RowsWithin (maxLength.fdiv blockSize).toNat hits := by
  obtain ⟨rows, hloop, hhits⟩ := bind_eq_ok.mp h
  have hstart : RowsWithin (maxLength.fdiv blockSize).toNat
      (gs.map fun _ => List.replicate (maxLength.fdiv blockSize).toNat nullBlock) :=
    (RowsWithin.const gs _).mono (List.length_replicate).le
  exact dropLastHit_within (slidingHitLoop_within hstart hloop) hhits

lemma chunkedHitLoop_within {k : Nat} (hc : RowsWithin n computed)
    (h : chunkedHitLoop p gs k hashes computed = .ok hits) : RowsWithin (n + k) hits := by
  induction k generalizing n hashes computed with
  | zero =>
    obtain rfl := Except.ok.inj h
    exact hc
  | succ k ih =>
    cases hashes with
    | nil => cases h
    | cons hash rest =>
      unfold chunkedHitLoop at h
      split at h
      · refine (ih (hc.zipWith (m := n + 1) (fun row b hrow => ?_) _) h).mono (by omega)
        simpa using hrow
      · obtain rfl := Except.ok.inj h
        exact hc.mono (Nat.le_add_right n _)

lemma chunkedCacheHit_within {maxLength blockSize : Int} {chunk : Nat} (hpos : 0 < blockSize)
    (h : chunkedCacheHit p hashes maxLength blockSize chunk gs = .ok hits) :
    RowsWithin (maxLength.fdiv blockSize).toNat hits := by
  simp only [chunkedCacheHit] at h
  set first := (if maxLength > 0 then maxLength.fdiv chunk * chunk else 0) with hfirst
  have hle : (first.fdiv blockSize).toNat ≤ (maxLength.fdiv blockSize).toNat := by
    by_cases hlen : maxLength > 0
    · have hstart : first ≤ maxLength := by
        rw [hfirst, if_pos hlen]
        rcases Nat.eq_zero_or_pos chunk with rfl | hchunk
        · simpa using hlen.le
        · rw [Int.fdiv_eq_ediv_of_nonneg maxLength (by omega)]
          exact Int.ediv_mul_le maxLength (by omega)
      rw [Int.fdiv_eq_ediv_of_nonneg first hpos.le, Int.fdiv_eq_ediv_of_nonneg maxLength hpos.le]
      exact Int.toNat_le_toNat (Int.ediv_le_ediv hpos hstart)
    · rw [hfirst, if_neg hlen]
      simp
  have hstart : RowsWithin (first.fdiv blockSize).toNat
      (gs.map fun _ => List.replicate (first.fdiv blockSize).toNat nullBlock) :=
    (RowsWithin.const gs _).mono (List.length_replicate).le
  exact (chunkedHitLoop_within hstart h).mono (by omega)

/-- No group gets more blocks than fit into the tokens the search was given. -/
lemma findLongestCacheHit_within {spec : KVCacheSpec} {maxLength : Int} {useEagle : Bool}
    {dcpWorldSize : Nat} (hlen : 0 ≤ maxLength)
    (h : findLongestCacheHit spec p hashes maxLength gs useEagle dcpWorldSize = .ok hits) :
    ∀ row ∈ hits, (row.length : Int) * (if dcpWorldSize > 1 then spec.blockSize * dcpWorldSize
      else spec.blockSize : Int) ≤ maxLength := by
  have hpos : (0 : Int) < spec.blockSize := by exact_mod_cast spec.blockSize_pos
  have hone : dcpWorldSize = 1 → (if dcpWorldSize > 1 then spec.blockSize * dcpWorldSize
      else spec.blockSize : Int) = spec.blockSize := fun hdcp => if_neg (by omega)
  unfold findLongestCacheHit at h
  cases hkind : spec.kind with
  | full =>
    rw [hkind] at h
    intro row hrow
    have hwithin := fullCacheHit_within h row hrow
    split_ifs at hwithin ⊢ with hdcp
    · have hscaled : (0 : Int) < spec.blockSize * dcpWorldSize :=
        Int.mul_pos hpos (by exact_mod_cast Nat.zero_lt_of_lt hdcp)
      exact floor_mul_le hscaled hlen (by exact_mod_cast hwithin)
    · exact floor_mul_le hpos hlen hwithin
  | slidingWindow w =>
    rw [hkind] at h
    obtain ⟨_, hdcp, h⟩ := bind_eq_ok.mp h
    rw [hone (pyAssert_eq_ok.mp hdcp)]
    exact fun row hrow => floor_mul_le hpos hlen (slidingCacheHit_within h row hrow)
  | chunkedLocal chunk =>
    rw [hkind] at h
    obtain ⟨_, -, h⟩ := bind_eq_ok.mp h
    obtain ⟨_, hdcp, h⟩ := bind_eq_ok.mp h
    rw [hone (pyAssert_eq_ok.mp hdcp)]
    exact fun row hrow => floor_mul_le hpos hlen (chunkedCacheHit_within hpos h row hrow)
  | mamba n =>
    rw [hkind] at h
    obtain ⟨_, -, h⟩ := bind_eq_ok.mp h
    obtain rfl := Except.ok.inj h
    intro row hrow
    obtain ⟨_, -, rfl⟩ := List.mem_map.mp hrow
    simpa using hlen
  | cross =>
    rw [hkind] at h
    cases h

end SingleTypeManager

namespace KVCacheManager

lemma head_within {hits : List (List BlockId)} {blockSize maxLength : Int} (hlen : 0 ≤ maxLength)
    (h : ∀ row ∈ hits, (row.length : Int) * blockSize ≤ maxLength) :
    ((hits.head?.getD []).length : Int) * blockSize ≤ maxLength := by
  cases hits with
  | nil => simpa using hlen
  | cons row rest => exact h row List.mem_cons_self

/-- The hits of a request leave a token to compute. -/
theorem getComputedBlocks_within {s : KVCacheManager} {request : Request}
    {hits : List (List BlockId)} {length : Int} (htokens : 1 ≤ request.numTokens)
    (h : s.getComputedBlocks request = .ok (hits, length)) :
    0 ≤ length ∧ length < request.numTokens := by
  have hmax : (0 : Int) ≤ (request.numTokens : Int) - 1 := by omega
  unfold getComputedBlocks at h
  split_ifs at h
  · obtain ⟨-, rfl⟩ := Prod.mk.inj (Except.ok.inj h)
    omega
  · unfold findLongestCacheHit at h
    split at h
    · obtain ⟨-, rfl⟩ := Prod.mk.inj (Except.ok.inj h)
      omega
    · obtain ⟨rows, hfound, hret⟩ := bind_eq_ok.mp h
      obtain ⟨-, rfl⟩ := Prod.mk.inj (Except.ok.inj hret)
      have hle := head_within hmax (SingleTypeManager.findLongestCacheHit_within hmax hfound)
      refine ⟨?_, by omega⟩
      split_ifs <;> positivity
    · obtain ⟨hitFull, hfull, h⟩ := bind_eq_ok.mp h
      obtain ⟨hitOther, hother, h⟩ := bind_eq_ok.mp h
      obtain ⟨_, -, h⟩ := bind_eq_ok.mp h
      obtain ⟨-, rfl⟩ := Prod.mk.inj (Except.ok.inj h)
      have hlengthFull := head_within hmax (SingleTypeManager.findLongestCacheHit_within hmax hfull)
      rw [if_neg (by omega)] at hlengthFull
      have hle := head_within (by positivity)
        (SingleTypeManager.findLongestCacheHit_within (by positivity) hother)
      rw [if_neg (by omega)] at hle
      exact ⟨by positivity, by omega⟩

end KVCacheManager

end VllmV1
