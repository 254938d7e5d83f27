import VllmMmaEmu.Formats.BlockScaled
import VllmMmaEmu.Formats.Fp8E4m3

/-!
# Reference semantics

Both algorithms compute fused sums of exact rationals, which truncate at different places.

One tile step of GDFS is a fused sum of group sums over exact rationals: each product is truncated
once at `G` bits inside its group, each group once at `F` bits against the other groups and the
accumulator. One chunk of C-fused CoFDA is a fused sum over exact rationals: each term is truncated
once at `F` bits below the largest label, and the total is truncated once more when it is packed.
`Binary32.decode` is injective on everything but NaN, and a truncated rational is never NaN, so the
statements fix every result bit.
-/

namespace MmaEmu

open FixedPoint Binary32 FusedSum

/-- A fused sum with the zero exponent of GDFS, converted back to FP32. -/
def gdfsReference (F : ℕ) (groups : List (Option Term)) (c : Fp32) : Fp32 :=
  let ts := accTerm c :: groups
  fixedToFp32 F (total F (maxLabel (-139) ts) ts) (maxLabel (-139) ts)

lemma gdfsAccumulateTile_eq {F : ℕ} (hF : F ≤ 35) {c : Fp32} (hc : IsFinite c)
    {groups : List Operand} {ts : List (Option Term)}
    (h : List.Forall₂ (Represents F) groups ts) :
    gdfsAccumulateTile F groups c = gdfsReference F ts c :=
  chunkedAccumulate_eq_fixedToFp32 hF (-139) hc h

lemma le_of_mem_gdfsF {F : ℕ} (hF : F ∈ gdfsF) : 7 ≤ F ∧ F ≤ 35 := by
  revert F
  decide

lemma le_of_mem_fp4G {G : ℕ} (hG : G ∈ fp4G) : 3 ≤ G ∧ G ≤ 6 := by
  revert G
  decide

lemma le_of_mem_fp8G {G : ℕ} (hG : G ∈ fp8G) : G ≤ 32 := by
  revert G
  decide

lemma le_of_mem_fp8Gs {GS : ℕ} (hGS : GS ∈ fp8Gs) : GS ≤ 16 ∧ 32 / GS * GS = 32 := by
  revert GS
  decide

/-- Group sizes the FP4 operators accept. -/
def AdmittedGroupSize (fmt : BlockFormat) (GS : ℕ) : Prop :=
  (fmt = nvfp4 ∧ GS = 16) ∨ (fmt = mxfp4 ∧ GS ∈ mxfp4Gs)

lemma AdmittedGroupSize.lawful {fmt : BlockFormat} {GS : ℕ} (h : AdmittedGroupSize fmt GS) :
    fmt.Lawful := by
  rcases h with ⟨rfl, -⟩ | ⟨rfl, -⟩
  · exact nvfp4_lawful
  · exact mxfp4_lawful

/-- The groups of a `BK`-wide tile as scaled terms. -/
def scaledGroupTerms (fmt : BlockFormat) (G GS BK : ℕ) (a b sfa sfb : ℕ → Byte) :
    List (Option Term) :=
  (List.range (BK / GS)).map fun g =>
    scaledGroupTerm G (e2m1Terms (fun i => a (g * GS + i)) (fun i => b (g * GS + i)) GS)
      (fmt.scale (sfa (g / (fmt.blockSize / GS)))) (fmt.scale (sfb (g / (fmt.blockSize / GS))))

/-- An FP4 tile step is the fused sum of its scaled group sums; six bits inside a group are exact. -/
theorem fp4_gdfs_tile_eq_reference {fmt : BlockFormat} {F G GS : ℕ} (hF : F ∈ gdfsF) (hG : G ∈ fp4G)
    (hGS : AdmittedGroupSize fmt GS) {c : Fp32} (hc : IsFinite c) (a b : ℕ → Byte)
    {sfa sfb : ℕ → Byte}
    (hnan : ∀ j < 64 / fmt.blockSize, fmt.isNan (sfa j) = false ∧ fmt.isNan (sfb j) = false) :
    fmt.gdfsTile F G GS 64 (encodeFp4Row a) (encodeFp4Row b) sfa sfb c =
        gdfsReference F (scaledGroupTerms fmt G GS 64 a b sfa sfb) c ∧
      ∀ (a b : ℕ → Byte) (n : ℕ), groupSum 6 (e2m1Terms a b n) =
        ((List.range n).map fun i => (e2m1 (a i)).value * (e2m1 (b i)).value).sum := by
  refine ⟨?_, groupSum_e2m1Terms_six⟩
  obtain ⟨-, hFhigh⟩ := le_of_mem_gdfsF hF
  obtain ⟨hGlow, hGhigh⟩ := le_of_mem_fp4G hG
  have hindex : ∀ g < 64 / GS, g / (fmt.blockSize / GS) < 64 / fmt.blockSize ∧ GS ≤ 32 := by
    rcases hGS with ⟨rfl, rfl⟩ | ⟨rfl, hmem⟩
    · decide
    · revert GS
      decide
  apply gdfsAccumulateTile_eq hFhigh hc
  rw [scaledGroupTerms, List.forall₂_map_left_iff, List.forall₂_map_right_iff, List.forall₂_same]
  intro g hg
  obtain ⟨hj, hsize⟩ := hindex g (List.mem_range.mp hg)
  exact represents_groupOperand hGS.lawful hFhigh (by omega) hGhigh hsize
    (Bool.or_eq_false_iff.mpr (hnan _ hj))

/-- Sixty-four products of one under unit scales, at Blackwell's widths. -/
theorem fp4_gdfs_tile_eq_reference_ones :
    nvfp4.gdfsTile 35 6 16 64 (encodeFp4Row fun _ => 0x2#8) (encodeFp4Row fun _ => 0x2#8)
        (fun _ => 0x38#8) (fun _ => 0x38#8) 0x3F800000#32 =
      gdfsReference 35 (scaledGroupTerms nvfp4 6 16 64 (fun _ => 0x2#8) (fun _ => 0x2#8)
        (fun _ => 0x38#8) (fun _ => 0x38#8)) 0x3F800000#32 ∧
    nvfp4.gdfsTile 35 6 16 64 (encodeFp4Row fun _ => 0x2#8) (encodeFp4Row fun _ => 0x2#8)
        (fun _ => 0x38#8) (fun _ => 0x38#8) 0x3F800000#32 = 0x42820000#32 :=
  ⟨(fp4_gdfs_tile_eq_reference (by decide) (by decide) (Or.inl ⟨rfl, rfl⟩) (by decide) _ _
    (by decide)).1, by decide +kernel⟩

/-- The groups of a `BK`-wide tile as terms. -/
def e4m3GroupTerms (G GS BK : ℕ) (a b : ℕ → Byte) : List (Option Term) :=
  (List.range (BK / GS)).map fun g =>
    groupTerm G (e4m3Terms (fun i => a (g * GS + i)) (fun i => b (g * GS + i)) GS)

/-- An FP8 tile step is the fused sum of its group sums, a group that cancels being a zero term. -/
theorem fp8_gdfs_tile_eq_reference {F G GS : ℕ} (hF : F ∈ gdfsF) (hG : G ∈ fp8G) (hGS : GS ∈ fp8Gs)
    {c : Fp32} (hc : IsFinite c) {a b : ℕ → Byte}
    (hnan : ∀ i < 32, e4m3IsNan (a i) = false ∧ e4m3IsNan (b i) = false) :
    fp8GdfsTile F G GS 32 (encodeRow a) (encodeRow b) c =
        gdfsReference F (e4m3GroupTerms G GS 32 a b) c ∧
      ((∀ t ∈ accTerm c :: e4m3GroupTerms G GS 32 a b, t = none) →
        fp8GdfsTile F G GS 32 (encodeRow a) (encodeRow b) c = 0#32) := by
  obtain ⟨-, hFhigh⟩ := le_of_mem_gdfsF hF
  obtain ⟨hsize, htile⟩ := le_of_mem_fp8Gs hGS
  have hstep : fp8GdfsTile F G GS 32 (encodeRow a) (encodeRow b) c =
      gdfsReference F (e4m3GroupTerms G GS 32 a b) c := by
    apply gdfsAccumulateTile_eq hFhigh hc
    rw [e4m3GroupTerms, List.forall₂_map_left_iff, List.forall₂_map_right_iff, List.forall₂_same]
    intro g hg
    have hlt := List.mem_range.mp hg
    apply represents_fp8GroupOperand hFhigh (le_of_mem_fp8G hG) hsize
    intro i hi
    apply hnan
    calc g * GS + i < (g + 1) * GS := by linarith
      _ ≤ 32 / GS * GS := Nat.mul_le_mul_right _ hlt
      _ = 32 := htile
  refine ⟨hstep, fun hzero => ?_⟩
  rw [hstep, gdfsReference, total_eq_zero_of_none hzero, fixedToFp32, if_pos rfl]

/-- Two groups that cancel leave the accumulator; here with eight-element groups. -/
theorem fp8_gdfs_tile_eq_reference_alternating :
    fp8GdfsTile 25 32 8 32 (encodeRow fun i => if i % 2 = 0 then 0x38#8 else 0xB8#8)
        (encodeRow fun _ => 0x38#8) 0x3F800000#32 =
      gdfsReference 25 (e4m3GroupTerms 32 8 32 (fun i => if i % 2 = 0 then 0x38#8 else 0xB8#8)
        (fun _ => 0x38#8)) 0x3F800000#32 ∧
    fp8GdfsTile 25 32 8 32 (encodeRow fun i => if i % 2 = 0 then 0x38#8 else 0xB8#8)
        (encodeRow fun _ => 0x38#8) 0x3F800000#32 = 0x3F800000#32 :=
  ⟨(fp8_gdfs_tile_eq_reference (by decide) (by decide) (by decide) (by decide) (by decide)).1,
    by decide +kernel⟩

/-- The exact scaled products of a chunk as terms. -/
def scaledTerms (fmt : BlockFormat) (a b sfa sfb : ℕ → Byte) (n : ℕ) : List (Option Term) :=
  (List.range n).map fun i =>
    (scaledProduct (a i) (b i) (fmt.scale (sfa i)) (fmt.scale (sfb i))).term

/-- The operands of a chunk with product-level scales. -/
def scaledOperands (fmt : BlockFormat) (F : ℕ) (a b sfa sfb : ℕ → Byte) (n : ℕ) : List Operand :=
  (List.range n).map fun i =>
    fmt.productWithScales F (decomposeFp4E2m1 (a i)) (decomposeFp4E2m1 (b i)) (sfa i) (sfb i)

lemma le_of_mem_cofdaF {F : ℕ} (hF : F ∈ cofdaF) : 3 ≤ F ∧ F ≤ 25 := by
  revert F
  decide

lemma fp8_chunk_reference {F CS : ℕ} (hF : F ≤ 35) (hCS : CS ≤ 64) {c : Fp32} (hc : IsFinite c)
    {a b : ℕ → Byte} (hnan : ∀ i < CS, e4m3IsNan (a i) = false ∧ e4m3IsNan (b i) = false) :
    decode (fdaAccumulateChunk F (-133)
        ((List.range CS).map fun i => fp8Multiply F (a i) (b i)) c) =
      chop F (fused F (-133) (accTerm c :: e4m3Terms a b CS)) := by
  have hforall := forall₂_fp8Multiply hF hnan
  rw [fdaAccumulateChunk, decode_chunkedAccumulate hF (-133) hc
    (List.forall₂_map_left_iff.mpr hforall) (by simpa using hCS)]

section BlockScaled
variable {fmt : BlockFormat} (law : fmt.Lawful) {F n : ℕ} {a b sfa sfb : ℕ → Byte}
include law

/-- Every product of the chunk is exactly zero or large enough for `F` fractional bits. -/
lemma forall₂_scaledOperands (hF : F ≤ 35)
    (hnan : ∀ i < n, fmt.isNan (sfa i) = false ∧ fmt.isNan (sfb i) = false)
    (kept : ∀ i < n,
      (scaledProduct (a i) (b i) (fmt.scale (sfa i)) (fmt.scale (sfb i))).significand ≠ 0 →
      2 ^ ((scaledProduct (a i) (b i) (fmt.scale (sfa i)) (fmt.scale (sfb i))).radix - F) ≤
        (scaledProduct (a i) (b i) (fmt.scale (sfa i)) (fmt.scale (sfb i))).significand) :
    List.Forall₂ (Represents F) (scaledOperands fmt F a b sfa sfb n)
      (scaledTerms fmt a b sfa sfb n) := by
  rw [scaledOperands, scaledTerms, List.forall₂_map_left_iff, List.forall₂_map_right_iff,
    List.forall₂_same]
  intro i hi
  have hlt := List.mem_range.mp hi
  exact represents_productWithScales law hF (Bool.or_eq_false_iff.mpr (hnan i hlt)) (kept i hlt)

end BlockScaled

lemma mxfp4_chunk_reference {F CS : ℕ} (hlow : 2 ≤ F) (hF : F ≤ 35) (hCS : CS ≤ 64) {c : Fp32}
    (hc : IsFinite c) {a b sfa sfb : ℕ → Byte}
    (hnan : ∀ i < CS, E8m0.isNan (sfa i) = false ∧ E8m0.isNan (sfb i) = false) :
    decode (chunkedAccumulate F (-133) (scaledOperands mxfp4 F a b sfa sfb CS) c) =
      chop F (fused F (-133) (accTerm c :: scaledTerms mxfp4 a b sfa sfb CS)) := by
  have hforall := forall₂_scaledOperands (n := CS) (a := a) (b := b) mxfp4_lawful hF hnan
    (fun i _ hz => by
      have hradix : (scaledProduct (a i) (b i) (mxfp4.scale (sfa i)) (mxfp4.scale (sfb i))).radix =
          2 := (e2m1Product_range (a i) (b i)).2.2.2
      rw [hradix, Nat.sub_eq_zero_of_le hlow, pow_zero]
      exact Nat.one_le_iff_ne_zero.mpr hz)
  exact decode_chunkedAccumulate hF (-133) hc hforall (by simpa [scaledOperands] using hCS)

/-- For FP8 and MXFP4 a chunk is the fused sum of its exact products and the accumulator. -/
theorem cofda_chunk_eq_reference {F CS : ℕ} (hF : F ∈ cofdaF) (hCS : CS = 16 ∨ CS = 32) {c : Fp32}
    (hc : IsFinite c) :
    (∀ a b : ℕ → Byte, (∀ i < CS, e4m3IsNan (a i) = false ∧ e4m3IsNan (b i) = false) →
      decode (chunkedAccumulate F (-133)
          ((List.range CS).map fun i => (fp8Multiply F (a i) (b i)).toOperand) c) =
        chop F (fused F (-133) (accTerm c :: e4m3Terms a b CS))) ∧
    (∀ a b sfa sfb : ℕ → Byte,
      (∀ i < CS, E8m0.isNan (sfa i) = false ∧ E8m0.isNan (sfb i) = false) →
      decode (chunkedAccumulate F (-133) ((List.range CS).map fun i =>
          fp4ProductWithE8m0Scales F (decomposeFp4E2m1 (a i)) (decomposeFp4E2m1 (b i))
            (sfa i) (sfb i)) c) =
        chop F (fused F (-133) (accTerm c :: (List.range CS).map fun i =>
          (((e2m1Product (a i) (b i)).mul (e8m0 (sfa i))).mul (e8m0 (sfb i))).term))) := by
  obtain ⟨hlow, hhigh⟩ := le_of_mem_cofdaF hF
  have hlen : CS ≤ 64 := by omega
  constructor
  · intro a b hnan
    have h := fp8_chunk_reference (F := F) (by omega) hlen hc hnan
    rwa [fdaAccumulateChunk, List.map_map] at h
  · intro a b sfa sfb hnan
    exact mxfp4_chunk_reference (by omega) (by omega) hlen hc hnan

/-- One half plus sixteen products of one, at Hopper's thirteen bits. -/
theorem cofda_chunk_eq_reference_ones :
    decode (chunkedAccumulate 13 (-133)
        ((List.range 16).map fun _ => (fp8Multiply 13 0x38#8 0x38#8).toOperand) 0x3F000000#32) =
      chop 13 (fused 13 (-133) (accTerm 0x3F000000#32 :: e4m3Terms (fun _ => 0x38#8)
        (fun _ => 0x38#8) 16)) ∧
    chunkedAccumulate 13 (-133)
        ((List.range 16).map fun _ => (fp8Multiply 13 0x38#8 0x38#8).toOperand) 0x3F000000#32 =
      0x41840000#32 :=
  ⟨(cofda_chunk_eq_reference (by decide) (Or.inl rfl) (by decide)).1 _ _ (by decide),
    by decide +kernel⟩

/-- The FDA result of an NVFP4 chunk: every product of non-zero exact value takes part in the
largest label. -/
def nvfp4ChunkReference (F : ℕ) (a b sfa sfb : ℕ → Byte) (c : Fp32) : Fp32 :=
  let ts := accTerm c :: scaledTerms nvfp4 a b sfa sfb 16
  fixedToFp32 F (total F (maxLabel (-133) ts) ts) (maxLabel (-133) ts)

/-- The chunk equals its reference and leaves no product of non-zero value out of the alignment. -/
def Nvfp4ChunkMeetsReference (F : ℕ) (a b sfa sfb : ℕ → Byte) (c : Fp32) : Prop :=
  chunkedAccumulate F (-133) ((List.range 16).map fun i =>
      fp4ProductWithUe4m3Scales F (decomposeFp4E2m1 (a i)) (decomposeFp4E2m1 (b i))
        (sfa i) (sfb i)) c = nvfp4ChunkReference F a b sfa sfb c ∧
    ∀ i < 16, (scaledProduct (a i) (b i) (ue4m3 (sfa i)) (ue4m3 (sfb i))).value ≠ 0 →
      (fp4ProductWithUe4m3Scales F (decomposeFp4E2m1 (a i)) (decomposeFp4E2m1 (b i))
        (sfa i) (sfb i)).isZero = false

/-- The zero flag after the shift is harmless exactly when no non-zero product has an integer
significand below `2^(8 - F)`. -/
theorem nvfp4_chunk_meets_reference_iff {F : ℕ} (hF : F ∈ cofdaF) {c : Fp32} (hc : IsFinite c)
    {a b sfa sfb : ℕ → Byte}
    (hnan : ∀ i < 16, Ue4m3.isNan (sfa i) = false ∧ Ue4m3.isNan (sfb i) = false) :
    Nvfp4ChunkMeetsReference F a b sfa sfb c ↔
      ∀ i < 16, (e2m1 (a i)).significand * (e2m1 (b i)).significand * (ue4m3 (sfa i)).significand *
          (ue4m3 (sfb i)).significand ≠ 0 →
        2 ^ (8 - F) ≤ (e2m1 (a i)).significand * (e2m1 (b i)).significand *
          (ue4m3 (sfa i)).significand * (ue4m3 (sfb i)).significand := by
  obtain ⟨hlow, hhigh⟩ := le_of_mem_cofdaF hF
  have hradix : ∀ i, (scaledProduct (a i) (b i) (ue4m3 (sfa i)) (ue4m3 (sfb i))).radix = 8 := by
    intro i
    change (e2m1Product (a i) (b i)).radix + (ue4m3 (sfa i)).radix + (ue4m3 (sfb i)).radix = 8
    rw [(e2m1Product_range (a i) (b i)).2.2.2, (ue4m3_range (sfa i)).2.2.1,
      (ue4m3_range (sfb i)).2.2.1]
  constructor
  · rintro ⟨-, hkept⟩ i hi hne
    have hflag := hkept i hi (fun h => hne ((SignMagnitude.value_eq_zero_iff _).mp h))
    have hzero := productWithScales_isZero (F := F) (a := a i) (b := b i) nvfp4_lawful
      (Bool.or_eq_false_iff.mpr (hnan i hi))
    rw [nvfp4, hradix] at hzero
    by_contra hlt
    exact absurd (hzero.mpr (not_le.mp hlt)) (by simp [hflag])
  · intro hkept
    have hforall := forall₂_scaledOperands (n := 16) (F := F) (a := a) (b := b) nvfp4_lawful
      (by omega) hnan (fun i hi hz => by
        rw [nvfp4, hradix]
        exact hkept i hi hz)
    refine ⟨chunkedAccumulate_eq_fixedToFp32 (by omega) (-133) hc hforall, ?_⟩
    intro i hi hne
    have hzero := productWithScales_isZero (F := F) (a := a i) (b := b i) nvfp4_lawful
      (Bool.or_eq_false_iff.mpr (hnan i hi))
    rw [nvfp4, hradix] at hzero
    rw [← Bool.not_eq_true, hzero, not_lt]
    exact hkept i hi (fun h => hne ((SignMagnitude.value_eq_zero_iff _).mpr h))

/-- With three bits and subnormal scales the product `36 * 2^(-18)` is cut away, so `1.125 * 2^(-9)`
keeps a bit that alignment to the product's label `-8` removes. -/
theorem nvfp4_chunk_drops_label :
    IsFinite 0x3B100000#32 ∧ Ue4m3.isNan 0x01#8 = false ∧
      chunkedAccumulate 3 (-133) ((List.range 16).map fun _ =>
        fp4ProductWithUe4m3Scales 3 (decomposeFp4E2m1 0x7#8) (decomposeFp4E2m1 0x7#8) 0x01#8 0x01#8)
        0x3B100000#32 = 0x3B100000#32 ∧
      nvfp4ChunkReference 3 (fun _ => 0x7#8) (fun _ => 0x7#8) (fun _ => 0x01#8) (fun _ => 0x01#8)
        0x3B100000#32 = 0x3B000000#32 ∧
      ¬ Nvfp4ChunkMeetsReference 3 (fun _ => 0x7#8) (fun _ => 0x7#8) (fun _ => 0x01#8)
        (fun _ => 0x01#8) 0x3B100000#32 := by
  have hcode : chunkedAccumulate 3 (-133) ((List.range 16).map fun _ =>
      fp4ProductWithUe4m3Scales 3 (decomposeFp4E2m1 0x7#8) (decomposeFp4E2m1 0x7#8) 0x01#8 0x01#8)
      0x3B100000#32 = 0x3B100000#32 := by decide +kernel
  have href : nvfp4ChunkReference 3 (fun _ => 0x7#8) (fun _ => 0x7#8) (fun _ => 0x01#8)
      (fun _ => 0x01#8) 0x3B100000#32 = 0x3B000000#32 := by decide +kernel
  refine ⟨by decide, by decide, hcode, href, ?_⟩
  intro h
  have heq := h.1
  rw [hcode, href] at heq
  exact absurd heq (by decide)

/-- Scales of one keep every product, whatever the width. -/
theorem nvfp4_chunk_meets_reference_iff_unit_scales :
    Nvfp4ChunkMeetsReference 3 (fun _ => 0x7#8) (fun _ => 0x7#8) (fun _ => 0x38#8)
      (fun _ => 0x38#8) 0x3B100000#32 :=
  (nvfp4_chunk_meets_reference_iff (by decide) (by decide) (by decide)).mpr (by decide)

end MmaEmu
