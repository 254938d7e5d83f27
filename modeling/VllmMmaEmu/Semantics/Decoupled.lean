import VllmMmaEmu.Semantics.Fp8Gemm

/-!
# C-fused and C-decoupled CoFDA

The decoupled chunk rounds its partial sum to FP32 and merges it with the
accumulator at 23 bits. Onto a zero accumulator the merge is exact: what the
first step returns is stable at 23 bits. The two kernels differ only where a
second chunk meets an accumulator that is not zero.
-/

namespace MmaEmu

open Binary32 FusedSum FixedPoint

/-- A grid of `F` bits is one of `F2` bits, when FP32 keeps no more than the latter. -/
lemma onGrid_mono {F F2 : ℕ} (h : min F 23 ≤ min F2 23) {b : Fp32} (grid : OnGrid F b) :
    OnGrid F2 b := by
  obtain ⟨n, hn⟩ := grid
  obtain ⟨k, hk⟩ := Nat.exists_eq_add_of_le h
  refine ⟨n * 2 ^ k, ?_⟩
  have hunit : (2 : ℚ) ^ (exponent b - (min F 23 : ℕ)) =
      2 ^ k * 2 ^ (exponent b - (min F2 23 : ℕ)) := by
    rw [← zpow_natCast, ← zpow_add₀ (by norm_num : (2 : ℚ) ≠ 0)]
    congr 1
    omega
  rw [hn, hunit]
  push_cast
  ring

lemma Stable.mono {F F2 : ℕ} (h : min F 23 ≤ min F2 23) {c : Fp32} (hc : Stable F c) :
    Stable F2 c := by
  rcases hc with hn | hp | hm | ⟨hfin, grid, hz⟩
  · exact Or.inl hn
  · exact Or.inr (Or.inl hp)
  · exact Or.inr (Or.inr (Or.inl hm))
  · exact Or.inr (Or.inr (Or.inr ⟨hfin, onGrid_mono h grid, hz⟩))

lemma fp32ToOperand_inf (F : ℕ) (neg : Bool) :
    fp32ToOperand F (if neg then negInfBits else posInfBits) =
      ⟨if neg then -1 else 1, 0, 0, false, false, true⟩ := by
  cases neg
  · exact fp32ToOperand_special F (by decide)
  · exact fp32ToOperand_special F (by decide)

lemma fp32ToOperand_zeroBits (F : ℕ) : fp32ToOperand F 0#32 = makeZeroOperand :=
  fp32ToOperand_zero F (by decide)

lemma merge_zero_inf (F : ℕ) (eZero : ℤ) (neg : Bool) :
    chunkedAccumulate F eZero [fp32ToOperand F (if neg then negInfBits else posInfBits)] 0#32 =
      if neg then negInfBits else posInfBits := by
  rw [chunkedAccumulate_of_not_isNan F eZero _ (by decide), fp32ToOperand_zeroBits,
    fp32ToOperand_inf]
  cases neg
  · simp [Scan.finish, Scan.add, Scan.ofAccumulator, makeZeroOperand]
  · simp [Scan.finish, Scan.add, Scan.ofAccumulator, makeZeroOperand]

lemma merge_zero_nan (F : ℕ) (eZero : ℤ) :
    chunkedAccumulate F eZero [fp32ToOperand F qnanBits] 0#32 = qnanBits := by
  have hnan : (fp32ToOperand F qnanBits).isNan = true :=
    (fp32ToOperand_isNan F qnanBits).mpr isNan_qnanBits
  rw [chunkedAccumulate_of_not_isNan F eZero _ (by decide), Scan.finish, foldl_add_anyNan,
    List.any_cons, hnan]
  simp

lemma merge_zero_swap {F : ℕ} (hF : F ≤ 35) (eZero : ℤ) {p : Fp32} (hp : IsFinite p) :
    chunkedAccumulate F eZero [fp32ToOperand F p] 0#32 =
      chunkedAccumulate F eZero [makeZeroOperand] p := by
  have hzero : accTerm 0#32 = none := if_pos (by decide)
  have hmerge := chunkedAccumulate_eq_fixedToFp32 (c := 0#32) hF eZero (by decide)
    (List.Forall₂.cons (represents_accTerm hF hp) List.Forall₂.nil)
  have hskip := chunkedAccumulate_eq_fixedToFp32 hF eZero hp
    (List.Forall₂.cons (represents_makeZeroOperand F) List.Forall₂.nil)
  have hlabel : maxLabel eZero [none, accTerm p] = maxLabel eZero [accTerm p, none] := by
    simp [maxLabel, max_comm]
  rw [hmerge, hskip, hzero, hlabel, total_cons, total_cons, total_cons, total_cons, add_left_comm]

/-- A stable partial sum passes the merge with a zero accumulator unchanged. -/
theorem merge_zero {F : ℕ} (hF : F ≤ 35) {eZero : ℤ} (hzero : eZero ≤ -126) {p : Fp32}
    (hp : Stable F p) : chunkedAccumulate F eZero [fp32ToOperand F p] 0#32 = p := by
  rcases hp with rfl | rfl | rfl | ⟨hfin, grid, hz⟩
  · exact merge_zero_nan F eZero
  · exact merge_zero_inf F eZero false
  · exact merge_zero_inf F eZero true
  · rw [merge_zero_swap hF eZero hfin]
    refine chunkedAccumulate_zeros hF hzero ?_ (Or.inr (Or.inr (Or.inr ⟨hfin, grid, hz⟩)))
    intro o ho
    rw [List.mem_singleton.mp ho]
    exact represents_makeZeroOperand F

lemma cofdaDecoupledAccumulateProducts_zero (F : ℕ) (products : List Product) :
    cofdaDecoupledAccumulateProducts F 23 products 0#32 =
      fdaAccumulateChunk F (-133) products 0#32 := by
  have hstable := chunkedAccumulate_stable F (-133) (products.map Product.toOperand) 0#32
  rw [cofdaDecoupledAccumulateProducts, fdaAccumulateChunk]
  exact merge_zero (by norm_num) (by norm_num) (hstable.mono (by omega))

lemma chunk_count_le_one {K CS : ℕ} (hpos : 0 < CS) (hK : K ≤ CS) : (K + CS - 1) / CS ≤ 1 := by
  have hlt : (K + CS - 1) / CS < 2 := Nat.div_lt_of_lt_mul (by omega)
  omega

lemma foldl_range_le_one {α : Type} {f g : α → ℕ → α} {x : α} {count : ℕ} (hcount : count ≤ 1)
    (h : f x 0 = g x 0) : (List.range count).foldl f x = (List.range count).foldl g x := by
  rcases Nat.le_one_iff_eq_zero_or_eq_one.mp hcount with rfl | rfl
  · rfl
  · exact h

/-- With at most one chunk the accumulator is zero whenever it is looked at. -/
lemma flat_decoupled_eq {F CS : ℕ} (hF : F ∈ cofdaF) (hCS : CS ∈ fp8Cs) {args : Fp8Args}
    (hK : args.K ≤ CS) (m n : ℕ) :
    (Fp8Launch.cofdaDecoupled F CS hF hCS).flat args m n =
      (Fp8Launch.cofda F CS hF hCS).flat args m n := by
  have hcount := chunk_count_le_one (dvd_of_mem_fp8Cs hCS).1 hK
  rw [Fp8Launch.flat, Fp8Launch.flat]
  exact foldl_range_le_one hcount (cofdaDecoupledAccumulateProducts_zero F _)

/-- The decoupled chunk onto a zero accumulator is the fused one, so for matrices of one chunk the
two kernels store the same outputs. -/
theorem decoupled_eq_fused {F : ℕ} (hF : F ∈ cofdaF) :
    (∀ products : List Product, cofdaDecoupledAccumulateProducts F 23 products 0#32 =
      fdaAccumulateChunk F (-133) products 0#32) ∧
    ∀ (CS : ℕ) (hCS : CS ∈ fp8Cs) (args : Fp8Args), args.K ≤ CS →
      ∀ (smem smem' : ℕ → ℕ → Fp8Shared),
        ∀ m < args.M, ∀ n < args.N, ∃ acc,
          (∀ x, (m * args.N + n, x) ∈
            (Fp8Launch.cofda F CS hF hCS).stores args smem (fun _ acc => acc) ↔ x = acc) ∧
          ∀ x, (m * args.N + n, x) ∈
            (Fp8Launch.cofdaDecoupled F CS hF hCS).stores args smem' (fun _ acc => acc) ↔
              x = acc := by
  refine ⟨cofdaDecoupledAccumulateProducts_zero F, ?_⟩
  intro CS hCS args hK smem smem' m hm n hn
  refine ⟨(Fp8Launch.cofda F CS hF hCS).flat args m n, ?_, ?_⟩
  · exact mem_fp8_stores _ args smem (fun _ acc => acc) hm hn
  · intro x
    rw [mem_fp8_stores _ args smem' (fun _ acc => acc) hm hn, flat_decoupled_eq hF hCS hK]

/-- Hopper's thirteen bits; a NaN product and one of one. -/
theorem decoupled_eq_fused_hopper :
    cofdaDecoupledAccumulateProducts 13 23 [fp8Multiply 13 0x7F#8 0x38#8, fp8Multiply 13 0x38#8 0x38#8]
        0#32 =
      fdaAccumulateChunk 13 (-133) [fp8Multiply 13 0x7F#8 0x38#8, fp8Multiply 13 0x38#8 0x38#8]
        0#32 :=
  (decoupled_eq_fused (by decide)).1 _

end MmaEmu
