import VllmMmaEmu.Gemm.Fp8GemmKernels
import VllmMmaEmu.Gemm.Fp4GemmKernels

/-!
# Range of the index arithmetic

The host wrappers narrow the tensor sizes to `int`, and the kernels compute
every global index in `int`. The entry points compare sizes with each other and
never with a limit. The writer of the scale layout computes the same offset
in 64 bits. Nothing wraps as long as no tensor has more than `2^31` elements.
-/

namespace MmaEmu

/-- Sizes that a wrapper narrows. -/
structure SizesNarrow (M N K : ℕ) : Prop where
  M : toInt32 M = M
  N : toInt32 N = N
  K : toInt32 K = K

lemma sizesNarrow_iff (M N K : ℕ) :
    SizesNarrow M N K ↔ M < 2 ^ 31 ∧ N < 2 ^ 31 ∧ K < 2 ^ 31 := by
  rw [← toInt32_eq_iff M, ← toInt32_eq_iff N, ← toInt32_eq_iff K]
  exact ⟨fun h => ⟨h.M, h.N, h.K⟩, fun h => ⟨h.1, h.2.1, h.2.2⟩⟩

namespace Fp8Call

/-- Every index of an element that an output needs. -/
structure IndexSafe (call : Fp8Call) : Prop where
  sizes : SizesNarrow call.M call.N call.K
  a : ∀ m < call.M, 0 < call.N → ∀ k < call.K, FitsInt (m * call.K + k)
  b : ∀ n < call.N, 0 < call.M → ∀ k < call.K, FitsInt (k + n * call.K)
  c : ∀ m < call.M, ∀ n < call.N, FitsInt (m * call.N + n)

end Fp8Call

namespace Fp4Call

def numKBlocks (call : Fp4Call) : ℕ :=
  (call.K + call.launch.fmt.blockSize - 1) / call.launch.fmt.blockSize

/-- Every index of an element or a scale that an output needs. -/
structure IndexSafe (call : Fp4Call) : Prop where
  sizes : SizesNarrow call.M call.N call.K
  a : ∀ m < call.M, 0 < call.N → ∀ k < call.K / 2, FitsInt (m * (call.K / 2) + k)
  b : ∀ n < call.N, 0 < call.M → ∀ k < call.K / 2, FitsInt (n * (call.K / 2) + k)
  aScale : ∀ m < call.M, 0 < call.N → ∀ kb < call.numKBlocks,
    FitsInt (Swizzle.swizzledIdx call.launch.fmt.blockSize m kb call.K)
  bScale : ∀ n < call.N, 0 < call.M → ∀ kb < call.numKBlocks,
    FitsInt (Swizzle.swizzledIdx call.launch.fmt.blockSize n kb call.K)
  d : ∀ m < call.M, ∀ n < call.N, FitsInt (m * call.N + n)

end Fp4Call

lemma Fp8Call.indexSafe_iff (call : Fp8Call) : call.IndexSafe ↔
    (call.M < 2 ^ 31 ∧ call.N < 2 ^ 31 ∧ call.K < 2 ^ 31) ∧ (call.M = 0 ∨ call.N = 0 ∨
      call.M * call.K ≤ 2 ^ 31 ∧ call.N * call.K ≤ 2 ^ 31 ∧ call.M * call.N ≤ 2 ^ 31) := by
  have hb : (∀ n < call.N, ∀ k < call.K, FitsInt (k + n * call.K)) ↔
      call.N * call.K ≤ 2 ^ 31 := by
    rw [← forall_index_iff]
    simp only [Nat.add_comm]
  rw [← sizesNarrow_iff]
  constructor
  · intro h
    refine ⟨h.sizes, ?_⟩
    rcases Nat.eq_zero_or_pos call.M with hM | hM
    · exact Or.inl hM
    rcases Nat.eq_zero_or_pos call.N with hN | hN
    · exact Or.inr (Or.inl hN)
    refine Or.inr (Or.inr ⟨?_, ?_, ?_⟩)
    · exact (forall_index_iff _ _).mp fun m hm => h.a m hm hN
    · exact hb.mp fun n hn => h.b n hn hM
    · exact (forall_index_iff _ _).mp h.c
  · rintro ⟨hsizes, hM | hN | ⟨hA, hB, hC⟩⟩
    · exact ⟨hsizes, by omega, by omega, by omega⟩
    · exact ⟨hsizes, by omega, by omega, by omega⟩
    · exact ⟨hsizes, fun m hm _ => (forall_index_iff _ _).mpr hA m hm,
        fun n hn _ => hb.mpr hB n hn, (forall_index_iff _ _).mpr hC⟩

lemma Fp4Call.indexSafe_iff (call : Fp4Call) : call.IndexSafe ↔
    (call.M < 2 ^ 31 ∧ call.N < 2 ^ 31 ∧ call.K < 2 ^ 31) ∧ (call.M = 0 ∨ call.N = 0 ∨
      call.M * (call.K / 2) ≤ 2 ^ 31 ∧ call.N * (call.K / 2) ≤ 2 ^ 31 ∧
        scaleCount call.M call.numKBlocks ≤ 2 ^ 31 ∧ scaleCount call.N call.numKBlocks ≤ 2 ^ 31 ∧
          call.M * call.N ≤ 2 ^ 31) := by
  rw [← sizesNarrow_iff, numKBlocks, ← forall_swizzledIdx_iff, ← forall_swizzledIdx_iff]
  constructor
  · intro h
    refine ⟨h.sizes, ?_⟩
    rcases Nat.eq_zero_or_pos call.M with hM | hM
    · exact Or.inl hM
    rcases Nat.eq_zero_or_pos call.N with hN | hN
    · exact Or.inr (Or.inl hN)
    refine Or.inr (Or.inr ⟨?_, ?_, ?_, ?_, ?_⟩)
    · exact (forall_index_iff _ _).mp fun m hm => h.a m hm hN
    · exact (forall_index_iff _ _).mp fun n hn => h.b n hn hM
    · exact fun m hm => h.aScale m hm hN
    · exact fun n hn => h.bScale n hn hM
    · exact (forall_index_iff _ _).mp h.d
  · rintro ⟨hsizes, hM | hN | ⟨hA, hB, hsa, hsb, hD⟩⟩
    · exact ⟨hsizes, by omega, by omega, by omega, by omega, by omega⟩
    · exact ⟨hsizes, by omega, by omega, by omega, by omega, by omega⟩
    · exact ⟨hsizes, fun m hm _ => (forall_index_iff _ _).mpr hA m hm,
        fun n hn _ => (forall_index_iff _ _).mpr hB n hn, fun m hm _ => hsa m hm,
        fun n hn _ => hsb n hn, (forall_index_iff _ _).mpr hD⟩

/-- The sizes are ints, and no tensor has more than `2^31` elements unless there is no output. -/
def WithinInt32 (M N K : ℕ) (counts : List ℕ) : Prop :=
  (M < 2 ^ 31 ∧ N < 2 ^ 31 ∧ K < 2 ^ 31) ∧ (M = 0 ∨ N = 0 ∨ ∀ count ∈ counts, count ≤ 2 ^ 31)

instance (M N K : ℕ) (counts : List ℕ) : Decidable (WithinInt32 M N K counts) :=
  inferInstanceAs (Decidable (_ ∧ _))

lemma checkFp4Scales_sizes {entry : Fp4Entry} {A B Asf Bsf : TorchTensor} {u : Unit}
    (h : checkFp4Scales entry A B Asf Bsf = .ok u) :
    Asf.size 0 * Asf.size 1 = scaleCount (A.size 0) (A.size 1 * 2 / entry.blockSize) ∧
      Bsf.size 0 * Bsf.size 1 = scaleCount (B.size 0) (A.size 1 * 2 / entry.blockSize) := by
  obtain ⟨_, _, h⟩ := Python.bind_eq_ok.mp h
  obtain ⟨_, ha, h⟩ := Python.bind_eq_ok.mp h
  obtain ⟨ha0, ha1⟩ := Bool.and_eq_true_iff.mp (of_torchCheck ha)
  obtain ⟨hb0, hb1⟩ := Bool.and_eq_true_iff.mp (of_torchCheck h)
  rw [scaleCount, scaleCount, beq_iff_eq.mp ha0, beq_iff_eq.mp ha1, beq_iff_eq.mp hb0,
    beq_iff_eq.mp hb1]
  exact ⟨rfl, rfl⟩

/-- What an accepted call and its tensors have in common, for either format. -/
structure Fp4Accepted (entry : Fp4Entry) (A B Asf Bsf : TorchTensor) (call : Fp4Call) : Prop where
  M : call.M = A.size 0
  N : call.N = B.size 0
  K : call.K = A.size 1 * 2
  aligned : call.K % call.launch.alignment = 0
  blockSize : call.launch.fmt.blockSize = entry.blockSize
  scales : ∃ u, checkFp4Scales entry A B Asf Bsf = .ok u

lemma Fp4Launch.blockSize_two (launch : Fp4Launch) :
    launch.fmt.blockSize * 2 = launch.alignment ∧ 0 < launch.fmt.blockSize := by
  cases launch <;> exact ⟨rfl, Nat.succ_pos _⟩

lemma nvfp4_accepted {D A B Asf Bsf alpha : TorchTensor} {algorithm fBits gBits : ℤ}
    {call : Fp4Call}
    (h : mmaEmuScaledNvfp4Mm D A B Asf Bsf alpha algorithm fBits gBits = .ok call) :
    Fp4Accepted nvfp4Entry A B Asf Bsf call := by
  have haligned := nvfp4_call_aligned h
  obtain ⟨_, _, h⟩ := Python.bind_eq_ok.mp h
  obtain ⟨_, _, h⟩ := Python.bind_eq_ok.mp h
  obtain ⟨u, hscales, h⟩ := Python.bind_eq_ok.mp h
  obtain ⟨_, _, h⟩ := Python.bind_eq_ok.mp h
  obtain ⟨_, _, h⟩ := Python.bind_eq_ok.mp h
  obtain ⟨launch, hlaunch, h⟩ := Python.bind_eq_ok.mp h
  cases h
  refine ⟨rfl, rfl, rfl, haligned, ?_, u, hscales⟩
  have htwo := launch.blockSize_two.1
  rw [alignment_nvfp4 hlaunch] at htwo
  change launch.fmt.blockSize = 16
  omega

lemma mxfp4_accepted {D A B Asf Bsf : TorchTensor}
    {algorithm fBits gBits groupSize chunkSize : ℤ} {call : Fp4Call}
    (h : mmaEmuScaledMxfp4Mm D A B Asf Bsf algorithm fBits gBits groupSize chunkSize = .ok call) :
    Fp4Accepted mxfp4Entry A B Asf Bsf call := by
  have haligned := mxfp4_call_aligned h
  obtain ⟨_, _, h⟩ := Python.bind_eq_ok.mp h
  obtain ⟨_, _, h⟩ := Python.bind_eq_ok.mp h
  obtain ⟨u, hscales, h⟩ := Python.bind_eq_ok.mp h
  obtain ⟨_, _, h⟩ := Python.bind_eq_ok.mp h
  obtain ⟨_, _, h⟩ := Python.bind_eq_ok.mp h
  obtain ⟨launch, hlaunch, h⟩ := Python.bind_eq_ok.mp h
  cases h
  refine ⟨rfl, rfl, rfl, haligned, ?_, u, hscales⟩
  have htwo := launch.blockSize_two.1
  rw [alignment_mxfp4 hlaunch] at htwo
  change launch.fmt.blockSize = 32
  omega

lemma Fp4Accepted.indexSafe_iff {entry : Fp4Entry} {A B Asf Bsf : TorchTensor} {call : Fp4Call}
    (h : Fp4Accepted entry A B Asf Bsf call) :
    call.IndexSafe ↔ WithinInt32 (A.size 0) (B.size 0) (A.size 1 * 2)
      [A.size 0 * A.size 1, B.size 0 * A.size 1, Asf.size 0 * Asf.size 1, Bsf.size 0 * Bsf.size 1,
        A.size 0 * B.size 0] := by
  obtain ⟨u, hscales⟩ := h.scales
  obtain ⟨hsfa, hsfb⟩ := checkFp4Scales_sizes hscales
  obtain ⟨htwo, hpos⟩ := call.launch.blockSize_two
  have hdvd : call.launch.fmt.blockSize ∣ call.K :=
    (Dvd.intro 2 htwo).trans (Nat.dvd_of_mod_eq_zero h.aligned)
  have hpacked : call.K / 2 = A.size 1 := by
    rw [h.K]
    omega
  rw [Fp4Call.indexSafe_iff, Fp4Call.numKBlocks, ceil_of_dvd hpos hdvd, hpacked, h.M, h.N,
    h.blockSize, h.K, ← hsfa, ← hsfb, WithinInt32]
  simp only [List.forall_mem_cons, List.not_mem_nil, false_imp_iff, implies_true, and_true]

/-- A call of one of the three entry points that passes its checks. -/
inductive AcceptedCall where
  | fp8 (c a b : TensorMeta) (outDtype : ScalarType) (bias : Option TensorMeta)
      (algorithm fBits gBits groupSize chunkSize : ℤ) (call : Fp8Call)
      (accepted : mmaEmuScaledFp8Mm c a b outDtype bias algorithm fBits gBits groupSize chunkSize =
        .ok call)
  | nvfp4 (D A B Asf Bsf alpha : TorchTensor) (algorithm fBits gBits : ℤ) (call : Fp4Call)
      (accepted : mmaEmuScaledNvfp4Mm D A B Asf Bsf alpha algorithm fBits gBits = .ok call)
  | mxfp4 (D A B Asf Bsf : TorchTensor) (algorithm fBits gBits groupSize chunkSize : ℤ)
      (call : Fp4Call)
      (accepted : mmaEmuScaledMxfp4Mm D A B Asf Bsf algorithm fBits gBits groupSize chunkSize =
        .ok call)

namespace AcceptedCall

def IndexSafe : AcceptedCall → Prop
  | fp8 _ _ _ _ _ _ _ _ _ _ call _ => call.IndexSafe
  | nvfp4 _ _ _ _ _ _ _ _ _ call _ => call.IndexSafe
  | mxfp4 _ _ _ _ _ _ _ _ _ _ call _ => call.IndexSafe

/-- No size and no tensor is too large for an `int`. -/
def WithinInt32 : AcceptedCall → Prop
  | fp8 _ a b _ _ _ _ _ _ _ _ _ => MmaEmu.WithinInt32 (a.size 0) (b.size 1) (a.size 1)
      [a.size 0 * a.size 1, b.size 1 * a.size 1, a.size 0 * b.size 1]
  | nvfp4 _ A B Asf Bsf _ _ _ _ _ _ => MmaEmu.WithinInt32 (A.size 0) (B.size 0) (A.size 1 * 2)
      [A.size 0 * A.size 1, B.size 0 * A.size 1, Asf.size 0 * Asf.size 1, Bsf.size 0 * Bsf.size 1,
        A.size 0 * B.size 0]
  | mxfp4 _ A B Asf Bsf _ _ _ _ _ _ _ => MmaEmu.WithinInt32 (A.size 0) (B.size 0) (A.size 1 * 2)
      [A.size 0 * A.size 1, B.size 0 * A.size 1, Asf.size 0 * Asf.size 1, Bsf.size 0 * Bsf.size 1,
        A.size 0 * B.size 0]

end AcceptedCall

/-- For the calls that the entry points accept, the index arithmetic stays in range if and only
if no size and no tensor is too large for it. -/
theorem indexSafe_iff_within_int32 (call : AcceptedCall) : call.IndexSafe ↔ call.WithinInt32 := by
  cases call with
  | fp8 c a b outDtype bias algorithm fBits gBits groupSize chunkSize call accepted =>
    obtain ⟨hM, hN, hK⟩ := call_of_mmaEmuScaledFp8Mm accepted
    rw [AcceptedCall.IndexSafe, AcceptedCall.WithinInt32, call.indexSafe_iff, hM, hN, hK,
      WithinInt32]
    simp only [List.forall_mem_cons, List.not_mem_nil, false_imp_iff, implies_true, and_true]
  | nvfp4 D A B Asf Bsf alpha algorithm fBits gBits call accepted =>
    exact (nvfp4_accepted accepted).indexSafe_iff
  | mxfp4 D A B Asf Bsf algorithm fBits gBits groupSize chunkSize call accepted =>
    exact (mxfp4_accepted accepted).indexSafe_iff

/-- A packed matrix. -/
def packedMatrix (rows cols : ℕ) : TensorMeta := ⟨[rows, cols], [cols, 1], Eq.refl 2⟩

/-- A matrix whose columns are packed. -/
def packedColumns (rows cols : ℕ) : TensorMeta := ⟨[rows, cols], [1, rows], rfl⟩

/-- A square matrix of `2^32` elements passes the checks; its last row starts past the range. -/
theorem fp8_index_overflows :
    mmaEmuScaledFp8Mm (packedMatrix 65536 8) (packedMatrix 65536 65536) (packedColumns 65536 8)
        .bfloat16 none 2 25 0 0 32 =
      .ok ⟨.cofda 25 32 (by decide) (by decide), 65536, 8, 65536⟩ ∧
    ¬ Fp8Call.IndexSafe ⟨.cofda 25 32 (by decide) (by decide), 65536, 8, 65536⟩ := by
  refine ⟨rfl, fun h => ?_⟩
  have hlast := h.a 65535 (by norm_num) (by norm_num) 0 (by norm_num)
  rw [FitsInt] at hlast
  norm_num at hlast

/-- A contiguous tensor on the device. -/
def deviceMatrix (rows cols : ℕ) (dtype : ScalarType) : TorchTensor where
  toTensorMeta := packedMatrix rows cols
  isCuda := true
  dtype := dtype

/-- A square layer of 4096 in each of the formats. -/
theorem indexSafe_iff_within_int32_layer :
    Fp8Call.IndexSafe ⟨.cofda 25 32 (by decide) (by decide), 4096, 4096, 4096⟩ ∧
    Fp4Call.IndexSafe ⟨.nvfp4Cofda 25 (by decide), 4096, 4096, 4096⟩ ∧
    Fp4Call.IndexSafe ⟨.mxfp4Cofda 25 32 (by decide) (by decide), 4096, 4096, 4096⟩ := by
  refine ⟨?_, ?_, ?_⟩
  · exact (indexSafe_iff_within_int32 (.fp8 (packedMatrix 4096 4096) (packedMatrix 4096 4096)
      (packedColumns 4096 4096) .bfloat16 none 2 25 0 0 32 _ rfl)).mpr
        (show MmaEmu.WithinInt32 _ _ _ _ by decide)
  · exact (indexSafe_iff_within_int32 (.nvfp4 (deviceMatrix 4096 4096 .bfloat16)
      (deviceMatrix 4096 2048 .byte) (deviceMatrix 4096 2048 .byte)
      (deviceMatrix 4096 256 .float8E4m3fn) (deviceMatrix 4096 256 .float8E4m3fn)
      (deviceMatrix 1 1 .float) 2 25 0 _ rfl)).mpr (show MmaEmu.WithinInt32 _ _ _ _ by decide)
  · exact (indexSafe_iff_within_int32 (.mxfp4 (deviceMatrix 4096 4096 .bfloat16)
      (deviceMatrix 4096 2048 .byte) (deviceMatrix 4096 2048 .byte)
      (deviceMatrix 4096 128 .byte) (deviceMatrix 4096 128 .byte) 2 25 0 0 32 _ rfl)).mpr
        (show MmaEmu.WithinInt32 _ _ _ _ by decide)

end MmaEmu
