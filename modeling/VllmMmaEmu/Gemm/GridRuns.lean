import VllmMmaEmu.Gemm.Fp8GemmKernels
import VllmMmaEmu.Gemm.ScaledFp4Mm

/-!
# Launches with `int` arithmetic

The sizes are `int` parameters, and the grid and every index are computed in `int`. A launch that
evaluates an expression beyond its type has no defined result. CUDA starts no grid that is empty or
has more than 65535 blocks in its second dimension; such a launch stores nothing.
-/

namespace MmaEmu

open Simt

/-- What the host computes in `int` before a launch: the sizes, and the sums that it divides by the
tile shape. -/
def hostInts (cfg : TilingConfig) (M N K : ℕ) : List ℕ := [M, N, K, N + cfg.BN, M + cfg.BM]

def gridRows (cfg : TilingConfig) (M : ℕ) : ℕ := (M + cfg.BM - 1) / cfg.BM

def gridCols (cfg : TilingConfig) (N : ℕ) : ℕ := (N + cfg.BN - 1) / cfg.BN

/-- CUDA starts the grid. -/
def Launchable (cfg : TilingConfig) (M N : ℕ) : Prop :=
  0 < gridRows cfg M ∧ gridRows cfg M ≤ 65535 ∧ 0 < gridCols cfg N

instance (cfg : TilingConfig) (M N : ℕ) : Decidable (Launchable cfg M N) :=
  inferInstanceAs (Decidable (_ ∧ _ ∧ _))

/-- The effect of a launch: `result` when the grid is started and all values of its `int`
expressions are in range, `idle` when it is not started. -/
def runGrid {α : Type} (cfg : TilingConfig) (M N K : ℕ) (kernelInts : List ℕ) (result idle : α) :
    Option α :=
  if ∀ x ∈ hostInts cfg M N K, FitsInt x then
    if Launchable cfg M N then
      if ∀ x ∈ kernelInts, FitsInt x then some result else none
    else some idle
  else none

/-- Rows and columns of the output that the blocks of a grid look at. -/
def tileInts (cfg : TilingConfig) (M N : ℕ) : List ℕ :=
  (blocks cfg M N).flatMap fun block =>
    (List.range cfg.BM).map (block.1 * cfg.BM + ·) ++ (List.range cfg.BN).map (block.2 * cfg.BN + ·)

/-- Indices of the stores to the output. -/
def outputInts (cfg : TilingConfig) (M N : ℕ) : List ℕ :=
  (slots cfg M N).filterMap fun s =>
    if s.outRow cfg < M ∧ s.outCol cfg < N then some (s.outRow cfg * N + s.outCol cfg) else none

section Grid
variable {cfg : TilingConfig} {M N K : ℕ}

lemma gridRows_pos_iff : 0 < gridRows cfg M ↔ 0 < M := by
  have hBM := cfg.pos.1
  rw [gridRows, Nat.div_pos_iff]
  omega

lemma gridCols_pos_iff : 0 < gridCols cfg N ↔ 0 < N := by
  have hBN := cfg.pos.2.1
  rw [gridCols, Nat.div_pos_iff]
  omega

/-- What holds of a launch is seen on the started grid, or without any effect. -/
lemma exists_runGrid_iff {α : Type} {kernelInts : List ℕ} {result idle : α} {P : α → Prop} :
    (∃ r, runGrid cfg M N K kernelInts result idle = some r ∧ P r) ↔
      (∀ x ∈ hostInts cfg M N K, FitsInt x) ∧
        ((Launchable cfg M N ∧ (∀ x ∈ kernelInts, FitsInt x) ∧ P result) ∨
          (¬ Launchable cfg M N ∧ P idle)) := by
  rw [runGrid]
  split_ifs with hhost hlaunch hkernel <;> simp_all

lemma forall_tileInts (hhost : ∀ x ∈ hostInts cfg M N K, FitsInt x) :
    ∀ x ∈ tileInts cfg M N, FitsInt x := by
  have hrows := hhost (M + cfg.BM) (by simp [hostInts])
  have hcols := hhost (N + cfg.BN) (by simp [hostInts])
  intro x hx
  obtain ⟨block, hblock, hx⟩ := List.mem_flatMap.mp hx
  obtain ⟨hM, hN⟩ := mem_blocks.mp hblock
  simp only [List.mem_append, List.mem_map, List.mem_range] at hx
  rcases hx with ⟨r, hr, rfl⟩ | ⟨c, hc, rfl⟩
  · exact hrows.mono (by omega)
  · exact hcols.mono (by omega)

lemma forall_outputInts_iff :
    (∀ x ∈ outputInts cfg M N, FitsInt x) ↔ M * N ≤ 2 ^ 31 := by
  rw [← forall_index_iff]
  constructor
  · intro h m hm n hn
    obtain ⟨hmem, hrow, hcol⟩ := @slotOf_mem cfg M N m n hm hn
    refine h _ (List.mem_filterMap.mpr ⟨slotOf cfg m n, hmem, ?_⟩)
    rw [hrow, hcol, if_pos ⟨hm, hn⟩]
  · intro h x hx
    obtain ⟨s, -, hs⟩ := List.mem_filterMap.mp hx
    split_ifs at hs with hin
    obtain rfl := Option.some.inj hs
    exact h _ hin.1 _ hin.2

end Grid

namespace Fp8Args

variable (args : Fp8Args)

/-- Values of the K loop variable and the columns of its tiles. -/
def loopInts : List ℕ :=
  (blocks fp8EmuConfig args.M args.N).flatMap fun _ =>
  (stepLoop args.K fp8EmuConfig.BK).flatMap fun kTile =>
  (List.range (fp8EmuConfig.BK + 1)).map (kTile + ·)

def kernelInts : List ℕ :=
  tileInts fp8EmuConfig args.M args.N ++ args.loopInts ++ args.aReads.map Prod.snd ++
    args.bReads.map Prod.snd ++ outputInts fp8EmuConfig args.M args.N

variable {args}

lemma forall_loopInts_iff (hM : 0 < args.M) (hN : 0 < args.N) :
    (∀ x ∈ args.loopInts, FitsInt x) ↔ args.K ≤ 2 ^ 31 - 32 := by
  have hmem : ∀ x, x ∈ args.loopInts ↔ ∃ kTile ∈ stepLoop args.K 32, ∃ c < 33, kTile + c = x := by
    intro x
    simp only [loopInts, List.mem_flatMap, List.mem_map, List.mem_range]
    exact ⟨fun ⟨_, _, h⟩ => h, fun h => ⟨_, block_mem hM hN, h⟩⟩
  constructor
  · intro h
    rcases Nat.eq_zero_or_pos args.K with hK | hK
    · omega
    have hlast := h ((args.K - 1) / 32 * 32 + 32) ((hmem _).mpr
      ⟨_, div_mul_mem_stepLoop (by norm_num) (by omega : args.K - 1 < args.K), 32, by norm_num, rfl⟩)
    rw [fitsInt_iff] at hlast
    omega
  · intro hK x hx
    obtain ⟨kTile, hk, c, hc, rfl⟩ := (hmem x).mp hx
    obtain ⟨hlt, j, rfl⟩ := mem_stepLoop (by norm_num : 0 < 32) hk
    rw [fitsInt_iff]
    omega

lemma forall_aReads_iff (hN : 0 < args.N) :
    (∀ x ∈ args.aReads.map Prod.snd, FitsInt x) ↔ args.M * args.K ≤ 2 ^ 31 := by
  rw [← forall_index_iff]
  constructor
  · intro h m hm k hk
    exact h _ (List.mem_map_of_mem ((mem_aReads hm hN hk _).mpr rfl))
  · intro h x hx
    obtain ⟨⟨p, y⟩, hread, rfl⟩ := List.mem_map.mp hx
    obtain ⟨haddress, -⟩ := mem_reads.mp hread
    rw [aAddress] at haddress
    split_ifs at haddress with hin
    obtain rfl := Option.some.inj haddress
    exact h _ hin.1 _ hin.2

lemma forall_bReads_iff (hM : 0 < args.M) :
    (∀ x ∈ args.bReads.map Prod.snd, FitsInt x) ↔ args.N * args.K ≤ 2 ^ 31 := by
  rw [← forall_index_iff]
  constructor
  · intro h n hn k hk
    rw [Nat.add_comm]
    exact h _ (List.mem_map_of_mem ((mem_bReads hM hn hk _).mpr rfl))
  · intro h x hx
    obtain ⟨⟨p, y⟩, hread, rfl⟩ := List.mem_map.mp hx
    obtain ⟨haddress, -⟩ := mem_reads.mp hread
    rw [bAddress] at haddress
    split_ifs at haddress with hin
    obtain rfl := Option.some.inj haddress
    rw [Nat.add_comm]
    exact h _ hin.2 _ hin.1

end Fp8Args

/-- The sizes that the host can pass on and compute the grid from. -/
def HostInRange (M N K : ℕ) : Prop := M < 2 ^ 31 - 32 ∧ N < 2 ^ 31 - 8 ∧ K < 2 ^ 31

instance (M N K : ℕ) : Decidable (HostInRange M N K) := inferInstanceAs (Decidable (_ ∧ _ ∧ _))

/-- The sizes for which the loops and indices of the FP8 kernels stay in range. -/
def Fp8InRange (M N K : ℕ) : Prop :=
  M ≤ 32 * 65535 ∧ K ≤ 2 ^ 31 - 32 ∧ M * K ≤ 2 ^ 31 ∧ N * K ≤ 2 ^ 31 ∧ M * N ≤ 2 ^ 31

instance (M N K : ℕ) : Decidable (Fp8InRange M N K) :=
  inferInstanceAs (Decidable (_ ∧ _ ∧ _ ∧ _ ∧ _))

lemma forall_hostInts_iff {cfg : TilingConfig} (hBM : cfg.BM = 32) (hBN : cfg.BN = 8) {M N K : ℕ} :
    (∀ x ∈ hostInts cfg M N K, FitsInt x) ↔ HostInRange M N K := by
  simp only [hostInts, hBM, hBN, List.forall_mem_cons, List.not_mem_nil, false_imp_iff,
    implies_true, and_true, fitsInt_iff, HostInRange]
  omega

lemma launchable_iff {cfg : TilingConfig} (hBM : cfg.BM = 32) {M N : ℕ} :
    Launchable cfg M N ↔ 0 < M ∧ 0 < N ∧ M ≤ 32 * 65535 := by
  rw [Launchable, gridRows_pos_iff, gridCols_pos_iff, gridRows, hBM]
  omega

/-- The accumulation does not matter to the `int` expressions of the three kernels. -/
def Fp8Args.run {α : Type} (args : Fp8Args) (result idle : α) : Option α :=
  runGrid fp8EmuConfig args.M args.N args.K args.kernelInts result idle

/-- A run has its result when all sizes are in range, and no effect without outputs. -/
lemma Fp8Args.exists_run_iff {α : Type} {args : Fp8Args} {result idle : α} {P : α → Prop}
    (hidle : P idle ↔ args.M = 0 ∨ args.N = 0) :
    (∃ r, args.run result idle = some r ∧ P r) ↔ HostInRange args.M args.N args.K ∧
      (args.M = 0 ∨ args.N = 0 ∨ Fp8InRange args.M args.N args.K ∧ P result) := by
  rw [Fp8Args.run, exists_runGrid_iff, launchable_iff rfl, forall_hostInts_iff rfl rfl, hidle]
  refine and_congr_right fun hhost => ?_
  have htile : ∀ x ∈ tileInts fp8EmuConfig args.M args.N, FitsInt x :=
    forall_tileInts ((forall_hostInts_iff rfl rfl).mpr hhost)
  by_cases hM : args.M = 0
  · simp [hM]
  by_cases hN : args.N = 0
  · simp [hN]
  have hMpos := Nat.pos_of_ne_zero hM
  have hNpos := Nat.pos_of_ne_zero hN
  have hkernel : (∀ x ∈ args.kernelInts, FitsInt x) ↔ args.K ≤ 2 ^ 31 - 32 ∧
      args.M * args.K ≤ 2 ^ 31 ∧ args.N * args.K ≤ 2 ^ 31 ∧ args.M * args.N ≤ 2 ^ 31 := by
    rw [← forall_loopInts_iff hMpos hNpos, ← forall_aReads_iff hNpos,
      ← forall_bReads_iff hMpos, ← @forall_outputInts_iff fp8EmuConfig]
    simp only [kernelInts, List.mem_append, or_imp, forall_and, and_assoc]
    exact and_iff_right htile
  rw [hkernel, Fp8InRange]
  tauto

/-- The stores of a launch of one of the three kernels. -/
def Fp8Launch.run {β : Type} (launch : Fp8Launch) (args : Fp8Args) (smem : ℕ → ℕ → Fp8Shared)
    (epilogue : ℕ → Fp32 → β) : Option (List (ℕ × β)) :=
  args.run (launch.stores args smem epilogue) []

/-- The host wrapper narrows a size to `int`. A negative size acts as zero: no grid is started, or
the K loop ends at once. -/
@[irreducible] def narrowSize (n : ℕ) : ℕ := (toInt32 n).toNat

lemma narrowSize_of_lt {n : ℕ} (h : n < 2 ^ 31) : narrowSize n = n := by
  unfold narrowSize
  rw [(toInt32_eq_iff n).mpr h, Int.toNat_natCast]

lemma narrowSize_lt (n : ℕ) : narrowSize n < 2 ^ 31 := by
  unfold narrowSize
  rw [toInt32, Int.bmod]
  omega

namespace Fp8Call

def narrowed (call : Fp8Call) : Fp8Call :=
  ⟨call.launch, narrowSize call.M, narrowSize call.N, narrowSize call.K⟩

section Sizes
variable (call : Fp8Call) (A B : ℕ → Byte) (sched : ℕ → ℕ → ℕ → Schedule)

lemma args_M : (call.args A B sched).M = call.M := rfl
lemma args_N : (call.args A B sched).N = call.N := rfl
lemma args_K : (call.args A B sched).K = call.K := rfl
lemma narrowed_M : call.narrowed.M = narrowSize call.M := rfl
lemma narrowed_N : call.narrowed.N = narrowSize call.N := rfl
lemma narrowed_K : call.narrowed.K = narrowSize call.K := rfl

end Sizes

/-- The accesses of the kernel that an accepted call launches. -/
def accesses (call : Fp8Call) (A B : ℕ → Byte) (sched : ℕ → ℕ → ℕ → Schedule) : Option Accesses :=
  (call.narrowed.args A B sched).run (call.narrowed.args A B sched).accesses ⟨[], [], []⟩

variable {call : Fp8Call} {A B : ℕ → Byte} {sched : ℕ → ℕ → ℕ → Schedule}
  {strideA strideB strideC : ℕ}

lemma honourStrides_nil_iff {M N K : ℕ} :
    Accesses.HonourStrides ⟨[], [], []⟩ M N K strideA strideB strideC ↔ M = 0 ∨ N = 0 := by
  constructor
  · intro h
    by_contra hne
    obtain ⟨hM, hN⟩ := not_or.mp hne
    have hwritten := ((h 0 (Nat.pos_of_ne_zero hM) 0 (Nat.pos_of_ne_zero hN)).2 _).mpr rfl
    exact List.not_mem_nil hwritten
  · rintro (rfl | rfl) m hm n hn
    · cases hm
    · cases hn

lemma lt_of_mem_cWrites {args : Fp8Args} {m n x : ℕ} (h : ((m, n), x) ∈ args.cWrites) :
    m < args.M ∧ n < args.N := by
  obtain ⟨s, -, hs⟩ := List.mem_filterMap.mp h
  dsimp only at hs
  split_ifs at hs with hin
  cases hs
  exact hin

lemma le_of_honourStrides {args : Fp8Args} {M N K : ℕ} (hM : 0 < M) (hN : 0 < N)
    (h : args.accesses.HonourStrides M N K strideA strideB strideC) :
    M ≤ args.M ∧ N ≤ args.N ∧ K ≤ args.K := by
  refine ⟨?_, ?_, ?_⟩ <;> by_contra hlarge
  · have hwritten := ((h args.M (by omega) 0 hN).2 _).mpr rfl
    exact lt_irrefl _ (lt_of_mem_cWrites hwritten).1
  · have hwritten := ((h 0 hM args.N (by omega)).2 _).mpr rfl
    exact lt_irrefl _ (lt_of_mem_cWrites hwritten).2
  · have hread := (((h 0 hM 0 hN).1 args.K (by omega)).1 _).mpr rfl
    obtain ⟨haddress, -⟩ := Fp8Args.mem_reads.mp hread
    rw [Fp8Args.aAddress, if_neg fun hin => lt_irrefl _ hin.2] at haddress
    cases haddress

/-- The kernels use packed rows. -/
def StridesPacked (M N K strideA strideB strideC : ℕ) : Prop :=
  (K = 0 ∨ (M ≤ 1 ∨ strideA = K) ∧ (N ≤ 1 ∨ strideB = K)) ∧ (M ≤ 1 ∨ strideC = N)

instance (M N K strideA strideB strideC : ℕ) :
    Decidable (StridesPacked M N K strideA strideB strideC) := inferInstanceAs (Decidable (_ ∧ _))

lemma exists_accesses_iff : (∃ accesses, call.accesses A B sched = some accesses ∧
      accesses.HonourStrides call.M call.N call.K strideA strideB strideC) ↔
    HostInRange (narrowSize call.M) (narrowSize call.N) (narrowSize call.K) ∧
      (call.M = 0 ∨ call.N = 0 ∨ call.N < 2 ^ 31 ∧ Fp8InRange call.M call.N call.K ∧
        StridesPacked call.M call.N call.K strideA strideB strideC) := by
  have hpacked := Fp8Args.honourStrides_iff (call.args A B sched) strideA strideB strideC
  simp only [args_M, args_N, args_K] at hpacked
  by_cases hint : call.M < 2 ^ 31 ∧ call.N < 2 ^ 31 ∧ call.K < 2 ^ 31
  · obtain ⟨hMlt, hNlt, hKlt⟩ := hint
    have hsame : call.narrowed = call := by
      rw [narrowed, narrowSize_of_lt hMlt, narrowSize_of_lt hNlt, narrowSize_of_lt hKlt]
    have hrun := @Fp8Args.exists_run_iff _ (call.args A B sched) (call.args A B sched).accesses
      ⟨[], [], []⟩ (·.HonourStrides call.M call.N call.K strideA strideB strideC)
      honourStrides_nil_iff
    simp only [args_M, args_N, args_K] at hrun
    rw [accesses, hsame, narrowSize_of_lt hMlt, narrowSize_of_lt hNlt, narrowSize_of_lt hKlt, hrun,
      hpacked, and_iff_right hNlt, StridesPacked]
    refine and_congr_right fun _ => ⟨?_, ?_⟩
    · rintro (h | h | ⟨hrange, h | h | h⟩)
      · exact Or.inl h
      · exact Or.inr (Or.inl h)
      · exact Or.inl h
      · exact Or.inr (Or.inl h)
      · exact Or.inr (Or.inr ⟨hrange, h⟩)
    · rintro (h | h | ⟨hrange, h⟩)
      · exact Or.inl h
      · exact Or.inr (Or.inl h)
      · exact Or.inr (Or.inr ⟨hrange, Or.inr (Or.inr h)⟩)
  rw [accesses, Fp8Args.run, exists_runGrid_iff, launchable_iff rfl, forall_hostInts_iff rfl rfl,
    honourStrides_nil_iff]
  simp only [args_M, args_N, args_K, narrowed_M, narrowed_N, narrowed_K]
  refine and_congr_right fun _ => ?_
  by_cases hempty : call.M = 0 ∨ call.N = 0
  · -- no grid is started
    have hnarrowed : narrowSize call.M = 0 ∨ narrowSize call.N = 0 :=
      hempty.imp (fun h => by rw [h, narrowSize_of_lt (by norm_num)])
        (fun h => by rw [h, narrowSize_of_lt (by norm_num)])
    exact iff_of_true (Or.inr ⟨by omega, hempty⟩) (hempty.imp_right Or.inl)
  refine iff_of_false ?_ ?_
  · rintro (⟨-, -, hhonour⟩ | ⟨-, h⟩)
    · obtain ⟨hMle, hNle, hKle⟩ := le_of_honourStrides (by omega) (by omega) hhonour
      simp only [args_M, args_N, args_K, narrowed_M, narrowed_N, narrowed_K] at hMle hNle hKle
      exact hint ⟨hMle.trans_lt (narrowSize_lt _), hNle.trans_lt (narrowSize_lt _),
        hKle.trans_lt (narrowSize_lt _)⟩
    · exact hempty h
  · rintro (h | h | ⟨hNlt, ⟨hMle, hKle, -⟩, -⟩)
    · exact hempty (Or.inl h)
    · exact hempty (Or.inr h)
    · exact hint ⟨by omega, hNlt, by omega⟩

end Fp8Call

/-- The launched kernel honours the strides of tensors that passed the checks exactly when its
arithmetic stays in range, and every stride it ignores is the packed one or belongs to at most one
row. -/
theorem fp8_strides_honoured_iff {c a b : TensorMeta} {outDtype : ScalarType}
    {bias : Option TensorMeta} {algorithm fBits gBits groupSize chunkSize : ℤ} {call : Fp8Call}
    (h : mmaEmuScaledFp8Mm c a b outDtype bias algorithm fBits gBits groupSize chunkSize = .ok call)
    (A B : ℕ → Byte) (sched : ℕ → ℕ → ℕ → Schedule) :
    (∃ accesses, call.accesses A B sched = some accesses ∧
        accesses.HonourStrides (a.size 0) (b.size 1) (a.size 1) (a.stride 0) (b.stride 1)
          (c.stride 0)) ↔
      HostInRange (narrowSize (a.size 0)) (narrowSize (b.size 1)) (narrowSize (a.size 1)) ∧
        (a.size 0 = 0 ∨ b.size 1 = 0 ∨ b.size 1 < 2 ^ 31 ∧
          Fp8InRange (a.size 0) (b.size 1) (a.size 1) ∧
            Fp8Call.StridesPacked (a.size 0) (b.size 1) (a.size 1) (a.stride 0) (b.stride 1)
              (c.stride 0)) := by
  obtain ⟨hM, hN, hK⟩ := call_of_mmaEmuScaledFp8Mm h
  rw [← hM, ← hN, ← hK]
  exact Fp8Call.exists_accesses_iff

/-- A matrix of two packed rows. -/
def packedRows (cols : ℕ) : TensorMeta := ⟨[2, cols], [cols, 1], rfl⟩

/-- The left half of two rows that are 64 wide. -/
def slicedRows : TensorMeta := ⟨[2, 32], [64, 1], rfl⟩

def packedCols : TensorMeta := ⟨[32, 8], [1, 32], rfl⟩

def slicedCall : Fp8Call := ⟨.cofda 25 32 (by decide) (by decide), 2, 8, 32⟩

/-- Packed operands at Blackwell's widths. -/
theorem fp8_strides_honoured_iff_packed : ∃ accesses,
    slicedCall.accesses (fun _ => 0x38#8) (fun _ => 0x38#8) (fun _ _ _ => .inOrder) =
        some accesses ∧
      accesses.HonourStrides 2 8 32 32 32 8 :=
  (@fp8_strides_honoured_iff (packedRows 8) (packedRows 32) packedCols .bfloat16 none 2 25 0 0 32 _
    rfl _ _ _).mpr ⟨by
      rw [narrowSize_of_lt (by decide), narrowSize_of_lt (by decide), narrowSize_of_lt (by decide)]
      decide, Or.inr (Or.inr (by decide))⟩

/-- A row slice passes the checks and row 1 of it is read from inside row 0. -/
theorem fp8_slice_misread :
    mmaEmuScaledFp8Mm (packedRows 8) slicedRows packedCols .bfloat16 none 2 25 0 0 32 =
        .ok slicedCall ∧
      ¬ ∃ accesses,
        slicedCall.accesses (fun _ => 0x38#8) (fun _ => 0x38#8) (fun _ _ _ => .inOrder) =
            some accesses ∧
          accesses.HonourStrides 2 8 32 (slicedRows.stride 0) (packedCols.stride 1)
            ((packedRows 8).stride 0) := by
  refine ⟨rfl, fun h => ?_⟩
  have hpacked := ((@Fp8Call.exists_accesses_iff slicedCall _ _ _ _ _ _).mp h).2
  revert hpacked
  decide

/-- Indices of the loads of one tile of an operand, and what `read_scale` computes for its scales. -/
def PackedOperand.loadInts (op : PackedOperand) (cfg : TilingConfig)
    (blockSize K tileRows blockStart kt : ℕ) : List ℕ :=
  let kPacked := K / 2
  let numKBlocks := (K + blockSize - 1) / blockSize
  ((List.range (tileRows * cfg.bkPacked)).filterMap fun idx =>
    let globalRow := blockStart + idx / cfg.bkPacked
    let globalCol := kt * cfg.BK / 2 + idx % cfg.bkPacked
    if globalRow < op.rows ∧ globalCol < kPacked then some (globalRow * kPacked + globalCol)
    else none) ++
  (List.range (tileRows * cfg.sfPerTile blockSize)).flatMap fun idx =>
    let rowGlobal := blockStart + idx / cfg.sfPerTile blockSize
    let kBlockGlobal := kt * cfg.sfPerTile blockSize + idx % cfg.sfPerTile blockSize
    if rowGlobal < op.rows ∧ kBlockGlobal < numKBlocks then
      Swizzle.readScaleInts blockSize rowGlobal kBlockGlobal op.rows K
    else []

namespace Fp4Args

variable (args : Fp4Args)

/-- Starts of K tile `kt`, and the columns and blocks it looks at. -/
def tileKInts (cfg : TilingConfig) (blockSize kt : ℕ) : List ℕ :=
  [kt * cfg.BK, args.K + blockSize] ++ (List.range cfg.bkPacked).map (kt * cfg.BK / 2 + ·) ++
    (List.range (cfg.sfPerTile blockSize)).map (kt * cfg.sfPerTile blockSize + ·)

/-- Expressions of the block at `(blockM, blockN)`. -/
def blockInts (cfg : TilingConfig) (blockSize blockM blockN : ℕ) : List ℕ :=
  (args.K + cfg.BK) :: (List.range ((args.K + cfg.BK - 1) / cfg.BK)).flatMap fun kt =>
    args.tileKInts cfg blockSize kt ++ args.A.loadInts cfg blockSize args.K cfg.BM blockM kt ++
      args.B.loadInts cfg blockSize args.K cfg.BN blockN kt

def kernelInts (cfg : TilingConfig) (blockSize : ℕ) : List ℕ :=
  tileInts cfg args.A.rows args.B.rows ++
    ((blocks cfg args.A.rows args.B.rows).flatMap fun block =>
      args.blockInts cfg blockSize (block.1 * cfg.BM) (block.2 * cfg.BN)) ++
    outputInts cfg args.A.rows args.B.rows

end Fp4Args

/-- The stores of a launch of one of the four kernels. -/
def Fp4Launch.run {β : Type} (launch : Fp4Launch) (args : Fp4Args) (smem : ℕ → ℕ → launch.Shared)
    (epilogue : ℕ → Fp32 → β) : Option (List (ℕ × β)) :=
  let cfg := (launch.kernel args).config
  runGrid cfg args.A.rows args.B.rows args.K (args.kernelInts cfg launch.fmt.blockSize)
    (launch.stores args smem epilogue) []

/-- The sizes for which the loops and indices of the FP4 kernels stay in range. -/
def Fp4InRange (blockSize M N K : ℕ) : Prop :=
  M ≤ 32 * 65535 ∧ K + 64 < 2 ^ 31 ∧ (M * (K / 2) ≤ 2 ^ 31 ∧ scaleCount M (K / blockSize) ≤ 2 ^ 31) ∧
    (N * (K / 2) ≤ 2 ^ 31 ∧ scaleCount N (K / blockSize) ≤ 2 ^ 31) ∧ M * N ≤ 2 ^ 31

instance (blockSize M N K : ℕ) : Decidable (Fp4InRange blockSize M N K) :=
  inferInstanceAs (Decidable (_ ∧ _ ∧ (_ ∧ _) ∧ (_ ∧ _) ∧ _))

section Fp4
variable {blockSize K tileRows : ℕ}

namespace PackedOperand

variable {op : PackedOperand}

/-- The tile that holds a byte of the operand loads it. -/
lemma byte_mem_loadInts (blockSize : ℕ) (htile : 0 < tileRows) {m c : ℕ} (hm : m < op.rows)
    (hc : c < K / 2) : m * (K / 2) + c ∈
      op.loadInts nvfp4EmuConfig blockSize K tileRows (m / tileRows * tileRows) (c / 32) := by
  refine List.mem_append_left _ (List.mem_filterMap.mpr
    ⟨m % tileRows * 32 + c % 32, List.mem_range.mpr ?_, ?_⟩)
  · have hmod : (m % tileRows + 1) * 32 ≤ tileRows * 32 :=
      Nat.mul_le_mul_right 32 (Nat.mod_lt m htile)
    change m % tileRows * 32 + c % 32 < tileRows * 32
    omega
  · have hrow : m / tileRows * tileRows + (m % tileRows * 32 + c % 32) / 32 = m := by
      rw [show (m % tileRows * 32 + c % 32) / 32 = m % tileRows by omega, Nat.div_add_mod']
    have hcol : c / 32 * 64 / 2 + (m % tileRows * 32 + c % 32) % 32 = c := by omega
    simp only [nvfp4EmuConfig_bkPacked, nvfp4EmuConfig_BK, hrow, hcol, hm, hc, and_self, if_true]

/-- The tile that holds a scale of the operand reads it. -/
lemma scale_mem_loadInts (hsf : 0 < 64 / blockSize) (htile : 0 < tileRows) {m kb x : ℕ}
    (hm : m < op.rows) (hkb : kb < (K + blockSize - 1) / blockSize)
    (hx : x ∈ Swizzle.readScaleInts blockSize m kb op.rows K) :
    x ∈ op.loadInts nvfp4EmuConfig blockSize K tileRows (m / tileRows * tileRows)
      (kb / (64 / blockSize)) := by
  obtain ⟨hdiv, hrem⟩ := div_mod_of_lt (a := m % tileRows) (Nat.mod_lt kb hsf)
  refine List.mem_append_right _ (List.mem_flatMap.mpr
    ⟨m % tileRows * (64 / blockSize) + kb % (64 / blockSize), List.mem_range.mpr ?_, ?_⟩)
  · have hlt := Nat.mod_lt kb hsf
    calc m % tileRows * (64 / blockSize) + kb % (64 / blockSize)
          < (m % tileRows + 1) * (64 / blockSize) := by rw [Nat.succ_mul]; omega
        _ ≤ tileRows * (64 / blockSize) := Nat.mul_le_mul_right _ (Nat.mod_lt m htile)
  · simp only [nvfp4EmuConfig_sfPerTile, hdiv, hrem, Nat.div_add_mod', hm, hkb, and_self, if_true]
    exact hx

/-- The tiles of an operand load each byte and read each scale of its rows. -/
lemma forall_loadInts_iff (op : PackedOperand)
    (hblk : blockSize = 16 ∨ blockSize = 32) (hdvd : blockSize ∣ K) (htile : 0 < tileRows)
    (hrows : op.rows < 2 ^ 31) (hK : K + 64 < 2 ^ 31) :
    (∀ b, b * tileRows < op.rows → ∀ kt < (K + 64 - 1) / 64,
        ∀ x ∈ op.loadInts nvfp4EmuConfig blockSize K tileRows (b * tileRows) kt, FitsInt x) ↔
      op.rows * (K / 2) ≤ 2 ^ 31 ∧ scaleCount op.rows (K / blockSize) ≤ 2 ^ 31 := by
  have hblocks := ceil_of_dvd (by omega : 0 < blockSize) hdvd
  have hbounds : ∀ {m kb}, m < op.rows → kb < K / blockSize →
      ((∀ x ∈ Swizzle.readScaleInts blockSize m kb op.rows K, FitsInt x) ↔
        FitsInt (Swizzle.swizzledIdx blockSize m kb K)) := fun hm hkb =>
    forall_readScaleInts_iff hblk hm.le (hkb.le.trans (Nat.div_le_self K blockSize)) hrows hK
  rw [← forall_index_iff, ← hblocks, ← forall_swizzledIdx_iff, hblocks]
  constructor
  · intro h
    refine ⟨fun m hm c hc => ?_, fun m hm kb hkb => (hbounds hm hkb).mp fun x hx => ?_⟩
    · exact h (m / tileRows) (lt_of_le_of_lt (Nat.div_mul_le_self m tileRows) hm) (c / 32)
        (by omega) _ (byte_mem_loadInts blockSize htile hm hc)
    · have hkt : kb / (64 / blockSize) < (K + 64 - 1) / 64 := by
        rcases hblk with rfl | rfl <;> norm_num <;> omega
      have hsf : 0 < 64 / blockSize := by rcases hblk with rfl | rfl <;> norm_num
      exact h (m / tileRows) (lt_of_le_of_lt (Nat.div_mul_le_self m tileRows) hm) _ hkt x
        (scale_mem_loadInts hsf htile hm (hblocks ▸ hkb) hx)
  · rintro ⟨hbytes, hscales⟩ b _ kt _ x hx
    rcases List.mem_append.mp hx with hx | hx
    · obtain ⟨idx, -, hx⟩ := List.mem_filterMap.mp hx
      dsimp only at hx
      split_ifs at hx with hin
      obtain rfl := Option.some.inj hx
      exact hbytes _ hin.1 _ hin.2
    · obtain ⟨idx, -, hx⟩ := List.mem_flatMap.mp hx
      dsimp only at hx
      split_ifs at hx with hin
      · rw [hblocks] at hin
        exact (hbounds hin.1 hin.2).mpr (hscales _ hin.1 _ hin.2) x hx
      · cases hx

end PackedOperand

namespace Fp4Args

variable {args : Fp4Args}

lemma forall_tileKInts (hblk : blockSize = 16 ∨ blockSize = 32) (hK : args.K + 64 < 2 ^ 31) {kt : ℕ}
    (hkt : kt < (args.K + 64 - 1) / 64) :
    ∀ x ∈ args.tileKInts nvfp4EmuConfig blockSize kt, FitsInt x := by
  have hsf : 64 / blockSize ≤ 4 := by rcases hblk with rfl | rfl <;> norm_num
  have hstart : kt * (64 / blockSize) ≤ kt * 4 := Nat.mul_le_mul_left kt hsf
  intro x hx
  simp only [tileKInts, nvfp4EmuConfig_BK, nvfp4EmuConfig_bkPacked, nvfp4EmuConfig_sfPerTile,
    List.mem_append, List.mem_cons, List.not_mem_nil, or_false, List.mem_map, List.mem_range] at hx
  rw [fitsInt_iff]
  rcases hx with ((rfl | rfl) | ⟨c, hc, rfl⟩) | ⟨j, hj, rfl⟩
  · omega
  · rcases hblk with rfl | rfl <;> omega
  · omega
  · omega

/-- With an output, the expressions of a grid are in range when the sizes are. -/
lemma forall_kernelInts_iff (hblk : blockSize = 16 ∨ blockSize = 32) (hdvd : blockSize ∣ args.K)
    (hhost : HostInRange args.A.rows args.B.rows args.K) (hM : 0 < args.A.rows)
    (hN : 0 < args.B.rows) :
    (∀ x ∈ args.kernelInts nvfp4EmuConfig blockSize, FitsInt x) ↔ args.K + 64 < 2 ^ 31 ∧
      (args.A.rows * (args.K / 2) ≤ 2 ^ 31 ∧ scaleCount args.A.rows (args.K / blockSize) ≤ 2 ^ 31) ∧
      (args.B.rows * (args.K / 2) ≤ 2 ^ 31 ∧ scaleCount args.B.rows (args.K / blockSize) ≤ 2 ^ 31) ∧
        args.A.rows * args.B.rows ≤ 2 ^ 31 := by
  have htile : ∀ x ∈ tileInts nvfp4EmuConfig args.A.rows args.B.rows, FitsInt x :=
    forall_tileInts ((forall_hostInts_iff rfl rfl).mpr hhost)
  obtain ⟨hMlt, hNlt, -⟩ := hhost
  have hblocks : ∀ block, block ∈ blocks nvfp4EmuConfig args.A.rows args.B.rows ↔
      block.1 * 32 < args.A.rows ∧ block.2 * 8 < args.B.rows := fun _ => mem_blocks
  rw [kernelInts]
  simp only [List.mem_append, or_imp, forall_and, and_iff_right htile, forall_outputInts_iff]
  constructor
  · rintro ⟨hblock, hout⟩
    have hmem : ∀ {b c x}, b * 32 < args.A.rows → c * 8 < args.B.rows →
        x ∈ args.blockInts nvfp4EmuConfig blockSize (b * 32) (c * 8) → FitsInt x := fun hb hc hx =>
      hblock _ (List.mem_flatMap.mpr ⟨(_, _), (hblocks _).mpr ⟨hb, hc⟩, hx⟩)
    have hK : args.K + 64 < 2 ^ 31 := by
      have hfirst := @hmem 0 0 _ (by omega) (by omega) List.mem_cons_self
      rwa [nvfp4EmuConfig_BK, fitsInt_iff] at hfirst
    refine ⟨hK, ?_, ?_, hout⟩
    · refine (args.A.forall_loadInts_iff hblk hdvd (Nat.succ_pos 31) (by omega) hK).mp
        fun b hb kt hkt x hx => @hmem _ 0 _ hb (by omega) (List.mem_cons_of_mem _ ?_)
      exact List.mem_flatMap.mpr ⟨kt, List.mem_range.mpr hkt,
        List.mem_append_left _ (List.mem_append_right _ hx)⟩
    · refine (args.B.forall_loadInts_iff hblk hdvd (Nat.succ_pos 7) (by omega) hK).mp
        fun c hc kt hkt x hx => @hmem 0 _ _ (by omega) hc (List.mem_cons_of_mem _ ?_)
      exact List.mem_flatMap.mpr ⟨kt, List.mem_range.mpr hkt, List.mem_append_right _ hx⟩
  · rintro ⟨hK, hA, hB, hout⟩
    refine ⟨fun x hx => ?_, hout⟩
    obtain ⟨block, hblock, hx⟩ := List.mem_flatMap.mp hx
    obtain ⟨hb, hc⟩ := (hblocks block).mp hblock
    rcases List.mem_cons.mp hx with rfl | hx
    · rwa [nvfp4EmuConfig_BK, fitsInt_iff]
    obtain ⟨kt, hkt, hx⟩ := List.mem_flatMap.mp hx
    have hkt' : kt < (args.K + 64 - 1) / 64 := List.mem_range.mp hkt
    rcases List.mem_append.mp hx with hx | hx
    · rcases List.mem_append.mp hx with hx | hx
      · exact forall_tileKInts hblk hK hkt' x hx
      · exact (args.A.forall_loadInts_iff hblk hdvd (by norm_num) (by omega) hK).mpr hA block.1 hb kt
          hkt' x hx
    · exact (args.B.forall_loadInts_iff hblk hdvd (by norm_num) (by omega) hK).mpr hB block.2 hc kt
        hkt' x hx

end Fp4Args

lemma Fp4Launch.config_eq (launch : Fp4Launch) (args : Fp4Args) :
    (launch.kernel args).config = nvfp4EmuConfig := by
  cases launch <;> rfl

lemma Fp4Launch.blockSize_eq (launch : Fp4Launch) :
    launch.fmt.blockSize = 16 ∨ launch.fmt.blockSize = 32 := by
  cases launch with
  | nvfp4Gdfs | nvfp4Cofda => exact Or.inl rfl
  | mxfp4Gdfs | mxfp4Cofda => exact Or.inr rfl

/-- A run has its stores when all sizes are in range, and none without outputs. -/
lemma Fp4Launch.exists_run_iff {β : Type} (launch : Fp4Launch) {args : Fp4Args}
    (hdvd : launch.fmt.blockSize ∣ args.K) (smem : ℕ → ℕ → launch.Shared)
    (epilogue : ℕ → Fp32 → β) {P : List (ℕ × β) → Prop}
    (hnil : P [] ↔ args.A.rows = 0 ∨ args.B.rows = 0) :
    (∃ stores, launch.run args smem epilogue = some stores ∧ P stores) ↔
      HostInRange args.A.rows args.B.rows args.K ∧ (args.A.rows = 0 ∨ args.B.rows = 0 ∨
        Fp4InRange launch.fmt.blockSize args.A.rows args.B.rows args.K ∧
          P (launch.stores args smem epilogue)) := by
  rw [Fp4Launch.run, exists_runGrid_iff]
  simp only [launch.config_eq args]
  rw [launchable_iff rfl, forall_hostInts_iff rfl rfl, hnil]
  refine and_congr_right fun hhost => ?_
  by_cases hM : args.A.rows = 0
  · simp [hM]
  by_cases hN : args.B.rows = 0
  · simp [hN]
  have hMpos := Nat.pos_of_ne_zero hM
  have hNpos := Nat.pos_of_ne_zero hN
  rw [Fp4Args.forall_kernelInts_iff launch.blockSize_eq hdvd hhost hMpos hNpos, Fp4InRange]
  tauto

end Fp4

end MmaEmu
