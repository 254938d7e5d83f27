import VllmMmaEmu.Gemm.ScaledFp8Mm
import VllmMmaEmu.Library.Python

/-!
# Torch entry point of the FP8 GEMM

The checks of `mma_emu_scaled_fp8_mm` on sizes and strides, and the addresses
that the launched kernel touches. The kernels get base pointers and the three
sizes only.
-/

namespace MmaEmu

open Simt

/-- Sizes as the host wrapper passes them to the kernel it launches. -/
structure Fp8Call where
  launch : Fp8Launch
  M : ℕ
  N : ℕ
  K : ℕ

def Fp8Call.args (call : Fp8Call) (A B : ℕ → Byte) (sched : ℕ → ℕ → ℕ → Schedule) : Fp8Args :=
  ⟨call.M, call.N, call.K, A, B, sched⟩

def checkFp8Operands (c a b : TensorMeta) : Except String Unit := do
  torchCheck (a.dim == 2 && b.dim == 2 && c.dim == 2) "MMA-Emu scaled_mm: All tensors must be 2D"
  torchCheck (c.size 0 == a.size 0 && a.size 1 == b.size 0 && b.size 1 == c.size 1)
    "MMA-Emu scaled_mm: Matrix dimensions must match"
  torchCheck (a.stride 1 == 1 && c.stride 1 == 1) "MMA-Emu scaled_mm: A and C must be row-major"
  torchCheck (b.stride 0 == 1) "MMA-Emu scaled_mm: B must be column-major"

def checkFp8Bias (b : TensorMeta) : Option TensorMeta → Except String Unit
  | none => .ok ()
  | some bias =>
    torchCheck (bias.numel == b.size 1 && bias.isContiguous && bias.dim == 1)
      "MMA-Emu scaled_mm: bias must be 1D with N elements"

def checkFp8Parameters (algorithm fBits gBits groupSize chunkSize : ℤ) : Except String Unit := do
  torchCheck (1 ≤ algorithm && algorithm ≤ 3)
    ("algorithm must be 1 (GDFS), 2 (CoFDA, C-fused), or 3 (CoFDA, C-decoupled), got " ++
      toString algorithm)
  if algorithm = 1 then
    torchCheck (designSpaceContains gdfsF fBits)
      ("FP8 GDFS: f_bits must be one of \x7b7, 9, 10, 11, 13, 15, 25, 35\x7d, got " ++
        toString fBits)
    torchCheck (designSpaceContains fp8G gBits)
      ("FP8 GDFS: g_bits must be one of \x7b3, 4, 5, 6, 8, 13, 32\x7d, got " ++ toString gBits)
    torchCheck (designSpaceContains fp8Gs groupSize)
      ("FP8 GDFS: group_size must be 8 or 16, got " ++ toString groupSize)
  else if algorithm = 2 then
    torchCheck (designSpaceContains cofdaF fBits)
      ("FP8 CoFDA: f_bits must be one of \x7b3, 5, 7, 9, 10, 11, 12, 13, 17, 21, 25\x7d, got " ++
        toString fBits)
    torchCheck (designSpaceContains fp8Cs chunkSize)
      ("FP8 CoFDA: chunk_size must be 16 or 32, got " ++ toString chunkSize)
  else
    torchCheck (designSpaceContains cofdaF fBits)
      ("FP8 CoFDA (C-decoupled): f_bits must be one of " ++
        "\x7b3, 5, 7, 9, 10, 11, 12, 13, 17, 21, 25\x7d, got " ++ toString fBits)
    torchCheck (designSpaceContains fp8Cs chunkSize)
      ("FP8 CoFDA (C-decoupled): chunk_size must be 16 or 32, got " ++ toString chunkSize)

def mmaEmuScaledFp8Mm (c a b : TensorMeta) (outDtype : ScalarType) (bias : Option TensorMeta)
    (algorithm fBits gBits groupSize chunkSize : ℤ) : Except String Fp8Call := do
  checkFp8Operands c a b
  checkFp8Bias b bias
  checkFp8Parameters algorithm fBits gBits groupSize chunkSize
  let launch ← mmaEmuScaledFp8MmEmu outDtype algorithm fBits gBits groupSize chunkSize
  return ⟨launch, a.size 0, b.size 1, a.size 1⟩

namespace Fp8Args

variable (args : Fp8Args)

/-- Every load of a run from one matrix: the position it is for and the address it reads. -/
def reads (tileSize : ℕ) (position : (block : ℕ × ℕ) → (kTile idx : ℕ) → ℕ × ℕ)
    (address : ℕ → ℕ → Option ℕ) : List ((ℕ × ℕ) × ℕ) :=
  (blocks fp8EmuConfig args.M args.N).flatMap fun block =>
  (stepLoop args.K fp8EmuConfig.BK).flatMap fun kTile =>
  perThread fp8EmuConfig.numThreads (unrolledIndices tileSize fp8EmuConfig.numThreads) fun idx =>
    let p := position block kTile idx
    ((address p.1 p.2).map fun x => (p, x)).toList

def aReads : List ((ℕ × ℕ) × ℕ) :=
  args.reads (fp8EmuConfig.BM * fp8EmuConfig.BK) (fun block kTile idx =>
    (block.1 * fp8EmuConfig.BM + idx / fp8EmuConfig.BK, kTile + idx % fp8EmuConfig.BK)) args.aAddress

def bReads : List ((ℕ × ℕ) × ℕ) :=
  args.reads (fp8EmuConfig.BN * fp8EmuConfig.BK) (fun block kTile idx =>
    (kTile + idx / fp8EmuConfig.BN, block.2 * fp8EmuConfig.BN + idx % fp8EmuConfig.BN)) args.bAddress

/-- Every store to `C`. -/
def cWrites : List ((ℕ × ℕ) × ℕ) :=
  (slots fp8EmuConfig args.M args.N).filterMap fun s =>
    let outRow := s.outRow fp8EmuConfig
    let outCol := s.outCol fp8EmuConfig
    if outRow < args.M ∧ outCol < args.N then some ((outRow, outCol), outRow * args.N + outCol)
    else none

end Fp8Args

/-- The accesses of a launch to the matrices, with the positions that they are for. -/
structure Accesses where
  aReads : List ((ℕ × ℕ) × ℕ)
  bReads : List ((ℕ × ℕ) × ℕ)
  cWrites : List ((ℕ × ℕ) × ℕ)

/-- Every output reads its row of `a` and its column of `b` and is written where tensors with
these leading strides keep them. -/
def Accesses.HonourStrides (accesses : Accesses) (M N K strideA strideB strideC : ℕ) : Prop :=
  ∀ m < M, ∀ n < N,
    (∀ k < K, (∀ address, ((m, k), address) ∈ accesses.aReads ↔ address = m * strideA + k) ∧
      ∀ address, ((k, n), address) ∈ accesses.bReads ↔ address = k + n * strideB) ∧
    ∀ address, ((m, n), address) ∈ accesses.cWrites ↔ address = m * strideC + n

namespace Fp8Args

variable (args : Fp8Args)

def accesses : Accesses := ⟨args.aReads, args.bReads, args.cWrites⟩

variable {args} {m n k : ℕ}

lemma mem_reads {tileSize : ℕ} {position : ℕ × ℕ → ℕ → ℕ → ℕ × ℕ} {address : ℕ → ℕ → Option ℕ}
    {p : ℕ × ℕ} {x : ℕ} : (p, x) ∈ args.reads tileSize position address ↔
      address p.1 p.2 = some x ∧ ∃ block ∈ blocks fp8EmuConfig args.M args.N,
        ∃ kTile ∈ stepLoop args.K 32, ∃ idx < tileSize, position block kTile idx = p := by
  have cover := covers_unrolledIndices tileSize (T := fp8EmuConfig.numThreads) (by decide)
  simp only [reads, List.mem_flatMap, mem_perThread cover, Option.mem_toList,
    Option.map_eq_some_iff, Prod.mk.injEq]
  constructor
  · rintro ⟨block, hblock, kTile, hk, idx, hidx, x', hx, rfl, rfl⟩
    exact ⟨hx, block, hblock, kTile, hk, idx, hidx, rfl⟩
  · rintro ⟨hx, block, hblock, kTile, hk, idx, hidx, rfl⟩
    exact ⟨block, hblock, kTile, hk, idx, hidx, x, hx, rfl, rfl⟩

lemma block_mem (hm : m < args.M) (hn : n < args.N) :
    (m / 32, n / 8) ∈ blocks fp8EmuConfig args.M args.N :=
  mem_blocks.mpr ⟨lt_of_le_of_lt (Nat.div_mul_le_self m 32) hm,
    lt_of_le_of_lt (Nat.div_mul_le_self n 8) hn⟩

lemma mem_aReads (hm : m < args.M) (hn : n < args.N) (hk : k < args.K) (x : ℕ) :
    ((m, k), x) ∈ args.aReads ↔ x = m * args.K + k := by
  have hread : ∃ block ∈ blocks fp8EmuConfig args.M args.N, ∃ kTile ∈ stepLoop args.K 32,
      ∃ idx < 32 * 32, (block.1 * 32 + idx / 32, kTile + idx % 32) = (m, k) := by
    refine ⟨_, block_mem hm hn, k / 32 * 32, div_mul_mem_stepLoop (by norm_num) hk,
      m % 32 * 32 + k % 32, by omega, ?_⟩
    rw [Prod.mk.injEq]
    omega
  have haddress : args.aAddress m k = some x ↔ x = m * args.K + k := by
    rw [aAddress, if_pos ⟨hm, hk⟩, Option.some.injEq, eq_comm]
  exact mem_reads.trans ((and_iff_left hread).trans haddress)

lemma mem_bReads (hm : m < args.M) (hn : n < args.N) (hk : k < args.K) (x : ℕ) :
    ((k, n), x) ∈ args.bReads ↔ x = k + n * args.K := by
  have hread : ∃ block ∈ blocks fp8EmuConfig args.M args.N, ∃ kTile ∈ stepLoop args.K 32,
      ∃ idx < 8 * 32, (kTile + idx / 8, block.2 * 8 + idx % 8) = (k, n) := by
    refine ⟨_, block_mem hm hn, k / 32 * 32, div_mul_mem_stepLoop (by norm_num) hk,
      k % 32 * 8 + n % 8, by omega, ?_⟩
    rw [Prod.mk.injEq]
    omega
  have haddress : args.bAddress k n = some x ↔ x = k + n * args.K := by
    rw [bAddress, if_pos ⟨hk, hn⟩, Option.some.injEq, eq_comm]
  exact mem_reads.trans ((and_iff_left hread).trans haddress)

lemma mem_cWrites (hm : m < args.M) (hn : n < args.N) (address : ℕ) :
    ((m, n), address) ∈ args.cWrites ↔ address = m * args.N + n := by
  simp only [cWrites, List.mem_filterMap]
  constructor
  · rintro ⟨s, -, h⟩
    split at h
    · obtain ⟨hpos, rfl⟩ := Prod.mk.inj (Option.some.inj h)
      obtain ⟨rfl, rfl⟩ := Prod.mk.inj hpos
      rfl
    · cases h
  · rintro rfl
    obtain ⟨hmem, hrow, hcol⟩ := @slotOf_mem fp8EmuConfig _ _ _ _ hm hn
    refine ⟨slotOf fp8EmuConfig m n, hmem, ?_⟩
    rw [hrow, hcol, if_pos ⟨hm, hn⟩]

/-- Two strides agree on all rows when they are equal or there is at most one row. -/
lemma forall_mul_eq_iff (rows s t : ℕ) : (∀ r < rows, r * s = r * t) ↔ rows ≤ 1 ∨ t = s := by
  constructor
  · intro h
    by_cases hrows : rows ≤ 1
    · exact Or.inl hrows
    · exact Or.inr (by simpa using (h 1 (by omega)).symm)
  · rintro (h | rfl) r hr
    · have : r = 0 := by omega
      rw [this, Nat.zero_mul, Nat.zero_mul]
    · rfl

/-- The kernels use packed rows, so a stride is honoured when it is the packed one or when there
is at most one row. -/
lemma honourStrides_iff (args : Fp8Args) (strideA strideB strideC : ℕ) :
    args.accesses.HonourStrides args.M args.N args.K strideA strideB strideC ↔
      args.M = 0 ∨ args.N = 0 ∨
      (args.K = 0 ∨ (args.M ≤ 1 ∨ strideA = args.K) ∧ (args.N ≤ 1 ∨ strideB = args.K)) ∧
        (args.M ≤ 1 ∨ strideC = args.N) := by
  have heq : ∀ {x y : ℕ}, (∀ a, a = x ↔ a = y) ↔ x = y :=
    ⟨fun h => (h _).mp rfl, fun h a => by rw [h]⟩
  have haddresses : args.accesses.HonourStrides args.M args.N args.K strideA strideB strideC ↔
      ∀ m < args.M, ∀ n < args.N,
        (∀ k < args.K, m * args.K = m * strideA ∧ n * args.K = n * strideB) ∧
          m * args.N = m * strideC := by
    refine forall₂_congr fun m hm => forall₂_congr fun n hn => and_congr ?_ ?_
    · refine forall₂_congr fun k hk => and_congr ?_ ?_
      · simp only [accesses, mem_aReads hm hn hk, heq, Nat.add_right_cancel_iff]
      · simp only [accesses, mem_bReads hm hn hk, heq, Nat.add_left_cancel_iff]
    · simp only [accesses, mem_cWrites hm hn, heq, Nat.add_right_cancel_iff]
  rw [haddresses, ← forall_mul_eq_iff, ← forall_mul_eq_iff, ← forall_mul_eq_iff]
  constructor
  · intro h
    rcases Nat.eq_zero_or_pos args.M with hM | hM
    · exact Or.inl hM
    rcases Nat.eq_zero_or_pos args.N with hN | hN
    · exact Or.inr (Or.inl hN)
    refine Or.inr (Or.inr ⟨?_, fun m hm => (h m hm 0 hN).2⟩)
    rcases Nat.eq_zero_or_pos args.K with hK | hK
    · exact Or.inl hK
    · exact Or.inr ⟨fun m hm => ((h m hm 0 hN).1 0 hK).1, fun n hn => ((h 0 hM n hn).1 0 hK).2⟩
  · rintro (hM | hN | ⟨hK, hC⟩) m hm n hn
    · omega
    · omega
    · refine ⟨fun k hk => ?_, hC m hm⟩
      rcases hK with hK | ⟨hA, hB⟩
      · omega
      · exact ⟨hA m hm, hB n hn⟩

end Fp8Args

lemma call_of_mmaEmuScaledFp8Mm {c a b : TensorMeta} {outDtype : ScalarType} {bias : Option TensorMeta}
    {algorithm fBits gBits groupSize chunkSize : ℤ} {call : Fp8Call}
    (h : mmaEmuScaledFp8Mm c a b outDtype bias algorithm fBits gBits groupSize chunkSize = .ok call) :
    call.M = a.size 0 ∧ call.N = b.size 1 ∧ call.K = a.size 1 := by
  unfold mmaEmuScaledFp8Mm at h
  obtain ⟨_, _, h⟩ := Python.bind_eq_ok.mp h
  obtain ⟨_, _, h⟩ := Python.bind_eq_ok.mp h
  obtain ⟨_, _, h⟩ := Python.bind_eq_ok.mp h
  obtain ⟨launch, _, h⟩ := Python.bind_eq_ok.mp h
  cases h
  exact ⟨rfl, rfl, rfl⟩

end MmaEmu
