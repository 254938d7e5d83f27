import VllmMmaEmu.Gemm.GridRuns
import VllmMmaEmu.Semantics.Reference

/-!
# Reference semantics of the FP8 GEMM

The flat definition of an output: one left fold over the chunks or tiles of a
row of `A` and a column of `B`, zero-padded at the end. The grid stores every
output once, with the accumulator of the flat definition.
-/

namespace MmaEmu

open Simt Binary32 FusedSum

/-- Products of `count` elements from `start` on. -/
def Fp8Args.products (args : Fp8Args) (F m n start count : ℕ) : List Product :=
  (List.range count).map fun i =>
    fp8Multiply F (args.paddedRow m (start + i)) (args.paddedCol n (start + i))

namespace Fp8Launch

/-- The flat definition of output `(m, n)`. -/
def flat (args : Fp8Args) (m n : ℕ) : Fp8Launch → Fp32
  | gdfs F G GS _ _ _ =>
    (List.range ((args.K + 32 - 1) / 32)).foldl
      (fun acc t => gdfsAccumulateTile F ((List.range (32 / GS)).map fun g =>
        fp8GroupOperand F G (groupAccumulate (args.products G m n (t * 32 + g * GS) GS))) acc) 0#32
  | cofda F CS _ _ =>
    (List.range ((args.K + CS - 1) / CS)).foldl
      (fun acc j => fdaAccumulateChunk F (-133) (args.products F m n (j * CS) CS) acc) 0#32
  | cofdaDecoupled F CS _ _ =>
    (List.range ((args.K + CS - 1) / CS)).foldl
      (fun acc j => cofdaDecoupledAccumulateProducts F 23 (args.products F m n (j * CS) CS) acc) 0#32

end Fp8Launch

section Refinement
variable (args : Fp8Args) (m n : ℕ)

lemma map_fragProduct_tile (F kTile start count : ℕ) :
    (List.range count).map (fragProduct F
        (fun i => encodeRow (fun i => args.paddedRow m (kTile + i)) (start + i))
        (fun i => encodeRow (fun i => args.paddedCol n (kTile + i)) (start + i))) =
      args.products F m n (kTile + start) count := by
  apply List.map_congr_left
  intro i _
  rw [Nat.add_assoc kTile]
  exact fragProduct_encodeRow F (fun i => args.paddedRow m (kTile + (start + i)))
    (fun i => args.paddedCol n (kTile + (start + i))) i

lemma products_past_end {F start count : ℕ} (h : args.K ≤ start) :
    ∀ p ∈ args.products F m n start count, Represents F p.toOperand none := by
  intro p hp
  obtain ⟨i, -, rfl⟩ := List.mem_map.mp hp
  have hrow : args.paddedRow m (start + i) = 0#8 := if_neg (by omega)
  have hcol : args.paddedCol n (start + i) = 0#8 := if_neg (by omega)
  rw [hrow, hcol]
  exact ⟨rfl, rfl, rfl⟩

lemma foldl_chunks_stable (F CS : ℕ) (loop : List ℕ) {acc : Fp32} (hacc : Stable F acc) :
    Stable F (loop.foldl
      (fun acc start => fdaAccumulateChunk F (-133) (args.products F m n start CS) acc) acc) := by
  induction loop generalizing acc with
  | nil => exact hacc
  | cons start loop ih => exact ih (chunkedAccumulate_stable F (-133) _ _)

lemma foldl_chunks_past_end {F : ℕ} (hF : F ≤ 35) (CS : ℕ) {loop : List ℕ}
    (hloop : ∀ start ∈ loop, args.K ≤ start) {acc : Fp32} (hacc : Stable F acc) :
    loop.foldl
      (fun acc start => fdaAccumulateChunk F (-133) (args.products F m n start CS) acc) acc =
        acc := by
  induction loop with
  | nil => rfl
  | cons start loop ih =>
    have hstep : fdaAccumulateChunk F (-133) (args.products F m n start CS) acc = acc := by
      refine chunkedAccumulate_zeros hF (by norm_num) ?_ hacc
      intro o ho
      obtain ⟨p, hp, rfl⟩ := List.mem_map.mp ho
      exact products_past_end args m n (hloop start List.mem_cons_self) p hp
    rw [List.foldl_cons, hstep]
    exact ih (fun s hs => hloop s (List.mem_cons_of_mem start hs))

/-- The K loop of each kernel is the fold of the flat definition. -/
lemma flat_eq (launch : Fp8Launch) : ∃ tile : ℕ → ℕ → ℕ → Fp32 → Fp32,
    (launch.kernel args).Computes args.M args.N tile ∧ ∀ m n,
      (stepLoop args.K 32).foldl (fun acc k => tile m n k acc) 0#32 = launch.flat args m n := by
  cases launch with
  | gdfs F G GS _ _ _ =>
    refine ⟨_, fp8Kernel_computes (tileLocal_gdfs F G GS) args, fun m n => ?_⟩
    rw [stepLoop_eq, List.foldl_map, Fp8Launch.flat]
    apply List.foldl_ext
    intro acc t _
    rw [fp8GdfsTile]
    simp only [fp8GdfsGroupAccumulatePredecoded, groupAccumulateStreamed_eq, map_fragProduct_tile]
  | cofda F CS hF hCS =>
    obtain ⟨hpos, hdvd, -⟩ := dvd_of_mem_fp8Cs hCS
    obtain ⟨-, hFhigh⟩ := le_of_mem_cofdaF hF
    refine ⟨_, fp8Kernel_computes (tileLocal_cofda hCS F) args, fun m n => ?_⟩
    obtain ⟨rest, hrest, hfold⟩ := foldl_stepLoop_full hpos hdvd (by norm_num)
      (fun acc start => fdaAccumulateChunk F (-133) (args.products F m n start CS) acc) args.K 0#32
    simp only [fp8CofdaMma_eq, map_fragProduct_tile]
    rw [hfold, foldl_chunks_past_end args m n (by omega) CS hrest
      (foldl_chunks_stable args m n F CS _ (stable_zero F)), stepLoop_eq, List.foldl_map]
    rfl
  | cofdaDecoupled F CS _ hCS =>
    obtain ⟨hpos, hdvd, -⟩ := dvd_of_mem_fp8Cs hCS
    refine ⟨_, fp8Kernel_computes (tileLocal_cofdaDecoupled hCS F args.K) args, fun m n => ?_⟩
    simp only [map_fragProduct_tile]
    rw [foldl_stepLoop hpos hdvd (by norm_num)
      (fun acc start => cofdaDecoupledAccumulateProducts F 23 (args.products F m n start CS) acc),
      stepLoop_eq, List.foldl_map]
    rfl

end Refinement

lemma fp8_stores_perm {β : Type} (launch : Fp8Launch) (args : Fp8Args)
    (smem : ℕ → ℕ → Fp8Shared) (epilogue : ℕ → Fp32 → β) :
    (launch.stores args smem epilogue).Perm
      ((List.range args.M ×ˢ List.range args.N).map fun p =>
        (p.1 * args.N + p.2, epilogue p.2 (launch.flat args p.1 p.2))) := by
  obtain ⟨tile, hcomputes, hflat⟩ := flat_eq args launch
  have hperm := outputStores_perm hcomputes smem epilogue
  have hloop : (launch.kernel args).kLoop = stepLoop args.K 32 := by cases launch <;> rfl
  simp only [hloop, hflat] at hperm
  exact hperm

lemma mem_fp8_stores {β : Type} (launch : Fp8Launch) (args : Fp8Args) (smem : ℕ → ℕ → Fp8Shared)
    (epilogue : ℕ → Fp32 → β) {m n : ℕ} (hm : m < args.M) (hn : n < args.N) (x : β) :
    (m * args.N + n, x) ∈ launch.stores args smem epilogue ↔
      x = epilogue n (launch.flat args m n) :=
  mem_positions (f := fun m n => epilogue n (launch.flat args m n))
    (fp8_stores_perm launch args smem epilogue) hm hn x

/-- The stores assign every output once and nothing else, from the accumulator of the flat
definition. -/
structure Fp8Launch.StoresFlat {β : Type} (launch : Fp8Launch) (args : Fp8Args)
    (epilogue : ℕ → Fp32 → β) (stores : List (ℕ × β)) : Prop where
  values : stores.Perm ((List.range args.M ×ˢ List.range args.N).map fun p =>
    (p.1 * args.N + p.2, epilogue p.2 (launch.flat args p.1 p.2)))
  addresses : (stores.map Prod.fst).Perm (List.range (args.M * args.N))

lemma fp8_stores_flat {β : Type} (launch : Fp8Launch) (args : Fp8Args) (smem : ℕ → ℕ → Fp8Shared)
    (epilogue : ℕ → Fp32 → β) :
    launch.StoresFlat args epilogue (launch.stores args smem epilogue) := by
  have hperm := fp8_stores_perm launch args smem epilogue
  exact ⟨hperm, addresses_perm (f := fun m n => epilogue n (launch.flat args m n)) hperm⟩

lemma fp8_nil_storesFlat_iff {β : Type} (launch : Fp8Launch) (args : Fp8Args)
    (epilogue : ℕ → Fp32 → β) : launch.StoresFlat args epilogue [] ↔ args.M = 0 ∨ args.N = 0 := by
  constructor
  · intro h
    have hnil := List.nil_perm.mp h.addresses
    exact Nat.mul_eq_zero.mp (List.range_eq_nil.mp hnil)
  · rintro (h | h) <;> exact ⟨by simp [h], by simp [h]⟩

/-- The launch refines the flat definition if and only if its sizes are in range. -/
theorem fp8_gemm_refines_flat_iff {β : Type} (launch : Fp8Launch) (args : Fp8Args)
    (smem : ℕ → ℕ → Fp8Shared) (epilogue : ℕ → Fp32 → β) :
    (∃ stores, launch.run args smem epilogue = some stores ∧
        launch.StoresFlat args epilogue stores) ↔
      HostInRange args.M args.N args.K ∧
        (args.M = 0 ∨ args.N = 0 ∨ Fp8InRange args.M args.N args.K) := by
  rw [Fp8Launch.run, Fp8Args.exists_run_iff (fp8_nil_storesFlat_iff launch args epilogue),
    and_iff_left (fp8_stores_flat launch args smem epilogue)]

/-- A square matrix of `2^32` elements, and eight columns. -/
def squareArgs (A B : ℕ → Byte) : Fp8Args where
  M := 65536
  N := 8
  K := 65536
  A := A
  B := B
  sched := fun _ _ _ => .inOrder

/-- The index of the last row exceeds its type. -/
theorem fp8_gemm_refines_flat_square : ¬ ∃ stores,
    (Fp8Launch.cofda 25 32 (by decide) (by decide)).run
        (squareArgs (fun _ => 0x38#8) (fun _ => 0x38#8))
        (fun _ _ => ⟨fun _ => 0#32, fun _ => 0#32⟩) (fun _ acc => acc) = some stores ∧
      (Fp8Launch.cofda 25 32 (by decide) (by decide)).StoresFlat
        (squareArgs (fun _ => 0x38#8) (fun _ => 0x38#8)) (fun _ acc => acc) stores := by
  rw [Fp8Launch.run, Fp8Args.exists_run_iff (fp8_nil_storesFlat_iff _ _ _)]
  rintro ⟨-, hM | hN | ⟨hrange, -⟩⟩
  · cases hM
  · cases hN
  · revert hrange
    decide

section Nan
variable (args : Fp8Args) (m n : ℕ)

/-- Some element of the row or the column of an output is NaN. -/
def Fp8Args.NanInput : Prop :=
  ∃ k < args.K, e4m3IsNan (args.A (m * args.K + k)) = true ∨ e4m3IsNan (args.B (k + n * args.K)) = true

lemma products_isNan_iff (F start count : ℕ) :
    (∃ p ∈ args.products F m n start count, p.isNan = true) ↔
      ∃ i < count, e4m3IsNan (args.paddedRow m (start + i)) = true ∨
        e4m3IsNan (args.paddedCol n (start + i)) = true := by
  simp only [Fp8Args.products, List.mem_map, List.mem_range, exists_exists_and_eq_and,
    fp8Multiply_isNan, Bool.or_eq_true]

lemma products_isInf (F start count : ℕ) : ∀ p ∈ args.products F m n start count, p.isInf = false := by
  intro p hp
  obtain ⟨i, -, rfl⟩ := List.mem_map.mp hp
  exact fp8Multiply_isInf F _ _

lemma nanInput_iff_chunks {CS : ℕ} (hCS : 0 < CS) (F : ℕ) : args.NanInput m n ↔
    ∃ j ∈ List.range ((args.K + CS - 1) / CS),
      ∃ p ∈ args.products F m n (j * CS) CS, p.isNan = true := by
  have hzero : e4m3IsNan 0#8 = false := by decide
  have hpad : ∀ k, (e4m3IsNan (args.paddedRow m k) = true ∨ e4m3IsNan (args.paddedCol n k) = true) ↔
      k < args.K ∧ (e4m3IsNan (args.A (m * args.K + k)) = true ∨
        e4m3IsNan (args.B (k + n * args.K)) = true) := by
    intro k
    by_cases hk : k < args.K <;> simp [Fp8Args.paddedRow, Fp8Args.paddedCol, hk, hzero]
  simp only [products_isNan_iff, hpad, List.mem_range]
  constructor
  · rintro ⟨k, hk, hnan⟩
    refine ⟨k / CS, div_lt_ceil hCS hk, k % CS, Nat.mod_lt k hCS, ?_⟩
    rw [Nat.div_add_mod']
    exact ⟨hk, hnan⟩
  · rintro ⟨j, -, i, -, hk, hnan⟩
    exact ⟨j * CS + i, hk, hnan⟩

lemma products_partialSum_isFinite {F count : ℕ} (hF : F ≤ 35) (hcount : count ≤ 64) (start : ℕ)
    (hnan : ∀ p ∈ args.products F m n start count, p.isNan = false) :
    IsFinite (fdaAccumulateChunk F (-133) (args.products F m n start count) 0#32) := by
  have hforall := forall₂_fp8Multiply (n := count) (a := fun i => args.paddedRow m (start + i))
    (b := fun i => args.paddedCol n (start + i)) hF (fun i hi => by
      have hp := hnan _ (List.mem_map_of_mem (List.mem_range.mpr hi))
      rwa [fp8Multiply_isNan, Bool.or_eq_false_iff] at hp)
  have hacc : accTerm 0#32 = none := if_pos (by decide)
  refine chunkedAccumulate_isFinite hF (-133) (by decide) (List.forall₂_map_left_iff.mpr hforall)
    (by simpa [Fp8Args.products] using hcount) ?_
  intro t ht
  cases t with
  | none => norm_num
  | some t =>
    have hmem : some t ∈ e4m3Terms (fun i => args.paddedRow m (start + i))
        (fun i => args.paddedCol n (start + i)) count := by simpa [hacc] using ht
    have := (label_e4m3Terms hmem).2
    rw [labelOf_some]
    omega

lemma fp8GroupOperand_flags (F G : ℕ) (gr : GroupResult) :
    (fp8GroupOperand F G gr).isNan = false ∧ (fp8GroupOperand F G gr).isInf = false := by
  rw [fp8GroupOperand, groupToOperandFp8]
  split
  · exact ⟨rfl, rfl⟩
  · split <;> exact ⟨rfl, rfl⟩

/-- CoFDA keeps every NaN; GDFS loses the flag in its groups and never returns one. -/
lemma flat_isNan_iff (launch : Fp8Launch) :
    IsNan (launch.flat args m n) ↔ launch.algorithm ≠ .gdfs ∧ args.NanInput m n := by
  cases launch with
  | gdfs F G GS _ _ _ =>
    have hstep : ∀ acc t, IsNan (gdfsAccumulateTile F ((List.range (32 / GS)).map fun g =>
        fp8GroupOperand F G (groupAccumulate (args.products G m n (t * 32 + g * GS) GS))) acc) ↔
          IsNan acc ∨ False := by
      intro acc t
      rw [gdfsAccumulateTile, chunkedAccumulate_map_isNan_iff F (-139) _ acc
        fun g => (fp8GroupOperand_flags F G _).2]
      simp [fp8GroupOperand_flags]
    rw [Fp8Launch.flat, foldl_zero_isNan_iff hstep]
    simp [Fp8Launch.algorithm]
  | cofda F CS _ hCS =>
    have hpos := (dvd_of_mem_fp8Cs hCS).1
    have hstep : ∀ acc j, IsNan (fdaAccumulateChunk F (-133) (args.products F m n (j * CS) CS) acc) ↔
        IsNan acc ∨ ∃ p ∈ args.products F m n (j * CS) CS, p.isNan = true :=
      fun acc j => fdaAccumulateChunk_isNan_iff F (-133) acc (products_isInf args m n F _ CS)
    rw [Fp8Launch.flat, foldl_zero_isNan_iff hstep, ← nanInput_iff_chunks args m n hpos F]
    simp [Fp8Launch.algorithm]
  | cofdaDecoupled F CS hF hCS =>
    obtain ⟨hpos, -, hle⟩ := dvd_of_mem_fp8Cs hCS
    obtain ⟨-, hFhigh⟩ := le_of_mem_cofdaF hF
    have hstep : ∀ acc j,
        IsNan (cofdaDecoupledAccumulateProducts F 23 (args.products F m n (j * CS) CS) acc) ↔
          IsNan acc ∨ ∃ p ∈ args.products F m n (j * CS) CS, p.isNan = true :=
      fun acc j => cofdaDecoupledAccumulateProducts_isNan_iff F 23 acc
        (products_isInf args m n F _ CS)
        (products_partialSum_isFinite args m n (by omega) (by omega) (j * CS))
    rw [Fp8Launch.flat, foldl_zero_isNan_iff hstep, ← nanInput_iff_chunks args m n hpos F]
    simp [Fp8Launch.algorithm]

end Nan

/-- The accumulator of an output is NaN exactly when one of its inputs is, unless the kernel is
GDFS and there is such an input. -/
theorem fp8_nan_propagates_iff (launch : Fp8Launch) (args : Fp8Args) (smem : ℕ → ℕ → Fp8Shared)
    {m n : ℕ} (hm : m < args.M) (hn : n < args.N) :
    (∃ acc, (∀ x, (m * args.N + n, x) ∈ launch.stores args smem (fun _ acc => acc) ↔ x = acc) ∧
      (IsNan acc ↔ args.NanInput m n)) ↔
        launch.algorithm ≠ .gdfs ∨ ¬ args.NanInput m n := by
  have hstored := mem_fp8_stores launch args smem (fun _ acc => acc) hm hn
  have hnan := flat_isNan_iff args m n launch
  constructor
  · rintro ⟨acc, hacc, hiff⟩
    obtain rfl : launch.flat args m n = acc := (hacc _).mp ((hstored _).mpr rfl)
    by_cases hinput : args.NanInput m n
    · exact Or.inl (hnan.mp (hiff.mpr hinput)).1
    · exact Or.inr hinput
  · intro h
    refine ⟨_, hstored, hnan.trans ?_⟩
    rcases h with halg | hinput
    · exact and_iff_right halg
    · simp [hinput]

/-- One element of a row is NaN, the other matrix is all ones. -/
def nanArgs : Fp8Args where
  M := 1
  N := 1
  K := 1
  A := fun _ => 0x7F#8
  B := fun _ => 0x38#8
  sched := fun _ _ _ => .inOrder

/-- The fused kernel at Hopper's widths returns the NaN. -/
theorem fp8_nan_propagates_iff_cofda :
    nanArgs.NanInput 0 0 ∧
      ∃ acc, (∀ x, (0 * nanArgs.N + 0, x) ∈
        (Fp8Launch.cofda 13 32 (by decide) (by decide)).stores nanArgs
          (fun _ _ => ⟨fun _ => 0#32, fun _ => 0#32⟩) (fun _ acc => acc) ↔ x = acc) ∧
        (IsNan acc ↔ nanArgs.NanInput 0 0) :=
  ⟨⟨0, by decide, Or.inl (by decide)⟩,
    (fp8_nan_propagates_iff _ nanArgs _ (by decide) (by decide)).mpr (Or.inl (by decide))⟩

/-- GDFS with a NaN element stores a zero. -/
theorem fp8_gdfs_drops_nan :
    (∀ x, (0 * nanArgs.N + 0, x) ∈
      (Fp8Launch.gdfs 25 32 16 (by decide) (by decide) (by decide)).stores nanArgs
        (fun _ _ => ⟨fun _ => 0#32, fun _ => 0#32⟩) (fun _ acc => acc) ↔ x = 0#32) ∧
      ¬ (IsNan (0#32 : Fp32) ↔ nanArgs.NanInput 0 0) := by
  have hflat : (Fp8Launch.gdfs 25 32 16 (by decide) (by decide) (by decide)).flat nanArgs 0 0 =
      0#32 := by decide +kernel
  constructor
  · intro x
    rw [mem_fp8_stores _ nanArgs _ _ (by decide) (by decide), hflat]
  · intro h
    have hnan : IsNan (0#32 : Fp32) := h.mpr ⟨0, by decide, Or.inl (by decide)⟩
    revert hnan
    decide

end MmaEmu
