import VllmMmaEmu.Core.Types
import VllmMmaEmu.Library.Simt
import Mathlib.Data.List.ProdSigma

/-!
# Tiled kernels

The parts that the seven GEMM kernels share: tile shapes, the position of a
thread's outputs, the loop over K tiles with its two phases, and the stores of
the epilogue over the whole grid.
-/

namespace MmaEmu

open Simt

/-- Tile shapes; the thread tiles of a block cover its output tile. -/
structure TilingConfig where
  BM : ℕ
  BN : ℕ
  BK : ℕ
  numThreads : ℕ
  threadTileM : ℕ
  threadTileN : ℕ
  tileM_dvd : threadTileM ∣ BM := by decide
  tileN_dvd : threadTileN ∣ BN := by decide
  threads_cover : numThreads = BM / threadTileM * (BN / threadTileN) := by decide
  pos : 0 < BM ∧ 0 < BN ∧ 0 < BK := by decide

def fp8EmuConfig : TilingConfig where
  BM := 32
  BN := 8
  BK := 32
  numThreads := 128
  threadTileM := 2
  threadTileN := 1

def nvfp4EmuConfig : TilingConfig where
  BM := 32
  BN := 8
  BK := 64
  numThreads := 128
  threadTileM := 2
  threadTileN := 1

def mxfp4EmuConfig : TilingConfig where
  BM := 32
  BN := 8
  BK := 64
  numThreads := 128
  threadTileM := 2
  threadTileN := 1

namespace TilingConfig

variable (cfg : TilingConfig)

def threadsPerRow : ℕ := cfg.BN / cfg.threadTileN

/-- Row stride of a decoded tile. -/
def BKP : ℕ := cfg.BK + 1

end TilingConfig

def getThreadTilePosition (cfg : TilingConfig) (tid : ℕ) : ℕ × ℕ :=
  let threadRow := tid / cfg.threadsPerRow
  let threadCol := tid % cfg.threadsPerRow
  (threadRow * cfg.threadTileM, threadCol * cfg.threadTileN)

/-- A guarded load: zero where the tile sticks out of the matrix. -/
def loadOrZero (mem : ℕ → Byte) (address : Option ℕ) : Byte := (address.map mem).getD 0#8

/-- What differs between the kernels. `σ` is the shared memory of a block. -/
structure Kernel (σ : Type) where
  config : TilingConfig
  /-- Values of the K loop variable. -/
  kLoop : List ℕ
  /-- Phase 1: all loads of a K tile for the block at `(blockM, blockN)`. -/
  load : (blockM blockN k : ℕ) → σ → σ
  /-- Phase 2: one accumulator of a K tile, at its position in the block and in the output. -/
  compute : (k localM localN outRow outCol : ℕ) → σ → Fp32 → Fp32

/-- One output of one thread. -/
structure Slot where
  blockRow : ℕ
  blockCol : ℕ
  tid : ℕ
  tm : ℕ
  tn : ℕ
  deriving DecidableEq

namespace Slot

variable (cfg : TilingConfig) (s : Slot)

def blockM : ℕ := s.blockRow * cfg.BM
def blockN : ℕ := s.blockCol * cfg.BN
def localM : ℕ := (getThreadTilePosition cfg s.tid).1 + s.tm
def localN : ℕ := (getThreadTilePosition cfg s.tid).2 + s.tn
def outRow : ℕ := s.blockM cfg + s.localM cfg
def outCol : ℕ := s.blockN cfg + s.localN cfg

end Slot

/-- Block indices of the grid, without the blocks that exit early. -/
def blocks (cfg : TilingConfig) (M N : ℕ) : List (ℕ × ℕ) :=
  (List.range ((M + cfg.BM - 1) / cfg.BM) ×ˢ List.range ((N + cfg.BN - 1) / cfg.BN)).filter
    fun block => ¬ (M ≤ block.1 * cfg.BM ∨ N ≤ block.2 * cfg.BN)

/-- Every output of every thread of every block. -/
def slots (cfg : TilingConfig) (M N : ℕ) : List Slot :=
  (blocks cfg M N).flatMap fun block =>
  (List.range cfg.numThreads).flatMap fun tid =>
  (List.range cfg.threadTileM).flatMap fun tm =>
  (List.range cfg.threadTileN).map fun tn => ⟨block.1, block.2, tid, tm, tn⟩

namespace Kernel

variable {σ β : Type} (kernel : Kernel σ)

/-- Both phases of one K tile, on the shared memory and the registers of a block. -/
def blockStep (blockM blockN : ℕ) (st : σ × (ℕ → ℕ → ℕ → Fp32)) (k : ℕ) :
    σ × (ℕ → ℕ → ℕ → Fp32) :=
  let smem := kernel.load blockM blockN k st.1
  (smem, fun tid tm tn =>
    let localM := (getThreadTilePosition kernel.config tid).1 + tm
    let localN := (getThreadTilePosition kernel.config tid).2 + tn
    kernel.compute k localM localN (blockM + localM) (blockN + localN) smem (st.2 tid tm tn))

/-- Accumulators of a block after its K loop. -/
def blockAccum (blockM blockN : ℕ) (smem : σ) : ℕ → ℕ → ℕ → Fp32 :=
  (kernel.kLoop.foldl (kernel.blockStep blockM blockN) (smem, fun _ _ _ => 0#32)).2

/-- The stores of the whole grid to the output, with the initial shared memory of each block. -/
def outputStores (M N : ℕ) (smem : ℕ → ℕ → σ) (epilogue : ℕ → Fp32 → β) :
    List (ℕ × β) :=
  (slots kernel.config M N).filterMap fun s =>
    let accum := kernel.blockAccum (s.blockM kernel.config) (s.blockN kernel.config)
      (smem s.blockRow s.blockCol) s.tid s.tm s.tn
    let outRow := s.outRow kernel.config
    let outCol := s.outCol kernel.config
    if outRow < M ∧ outCol < N then some (outRow * N + outCol, epilogue outCol accum)
    else none

end Kernel

section Slots
variable {cfg : TilingConfig} {M N : ℕ}

lemma threadsPerRow_pos (cfg : TilingConfig) : 0 < cfg.threadsPerRow :=
  Nat.div_pos (Nat.le_of_dvd cfg.pos.2.1 cfg.tileN_dvd) (Nat.pos_of_dvd_of_pos cfg.tileN_dvd cfg.pos.2.1)

lemma mem_blocks {block : ℕ × ℕ} : block ∈ blocks cfg M N ↔
    block.1 * cfg.BM < M ∧ block.2 * cfg.BN < N := by
  obtain ⟨hBM, hBN, -⟩ := cfg.pos
  obtain ⟨row, col⟩ := block
  simp only [blocks, List.mem_filter, List.mem_product, List.mem_range, decide_eq_true_eq, not_or,
    not_le]
  constructor
  · exact fun h => h.2
  · rintro ⟨hrow, hcol⟩
    refine ⟨⟨?_, ?_⟩, hrow, hcol⟩
    · rw [Nat.lt_div_iff_mul_lt hBM]
      omega
    · rw [Nat.lt_div_iff_mul_lt hBN]
      omega

lemma mem_slots {s : Slot} : s ∈ slots cfg M N ↔
    s.blockM cfg < M ∧ s.blockN cfg < N ∧ s.tid < cfg.numThreads ∧ s.tm < cfg.threadTileM ∧
      s.tn < cfg.threadTileN := by
  obtain ⟨blockRow, blockCol, tid, tm, tn⟩ := s
  simp only [slots, List.mem_flatMap, List.mem_range, List.mem_map, Slot.blockM, Slot.blockN]
  constructor
  · rintro ⟨block, hblock, tid', htid, tm', htm, tn', htn, h⟩
    obtain ⟨rfl, rfl, rfl, rfl, rfl⟩ := Slot.mk.inj h
    obtain ⟨hm, hn⟩ := mem_blocks.mp hblock
    exact ⟨hm, hn, htid, htm, htn⟩
  · rintro ⟨hm, hn, htid, htm, htn⟩
    exact ⟨(blockRow, blockCol), mem_blocks.mpr ⟨hm, hn⟩, tid, htid, tm, htm, tn, htn, rfl⟩

lemma nodup_slots : (slots cfg M N).Nodup := by
  have hblocks : (blocks cfg M N).Nodup := (List.nodup_range.product List.nodup_range).filter _
  refine nodup_flatMap_of_key hblocks (fun s => (s.blockRow, s.blockCol)) ?_ ?_
  · intro block _
    refine nodup_flatMap_of_key List.nodup_range Slot.tid ?_ ?_
    · intro tid _
      refine nodup_flatMap_of_key List.nodup_range Slot.tm ?_ ?_
      · intro tm _
        exact List.nodup_range.map (fun tn tn' h => congrArg Slot.tn h)
      · intro tm _ s hs
        obtain ⟨tn, -, rfl⟩ := List.mem_map.mp hs
        rfl
    · intro tid _ s hs
      simp only [List.mem_flatMap, List.mem_map] at hs
      obtain ⟨tm, -, tn, -, rfl⟩ := hs
      rfl
  · intro block _ s hs
    simp only [List.mem_flatMap, List.mem_map] at hs
    obtain ⟨tid, -, tm, -, tn, -, rfl⟩ := hs
    rfl

lemma localM_lt {s : Slot} (hs : s ∈ slots cfg M N) : s.localM cfg < cfg.BM := by
  obtain ⟨-, -, htid, htm, -⟩ := mem_slots.mp hs
  rw [cfg.threads_cover] at htid
  have hrow : s.tid / cfg.threadsPerRow < cfg.BM / cfg.threadTileM :=
    Nat.div_lt_of_lt_mul (by rwa [Nat.mul_comm])
  calc s.localM cfg < (s.tid / cfg.threadsPerRow + 1) * cfg.threadTileM := by
        simp only [Slot.localM, getThreadTilePosition]
        linarith
    _ ≤ cfg.BM / cfg.threadTileM * cfg.threadTileM := Nat.mul_le_mul_right _ hrow
    _ = cfg.BM := Nat.div_mul_cancel cfg.tileM_dvd

lemma localN_lt {s : Slot} (hs : s ∈ slots cfg M N) : s.localN cfg < cfg.BN := by
  obtain ⟨-, -, -, -, htn⟩ := mem_slots.mp hs
  have hcol : s.tid % cfg.threadsPerRow < cfg.BN / cfg.threadTileN :=
    Nat.mod_lt _ (threadsPerRow_pos cfg)
  calc s.localN cfg < (s.tid % cfg.threadsPerRow + 1) * cfg.threadTileN := by
        simp only [Slot.localN, getThreadTilePosition]
        linarith
    _ ≤ cfg.BN / cfg.threadTileN * cfg.threadTileN := Nat.mul_le_mul_right _ hcol
    _ = cfg.BN := Nat.div_mul_cancel cfg.tileN_dvd

/-- The slot that computes an output. -/
def slotOf (cfg : TilingConfig) (m n : ℕ) : Slot where
  blockRow := m / cfg.BM
  blockCol := n / cfg.BN
  tid := m % cfg.BM / cfg.threadTileM * cfg.threadsPerRow + n % cfg.BN / cfg.threadTileN
  tm := m % cfg.BM % cfg.threadTileM
  tn := n % cfg.BN % cfg.threadTileN

lemma div_mod_of_lt {a b n : ℕ} (h : b < n) : (a * n + b) / n = a ∧ (a * n + b) % n = b := by
  constructor
  · rw [Nat.add_comm, Nat.add_mul_div_right _ _ (by omega), Nat.div_eq_of_lt h, Nat.zero_add]
  · rw [Nat.add_comm, Nat.add_mul_mod_self_right, Nat.mod_eq_of_lt h]

lemma eq_slotOf {s : Slot} (hs : s ∈ slots cfg M N) :
    s = slotOf cfg (s.outRow cfg) (s.outCol cfg) := by
  have hm := localM_lt hs
  have hn := localN_lt hs
  obtain ⟨-, -, -, htm, htn⟩ := mem_slots.mp hs
  obtain ⟨hrow, hlm⟩ := div_mod_of_lt (a := s.blockRow) hm
  obtain ⟨hcol, hln⟩ := div_mod_of_lt (a := s.blockCol) hn
  obtain ⟨hmrow, hmtm⟩ := div_mod_of_lt (a := s.tid / cfg.threadsPerRow) htm
  obtain ⟨hncol, hntn⟩ := div_mod_of_lt (a := s.tid % cfg.threadsPerRow) htn
  have hlocalM : s.outRow cfg % cfg.BM =
      s.tid / cfg.threadsPerRow * cfg.threadTileM + s.tm := hlm
  have hlocalN : s.outCol cfg % cfg.BN =
      s.tid % cfg.threadsPerRow * cfg.threadTileN + s.tn := hln
  have hblockRow : s.outRow cfg / cfg.BM = s.blockRow := hrow
  have hblockCol : s.outCol cfg / cfg.BN = s.blockCol := hcol
  rw [slotOf, hlocalM, hlocalN, hblockRow, hblockCol, hmrow, hmtm, hncol, hntn,
    Nat.mul_comm (s.tid / _), Nat.div_add_mod]

lemma slotOf_mem {m n : ℕ} (hm : m < M) (hn : n < N) :
    slotOf cfg m n ∈ slots cfg M N ∧ (slotOf cfg m n).outRow cfg = m ∧
      (slotOf cfg m n).outCol cfg = n := by
  obtain ⟨hBM, hBN, -⟩ := cfg.pos
  have hTM := Nat.pos_of_dvd_of_pos cfg.tileM_dvd hBM
  have hTN := Nat.pos_of_dvd_of_pos cfg.tileN_dvd hBN
  have hcol : n % cfg.BN / cfg.threadTileN < cfg.threadsPerRow :=
    Nat.div_lt_div_of_lt_of_dvd cfg.tileN_dvd (Nat.mod_lt _ hBN)
  have hrow : m % cfg.BM / cfg.threadTileM < cfg.BM / cfg.threadTileM :=
    Nat.div_lt_div_of_lt_of_dvd cfg.tileM_dvd (Nat.mod_lt _ hBM)
  obtain ⟨hdiv, hmod⟩ := div_mod_of_lt (a := m % cfg.BM / cfg.threadTileM) hcol
  refine ⟨mem_slots.mpr ⟨?_, ?_, ?_, Nat.mod_lt _ hTM, Nat.mod_lt _ hTN⟩, ?_, ?_⟩
  · exact lt_of_le_of_lt (Nat.div_mul_le_self m cfg.BM) hm
  · exact lt_of_le_of_lt (Nat.div_mul_le_self n cfg.BN) hn
  · rw [cfg.threads_cover, slotOf]
    calc _ < (m % cfg.BM / cfg.threadTileM + 1) * cfg.threadsPerRow := by linarith
      _ ≤ cfg.BM / cfg.threadTileM * cfg.threadsPerRow := Nat.mul_le_mul_right _ hrow
  · simp only [Slot.outRow, Slot.blockM, Slot.localM, getThreadTilePosition, slotOf, hdiv]
    rw [Nat.div_add_mod', Nat.div_add_mod']
  · simp only [Slot.outCol, Slot.blockN, Slot.localN, getThreadTilePosition, slotOf, hmod]
    rw [Nat.div_add_mod', Nat.div_add_mod']

/-- The in-range slots are the positions of the output, each once. -/
theorem positions_perm (cfg : TilingConfig) (M N : ℕ) :
    (((slots cfg M N).filter fun s => s.outRow cfg < M ∧ s.outCol cfg < N).map
      fun s => (s.outRow cfg, s.outCol cfg)).Perm (List.range M ×ˢ List.range N) := by
  rw [List.perm_ext_iff_of_nodup]
  · rintro ⟨m, n⟩
    simp only [List.mem_map, List.mem_filter, decide_eq_true_eq, List.mem_product, List.mem_range,
      Prod.mk.injEq]
    constructor
    · rintro ⟨s, ⟨-, hm, hn⟩, rfl, rfl⟩
      exact ⟨hm, hn⟩
    · rintro ⟨hm, hn⟩
      obtain ⟨hmem, hrow, hcol⟩ := slotOf_mem hm hn
      exact ⟨slotOf cfg m n, ⟨hmem, by rwa [hrow], by rwa [hcol]⟩, hrow, hcol⟩
  · refine (nodup_slots.filter _).map_on ?_
    intro s hs s' hs' heq
    obtain ⟨hrow, hcol⟩ := Prod.mk.inj heq
    rw [eq_slotOf (List.mem_filter.mp hs).1, eq_slotOf (List.mem_filter.mp hs').1, hrow, hcol]
  · exact List.nodup_range.product List.nodup_range

end Slots

/-- After the loads of a K tile, every in-range output of the block takes the step `tile`,
whatever the shared memory held before. -/
def Kernel.Computes {σ : Type} (kernel : Kernel σ) (M N : ℕ)
    (tile : ℕ → ℕ → ℕ → Fp32 → Fp32) : Prop :=
  ∀ blockM blockN localM localN k, localM < kernel.config.BM → localN < kernel.config.BN →
    blockM + localM < M → blockN + localN < N → k ∈ kernel.kLoop → ∀ smem acc,
      kernel.compute k localM localN (blockM + localM) (blockN + localN)
          (kernel.load blockM blockN k smem) acc =
        tile (blockM + localM) (blockN + localN) k acc

section Stores
variable {σ β : Type} {kernel : Kernel σ} {M N : ℕ} {tile : ℕ → ℕ → ℕ → Fp32 → Fp32}

lemma blockAccum_eq (h : kernel.Computes M N tile) {s : Slot} (hs : s ∈ slots kernel.config M N)
    (hm : s.outRow kernel.config < M) (hn : s.outCol kernel.config < N) (smem : σ) :
    kernel.blockAccum (s.blockM kernel.config) (s.blockN kernel.config) smem s.tid s.tm s.tn =
      kernel.kLoop.foldl
        (fun acc k => tile (s.outRow kernel.config) (s.outCol kernel.config) k acc) 0#32 := by
  have hrun : ∀ loop : List ℕ, (∀ k ∈ loop, k ∈ kernel.kLoop) →
      ∀ st : σ × (ℕ → ℕ → ℕ → Fp32),
      (loop.foldl (kernel.blockStep (s.blockM kernel.config) (s.blockN kernel.config)) st).2
          s.tid s.tm s.tn =
        loop.foldl (fun acc k => tile (s.outRow kernel.config) (s.outCol kernel.config) k acc)
          (st.2 s.tid s.tm s.tn) := by
    intro loop
    induction loop with
    | nil => intro _ _; rfl
    | cons k loop ih =>
      intro hloop st
      have hstep : (kernel.blockStep (s.blockM kernel.config) (s.blockN kernel.config) st k).2
          s.tid s.tm s.tn =
            tile (s.outRow kernel.config) (s.outCol kernel.config) k (st.2 s.tid s.tm s.tn) :=
        h _ _ _ _ k (localM_lt hs) (localN_lt hs) hm hn (hloop k List.mem_cons_self) _ _
      rw [List.foldl_cons, List.foldl_cons, ih (fun j hj => hloop j (List.mem_cons_of_mem k hj)),
        hstep]
  exact hrun kernel.kLoop (fun k hk => hk) _

/-- The grid stores every output once, with the accumulator of its own K loop. -/
theorem outputStores_perm (h : kernel.Computes M N tile) (smem : ℕ → ℕ → σ)
    (epilogue : ℕ → Fp32 → β) :
    (kernel.outputStores M N smem epilogue).Perm
      ((List.range M ×ˢ List.range N).map fun p =>
        (p.1 * N + p.2, epilogue p.2 (kernel.kLoop.foldl (fun acc k => tile p.1 p.2 k acc) 0#32))) := by
  have hstores : kernel.outputStores M N smem epilogue =
      (((slots kernel.config M N).filter fun s =>
          s.outRow kernel.config < M ∧ s.outCol kernel.config < N).map
        fun s => (s.outRow kernel.config, s.outCol kernel.config)).map fun p =>
        (p.1 * N + p.2, epilogue p.2 (kernel.kLoop.foldl (fun acc k => tile p.1 p.2 k acc) 0#32)) := by
    rw [List.map_map, ← List.filterMap_eq_map, List.filterMap_filter]
    apply List.filterMap_congr
    intro s hs
    by_cases hin : s.outRow kernel.config < M ∧ s.outCol kernel.config < N
    · rw [if_pos hin, if_pos (decide_eq_true hin), blockAccum_eq h hs hin.1 hin.2]
      rfl
    · rw [if_neg hin, if_neg (by simpa using hin)]
  rw [hstores]
  exact (positions_perm kernel.config M N).map _

lemma map_address_product (M N : ℕ) :
    (List.range M ×ˢ List.range N).map (fun p => p.1 * N + p.2) = List.range (M * N) := by
  have h := flatMap_range_min M N (M * N)
  rw [min_self] at h
  rw [← h]
  change ((List.range M).flatMap fun m => (List.range N).map (Prod.mk m)).map _ = _
  rw [List.map_flatMap]
  apply List.flatMap_congr
  intro m hm
  have hle : (m + 1) * N ≤ M * N := Nat.mul_le_mul_right N (List.mem_range.mp hm)
  rw [Nat.min_eq_left (by rw [Nat.add_mul] at hle; omega), List.map_map]
  rfl

lemma addresses_perm {f : ℕ → ℕ → β} {stores : List (ℕ × β)}
    (h : stores.Perm ((List.range M ×ˢ List.range N).map fun p => (p.1 * N + p.2, f p.1 p.2))) :
    (stores.map Prod.fst).Perm (List.range (M * N)) := by
  rw [← map_address_product]
  simpa only [List.map_map, Function.comp_def] using h.map Prod.fst

lemma mem_positions {f : ℕ → ℕ → β} {stores : List (ℕ × β)}
    (h : stores.Perm ((List.range M ×ˢ List.range N).map fun p => (p.1 * N + p.2, f p.1 p.2)))
    {m n : ℕ} (hm : m < M) (hn : n < N) (x : β) : (m * N + n, x) ∈ stores ↔ x = f m n := by
  rw [h.mem_iff, List.mem_map]
  constructor
  · rintro ⟨⟨m', n'⟩, hp, heq⟩
    obtain ⟨-, hn'⟩ := List.mem_product.mp hp
    obtain ⟨haddress, rfl⟩ := Prod.mk.inj heq
    obtain ⟨hdiv, hmod⟩ := div_mod_of_lt (a := m') (List.mem_range.mp hn')
    obtain ⟨hdiv', hmod'⟩ := div_mod_of_lt (a := m) hn
    rw [haddress] at hdiv hmod
    rw [← hdiv.symm.trans hdiv', ← hmod.symm.trans hmod']
  · rintro rfl
    exact ⟨(m, n), List.mem_product.mpr ⟨List.mem_range.mpr hm, List.mem_range.mpr hn⟩, rfl⟩

end Stores

end MmaEmu
