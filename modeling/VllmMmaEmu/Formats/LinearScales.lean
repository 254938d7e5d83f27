import VllmMmaEmu.Formats.ScaleSwizzle
import Mathlib.Data.Rat.Defs

/-!
# From swizzled scales back to linear ones

The emulated NVFP4 layers unswizzle the scales of a weight in PyTorch before
they dequantise it. The inverse permutation is right, and the crop that follows
it counts elements where the scales count blocks.
-/

namespace MmaEmu

open RowMajor

/-- What PyTorch computes in floating point. -/
structure TorchFloats (F O : Type) where
  /-- a literal, as a float32 -/
  literal : ℚ → F
  mul : F → F → F
  div : F → F → F
  /-- a float8_e4m3fn byte, as a float32 -/
  ofE4m3 : Byte → F
  /-- a float32, in the requested dtype -/
  toDtype : F → O

def kE2M1ToFloat : List ℚ := [0, 1 / 2, 1, 3 / 2, 2, 3, 4, 6]

section
variable {F O : Type} (floats : TorchFloats F O)

/-- One entry of `values` in `break_fp4_bytes`. -/
def fp4NibbleToFloat (combined : Byte) : F :=
  floats.mul (floats.literal (kE2M1ToFloat.getD (combined &&& 0x07#8).toNat 0))
    (floats.literal (if combined &&& 0x08#8 ≠ 0#8 then -1 else 1))

def breakFp4Bytes (a : Tensor Byte) : Option (Tensor F) :=
  match a.shape with
  | [m, n] =>
    some ⟨[m, n * 2], fun k =>
      let high := (a.data (k / 2) &&& 0xF0#8) >>> 4
      let low := a.data (k / 2) &&& 0x0F#8
      fp4NibbleToFloat floats (if k % 2 = 0 then low else high)⟩
  | _ => none

/-- Reshapes that do not fit raise, as does the division by `f = 0`. -/
def convertSwizzledToLinear {α : Type} (aSfSwizzled : Tensor α) (m k blockSize : ℕ) :
    Option (Tensor α) := do
  let mTiles := (m + 128 - 1) / 128
  let f := blockSize * 4
  guard (f ≠ 0)
  let kTiles := (k + f - 1) / f
  let tmp ← aSfSwizzled.tryReshape [1, mTiles, kTiles, 32, 4, 4]
  let tmp := tmp.permute [0, 1, 4, 3, 2, 5]
  let out ← tmp.tryReshape [mTiles * 128, kTiles * f / blockSize]
  return out.take [m, k]

/-- `dequantize_to_dtype` of a matrix of packed bytes. -/
def dequantizeToDtype (tensorFp4 tensorSf : Tensor Byte) (globalScale : F) (blockSize : ℕ) :
    Option (Tensor O) :=
  match tensorFp4.shape with
  | [m, packedK] => do
    let k := packedK * 2
    let tensorF32 ← breakFp4Bytes floats tensorFp4
    let tensorF32 ← tensorF32.tryReshape [m, k / blockSize, blockSize]
    let tensorSf ← convertSwizzledToLinear tensorSf m k blockSize
    let tensorSfDtype := tensorSf.map fun sf => floats.div (floats.ofE4m3 sf) globalScale
    let out ← tensorF32.zipBroadcast floats.mul
      (tensorSfDtype.reshape (tensorSfDtype.shape ++ [1]))
    let out ← out.tryReshape [m, k]
    return out.map floats.toDtype
  | _ => none

end

lemma breakFp4Bytes_of_shape {F O : Type} (floats : TorchFloats F O) {a : Tensor Byte} {m n : ℕ}
    (h : a.shape = [m, n]) :
    ∃ unpacked, breakFp4Bytes floats a = some unpacked ∧ unpacked.shape = [m, n * 2] := by
  rw [breakFp4Bytes, h]
  exact ⟨_, rfl, rfl⟩

/-- The six axes of the swizzled scales. -/
def unswizzleShape (M kBlocks : ℕ) : List ℕ := [1, (M + 127) / 128, (kBlocks + 3) / 4, 32, 4, 4]

section
variable {α : Type} (zero : α) (scale : Tensor α) (m kBlocks : ℕ)

lemma unswizzleShape_prod :
    (unswizzleShape m kBlocks).prod = (swizzleBlockscale zero scale m kBlocks).shape.prod := by
  rw [unswizzleShape, List.prod_cons, Nat.one_mul]
  refine (swizzleShape_prod m kBlocks).trans ?_
  simp [swizzleBlockscale, Tensor.reshape]

/-- The padded linear matrix, before it is cropped. -/
def unswizzled : Tensor α :=
  (((swizzleBlockscale zero scale m kBlocks).reshape (unswizzleShape m kBlocks)).permute
    [0, 1, 4, 3, 2, 5]).reshape [(m + 127) / 128 * 128, (kBlocks + 3) / 4 * 4]

lemma get_unswizzled {i j : ℕ} (hi : i < m) (hj : j < kBlocks) :
    (unswizzled zero scale m kBlocks).get [i, j] = scale.data (i * kBlocks + j) := by
  have hbounds : InBounds (unswizzleShape m kBlocks)
      [0, i / 128, j / 4, i % 32, i % 128 / 32, j % 4] :=
    List.Forall₂.cons Nat.one_pos (inBounds_swizzleIndex hi hj)
  have hperm : [0, 1, 4, 3, 2, 5].Perm (List.range 6) := by decide
  have hpermute := Tensor.get_permute
    (t := (swizzleBlockscale zero scale m kBlocks).reshape (unswizzleShape m kBlocks)) hbounds hperm
  have hflat : ravel [(m + 127) / 128 * 128, (kBlocks + 3) / 4 * 4] [i, j] =
      ravel [1, (m + 127) / 128, 4, 32, (kBlocks + 3) / 4, 4]
        [0, i / 128, i % 128 / 32, i % 32, j / 4, j % 4] := by
    rw [ravel_padded, Nat.mul_comm 4]
    simp [ravel]
  have hleading : ravel (unswizzleShape m kBlocks) [0, i / 128, j / 4, i % 32, i % 128 / 32, j % 4] =
      ravel (swizzleShape m kBlocks) (swizzleIndex i j) := by
    simp [ravel, unswizzleShape, swizzleShape, swizzleIndex]
  calc (unswizzled zero scale m kBlocks).get [i, j]
      = (((swizzleBlockscale zero scale m kBlocks).reshape (unswizzleShape m kBlocks)).permute
          [0, 1, 4, 3, 2, 5]).get [0, i / 128, i % 128 / 32, i % 32, j / 4, j % 4] :=
        congrArg (Tensor.data _) hflat
    _ = (swizzleBlockscale zero scale m kBlocks).data
          (ravel (swizzleShape m kBlocks) (swizzleIndex i j)) :=
        hpermute.trans (congrArg (Tensor.data _) hleading)
    _ = scale.data (i * kBlocks + j) := swizzleBlockscale_data zero scale hi hj

end

section
variable {m k blockSize : ℕ} (hpos : 0 < blockSize) (hdvd : blockSize ∣ k)
include hpos hdvd

/-- All that goes wrong is the crop: it keeps up to `k` columns of the padded matrix. -/
lemma convertSwizzledToLinear_eq {α : Type} (zero : α) (scale : Tensor α) :
    convertSwizzledToLinear (swizzleBlockscale zero scale m (k / blockSize)) m k blockSize =
      some ((unswizzled zero scale m (k / blockSize)).take [m, k]) := by
  have htiles : (k + blockSize * 4 - 1) / (blockSize * 4) = (k / blockSize + 3) / 4 := by
    rw [← ceil_ceil hpos, ceil_of_dvd hpos hdvd, Nat.add_sub_assoc (by norm_num)]
  have hcols : (k / blockSize + 3) / 4 * (blockSize * 4) / blockSize =
      (k / blockSize + 3) / 4 * 4 := by
    rw [show (k / blockSize + 3) / 4 * (blockSize * 4) =
      (k / blockSize + 3) / 4 * 4 * blockSize by ring, Nat.mul_div_cancel _ hpos]
  have hfactor : blockSize * 4 ≠ 0 := by omega
  have hrows : m + 128 - 1 = m + 127 := rfl
  have hpadded := unswizzleShape_prod zero scale m (k / blockSize)
  have hlinear : [(m + 127) / 128 * 128, (k / blockSize + 3) / 4 * 4].prod =
      (((swizzleBlockscale zero scale m (k / blockSize)).reshape
        (unswizzleShape m (k / blockSize))).permute [0, 1, 4, 3, 2, 5]).shape.prod := by
    simp [Tensor.permute, Tensor.reshape, unswizzleShape]
    ring
  simp only [convertSwizzledToLinear, htiles, hcols, hrows, guard, if_pos hfactor]
  change ((swizzleBlockscale zero scale m (k / blockSize)).tryReshape
    (unswizzleShape m (k / blockSize))).bind _ = _
  rw [Tensor.tryReshape_eq hpadded, Option.bind_some]
  change (Tensor.tryReshape _ _).bind _ = _
  rw [Tensor.tryReshape_eq hlinear]
  rfl

end

lemma shape_unswizzled_take {α : Type} (zero : α) (scale : Tensor α) (m k kBlocks : ℕ) :
    ((unswizzled zero scale m kBlocks).take [m, k]).shape = [m, min k (roundUp kBlocks 4)] := by
  have hrows : min m ((m + 127) / 128 * 128) = m := by omega
  change [min m ((m + 127) / 128 * 128), min k ((kBlocks + 3) / 4 * 4)] = _
  rw [hrows]
  rfl

/-- The crop keeps the padding of the columns unless there is none, or blocks are elements. -/
lemma crop_eq_iff {blockSize q : ℕ} (hpos : 0 < blockSize) :
    min (blockSize * q) (roundUp q 4) = q ↔ blockSize = 1 ∨ 4 ∣ q := by
  have hge : q ≤ roundUp q 4 := by
    rw [roundUp]
    omega
  refine ⟨fun h => ?_, fun h => ?_⟩
  · by_contra hne
    obtain ⟨hone, hfour⟩ := not_or.mp hne
    have hgrow : 2 * q ≤ blockSize * q := Nat.mul_le_mul_right q (by omega)
    have hround : roundUp q 4 ≠ q := fun heq => hfour (by rw [← heq]; exact Nat.dvd_mul_left 4 _)
    have hq : q ≠ 0 := fun hzero => hfour (hzero ▸ Nat.dvd_zero 4)
    omega
  · have hmin : q ≤ min (blockSize * q) (roundUp q 4) :=
      le_min (Nat.le_mul_of_pos_left q hpos) hge
    rcases h with rfl | ⟨r, rfl⟩
    · rw [Nat.one_mul]
      exact min_eq_left hge
    · refine le_antisymm ((min_le_right _ _).trans ?_) hmin
      rw [roundUp]
      omega

/-- The unswizzled scales are the scales, and every element is multiplied by the scale of its
block. -/
structure ScalesRestored (scale : Tensor Byte) (m k blockSize : ℕ) : Prop where
  linear : ∃ out, convertSwizzledToLinear (swizzleBlockscale 0#8 scale m (k / blockSize)) m k
    blockSize = some out ∧ out.Same scale
  dequantized : ∀ (F O : Type) (floats : TorchFloats F O) (tensorFp4 : Tensor Byte) (packedK : ℕ)
    (globalScale : F), k = packedK * 2 → tensorFp4.shape = [m, packedK] →
    ∃ unpacked out, breakFp4Bytes floats tensorFp4 = some unpacked ∧
      dequantizeToDtype floats tensorFp4 (swizzleBlockscale 0#8 scale m (k / blockSize)) globalScale
        blockSize = some out ∧ out.shape = [m, k] ∧
      ∀ i < m, ∀ j < k, out.get [i, j] = floats.toDtype (floats.mul (unpacked.get [i, j])
        (floats.div (floats.ofE4m3 (scale.get [i, j / blockSize])) globalScale))

section
variable {scale : Tensor Byte} {m k blockSize : ℕ} (hpos : 0 < blockSize) (hdvd : blockSize ∣ k)
  (hscale : scale.shape = [m, k / blockSize])
include hpos hdvd hscale

omit hpos hdvd in
lemma same_of_crop (hcrop : min k (roundUp (k / blockSize) 4) = k / blockSize) :
    ((unswizzled 0#8 scale m (k / blockSize)).take [m, k]).Same scale := by
  have hshape := shape_unswizzled_take 0#8 scale m k (k / blockSize)
  rw [hcrop] at hshape
  refine ⟨hshape.trans hscale.symm, fun idx hidx => ?_⟩
  rw [Tensor.get_take _ _ hidx]
  rw [hshape] at hidx
  match idx, hidx with
  | [i, j], .cons hi (.cons hj .nil) =>
    rw [get_unswizzled 0#8 scale m (k / blockSize) hi hj, Tensor.get, hscale]
    simp [ravel]

lemma dequantize_of_crop (hcrop : min k (roundUp (k / blockSize) 4) = k / blockSize) {F O : Type}
    (floats : TorchFloats F O) {tensorFp4 : Tensor Byte} {packedK : ℕ} (globalScale : F)
    (hk : k = packedK * 2) (hfp4 : tensorFp4.shape = [m, packedK]) :
    ∃ unpacked out, breakFp4Bytes floats tensorFp4 = some unpacked ∧
      dequantizeToDtype floats tensorFp4 (swizzleBlockscale 0#8 scale m (k / blockSize)) globalScale
        blockSize = some out ∧ out.shape = [m, k] ∧
      ∀ i < m, ∀ j < k, out.get [i, j] = floats.toDtype (floats.mul (unpacked.get [i, j])
        (floats.div (floats.ofE4m3 (scale.get [i, j / blockSize])) globalScale)) := by
  obtain ⟨hshape, hentries⟩ := same_of_crop hscale hcrop
  rw [hscale] at hshape
  have hconvert := convertSwizzledToLinear_eq (m := m) hpos hdvd 0#8 scale
  set linear := (unswizzled 0#8 scale m (k / blockSize)).take [m, k]
  have hblocks : k / blockSize * blockSize = k := Nat.div_mul_cancel hdvd
  obtain ⟨unpacked, hunpacked, hshape32⟩ := breakFp4Bytes_of_shape floats hfp4
  rw [← hk] at hshape32
  have hscales : (linear.map fun sf => floats.div (floats.ofE4m3 sf) globalScale).shape =
      [m, k / blockSize] := hshape
  have hshapeBlocks : unpacked.shape = [m, k / blockSize * blockSize] := by rwa [hblocks]
  obtain ⟨product, hproduct, hprodshape, hget⟩ :=
    Tensor.zipBroadcast_blocks floats.mul hshapeBlocks hscales
  rw [hblocks] at hget
  have hsplit : [m, k / blockSize, blockSize].prod = unpacked.shape.prod := by
    simp only [hshape32, List.prod_cons, List.prod_nil, Nat.mul_one, hblocks]
  have hjoin : [m, k].prod = product.shape.prod := by
    simp only [hprodshape, List.prod_cons, List.prod_nil, Nat.mul_one, hblocks]
  refine ⟨unpacked, (product.reshape [m, k]).map floats.toDtype, hunpacked, ?_, rfl, ?_⟩
  · simp only [dequantizeToDtype, hfp4, ← hk, hunpacked, hconvert, Option.bind_eq_bind,
      Option.bind_some, Tensor.tryReshape_eq hsplit, hscales, List.cons_append, List.nil_append,
      hproduct, Tensor.tryReshape_eq hjoin]
    rfl
  · intro i hi j hj
    have hentry : linear.get [i, j / blockSize] = scale.get [i, j / blockSize] := by
      refine hentries _ ?_
      rw [hshape]
      exact .cons hi (.cons (Nat.div_lt_div_of_lt_of_dvd hdvd hj) .nil)
    rw [Tensor.get_map, hget i hi j hj, Tensor.get_map, hentry]

/-- The crop counts elements: the scales come back if and only if a block is one element or the
blocks of a row fill their tiles. -/
theorem scalesRestored_iff :
    ScalesRestored scale m k blockSize ↔ blockSize = 1 ∨ 4 ∣ k / blockSize := by
  have hcrop : min k (roundUp (k / blockSize) 4) = k / blockSize ↔
      blockSize = 1 ∨ 4 ∣ k / blockSize := by
    rw [← crop_eq_iff hpos, Nat.mul_div_cancel' hdvd]
  rw [← hcrop]
  refine ⟨fun h => ?_, fun h => ⟨?_, ?_⟩⟩
  · obtain ⟨out, hout, hsame, -⟩ := h.linear
    rw [convertSwizzledToLinear_eq hpos hdvd, Option.some.injEq] at hout
    rw [← hout, shape_unswizzled_take, hscale] at hsame
    exact (List.cons.inj (List.cons.inj hsame).2).1
  · exact ⟨_, convertSwizzledToLinear_eq hpos hdvd 0#8 scale, same_of_crop hscale h⟩
  · intro F O floats tensorFp4 packedK globalScale hk hfp4
    exact dequantize_of_crop hpos hdvd hscale h floats globalScale hk hfp4

end

/-- One block of sixteen elements: four columns of scales come back instead of one, and the product
with the blocks no longer fits the matrix. -/
theorem scales_not_restored_one_block :
    (convertSwizzledToLinear (swizzleBlockscale 0#8 (Tensor.full [1, 1] 0x38#8) 1 1) 1 16 16).map
        Tensor.shape = some [1, 4] ∧
      ¬ ScalesRestored (Tensor.full [1, 1] 0x38#8) 1 16 16 ∧
      ∀ (F O : Type) (floats : TorchFloats F O) (tensorFp4 : Tensor Byte) (globalScale : F),
        tensorFp4.shape = [1, 8] → dequantizeToDtype floats tensorFp4
          (swizzleBlockscale 0#8 (Tensor.full [1, 1] 0x38#8) 1 1) globalScale 16 = none := by
  refine ⟨rfl, fun h => ?_, ?_⟩
  · obtain ⟨out, hout, hsame, -⟩ := h.linear
    have hshape : some out.shape = some [1, 4] := congrArg (Option.map Tensor.shape) hout.symm
    rw [hsame] at hshape
    exact absurd hshape (by decide)
  · rintro F O floats ⟨shape, data⟩ globalScale rfl
    rfl

/-- Four blocks fill a tile. -/
theorem scalesRestored_iff_one_tile : ScalesRestored (Tensor.full [3, 4] 0x38#8) 3 64 16 :=
  (scalesRestored_iff (by norm_num) (by decide) rfl).mpr (Or.inr (by decide))

end MmaEmu
