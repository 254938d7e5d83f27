import Mathlib.Tactic.Ring
import VllmMmaEmu.Library.Python
import VllmMmaEmu.Library.Rows

/-!
# The block tables of the model runner

`vllm/v1/worker/block_table.py`: a row of block numbers for each request of the batch and each KV
cache group, and the slot of the KV cache in which a rank stores the token at a position of a
request. With decode context parallelism the tokens of a virtual block go to the ranks in turn.
-/

namespace VllmV1.Worker

open Python

/-- `row[start:stop] = values` for a row of `width` entries. One value is broadcast. -/
def assignSlice {β : Type} (width : Nat) (row : Nat → β) (start stop : Nat) (values : List β) :
    Except PyError (Nat → β) :=
  if values.length = min stop width - min start width then
    .ok fun j => if start ≤ j ∧ j < min stop width then values.getD (j - start) (row j) else row j
  else match values with
    | [v] => .ok fun j => if start ≤ j ∧ j < min stop width then v else row j
    | _ => .error (.valueError "could not broadcast input array")

/-- `tgt[:n] = src[:n]`. -/
def copyFirst {β : Type} (n : Nat) (tgt src : Nat → β) : Nat → β :=
  fun j => if j < n then src j else tgt j

structure BlockTable where
  maxNumBlocksPerReq : Nat
  blockTable : Nat → Nat → Nat
  numBlocksPerRow : Nat → Nat

namespace BlockTable

def appendRow (t : BlockTable) (blockIds : List Nat) (rowIdx : Nat) : Except PyError BlockTable :=
  if blockIds = [] then .ok t
  else do
    let numBlocks := blockIds.length
    let start := t.numBlocksPerRow rowIdx
    let row ← assignSlice t.maxNumBlocksPerReq (t.blockTable rowIdx) start (start + numBlocks)
      blockIds
    return { t with
      numBlocksPerRow := Function.update t.numBlocksPerRow rowIdx (start + numBlocks)
      blockTable := Function.update t.blockTable rowIdx row }

def addRow (t : BlockTable) (blockIds : List Nat) (rowIdx : Nat) : Except PyError BlockTable :=
  appendRow { t with numBlocksPerRow := Function.update t.numBlocksPerRow rowIdx 0 } blockIds rowIdx

def moveRow (t : BlockTable) (src tgt : Nat) : BlockTable :=
  let numBlocks := t.numBlocksPerRow src
  { t with
    blockTable := Function.update t.blockTable tgt
      (copyFirst numBlocks (t.blockTable tgt) (t.blockTable src))
    numBlocksPerRow := Function.update t.numBlocksPerRow tgt numBlocks }

/-- The rows are read through index lists, which copy them. -/
def swapRow (t : BlockTable) (src tgt : Nat) : BlockTable :=
  { t with
    numBlocksPerRow := Rows.swap t.numBlocksPerRow src tgt
    blockTable := Rows.swap t.blockTable src tgt }

end BlockTable

/-- The block tables of the KV cache groups. -/
abbrev MultiGroupBlockTable := List BlockTable

namespace MultiGroupBlockTable

/-- An operation on every table with the block ids of its group. -/
def eachGroup (op : BlockTable → List Nat → Except PyError BlockTable) :
    MultiGroupBlockTable → List (List Nat) → Except PyError MultiGroupBlockTable
  | [], _ => .ok []
  | _ :: _, [] => .error .indexError
  | t :: tables, ids :: blockIds => do
    let t ← op t ids
    let tables ← eachGroup op tables blockIds
    return t :: tables

def appendRow (tables : MultiGroupBlockTable) (blockIds : List (List Nat)) (rowIdx : Nat) :
    Except PyError MultiGroupBlockTable :=
  eachGroup (fun t ids => t.appendRow ids rowIdx) tables blockIds

def addRow (tables : MultiGroupBlockTable) (blockIds : List (List Nat)) (rowIdx : Nat) :
    Except PyError MultiGroupBlockTable :=
  eachGroup (fun t ids => t.addRow ids rowIdx) tables blockIds

def moveRow (tables : MultiGroupBlockTable) (src tgt : Nat) : MultiGroupBlockTable :=
  tables.map (·.moveRow src tgt)

def swapRow (tables : MultiGroupBlockTable) (src tgt : Nat) : MultiGroupBlockTable :=
  tables.map (·.swapRow src tgt)

end MultiGroupBlockTable

/-- A virtual block has `size` tokens on each of `ranks` ranks. The tokens of one rank in it are
counted from zero. -/
structure Striping where
  size : Nat
  ranks : Nat
  size_pos : 0 < size
  ranks_pos : 0 < ranks

namespace Striping

variable (σ : Striping)

def virtualBlock (p : Nat) : Nat := p / (σ.size * σ.ranks)

def rank (p : Nat) : Nat := p % σ.ranks

def offset (p : Nat) : Nat := p % (σ.size * σ.ranks) / σ.ranks

lemma rank_lt (p : Nat) : σ.rank p < σ.ranks := Nat.mod_lt _ σ.ranks_pos

lemma offset_lt (p : Nat) : σ.offset p < σ.size := by
  apply Nat.div_lt_of_lt_mul
  have hlt : p % (σ.size * σ.ranks) < σ.size * σ.ranks :=
    Nat.mod_lt _ (Nat.mul_pos σ.size_pos σ.ranks_pos)
  exact hlt.trans_eq (Nat.mul_comm _ _)

/-- The rank inside the virtual block is the rank of the position. -/
lemma mod_mod (p : Nat) : p % (σ.size * σ.ranks) % σ.ranks = σ.rank p :=
  Nat.mod_mod_of_dvd _ (Nat.dvd_mul_left _ _)

/-- Virtual block, offset and rank give the position back. -/
lemma position_eq (p : Nat) :
    p = (σ.virtualBlock p * σ.size + σ.offset p) * σ.ranks + σ.rank p := by
  have hblock := Nat.div_add_mod p (σ.size * σ.ranks)
  have hinside := Nat.div_add_mod (p % (σ.size * σ.ranks)) σ.ranks
  rw [σ.mod_mod] at hinside
  unfold virtualBlock offset
  calc p = σ.size * σ.ranks * (p / (σ.size * σ.ranks)) +
        (σ.ranks * (p % (σ.size * σ.ranks) / σ.ranks) + σ.rank p) := by rw [hinside, hblock]
    _ = _ := by ring

lemma eq_of_parts {p q : Nat} (hblock : σ.virtualBlock p = σ.virtualBlock q)
    (hoffset : σ.offset p = σ.offset q) (hrank : σ.rank p = σ.rank q) : p = q := by
  rw [σ.position_eq p, σ.position_eq q, hblock, hoffset, hrank]

end Striping

/-- What NumPy does with a Python integer that is too large for the type of the array: version 1 takes
a wider type for the result, version 2 raises. -/
inductive Promotion where
  | widen
  | raise
  deriving DecidableEq

/-- A value in a signed type of `w` bits. -/
def wrap (w : Nat) (x : Int) : Int := x.bmod (2 ^ w)

/-- A block table with what `compute_slot_mapping` reads besides the rows. -/
structure SlotTable extends BlockTable where
  striping : Striping
  maxNumReqs : Nat
  dcpRank : Nat
  /-- The buffer for the slots of a batch. -/
  slotMapping : List Int
  int32_entries : ∀ r c, blockTable r c < 2 ^ 31

namespace SlotTable

variable (t : SlotTable)

def blockSize : Nat := t.striping.size

def dcpWorldSize : Nat := t.striping.ranks

/-- `block_table.np.ravel()[index]`. -/
def ravelGet (index : Nat) : Except PyError Nat :=
  if index < t.maxNumReqs * t.maxNumBlocksPerReq then
    .ok (t.blockTable (index / t.maxNumBlocksPerReq) (index % t.maxNumBlocksPerReq))
  else .error .indexError

/-- `block_number * self.block_size + block_offset`. The block numbers are `int32` and so is the
product, unless the block size is too large for it. The offsets are `int64`. -/
def slotAt (blockNumber blockOffset : Nat) : Int :=
  wrap 64 (wrap (if t.blockSize < 2 ^ 31 then 32 else 64) (blockNumber * t.blockSize : Nat) +
    blockOffset)

/-- The slot of one token. The arrays of the source are read elementwise. -/
def slotOf (reqIndex position : Nat) : Except PyError Int :=
  if t.dcpWorldSize > 1 then do
    let virtualBlockSize := t.blockSize * t.dcpWorldSize
    let blockTableIndex := reqIndex * t.maxNumBlocksPerReq + position / virtualBlockSize
    let blockNumber ← t.ravelGet blockTableIndex
    let virtualBlockOffset := position % virtualBlockSize
    let mask := virtualBlockOffset % t.dcpWorldSize = t.dcpRank
    let blockOffset := virtualBlockOffset / t.dcpWorldSize
    return if mask then t.slotAt blockNumber blockOffset else -1
  else do
    let blockTableIndex := reqIndex * t.maxNumBlocksPerReq + position / t.blockSize
    let blockNumber ← t.ravelGet blockTableIndex
    let blockOffset := position % t.blockSize
    return t.slotAt blockNumber blockOffset

/-- `positions // virtual_block_size` for positions of type `int64`. What the wider type holds is no
index of the table. -/
def checkVirtualBlockSize (promotion : Promotion) : Except PyError Unit :=
  if t.blockSize * t.dcpWorldSize < 2 ^ 63 then .ok ()
  else match promotion with
    | .widen => .error .indexError
    | .raise => .error .overflowError

/-- `block_numbers * self.block_size`. -/
def checkBlockSize (promotion : Promotion) : Except PyError Unit :=
  if t.blockSize < 2 ^ 31 ∨ promotion = .widen then .ok () else .error .overflowError

def setSlotMapping (slots : List Int) : SlotTable := { t with slotMapping := slots }

/-- `compute_slot_mapping`, for the pairs of a request index and a position. -/
def computeSlotMapping (promotion : Promotion) (tokens : List (Nat × Nat)) :
    Except PyError SlotTable := do
  t.checkVirtualBlockSize promotion
  let slots ← tokens.mapM fun token => t.slotOf token.1 token.2
  t.checkBlockSize promotion
  if slots.length ≤ t.slotMapping.length then
    return t.setSlotMapping (slots ++ t.slotMapping.drop slots.length)
  else .error (.valueError "could not broadcast input array")

/-- The same block table on another rank. -/
def onRank (k : Nat) : SlotTable := { t with dcpRank := k }

/-- A row holds a block in the column. -/
def Holds (row column : Nat) : Prop :=
  row < t.maxNumReqs ∧ column < t.numBlocksPerRow row ∧ column < t.maxNumBlocksPerReq

/-- The blocks of the row cover the position. -/
def Covers (row position : Nat) : Prop := t.Holds row (t.striping.virtualBlock position)

/-- No block stands at two places of the table. -/
def DistinctBlocks : Prop :=
  ∀ r c r' c', t.Holds r c → t.Holds r' c' → t.blockTable r c = t.blockTable r' c' →
    r = r' ∧ c = c'

/-- The sizes are integers that the arrays of positions and of block numbers can be combined with. -/
def SizesFit (promotion : Promotion) : Prop :=
  t.blockSize * t.dcpWorldSize < 2 ^ 63 ∧ (t.blockSize < 2 ^ 31 ∨ promotion = .widen)

/-- The type of the product holds the slot: the first slot of a block for an `int32`. -/
def SlotFits (blockNumber blockOffset : Nat) : Prop :=
  if t.blockSize < 2 ^ 31 then blockNumber * t.blockSize < 2 ^ 31
  else blockNumber * t.blockSize + blockOffset < 2 ^ 63

/-- The slot of the token fits. -/
def TokenFits (row position : Nat) : Prop :=
  t.SlotFits (t.blockTable row (t.striping.virtualBlock position)) (t.striping.offset position)

variable {t}

lemma ravelGet_row {row column : Nat} (h : t.Holds row column) :
    t.ravelGet (row * t.maxNumBlocksPerReq + column) = .ok (t.blockTable row column) := by
  obtain ⟨hrow, -, hcolumn⟩ := h
  have hpos : 0 < t.maxNumBlocksPerReq := Nat.zero_lt_of_lt hcolumn
  have hlt : row * t.maxNumBlocksPerReq + column < t.maxNumReqs * t.maxNumBlocksPerReq :=
    calc row * t.maxNumBlocksPerReq + column < (row + 1) * t.maxNumBlocksPerReq := by
          rw [Nat.succ_mul]; omega
      _ ≤ t.maxNumReqs * t.maxNumBlocksPerReq := Nat.mul_le_mul_right _ hrow
  have hdiv : (row * t.maxNumBlocksPerReq + column) / t.maxNumBlocksPerReq = row := by
    rw [Nat.add_comm, Nat.add_mul_div_right _ _ hpos, Nat.div_eq_of_lt hcolumn, Nat.zero_add]
  have hmod : (row * t.maxNumBlocksPerReq + column) % t.maxNumBlocksPerReq = column := by
    rw [Nat.add_comm, Nat.add_mul_mod_self_right, Nat.mod_eq_of_lt hcolumn]
  rw [ravelGet, if_pos hlt, hdiv, hmod]

lemma slotAt_of_fits {b o : Nat} (ho : o < t.blockSize) (h : t.SlotFits b o) :
    t.slotAt b o = (b * t.blockSize + o : Nat) := by
  unfold SlotFits at h
  unfold slotAt wrap
  generalize b * t.blockSize = product at h ⊢
  split_ifs at h ⊢
  · simp only [Int.bmod]
    omega
  · simp only [Int.bmod]
    omega

lemma slotAt_of_not_fits {b o : Nat} (ho : o < t.blockSize) (hsize : t.blockSize < 2 ^ 63)
    (h : ¬ t.SlotFits b o) {o' : Nat} (ho' : o' < t.blockSize) :
    t.slotAt b o ≠ (b * t.blockSize + o' : Nat) := by
  unfold SlotFits at h
  unfold slotAt wrap
  generalize b * t.blockSize = product at h ⊢
  split_ifs at h ⊢
  · simp only [Int.bmod]
    omega
  · simp only [Int.bmod]
    omega

variable (t) in
/-- The slot that a token has on the rank of its position. -/
def homeSlot (row position : Nat) : Int :=
  t.slotAt (t.blockTable row (t.striping.virtualBlock position)) (t.striping.offset position)

/-- Both branches give the home slot on the rank of the position. A single rank masks nothing. -/
lemma slotOf_eq {row position : Nat} (h : t.Covers row position)
    (hrank : t.dcpRank < t.dcpWorldSize) :
    t.slotOf row position = .ok (if t.striping.rank position = t.dcpRank then
      t.homeSlot row position else -1) := by
  by_cases hworld : t.dcpWorldSize > 1
  · have hblock := ravelGet_row h
    unfold Striping.virtualBlock at hblock
    rw [slotOf, if_pos hworld]
    simp only [blockSize, dcpWorldSize, hblock, ok_bind, pure_eq, t.striping.mod_mod]
    rfl
  · have hone : t.striping.ranks = 1 := by
      have hpos := t.striping.ranks_pos
      unfold dcpWorldSize at hworld
      omega
    have hblock := ravelGet_row h
    unfold Striping.virtualBlock at hblock
    rw [hone, Nat.mul_one] at hblock
    have hhome : t.striping.rank position = t.dcpRank := by
      unfold dcpWorldSize at hrank
      unfold Striping.rank
      rw [hone, Nat.mod_one]
      omega
    rw [slotOf, if_neg hworld, if_pos hhome]
    simp only [blockSize, hblock, ok_bind, pure_eq, homeSlot, Striping.virtualBlock,
      Striping.offset, hone, Nat.mul_one, Nat.div_one]

lemma homeSlot_of_fits {row position : Nat} (h : t.TokenFits row position) :
    t.homeSlot row position = (t.blockTable row (t.striping.virtualBlock position) * t.blockSize +
      t.striping.offset position : Nat) :=
  slotAt_of_fits (t.striping.offset_lt position) h

lemma homeSlot_injective (hdistinct : t.DistinctBlocks) {r r' p p' : Nat} (h : t.Covers r p)
    (h' : t.Covers r' p') (hfits : t.TokenFits r p) (hfits' : t.TokenFits r' p')
    (hrank : t.striping.rank p = t.striping.rank p')
    (heq : t.homeSlot r p = t.homeSlot r' p') : r = r' ∧ p = p' := by
  have hoffset := t.striping.offset_lt p
  have hoffset' := t.striping.offset_lt p'
  rw [homeSlot_of_fits hfits, homeSlot_of_fits hfits'] at heq
  have heq := Int.ofNat.inj heq
  unfold blockSize at heq
  have hblocks : t.blockTable r (t.striping.virtualBlock p) =
      t.blockTable r' (t.striping.virtualBlock p') := by
    have hdiv := congrArg (· / t.striping.size) heq
    simpa only [Nat.mul_comm _ t.striping.size, Nat.mul_add_div t.striping.size_pos,
      Nat.div_eq_of_lt hoffset, Nat.div_eq_of_lt hoffset', Nat.add_zero] using hdiv
  obtain ⟨hrow, hcolumn⟩ := hdistinct _ _ _ _ h h' hblocks
  rw [hblocks] at heq
  exact ⟨hrow, t.striping.eq_of_parts hcolumn (Nat.add_left_cancel heq) hrank⟩

lemma checkVirtualBlockSize_eq_ok {promotion : Promotion} :
    t.checkVirtualBlockSize promotion = .ok () ↔ t.blockSize * t.dcpWorldSize < 2 ^ 63 := by
  unfold checkVirtualBlockSize
  split_ifs with h
  · exact iff_of_true rfl h
  · refine iff_of_false ?_ h
    cases promotion <;> simp

lemma checkBlockSize_eq_ok {promotion : Promotion} :
    t.checkBlockSize promotion = .ok () ↔ t.blockSize < 2 ^ 31 ∨ promotion = .widen := by
  unfold checkBlockSize
  split_ifs with h
  · exact iff_of_true rfl h
  · exact iff_of_false (by simp) h

/-- The slots of the tokens of a batch are written, and the rest of the buffer stays. -/
lemma computeSlotMapping_eq {promotion : Promotion} {tokens : List (Nat × Nat)}
    (hsizes : t.SizesFit promotion)
    (hcovers : ∀ token ∈ tokens, t.Covers token.1 token.2) (hrank : t.dcpRank < t.dcpWorldSize)
    (hfits : tokens.length ≤ t.slotMapping.length) :
    t.computeSlotMapping promotion tokens = .ok (t.setSlotMapping (tokens.map (fun token =>
      if t.striping.rank token.2 = t.dcpRank then t.homeSlot token.1 token.2 else -1) ++
        t.slotMapping.drop tokens.length)) := by
  rw [computeSlotMapping, checkVirtualBlockSize_eq_ok.mpr hsizes.1, ok_bind,
    mapM_of_forall fun token htoken => slotOf_eq (hcovers token htoken) hrank, ok_bind,
    checkBlockSize_eq_ok.mpr hsizes.2]
  simp only [ok_bind, List.length_map, hfits, if_true, pure_eq]

lemma sizesFit_of_computeSlotMapping {promotion : Promotion} {tokens : List (Nat × Nat)}
    {t' : SlotTable} (h : t.computeSlotMapping promotion tokens = .ok t') :
    t.SizesFit promotion := by
  obtain ⟨_, hvirtual, h⟩ := bind_eq_ok.mp h
  obtain ⟨_, -, h⟩ := bind_eq_ok.mp h
  obtain ⟨_, hblock, -⟩ := bind_eq_ok.mp h
  exact ⟨checkVirtualBlockSize_eq_ok.mp hvirtual, checkBlockSize_eq_ok.mp hblock⟩

variable (t) in
/-- What the ranks store of the tokens of a batch: a token has a slot on one rank, in the block that
the table has for it, and no two tokens share a slot. `slots k` is the buffer of rank `k`. -/
structure Distributed (tokens : List (Nat × Nat)) (slots : Nat → List Int) : Prop where
  one_rank : ∀ (i r p : Nat), tokens[i]? = some (r, p) → ∃! k, k < t.dcpWorldSize ∧
    (slots k)[i]? ≠ some (-1)
  on_rank : ∀ (i r p : Nat), tokens[i]? = some (r, p) → ∀ k < t.dcpWorldSize,
    (slots k)[i]? ≠ some (-1) → k = p % t.dcpWorldSize
  in_block : ∀ (i r p : Nat), tokens[i]? = some (r, p) → ∃ offset < t.blockSize,
    (slots (p % t.dcpWorldSize))[i]? = some
      ((t.blockTable r (p / (t.blockSize * t.dcpWorldSize)) * t.blockSize + offset : Nat) : Int)
  injective : ∀ (i j r p r' p' : Nat), tokens[i]? = some (r, p) → tokens[j]? = some (r', p') →
    (r, p) ≠ (r', p') → ∀ k < t.dcpWorldSize, (slots k)[i]? ≠ some (-1) →
      (slots k)[i]? ≠ (slots k)[j]?

section Slots

variable {tokens : List (Nat × Nat)}

variable (t) (tokens) in
/-- The buffer of a rank after the batch. -/
def rankSlots (k : Nat) : List Int :=
  tokens.map (fun token =>
    if t.striping.rank token.2 = k then t.homeSlot token.1 token.2 else -1) ++
      t.slotMapping.drop tokens.length

lemma getElem?_rankSlots {i r p : Nat} (hi : tokens[i]? = some (r, p)) (k : Nat) :
    (t.rankSlots tokens k)[i]? =
      some (if t.striping.rank p = k then t.homeSlot r p else -1) := by
  have hlt : i < tokens.length := (List.getElem?_eq_some_iff.mp hi).1
  rw [rankSlots, List.getElem?_append_left (by simpa using hlt), List.getElem?_map, hi]
  rfl

lemma distributed_rankSlots (hcovers : ∀ token ∈ tokens, t.Covers token.1 token.2)
    (hdistinct : t.DistinctBlocks) (htokens : ∀ token ∈ tokens, t.TokenFits token.1 token.2) :
    t.Distributed tokens (t.rankSlots tokens) := by
  have hne : ∀ {i r p : Nat}, tokens[i]? = some (r, p) → ∀ k,
      (t.rankSlots tokens k)[i]? ≠ some (-1) ↔ t.striping.rank p = k := by
    intro i r p hi k
    rw [getElem?_rankSlots hi k]
    split_ifs with hk
    · have hnonneg : t.homeSlot r p ≠ -1 := by
        rw [homeSlot_of_fits (htokens _ (List.mem_of_getElem? hi))]
        omega
      simp [hk, hnonneg]
    · simp [hk]
  constructor
  · intro i r p hi
    refine ⟨t.striping.rank p, ⟨t.striping.rank_lt p, (hne hi _).mpr rfl⟩, ?_⟩
    rintro k ⟨-, hk⟩
    exact ((hne hi k).mp hk).symm
  · intro i r p hi k _ hk
    exact ((hne hi k).mp hk).symm
  · intro i r p hi
    refine ⟨t.striping.offset p, t.striping.offset_lt p, ?_⟩
    rw [getElem?_rankSlots hi]
    exact congrArg some ((if_pos rfl).trans
      (homeSlot_of_fits (htokens _ (List.mem_of_getElem? hi))))
  · intro i j r p r' p' hi hj hpairs k _ hk heq
    have hrank := (hne hi k).mp hk
    have hrank' := (hne hj k).mp (heq ▸ hk)
    rw [getElem?_rankSlots hi, getElem?_rankSlots hj, if_pos hrank, if_pos hrank'] at heq
    have hmem := List.mem_of_getElem? hi
    have hmem' := List.mem_of_getElem? hj
    obtain ⟨hrow, hposition⟩ := homeSlot_injective hdistinct (hcovers _ hmem) (hcovers _ hmem')
      (htokens _ hmem) (htokens _ hmem') (hrank.trans hrank'.symm) (Option.some.inj heq)
    exact hpairs (Prod.ext hrow hposition)

end Slots

/-- On every rank the slots of a batch are computed, and together they distribute its tokens, if and
only if the sizes fit and the slot of every token does. -/
theorem computeSlotMapping_distributed_iff {promotion : Promotion} {tokens : List (Nat × Nat)}
    (hcovers : ∀ token ∈ tokens, t.Covers token.1 token.2) (hdistinct : t.DistinctBlocks)
    (hfits : tokens.length ≤ t.slotMapping.length) :
    (∃ slots : Nat → List Int,
      (∀ k < t.dcpWorldSize, (t.onRank k).computeSlotMapping promotion tokens =
        .ok ((t.onRank k).setSlotMapping (slots k))) ∧
      t.Distributed tokens slots) ↔
    t.SizesFit promotion ∧ ∀ token ∈ tokens, t.TokenFits token.1 token.2 := by
  constructor
  · rintro ⟨slots, hrun, hdistributed⟩
    have hsizes : t.SizesFit promotion :=
      sizesFit_of_computeSlotMapping (t := t.onRank 0) (hrun 0 t.striping.ranks_pos)
    refine ⟨hsizes, fun token htoken => ?_⟩
    by_contra hnot
    obtain ⟨i, hi⟩ := List.mem_iff_getElem?.mp htoken
    -- The buffer of the rank of the token is the computed one.
    have hrank := t.striping.rank_lt token.2
    have hslots : slots (t.striping.rank token.2) = t.rankSlots tokens (t.striping.rank token.2) :=
      congrArg slotMapping (Except.ok.inj ((hrun _ hrank).symm.trans
        (computeSlotMapping_eq (t := t.onRank _) hsizes hcovers hrank hfits)))
    obtain ⟨offset, hoffset, hslot⟩ := hdistributed.in_block i token.1 token.2 hi
    change (slots (t.striping.rank token.2))[i]? = _ at hslot
    rw [hslots, getElem?_rankSlots hi, if_pos rfl] at hslot
    have hsize : t.blockSize < 2 ^ 63 :=
      (Nat.le_mul_of_pos_right _ t.striping.ranks_pos).trans_lt hsizes.1
    exact slotAt_of_not_fits (t.striping.offset_lt token.2) hsize hnot hoffset
      (Option.some.inj hslot)
  · rintro ⟨hsizes, htokens⟩
    exact ⟨t.rankSlots tokens,
      fun k hk => computeSlotMapping_eq (t := t.onRank k) hsizes hcovers hk hfits,
      distributed_rankSlots hcovers hdistinct htokens⟩

/-- Two requests with two blocks of two tokens each, on two ranks. -/
def pairedTable : SlotTable where
  maxNumBlocksPerReq := 2
  blockTable := fun r c => (2 * r + c) % 4
  numBlocksPerRow := fun _ => 2
  striping := ⟨2, 2, Nat.two_pos, Nat.two_pos⟩
  maxNumReqs := 2
  dcpRank := 0
  slotMapping := [0, 0, 0, 0, 0, 0]
  int32_entries := fun _ _ => by omega

theorem computeSlotMapping_distributed_iff_paired :
    (∃ slots : Nat → List Int,
      (∀ k < pairedTable.dcpWorldSize,
        (pairedTable.onRank k).computeSlotMapping .raise [(0, 2), (0, 3), (0, 4), (1, 0), (1, 1)] =
          .ok ((pairedTable.onRank k).setSlotMapping (slots k))) ∧
      pairedTable.Distributed [(0, 2), (0, 3), (0, 4), (1, 0), (1, 1)] slots) ↔
    pairedTable.SizesFit .raise ∧
      ∀ token ∈ [(0, 2), (0, 3), (0, 4), (1, 0), (1, 1)], pairedTable.TokenFits token.1 token.2 :=
  computeSlotMapping_distributed_iff (t := pairedTable)
    (by simp [Covers, Holds, pairedTable, Striping.virtualBlock])
    (by
      rintro r c r' c' ⟨hr, -, hc⟩ ⟨hr', -, hc'⟩ heq
      change r < 2 at hr
      change c < 2 at hc
      change r' < 2 at hr'
      change c' < 2 at hc'
      change (2 * r + c) % 4 = (2 * r' + c') % 4 at heq
      omega)
    (by decide)

/-- One request whose block of a whole context is the 16384th. -/
def longTable : SlotTable where
  maxNumBlocksPerReq := 1
  blockTable := fun _ _ => 16384
  numBlocksPerRow := fun _ => 1
  striping := ⟨131072, 1, by decide, Nat.one_pos⟩
  maxNumReqs := 1
  dcpRank := 0
  slotMapping := [0]
  int32_entries := fun _ _ => by decide

/-- The product with the block size wraps, and the slot of the first token is negative. -/
theorem computeSlotMapping_long_block :
    longTable.DistinctBlocks ∧ longTable.Covers 0 0 ∧ ∀ promotion : Promotion,
      ¬ ∃ slots : Nat → List Int,
        (∀ k < longTable.dcpWorldSize, (longTable.onRank k).computeSlotMapping promotion [(0, 0)] =
          .ok ((longTable.onRank k).setSlotMapping (slots k))) ∧
        longTable.Distributed [(0, 0)] slots := by
  refine ⟨?_, ⟨Nat.one_pos, Nat.one_pos, Nat.one_pos⟩, fun promotion => ?_⟩
  · rintro r c r' c' ⟨hr, -, hc⟩ ⟨hr', -, hc'⟩ -
    change r < 1 at hr
    change c < 1 at hc
    change r' < 1 at hr'
    change c' < 1 at hc'
    omega
  · rintro ⟨slots, hrun, hdistributed⟩
    have hcomputed : (longTable.onRank 0).computeSlotMapping promotion [(0, 0)] =
        .ok ((longTable.onRank 0).setSlotMapping [-2147483648]) := by
      cases promotion <;> rfl
    have hslots : slots 0 = [-2147483648] := congrArg slotMapping
      (Except.ok.inj ((hrun 0 Nat.one_pos).symm.trans hcomputed))
    obtain ⟨offset, -, hslot⟩ := hdistributed.in_block 0 0 0 rfl
    change (slots 0)[0]? = _ at hslot
    rw [hslots] at hslot
    have heq := Option.some.inj hslot
    omega

end SlotTable

end VllmV1.Worker
