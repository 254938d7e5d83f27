import VllmMmaEmu.Attention.Metadata

/-!
# Chunks of a sequence

With local attention a sequence is cut into chunks, and a query sees the keys of its own chunk up to
itself. The query tokens of a request are cut at the same places. The first and the last of its
blocks may be partial, and each block has the keys from the start of its chunk on.
-/

namespace VllmV1

open Python Segments

namespace QueryBatch

variable (b : QueryBatch) (chunk : Nat)

/-- The number of chunks with query tokens of request `r`. -/
def localBlocks (r : Nat) : Nat := (b.seqLen r - 1) / chunk - len b.computed r / chunk + 1

/-- Where the chunk of block `j` starts in the sequence. -/
def blockStart (r j : Nat) : Nat := (len b.computed r / chunk + j) * chunk

/-- The end of the keys of block `j`. -/
def blockEnd (r j : Nat) : Nat := min (b.seqLen r) (b.blockStart chunk r (j + 1))

/-- The position of the first query token of block `j`. -/
def queryStart (r j : Nat) : Nat := max (len b.computed r) (b.blockStart chunk r j)

def localQueryLen (r j : Nat) : Nat := b.blockEnd chunk r j - b.queryStart chunk r j

def localKeyLen (r j : Nat) : Nat := b.blockEnd chunk r j - b.blockStart chunk r j

def localQueryLens (r : Nat) : List Nat :=
  (List.range (b.localBlocks chunk r)).map (b.localQueryLen chunk r)

variable {b chunk} {r j k i : Nat}

lemma blockStart_eq (b : QueryBatch) (chunk r j : Nat) :
    b.blockStart chunk r j = b.blockStart chunk r 0 + j * chunk := by
  rw [blockStart, blockStart, Nat.add_zero, Nat.add_mul]

lemma blockStart_succ (r j : Nat) :
    b.blockStart chunk r (j + 1) = b.blockStart chunk r j + chunk := by
  rw [blockStart, blockStart, ← Nat.add_assoc, Nat.succ_mul]

lemma blockStart_mono {j' : Nat} (h : j ≤ j') :
    b.blockStart chunk r j ≤ b.blockStart chunk r j' :=
  Nat.mul_le_mul_right _ (Nat.add_le_add_left h _)

lemma computed_mem_first (hchunk : 0 < chunk) :
    b.blockStart chunk r 0 ≤ len b.computed r ∧
      len b.computed r < b.blockStart chunk r 0 + chunk := by
  have hle := Nat.div_mul_le_self (len b.computed r) chunk
  have hlt := Nat.lt_div_mul_add (a := len b.computed r) hchunk
  exact ⟨hle, hlt⟩

lemma localBlocks_pos (r : Nat) : 0 < b.localBlocks chunk r := Nat.succ_pos _

lemma last_mem_last (hchunk : 0 < chunk) (hquery : 0 < len b.queryLens r) :
    b.blockStart chunk r (b.localBlocks chunk r - 1) < b.seqLen r ∧
      b.seqLen r ≤ b.blockStart chunk r (b.localBlocks chunk r - 1) + chunk := by
  have hseq : b.seqLen r = len b.computed r + len b.queryLens r := rfl
  have hfirst : len b.computed r / chunk ≤ (b.seqLen r - 1) / chunk :=
    Nat.div_le_div_right (by omega)
  have hlast : b.blockStart chunk r (b.localBlocks chunk r - 1) =
      (b.seqLen r - 1) / chunk * chunk := by
    rw [blockStart, localBlocks, Nat.add_sub_cancel, Nat.add_sub_cancel' hfirst]
  have hle := Nat.div_mul_le_self (b.seqLen r - 1) chunk
  have hlt := Nat.lt_div_mul_add (a := b.seqLen r - 1) hchunk
  rw [hlast]
  omega

lemma blockStart_lt (hchunk : 0 < chunk) (hquery : 0 < len b.queryLens r)
    (hj : j < b.localBlocks chunk r) : b.blockStart chunk r j < b.seqLen r := by
  have hlast := last_mem_last hchunk hquery
  have hmono : b.blockStart chunk r j ≤ b.blockStart chunk r (b.localBlocks chunk r - 1) :=
    blockStart_mono (Nat.le_sub_one_of_lt hj)
  omega

lemma blockEnd_of_lt (hchunk : 0 < chunk) (hquery : 0 < len b.queryLens r)
    (hj : j + 1 < b.localBlocks chunk r) :
    b.blockEnd chunk r j = b.blockStart chunk r (j + 1) :=
  Nat.min_eq_right (blockStart_lt hchunk hquery hj).le

lemma blockEnd_last (hchunk : 0 < chunk) (hquery : 0 < len b.queryLens r)
    (hj : j + 1 = b.localBlocks chunk r) : b.blockEnd chunk r j = b.seqLen r := by
  have hlast := last_mem_last hchunk hquery
  have hsub : b.localBlocks chunk r - 1 = j := by omega
  rw [hsub, ← blockStart_succ] at hlast
  exact Nat.min_eq_left hlast.2

lemma queryStart_succ (hchunk : 0 < chunk) (r j : Nat) :
    b.queryStart chunk r (j + 1) = b.blockStart chunk r (j + 1) := by
  have hfirst := computed_mem_first (b := b) (r := r) hchunk
  have hmono : b.blockStart chunk r 1 ≤ b.blockStart chunk r (j + 1) :=
    blockStart_mono (Nat.le_add_left 1 j)
  rw [blockStart_succ r 0] at hmono
  exact Nat.max_eq_right (by omega)

lemma queryStart_zero (hchunk : 0 < chunk) (r : Nat) :
    b.queryStart chunk r 0 = len b.computed r :=
  Nat.max_eq_left (computed_mem_first hchunk).1

lemma queryStart_lt_blockEnd (hchunk : 0 < chunk) (hquery : 0 < len b.queryLens r)
    (hj : j < b.localBlocks chunk r) : b.queryStart chunk r j < b.blockEnd chunk r j := by
  have hfirst := computed_mem_first (b := b) (r := r) hchunk
  have hmono : b.blockStart chunk r 0 ≤ b.blockStart chunk r j := blockStart_mono j.zero_le
  have hlt := blockStart_lt hchunk hquery hj
  have hseq : b.seqLen r = len b.computed r + len b.queryLens r := rfl
  rw [queryStart, blockEnd, blockStart_succ]
  omega

lemma localQueryLen_pos (hchunk : 0 < chunk) (hquery : 0 < len b.queryLens r)
    (hj : j < b.localBlocks chunk r) : 0 < b.localQueryLen chunk r j :=
  Nat.sub_pos_of_lt (queryStart_lt_blockEnd hchunk hquery hj)

lemma length_localQueryLens (r : Nat) :
    (b.localQueryLens chunk r).length = b.localBlocks chunk r := by
  rw [localQueryLens, List.length_map, List.length_range]

lemma len_localQueryLens (hj : j < b.localBlocks chunk r) :
    len (b.localQueryLens chunk r) j = b.localQueryLen chunk r j := by
  simp [len, localQueryLens, List.getD_eq_getElem?_getD, List.getElem?_range hj]

lemma start_localQueryLens (hchunk : 0 < chunk) (hquery : 0 < len b.queryLens r)
    (hj : j < b.localBlocks chunk r) :
    len b.computed r + start (b.localQueryLens chunk r) j = b.queryStart chunk r j := by
  induction j with
  | zero => rw [start_zero, Nat.add_zero, queryStart_zero hchunk]
  | succ j ih =>
    have hlt := queryStart_lt_blockEnd hchunk hquery (Nat.lt_of_succ_lt hj)
    have hstart := ih (Nat.lt_of_succ_lt hj)
    have hend := blockEnd_of_lt hchunk hquery hj
    rw [start_succ, len_localQueryLens (Nat.lt_of_succ_lt hj), localQueryLen,
      queryStart_succ hchunk]
    omega

lemma sum_localQueryLens (hchunk : 0 < chunk) (hquery : 0 < len b.queryLens r) :
    (b.localQueryLens chunk r).sum = len b.queryLens r := by
  have hpos : 0 < b.localBlocks chunk r := localBlocks_pos r
  obtain ⟨j, hj⟩ : ∃ j, b.localBlocks chunk r = j + 1 := ⟨_, (Nat.succ_pred hpos.ne').symm⟩
  have hstart := start_localQueryLens hchunk hquery (j := j) (by omega)
  have hlt := queryStart_lt_blockEnd hchunk hquery (j := j) (by omega)
  have hend := blockEnd_last hchunk hquery hj.symm
  have hseq : b.seqLen r = len b.computed r + len b.queryLens r := rfl
  rw [← start_length, length_localQueryLens, hj, start_succ, len_localQueryLens (by omega),
    localQueryLen]
  omega

/-- The position of a query token of a block, whose chunk starts with the keys of the block. -/
lemma position_of_locates (hchunk : 0 < chunk) (hquery : 0 < len b.queryLens r)
    (h : Locates (b.localQueryLens chunk r) k j i) :
    b.position r k = b.queryStart chunk r j + i ∧
      b.position r k < b.blockEnd chunk r j ∧
      b.position r k / chunk * chunk = b.blockStart chunk r j := by
  have hj : j < b.localBlocks chunk r := length_localQueryLens r ▸ h.lt_length
  have hlt := h.lt
  rw [len_localQueryLens hj, localQueryLen] at hlt
  have hstart := start_localQueryLens hchunk hquery hj
  have hposition : b.position r k = b.queryStart chunk r j + i := by
    rw [position, h.eq]
    omega
  have hend : b.position r k < b.blockEnd chunk r j := by omega
  refine ⟨hposition, hend, ?_⟩
  have hle : b.blockStart chunk r j ≤ b.queryStart chunk r j := Nat.le_max_right _ _
  have hnext : b.blockEnd chunk r j ≤ b.blockStart chunk r (j + 1) := Nat.min_le_right _ _
  have hdiv : b.position r k / chunk = len b.computed r / chunk + j := by
    apply Nat.div_eq_of_lt_le
    · exact hle.trans (hposition ▸ Nat.le_add_right _ _)
    · exact hend.trans_le hnext
  rw [hdiv, blockStart]

end QueryBatch

end VllmV1
