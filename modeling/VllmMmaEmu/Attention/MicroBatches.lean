import Mathlib.Data.List.Sort
import VllmMmaEmu.Attention.SliceMetadata

/-!
# Micro-batches

What `split_attn_metadata` is to give for the slices of a batch: each request of a slice has there
the tokens that lie in it, and its sequence ends with the last of them. The code gives it exactly
when no slice begins inside a request.
-/

namespace VllmV1

open Python Segments

/-- The requests of the slice. -/
def UBatchSlice.requests (u : UBatchSlice) : List Nat :=
  (List.range u.numRequests).map (u.requestSlice.start + ·)

namespace QueryBatch

variable (b : QueryBatch) (u : UBatchSlice)

/-- The tokens that the request has in the slice. -/
def tokensIn (r : Nat) : List Nat :=
  (List.range' u.tokenSlice.start u.numTokens).filter fun t =>
    decide (start b.queryLens r ≤ t ∧ t < start b.queryLens (r + 1))

def lensIn : List Nat := u.requests.map fun r => (b.tokensIn u r).length

/-- The position of the last token that the request has in the slice. -/
def lastPosition (r : Nat) : Nat :=
  b.position r ((b.tokensIn u r).getLastD 0 - start b.queryLens r)

/-- The slices follow each other from token `t` to the end of the batch. -/
def CutFrom : Nat → List UBatchSlice → Prop
  | t, [] => t = b.numTokens
  | t, u :: us => u.tokenSlice.start = t ∧ b.FitsSlice u ∧ CutFrom u.tokenSlice.stop us

/-- What the metadata of a slice is to be. -/
structure IsMicroBatch (m : CommonAttentionMetadata) (m' : CommonAttentionMetadata) : Prop where
  queryStartLoc : m'.queryStartLoc = starts (b.lensIn u)
  queryStartLocCpu : m'.queryStartLocCpu = starts (b.lensIn u)
  first : m'.queryStartLocCpu.head? = some 0
  last : m'.queryStartLocCpu.getLast? = some (u.numTokens : Int)
  seqLens : m'.seqLens = u.requests.map fun r => 1 + (b.lastPosition u r : Int)
  seqLensCpu : m'.seqLensCpu = u.requests.map fun r => 1 + (b.lastPosition u r : Int)
  numComputedTokensCpu : m'.numComputedTokensCpu = u.requests.map fun r =>
    1 + (b.lastPosition u r : Int) - (b.tokensIn u r).length
  numReqs : m'.numReqs = u.numRequests
  numActualTokens : m'.numActualTokens = u.numTokens
  blockTableTensor : m'.blockTableTensor =
    slice m.blockTableTensor u.requestSlice.start u.requestSlice.stop
  slotMapping : m'.slotMapping = slice m.slotMapping u.tokenSlice.start u.tokenSlice.stop

end QueryBatch

lemma filter_range'_between (a n lo hi : Nat) :
    (List.range' a n).filter (fun t => decide (lo ≤ t ∧ t < hi)) =
      List.range' (max a lo) (min (a + n) hi - max a lo) := by
  have hperm : ((List.range' a n).filter (fun t => decide (lo ≤ t ∧ t < hi))).Perm
      (List.range' (max a lo) (min (a + n) hi - max a lo)) := by
    refine (List.perm_ext_iff_of_nodup ((List.nodup_range').filter _) List.nodup_range').mpr
      fun t => ?_
    simp only [List.mem_filter, List.mem_range'_1, decide_eq_true_eq]
    omega
  exact hperm.eq_of_pairwise' ((List.pairwise_lt_range').filter _) List.pairwise_lt_range'

namespace QueryBatch.FitsSlice

variable {b : QueryBatch} {u : UBatchSlice} {j : Nat}

lemma tokensIn_eq (h : b.FitsSlice u) (r : Nat) : b.tokensIn u r =
    List.range' (max u.tokenSlice.start (start b.queryLens r))
      (min u.tokenSlice.stop (start b.queryLens (r + 1)) -
        max u.tokenSlice.start (start b.queryLens r)) := by
  have hne := h.nonempty
  have hstop : u.tokenSlice.start + u.numTokens = u.tokenSlice.stop := by
    unfold UBatchSlice.numTokens
    omega
  rw [tokensIn, filter_range'_between, hstop]

lemma start_between (h : b.FitsSlice u) (hj : j < u.numRequests) :
    start b.queryLens (u.requestSlice.start + j) < u.tokenSlice.stop ∧
      u.tokenSlice.start < start b.queryLens (u.requestSlice.start + j + 1) ∧
      (j ≠ 0 → u.tokenSlice.start < start b.queryLens (u.requestSlice.start + j)) := by
  have hstop := u.stop_eq
  have hlast := h.last_lt
  have hfirst := h.first_lt
  have hbefore := start_mono b.queryLens
    (show u.requestSlice.start + j ≤ u.requestSlice.stop - 1 by omega)
  have hafter := start_mono b.queryLens
    (show u.requestSlice.start + 1 ≤ u.requestSlice.start + j + 1 by omega)
  refine ⟨by omega, by omega, fun hne => ?_⟩
  have hlater := start_mono b.queryLens
    (show u.requestSlice.start + 1 ≤ u.requestSlice.start + j by omega)
  omega

lemma tokens_nonempty (h : b.FitsSlice u) (hpos : ∀ l ∈ b.queryLens, 0 < l)
    (hj : j < u.numRequests) :
    max u.tokenSlice.start (start b.queryLens (u.requestSlice.start + j)) <
      min u.tokenSlice.stop (start b.queryLens (u.requestSlice.start + j + 1)) := by
  obtain ⟨hbefore, hafter, -⟩ := h.start_between hj
  have hne := h.nonempty
  have hle := h.stop_le
  have hstop := u.stop_eq
  have hlt : u.requestSlice.start + j < b.queryLens.length := by
    unfold QueryBatch.numReqs at hle
    omega
  have hlen : 0 < len b.queryLens (u.requestSlice.start + j) :=
    hpos _ (List.mem_of_getElem? (getElem?_len hlt))
  have hsucc := start_succ b.queryLens (u.requestSlice.start + j)
  omega

lemma length_tokensIn (h : b.FitsSlice u) (r : Nat) : (b.tokensIn u r).length =
    min u.tokenSlice.stop (start b.queryLens (r + 1)) -
      max u.tokenSlice.start (start b.queryLens r) := by
  rw [h.tokensIn_eq, List.length_range']

/-- The last token of a request in the slice, from the end of the request or of the slice. -/
lemma lastPosition_eq (h : b.FitsSlice u) (hpos : ∀ l ∈ b.queryLens, 0 < l)
    (hj : j < u.numRequests) : b.lastPosition u (u.requestSlice.start + j) + 1 =
      len b.computed (u.requestSlice.start + j) +
        (min u.tokenSlice.stop (start b.queryLens (u.requestSlice.start + j + 1)) -
          start b.queryLens (u.requestSlice.start + j)) := by
  have hlt := h.tokens_nonempty hpos hj
  obtain ⟨n, hn⟩ := Nat.exists_eq_add_of_lt hlt
  have hlast : (b.tokensIn u (u.requestSlice.start + j)).getLastD 0 =
      min u.tokenSlice.stop (start b.queryLens (u.requestSlice.start + j + 1)) - 1 := by
    have hlen : min u.tokenSlice.stop (start b.queryLens (u.requestSlice.start + j + 1)) -
        max u.tokenSlice.start (start b.queryLens (u.requestSlice.start + j)) = n + 1 := by omega
    rw [h.tokensIn_eq, hlen, List.range'_concat, List.getLastD_concat]
    omega
  rw [lastPosition, position, hlast]
  omega

lemma start_lensIn (h : b.FitsSlice u) (hj : j ≤ u.numRequests) :
    start (b.lensIn u) j =
      min u.tokenSlice.stop (start b.queryLens (u.requestSlice.start + j)) -
        u.tokenSlice.start := by
  induction j with
  | zero =>
    have hle := h.first_le
    rw [start_zero, Nat.add_zero]
    omega
  | succ j ih =>
    have hlt : j < u.numRequests := hj
    have hlen : len (b.lensIn u) j = (b.tokensIn u (u.requestSlice.start + j)).length := by
      rw [len, lensIn, UBatchSlice.requests, List.map_map, List.getD_eq_getElem?_getD,
        List.getElem?_map, List.getElem?_range hlt]
      rfl
    obtain ⟨hbefore, hafter, hinside⟩ := h.start_between hlt
    have hmono : start b.queryLens (u.requestSlice.start + j) ≤
        start b.queryLens (u.requestSlice.start + j + 1) := start_mono _ (Nat.le_succ _)
    have hne := h.nonempty
    rw [start_succ, ih hlt.le, hlen, h.length_tokensIn, ← Nat.add_assoc]
    by_cases hzero : j = 0
    · have hle := h.first_le
      rw [hzero, Nat.add_zero] at *
      omega
    · have hlater := hinside hzero
      omega

lemma sum_lensIn (h : b.FitsSlice u) : start (b.lensIn u) u.numRequests = u.numTokens := by
  have hlast := h.last_le
  rw [h.start_lensIn (Nat.le_refl _), ← u.stop_eq, UBatchSlice.numTokens]
  omega

lemma starts_lensIn (b : QueryBatch) (u : UBatchSlice) : starts (b.lensIn u) =
    (List.range (u.numRequests + 1)).map fun j => (start (b.lensIn u) j : Int) := by
  rw [starts, lensIn, List.length_map, UBatchSlice.requests, List.length_map, List.length_range]

end QueryBatch.FitsSlice

section Exact

variable {b : QueryBatch} {u : UBatchSlice} {m m' : CommonAttentionMetadata}

/-- The slice begins with a request. -/
def QueryBatch.Aligned (b : QueryBatch) (u : UBatchSlice) : Prop :=
  ∃ r, start b.queryLens r = u.tokenSlice.start

lemma QueryBatch.FitsSlice.aligned_iff (h : b.FitsSlice u) :
    b.Aligned u ↔ start b.queryLens u.requestSlice.start = u.tokenSlice.start := by
  constructor
  · rintro ⟨r, hr⟩
    have hle := h.first_le
    have hlt := h.first_lt
    rcases Nat.lt_or_ge u.requestSlice.start r with hgt | hge
    · have hmono := start_mono b.queryLens (show u.requestSlice.start + 1 ≤ r from hgt)
      omega
    · have hmono := start_mono b.queryLens hge
      omega
  · exact fun heq => ⟨_, heq⟩

/-- The slice ends with a request, or it holds the first tokens of the batch. -/
def QueryBatch.EndsRight (b : QueryBatch) (u : UBatchSlice) : Prop :=
  u.tokenSlice.stop = start b.queryLens u.requestSlice.stop ∨ u.tokenSlice.start = 0

namespace QueryBatch.FitsSlice

variable {j : Nat}

lemma codeStart_of_lt (h : b.FitsSlice u) (hj : j < u.numRequests) :
    b.codeStart u j = start (b.lensIn u) j := by
  obtain ⟨hbefore, -, hinside⟩ := h.start_between hj
  rw [codeStart, if_neg hj.ne, h.start_lensIn hj.le]
  split_ifs with hzero
  · have hle := h.first_le
    rw [hzero, Nat.add_zero]
    omega
  · have hlater := hinside hzero
    omega

/-- The stop of a slice is taken for its length unless it ends with a request. -/
lemma codeEnd_eq_iff (h : b.FitsSlice u) : b.codeEnd u = u.numTokens ↔ b.EndsRight u := by
  have hle := h.last_le
  have hne := h.nonempty
  unfold codeEnd EndsRight UBatchSlice.numTokens
  split_ifs with hsplit <;> omega

lemma codeSeqLen_eq (h : b.FitsSlice u) (hpos : ∀ l ∈ b.queryLens, 0 < l) (hend : b.EndsRight u)
    (hj : j < u.numRequests) :
    b.codeSeqLen u j = 1 + (b.lastPosition u (u.requestSlice.start + j) : Int) := by
  have hlast := h.lastPosition_eq hpos hj
  have hle := h.last_le
  have hlt := h.last_lt
  have hstop := u.stop_eq
  have hsucc := start_succ b.queryLens (u.requestSlice.start + j)
  obtain ⟨hbefore, -, -⟩ := h.start_between hj
  unfold codeSeqLen codeSkipped seqLen
  by_cases hfinal : j + 1 = u.numRequests
  · have hstop' : u.requestSlice.start + j + 1 = u.requestSlice.stop := by omega
    rw [hstop'] at hlast hsucc
    rw [if_pos hfinal]
    rcases hend with heq | hzero
    · rw [if_neg (by omega)]
      omega
    · split_ifs with hsplit <;> omega
  · have hmono := start_mono b.queryLens
      (show u.requestSlice.start + j + 1 ≤ u.requestSlice.stop - 1 by omega)
    rw [if_neg hfinal]
    omega

/-- What was computed before the slice, as far as the code knows. -/
lemma computed_eq_iff (h : b.FitsSlice u) (hpos : ∀ l ∈ b.queryLens, 0 < l)
    (hj : j < u.numRequests) : (len b.computed (u.requestSlice.start + j) : Int) =
      1 + (b.lastPosition u (u.requestSlice.start + j) : Int) -
        (b.tokensIn u (u.requestSlice.start + j)).length ↔
      u.tokenSlice.start ≤ start b.queryLens (u.requestSlice.start + j) := by
  have hlast := h.lastPosition_eq hpos hj
  have hlt := h.tokens_nonempty hpos hj
  rw [h.length_tokensIn]
  omega

end QueryBatch.FitsSlice

/-- The code is right on a slice exactly if it begins with a request and ends right. -/
lemma isMicroBatch_iff (h : b.FitsSlice u) (hpos : ∀ l ∈ b.queryLens, 0 < l)
    (hcode : b.CodeMetadata u m m') :
    b.IsMicroBatch u m m' ↔ b.Aligned u ∧ b.EndsRight u := by
  have hn := h.numRequests_pos
  have hrequests : ∀ f : Nat → Int, u.requests.map f =
      (List.range u.numRequests).map fun j => f (u.requestSlice.start + j) :=
    fun f => List.map_map
  constructor
  · intro hmicro
    constructor
    · -- the computed tokens of the first request
      have hcomputed := hcode.numComputedTokensCpu.symm.trans hmicro.numComputedTokensCpu
      rw [hrequests] at hcomputed
      have hzero := List.map_inj_left.mp hcomputed 0 (List.mem_range.mpr hn)
      have hle := (h.computed_eq_iff hpos hn).mp hzero
      exact h.aligned_iff.mpr (Nat.le_antisymm h.first_le hle)
    · have hlast := hmicro.last
      rw [hcode.queryStartLocCpu, List.range_succ, List.map_append, List.map_singleton,
        List.getLast?_concat, QueryBatch.codeStart, if_pos rfl] at hlast
      exact h.codeEnd_eq_iff.mp (Option.some.inj hlast)
  · rintro ⟨haligned, hend⟩
    have hfirst := h.aligned_iff.mp haligned
    have hstarts : (List.range (u.numRequests + 1)).map (b.codeStart u) =
        starts (b.lensIn u) := by
      rw [QueryBatch.FitsSlice.starts_lensIn]
      refine List.map_congr_left fun j hj => ?_
      rcases Nat.lt_succ_iff_lt_or_eq.mp (List.mem_range.mp hj) with hlt | rfl
      · exact h.codeStart_of_lt hlt
      · rw [QueryBatch.codeStart, if_pos rfl, h.sum_lensIn]
        exact h.codeEnd_eq_iff.mpr hend
    have hseqLens : (List.range u.numRequests).map (b.codeSeqLen u) =
        u.requests.map fun r => 1 + (b.lastPosition u r : Int) := by
      rw [hrequests]
      exact List.map_congr_left fun j hj =>
        h.codeSeqLen_eq hpos hend (List.mem_range.mp hj)
    constructor
    · rw [hcode.queryStartLoc, hstarts]
    · rw [hcode.queryStartLocCpu, hstarts]
    · rw [hcode.queryStartLocCpu, hstarts, QueryBatch.FitsSlice.starts_lensIn,
        List.range_succ_eq_map]
      rfl
    · rw [hcode.queryStartLocCpu, hstarts, QueryBatch.FitsSlice.starts_lensIn, List.range_succ,
        List.map_append, List.map_singleton, List.getLast?_concat, h.sum_lensIn]
    · rw [hcode.seqLens, hseqLens]
    · rw [hcode.seqLensCpu, hseqLens]
    · rw [hcode.numComputedTokensCpu, hrequests]
      refine List.map_congr_left fun j hj => (h.computed_eq_iff hpos (List.mem_range.mp hj)).mpr ?_
      rw [← hfirst]
      exact start_mono _ (Nat.le_add_right _ _)
    · exact hcode.numReqs
    · exact hcode.numActualTokens
    · exact hcode.blockTableTensor
    · exact hcode.slotMapping

end Exact

section Split

variable {b : QueryBatch} {m : CommonAttentionMetadata} {us : List UBatchSlice}

/-- Where every slice begins with a request, every slice ends with one. -/
lemma endsRight_of_aligned {t : Nat} (hcut : b.CutFrom t us) (haligned : ∀ u ∈ us, b.Aligned u) :
    ∀ u ∈ us, b.EndsRight u := by
  induction us generalizing t with
  | nil => exact fun u hu => nomatch hu
  | cons u us ih =>
    obtain ⟨-, hfits, hrest⟩ := hcut
    have hcut_stop : ∃ r, start b.queryLens r = u.tokenSlice.stop := by
      cases us with
      | nil => exact ⟨b.queryLens.length, (start_length _).trans hrest.symm⟩
      | cons u' us =>
        obtain ⟨hstart, -, -⟩ := hrest
        exact hstart ▸ haligned u' (by simp)
    obtain ⟨r, hr⟩ := hcut_stop
    have hright : b.EndsRight u := by
      have hle := hfits.last_le
      have hlt := hfits.last_lt
      rcases Nat.lt_or_ge r u.requestSlice.stop with hbefore | hge
      · have hmono := start_mono b.queryLens (show r ≤ u.requestSlice.stop - 1 by omega)
        omega
      · have hmono := start_mono b.queryLens hge
        exact Or.inl (by omega)
    intro v hv
    rcases List.mem_cons.mp hv with rfl | hmem
    · exact hright
    · exact ih hrest (fun w hw => haligned w (List.mem_cons_of_mem _ hw)) v hmem

lemma fitsSlice_of_cutFrom {t : Nat} (hcut : b.CutFrom t us) : ∀ u ∈ us, b.FitsSlice u := by
  induction us generalizing t with
  | nil => exact fun u hu => nomatch hu
  | cons u us ih =>
    obtain ⟨-, hfits, hrest⟩ := hcut
    intro v hv
    rcases List.mem_cons.mp hv with rfl | hmem
    · exact hfits
    · exact ih hrest v hmem

/-- Whether all items of two lists match, where it can be told from the items of the first. -/
lemma forall₂_iff_of_forall₂ {α β : Type} {R S : α → β → Prop} {Q : α → Prop} {l : List α}
    {l' : List β} (hall : List.Forall₂ R l l') (h : ∀ a ∈ l, ∀ b, R a b → (S a b ↔ Q a)) :
    List.Forall₂ S l l' ↔ ∀ a ∈ l, Q a := by
  induction hall with
  | nil => simp
  | cons hab _ ih =>
    rw [List.forall₂_cons, List.forall_mem_cons, h _ List.mem_cons_self _ hab,
      ih fun a ha => h a (List.mem_cons_of_mem _ ha)]

lemma exists_splitAttnMetadata (hm : m.Describes b) (hfits : ∀ u ∈ us, b.FitsSlice u) :
    ∃ ms, splitAttnMetadata us m = .ok ms ∧
      List.Forall₂ (fun u m' => b.CodeMetadata u m m') us ms := by
  induction us with
  | nil => exact ⟨[], rfl, .nil⟩
  | cons u us ih =>
    obtain ⟨m', hm', hu⟩ := makeMetadataWithSlice_eq (hfits u List.mem_cons_self) hm
    obtain ⟨ms, hms, hus⟩ := ih fun v hv => hfits v (List.mem_cons_of_mem _ hv)
    refine ⟨m' :: ms, ?_, .cons hu hus⟩
    unfold splitAttnMetadata at hms ⊢
    rw [List.mapM_cons, hm', ok_bind, hms]
    rfl

/-- The slices of a batch are split without error, and all rightly exactly if no slice begins
inside a request. -/
theorem splitAttnMetadata_exact_iff (hm : m.Describes b) (hpos : ∀ l ∈ b.queryLens, 0 < l)
    (hcut : b.CutFrom 0 us) : ∃ ms, splitAttnMetadata us m = .ok ms ∧
      (List.Forall₂ (fun u m' => b.IsMicroBatch u m m') us ms ↔ ∀ u ∈ us, b.Aligned u) := by
  have hfits := fitsSlice_of_cutFrom hcut
  obtain ⟨ms, hms, hall⟩ := exists_splitAttnMetadata hm hfits
  have hright : List.Forall₂ (fun u m' => b.IsMicroBatch u m m') us ms ↔
      ∀ u ∈ us, b.Aligned u ∧ b.EndsRight u :=
    forall₂_iff_of_forall₂ hall fun u hu m' hcode => isMicroBatch_iff (hfits u hu) hpos hcode
  refine ⟨ms, hms, hright.trans ⟨fun h u hu => (h u hu).1, fun h u hu => ?_⟩⟩
  exact ⟨h u hu, endsRight_of_aligned hcut h u hu⟩

end Split

/-- Three requests, of which the second has five query tokens. -/
def threeRequests : QueryBatch := ⟨[3, 5, 2], [2, 4, 0], rfl⟩

def threeMetadata : CommonAttentionMetadata where
  queryStartLoc := [0, 3, 8, 10]
  queryStartLocCpu := [0, 3, 8, 10]
  seqLens := [5, 9, 2]
  seqLensCpu := [5, 9, 2]
  numComputedTokensCpu := [2, 4, 0]
  numReqs := 3
  numActualTokens := 10
  maxQueryLen := 5
  maxSeqLen := 9
  blockTableTensor := [[1], [2], [3]]
  slotMapping := [16, 17, 18, 32, 33, 34, 35, 36, 48, 49]

def slicesAt (requestStop requestStart split : Nat) (h : requestStart ≤ 3 ∧ split ≤ 10) :
    List UBatchSlice :=
  [⟨⟨0, requestStop, Nat.zero_le _⟩, ⟨0, split, Nat.zero_le _⟩⟩,
    ⟨⟨requestStart, 3, h.1⟩, ⟨split, 10, h.2⟩⟩]

/-- Behind the first request. -/
theorem splitAttnMetadata_exact_iff_at_request : ∃ ms,
    splitAttnMetadata (slicesAt 1 1 3 (by decide)) threeMetadata = .ok ms ∧
      (List.Forall₂ (fun u m' => threeRequests.IsMicroBatch u threeMetadata m')
        (slicesAt 1 1 3 (by decide)) ms ↔
        ∀ u ∈ slicesAt 1 1 3 (by decide), threeRequests.Aligned u) := by
  refine splitAttnMetadata_exact_iff ⟨rfl, rfl, rfl, rfl, rfl⟩ (by decide) ⟨rfl, ?_, rfl, ?_, rfl⟩
  · exact ⟨by decide, ⟨0, by decide, rfl⟩, 0, 2, rfl, by decide, rfl⟩
  · exact ⟨by decide, ⟨0, by decide, rfl⟩, 2, 1, rfl, by decide, rfl⟩

/-- Inside the second request: its first two tokens are not counted as computed for the rest. -/
theorem not_isMicroBatch_inside_request : ¬ ∃ ms,
    splitAttnMetadata (slicesAt 2 1 5 (by decide)) threeMetadata = .ok ms ∧
      List.Forall₂ (fun u m' => threeRequests.IsMicroBatch u threeMetadata m')
        (slicesAt 2 1 5 (by decide)) ms := by
  rintro ⟨ms, hms, hall⟩
  cases hall with
  | cons _ hrest =>
    cases hrest with
    | cons hsecond hnil =>
      cases hnil
      have hcode : (splitAttnMetadata (slicesAt 2 1 5 (by decide)) threeMetadata).map
          (List.map (·.numComputedTokensCpu)) = .ok [[2, 4], [4, 0]] := by decide
      rw [hms] at hcode
      have hcomputed := hsecond.numComputedTokensCpu
      have hspec : ([4, 0] : List Int) = [6, 0] := by
        simp only [Except.map, List.map_cons, List.map_nil, Except.ok.injEq, List.cons.injEq] at hcode
        exact hcode.2.1.symm.trans (hcomputed.trans (by decide))
      exact absurd hspec (by decide)

end VllmV1
