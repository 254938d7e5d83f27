import Mathlib.Algebra.Order.BigOperators.Group.List
import Mathlib.Data.Int.ConditionallyCompleteOrder
import VllmMmaEmu.KvCache.LayerSpecs
import VllmMmaEmu.Library.Bisection

/-!
# The estimated maximal model length

`estimate_max_model_len` of `kv_cache_utils.py`. A probe writes the length it tries into the
configuration; `max_memory_usage_bytes` of a spec is any function of the configuration.
-/

namespace VllmV1.Interface

open Python Bisection

variable {S : Type} (usage : VllmConfig → S → Except PyError Int)

/-- `max_memory_usage_bytes`, for specs with any memory need. -/
def totalUsageBytes (config : VllmConfig) (kvCacheSpecs : List S) : Except PyError Int := do
  let sizes ← kvCacheSpecs.mapM (usage config)
  return sizes.sum

/-- `fits_in_memory`: the length stays in the configuration. -/
def fitsInMemory (kvCacheSpecs : List S) (availableMemory : Int) (config : VllmConfig)
    (modelLen : Nat) : Except PyError (Bool × VllmConfig) := do
  let config := { config with maxModelLen := modelLen }
  let memoryNeeded ← totalUsageBytes usage config kvCacheSpecs
  return (memoryNeeded ≤ availableMemory, config)

/-- `while left <= right`. -/
def searchModelLen (kvCacheSpecs : List S) (availableMemory : Int) :
    (fuel left right result : Nat) → VllmConfig → Except PyError (Nat × VllmConfig)
  | 0, _, _, _, _ => .error .outOfFuel
  | fuel + 1, left, right, result, config =>
    if left ≤ right then do
      let mid := (left + right) / 2
      let (fits, config) ← fitsInMemory usage kvCacheSpecs availableMemory config mid
      if fits then searchModelLen kvCacheSpecs availableMemory fuel (mid + 1) right mid config
      else searchModelLen kvCacheSpecs availableMemory fuel left (mid - 1) result config
    else .ok (result, config)

/-- `estimate_max_model_len`, with the configuration that it leaves. -/
def estimateMaxModelLen (config : VllmConfig) (kvCacheSpecs : List S) (availableMemory : Int) :
    Except PyError (Nat × VllmConfig) := do
  let currentMax := config.maxModelLen
  let (fits, config) ← fitsInMemory usage kvCacheSpecs availableMemory config 1
  if fits then
    searchModelLen usage kvCacheSpecs availableMemory (currentMax + 1) 1 currentMax 1 config
  else return (0, config)

variable {usage} {config : VllmConfig} {kvCacheSpecs : List S} {availableMemory : Int}
  {need : Nat → Int}

/-- The specs need `need n` bytes for the length `n`, and no less for a greater one. -/
structure Needs (usage : VllmConfig → S → Except PyError Int) (config : VllmConfig)
    (kvCacheSpecs : List S) (need : Nat → Int) : Prop where
  eq_ok : ∀ n, totalUsageBytes usage { config with maxModelLen := n } kvCacheSpecs = .ok (need n)
  mono : Monotone need

lemma Needs.closed (h : Needs usage config kvCacheSpecs need) (availableMemory : Int) :
    Closed fun n => need n ≤ availableMemory :=
  fun _ _ hle hfits => (h.mono hle).trans hfits

lemma Needs.fitsInMemory (h : Needs usage config kvCacheSpecs need) (last n : Nat) :
    fitsInMemory usage kvCacheSpecs availableMemory { config with maxModelLen := last } n =
      .ok (need n ≤ availableMemory, { config with maxModelLen := n }) := by
  rw [Interface.fitsInMemory]
  dsimp only
  rw [h.eq_ok n, ok_bind]
  rfl

/-- Fuel for every number of the interval is enough, and the search ends in its final state. -/
lemma Needs.searchModelLen (h : Needs usage config kvCacheSpecs need)
    {fuel bound left right result last : Nat}
    (hs : Searching (fun n => need n ≤ availableMemory) bound left right result last)
    (hfuel : right + 1 < left + fuel) :
    ∃ left' right' result' last', searchModelLen usage kvCacheSpecs availableMemory fuel left
        right result { config with maxModelLen := last } =
          .ok (result', { config with maxModelLen := last' }) ∧
      Searching (fun n => need n ≤ availableMemory) bound left' right' result' last' ∧
      right' < left' := by
  induction fuel generalizing left right result last with
  | zero =>
    have := hs.left_le
    omega
  | succ fuel ih =>
    rw [Interface.searchModelLen]
    split_ifs with hle
    · dsimp only
      rw [h.fitsInMemory, ok_bind]
      by_cases hfits : need ((left + right) / 2) ≤ availableMemory
      · rw [if_pos (decide_eq_true hfits)]
        exact ih (hs.accept hle hfits) (by omega)
      · have := hs.left_pos
        rw [if_neg (by simpa using hfits)]
        exact ih (hs.reject hle hfits) (by omega)
    · exact ⟨left, right, result, last, rfl, hs, not_le.mp hle⟩

/-- The greatest length from 1 to `maxModelLen` that fits, 0 if there is none, and the
configuration as it was. -/
def ExactEstimate (config : VllmConfig) (need : Nat → Int) (availableMemory : Int)
    (result : Nat × VllmConfig) : Prop :=
  (IsGreatest {n | 1 ≤ n ∧ n ≤ config.maxModelLen ∧ need n ≤ availableMemory} result.1 ∨
    result.1 = 0 ∧ ∀ n, 1 ≤ n → n ≤ config.maxModelLen → ¬ need n ≤ availableMemory) ∧
  result.2 = config

lemma setMaxModelLen_eq_iff {n : Nat} :
    ({ config with maxModelLen := n } : VllmConfig) = config ↔ n = config.maxModelLen :=
  ⟨fun h => congrArg VllmConfig.maxModelLen h, fun h => by subst h; rfl⟩

/-- The estimate ends. It is exact and leaves the configuration as it was if and only if the
maximal length is 1 or the length just below it fits. -/
theorem estimateMaxModelLen_exact_iff (h : Needs usage config kvCacheSpecs need)
    (availableMemory : Int) :
    ∃ result, estimateMaxModelLen usage config kvCacheSpecs availableMemory = .ok result ∧
      (ExactEstimate config need availableMemory result ↔ 1 ≤ config.maxModelLen ∧
        (config.maxModelLen = 1 ∨ need (config.maxModelLen - 1) ≤ availableMemory)) := by
  have hprobe : fitsInMemory usage kvCacheSpecs availableMemory
      { config with maxModelLen := config.maxModelLen } 1 =
        .ok (decide (need 1 ≤ availableMemory), { config with maxModelLen := 1 }) :=
    h.fitsInMemory config.maxModelLen 1
  unfold estimateMaxModelLen
  dsimp only
  rw [show fitsInMemory usage kvCacheSpecs availableMemory config 1 = _ from hprobe, ok_bind]
  by_cases hone : need 1 ≤ availableMemory
  · rw [if_pos (decide_eq_true hone)]
    rcases Nat.eq_zero_or_pos config.maxModelLen with hzero | hpos
    · refine ⟨(1, { config with maxModelLen := 1 }), by rw [hzero]; rfl, ?_⟩
      constructor
      · rintro ⟨-, hsame⟩
        have := setMaxModelLen_eq_iff.mp hsame
        omega
      · omega
    · have hfuel : config.maxModelLen + 1 < 1 + (config.maxModelLen + 1) := by omega
      obtain ⟨left, right, result, last, hrun, hs, hend⟩ :=
        h.searchModelLen (Searching.start hpos hone) hfuel
      have hclosed := h.closed availableMemory
      refine ⟨_, hrun, ?_⟩
      rw [ExactEstimate, setMaxModelLen_eq_iff, hs.last_eq_iff hend hclosed hpos]
      exact ⟨fun hexact => ⟨hpos, hexact.2⟩,
        fun hlen => ⟨Or.inl (hs.isGreatest hend hclosed hpos), hlen.2⟩⟩
  · rw [if_neg (by simpa using hone)]
    refine ⟨_, rfl, ?_⟩
    have hnone : ∀ n, 1 ≤ n → ¬ need n ≤ availableMemory :=
      fun n hn hfits => hone ((h.mono hn).trans hfits)
    constructor
    · rintro ⟨-, hsame⟩
      have := setMaxModelLen_eq_iff.mp hsame
      omega
    · rintro ⟨hpos, hlen⟩
      have hlen : config.maxModelLen = 1 := by
        rcases hlen with hlen | hfits
        · exact hlen
        · by_contra hne
          exact hnone _ (by omega) hfits
      exact ⟨Or.inr ⟨rfl, fun n hn _ => hnone n hn⟩, setMaxModelLen_eq_iff.mpr hlen.symm⟩

lemma cdiv_mono {a b c : Int} (hc : 0 < c) (h : a ≤ b) : cdiv a c ≤ cdiv b c := by
  rw [cdiv_eq hc, cdiv_eq hc]
  have := Int.ediv_le_ediv hc (neg_le_neg h)
  omega

/-- Pages of two tokens and four bytes. -/
def oneLayer : List KVCacheSpec :=
  [.fullAttention ⟨2, 1, 1, ⟨"uint8", 1⟩, false, Nat.two_pos⟩ none none]

def eightTokens : VllmConfig where
  maxModelLen := 8
  maxNumBatchedTokens := 8

/-- Two pages hold four tokens. The last probe was five, and five it stays. -/
theorem estimateMaxModelLen_leaves_probe :
    estimateMaxModelLen KVCacheSpec.maxMemoryUsageBytes eightTokens oneLayer 8 =
        .ok (4, { eightTokens with maxModelLen := 5 }) ∧
      ∀ need, ¬ ExactEstimate eightTokens need 8 (4, { eightTokens with maxModelLen := 5 }) :=
  ⟨by decide, fun _ h => absurd h.2 (by decide)⟩

lemma oneLayer_needs : Needs KVCacheSpec.maxMemoryUsageBytes eightTokens oneLayer
    fun n => cdiv n 2 * 4 where
  eq_ok n := by
    change Except.ok (cdiv n 2 * 4 + 0) = _
    rw [add_zero]
  mono m n hmn := mul_le_mul_of_nonneg_right (cdiv_mono two_pos (Int.ofNat_le.mpr hmn)) (by decide)

theorem estimateMaxModelLen_exact_iff_one_layer :
    ∃ result, estimateMaxModelLen KVCacheSpec.maxMemoryUsageBytes eightTokens oneLayer 8 =
        .ok result ∧
      (ExactEstimate eightTokens (fun n => cdiv n 2 * 4) 8 result ↔ 1 ≤ eightTokens.maxModelLen ∧
        (eightTokens.maxModelLen = 1 ∨
          (fun n : Nat => cdiv n 2 * 4) (eightTokens.maxModelLen - 1) ≤ 8)) :=
  estimateMaxModelLen_exact_iff oneLayer_needs 8

end VllmV1.Interface
