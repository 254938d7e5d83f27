import VllmMmaEmu.Worker.BatchRuns

/-!
# Constraints of a row

What a request prescribes for the sampling of its row, the sampling state seen row by row, and
what each operation makes of it. The sampling state of each row is that of its request, and so is
its row of the mask of the allowed tokens, which is apart since its rows are views. An operation
keeps this when it does not meet what an earlier request left behind: its prompt embeddings, its
flag, or a row of the mask that was copied and not cleared.
-/

namespace VllmV1.Worker

open Python

variable {F : Type} {fl : FloatOps F}

namespace CachedRequestState

def allowedTokenIds (r : CachedRequestState F) : List Nat :=
  (r.samplingParams.bind (·.allowedTokenIds)).getD []

/-- A request that names the allowed tokens bans all others. -/
def bans (r : CachedRequestState F) (t : Nat) : Bool :=
  decide (r.allowedTokenIds ≠ [] ∧ t ∉ r.allowedTokenIds)

def ownGenerator (r : CachedRequestState F) : Option Nat := r.samplingParams.bind fun _ => r.generator

def ownBadWords (r : CachedRequestState F) : Option (List (List Int)) :=
  (r.samplingParams.bind (·.badWordsTokenIds)).filter (¬ ·.isEmpty)

def needsTokenIds (r : CachedRequestState F) : Bool :=
  match r.samplingParams, r.poolingParams with
  | none, some pooling => pooling.requiresTokenIds
  | _, _ => false

lemma bans_of_allowed_nil {r : CachedRequestState F} (h : r.allowedTokenIds = []) (t : Nat) :
    r.bans t = false := by
  rw [bans, h]
  rfl

end CachedRequestState

structure RowSampling (F : Type) where
  temperature : F
  topP : F
  topK : Int
  frequencyPenalty : F
  presencePenalty : F
  repetitionPenalty : F
  numAcceptedTokens : Nat
  generator : Option Nat
  badWordsTokenIds : Option (List (List Int))
  promptEmbeds : Option (List (List F))
  needsTokenIds : Bool

def InputBatch.rowSampling (b : InputBatch F) (i : Nat) : RowSampling F where
  temperature := b.temperatureCpu i
  topP := b.topPCpu i
  topK := b.topKCpu i
  frequencyPenalty := b.frequencyPenaltiesCpu i
  presencePenalty := b.presencePenaltiesCpu i
  repetitionPenalty := b.repetitionPenaltiesCpu i
  numAcceptedTokens := b.numAcceptedTokensCpu i
  generator := b.generators.get? i
  badWordsTokenIds := b.badWordsTokenIds.get? i
  promptEmbeds := b.reqPromptEmbeds.get? i
  needsTokenIds := b.logitsProcessingNeedsTokenIds i

namespace RowSampling

/-- The numbers of the sampling parameters, as the arrays hold them. -/
structure Stores (fl : FloatOps F) (vocabSize : Nat) (d : RowSampling F)
    (params : SamplingParams F) : Prop where
  temperature :
    d.temperature = if params.greedy then fl.zero else fl.toFloat32 params.temperature
  topP : d.topP = fl.toFloat32 params.topP
  topK : d.topK =
    if 0 < params.topK ∧ params.topK < vocabSize then params.topK else (vocabSize : Int)
  frequencyPenalty : d.frequencyPenalty = fl.toFloat32 params.frequencyPenalty
  presencePenalty : d.presencePenalty = fl.toFloat32 params.presencePenalty
  repetitionPenalty : d.repetitionPenalty = fl.toFloat32 params.repetitionPenalty

/-- A row has the sampling state that the request prescribes. -/
structure Carries (fl : FloatOps F) (vocabSize : Nat) (numAccepted : String → Nat)
    (d : RowSampling F) (r : CachedRequestState F) : Prop where
  params : ∀ params, r.samplingParams = some params → Stores fl vocabSize d params
  numAcceptedTokens : d.numAcceptedTokens = numAccepted r.reqId
  generator : d.generator = r.ownGenerator
  badWordsTokenIds : d.badWordsTokenIds = r.ownBadWords
  promptEmbeds : d.promptEmbeds = r.promptEmbeds
  needsTokenIds : d.needsTokenIds = r.needsTokenIds

/-- An empty row has neither a generator nor bad words. It may have the prompt embeddings and
the flag of a request that was there. -/
def Allowed (fl : FloatOps F) (vocabSize : Nat) (numAccepted : String → Nat) (d : RowSampling F) :
    Option (CachedRequestState F) → Prop
  | some r => Carries fl vocabSize numAccepted d r
  | none => d.generator = none ∧ d.badWordsTokenIds = none

end RowSampling

lemma get?_setIfGiven {V : Type} (d : Dict Nat V) (k : Nat) (v : Option V) :
    (setIfGiven d k v).get? k = v.or (d.get? k) ∧
      ∀ k', k' ≠ k → (setIfGiven d k v).get? k' = d.get? k' := by
  cases v with
  | none => exact ⟨rfl, fun _ _ => rfl⟩
  | some v => exact ⟨Dict.get?_set_self d k v, fun k' hk' => Dict.get?_set_of_ne (Ne.symm hk') d v⟩

lemma get?_setOrPop {V : Type} (d : Dict Nat V) (k k' : Nat) (v : Option V) :
    (setOrPop d k v).get? k' = if k = k' then v else d.get? k' := by
  cases v with
  | none => exact Dict.get?_erase d k k'
  | some v => exact Dict.get?_set d k k' v

lemma get?_swapDictValues {V : Type} (d : Dict Nat V) (i j k : Nat) :
    (swapDictValues d i j).get? k = Rows.swap d.get? i j k := by
  rw [swapDictValues, get?_setOrPop, get?_setOrPop, Rows.swap_apply]
  by_cases hki : k = i
  · subst hki
    by_cases hkj : k = j
    · simp [hkj]
    · simp [hkj]
  · by_cases hkj : k = j
    · simp [hkj, Ne.symm (hkj ▸ hki)]
    · simp [hki, hkj, Ne.symm hki, Ne.symm hkj]

lemma get?_moveDictEntry {V : Type} (d : Dict Nat V) {src tgt : Nat} (hne : src ≠ tgt) (k : Nat) :
    (InputBatch.moveDictEntry d src tgt).get? k =
      if k = src then none else if k = tgt then (d.get? src).or (d.get? tgt) else d.get? k := by
  unfold InputBatch.moveDictEntry
  cases hsrc : d.get? src with
  | none =>
    split_ifs with hk hk
    · rw [hk, hsrc]
    · rw [hk, Option.none_or]
    · rfl
  | some v =>
    rw [Dict.get?_set, Dict.get?_erase, Option.some_or]
    by_cases hk : k = src
    · simp [hk, hne.symm]
    · simp [hk, Ne.symm hk, eq_comm]

/-- As far as the vocabulary goes, a row of the mask is true for the tokens that its request
bans. Without a mask no request bans any. -/
structure MaskLinked (vocabSize : Nat) (mask : Option (Nat → Nat → Bool)) (rows : Seats F) :
    Prop where
  row : ∀ m, mask = some m → ∀ i r, rows i = some r → ∀ t < vocabSize, m i t = r.bans t
  unused : mask = none → ∀ i r, rows i = some r → r.allowedTokenIds = []

namespace MaskLinked

variable {vocabSize i j src tgt : Nat} {mask : Option (Nat → Nat → Bool)} {rows : Seats F}
  {r r' : CachedRequestState F}

lemma leave (h : MaskLinked vocabSize mask rows) :
    MaskLinked vocabSize mask (Function.update rows i none) := by
  have hold : ∀ k r, Function.update rows i none k = some r → rows k = some r := by
    intro k r hk
    rcases Rows.update_eq_some hk with ⟨-, hnone⟩ | ⟨-, hk⟩
    · cases hnone
    · exact hk
  exact ⟨fun m hm k r hk => h.row m hm k r (hold k r hk),
    fun hm k r hk => h.unused hm k r (hold k r hk)⟩

lemma clear (h : MaskLinked vocabSize mask rows) (hi : rows i = none) :
    MaskLinked vocabSize (mask.map fun m => Function.update m i fun _ => false) rows := by
  refine ⟨fun m hm k r hk t ht => ?_, fun hm => h.unused (Option.map_eq_none_iff.mp hm)⟩
  obtain ⟨m₀, hm₀, rfl⟩ := Option.map_eq_some_iff.mp hm
  have hki : k ≠ i := fun heq => by
    rw [heq, hi] at hk
    cases hk
  rw [Function.update_of_ne hki]
  exact h.row m₀ hm₀ k r hk t ht

lemma replace (h : MaskLinked vocabSize mask rows) (hi : rows i = some r)
    (hallowed : r'.allowedTokenIds = r.allowedTokenIds) :
    MaskLinked vocabSize mask (Function.update rows i (some r')) := by
  have hbans : r'.bans = r.bans := by
    funext t
    rw [CachedRequestState.bans, CachedRequestState.bans, hallowed]
  refine ⟨fun m hm k q hk => ?_, fun hm k q hk => ?_⟩
  · rcases Rows.update_eq_some hk with ⟨rfl, hq⟩ | ⟨-, hk⟩
    · obtain rfl := Option.some.inj hq
      rw [hbans]
      exact h.row m hm k r hi
    · exact h.row m hm k q hk
  · rcases Rows.update_eq_some hk with ⟨rfl, hq⟩ | ⟨-, hk⟩
    · obtain rfl := Option.some.inj hq
      exact hallowed.trans (h.unused hm k r hi)
    · exact h.unused hm k q hk

/-- A request without allowed tokens takes a row that bans nothing. -/
lemma add_none (h : MaskLinked vocabSize mask rows) (hr : r.allowedTokenIds = [])
    (hclean : ∀ m, mask = some m → ∀ t < vocabSize, m i t = false) :
    MaskLinked vocabSize mask (Function.update rows i (some r)) := by
  refine ⟨fun m hm k q hk t ht => ?_, fun hm k q hk => ?_⟩
  · rcases Rows.update_eq_some hk with ⟨rfl, hq⟩ | ⟨-, hk⟩
    · obtain rfl := Option.some.inj hq
      rw [CachedRequestState.bans_of_allowed_nil hr, hclean m hm t ht]
    · exact h.row m hm k q hk t ht
  · rcases Rows.update_eq_some hk with ⟨rfl, hq⟩ | ⟨-, hk⟩
    · obtain rfl := Option.some.inj hq
      exact hr
    · exact h.unused hm k q hk

/-- A request with allowed tokens writes its row, and the first one allocates the mask. -/
lemma add_some (h : MaskLinked vocabSize mask rows) (hr : r.allowedTokenIds ≠ []) :
    MaskLinked vocabSize (some (Function.update (mask.getD fun _ _ => false) i fun t =>
      decide (t ∉ r.allowedTokenIds))) (Function.update rows i (some r)) := by
  refine ⟨fun m hm k q hk t ht => ?_, fun hm => (nomatch hm)⟩
  obtain rfl := Option.some.inj hm
  rcases Rows.update_eq_some hk with ⟨rfl, hq⟩ | ⟨hki, hk⟩
  · obtain rfl := Option.some.inj hq
    rw [Function.update_self, CachedRequestState.bans]
    simp [hr]
  · rw [Function.update_of_ne hki]
    cases hmask : mask with
    | none => rw [CachedRequestState.bans_of_allowed_nil (h.unused hmask k q hk)]; rfl
    | some m => exact h.row m hmask k q hk t ht

lemma move (h : MaskLinked vocabSize mask rows) :
    MaskLinked vocabSize (mask.map fun m => Rows.move m src tgt)
      (Rows.moveOccupant rows src tgt) := by
  refine ⟨fun m hm k q hk t ht => ?_, fun hm k q hk => ?_⟩
  · obtain ⟨m₀, hm₀, rfl⟩ := Option.map_eq_some_iff.mp hm
    rw [Rows.move]
    rcases Rows.moveOccupant_eq_some hk with ⟨rfl, hq⟩ | ⟨hkt, hq⟩
    · rw [Function.update_self]
      exact h.row m₀ hm₀ src q hq t ht
    · rw [Function.update_of_ne hkt]
      exact h.row m₀ hm₀ k q hq t ht
  · have hnone := Option.map_eq_none_iff.mp hm
    rcases Rows.moveOccupant_eq_some hk with ⟨-, hq⟩ | ⟨-, hq⟩
    · exact h.unused hnone src q hq
    · exact h.unused hnone k q hq

/-- Rows that are equal as far as the vocabulary goes can be swapped through views. -/
lemma swap (h : MaskLinked vocabSize mask rows)
    (hclean : ∀ m, mask = some m → ∀ t < vocabSize, m i t = m j t) :
    MaskLinked vocabSize (mask.map fun m => Rows.swapViews m i j) (Rows.swap rows i j) := by
  refine ⟨fun m hm k q hk t ht => ?_, fun hm k q hk => ?_⟩
  · obtain ⟨m₀, hm₀, rfl⟩ := Option.map_eq_some_iff.mp hm
    rw [Rows.swap_apply] at hk
    simp only [Rows.swapViews, Function.update_self]
    split_ifs at hk with hkj hki
    · rw [hkj, Function.update_self, ← hclean m₀ hm₀ t ht]
      exact h.row m₀ hm₀ i q hk t ht
    · rw [Function.update_of_ne hkj, hki, Function.update_self]
      exact h.row m₀ hm₀ j q hk t ht
    · rw [Function.update_of_ne hkj, Function.update_of_ne hki]
      exact h.row m₀ hm₀ k q hk t ht
  · have hnone := Option.map_eq_none_iff.mp hm
    rw [Rows.swap_apply] at hk
    split_ifs at hk
    · exact h.unused hnone i q hk
    · exact h.unused hnone j q hk
    · exact h.unused hnone k q hk

end MaskLinked

end VllmV1.Worker
