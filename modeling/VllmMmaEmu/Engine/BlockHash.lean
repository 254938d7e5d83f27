import VllmMmaEmu.Engine.Request
import VllmMmaEmu.Library.PrefixCode

/-!
# Block hashes of a request

`vllm/v1/core/kv_cache_utils.py`: the hash of a full block chains the hash of the block
before it, the block's tokens and extra keys (LoRA id, multimodal inputs, cache salt). What the
results expect of the hash function can be met: the input itself, written out in bytes, is a hash
without collisions.
-/

namespace VllmV1

open Python PrefixCode

/-- An entry of the tuple of extra keys: the LoRA id is an `int`, the rest are `str`. -/
inductive ExtraKey where
  | int (i : Int)
  | str (s : String)
  deriving DecidableEq, Repr

/-- What the hash function is applied to. -/
abbrev HashInput := BlockHash × List Int × Option (List ExtraKey)

/-- The `while` loop of `_gen_mm_extra_hash_keys` over the features from the cursor on. -/
def mmExtraHashKeysLoop (startTokenIdx endTokenIdx : Nat) :
    List MultiModalFeatureSpec → Int → List ExtraKey × Int
  | [], currMmIdx => ([], currMmIdx)
  | f :: rest, currMmIdx =>
    if endTokenIdx > f.mmPosition.offset then
      if startTokenIdx > f.mmPosition.stop then
        -- the block has passed this input
        mmExtraHashKeysLoop startTokenIdx endTokenIdx rest (currMmIdx + 1)
      else if endTokenIdx ≥ f.mmPosition.stop then
        let next := mmExtraHashKeysLoop startTokenIdx endTokenIdx rest (currMmIdx + 1)
        (.str f.identifier :: next.1, next.2)
      else ([.str f.identifier], currMmIdx)
    else ([], currMmIdx)

/-- `_gen_mm_extra_hash_keys`. A negative cursor counts from the end of the features. -/
def genMmExtraHashKeys (request : Request) (startTokenIdx endTokenIdx : Nat)
    (startMmIdx : Int) : Except PyError (List ExtraKey × Int) :=
  match request.mmFeatures.getLast? with
  | none => .ok ([], startMmIdx)
  | some last =>
    if last.mmPosition.stop < startTokenIdx then .ok ([], startMmIdx)
    else do
      let currMmIdx ←
        if startMmIdx < 0 then do
          pyAssert (-startMmIdx ≤ request.mmFeatures.length)
          pure (request.mmFeatures.length + startMmIdx)
        else pure startMmIdx
      return mmExtraHashKeysLoop startTokenIdx endTokenIdx
        (request.mmFeatures.drop currMmIdx.toNat) currMmIdx

def genLoraExtraHashKeys (request : Request) : List ExtraKey :=
  match request.loraRequest with
  | none => []
  | some loraIntId => [.int loraIntId]

/-- The salt of the first block; an empty salt is no salt. -/
def cacheSaltKeys (request : Request) (startTokenIdx : Nat) : List ExtraKey :=
  match request.cacheSalt with
  | none => []
  | some salt => if startTokenIdx = 0 ∧ salt ≠ "" then [.str salt] else []

def extraKeysTuple (keys : List ExtraKey) : Option (List ExtraKey) :=
  if keys = [] then none else some keys

def generateBlockHashExtraKeys (request : Request) (startTokenIdx endTokenIdx : Nat)
    (startMmIdx : Int) : Except PyError (Option (List ExtraKey) × Int) := do
  let (mmExtraKeys, newStartMmIdx) ←
    genMmExtraHashKeys request startTokenIdx endTokenIdx startMmIdx
  return (extraKeysTuple (genLoraExtraHashKeys request ++ mmExtraKeys
    ++ cacheSaltKeys request startTokenIdx), newStartMmIdx)

/-- The functions and the constant that block hashing is configured with. -/
structure HashConfig where
  blockSize : Nat
  cachingHashFn : HashInput → BlockHash
  noneHash : BlockHash

/-- `hash_block_tokens`: a missing or empty parent stands for `NONE_HASH`. -/
def hashBlockTokens (cfg : HashConfig) (parentBlockHash : Option BlockHash)
    (currBlockTokenIds : List Int) (extraKeys : Option (List ExtraKey)) : BlockHash :=
  let parent := match parentBlockHash with
    | none => cfg.noneHash
    | some h => if h = [] then cfg.noneHash else h
  cfg.cachingHashFn (parent, currBlockTokenIds, extraKeys)

/-- The `while True` loop of `request_block_hasher`. -/
def requestBlockHasherLoop (cfg : HashConfig) (request : Request) :
    (fuel startTokenIdx : Nat) → (currMmIdx : Int) → (prev : Option BlockHash) →
      Except PyError (List BlockHash)
  | 0, _, _, _ => .error .outOfFuel
  | fuel + 1, startTokenIdx, currMmIdx, prev =>
    let endTokenIdx := startTokenIdx + cfg.blockSize
    -- only full blocks are hashed
    if endTokenIdx > request.numTokens then .ok []
    else do
      let (extraKeys, currMmIdx) ←
        generateBlockHashExtraKeys request startTokenIdx endTokenIdx currMmIdx
      let blockHash := hashBlockTokens cfg prev
        (slice request.allTokenIds startTokenIdx endTokenIdx) extraKeys
      let rest ← requestBlockHasherLoop cfg request fuel endTokenIdx currMmIdx (some blockHash)
      return blockHash :: rest

/-- `request_block_hasher`: the cursor restarts at the last feature when some blocks
are hashed already. -/
def requestBlockHasher (cfg : HashConfig) : Request.BlockHasher := fun request =>
  let startTokenIdx := request.blockHashes.length * cfg.blockSize
  let currMmIdx : Int := if startTokenIdx > 0 then -1 else 0
  requestBlockHasherLoop cfg request (request.numTokens + 1) startTokenIdx currMmIdx
    request.blockHashes.getLast?

/-- What is expected of the hash function: different inputs have different hashes, and a
hash is neither `NONE_HASH` nor empty. -/
structure HashConfig.CollisionFree (cfg : HashConfig) : Prop where
  injective : Function.Injective cfg.cachingHashFn
  ne_noneHash : ∀ x, cfg.cachingHashFn x ≠ cfg.noneHash
  ne_nil : ∀ x, cfg.cachingHashFn x ≠ []

def extraKeyCode : ExtraKey → List UInt8
  | .int i => sumCode intCode stringCode (.inl i)
  | .str s => sumCode intCode stringCode (.inr s)

lemma extraKeyCode_readable : Readable extraKeyCode := by
  have h := sumCode_readable intCode_readable stringCode_readable
  rintro (i | s) (j | t) r r' hab
  · obtain ⟨heq, hrest⟩ := h (.inl i) (.inl j) r r' hab
    exact ⟨congrArg ExtraKey.int (Sum.inl.inj heq), hrest⟩
  · exact absurd (h (.inl i) (.inr t) r r' hab).1 (by simp)
  · exact absurd (h (.inr s) (.inl j) r r' hab).1 (by simp)
  · obtain ⟨heq, hrest⟩ := h (.inr s) (.inr t) r r' hab
    exact ⟨congrArg ExtraKey.str (Sum.inr.inj heq), hrest⟩

/-- The parent, the tokens and the keys, written out. -/
def plainHash : HashInput → BlockHash :=
  pairCode (listCode byteCode) (pairCode (listCode intCode) (optionCode (listCode extraKeyCode)))

lemma plainHash_injective : Function.Injective plainHash :=
  (pairCode_readable (listCode_readable byteCode_readable)
    (pairCode_readable (listCode_readable intCode_readable)
      (optionCode_readable (listCode_readable extraKeyCode_readable)))).injective

/-- Hashing with `plainHash`; no code starts with a two. -/
def plainHashing (blockSize : Nat) : HashConfig := ⟨blockSize, plainHash, [2]⟩

lemma plainHashing_collisionFree (blockSize : Nat) : (plainHashing blockSize).CollisionFree where
  injective := plainHash_injective
  ne_noneHash := by
    rintro ⟨parent, rest⟩ h
    cases parent with
    | nil => exact absurd (List.cons.inj h).1 (by decide)
    | cons b parent => exact absurd (List.cons.inj h).1 (by decide)
  ne_nil := by
    rintro ⟨parent, rest⟩ h
    cases parent <;> cases h

end VllmV1
