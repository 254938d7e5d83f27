import VllmMmaEmu.Engine.Request
import VllmMmaEmu.Library.Dict

/-!
# The encoder cache

`vllm/v1/core/encoder_cache_manager.py`: which encoder outputs are stored, who refers to
them, and which of them may be evicted. A set of request ids is a list without repetitions.
-/

namespace VllmV1

open Python

structure EncoderCacheManager where
  cacheSize : Int
  numFreeSlots : Int
  numFreeableSlots : Int
  cached : Dict String (List String)
  freeable : Dict String Int
  freed : List String

namespace EncoderCacheManager

def init (cacheSize : Int) : EncoderCacheManager where
  cacheSize := cacheSize
  numFreeSlots := cacheSize
  numFreeableSlots := cacheSize
  cached := Dict.empty
  freeable := Dict.empty
  freed := []

/-- The branch of `check_and_update_cache` for a stored output. -/
def takeReference (m : EncoderCacheManager) (requestId mmHash : String)
    (references : List String) : Except PyError EncoderCacheManager :=
  if references = [] then
    -- nobody refers to the output yet, so it is in `freeable`
    match m.freeable.get? mmHash with
    | none => .error .keyError
    | some numTokens => .ok { m with
        freeable := m.freeable.erase mmHash
        numFreeableSlots := m.numFreeableSlots - numTokens
        cached := m.cached.set mmHash [requestId] }
  else .ok { m with cached := m.cached.set mmHash (references.insert requestId) }

def checkAndUpdateCache (m : EncoderCacheManager) (requestId : String)
    (feature : MultiModalFeatureSpec) : Except PyError (Bool × EncoderCacheManager) :=
  match m.cached.get? feature.identifier with
  | none => .ok (false, m)
  | some references => do
    let m ← m.takeReference requestId feature.identifier references
    return (true, m)

/-- The eviction loop of `can_allocate` over the entries of `freeable`, oldest first. -/
def evictLoop (numTokens : Int) (m : EncoderCacheManager) :
    List (String × Int) → Except PyError EncoderCacheManager
  | [] => if numTokens > m.numFreeSlots then .error .keyError else .ok m
  | (mmHash, numFreeToken) :: rest =>
    if numTokens > m.numFreeSlots then
      if mmHash ∈ m.cached.keys then
        evictLoop numTokens { m with
          freeable := m.freeable.erase mmHash
          cached := m.cached.erase mmHash
          freed := m.freed ++ [mmHash]
          numFreeSlots := m.numFreeSlots + numFreeToken } rest
      else .error .keyError
    else .ok m

def canAllocate (m : EncoderCacheManager) (feature : MultiModalFeatureSpec)
    (encoderComputeBudget numTokensToSchedule : Int) :
    Except PyError (Bool × EncoderCacheManager) :=
  let numTokens : Int := feature.mmPosition.length
  if numTokens > encoderComputeBudget then .ok (false, m)
  else if numTokens + numTokensToSchedule ≤ m.numFreeSlots then .ok (true, m)
  else if numTokens + numTokensToSchedule > m.numFreeableSlots then .ok (false, m)
  else do
    let m ← evictLoop (numTokens + numTokensToSchedule) m m.freeable.entries
    return (true, m)

def allocate (m : EncoderCacheManager) (requestId : String) (feature : MultiModalFeatureSpec) :
    Except PyError EncoderCacheManager := do
  let numEncoderTokens : Int := feature.mmPosition.length
  pyAssert (m.numFreeSlots ≥ numEncoderTokens)
  pyAssert (m.numFreeableSlots ≥ numEncoderTokens)
  return { m with
    cached := m.cached.set feature.identifier
      (((m.cached.get? feature.identifier).getD []).insert requestId)
    numFreeSlots := m.numFreeSlots - numEncoderTokens
    numFreeableSlots := m.numFreeableSlots - numEncoderTokens }

/-- `get_cached_input_ids`, as the features with these ids. -/
def getCachedInputs (m : EncoderCacheManager) (request : Request) : List MultiModalFeatureSpec :=
  request.mmFeatures.filter fun feature => feature.identifier ∈ m.cached.keys

def freeEncoderInput (m : EncoderCacheManager) (requestId : String)
    (feature : MultiModalFeatureSpec) : EncoderCacheManager :=
  let references := (m.cached.get? feature.identifier).getD []
  if references = [] then m
  else
    let references := references.erase requestId
    let m := { m with cached := m.cached.set feature.identifier references }
    if references = [] then { m with
      freeable := m.freeable.set feature.identifier feature.mmPosition.length
      numFreeableSlots := m.numFreeableSlots + feature.mmPosition.length }
    else m

def free (m : EncoderCacheManager) (request : Request) : EncoderCacheManager :=
  (m.getCachedInputs request).foldl (fun m feature => m.freeEncoderInput request.requestId feature) m

def getFreedMmHashes (m : EncoderCacheManager) : List String × EncoderCacheManager :=
  (m.freed, { m with freed := [] })

end EncoderCacheManager

/-- The parts of the configuration that the encoder inputs depend on. -/
structure EncoderConfig where
  isEncoderDecoder : Bool := false
  disableChunkedMmInput : Bool := false
  deriving DecidableEq, Repr

/-- The variables of the loop of `_try_schedule_encoder_inputs`. -/
structure EncoderInputs where
  encoderInputsToSchedule : List Nat
  numNewTokens : Int
  encoderComputeBudget : Int
  mmHashesToSchedule : List String
  numTokensToSchedule : Int
  manager : EncoderCacheManager

namespace EncoderInputs

/-- Whether the input is in the cache already: an input of this step or of an earlier one.
Encoder-decoder models do not use the cache. -/
def isCached (cfg : EncoderConfig) (requestId : String) (feature : MultiModalFeatureSpec)
    (e : EncoderInputs) : Except PyError (Bool × EncoderCacheManager) :=
  if cfg.isEncoderDecoder then .ok (false, e.manager)
  else if feature.identifier ∈ e.mmHashesToSchedule then .ok (true, e.manager)
  else e.manager.checkAndUpdateCache requestId feature

/-- The input is scheduled if the cache has room for it, else the tokens stop before it. The
flag tells whether the loop goes on. -/
def placeIfRoom (numComputedTokens : Int) (i : Nat) (feature : MultiModalFeatureSpec)
    (e : EncoderInputs) : Except PyError (Bool × EncoderInputs) := do
  let (fits, manager) ← e.manager.canAllocate feature e.encoderComputeBudget e.numTokensToSchedule
  let startPos : Int := feature.mmPosition.offset
  let numEncoderTokens : Int := feature.mmPosition.length
  if fits then return (true, { e with
    manager := manager
    encoderInputsToSchedule := e.encoderInputsToSchedule ++ [i]
    encoderComputeBudget := e.encoderComputeBudget - numEncoderTokens
    mmHashesToSchedule := e.mmHashesToSchedule.insert feature.identifier
    numTokensToSchedule := e.numTokensToSchedule + numEncoderTokens })
  else if numComputedTokens < startPos then
    return (false, { e with manager := manager, numNewTokens := startPos - numComputedTokens })
  else return (false, { e with manager := manager, numNewTokens := 0 })

/-- An input that may not be chunked is not started when the step ends within it. -/
def placeInput (cfg : EncoderConfig) (numComputedTokens : Int) (i : Nat)
    (feature : MultiModalFeatureSpec) (e : EncoderInputs) :
    Except PyError (Bool × EncoderInputs) :=
  let startPos : Int := feature.mmPosition.offset
  if cfg.disableChunkedMmInput ∧ numComputedTokens < startPos ∧
      numComputedTokens + e.numNewTokens < startPos + feature.mmPosition.length then
    .ok (false, { e with numNewTokens := startPos - numComputedTokens })
  else placeIfRoom numComputedTokens i feature e

/-- The loop of `_try_schedule_encoder_inputs` over the features and their indices. -/
def scheduleLoop (cfg : EncoderConfig) (requestId : String) (numComputedTokens : Int) :
    EncoderInputs → List (MultiModalFeatureSpec × Nat) → Except PyError EncoderInputs
  | e, [] => .ok e
  | e, (feature, i) :: rest =>
    let startPos : Int := feature.mmPosition.offset
    if startPos ≥ numComputedTokens + e.numNewTokens then .ok e
    else if cfg.isEncoderDecoder ∧ numComputedTokens > 0 then
      if startPos = 0 then scheduleLoop cfg requestId numComputedTokens e rest
      else .error .assertionError
    else if startPos + feature.mmPosition.length ≤ numComputedTokens then
      scheduleLoop cfg requestId numComputedTokens e rest
    else do
      let (cached, manager) ← isCached cfg requestId feature e
      let e := { e with manager := manager }
      if cached then scheduleLoop cfg requestId numComputedTokens e rest
      else do
        let (goOn, e) ← placeInput cfg numComputedTokens i feature e
        if goOn then scheduleLoop cfg requestId numComputedTokens e rest else return e

end EncoderInputs

def tryScheduleEncoderInputs (cfg : EncoderConfig) (manager : EncoderCacheManager)
    (request : Request) (numComputedTokens numNewTokens encoderComputeBudget : Int) :
    Except PyError EncoderInputs :=
  let e : EncoderInputs :=
    { encoderInputsToSchedule := []
      numNewTokens := numNewTokens
      encoderComputeBudget := encoderComputeBudget
      mmHashesToSchedule := []
      numTokensToSchedule := 0
      manager := manager }
  if numNewTokens = 0 ∨ request.mmFeatures = [] then .ok e
  else EncoderInputs.scheduleLoop cfg request.requestId numComputedTokens e
    request.mmFeatures.zipIdx

/-- `_free_encoder_inputs`: the inputs that the decoder has passed. -/
def freeEncoderInputs (cfg : EncoderConfig) (manager : EncoderCacheManager) (request : Request) :
    EncoderCacheManager :=
  (manager.getCachedInputs request).foldl (fun m feature =>
    if cfg.isEncoderDecoder ∧ request.numComputedTokens > 0 then
      m.freeEncoderInput request.requestId feature
    else if feature.mmPosition.stop ≤ request.numComputedTokens then
      m.freeEncoderInput request.requestId feature
    else m) manager

/-- The tokens of a step after the encoder inputs had their say: all of them, or fewer and
not below zero. -/
def Reduced (n n' : Int) : Prop := n' = n ∨ 0 ≤ n' ∧ n' ≤ n ∨ n' = 0

lemma Reduced.refl (n : Int) : Reduced n n := Or.inl rfl

namespace EncoderInputs

variable {cfg : EncoderConfig} {requestId : String} {numComputedTokens : Int}
  {e e' : EncoderInputs}

lemma placeIfRoom_reduced {i : Nat} {feature : MultiModalFeatureSpec} {goOn : Bool}
    (hrange : (feature.mmPosition.offset : Int) < numComputedTokens + e.numNewTokens)
    (h : placeIfRoom numComputedTokens i feature e = .ok (goOn, e')) :
    (goOn = true → e'.numNewTokens = e.numNewTokens) ∧ Reduced e.numNewTokens e'.numNewTokens := by
  obtain ⟨⟨fits, manager⟩, -, hrest⟩ := bind_eq_ok.mp h
  simp only at hrest
  split_ifs at hrest
  · obtain ⟨rfl, rfl⟩ := Prod.mk.inj (Except.ok.inj hrest)
    exact ⟨fun _ => rfl, Reduced.refl _⟩
  · obtain ⟨rfl, rfl⟩ := Prod.mk.inj (Except.ok.inj hrest)
    refine ⟨fun hgo => Bool.noConfusion hgo, Or.inr (Or.inl ?_)⟩
    constructor <;> simp only <;> omega
  · obtain ⟨rfl, rfl⟩ := Prod.mk.inj (Except.ok.inj hrest)
    exact ⟨fun hgo => Bool.noConfusion hgo, Or.inr (Or.inr rfl)⟩

lemma placeInput_reduced {i : Nat} {feature : MultiModalFeatureSpec} {goOn : Bool}
    (hrange : (feature.mmPosition.offset : Int) < numComputedTokens + e.numNewTokens)
    (h : placeInput cfg numComputedTokens i feature e = .ok (goOn, e')) :
    (goOn = true → e'.numNewTokens = e.numNewTokens) ∧ Reduced e.numNewTokens e'.numNewTokens := by
  simp only [placeInput] at h
  split_ifs at h with hchunk
  · obtain ⟨rfl, rfl⟩ := Prod.mk.inj (Except.ok.inj h)
    refine ⟨fun hgo => Bool.noConfusion hgo, Or.inr (Or.inl ?_)⟩
    constructor <;> simp only <;> omega
  · exact placeIfRoom_reduced hrange h

lemma scheduleLoop_reduced {features : List (MultiModalFeatureSpec × Nat)}
    (h : scheduleLoop cfg requestId numComputedTokens e features = .ok e') :
    Reduced e.numNewTokens e'.numNewTokens := by
  induction features generalizing e with
  | nil =>
    obtain rfl := Except.ok.inj h
    exact Reduced.refl _
  | cons head rest ih =>
    obtain ⟨feature, i⟩ := head
    simp only [scheduleLoop] at h
    split_ifs at h with hstop
    · obtain rfl := Except.ok.inj h
      exact Reduced.refl _
    · exact ih h
    · exact ih h
    · obtain ⟨⟨cached, manager⟩, -, hrest⟩ := bind_eq_ok.mp h
      simp only at hrest
      split_ifs at hrest
      · have hreduced := ih hrest
        exact hreduced
      · obtain ⟨⟨goOn, placed⟩, hplace, hrest⟩ := bind_eq_ok.mp hrest
        have hrange := not_le.mp hstop
        obtain ⟨hsame, hreduced⟩ := placeInput_reduced
          (e := { e with manager := manager }) hrange hplace
        simp only at hrest
        split_ifs at hrest with hgo
        · have htail := ih hrest
          rwa [hsame hgo] at htail
        · obtain rfl := Except.ok.inj hrest
          exact hreduced

end EncoderInputs

lemma tryScheduleEncoderInputs_reduced {cfg : EncoderConfig} {manager : EncoderCacheManager}
    {request : Request} {numComputedTokens numNewTokens encoderComputeBudget : Int}
    {e : EncoderInputs} (h : tryScheduleEncoderInputs cfg manager request numComputedTokens
      numNewTokens encoderComputeBudget = .ok e) : Reduced numNewTokens e.numNewTokens := by
  simp only [tryScheduleEncoderInputs] at h
  split_ifs at h
  · obtain rfl := Except.ok.inj h
    exact Reduced.refl _
  · exact EncoderInputs.scheduleLoop_reduced h

namespace EncoderInputs

variable {cfg : EncoderConfig} {requestId : String} {e : EncoderInputs}
  {feature : MultiModalFeatureSpec}

lemma isCached_asserts : isCached cfg requestId feature e ≠ .error .assertionError := by
  unfold isCached EncoderCacheManager.checkAndUpdateCache
  split_ifs
  · exact nofun
  · exact nofun
  · split
    · exact nofun
    · refine bind_ne_error ?_ fun _ _ => nofun
      unfold EncoderCacheManager.takeReference
      split_ifs
      · split <;> exact nofun
      · exact nofun

lemma evictLoop_asserts {numTokens : Int} {m : EncoderCacheManager}
    {entries : List (String × Int)} :
    m.evictLoop numTokens entries ≠ .error .assertionError := by
  induction entries generalizing m with
  | nil =>
    unfold EncoderCacheManager.evictLoop
    split_ifs <;> exact nofun
  | cons entry rest ih =>
    unfold EncoderCacheManager.evictLoop
    split_ifs
    · exact ih
    · exact nofun
    · exact nofun

lemma placeInput_asserts {numComputedTokens : Int} {i : Nat} :
    placeInput cfg numComputedTokens i feature e ≠ .error .assertionError := by
  simp only [placeInput]
  split_ifs
  · exact nofun
  · refine bind_ne_error ?_ fun p _ => ?_
    · simp only [EncoderCacheManager.canAllocate]
      split_ifs
      · exact nofun
      · exact nofun
      · exact nofun
      · exact bind_ne_error evictLoop_asserts fun _ _ => nofun
    · simp only
      split_ifs <;> exact nofun

lemma scheduleLoop_asserts {numComputedTokens : Int}
    {features : List (MultiModalFeatureSpec × Nat)}
    (hstart : cfg.isEncoderDecoder = true → ∀ p ∈ features, p.1.mmPosition.offset = 0) :
    scheduleLoop cfg requestId numComputedTokens e features ≠ .error .assertionError := by
  induction features generalizing e with
  | nil => exact nofun
  | cons head rest ih =>
    obtain ⟨feature, i⟩ := head
    have hrest : ∀ e, scheduleLoop cfg requestId numComputedTokens e rest ≠
        .error .assertionError := fun e =>
      ih fun hdecoder p hp => hstart hdecoder p (List.mem_cons_of_mem _ hp)
    simp only [scheduleLoop]
    split_ifs with hstop hdecoder hzero
    · exact nofun
    · exact hrest e
    · have hoffset := hstart hdecoder.1 _ List.mem_cons_self
      exact absurd (by exact_mod_cast hoffset) hzero
    · exact hrest e
    · refine bind_ne_error isCached_asserts fun p _ => ?_
      split_ifs
      · exact hrest _
      · refine bind_ne_error placeInput_asserts fun q _ => ?_
        split_ifs
        · exact hrest _
        · exact nofun

end EncoderInputs

lemma tryScheduleEncoderInputs_asserts {cfg : EncoderConfig} {manager : EncoderCacheManager}
    {request : Request} {numComputedTokens numNewTokens encoderComputeBudget : Int}
    (hstart : cfg.isEncoderDecoder = true →
      ∀ feature ∈ request.mmFeatures, feature.mmPosition.offset = 0) :
    tryScheduleEncoderInputs cfg manager request numComputedTokens numNewTokens
      encoderComputeBudget ≠ .error .assertionError := by
  simp only [tryScheduleEncoderInputs]
  split_ifs
  · exact nofun
  · refine EncoderInputs.scheduleLoop_asserts fun hdecoder p hp => hstart hdecoder p.1 ?_
    exact List.mem_of_getElem? (List.mk_mem_zipIdx_iff_getElem?.mp hp)

end VllmV1
