import VllmMmaEmu.Library.Python

/-!
# Requests of the V1 engine

`vllm/v1/request.py`: the record the scheduler and the KV cache manager share. Fields
that no modelled function reads (trace headers, events, the client index) are left out.
Times are integers: the engine only compares them.
-/

namespace VllmV1

open Python

/-- A hash value is a byte string; it is false in Python exactly when it is empty. -/
abbrev BlockHash := List UInt8

structure PlaceholderRange where
  offset : Nat
  length : Nat
  deriving DecidableEq, Repr

/-- The first position after the placeholder. -/
def PlaceholderRange.stop (p : PlaceholderRange) : Nat := p.offset + p.length

structure MultiModalFeatureSpec where
  identifier : String
  mmPosition : PlaceholderRange
  deriving DecidableEq, Repr

inductive RequestStatus where
  | waiting
  | waitingForFsm
  | waitingForRemoteKvs
  | running
  | preempted
  | finishedStopped
  | finishedLengthCapped
  | finishedAborted
  | finishedIgnored
  deriving DecidableEq, Repr

/-- Anything after `PREEMPTED` counts as finished. -/
def RequestStatus.isFinished : RequestStatus → Bool
  | waiting | waitingForFsm | waitingForRemoteKvs | running | preempted => false
  | finishedStopped | finishedLengthCapped | finishedAborted | finishedIgnored => true

structure SamplingParams where
  maxTokens : Option Nat := some 16
  ignoreEos : Bool := false
  stopTokenIds : List Int := []
  promptLogprobs : Option Nat := none
  structuredOutputs : Bool := false
  deriving DecidableEq, Repr

/-- A prompt is given as token ids or as embeddings; the latter only have a length. -/
inductive Prompt where
  | tokenIds (ids : List Int)
  | embeds (numTokens : Nat)
  deriving DecidableEq, Repr

/-- `self._all_token_ids` right after construction: zeros stand for embeddings. -/
def Prompt.allTokenIds : Prompt → List Int
  | .tokenIds ids => ids
  | .embeds n => List.replicate n 0

/-- The arguments of `Request.__init__`. -/
structure EngineCoreRequest where
  requestId : String
  prompt : Prompt
  samplingParams : Option SamplingParams := some {}
  poolingParams : Bool := false
  eosTokenId : Option Int := none
  arrivalTime : Int := 0
  mmFeatures : List MultiModalFeatureSpec := []
  loraRequest : Option Int := none
  cacheSalt : Option String := none
  priority : Int := 0
  deriving DecidableEq, Repr

structure Request where
  requestId : String
  priority : Int
  samplingParams : Option SamplingParams
  poolingParams : Bool
  eosTokenId : Option Int
  loraRequest : Option Int
  arrivalTime : Int
  status : RequestStatus
  useStructuredOutput : Bool
  maxTokens : Nat
  numPromptTokens : Nat
  outputTokenIds : List Int
  allTokenIds : List Int
  numOutputPlaceholders : Int
  specTokenIds : List Int
  numComputedTokens : Int
  cacheSalt : Option String
  mmFeatures : List MultiModalFeatureSpec
  numCachedTokens : Int
  blockHashes : List BlockHash
  deriving DecidableEq, Repr

namespace Request

def numTokens (r : Request) : Nat := r.allTokenIds.length

def numTokensWithSpec (r : Request) : Nat := r.allTokenIds.length + r.specTokenIds.length

def numOutputTokens (r : Request) : Nat := r.outputTokenIds.length

def isFinished (r : Request) : Bool := r.status.isFinished

/-- A block hasher reads the request and returns the hashes it does not have yet. -/
abbrev BlockHasher := Request → Except PyError (List BlockHash)

/-- The status and the output limit that `__init__` derives from the two kinds of
parameters; pooling parameters win. -/
def initParams (e : EngineCoreRequest) : Except PyError (RequestStatus × Bool × Nat) :=
  if e.poolingParams then .ok (.waiting, false, 1)
  else match e.samplingParams with
    | none => .error (.valueError "sampling_params and pooling_params can't both be unset")
    | some sp => match sp.maxTokens with
      | none => .error .assertionError
      | some m =>
        if sp.structuredOutputs then .ok (.waitingForFsm, true, m)
        else .ok (.waiting, false, m)

/-- `self.block_hashes.extend(self.get_hash_new_full_blocks())`. -/
def extendBlockHashes (hasher : Option BlockHasher) (r : Request) : Except PyError Request :=
  match hasher with
  | none => .ok r
  | some h => do
    let new ← h r
    return { r with blockHashes := r.blockHashes ++ new }

def init (hasher : Option BlockHasher) (e : EngineCoreRequest) : Except PyError Request := do
  let (status, structured, maxTokens) ← initParams e
  extendBlockHashes hasher
    { requestId := e.requestId
      priority := e.priority
      samplingParams := e.samplingParams
      poolingParams := e.poolingParams
      eosTokenId := e.eosTokenId
      loraRequest := e.loraRequest
      arrivalTime := e.arrivalTime
      status := status
      useStructuredOutput := structured
      maxTokens := maxTokens
      numPromptTokens := e.prompt.allTokenIds.length
      outputTokenIds := []
      allTokenIds := e.prompt.allTokenIds
      numOutputPlaceholders := 0
      specTokenIds := []
      numComputedTokens := 0
      cacheSalt := e.cacheSalt
      mmFeatures := e.mmFeatures
      numCachedTokens := -1
      blockHashes := [] }

/-- The tokens are added to both lists; a single token id is the list of that token. -/
def addOutput (r : Request) (tokenIds : List Int) : Request :=
  { r with
    outputTokenIds := r.outputTokenIds ++ tokenIds
    allTokenIds := r.allTokenIds ++ tokenIds }

def appendOutputTokenIds (hasher : Option BlockHasher) (r : Request) (tokenIds : List Int) :
    Except PyError Request :=
  extendBlockHashes hasher (r.addOutput tokenIds)

@[simp] lemma addOutput_allTokenIds (r : Request) (tokenIds : List Int) :
    (r.addOutput tokenIds).allTokenIds = r.allTokenIds ++ tokenIds := rfl

@[simp] lemma addOutput_blockHashes (r : Request) (tokenIds : List Int) :
    (r.addOutput tokenIds).blockHashes = r.blockHashes := rfl

end Request

end VllmV1
