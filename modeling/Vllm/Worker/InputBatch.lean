import Vllm.Lib.Compaction
import Vllm.Worker.BatchUpdate

/-!
# The persistent batch of a worker

`InputBatch` of `vllm/v1/worker/gpu_input_batch.py`. Arrays and dictionaries over row indices are
one record `Row` per row, but the allowed-token mask is a tensor allocated when needed. Columns are
functions of the position.
-/

namespace Vllm.Worker

open Function

def writeSlice {α : Type*} (row : ℕ → α) (start : ℕ) (xs : List α) : ℕ → α := fun j =>
  if start ≤ j then xs.getD (j - start) (row j) else row j

def copyPrefix {α : Type*} (n : ℕ) (src dst : ℕ → α) : ℕ → α :=
  fun j => if j < n then src j else dst j

def lengthFromPromptTokenIdsOrEmbeds {ε : Type} (promptTokenIds : Option (List ℤ))
    (promptEmbeds : Option (List ε)) :
    Py ℕ :=
  match promptTokenIds, promptEmbeds with
  | none, none => .error (.valueError "Neither prompt_token_ids nor prompt_embeds were defined.")
  | none, some embeds => .ok embeds.length
  | some ids, none => .ok ids.length
  | some ids, some embeds =>
    if embeds.length ≠ ids.length then
      .error (.valueError ("Prompt token ids and prompt embeds had different lengths " ++
        s!"prompt_token_ids={ids.length} prompt_embeds={embeds.length}"))
    else .ok ids.length

/-- `PoolingParams`, as far as the batch reads it. -/
structure PoolingParams where
  requiresTokenIds : Bool
  deriving DecidableEq, Repr

/-- A LoRA adapter; id 0 stands for none. -/
structure LoRARequest where
  loraName : String
  loraIntId : ℕ
  pos : 0 < loraIntId
  deriving DecidableEq, Repr

/-- What the worker knows about a request.  `numPromptTokens` is set by `__post_init__`. -/
structure CachedRequestState (ε γ : Type) where
  reqId : String
  promptTokenIds : Option (List ℤ)
  promptEmbeds : Option (List ε)
  promptIsTokenIds : Option (List Bool)
  samplingParams : Option SamplingParams
  poolingParams : Option PoolingParams
  generator : Option γ
  blockIds : List (List ℕ)
  numComputedTokens : ℕ
  outputTokenIds : List ℤ
  loraRequest : Option LoRARequest
  numPromptTokens : ℕ
  length_ok : lengthFromPromptTokenIdsOrEmbeds promptTokenIds promptEmbeds = .ok numPromptTokens

variable {ε γ : Type}

def CachedRequestState.numTokens (r : CachedRequestState ε γ) :
    ℕ := r.numPromptTokens + r.outputTokenIds.length

/-- A row of a block table. -/
structure BlockRow where
  numBlocks : ℕ := 0
  blocks : ℕ → ℕ := fun _ => 0

namespace BlockRow

/-- `map_to_kernel_blocks`: each block is `blocksPerKvBlock` kernel blocks. -/
def mapToKernelBlocks (blocksPerKvBlock : ℕ) (blockIds : List ℕ) : List ℕ :=
  blockIds.flatMap fun id => (List.range blocksPerKvBlock).map (id * blocksPerKvBlock + ·)

def appendRow (row : BlockRow) (blocksPerKvBlock : ℕ) (blockIds : List ℕ) : BlockRow :=
  let ids := mapToKernelBlocks blocksPerKvBlock blockIds
  ⟨row.numBlocks + ids.length, writeSlice row.blocks row.numBlocks ids⟩

def addRow (row : BlockRow) (blocksPerKvBlock : ℕ) (blockIds : List ℕ) : BlockRow :=
  { row with numBlocks := 0 }.appendRow blocksPerKvBlock blockIds

def clearRow (row : BlockRow) : BlockRow :=
  ⟨0, copyPrefix row.numBlocks (fun _ => 0) row.blocks⟩

def moveRow (src tgt : BlockRow) :
    BlockRow := ⟨src.numBlocks, copyPrefix src.numBlocks src.blocks tgt.blocks⟩

end BlockRow

/-- What the batch holds for one row index. -/
structure Row (ε γ : Type) where
  tokenIds : ℕ → ℤ := fun _ => 0
  isTokenIds : ℕ → Bool := fun _ => false
  promptEmbeds : Option (List ε) := none
  numTokensNoSpec : ℕ := 0
  numPromptTokens : ℕ := 0
  numComputedTokens : ℕ := 0
  specTokenIds : List ℤ := []
  blockTable : List BlockRow := []
  requestLoraMapping : ℕ := 0
  logitsProcessingNeedsTokenIds : Bool := false
  temperature : ℚ := 0
  topP : ℚ := 0
  topK : ℤ := 0
  frequencyPenalty : ℚ := 0
  presencePenalty : ℚ := 0
  repetitionPenalty : ℚ := 0
  numAcceptedTokens : ℕ := 1
  generator : Option γ := none
  badWordsTokenIds : Option (List (List ℤ)) := none

namespace Row

variable (row : Row ε γ)

def activeTokenCount : ℕ := row.numTokensNoSpec + row.specTokenIds.length

def promptFlags (request : CachedRequestState ε γ) : List Bool :=
  match request.promptTokenIds with
  | some _ => request.promptIsTokenIds.getD (List.replicate request.numPromptTokens true)
  | none => List.replicate request.numPromptTokens false

/-- The part of `add_request` that does not depend on the kind of the request. -/
def addTokens (blocksPerKvBlock : List ℕ) (request : CachedRequestState ε γ) : Row ε γ :=
  let start := request.numPromptTokens
  { row with
    specTokenIds := []
    numPromptTokens := start
    tokenIds :=
      writeSlice (writeSlice row.tokenIds 0 (request.promptTokenIds.getD [])) start
        request.outputTokenIds
    isTokenIds := writeSlice (writeSlice row.isTokenIds 0 (promptFlags request)) start
      (List.replicate request.outputTokenIds.length true)
    -- written only when the request has embeddings
    promptEmbeds := request.promptEmbeds <|> row.promptEmbeds
    numTokensNoSpec := request.numTokens
    numComputedTokens := request.numComputedTokens
    blockTable :=
      List.zipWith (fun r (n, ids) => r.addRow n ids) row.blockTable
        (blocksPerKvBlock.zip request.blockIds)
    numAcceptedTokens := 1
    requestLoraMapping := (request.loraRequest.map LoRARequest.loraIntId).getD 0 }

/-- The top-k of a request, the whole vocabulary when it is out of range. -/
def clampTopK (vocabSize : ℕ) (topK : ℤ) : ℤ :=
  if 0 < topK ∧ topK < vocabSize then topK else vocabSize

/-- A list that is `None` or empty counts as absent. -/
def nonEmpty? {α : Type} (xs : Option (List α)) : Option (List α) := xs.filter fun l => !l.isEmpty

def addSampling (vocabSize : ℕ) (params : SamplingParams) (generator : Option γ) : Row ε γ :=
  { row with
    temperature := if params.samplingType = .greedy then 0 else params.temperature
    topP := params.topP
    topK := clampTopK vocabSize params.topK
    frequencyPenalty := params.frequencyPenalty
    presencePenalty := params.presencePenalty
    repetitionPenalty := params.repetitionPenalty
    generator := generator <|> row.generator
    badWordsTokenIds := nonEmpty? params.badWordsTokenIds <|> row.badWordsTokenIds }

def addPooling (params : PoolingParams) : Row ε γ :=
  { row with logitsProcessingNeedsTokenIds := params.requiresTokenIds }

def updateSpec (spec : List ℤ) : Row ε γ :=
  if spec = [] then { row with specTokenIds := [] }
  else
    { row with
      tokenIds := writeSlice row.tokenIds row.numTokensNoSpec spec
      isTokenIds := writeSlice row.isTokenIds row.numTokensNoSpec (List.replicate spec.length true)
      specTokenIds := spec }

/-- `remove_request` keeps the prompt embeddings and the token-id flag of the row. -/
def remove (isPoolingModel : Bool) : Row ε γ :=
  let row := { row with
    specTokenIds := []
    blockTable := row.blockTable.map BlockRow.clearRow
    requestLoraMapping := 0 }
  if isPoolingModel then row else { row with generator := none, badWordsTokenIds := none }

/-- The row `dst` after `condense` has moved the request of `src` into it. -/
def moveFrom (dst src : Row ε γ) (isPoolingModel : Bool) : Row ε γ :=
  let numTokens := src.activeTokenCount
  let row := { dst with
    specTokenIds := src.specTokenIds
    tokenIds := copyPrefix numTokens src.tokenIds dst.tokenIds
    isTokenIds := copyPrefix numTokens src.isTokenIds dst.isTokenIds
    promptEmbeds := src.promptEmbeds <|> dst.promptEmbeds
    numTokensNoSpec := src.numTokensNoSpec
    numPromptTokens := src.numPromptTokens
    numComputedTokens := src.numComputedTokens
    blockTable := List.zipWith BlockRow.moveRow src.blockTable dst.blockTable
    requestLoraMapping := src.requestLoraMapping }
  if isPoolingModel then row
  else
    { row with
      temperature := src.temperature
      topP := src.topP
      topK := src.topK
      frequencyPenalty := src.frequencyPenalty
      presencePenalty := src.presencePenalty
      repetitionPenalty := src.repetitionPenalty
      numAcceptedTokens := src.numAcceptedTokens
      generator := src.generator <|> dst.generator
      badWordsTokenIds := src.badWordsTokenIds <|> dst.badWordsTokenIds }

/-- What stays behind in the row that `condense` has moved the request out of. -/
def vacate (src : Row ε γ) (isPoolingModel : Bool) : Row ε γ :=
  let row := { src with specTokenIds := [], promptEmbeds := none }
  if isPoolingModel then row else { row with generator := none, badWordsTokenIds := none }

/-- The row after `swap_states` has exchanged it with `other`; the token-id flag is not
exchanged. -/
def swapWith (row other : Row ε γ) (isPoolingModel : Bool) : Row ε γ :=
  let active := max row.activeTokenCount other.activeTokenCount
  let swapped := { row with
    specTokenIds := other.specTokenIds
    tokenIds := copyPrefix active other.tokenIds row.tokenIds
    isTokenIds := copyPrefix active other.isTokenIds row.isTokenIds
    promptEmbeds := other.promptEmbeds
    numTokensNoSpec := other.numTokensNoSpec
    numPromptTokens := other.numPromptTokens
    numComputedTokens := other.numComputedTokens
    blockTable := other.blockTable
    requestLoraMapping := other.requestLoraMapping }
  if isPoolingModel then swapped
  else
    { swapped with
      temperature := other.temperature
      topP := other.topP
      topK := other.topK
      frequencyPenalty := other.frequencyPenalty
      presencePenalty := other.presencePenalty
      repetitionPenalty := other.repetitionPenalty
      numAcceptedTokens := other.numAcceptedTokens
      generator := other.generator
      badWordsTokenIds := other.badWordsTokenIds }

end Row

/-- The sets of request ids that the batch keeps. -/
inductive ReqSet where
  | greedyReqs
  | randomReqs
  | topPReqs
  | topKReqs
  | frequencyPenaltiesReqs
  | presencePenaltiesReqs
  | repetitionPenaltiesReqs
  | hasAllowedTokenIds
  deriving DecidableEq, Repr

def SamplingParams.inSet (params : SamplingParams) (vocabSize : ℕ) : ReqSet → Bool
  | .greedyReqs => params.samplingType = .greedy
  | .randomReqs => params.samplingType ≠ .greedy
  | .topPReqs => params.topP < 1
  | .topKReqs => 0 < params.topK ∧ params.topK < vocabSize
  | .frequencyPenaltiesReqs => params.frequencyPenalty ≠ 0
  | .presencePenaltiesReqs => params.presencePenalty ≠ 0
  | .repetitionPenaltiesReqs => params.repetitionPenalty ≠ 1
  | .hasAllowedTokenIds => (Row.nonEmpty? params.allowedTokenIds).isSome

/-- The number of logprobs asked for, `-1` for the whole vocabulary. -/
def SamplingParams.numLogprobs (params : SamplingParams) (vocabSize : ℕ) : Option ℤ :=
  params.logprobs.map fun n => if n = -1 then vocabSize else n

/-- `InputBatch`. -/
structure InputBatch (ε γ : Type) where
  isPoolingModel : Bool
  maxNumReqs : ℕ
  vocabSize : ℕ
  /-- kernel blocks of a block, for each KV cache group -/
  blocksPerKvBlock : List ℕ
  reqIds : List (Option String) := []
  reqIdToIndex : OrderedDict String ℕ := OrderedDict.empty
  reqOutputTokenIds : List (Option (List ℤ)) := []
  rows : ℕ → Row ε γ
  /-- `True` where a token is not allowed -/
  allowedTokenIdsMask : Option (ℕ → ℕ → Bool) := none
  reqSets : ReqSet → List String := fun _ => []
  numLogprobs : OrderedDict String ℤ := OrderedDict.empty
  logprobTokenIds : OrderedDict String (List ℤ) := OrderedDict.empty
  poolingParams : OrderedDict String PoolingParams := OrderedDict.empty
  loraIdToRequestIds : OrderedDict ℕ (List String) := OrderedDict.empty
  loraIdToLoraRequest : OrderedDict ℕ LoRARequest := OrderedDict.empty
  batchUpdateBuilder : BatchUpdateBuilder := {}
  thinkingBudgetStateHolder : Option ThinkingBudgetStateHolder := none
  biases : OrderedDict ℕ (List (ℤ × ℚ)) := OrderedDict.empty
  minToks : OrderedDict ℕ (ℕ × List ℤ × List ℤ) := OrderedDict.empty
  minP : MinPLogitsProcessor

namespace InputBatch

def init (isPoolingModel : Bool) (maxNumReqs vocabSize : ℕ) (blocksPerKvBlock : List ℕ)
    (thinking : Option ThinkingBudgetStateHolder) (numpy : NumpyFloat32) : InputBatch ε γ where
  isPoolingModel
  maxNumReqs
  vocabSize
  blocksPerKvBlock
  rows := fun _ => { blockTable := blocksPerKvBlock.map fun _ => {} }
  thinkingBudgetStateHolder := thinking
  minP := { numpy }

variable (b : InputBatch ε γ)

def numReqs : ℕ := b.reqIdToIndex.length

/-- The mask row; before the tensor is allocated every token is allowed. -/
def maskRow (i : ℕ) : ℕ → Bool :=
  match b.allowedTokenIdsMask with
  | some mask => mask i
  | none => fun _ => false

def setRow (i : ℕ) (row : Row ε γ) : InputBatch ε γ :=
  { b with rows := update b.rows i row }

variable (request : CachedRequestState ε γ)

def registerAddRequest : Py (ℕ × InputBatch ε γ) := do
  let (popped, builder) := b.batchUpdateBuilder.popRemoved
  let newReqIndex := popped.getD b.numReqs
  pyAssert (newReqIndex < b.maxNumReqs) "new_req_index < self.max_num_reqs"
  let added := match request.samplingParams with
    | some params => [⟨newReqIndex, params, request.promptTokenIds, request.outputTokenIds⟩]
    | none => []
  return (newReqIndex, { b with
    batchUpdateBuilder :=
      { builder with
        batchChanged := true
        added := builder.added ++ added } })

def placeRequest (reqIndex : ℕ) : InputBatch ε γ :=
  { b with
    reqIds := if reqIndex = b.reqIds.length then b.reqIds ++ [some request.reqId]
      else b.reqIds.set reqIndex (some request.reqId)
    reqOutputTokenIds :=
      if reqIndex = b.reqIds.length then b.reqOutputTokenIds ++ [some request.outputTokenIds]
      else b.reqOutputTokenIds.set reqIndex (some request.outputTokenIds)
    reqIdToIndex := b.reqIdToIndex.set request.reqId reqIndex }

/-- The mask row of a request with allowed tokens; a missing tensor is allocated with zeros. -/
def allowTokens (reqIndex : ℕ) (params : SamplingParams) : Option (ℕ → ℕ → Bool) :=
  match Row.nonEmpty? params.allowedTokenIds with
  | some allowed =>
    some (update (b.allowedTokenIdsMask.getD fun _ _ => false) reqIndex fun v =>
      decide (v ∉ allowed))
  | none => b.allowedTokenIdsMask

def addSamplingRequest (params : SamplingParams) (reqIndex : ℕ) : InputBatch ε γ :=
  let reqId := request.reqId
  { b.setRow reqIndex ((b.rows reqIndex).addSampling b.vocabSize params request.generator) with
    reqSets := fun set =>
      if params.inSet b.vocabSize set then (b.reqSets set).filter (· ≠ reqId) ++ [reqId] else
        b.reqSets set
    numLogprobs := match params.numLogprobs b.vocabSize with
      | some n => b.numLogprobs.set reqId n
      | none => b.numLogprobs
    logprobTokenIds := match params.logprobTokenIds with
      | some ids => b.logprobTokenIds.set reqId ids
      | none => b.logprobTokenIds
    allowedTokenIdsMask := b.allowTokens reqIndex params }

def addPoolingRequest (params : PoolingParams) (reqIndex : ℕ) : InputBatch ε γ :=
  { b.setRow reqIndex ((b.rows reqIndex).addPooling params) with
    poolingParams := b.poolingParams.set request.reqId params }

/-- The LoRA maps over adapters; the row's own id is set with the other fields of the row. -/
def addLora : InputBatch ε γ :=
  match request.loraRequest with
  | some lora =>
    let ids := (b.loraIdToRequestIds.get? lora.loraIntId).getD []
    { b with
      loraIdToRequestIds :=
        b.loraIdToRequestIds.set lora.loraIntId (ids.filter (· ≠ request.reqId) ++ [request.reqId])
      loraIdToLoraRequest := b.loraIdToLoraRequest.set lora.loraIntId lora }
  | none => b

/-- `InputBatch.add_request`. -/
def addRequest : Py (ℕ × InputBatch ε γ) := do
  let (reqIndex, b) ← b.registerAddRequest request
  let b := b.placeRequest request reqIndex
  let b := b.setRow reqIndex ((b.rows reqIndex).addTokens b.blocksPerKvBlock request)
  let b ← match request.samplingParams, request.poolingParams with
    | some params, _ => pure (b.addSamplingRequest request params reqIndex)
    | none, some params => pure (b.addPoolingRequest request params reqIndex)
    | none, none => throw (.notImplementedError "Unrecognized request type")
  return (reqIndex, b.addLora request)

variable (reqId : String)

def updateReqSpecTokenIds (spec : List ℤ) : Py (InputBatch ε γ) :=
  match b.reqIdToIndex.get? reqId with
  | none => .error (.keyError reqId)
  | some reqIndex => .ok (b.setRow reqIndex ((b.rows reqIndex).updateSpec spec))

def removeLora (loraId : ℕ) : Py (InputBatch ε γ) :=
  if loraId = 0 then .ok b
  else
    match b.loraIdToRequestIds.get? loraId with
    | none => .error (.keyError (toString loraId))
    | some ids =>
      let ids := ids.filter (· ≠ reqId)
      if ids.isEmpty then
        if (b.loraIdToLoraRequest.get? loraId).isNone then .error (.keyError (toString loraId))
        else .ok { b with
          loraIdToRequestIds := b.loraIdToRequestIds.erase loraId
          loraIdToLoraRequest := b.loraIdToLoraRequest.erase loraId }
      else .ok { b with loraIdToRequestIds := b.loraIdToRequestIds.set loraId ids }

def removeSampling (reqIndex : ℕ) : InputBatch ε γ :=
  { b with
    reqSets := fun set => (b.reqSets set).filter (· ≠ reqId)
    numLogprobs := b.numLogprobs.erase reqId
    logprobTokenIds := b.logprobTokenIds.erase reqId
    allowedTokenIdsMask := b.allowedTokenIdsMask.map fun mask => update mask reqIndex fun _ =>
      false }

def removeRequest : Py (Option ℕ × InputBatch ε γ) := do
  match b.reqIdToIndex.get? reqId with
  | none => return (none, b)
  | some reqIndex =>
    let builder ← b.batchUpdateBuilder.removedAppend reqIndex
    let loraId := (b.rows reqIndex).requestLoraMapping
    let b := { b.setRow reqIndex ((b.rows reqIndex).remove b.isPoolingModel) with
      batchUpdateBuilder := builder
      reqIdToIndex := b.reqIdToIndex.erase reqId
      reqIds := b.reqIds.set reqIndex none
      reqOutputTokenIds := b.reqOutputTokenIds.set reqIndex none }
    let b ← b.removeLora reqId loraId
    if b.isPoolingModel then
      return (some reqIndex, { b with poolingParams := b.poolingParams.erase reqId })
    return (some reqIndex, b.removeSampling reqId reqIndex)

/-- The mask rows after the tuple assignment of `swap_states`, which reads what it has
overwritten. -/
def swapMask (mask : ℕ → ℕ → Bool) (i1 i2 : ℕ) : ℕ → ℕ → Bool :=
  let first := update mask i1 (mask i2)
  update first i2 (first i1)

def swapStates (i1 i2 : ℕ) : Py (InputBatch ε γ) :=
  match b.reqIds[i1]?, b.reqIds[i2]? with
  | some (some id1), some (some id2) =>
    match b.reqIdToIndex.get? id1, b.reqIdToIndex.get? id2 with
    | some index1, some index2 =>
      let row1 := b.rows i1
      let row2 := b.rows i2
      let swapped := { b with
        reqIds := (b.reqIds.set i1 (some id2)).set i2 (some id1)
        reqOutputTokenIds :=
          (b.reqOutputTokenIds.set i1 ((b.reqOutputTokenIds[i2]?).getD none)).set i2
            ((b.reqOutputTokenIds[i1]?).getD none)
        reqIdToIndex := (b.reqIdToIndex.set id1 index2).set id2 index1
        rows := update (update b.rows i1 (row1.swapWith row2 b.isPoolingModel)) i2
          (row2.swapWith row1 b.isPoolingModel) }
      if b.isPoolingModel then .ok swapped
      else .ok { swapped with
        batchUpdateBuilder :=
          { b.batchUpdateBuilder with moved := b.batchUpdateBuilder.moved ++ [⟨i1, i2, .swap⟩] }
        allowedTokenIdsMask := b.allowedTokenIdsMask.map fun mask => swapMask mask i1 i2 }
    | none, _ => .error (.keyError id1)
    | _, none => .error (.keyError id2)
  | some _, some _ => .error (.assertionError "old_id_i1 is not None and old_id_i2 is not None")
  | _, _ => .error (.indexError "list index out of range")

def moveRequest (last empty : ℕ) : Py (InputBatch ε γ) :=
  match b.reqIds[last]? with
  | some (some reqId) =>
    let moved := { b with
      reqIds := (b.reqIds.set empty (some reqId)).set last none
      reqOutputTokenIds :=
        (b.reqOutputTokenIds.set empty ((b.reqOutputTokenIds[last]?).getD none)).set last none
      reqIdToIndex := b.reqIdToIndex.set reqId empty
      rows := update (update b.rows empty ((b.rows empty).moveFrom (b.rows last) b.isPoolingModel))
        last ((b.rows last).vacate b.isPoolingModel) }
    if b.isPoolingModel then .ok moved
    else .ok { moved with
      batchUpdateBuilder :=
        { b.batchUpdateBuilder with
          moved := b.batchUpdateBuilder.moved ++ [⟨last, empty, .unidirectional⟩] }
      -- the mask of the moved request also stays in its old row
      allowedTokenIdsMask := b.allowedTokenIdsMask.map fun mask => update mask empty (mask last) }
  | some none => .error (.assertionError "req_id is not None")
  | none => .error (.indexError "list index out of range")

/-- The loop of `condense`; every round that goes on takes an empty index. -/
def condenseLoop (b : InputBatch ε γ) : ℕ → ℕ → Py (InputBatch ε γ)
  | 0, _ => .ok b
  | rounds + 1, last => do
    -- the largest non-empty index and the smallest empty one
    let last := Compaction.lastFilled b.batchUpdateBuilder.removed last
    match b.batchUpdateBuilder.popRemoved with
    | (none, _) => return b
    | (some empty, builder) =>
      if last ≤ empty then return b
      let b ← { b with batchUpdateBuilder := builder }.moveRequest last empty
      b.condenseLoop rounds (last - 1)

/-- Draft tokens of rows that are cut off are dropped with them. -/
def trim (n : ℕ) : InputBatch ε γ :=
  { b with
    reqIds := b.reqIds.take n
    reqOutputTokenIds := b.reqOutputTokenIds.take n
    rows := fun i => if i < n then b.rows i else { b.rows i with specTokenIds := [] } }

/-- `InputBatch.condense`: the last rows move to the empty ones. -/
def condense : Py (InputBatch ε γ) := do
  let b := { b with batchUpdateBuilder := b.batchUpdateBuilder.ensureRemovedSorted }
  let empty := b.batchUpdateBuilder.removed
  if empty.isEmpty then return b
  if b.numReqs = 0 then return b.trim 0
  let b ← b.condenseLoop empty.length (b.numReqs + empty.length - 1)
  return b.trim b.numReqs

def refreshMetadata : InputBatch ε γ :=
  if b.isPoolingModel then { b with batchUpdateBuilder := b.batchUpdateBuilder.reset.2 }
  else
    let (update, builder) := b.batchUpdateBuilder.getAndReset b.numReqs
    { b with
      batchUpdateBuilder := builder
      thinkingBudgetStateHolder := b.thinkingBudgetStateHolder.map (·.syncBatch update)
      minToks := updateMinToks b.minToks update
      biases := updateBiases b.biases update
      minP := b.minP.updateState update }

end InputBatch

end Vllm.Worker
