import Vllm.Lib.Ragged
import Vllm.Sample.Sampler

/-!
# The rejection sampler

`RejectionSampler` of `vllm/v1/sample/rejection_sampler.py` for greedy requests,
`apply_bad_words_with_drafts` of `vllm/v1/sample/ops/bad_words.py` and `_calc_spec_decode_metadata`
of `vllm/v1/worker/gpu_model_runner.py`. A request has a row per draft token and one more.
-/

namespace Vllm.Sample

open Ragged

variable {L ρ : Type} [LinearOrder L] [OrderBot L]

def gather {α : Type} (xs : List α) (indices : List ℕ) : Py (List α) := indices.mapM (getItem xs)

/-- `SpecDecodeMetadata`. -/
structure SpecDecodeMetadata where
  draftTokenIds : List ℕ
  numDraftTokens : List ℕ
  cuNumDraftTokens : List ℕ
  targetLogitsIndices : List ℕ
  bonusLogitsIndices : List ℕ
  logitsIndices : List ℕ
  maxSpecLen : ℕ

def pyMax (xs : List ℕ) : Py ℕ :=
  match xs.max? with
  | some m => .ok m
  | none => .error (.valueError "max() arg is an empty sequence")

/-- `_calc_spec_decode_metadata`; the draft tokens are read from the input ids of the step. -/
def calcSpecDecodeMetadata (inputIds numDraftTokens cuNumScheduledTokens : List ℕ) :
    Py SpecDecodeMetadata := do
  let numSampledTokens := numDraftTokens.map (· + 1)
  let cuNumSampledTokens := cumsum 0 numSampledTokens
  let logitsIndices := List.zipWith (· + ·)
    (npRepeat (List.zipWith (· - ·) cuNumScheduledTokens numSampledTokens) numSampledTokens)
      (arange numSampledTokens)
  let bonusLogitsIndices := cuNumSampledTokens.map (· - 1)
  let cuNumDraftTokens := cumsum 0 numDraftTokens
  let targetLogitsIndices := List.zipWith (· + ·)
    (npRepeat (List.zipWith (· - ·) cuNumSampledTokens numSampledTokens) numDraftTokens)
      (arange numDraftTokens)
  let draftTokenIds ← gather inputIds logitsIndices
  let draftTokenIds ← gather draftTokenIds (targetLogitsIndices.map (· + 1))
  let maxSpecLen ← pyMax numDraftTokens
  return {
    draftTokenIds, numDraftTokens, cuNumDraftTokens, targetLogitsIndices, bonusLogitsIndices,
    logitsIndices, maxSpecLen }

/-- The loop of `apply_bad_words_with_drafts` from request `i` on, whose first row is `startIdx`. -/
def badWordsLoop (badWordsTokenIds : OrderedDict ℕ (List BadWord)) (pastTokensIds : List (List ℕ)) :
    List ℕ → ℕ → ℕ → ℕ → List (ℕ → L) → Py (List (ℕ → L))
  | [], _, _, _, logits => .ok logits
  | n :: numDraftTokens, i, startIdx, remaining, logits => do
    match badWordsTokenIds.get? i with
    | some badWords =>
      let logits ← (List.range' startIdx n).foldlM (applyBadWordsAt pastTokensIds badWords) logits
      if remaining - 1 = 0 then return logits
      badWordsLoop badWordsTokenIds pastTokensIds numDraftTokens (i + 1) (startIdx + n)
        (remaining - 1) logits
    | none =>
      badWordsLoop badWordsTokenIds pastTokensIds numDraftTokens (i + 1) (startIdx + n) remaining
        logits

/-- `apply_bad_words_with_drafts`, which is called only if there are bad words. -/
def applyBadWordsWithDrafts (logits : List (ℕ → L))
    (badWordsTokenIds : OrderedDict ℕ (List BadWord))
    (pastTokensIds : List (List ℕ)) (numDraftTokens : List ℕ) : Py (List (ℕ → L)) :=
  if badWordsTokenIds.entries.isEmpty then .ok logits
  else badWordsLoop badWordsTokenIds pastTokensIds numDraftTokens 0 0 badWordsTokenIds.length logits

namespace RejectionSampler

def placeholderTokenId : ℤ := -1

def maxSpecLen : ℕ := 128

def histories (out : List ℕ) : List ℕ → List (List ℕ)
  | [] => []
  | token :: spec => out :: histories (out ++ [token]) spec

def combineOutputsWithSpecTokens (outputTokenIds : List (List ℕ)) :
    Option (List (List ℕ)) → List (List ℕ)
  | none => outputTokenIds
  | some specTokenIds =>
    (outputTokenIds.zip specTokenIds).flatMap fun (out, spec) => histories out spec

section processors

variable (applyPenalties : ρ → List ℕ → List ℕ → (ℕ → L) → ℕ → L) (logits)

def applyPenaltiesOf (metadata : SamplingMetadata ρ) (repeatIndices : List ℕ)
    (outputTokenIds : List (List ℕ)) : Py (List (ℕ → L)) :=
  if metadata.noPenalties then .ok logits
  else do
    let promptTokenIds ← gather metadata.promptTokenIds repeatIndices
    let penalties ← gather metadata.penalties repeatIndices
    applyAllPenalties applyPenalties logits promptTokenIds penalties outputTokenIds

def applyAllowedTokenIds (repeatIndices : List ℕ) : Option (List (ℕ → Bool)) → Py (List (ℕ → L))
  | some mask => do
    let tokenMask ← gather mask repeatIndices
    maskedFill logits tokenMask
  | none => .ok logits

/-- Without mask and penalties `repeat_indices` is neither computed nor used. -/
def applyLogitsProcessors (metadata : SamplingMetadata ρ) (numDraftTokens : List ℕ) :
    Py (List (ℕ → L)) := do
  let anyPenaltiesOrBadWords := !metadata.badWordsTokenIds.entries.isEmpty || !metadata.noPenalties
  let outputTokenIds :=
    if anyPenaltiesOrBadWords then
      combineOutputsWithSpecTokens metadata.outputTokenIds metadata.specTokenIds
    else metadata.outputTokenIds
  let repeatIndices := npRepeat (List.range numDraftTokens.length) numDraftTokens
  let logits ← applyPenaltiesOf applyPenalties logits metadata repeatIndices outputTokenIds
  let logits ← applyAllowedTokenIds logits repeatIndices metadata.allowedTokenIdsMask
  applyBadWordsWithDrafts logits metadata.badWordsTokenIds outputTokenIds numDraftTokens

variable {logits}

end processors

/-- `rejection_greedy_sample_kernel` from `pos` on: the output tokens, and whether a draft was
rejected. -/
def greedyRounds (draftTokenIds targetArgmax : List ℕ) (startIdx : ℕ) :
    ℕ → ℕ → List ℤ → Py (List ℤ × Bool)
  | _, 0, row => .ok (row, false)
  | pos, rounds + 1, row => do
    let draftTokenId ← getItem draftTokenIds (startIdx + pos)
    let targetArgmaxId ← getItem targetArgmax (startIdx + pos)
    let row := row.set pos (targetArgmaxId : ℤ)
    -- the rounds that follow a rejection do nothing
    if draftTokenId ≠ targetArgmaxId then return (row, true)
    greedyRounds draftTokenIds targetArgmax startIdx (pos + 1) rounds row

def startIndex (cuNumDraftTokens : List ℕ) (reqIdx : ℕ) : Py ℕ :=
  if reqIdx = 0 then .ok 0 else getItem cuNumDraftTokens (reqIdx - 1)

def rejectionGreedySampleKernel (maxSpecLen : ℕ)
    (cuNumDraftTokens draftTokenIds targetArgmax bonusTokenIds : List ℕ)
    (reqIdx : ℕ) : Py (List ℤ) := do
  let startIdx ← startIndex cuNumDraftTokens reqIdx
  let endIdx ← getItem cuNumDraftTokens reqIdx
  let numDraftTokens := endIdx - startIdx
  let (row, rejected) ← greedyRounds draftTokenIds targetArgmax startIdx 0 numDraftTokens
    (List.replicate (maxSpecLen + 1) placeholderTokenId)
  if rejected then return row
  let bonusTokenId ← getItem bonusTokenIds reqIdx
  return row.set numDraftTokens (bonusTokenId : ℤ)

def rejectionSample (vocabSize : ℕ) (metadata : SpecDecodeMetadata) (targetLogits : List (ℕ → L))
    (bonusTokenIds : List ℕ) : Py (List (List ℤ)) := do
  pyAssert (targetLogits.length = metadata.draftTokenIds.length)
    "target_logits.shape == (num_tokens, vocab_size)"
  let targetArgmax := targetLogits.map (argmax vocabSize)
  (List.range metadata.numDraftTokens.length).mapM
    (rejectionGreedySampleKernel metadata.maxSpecLen metadata.cuNumDraftTokens
      metadata.draftTokenIds targetArgmax
      bonusTokenIds)

/-- `RejectionSampler.forward`; `apply_sampling_constraints` keeps the logits of greedy requests. -/
def forward (applyPenalties : ρ → List ℕ → List ℕ → (ℕ → L) → ℕ → L) (vocabSize : ℕ)
    (metadata : SpecDecodeMetadata)
    (logits : List (ℕ → L)) (samplingMetadata : SamplingMetadata ρ) : Py (List (List ℤ)) := do
  pyAssert (metadata.maxSpecLen ≤ maxSpecLen) "metadata.max_spec_len <= MAX_SPEC_LEN"
  let bonusLogits ← gather logits metadata.bonusLogitsIndices
  let bonusTokenIds ← Sampler.forward applyPenalties vocabSize bonusLogits samplingMetadata true
  let targetLogits ← gather logits metadata.targetLogitsIndices
  let targetLogits ← applyLogitsProcessors applyPenalties targetLogits samplingMetadata
    metadata.numDraftTokens
  rejectionSample vocabSize metadata targetLogits bonusTokenIds

def parseOutput (outputTokenIds : List (List ℤ)) (vocabSize : ℕ) : List (List ℕ) :=
  outputTokenIds.map fun row =>
    (row.filter fun token => token ≠ placeholderTokenId && token < vocabSize).map Int.toNat

end RejectionSampler

end Vllm.Sample
