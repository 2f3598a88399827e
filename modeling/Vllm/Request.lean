import Vllm.Basic

/-!
# Requests

What the KV-cache code reads of `vllm/v1/request.py`. `Prompt` is the checked input of
`length_from_prompt_token_ids_or_embeds`.
-/

namespace Vllm

/-- `RequestStatus`. -/
inductive RequestStatus where
  | waiting
  | waitingForStructuredOutputGrammar
  | waitingForRemoteKvs
  | waitingForStreamingReq
  | running
  | preempted
  | finishedStopped
  | finishedLengthCapped
  | finishedAborted
  | finishedIgnored
  | finishedError
  | finishedRepetition
  deriving DecidableEq, Repr

/-- Every status after `PREEMPTED` is a finished one. -/
def RequestStatus.isFinished : RequestStatus → Bool
  | .waiting | .waitingForStructuredOutputGrammar | .waitingForRemoteKvs
  | .waitingForStreamingReq | .running | .preempted => false
  | _ => true

/-- `PlaceholderRange`: where a multi-modal item stands in the prompt. -/
structure PlaceholderRange where
  offset : ℕ
  length : ℕ
  deriving DecidableEq, Repr

/-- `MultiModalFeatureSpec`. -/
structure MultiModalFeatureSpec where
  identifier : String
  mmPosition : PlaceholderRange
  deriving DecidableEq, Repr

namespace MultiModalFeatureSpec

def offset (f : MultiModalFeatureSpec) : ℕ := f.mmPosition.offset

def stop (f : MultiModalFeatureSpec) : ℕ := f.mmPosition.offset + f.mmPosition.length

end MultiModalFeatureSpec

/-- `LoRARequest`, as far as the KV cache reads it. -/
structure LoRARequest where
  loraName : String
  loraIntId : ℕ
  deriving DecidableEq, Repr

/-- A prompt of token ids, of embedding rows (their raw bytes), or of both. -/
inductive Prompt where
  | tokenIds (ids : List ℕ)
  | embeds (rows : List Bytes)
  | mixed (ids : List ℕ) (rows : List Bytes) (sameLength : rows.length = ids.length)

namespace Prompt

def promptTokenIds : Prompt → Option (List ℕ)
  | tokenIds ids => some ids
  | embeds _ => none
  | mixed ids _ _ => some ids

def promptEmbeds : Prompt → Option (List Bytes)
  | tokenIds _ => none
  | embeds rows => some rows
  | mixed _ rows _ => some rows

def numPromptTokens : Prompt → ℕ
  | tokenIds ids => ids.length
  | embeds rows => rows.length
  | mixed ids _ _ => ids.length

/-- The initial `_all_token_ids`: the token ids, or zeros for embeddings only. -/
def allTokenIds : Prompt → List ℕ
  | tokenIds ids => ids
  | embeds rows => List.replicate rows.length 0
  | mixed ids _ _ => ids

@[simp] lemma length_allTokenIds (p : Prompt) : p.allTokenIds.length = p.numPromptTokens := by
  cases p <;> simp [allTokenIds, numPromptTokens]

end Prompt

/-- `Request`, as far as the KV cache reads it. -/
structure Request where
  requestId : String := ""
  status : RequestStatus := .waiting
  promptTokenIds : Option (List ℕ)
  promptEmbeds : Option (List Bytes) := none
  numPromptTokens : ℕ
  outputTokenIds : List ℕ := []
  allTokenIds : List ℕ
  numComputedTokens : ℤ := 0
  mmFeatures : List MultiModalFeatureSpec := []
  loraRequest : Option LoRARequest := none
  cacheSalt : Option String := none
  blockHashes : List Bytes := []
  skipReadingPrefixCache : Bool := false

namespace Request

def numTokens (r : Request) : ℕ := r.allTokenIds.length

def loraName (r : Request) : Option String := r.loraRequest.map LoRARequest.loraName

end Request

end Vllm
