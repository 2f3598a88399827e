import Vllm.Basic
import Vllm.Lib.OrderedDict

/-!
# The sampler

`Sampler.forward` of `vllm/v1/sample/sampler.py` for greedy requests, with `apply_bad_words` of
`vllm/v1/sample/ops/bad_words.py`. A row maps token ids into an order whose least value is `-inf`.
-/

namespace Vllm.Sample

variable {L ρ : Type} [LinearOrder L] [OrderBot L]

def getItem {α : Type} (xs : List α) (i : ℕ) : Py α :=
  match xs[i]? with
  | some x => .ok x
  | none => .error (.indexError "list index out of range")

/-- `row.masked_fill(masked, -inf)`. -/
def maskOut (masked : ℕ → Bool) (row : ℕ → L) : ℕ → L := fun v => if masked v then ⊥ else row v

/-- `row.argmax()`: the first token with the largest logit. -/
def argmax (vocabSize : ℕ) (row : ℕ → L) : ℕ :=
  (List.range vocabSize).foldl (fun best v => if row best < row v then v else best) 0

def maskedFill (logits : List (ℕ → L)) (mask : List (ℕ → Bool)) : Py (List (ℕ → L)) :=
  if mask.length = logits.length then .ok (List.zipWith maskOut mask logits)
  else .error (.runtimeError "The size of tensor a must match the size of tensor b")

/-- The token ids of a bad word; `SamplingParams` refuses an empty one. -/
structure BadWord where
  ids : List ℕ
  nonempty : ids ≠ []
  deriving DecidableEq

def BadWord.last (w : BadWord) : ℕ := w.ids.getLast w.nonempty

def applyBadWordsSingleBatch (row : ℕ → L) (badWordsTokenIds : List BadWord)
    (pastTokensIds : List ℕ) : Py (ℕ → L) :=
  badWordsTokenIds.foldlM (fun row badWord => do
    if badWord.ids.length > pastTokensIds.length + 1 then return row
    let prefixLength := badWord.ids.length - 1
    let actualPrefix :=
      if prefixLength > 0 then pastTokensIds.drop (pastTokensIds.length - prefixLength) else []
    let expectedPrefix := badWord.ids.take prefixLength
    pyAssert (actualPrefix.length = expectedPrefix.length)
      "len(actual_prefix) == len(expected_prefix)"
    if actualPrefix = expectedPrefix then return Function.update row badWord.last ⊥
    return row) row

def applyBadWordsAt (pastTokensIds : List (List ℕ)) (badWords : List BadWord)
    (logits : List (ℕ → L)) (i : ℕ) :
    Py (List (ℕ → L)) := do
  let row ← getItem logits i
  let past ← getItem pastTokensIds i
  let row ← applyBadWordsSingleBatch row badWords past
  return logits.set i row

def applyBadWords (logits : List (ℕ → L)) (badWordsTokenIds : OrderedDict ℕ (List BadWord))
    (pastTokensIds : List (List ℕ)) : Py (List (ℕ → L)) :=
  badWordsTokenIds.entries.foldlM (fun logits e => applyBadWordsAt pastTokensIds e.2 logits e.1)
    logits

/-- The fields that greedy sampling reads; `penalties` are rows of presence, frequency and
repetition penalties. -/
structure SamplingMetadata (ρ : Type) where
  noPenalties : Bool
  promptTokenIds : List (List ℕ)
  penalties : List ρ
  outputTokenIds : List (List ℕ)
  specTokenIds : Option (List (List ℕ))
  allowedTokenIdsMask : Option (List (ℕ → Bool))
  badWordsTokenIds : OrderedDict ℕ (List BadWord)

/-- The penalties of a request. -/
structure PenaltyParams where
  presencePenalty : ℚ
  frequencyPenalty : ℚ
  repetitionPenalty : ℚ
  deriving DecidableEq

/-- `apply_penalties` of `vllm/model_executor/layers/utils.py` on one row; scaling and subtraction
keep `-inf`. -/
def applyPenaltiesRow (params : PenaltyParams) (promptTokenIds outputTokenIds : List ℕ)
    (row : ℕ → WithBot ℚ) :
    ℕ → WithBot ℚ := fun v =>
  let count := outputTokenIds.count v
  let penalty := if v ∈ promptTokenIds ∨ 0 < count then params.repetitionPenalty else 1
  (row v).map fun logit =>
    let logit := logit * if 0 < logit then 1 / penalty else penalty
    logit - params.frequencyPenalty * count - params.presencePenalty * (if 0 < count then 1 else 0)

/-- `apply_all_penalties`, with the penalties of one row as a parameter. -/
def applyAllPenalties (applyPenalties : ρ → List ℕ → List ℕ → (ℕ → L) → ℕ → L)
    (logits : List (ℕ → L))
    (promptTokenIds : List (List ℕ)) (penalties : List ρ) (outputTokenIds : List (List ℕ)) :
    Py (List (ℕ → L)) :=
  if promptTokenIds.length = logits.length ∧ penalties.length = logits.length ∧
    outputTokenIds.length = logits.length then
    .ok (List.zipWith (fun row (prompt, params, output) => applyPenalties params prompt output row)
      logits
      (promptTokenIds.zip (penalties.zip outputTokenIds)))
  else .error (.runtimeError "The size of tensor a must match the size of tensor b")

namespace Sampler

def combineOutputsWithSpecTokens (outputTokenIds : List (List ℕ)) :
    Option (List (List ℕ)) → List (List ℕ)
  | none => outputTokenIds
  | some specTokenIds =>
    List.zipWith (fun out spec => if spec.isEmpty then out else out ++ spec) outputTokenIds
    specTokenIds

def applyAllowedTokenIds (logits : List (ℕ → L)) : Option (List (ℕ → Bool)) → Py (List (ℕ → L))
  | some mask => maskedFill logits mask
  | none => .ok logits

variable (applyPenalties : ρ → List ℕ → List ℕ → (ℕ → L) → ℕ → L) (logits)

def applyPenaltiesOf (metadata : SamplingMetadata ρ) (outputTokenIds : List (List ℕ)) :
    Py (List (ℕ → L)) :=
  if metadata.noPenalties then .ok logits
  else applyAllPenalties applyPenalties logits metadata.promptTokenIds metadata.penalties
    outputTokenIds

/-- Without bad words `apply_bad_words` is not called; it would do nothing. -/
def applyLogitsProcessors (metadata : SamplingMetadata ρ) (predictBonusToken : Bool) :
    Py (List (ℕ → L)) := do
  let anyPenaltiesOrBadWords := !metadata.badWordsTokenIds.entries.isEmpty || !metadata.noPenalties
  let outputTokenIds :=
    if predictBonusToken && anyPenaltiesOrBadWords then
      combineOutputsWithSpecTokens metadata.outputTokenIds metadata.specTokenIds
    else metadata.outputTokenIds
  let logits ← applyAllowedTokenIds logits metadata.allowedTokenIdsMask
  let logits ← applyBadWords logits metadata.badWordsTokenIds outputTokenIds
  applyPenaltiesOf applyPenalties logits metadata outputTokenIds

variable {logits}

def forward (vocabSize : ℕ) (logits : List (ℕ → L)) (metadata : SamplingMetadata ρ)
    (predictBonusToken : Bool) :
    Py (List ℕ) := do
  let logits ← applyLogitsProcessors applyPenalties logits metadata predictBonusToken
  return logits.map (argmax vocabSize)

end Sampler

end Vllm.Sample
