import Mathlib.Data.List.Sort
import Vllm.Basic
import Vllm.Lib.OrderedDict

/-!
# Batch updates and their consumers

`BatchUpdateBuilder` of `vllm/v1/sample/logits_processor/state.py`, and its consumers in
`builtin.py` and `vllm/v1/sample/thinking_budget_state.py`, each with its own order. Token ids are
integers (`-1` is a placeholder), floats rationals.
-/

namespace Vllm.Worker

/-- `SamplingType`. -/
inductive SamplingType where
  | greedy
  | random
  | randomSeed
  deriving DecidableEq, Repr

/-- `SamplingParams`, as far as the batch and its logits processors read it. -/
structure SamplingParams where
  temperature : ℚ := 1
  seed : Option ℤ := none
  topP : ℚ := 1
  topK : ℤ := 0
  minP : ℚ := 0
  frequencyPenalty : ℚ := 0
  presencePenalty : ℚ := 0
  repetitionPenalty : ℚ := 1
  logprobs : Option ℤ := none
  logprobTokenIds : Option (List ℤ) := none
  allowedTokenIds : Option (List ℕ) := none
  badWordsTokenIds : Option (List (List ℤ)) := none
  logitBias : Option (List (ℤ × ℚ)) := none
  minTokens : ℕ := 0
  allStopTokenIds : List ℤ := []
  thinkingTokenBudget : Option ℤ := none
  deriving DecidableEq, Repr

def samplingEps : ℚ := 1 / 100000

def SamplingParams.samplingType (p : SamplingParams) : SamplingType :=
  if p.temperature < samplingEps then .greedy else if p.seed.isSome then .randomSeed else .random

/-- `MoveDirectionality`. -/
inductive MoveDirectionality where
  | unidirectional
  | swap
  deriving DecidableEq, Repr

/-- `(index, params, prompt_tok_ids, output_tok_ids)` of a request added to the batch. -/
structure AddedRequest where
  index : ℕ
  params : SamplingParams
  promptTokIds : Option (List ℤ)
  outputTokIds : List ℤ
  deriving DecidableEq, Repr

/-- `MovedRequest`: a row moved to another, or two swapped. -/
structure MovedRequest where
  i1 : ℕ
  i2 : ℕ
  direct : MoveDirectionality
  deriving DecidableEq, Repr

/-- `BatchUpdate`: what logits processors are told about a step. -/
structure BatchUpdate where
  batchSize : ℕ
  removed : List ℕ
  added : List AddedRequest
  moved : List MovedRequest
  deriving DecidableEq, Repr

/-- `BatchUpdateBuilder`. -/
structure BatchUpdateBuilder where
  removed : List ℕ := []
  isRemovedSorted : Bool := false
  added : List AddedRequest := []
  moved : List MovedRequest := []
  batchChanged : Bool := false
  deriving DecidableEq, Repr

namespace BatchUpdateBuilder

variable (b : BatchUpdateBuilder)

/-- Highest index first, so that the lowest is at the end. -/
def ensureRemovedSorted : BatchUpdateBuilder :=
  if b.isRemovedSorted then b
  else { b with removed := b.removed.insertionSort (· ≥ ·), isRemovedSorted := true }

def removedAppend (index : ℕ) : Py BatchUpdateBuilder :=
  if b.isRemovedSorted then
    .error (.runtimeError "Cannot register new removed request after self.removed has been read.")
  else .ok { b with removed := b.removed ++ [index], batchChanged := true }

def popRemoved : Option ℕ × BatchUpdateBuilder :=
  if b.removed.isEmpty then (none, b)
  else
    let sorted := b.ensureRemovedSorted
    (sorted.removed.getLast?, { sorted with removed := sorted.removed.dropLast })

def reset : Bool × BatchUpdateBuilder := (b.batchChanged, {})

def getAndReset (batchSize : ℕ) : Option BatchUpdate × BatchUpdateBuilder :=
  if b.removed.isEmpty && b.moved.isEmpty && b.added.isEmpty then
    (none, { b with isRemovedSorted := false, batchChanged := false })
  else (some ⟨batchSize, b.removed, b.added, b.moved⟩, {})

end BatchUpdateBuilder

section processDictUpdates

variable {τ : Type} (newState : SamplingParams → Option (List ℤ) → List ℤ → Option τ)

/-- The entries by row and whether any of them changed so far. -/
abbrev DictState (τ : Type) := OrderedDict ℕ τ × Bool

variable (s : DictState τ)

/-- `pop(index, None)`; every entry is truthy. -/
def popEntry (index : ℕ) : DictState τ :=
  (s.1.erase index, s.2 || (s.1.get? index).isSome)

def addEntry (request : AddedRequest) : DictState τ :=
  match newState request.params request.promptTokIds request.outputTokIds with
  | some state => (s.1.set request.index state, true)
  | none => popEntry s request.index

def moveEntry (move : MovedRequest) : DictState τ :=
  let aEntry := s.1.get? move.i1
  let entries := s.1.erase move.i1
  let bEntry := entries.get? move.i2
  let entries := entries.erase move.i2
  let entries := match aEntry with
    | some entry => entries.set move.i2 entry
    | none => entries
  let entries := match bEntry, move.direct with
    | some entry, .swap => entries.set move.i1 entry
    | _, _ => entries
  (entries, s.2 || aEntry.isSome || bEntry.isSome)

/-- Additions come first here, then removals and moves. -/
def processDictUpdates (entries : OrderedDict ℕ τ) : Option BatchUpdate → DictState τ
  | none => (entries, false)
  | some update =>
    let s := update.added.foldl (addEntry newState) (entries, false)
    if s.1.length = 0 then s else update.moved.foldl moveEntry (update.removed.foldl popEntry s)

end processDictUpdates

variable (params : SamplingParams)

def logitBiasState (_ : Option (List ℤ)) (_ : List ℤ) : Option (List (ℤ × ℚ)) :=
  params.logitBias.filter fun bias => !bias.isEmpty

def minTokensState (_ : Option (List ℤ)) (outputTokIds : List ℤ) : Option (ℕ × List ℤ × List ℤ) :=
  if params.minTokens = 0 ∨ params.minTokens ≤ outputTokIds.length then none
  else some (params.minTokens, outputTokIds, params.allStopTokenIds)

/-- The tensor rows of `LogitBiasLogitsProcessor` follow from its entries. -/
def updateBiases (biases : OrderedDict ℕ (List (ℤ × ℚ))) (update : Option BatchUpdate) :
    OrderedDict ℕ (List (ℤ × ℚ)) :=
  (processDictUpdates logitBiasState biases update).1

/-- `MinTokensLogitsProcessor.update_state`: rows that have attained their minimum are dropped. -/
def updateMinToks (minToks : OrderedDict ℕ (ℕ × List ℤ × List ℤ)) (update : Option BatchUpdate) :
    OrderedDict ℕ (ℕ × List ℤ × List ℤ) :=
  let minToks := (processDictUpdates minTokensState minToks update).1
  let toRemove := (minToks.entries.filter fun e => e.2.1 ≤ e.2.2.1.length).map Prod.fst
  toRemove.foldl OrderedDict.erase minToks

/-- What `MinPLogitsProcessor` uses of numpy's `float32`: the number that is kept for a Python
float, and whether a kept number compares equal to one. -/
structure NumpyFloat32 where
  kept : ℚ → ℚ
  eq : ℚ → ℚ → Bool
  kept_zero : kept 0 = 0
  eq_spec : ∀ x y, eq x y → x = kept y

/-- `min_p_cpu` by row and `min_p_count`. -/
structure MinPLogitsProcessor where
  numpy : NumpyFloat32
  minPCpu : ℕ → ℚ := fun _ => 0
  minPCount : ℤ := 0

namespace MinPLogitsProcessor

variable (m : MinPLogitsProcessor)

def setMinP (index : ℕ) (minP : ℚ) : MinPLogitsProcessor :=
  { m with minPCpu := Function.update m.minPCpu index minP }

def addRow (request : AddedRequest) : MinPLogitsProcessor :=
  let minP := request.params.minP
  let before := m.minPCpu request.index
  if m.numpy.eq before minP then m
  else
    let m := m.setMinP request.index (m.numpy.kept minP)
    if minP ≠ 0 ∧ before = 0 then { m with minPCount := m.minPCount + 1 }
    else if minP = 0 ∧ before ≠ 0 then { m with minPCount := m.minPCount - 1 }
    else m

def removeRow (index : ℕ) : MinPLogitsProcessor :=
  if m.minPCpu index = 0 then m
  else { m.setMinP index 0 with minPCount := m.minPCount - 1 }

def moveRow (move : MovedRequest) : MinPLogitsProcessor :=
  let minPA := m.minPCpu move.i1
  let minPB := m.minPCpu move.i2
  let m :=
    if minPA = minPB then m
    else
      let m := m.setMinP move.i2 minPA
      if move.direct = .swap then m.setMinP move.i1 minPB else m
  if move.direct = .unidirectional then
    let m := if minPA = 0 then m else m.setMinP move.i1 0
    if minPB = 0 then m else { m with minPCount := m.minPCount - 1 }
  else m

/-- `update_state`: removals and moves are passed over while no row has a min-p. -/
def updateState : Option BatchUpdate → MinPLogitsProcessor
  | none => m
  | some update =>
    let m := update.added.foldl addRow m
    if m.minPCount = 0 then m else update.moved.foldl moveRow (update.removed.foldl removeRow m)

end MinPLogitsProcessor

/-- The entry of a request in the thinking-budget state. -/
structure ThinkState where
  inThink : Bool
  inEnd : Bool
  checkCountDown : ℤ
  thinkCount : ℤ
  endCount : ℤ
  promptTokIds : Option (List ℤ)
  outputTokIds : List ℤ
  thinkingTokenBudget : ℤ
  prevOutputLength : ℤ
  specTokenIds : List ℤ
  forceIndex : List ℤ
  startThinking : ℤ
  endThinking : ℤ
  inSpecMode : Bool
  bonusTokenForced : Bool
  continueThinking : Bool
  deriving DecidableEq, Repr

/-- `ThinkingBudgetStateHolder`. -/
structure ThinkingBudgetStateHolder where
  isEnabled : Bool
  thinkStartTokenIds : List ℤ
  thinkEndTokenIds : List ℤ
  state : OrderedDict ℕ ThinkState := OrderedDict.empty

namespace ThinkingBudgetStateHolder

/-- The last place where `tokenIds` stands in `targetList`, `-1` for none. -/
def findLastSequenceIndex (targetList tokenIds : List ℤ) : ℤ :=
  if tokenIds = [] then -1
  else
    match (List.range (targetList.length + 1 - tokenIds.length)).reverse.find? fun i =>
        slice targetList i (i + tokenIds.length) = tokenIds with
    | some i => i
    | none => -1

def initStateEntry (h : ThinkingBudgetStateHolder) (promptTokIds : Option (List ℤ)) (budget : ℤ) :
    ThinkState :=
  let idle : ThinkState :=
    ⟨false, false, budget, 0, 0, promptTokIds, [], budget, 0, [], [], -1, -1, false, false, false⟩
  match promptTokIds with
  | none => idle
  | some prompt =>
    let lastStart := findLastSequenceIndex prompt h.thinkStartTokenIds
    let lastEnd := findLastSequenceIndex prompt h.thinkEndTokenIds
    if lastStart > lastEnd then
      let thinkCount := prompt.length - (lastStart + h.thinkStartTokenIds.length)
      { idle with
        inThink := true
        inEnd := budget - thinkCount ≤ 0
        checkCountDown := budget - thinkCount
        thinkCount := thinkCount
        startThinking := prompt.length - thinkCount - 1
        continueThinking := true }
    else idle

def newEntry (h : ThinkingBudgetStateHolder) (params : SamplingParams)
    (promptTokIds : Option (List ℤ)) (outputTokIds : List ℤ) : Option ThinkState :=
  params.thinkingTokenBudget.map fun budget =>
    { h.initStateEntry promptTokIds budget with outputTokIds := outputTokIds, specTokenIds := [] }

def addState (h : ThinkingBudgetStateHolder) (request : AddedRequest) : ThinkingBudgetStateHolder :=
  match h.newEntry request.params request.promptTokIds request.outputTokIds with
  | some entry => { h with state := h.state.set request.index entry }
  | none => { h with state := h.state.erase request.index }

def moveState (h : ThinkingBudgetStateHolder) (move : MovedRequest) : ThinkingBudgetStateHolder :=
  match move.direct with
  | .swap =>
    -- neither side is cleared when the other has no state
    let state1 := h.state.get? move.i1
    let state2 := h.state.get? move.i2
    let state := match state1 with
      | some entry => h.state.set move.i2 entry
      | none => h.state
    let state := match state2 with
      | some entry => state.set move.i1 entry
      | none => state
    { h with state }
  | .unidirectional =>
    match h.state.get? move.i1 with
    | some entry => { h with state := (h.state.erase move.i1).set move.i2 entry }
    | none => { h with state := h.state.erase move.i1 }

def removeState (h : ThinkingBudgetStateHolder) (index : ℕ) : ThinkingBudgetStateHolder :=
  { h with state := h.state.erase index }

def syncBatch (h : ThinkingBudgetStateHolder) : Option BatchUpdate → ThinkingBudgetStateHolder
  | none => h
  | some update =>
    if h.isEnabled then
      update.moved.foldl moveState
      (update.added.foldl addState (update.removed.foldl removeState h))
    else h

end ThinkingBudgetStateHolder

end Vllm.Worker
