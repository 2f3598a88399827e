import Vllm.Request
import Vllm.Lib.Chain

/-!
# Block hashes of a request

Hashing in `vllm/v1/core/kv_cache_utils.py`; `scratchHashes` is the intended result.
-/

namespace Vllm

/-- An entry of the flat `extra_keys`: a string (LoRA name, cache salt), an item's identifier with
its offset, or bytes.
-/
inductive ExtraKey where
  | str (s : String)
  | item (identifier : String) (offset : ℤ)
  | digest (d : Bytes)
  deriving DecidableEq, Repr

/-- `caching_hash_fn` on its argument tuple, the `NONE_HASH`, and the SHA-256 of embedding
tensors. -/
structure HashEnv where
  hashFn : Bytes × List ℕ × Option (List ExtraKey) → Bytes
  noneHash : Bytes
  sha256 : Bytes → Bytes

def mmKey (start : ℕ) (f : MultiModalFeatureSpec) : ExtraKey :=
  .item f.identifier ((f.offset : ℤ) - start)

/-- The loop of `_gen_mm_extra_hash_keys`: the keys of the block and the growth of `curr_mm_idx`. -/
def mmLoop (start stop : ℕ) : List MultiModalFeatureSpec → List ExtraKey × ℕ
  | [] => ([], 0)
  | f :: fs =>
    if stop > f.offset then
      if start ≥ f.stop then
        -- This block has passed the current item.
        ((mmLoop start stop fs).1, (mmLoop start stop fs).2 + 1)
      else if stop ≥ f.stop then
        -- The item ends in this block, which may also contain the next one.
        (mmKey start f :: (mmLoop start stop fs).1, (mmLoop start stop fs).2 + 1)
      else ([mmKey start f], 0)
    else ([], 0)

/-- `start_mm_idx`; only `-1` is passed as a negative index, which is in bounds for a nonempty
list. -/
def mmStart (fs : List MultiModalFeatureSpec) (idx : ℤ) : ℤ :=
  if idx < 0 then fs.length + idx else idx

def genMmExtraHashKeys (r : Request) (start stop : ℕ) (idx : ℤ) : List ExtraKey × ℤ :=
  match r.mmFeatures.getLast? with
  | none => ([], idx)
  | some last =>
    if last.stop ≤ start then ([], idx)
    else
      let i := mmStart r.mmFeatures idx
      let out := mmLoop start stop (r.mmFeatures.drop i.toNat)
      (out.1, i + out.2)

def genLoraExtraHashKeys (r : Request) : List ExtraKey :=
  match r.loraRequest with
  | none => []
  | some l => [.str l.loraName]

/-- The salt enters the first block only, an empty salt not at all. -/
def cacheSaltKeys (r : Request) (start : ℕ) : List ExtraKey :=
  match r.cacheSalt with
  | none => []
  | some s => if start = 0 ∧ s ≠ "" then [.str s] else []

variable (env : HashEnv)

/-- `_gen_prompt_embeds_extra_hash_keys` without its memo (`prompt_embeds` is never reassigned). -/
def genPromptEmbedsExtraHashKeys (r : Request) (start stop : ℕ) : List ExtraKey :=
  match r.promptEmbeds with
  | none => []
  | some rows => [.digest (env.sha256 (slice rows start stop).flatten)]

def toTuple : List ExtraKey → Option (List ExtraKey)
  | [] => none
  | k :: ks => some (k :: ks)

def generateBlockHashExtraKeys (r : Request) (start stop : ℕ) (idx : ℤ) :
    Option (List ExtraKey) × ℤ :=
  let mm := genMmExtraHashKeys r start stop idx
  (toTuple (genLoraExtraHashKeys r ++ mm.1 ++ cacheSaltKeys r start ++
    genPromptEmbedsExtraHashKeys env r start stop), mm.2)

def hashBlockTokens (parent : Option Bytes) (tokens : List ℕ) (extraKeys : Option (List ExtraKey)) :
    Bytes :=
  let parent := match parent with
    | none | some [] => env.noneHash
    | some p => p
  env.hashFn (parent, tokens, extraKeys)

/-- The loop of `request_block_hasher`; the start index grows, so `num_tokens` rounds are enough. -/
def hashLoop (env : HashEnv) (blockSize : ℕ) (r : Request) : ℕ → ℕ → ℤ → Option Bytes → List Bytes
  | 0, _, _, _ => []
  | rounds + 1, start, idx, prev =>
    let stop := start + blockSize
    if stop > r.numTokens then []
    else
      let keys := generateBlockHashExtraKeys env r start stop idx
      let blockHash := hashBlockTokens env prev (slice r.allTokenIds start stop) keys.1
      blockHash :: hashLoop env blockSize r rounds stop keys.2 (some blockHash)

variable (blockSize : ℕ)

def requestBlockHasher (r : Request) : List Bytes :=
  let start := r.blockHashes.length * blockSize
  if start + blockSize > r.numTokens then []
  else hashLoop env blockSize r r.numTokens start (if start > 0 then -1 else 0)
    r.blockHashes.getLast?

namespace Request

def updateBlockHashes (r : Request) : Request :=
  { r with blockHashes := r.blockHashes ++ requestBlockHasher env blockSize r }

def appendOutputTokenIds (r : Request) (tokens : List ℕ) : Request :=
  updateBlockHashes env blockSize
    { r with
      outputTokenIds := r.outputTokenIds ++ tokens
      allTokenIds := r.allTokenIds ++ tokens }

/-- The arguments of `Request` that its block hashes depend on. -/
structure Args where
  prompt : Prompt
  mmFeatures : List MultiModalFeatureSpec := []
  loraRequest : Option LoRARequest := none
  cacheSalt : Option String := none

def init (a : Args) : Request where
  promptTokenIds := a.prompt.promptTokenIds
  promptEmbeds := a.prompt.promptEmbeds
  numPromptTokens := a.prompt.numPromptTokens
  allTokenIds := a.prompt.allTokenIds
  mmFeatures := a.mmFeatures
  loraRequest := a.loraRequest
  cacheSalt := a.cacheSalt

/-- A request to which the tokens of `outs` are appended step by step. -/
def generate (a : Args) (outs : List (List ℕ)) : Request :=
  outs.foldl (appendOutputTokenIds env blockSize) (updateBlockHashes env blockSize (init a))

end Request

def MultiModalFeatureSpec.Overlaps (start stop : ℕ) (f : MultiModalFeatureSpec) : Prop :=
  f.offset < stop ∧ start < f.stop

instance (start stop : ℕ) : DecidablePred (MultiModalFeatureSpec.Overlaps start stop) :=
  fun _ => inferInstanceAs (Decidable (_ ∧ _))

def mmKeys (fs : List MultiModalFeatureSpec) (j : ℕ) : List ExtraKey :=
  (fs.filter (fun f => f.Overlaps (j * blockSize) ((j + 1) * blockSize))).map
    (mmKey (j * blockSize))

def blockContent (r : Request) (fs : List MultiModalFeatureSpec) (j : ℕ) :
    List ℕ × Option (List ExtraKey) :=
  (slice r.allTokenIds (j * blockSize) ((j + 1) * blockSize),
    toTuple (genLoraExtraHashKeys r ++ mmKeys blockSize fs j ++ cacheSaltKeys r (j * blockSize) ++
      genPromptEmbedsExtraHashKeys env r (j * blockSize) ((j + 1) * blockSize)))

def hashStep (parent : Bytes) (content : List ℕ × Option (List ExtraKey)) : Bytes :=
  hashBlockTokens env (some parent) content.1 content.2

/-- The hashes of the full blocks, with the keys of every item that overlaps a block. -/
def scratchHashes (r : Request) : List Bytes :=
  Chain.chain (hashStep env) env.noneHash
    ((List.range (r.numTokens / blockSize)).map (blockContent env blockSize r r.mmFeatures))

end Vllm
