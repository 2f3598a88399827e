import Vllm.KVCache.BlockPool

/-!
# Prefix-cache lookup

`find_longest_cache_hit` in `single_type_kv_cache_manager.py` and `kv_cache_coordinator.py`. Row `i`
holds the block at index `i` of each group that shares a spec.
-/

namespace Vllm

/-- `mamba_cache_mode`. -/
inductive MambaCacheMode where
  | all
  | align
  | none
  deriving DecidableEq, Repr

/-- The attention of a KV cache group, with what its manager reads of the spec. -/
inductive AttentionType where
  | full
  | slidingWindow (slidingWindow : ℕ)
  | chunkedLocal (attentionChunkSize : ℕ)
  | mamba (mambaCacheMode : MambaCacheMode) (numSpeculativeBlocks : ℕ)
  | crossAttention
  deriving DecidableEq, Repr

/-- `KVCacheSpec`; `layout` stands for the fields that only equality reads. -/
structure KVCacheSpec where
  attention : AttentionType
  blockSize : ℕ
  layout : ℕ := 0
  deriving DecidableEq, Repr

def KVCacheSpec.isFull (spec : KVCacheSpec) : Bool := spec.attention = .full

abbrev Row := List ℕ

namespace CacheHit

section managers

variable (p : BlockPool) (hashes : BlockHashList) (gids : List ℕ)

def nullRow : Row := gids.map fun _ => nullBlock

/-- What is left of `n` rows when rows are popped until the alignment fits. -/
def alignDown (blockSize alignmentTokens : ℕ) : ℕ → ℕ
  | 0 => 0
  | n + 1 =>
    if blockSize ≠ alignmentTokens ∧ (n + 1) * blockSize % alignmentTokens ≠ 0 then
      alignDown blockSize alignmentTokens n
    else n + 1

def popUnaligned (blockSize alignmentTokens : ℕ) (rows : List Row) : List Row :=
  rows.take (alignDown blockSize alignmentTokens rows.length)

def cachedPrefix : List Bytes → List Row
  | [] => []
  | h :: hs => match p.getCachedBlock h gids with
    | some row => row :: cachedPrefix hs
    | none => []

def findFull (blockSize maxLength : ℕ) (dropEagleBlock : Bool) (alignmentTokens : ℕ) : List Row :=
  let rows := cachedPrefix p gids (hashes.toList.take (maxLength / blockSize))
  let rows := if dropEagleBlock then rows.dropLast else rows
  popUnaligned blockSize alignmentTokens rows

def contiguousBlocksForHit (windowSize blockSize : ℕ) (useEagle : Bool) : ℤ :=
  cdiv (windowSize - 1) blockSize + if useEagle then 1 else 0

/-- The loop of `SlidingWindowManager` from right to left: the rows, the contiguous hits, and
whether a match was found.
-/
def slidingWindowLoop (blockSize : ℕ) (need : ℤ) (dropEagleBlock : Bool) (alignmentTokens : ℕ) :
    ℕ → List Row → ℕ → Py (List Row × ℕ × Bool)
  | 0, rows, numContiguous => .ok (rows, numContiguous, false)
  | i + 1, rows, numContiguous => do
    let h ← hashes.get i
    match p.getCachedBlock h gids with
    | some row =>
      let postPopBlocks := if dropEagleBlock then i else i + 1
      if numContiguous = 0 ∧ blockSize ≠ alignmentTokens ∧
          postPopBlocks * blockSize % alignmentTokens ≠ 0 then
        slidingWindowLoop blockSize need dropEagleBlock alignmentTokens i rows numContiguous
      else
        let rows := rows.set i row
        let numContiguous := numContiguous + 1
        if (numContiguous : ℤ) ≥ need then .ok (rows.take (i + numContiguous), numContiguous, true)
        else slidingWindowLoop blockSize need dropEagleBlock alignmentTokens i rows numContiguous
    | none => slidingWindowLoop blockSize need dropEagleBlock alignmentTokens i rows 0

/-- `SlidingWindowManager.find_longest_cache_hit`. -/
def findSlidingWindow (slidingWindow blockSize maxLength : ℕ) (dropEagleBlock : Bool)
    (alignmentTokens : ℕ) : Py (List Row) := do
  let need := contiguousBlocksForHit slidingWindow blockSize dropEagleBlock
  let maxNumBlocks := maxLength / blockSize
  let (rows, numContiguous, matchFound) ← slidingWindowLoop p hashes gids blockSize need
    dropEagleBlock alignmentTokens maxNumBlocks (List.replicate maxNumBlocks (nullRow gids)) 0
  let rows := if matchFound then rows
    else popUnaligned blockSize alignmentTokens (rows.take numContiguous)
  .ok (if dropEagleBlock ∧ rows ≠ [] then popUnaligned blockSize alignmentTokens rows.dropLast
    else rows)

def chunkedLoop : ℕ → ℕ → Py (List Row)
  | 0, _ => .ok []
  | n + 1, i => do
    let h ← hashes.get i
    match p.getCachedBlock h gids with
    | some row => do
      let rest ← chunkedLoop n (i + 1)
      .ok (row :: rest)
    | none => .ok []

def findChunkedLocal (attentionChunkSize blockSize cp maxLength : ℕ) (dropEagleBlock : Bool)
    (alignmentTokens : ℕ) : Py (List Row) := do
  pyAssert (dropEagleBlock = false)
    "Hybrid KV cache is not supported for eagle + chunked local attention."
  pyAssert (cp = 1) "DCP not support chunked local attn now."
  pyAssert (blockSize = alignmentTokens)
    ("KV cache groups with different block sizes are not compatible with " ++
      "chunked local attention now")
  let maxNumBlocks := maxLength / blockSize
  let startIdx := if maxLength > 0 then maxLength / attentionChunkSize * attentionChunkSize else 0
  let startBlock := startIdx / blockSize
  let rows ← chunkedLoop p hashes gids (maxNumBlocks - startBlock) startBlock
  .ok (List.replicate startBlock (nullRow gids) ++ rows)

def mambaLoop (blockSize alignmentTokens : ℕ) : ℕ → Py (List Row)
  | 0 => .ok []
  | i + 1 => do
    let h ← hashes.get i
    match p.getCachedBlock h gids with
    | some row =>
      if blockSize ≠ alignmentTokens ∧ (i + 1) * blockSize % alignmentTokens ≠ 0 then
        mambaLoop blockSize alignmentTokens i
      else .ok (List.replicate i (nullRow gids) ++ [row])
    | none => mambaLoop blockSize alignmentTokens i

/-- `cp` is the product of the context-parallel sizes, which only full attention supports. -/
def findLongestCacheHit (spec : KVCacheSpec) (cp maxLength : ℕ) (dropEagleBlock : Bool)
    (alignmentTokens : ℕ) : Py (List Row) :=
  match spec.attention with
  | .full =>
    .ok (findFull p hashes gids (spec.blockSize * cp) maxLength dropEagleBlock alignmentTokens)
  | .slidingWindow w => do
    pyAssert (cp = 1) "DCP not support sliding window attn now."
    findSlidingWindow p hashes gids w spec.blockSize maxLength dropEagleBlock alignmentTokens
  | .chunkedLocal c =>
    findChunkedLocal p hashes gids c spec.blockSize cp maxLength dropEagleBlock alignmentTokens
  | .mamba _ _ => do
    pyAssert (cp = 1) "DCP not support mamba now."
    mambaLoop p hashes gids spec.blockSize alignmentTokens (maxLength / spec.blockSize)
  | .crossAttention =>
    .error (.notImplementedError "CrossAttentionManager does not support caching")

end managers

/-! ## The hybrid coordinator -/

/-- `KVCacheGroupSpec`. -/
structure KVCacheGroupSpec where
  kvCacheSpec : KVCacheSpec
  isEagleGroup : Bool := false

variable (groups : List KVCacheGroupSpec)

def eagleGroupIds (useEagle : Bool) : List ℕ :=
  let flagged := (List.range groups.length).filter fun i =>
    (groups[i]?.map KVCacheGroupSpec.isEagleGroup).getD false
  if useEagle ∧ flagged = [] then List.range groups.length else flagged

/-- An entry of `attention_groups`: the groups of one spec. -/
structure SpecGroup where
  spec : KVCacheSpec
  groupIds : List ℕ
  useEagle : Bool

def addToSpecGroup (spec : KVCacheSpec) (i : ℕ) (useEagle : Bool) : List SpecGroup → List SpecGroup
  | [] => [⟨spec, [i], useEagle⟩]
  | g :: gs =>
    if g.spec = spec then
      { g with groupIds := g.groupIds ++ [i], useEagle := g.useEagle || useEagle } :: gs
    else g :: addToSpecGroup spec i useEagle gs

def specGroups (useEagle : Bool) : List SpecGroup :=
  groups.zipIdx.foldl (fun gs g =>
    addToSpecGroup g.1.kvCacheSpec g.2 (decide (g.2 ∈ eagleGroupIds groups useEagle)) gs) []

/-- `HybridKVCacheCoordinator`, as far as `find_longest_cache_hit` reads it. -/
structure HybridCoordinator where
  numGroups : ℕ
  schedulerBlockSize : ℕ
  hashBlockSize : ℕ
  attentionGroups : List SpecGroup

/-- `HybridKVCacheCoordinator.__init__` with `verify_and_split_kv_cache_groups`: full attention
comes first. -/
def HybridCoordinator.init (useEagle : Bool)
    (cp schedulerBlockSize hashBlockSize : ℕ) : Py HybridCoordinator := do
  pyAssert (schedulerBlockSize % hashBlockSize = 0 ∧
    ∀ g ∈ groups, schedulerBlockSize % g.kvCacheSpec.blockSize = 0) ""
  pyAssert (∀ g ∈ groups, g.kvCacheSpec.blockSize % hashBlockSize = 0)
    "block_size must be divisible by hash_block_size"
  pyAssert (cp = 1) "DCP not support hybrid attn now."
  let gs := specGroups groups useEagle
  pyAssert (gs.length > 1) "HybridKVCacheCoordinator requires at least two attention groups."
  .ok ⟨groups.length, schedulerBlockSize, hashBlockSize,
    gs.filter (·.spec.isFull) ++ gs.filter (!·.spec.isFull)⟩

/-- The local variables of `find_longest_cache_hit`; `hitRows idx` are the last rows of spec group
`idx`. -/
structure HitState where
  currHitLength : ℕ
  longestHitLength : ℕ := 0
  hitRows : ℕ → Option (List Row) := fun _ => none
  eagleVerified : List ℕ := []

section hybrid

variable (p : BlockPool) (c : HybridCoordinator) (blockHashes : List Bytes) (maxCacheHitLength : ℕ)

def visitGroup (st : HitState) (g : SpecGroup) (idx : ℕ) : Py HitState :=
  if g.spec.isFull ∧ (st.hitRows idx).isSome then
    -- Full attention is looked up once; later rounds only round the length down.
    .ok { st with currHitLength := st.currHitLength / g.spec.blockSize * g.spec.blockSize }
  else do
    let dropEagleBlock := g.useEagle ∧ idx ∉ st.eagleVerified
    let maxLength :=
      if dropEagleBlock then min (st.currHitLength + g.spec.blockSize) maxCacheHitLength
      else st.currHitLength
    let hashes ← BlockPool.blockHashesAt c.hashBlockSize g.spec.blockSize blockHashes
    let rows ← findLongestCacheHit p hashes g.groupIds g.spec 1 maxLength dropEagleBlock
      c.schedulerBlockSize
    let newHitLength := rows.length * g.spec.blockSize
    .ok
      { currHitLength := newHitLength
        longestHitLength := max st.longestHitLength newHitLength
        hitRows := Function.update st.hitRows idx (some rows)
        eagleVerified :=
          if dropEagleBlock then idx :: st.eagleVerified
          else if newHitLength < st.currHitLength then []
          else st.eagleVerified }

def visitGroups : List SpecGroup → ℕ → HitState → Py HitState
  | [], _, st => .ok st
  | g :: gs, idx, st => do
    let st ← visitGroup p c blockHashes maxCacheHitLength st g idx
    visitGroups gs (idx + 1) st

def isSimpleHybrid : Bool :=
  c.attentionGroups.length = 2 ∧ (c.attentionGroups.head?.map (·.spec.isFull)).getD false

/-- The `while True` loop: `hit_length` and the local variables. All rounds but the last lower
`hit_length`. -/
def hitLoop (simple : Bool) : ℕ → ℕ → HitState → Py (ℕ × HitState)
  | 0, hitLength, st => .ok (hitLength, st)
  | rounds + 1, hitLength, st => do
    let st ← visitGroups p c blockHashes maxCacheHitLength c.attentionGroups 0
      { st with currHitLength := hitLength }
    if st.currHitLength ≥ hitLength then .ok (hitLength, st)
    else if simple then .ok (st.currHitLength, st)
    else hitLoop simple rounds st.currHitLength st

/-- The rows of spec group `idx` in the result: only a leading full-attention group is cut. -/
def finalRows (hitLength : ℕ) (st : HitState) (g : SpecGroup) (idx : ℕ) : List Row :=
  let rows := (st.hitRows idx).getD []
  if idx = 0 ∧ g.spec.isFull then rows.take (hitLength / g.spec.blockSize) else rows

def finalBlocks (hitLength : ℕ) (st : HitState) (gid : ℕ) : List ℕ :=
  match c.attentionGroups.zipIdx.find? fun g => gid ∈ g.1.groupIds with
  | none => []
  | some (g, idx) => (finalRows hitLength st g idx).map fun row => row.getD (g.groupIds.idxOf gid) 0

/-- What `find_longest_cache_hit` returns. -/
structure HitResult where
  blocks : List (List ℕ)
  hitLength : ℕ
  numUncachedCommonPrefixTokens : ℤ

/-- `HybridKVCacheCoordinator.find_longest_cache_hit`. -/
def findHybrid : Py HitResult := do
  let (hitLength, st) ← hitLoop p c blockHashes maxCacheHitLength (isSimpleHybrid c)
    (maxCacheHitLength + 1) maxCacheHitLength { currHitLength := maxCacheHitLength }
  .ok ⟨(List.range c.numGroups).map (finalBlocks c hitLength st), hitLength,
    st.longestHitLength - hitLength⟩

end hybrid

end CacheHit

end Vllm
