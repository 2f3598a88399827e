import Vllm.KVCache.CacheHit
import Vllm.Lib.Dict

/-!
# Managers of one attention type

`vllm/v1/core/single_type_kv_cache_manager.py`: the tables of one group, with the shared `BlockPool`
as an argument and without `new_block_ids`.
-/

namespace Vllm

/-- `SingleTypeKVCacheManager` of any attention type. -/
structure SingleTypeKVCacheManager where
  spec : KVCacheSpec
  /-- `kv_cache_spec.block_size` times the context-parallel world sizes. -/
  blockSize : ℕ
  enableCaching : Bool
  kvCacheGroupId : ℕ
  schedulerBlockSize : ℕ
  maxAdmissionBlocksPerRequest : Option ℤ := none
  useEagle : Bool := false
  reqToBlocks : Dict String (List ℕ) := ∅
  numCachedBlock : Dict String ℕ := ∅
  cachedBlocksThisStep : List Bytes := []
  lastStateBlockIdx : Dict String ℤ := ∅
  allocatedBlockReqs : List String := []

def pyIndex (n : ℕ) (i : ℤ) : Option ℕ :=
  if 0 ≤ i then (if i < n then some i.toNat else none)
  else if 0 ≤ n + i then some (n + i).toNat else none

def getNumSkippedTokens : AttentionType → ℤ → ℤ
  | .full, _ => 0
  | .slidingWindow w, n => max 0 (n - w + 1)
  | .chunkedLocal c, n => n / c * c
  | .mamba _ _, n => n - 1
  | .crossAttention, _ => 0

namespace SingleTypeKVCacheManager

variable (m : SingleTypeKVCacheManager) (p : BlockPool) (rid : String)

/-- The block table of the request. -/
def blocksOf : List ℕ := (m.reqToBlocks.lookup rid).getD []

def setBlocks (blocks : List ℕ) : SingleTypeKVCacheManager :=
  { m with reqToBlocks := m.reqToBlocks.insert rid blocks }

def isTracked : Bool := (m.numCachedBlock.lookup rid).isSome

def numSkippedBlocks (numComputedTokens : ℤ) : ℤ :=
  getNumSkippedTokens m.spec.attention numComputedTokens / m.blockSize

def getNumEvictableBlocks (blocks : List ℕ) : ℕ :=
  blocks.countP fun b => p.refCnt b = 0 ∧ b ≠ nullBlock

variable (numTokens : ℤ)

def baseNumBlocksToAllocate (newComputedBlocks : List ℕ) (totalComputedTokens : ℤ)
    (applyAdmissionCap : Bool) : Py ℤ :=
  let required := cdiv numTokens m.blockSize
  let required := match applyAdmissionCap, m.maxAdmissionBlocksPerRequest with
    | true, some cap => min required cap
    | _, _ => required
  let numReqBlocks : ℤ := (m.blocksOf rid).length
  if m.isTracked rid then do
    pyAssert (newComputedBlocks.length = 0) ""
    .ok (max (required - numReqBlocks) 0)
  else
    let skipped := m.numSkippedBlocks totalComputedTokens
    let numLocalComputedBlocks := newComputedBlocks.length + numReqBlocks
    let numNewBlocks := max (required - max skipped numLocalComputedBlocks) 0
    let numSkippedNew := max 0 (skipped - numReqBlocks)
    .ok (numNewBlocks + getNumEvictableBlocks p (newComputedBlocks.drop numSkippedNew.toNat))

def mambaNumBlocksToAllocate (mode : MambaCacheMode) (numSpec : ℕ) (numTokens : ℤ)
    (newComputedBlocks : List ℕ) (totalComputedTokens numTokensMainModel : ℤ)
    (applyAdmissionCap : Bool) : Py ℤ :=
  let lastHash := newComputedBlocks.getLast?.bind p.blockHash
  if lastHash.any (· ∈ m.cachedBlocksThisStep) then .ok (p.numGpuBlocks + 1)
  else if mode ≠ .align then
    m.baseNumBlocksToAllocate p rid (numTokens + m.spec.blockSize * numSpec) newComputedBlocks
      totalComputedTokens applyAdmissionCap
  else
    let required := cdiv numTokensMainModel m.blockSize + numSpec
    let numNewBlocks := required - newComputedBlocks.length - (m.blocksOf rid).length
    let numNewBlocks := if numNewBlocks > 0 then
        (if rid ∈ m.allocatedBlockReqs then 1 else 1 + (numSpec : ℤ))
      else numNewBlocks
    .ok (numNewBlocks + getNumEvictableBlocks p newComputedBlocks)

def getNumBlocksToAllocate (newComputedBlocks : List ℕ)
    (totalComputedTokens numTokensMainModel : ℤ) (applyAdmissionCap : Bool) : Py ℤ :=
  match m.spec.attention with
  | .mamba mode numSpec => m.mambaNumBlocksToAllocate p rid mode numSpec numTokens newComputedBlocks
      totalComputedTokens numTokensMainModel applyAdmissionCap
  | _ => m.baseNumBlocksToAllocate p rid numTokens newComputedBlocks totalComputedTokens
      applyAdmissionCap

def touchComputed (newComputedBlocks : List ℕ) : Py BlockPool :=
  if m.enableCaching then BlockPool.touch newComputedBlocks p
  else do
    pyAssert (newComputedBlocks = [])
      "Computed blocks should be empty when prefix caching is disabled"
    .ok p

def addLocalComputedBlocks (newComputedBlocks : List ℕ)
    (numLocalComputedTokens numExternalComputedTokens : ℤ) :
    Py (SingleTypeKVCacheManager × BlockPool) :=
  match m.spec.attention with
  | .crossAttention => do
    pyAssert (newComputedBlocks.length = 0) ""
    .ok (m, p)
  | _ => do
    pyAssert ((m.blocksOf rid).length = 0) ""
    let skipped := (m.numSkippedBlocks (numLocalComputedTokens + numExternalComputedTokens)).toNat
    let newComputedBlocks := newComputedBlocks.drop skipped
    let p ← m.touchComputed p newComputedBlocks
    let blocks := List.replicate skipped nullBlock ++ newComputedBlocks
    .ok ({ m.setBlocks rid blocks with
      numCachedBlock := m.numCachedBlock.insert rid blocks.length }, p)

def allocateExternalComputedBlocks (numLocalComputedTokens numExternalComputedTokens : ℤ) :
    Py (SingleTypeKVCacheManager × BlockPool) :=
  match m.spec.attention with
  | .crossAttention => .ok (m, p)
  | attention =>
    let total := numLocalComputedTokens + numExternalComputedTokens
    let skippedTokens := getNumSkippedTokens attention total
    let external := if skippedTokens > 0 then min (total - skippedTokens) numExternalComputedTokens
      else numExternalComputedTokens
    if external ≤ 0 then .ok (m, p)
    else do
      let reqBlocks := m.blocksOf rid
      let (allocated, p) ← p.getNewBlocks (cdiv total m.blockSize - reqBlocks.length)
      .ok (m.setBlocks rid (reqBlocks ++ allocated), p)

def baseAllocateNewBlocks : Py (List ℕ × SingleTypeKVCacheManager × BlockPool) :=
  let reqBlocks := m.blocksOf rid
  let numNewBlocks := cdiv numTokens m.blockSize - reqBlocks.length
  if numNewBlocks ≤ 0 then .ok ([], m.setBlocks rid reqBlocks, p)
  else do
    let (newBlocks, p) ← p.getNewBlocks numNewBlocks
    .ok (newBlocks, m.setBlocks rid (reqBlocks ++ newBlocks), p)

/-- `n` speculative blocks from index `idx` on move to the end of the table while they lie before
`numSkipped`. -/
def reuseLoop (numSkipped : ℤ) : ℕ → ℤ → List ℕ → Py (List ℕ)
  | 0, _, blocks => .ok blocks
  | n + 1, idx, blocks =>
    if idx < numSkipped then
      match pyIndex blocks.length idx with
      | none => .error (.indexError "list index out of range")
      | some i =>
        let blocks := blocks ++ [blocks.getD i nullBlock]
        match pyIndex blocks.length idx with
        | none => .error (.indexError "list assignment index out of range")
        | some j => reuseLoop numSkipped n (idx + 1) (blocks.set j nullBlock)
    else .ok blocks

/-- The table padded with nulls up to `numSkipped`; speculative blocks of an earlier allocation are
reused. -/
def reuseSpeculative (numSpec : ℕ) (numSkipped : ℤ) : Py (List ℕ) :=
  let reqBlocks := m.blocksOf rid
  let prevLen := reqBlocks.length
  let padded := reqBlocks ++ List.replicate (numSkipped - prevLen).toNat nullBlock
  if rid ∈ m.allocatedBlockReqs then reuseLoop numSkipped numSpec ((prevLen : ℤ) - numSpec) padded
  else .ok padded

def alignAllocateNewBlocks (numSpec : ℕ) (numTokensMainModel : ℤ) :
    Py (List ℕ × SingleTypeKVCacheManager × BlockPool) :=
  let reqBlocks := m.blocksOf rid
  let required := cdiv numTokensMainModel m.blockSize + numSpec
  let prevLen := reqBlocks.length
  if required ≤ prevLen then .ok ([], m.setBlocks rid reqBlocks, p)
  else do
    let allocated : Bool := rid ∈ m.allocatedBlockReqs
    let lastState :=
      if allocated then m.lastStateBlockIdx.insert rid ((prevLen : ℤ) - 1 - numSpec)
      else if prevLen > 0 then m.lastStateBlockIdx.insert rid ((prevLen : ℤ) - 1)
      else m.lastStateBlockIdx
    let reused ← m.reuseSpeculative rid numSpec (required - numSpec - 1)
    let numNewBlocks := required - reused.length
    pyAssert (numNewBlocks ≤ if allocated then 1 else (numSpec : ℤ) + 1) ""
    let (newBlocks, p) ← p.getNewBlocks numNewBlocks
    let blocks := reused ++ newBlocks
    .ok (blocks.drop prevLen,
      { m.setBlocks rid blocks with
        lastStateBlockIdx := lastState
        allocatedBlockReqs := m.allocatedBlockReqs.insert rid }, p)

def allocateNewBlocks (numTokens numTokensMainModel : ℤ) :
    Py (List ℕ × SingleTypeKVCacheManager × BlockPool) :=
  match m.spec.attention with
  | .mamba .align numSpec => m.alignAllocateNewBlocks p rid numSpec numTokensMainModel
  | .mamba _ numSpec => m.baseAllocateNewBlocks p rid (numTokens + m.blockSize * numSpec)
  | _ => m.baseAllocateNewBlocks p rid numTokens

/-- The loop of `remove_skipped_blocks` over the first `n` entries from the right, until a null
block. -/
def skipLoop : ℕ → List ℕ → List ℕ × List ℕ
  | 0, blocks => ([], blocks)
  | n + 1, blocks =>
    let b := blocks.getD n nullBlock
    if b = nullBlock then ([], blocks)
    else
      let rest := skipLoop n (blocks.set n nullBlock)
      (b :: rest.1, rest.2)

def baseRemoveSkippedBlocks (totalComputedTokens : ℤ) : SingleTypeKVCacheManager × BlockPool :=
  if getNumSkippedTokens m.spec.attention totalComputedTokens ≤ 0 then (m, p)
  else
    let blocks := m.blocksOf rid
    let n := min (m.numSkippedBlocks totalComputedTokens) blocks.length
    let out := skipLoop n.toNat blocks
    (m.setBlocks rid out.2, p.freeBlocks out.1)

def freeLastState (numComputedTokens : ℤ) : Py (SingleTypeKVCacheManager × BlockPool) :=
  match m.lastStateBlockIdx.lookup rid with
  | none => .ok (m, p)
  | some idx =>
    if idx < cdiv numComputedTokens m.blockSize - 1 then
      let blocks := m.blocksOf rid
      match pyIndex blocks.length idx with
      | none => .error (.indexError "list index out of range")
      | some i =>
        let b := blocks.getD i nullBlock
        if b ≠ nullBlock then .ok (m.setBlocks rid (blocks.set i nullBlock), p.freeBlocks [b])
        else .ok (m, p)
    else .ok (m, p)

/-- `remove_skipped_blocks`.  Mamba assumes that all draft tokens are rejected. -/
def removeSkippedBlocks (totalComputedTokens : ℤ) : Py (SingleTypeKVCacheManager × BlockPool) :=
  match m.spec.attention with
  | .mamba mode numSpec =>
    let numComputedTokens := max 0 (totalComputedTokens - numSpec)
    let out := m.baseRemoveSkippedBlocks p rid numComputedTokens
    if mode = .align then out.1.freeLastState out.2 rid numComputedTokens else .ok out
  | _ => .ok (m.baseRemoveSkippedBlocks p rid totalComputedTokens)

def popBlocksForFree : List ℕ × SingleTypeKVCacheManager :=
  (m.blocksOf rid,
    { m with
      reqToBlocks := m.reqToBlocks.erase rid
      numCachedBlock := m.numCachedBlock.erase rid
      lastStateBlockIdx := m.lastStateBlockIdx.erase rid
      allocatedBlockReqs := m.allocatedBlockReqs.filter (· ≠ rid) })

def free : SingleTypeKVCacheManager × BlockPool :=
  let out := m.popBlocksForFree rid
  (out.2, p.freeBlocks out.1.reverse)

def slidingWindowMask (window startBlock endBlock : ℕ) (retentionInterval : Option ℕ)
    (numPromptTokens : ℕ) : Py (Option (List Bool)) := do
  pyAssert (m.schedulerBlockSize % m.spec.blockSize = 0) ""
  let need := CacheHit.contiguousBlocksForHit window m.spec.blockSize m.useEagle
  let shift : ℤ := if m.useEagle then 1 else 0
  let perSegment : Option ℤ := match retentionInterval with
    | none => some (m.schedulerBlockSize / m.spec.blockSize)
    | some 0 => none
    | some (n + 1) => some ((n + 1 : ℤ) / m.spec.blockSize)
  if perSegment.any (need ≥ ·) then .ok none
  else
    let inTail (i : ℤ) : Bool := perSegment.any fun per => i ≥ shift ∧
      (i - shift) % per ≥ per - need
    let latest : ℤ := ((numPromptTokens : ℤ) - 1) / m.schedulerBlockSize * m.schedulerBlockSize
    let promptEnd := latest / m.spec.blockSize + shift
    let inReplay (i : ℤ) : Bool := retentionInterval.isSome ∧ promptEnd - need ≤ i ∧ i < promptEnd
    .ok (some ((List.range' startBlock (endBlock - startBlock)).map fun i : ℕ =>
      inTail i || inReplay i))

def reachableBlockMask (startBlock endBlock : ℕ) (retentionInterval : Option ℕ)
    (numPromptTokens : ℕ) : Py (Option (List Bool)) :=
  match m.spec.attention with
  | .slidingWindow w => m.slidingWindowMask w startBlock endBlock retentionInterval numPromptTokens
  | _ => .ok none

def baseCacheBlocks (env : HashEnv) (r : Request) (numTokens : ℤ) (retentionInterval : Option ℕ) :
    Py (SingleTypeKVCacheManager × BlockPool) :=
  let numCached := (m.numCachedBlock.lookup r.requestId).getD 0
  let numFull := (numTokens / m.blockSize).toNat
  if numCached ≥ numFull then .ok (m, p)
  else do
    let mask ← m.reachableBlockMask numCached numFull retentionInterval r.numPromptTokens
    let blocks := m.blocksOf r.requestId
    let p ← p.cacheFullBlocks env r blocks numCached numFull m.blockSize m.kvCacheGroupId mask
    .ok ({ m.setBlocks r.requestId blocks with
      numCachedBlock := m.numCachedBlock.insert r.requestId numFull }, p)

def cachedKeys : List ℕ → Py (List Bytes)
  | [] => .ok []
  | b :: bs =>
    if b = nullBlock then cachedKeys bs
    else match p.blockHash b with
      | none => .error (.assertionError "")
      | some key => do
        let rest ← cachedKeys bs
        .ok (key :: rest)

def cacheBlocks (env : HashEnv) (r : Request) (numTokens : ℤ) (retentionInterval : Option ℕ) :
    Py (SingleTypeKVCacheManager × BlockPool) :=
  match m.spec.attention with
  | .crossAttention => .error (.valueError "Should not be called as prefix caching is disabled.")
  | .mamba _ _ => do
    let before := (m.numCachedBlock.lookup r.requestId).getD 0
    let (m, p) ← m.baseCacheBlocks p env r numTokens retentionInterval
    let after := (m.numCachedBlock.lookup r.requestId).getD 0
    let keys ← cachedKeys p (slice (m.blocksOf r.requestId) before after)
    .ok ({ m with cachedBlocksThisStep := m.cachedBlocksThisStep ++ keys }, p)
  | _ => m.baseCacheBlocks p env r numTokens retentionInterval

def newStepStarts : SingleTypeKVCacheManager := { m with cachedBlocksThisStep := [] }

end SingleTypeKVCacheManager

end Vllm
