import Vllm.KVCache.SingleTypeManager
import Vllm.Lib.Run

/-!
# The KV-cache manager

`KVCacheManager` of `kv_cache_manager.py`, its coordinator (`kv_cache_coordinator.py`) and a
scheduler's calls, without statistics and event annotation.
-/

namespace Vllm

open CacheHit

/-- The coordinator that `get_kv_cache_coordinator` chooses. -/
inductive Coordinator where
  | noPrefixCache
  | unitary (dropEagleBlock : Bool)
  | hybrid (c : HybridCoordinator)

/-- `KVCacheManager` with its coordinator. -/
structure KVCacheManager where
  maxModelLen : ℕ
  enableCaching : Bool
  watermarkBlocks : ℕ
  schedulerBlockSize : ℕ
  retentionInterval : Option ℕ
  cp : ℕ
  coordinator : Coordinator
  managers : List SingleTypeKVCacheManager
  blockPool : BlockPool

/-- The arguments of `KVCacheManager`. -/
structure KVCacheManagerArgs where
  groups : List KVCacheGroupSpec
  numBlocks : ℕ
  maxModelLen : ℕ
  maxNumBatchedTokens : ℕ
  schedulerBlockSize : ℕ
  hashBlockSize : ℕ
  enableCaching : Bool := true
  useEagle : Bool := false
  enableKvCacheEvents : Bool := false
  useIntBlockHashes : Bool := false
  cp : ℕ := 1
  watermarkBlocks : ℕ := 0
  retentionInterval : Option ℕ := none

namespace KVCacheManager

def maxAdmissionBlocksPerRequest (spec : KVCacheSpec) (maxNumBatchedTokens maxModelLen : ℕ) :
    Option ℤ :=
  match spec.attention with
  | .slidingWindow w =>
    some (cdiv (min ((w : ℤ) - 1 + maxNumBatchedTokens) maxModelLen) spec.blockSize + 1)
  | .chunkedLocal c => some (cdiv (min ((c : ℤ) + maxNumBatchedTokens) maxModelLen) spec.blockSize)
  | _ => none

variable (a : KVCacheManagerArgs)

def makeManager (useEagle : Bool) (g : KVCacheGroupSpec) (gid : ℕ) :
    SingleTypeKVCacheManager where
  spec := g.kvCacheSpec
  blockSize := g.kvCacheSpec.blockSize * a.cp
  enableCaching := a.enableCaching
  kvCacheGroupId := gid
  schedulerBlockSize := a.schedulerBlockSize
  maxAdmissionBlocksPerRequest :=
    maxAdmissionBlocksPerRequest g.kvCacheSpec a.maxNumBatchedTokens a.maxModelLen
  useEagle := useEagle

def validateRetentionInterval : Py Unit :=
  match a.retentionInterval with
  | none => .ok ()
  | some n =>
    let isSlidingWindow (g : KVCacheGroupSpec) : Bool := match g.kvCacheSpec.attention with
      | .slidingWindow _ => true
      | _ => false
    if ¬ a.groups.any isSlidingWindow then
      .error (.valueError ("VLLM_PREFIX_CACHE_RETENTION_INTERVAL is set but this model has " ++
        "no sliding-window KV cache group, so retention has no effect. " ++
        "Unset it (the feature only applies to sliding-window attention)."))
    else if n % a.schedulerBlockSize ≠ 0 then
      let blockSize := a.schedulerBlockSize
      .error (.valueError (s!"VLLM_PREFIX_CACHE_RETENTION_INTERVAL ({n}) " ++
        s!"must be non-negative and a multiple of scheduler_block_size ({blockSize})."))
    else .ok ()

def makeCoordinator : Py (Coordinator × (ℕ → Bool)) :=
  let eagle := eagleGroupIds a.groups a.useEagle
  if ¬ a.enableCaching then .ok (.noPrefixCache, fun _ => false)
  else match a.groups with
    | [g] => do
      pyAssert (a.hashBlockSize = g.kvCacheSpec.blockSize * a.cp)
        "UnitaryKVCacheCoordinator assumes hash_block_size == block_size"
      .ok (.unitary (0 ∈ eagle), fun _ => 0 ∈ eagle)
    | groups => do
      let c ← HybridCoordinator.init groups a.useEagle a.cp a.schedulerBlockSize a.hashBlockSize
      .ok (.hybrid c, fun gid => c.attentionGroups.any fun g => g.useEagle && gid ∈ g.groupIds)

def init : Py KVCacheManager := do
  pyAssert (a.schedulerBlockSize % a.hashBlockSize = 0 ∧
    ∀ g ∈ a.groups, a.schedulerBlockSize % g.kvCacheSpec.blockSize = 0) ""
  pyAssert (a.numBlocks > 0) ""
  validateRetentionInterval a
  let (coordinator, useEagle) ← makeCoordinator a
  .ok
    { maxModelLen := a.maxModelLen
      enableCaching := a.enableCaching
      watermarkBlocks := a.watermarkBlocks
      schedulerBlockSize := a.schedulerBlockSize
      retentionInterval := a.retentionInterval
      cp := a.cp
      coordinator := coordinator
      managers := a.groups.mapIdx fun gid g => makeManager a (useEagle gid) g gid
      blockPool := BlockPool.init a.numBlocks a.enableCaching a.hashBlockSize a.enableKvCacheEvents
        a.useIntBlockHashes }

def forManagers {β : Type}
    (f : SingleTypeKVCacheManager → BlockPool → Py (β × SingleTypeKVCacheManager × BlockPool)) :
    List SingleTypeKVCacheManager → BlockPool →
    Py (List β × List SingleTypeKVCacheManager × BlockPool)
  | [], p => .ok ([], [], p)
  | m :: ms, p => do
    let (x, m, p) ← f m p
    let (xs, ms, p) ← forManagers f ms p
    .ok (x :: xs, m :: ms, p)

variable (k : KVCacheManager)

def withManagers {β : Type} (f : SingleTypeKVCacheManager → BlockPool →
    Py (β × SingleTypeKVCacheManager × BlockPool)) : Py (List β × KVCacheManager) := do
  let (xs, ms, p) ← forManagers f k.managers k.blockPool
  .ok (xs, { k with managers := ms, blockPool := p })

def silent (x : Py (SingleTypeKVCacheManager × BlockPool)) :
    Py (Unit × SingleTypeKVCacheManager × BlockPool) := do
  let (m, p) ← x
  .ok ((), m, p)

def nthBlocks (newComputedBlocks : List (List ℕ)) (gid : ℕ) : Py (List ℕ) :=
  match newComputedBlocks[gid]? with
  | none => .error (.indexError "tuple index out of range")
  | some blocks => .ok blocks

def findLongestCacheHit (blockHashes : List Bytes) (maxCacheHitLength : ℕ) :
    Py (List (List ℕ) × ℕ) :=
  match k.coordinator with
  | .noPrefixCache => .ok (k.managers.map fun _ => [], 0)
  | .unitary dropEagleBlock => match k.managers with
    | [] => .error (.indexError "tuple index out of range")
    | m :: _ => do
      let rows ← CacheHit.findLongestCacheHit k.blockPool (.plain blockHashes) [0] m.spec k.cp
        maxCacheHitLength dropEagleBlock m.blockSize
      .ok ([rows.map fun row => row.getD 0 0], rows.length * m.blockSize)
  | .hybrid c => do
    let out ← findHybrid k.blockPool c blockHashes maxCacheHitLength
    .ok (out.blocks, out.hitLength)

/-- `get_computed_blocks`: at least the last token is left to be computed. -/
def getComputedBlocks (r : Request) : Py (List (List ℕ) × ℕ) :=
  if ¬ k.enableCaching ∨ r.skipReadingPrefixCache then .ok (k.managers.map fun _ => [], 0)
  else k.findLongestCacheHit r.blockHashes (r.numTokens - 1)

/-! ## Allocation -/

variable (m : SingleTypeKVCacheManager)

/-- The call for one manager: cross-attention has one static allocation for the encoder tokens. -/
def managerNumBlocksToAllocate (p : BlockPool) (rid : String) (numTokens : ℤ)
    (newComputedBlocks : List (List ℕ))
    (numEncoderTokens totalComputedTokens numTokensMainModel : ℤ) (applyAdmissionCap : Bool) :
    Py ℤ :=
  if m.spec.attention = .crossAttention then
    m.getNumBlocksToAllocate p rid numEncoderTokens [] 0 numEncoderTokens applyAdmissionCap
  else do
    let blocks ← nthBlocks newComputedBlocks m.kvCacheGroupId
    m.getNumBlocksToAllocate p rid numTokens blocks totalComputedTokens numTokensMainModel
      applyAdmissionCap

variable (rid : String)

/-- `KVCacheCoordinator.get_num_blocks_to_allocate`. -/
def getNumBlocksToAllocate (numTokens : ℤ) (newComputedBlocks : List (List ℕ))
    (numEncoderTokens totalComputedTokens numTokensMainModel : ℤ) (applyAdmissionCap : Bool) :
    Py ℤ := do
  let ns ← k.managers.mapM fun m => managerNumBlocksToAllocate m k.blockPool rid numTokens
    newComputedBlocks numEncoderTokens totalComputedTokens numTokensMainModel applyAdmissionCap
  .ok ns.sum

def allocateNewComputedBlocks (newComputedBlocks : List (List ℕ))
    (numLocalComputedTokens numExternalComputedTokens : ℤ) : Py KVCacheManager :=
  if k.managers.any (·.isTracked rid) then do
    pyAssert (newComputedBlocks.all (·.length = 0)) ""
    .ok k
  else do
    let (_, k) ← k.withManagers fun m p => do
      let blocks ← nthBlocks newComputedBlocks m.kvCacheGroupId
      silent (m.addLocalComputedBlocks p rid blocks numLocalComputedTokens
        numExternalComputedTokens)
    if numExternalComputedTokens > 0 then do
      let (_, k) ← k.withManagers fun m p =>
        silent (m.allocateExternalComputedBlocks p rid numLocalComputedTokens
          numExternalComputedTokens)
      .ok k
    else .ok k

def allocateNewBlocks (numTokens numTokensMainModel numEncoderTokens : ℤ) :
    Py (List (List ℕ) × KVCacheManager) :=
  k.withManagers fun m p => m.allocateNewBlocks p rid
    (if m.spec.attention = .crossAttention then numEncoderTokens else numTokens) numTokensMainModel

/-- `remove_skipped_blocks` of all groups. -/
def removeSkippedBlocks (totalComputedTokens : ℤ) : Py KVCacheManager := do
  let (_, k) ← k.withManagers fun m p => silent (m.removeSkippedBlocks p rid totalComputedTokens)
  .ok k

/-- The tokens that a manager caches: rounded down by the hybrid coordinator, with one block more
for EAGLE. -/
def numTokensToCache (numComputedTokens : ℤ) : ℤ :=
  match k.coordinator with
  | .hybrid c =>
    let aligned := numComputedTokens / c.schedulerBlockSize * c.schedulerBlockSize
    if m.useEagle ∧ aligned > 0 then min numComputedTokens (aligned + m.blockSize) else aligned
  | _ => numComputedTokens

variable (env : HashEnv)

def coordinatorCacheBlocks (r : Request) (numComputedTokens : ℤ) : Py KVCacheManager := do
  let (_, k) ← k.withManagers fun m p =>
    silent (m.cacheBlocks p env r (k.numTokensToCache m numComputedTokens) k.retentionInterval)
  .ok k

def cacheBlocks (r : Request) (numComputedTokens : ℤ) : Py KVCacheManager :=
  if k.enableCaching then k.coordinatorCacheBlocks env r numComputedTokens else .ok k

/-- The arguments of `allocate_slots`. -/
structure AllocArgs where
  numNewTokens : ℕ
  numLookaheadTokens : ℕ := 0
  numExternalComputedTokens : ℕ := 0
  delayCacheBlocks : Bool := false
  numEncoderTokens : ℕ := 0
  fullSequenceMustFit : Bool := false
  reservedBlocks : ℕ := 0
  hasScheduledReqs : Bool := true

def fullSequenceFits (r : Request) (a : AllocArgs) (newComputedBlocks : List (List ℕ))
    (totalComputedTokens watermarkBlocks : ℤ) : Py Bool :=
  if a.fullSequenceMustFit then do
    let fullNumTokens : ℤ := min r.numTokens k.maxModelLen
    let n ← k.getNumBlocksToAllocate r.requestId fullNumTokens newComputedBlocks a.numEncoderTokens
      totalComputedTokens fullNumTokens true
    .ok (n + watermarkBlocks ≤ k.blockPool.numFreeBlocks)
  else .ok true

/-- `allocate_new_computed_blocks` in `allocate_slots`; if all lists are empty, it is the shared
empty tuple. -/
def addComputedBlocks (r : Request) (a : AllocArgs) (newComputedBlocks : List (List ℕ))
    (numLocalComputedTokens : ℤ) : Py KVCacheManager :=
  if newComputedBlocks.any (· ≠ []) ∨ a.numExternalComputedTokens > 0 then
    k.allocateNewComputedBlocks r.requestId newComputedBlocks numLocalComputedTokens
      a.numExternalComputedTokens
  else .ok k

def commitSlots (r : Request) (a : AllocArgs) (newComputedBlocks : List (List ℕ))
    (numLocalComputedTokens totalComputedTokens numTokensNeedSlot numTokensMainModel : ℤ) :
    Py (List (List ℕ) × KVCacheManager) := do
  let k ← k.addComputedBlocks r a newComputedBlocks numLocalComputedTokens
  let (newBlocks, k) ← k.allocateNewBlocks r.requestId numTokensNeedSlot numTokensMainModel
    a.numEncoderTokens
  if ¬ k.enableCaching ∨ a.delayCacheBlocks then .ok (newBlocks, k)
  else do
    let k ← k.coordinatorCacheBlocks env r (min (totalComputedTokens + a.numNewTokens) r.numTokens)
    .ok (newBlocks, k)

def watermarkFor (r : Request) (a : AllocArgs) : ℤ :=
  if a.hasScheduledReqs ∧ (r.status = .waiting ∨ r.status = .preempted) then k.watermarkBlocks else
    0

def allocateSlots (r : Request) (a : AllocArgs) (numNewComputedTokens : ℕ)
    (newComputedBlocks : List (List ℕ)) : Py (Option (List (List ℕ)) × KVCacheManager) :=
  if a.numNewTokens = 0 ∧ a.numExternalComputedTokens = 0 then
    .error (.valueError ("num_new_tokens must be greater than 0 when there are no " ++
      "external computed tokens"))
  else do
    let numLocalComputedTokens := r.numComputedTokens + numNewComputedTokens
    let totalComputedTokens :=
      min (numLocalComputedTokens + a.numExternalComputedTokens) k.maxModelLen
    let watermarkBlocks := k.watermarkFor r a
    let fits ← k.fullSequenceFits r a newComputedBlocks totalComputedTokens watermarkBlocks
    if ¬ fits then .ok (none, k)
    else do
      let numTokensMainModel := totalComputedTokens + a.numNewTokens
      let numTokensNeedSlot := min (numTokensMainModel + a.numLookaheadTokens) k.maxModelLen
      let k ← k.removeSkippedBlocks r.requestId totalComputedTokens
      let n ← k.getNumBlocksToAllocate r.requestId numTokensNeedSlot newComputedBlocks
        a.numEncoderTokens (numLocalComputedTokens + a.numExternalComputedTokens) numTokensMainModel
        false
      if n + watermarkBlocks > k.blockPool.numFreeBlocks - a.reservedBlocks then .ok (none, k)
      else do
        let (newBlocks, k) ← k.commitSlots env r a newComputedBlocks numLocalComputedTokens
          totalComputedTokens numTokensNeedSlot numTokensMainModel
        .ok (some newBlocks, k)

def free : Py KVCacheManager := do
  let (_, k) ← k.withManagers fun m p => .ok ((), m.free p rid)
  .ok k

def popBlocksForFree : Py (List ℕ × KVCacheManager) := do
  let (blocks, k) ← k.withManagers fun m p =>
    let out := m.popBlocksForFree rid
    .ok (out.1, out.2, p)
  .ok (blocks.flatten, k)

def newStepStarts : KVCacheManager := { k with managers := k.managers.map (·.newStepStarts) }

end KVCacheManager

/-- The calls of the scheduler on the KV cache manager. -/
inductive KVCall where
  /-- `get_computed_blocks`, and `allocate_slots` with the hits it returned. -/
  | allocateWithHits (r : Request) (a : KVCacheManager.AllocArgs)
  | allocate (r : Request) (a : KVCacheManager.AllocArgs)
  | removeSkippedBlocks (rid : String) (totalComputedTokens : ℤ)
  | cacheBlocks (r : Request) (numComputedTokens : ℤ)
  | free (rid : String)
  /-- `pop_blocks_for_free`; the caller keeps the list and frees it later. -/
  | popBlocksForFree (rid : String)
  /-- `block_pool.free_blocks(reversed(blocks))` for the `i`-th list that was popped. -/
  | freePopped (i : ℕ)
  | evictBlocks (blockIds : List ℕ)
  | resetPrefixCache
  | newStepStarts

/-- The manager, and the block lists popped from it and not yet freed. -/
structure KVState where
  kv : KVCacheManager
  popped : List (List ℕ) := []

namespace KVState

/-- A call of the scheduler; block lists that are popped are kept until they are freed. -/
def call (env : HashEnv) (s : KVState) : KVCall → Py KVState
  | .allocateWithHits r a => do
    let (hits, n) ← s.kv.getComputedBlocks r
    let (_, kv) ← s.kv.allocateSlots env r a n hits
    .ok { s with kv := kv }
  | .allocate r a => do
    let (_, kv) ← s.kv.allocateSlots env r a 0 (s.kv.managers.map fun _ => [])
    .ok { s with kv := kv }
  | .removeSkippedBlocks rid n => do
    let kv ← s.kv.removeSkippedBlocks rid n
    .ok { s with kv := kv }
  | .cacheBlocks r n => do
    let kv ← s.kv.cacheBlocks env r n
    .ok { s with kv := kv }
  | .free rid => do
    let kv ← s.kv.free rid
    .ok { s with kv := kv }
  | .popBlocksForFree rid => do
    let (blocks, kv) ← s.kv.popBlocksForFree rid
    .ok { kv := kv, popped := blocks :: s.popped }
  | .freePopped i => match s.popped[i]? with
    | none => .error (.indexError "list index out of range")
    | some blocks =>
      let p := s.kv.blockPool.freeBlocks blocks.reverse
      .ok { kv := { s.kv with blockPool := p }, popped := s.popped.eraseIdx i }
  | .evictBlocks ids => do
    let p ← s.kv.blockPool.evictBlocks ids
    .ok { s with kv := { s.kv with blockPool := p } }
  | .resetPrefixCache =>
    let p := s.kv.blockPool.resetPrefixCache.2
    .ok { s with kv := { s.kv with blockPool := p } }
  | .newStepStarts => .ok { s with kv := s.kv.newStepStarts }

end KVState

end Vllm
