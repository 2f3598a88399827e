import Vllm.Offload.Connector

/-!
# Lookups and loads of the offloading connector

`lookup` is the manager's answer during one call: `some true` for a block that can be loaded, `none`
if deferred.
-/

namespace Vllm.Offload

def maximalPrefixLookup (lookup : OffloadKey → Option Bool) :
    List OffloadKey → (hitCount : ℕ := 0) → (deferLookup : Bool := false) → Option ℕ
  | [], hitCount, deferLookup => if deferLookup then none else some hitCount
  | key :: keys, hitCount, deferLookup =>
    match lookup key with
    | none => maximalPrefixLookup lookup keys (hitCount + 1) true
    | some true => maximalPrefixLookup lookup keys (hitCount + 1) deferLookup
    | some false => if deferLookup then none else some hitCount

/-- The loop of `_sliding_window_lookup`, over the reversed keys. -/
def slidingWindowScan (lookup : OffloadKey → Option Bool) (slidingWindowSize : ℕ) :
    List OffloadKey → (consecutiveHits : ℕ := 0) → (deferLookup : Bool := false) → Option ℕ
  | [], consecutiveHits, deferLookup => if deferLookup then none else some consecutiveHits
  | key :: keys, consecutiveHits, deferLookup =>
    match lookup key with
    | none => slidingWindowScan lookup slidingWindowSize keys 0 true
    | some false => slidingWindowScan lookup slidingWindowSize keys 0 deferLookup
    | some true =>
      if consecutiveHits + 1 = slidingWindowSize then
        if deferLookup then none else some (keys.length + slidingWindowSize)
      else slidingWindowScan lookup slidingWindowSize keys (consecutiveHits + 1) deferLookup

def slidingWindowLookup (lookup : OffloadKey → Option Bool) (keys : List OffloadKey)
    (slidingWindowSize : ℕ) :
    Option ℕ := slidingWindowScan lookup slidingWindowSize keys.reverse

def ceilDiv (a b : ℕ) : ℕ := (cdiv a b).toNat

/-- The local variables of the lookup loop. -/
structure LookupState where
  maxHitSizeTokens : ℕ
  numHitTokens : ℕ := 0
  deferLookup : Bool := false
  lookupGroups : List ℕ
  eagleVerified : List ℕ := []
  lookedUpSlidingWindow : Bool := false
  deriving DecidableEq, Repr

namespace ConnectorScheduler

variable (s : ConnectorScheduler) (lookup : OffloadKey → Option Bool) (st : RequestOffloadState)
  (numTokens : ℕ) (g : GroupOffloadConfig)

/-- The lookup of one group in `_lookup`: how many blocks are hit after the computed ones. -/
def groupHits (keys : List OffloadKey) (isEagleUnverified : Bool) : Option ℕ :=
  match g.slidingWindowSizeInBlocks with
  | none => maximalPrefixLookup lookup keys
  | some window =>
    slidingWindowLookup lookup keys (if isEagleUnverified then window + 1 else window)

def queriedKeys (offloadKeys : List OffloadKey) (numComputedTokens maxHitSizeTokens : ℕ)
    (isEagleUnverified : Bool) : List OffloadKey :=
  let size := g.offloadedBlockSize
  -- one more block for an EAGLE group with a window, which is taken away again
  let queryMax :=
    if isEagleUnverified ∧ g.slidingWindowSizeInBlocks.isSome then
      min (maxHitSizeTokens + size) (offloadKeys.length * size)
    else maxHitSizeTokens
  let numBlocks := min (ceilDiv queryMax size) offloadKeys.length
  slice offloadKeys (numComputedTokens / size) numBlocks

def tightenHit (ls : LookupState) (numHitBlocks : Option ℕ) (isEagleUnverified : Bool) :
    Option LookupState :=
  let numComputedTokens := st.numLocallyComputedTokens
  let size := g.offloadedBlockSize
  let ls := match numHitBlocks with
    | none => { ls with deferLookup := true }
    | some n =>
      let n := if isEagleUnverified then n - 1 else n
      { ls with
        eagleVerified :=
          if isEagleUnverified then g.groupIdx :: ls.eagleVerified else ls.eagleVerified
        maxHitSizeTokens := min ls.maxHitSizeTokens (size * (numComputedTokens / size + n)) }
  if ls.maxHitSizeTokens < numComputedTokens + size then none
  else
    let newNumHitTokens := ls.maxHitSizeTokens - numComputedTokens
    let ls :=
      if newNumHitTokens < ls.numHitTokens then
        let ls := if g.isEagleGroup then ls else { ls with eagleVerified := [] }
        if ls.deferLookup then { ls with deferLookup := false, lookupGroups := s.lookupGroups }
        else if ls.lookedUpSlidingWindow ∧ ls.lookupGroups = [] then
          { ls with lookupGroups := s.slidingWindowGroups }
        else ls
      else ls
    some { ls with
      lookedUpSlidingWindow := ls.lookedUpSlidingWindow || g.slidingWindowSizeInBlocks.isSome
      numHitTokens := newNumHitTokens }

/-- One round of the inner loop of `_lookup`; `none` for `return 0`. -/
def lookupGroup (ls : LookupState) (groupIdx : ℕ) : Py (Option LookupState) := do
  let g ← pyGet s.config.kvGroupConfigs groupIdx
  let gs ← pyGet st.groupStates groupIdx
  let size := g.offloadedBlockSize
  pyAssert (gs.offloadKeys.length ≥ numTokens / size) ""
  let isEagleUnverified := g.isEagleGroup && decide (groupIdx ∉ ls.eagleVerified)
  let ls := { ls with maxHitSizeTokens := min ls.maxHitSizeTokens (gs.offloadKeys.length * size) }
  if ls.maxHitSizeTokens < st.numLocallyComputedTokens + size then .ok none
  else
    let keys :=
      queriedKeys g gs.offloadKeys st.numLocallyComputedTokens ls.maxHitSizeTokens isEagleUnverified
    let numHitBlocks := groupHits lookup g keys isEagleUnverified
    if numHitBlocks = some 0 then .ok none
    else .ok (s.tightenHit st g ls numHitBlocks isEagleUnverified)

def lookupPass : List ℕ → LookupState → Py (Option LookupState)
  | [], ls => .ok (some ls)
  | groupIdx :: groups, ls => do
    match ← s.lookupGroup lookup st numTokens ls groupIdx with
    | none => .ok none
    | some ls => lookupPass groups ls

def lookupLoop : ℕ → LookupState → Py (Option LookupState)
  | fuel, ls =>
    if ls.lookupGroups = [] then .ok (some ls)
    else
      match fuel with
      | 0 => .error (.runtimeError "out of passes")
      | fuel + 1 => do
        match ← s.lookupPass lookup st numTokens ls.lookupGroups
            { ls with lookupGroups := [], lookedUpSlidingWindow := false } with
        | none => .ok none
        | some ls => lookupLoop fuel ls

def hitKeys (offloadKeys : List OffloadKey) (numComputedTokens numHitTokens : ℕ) :
    List OffloadKey :=
  let size := g.offloadedBlockSize
  let keys :=
    slice offloadKeys (numComputedTokens / size) (ceilDiv (numComputedTokens + numHitTokens) size)
  match g.slidingWindowSizeInBlocks with
  | none => keys
  | some window => keys.drop (keys.length - window)

def maxHitSize : ℕ :=
  if s.slidingWindowGroups = [] then numTokens
  else
    -- the last token is recomputed
    match s.mambaAlignSize with
    | none => numTokens - 1
    | some align => (numTokens - 1) / align * align

def lookupTokens : Py (Option ℕ) := do
  let ls := { maxHitSizeTokens := s.maxHitSize numTokens, lookupGroups := s.lookupGroups }
  match ← s.lookupLoop lookup st numTokens (numTokens + 2) ls with
  | none => .ok (some 0)
  | some ls =>
    if ls.deferLookup then .ok none
    else
      let beingLoaded := s.blocksBeingLoaded.getD []
      if (s.config.kvGroupConfigs.zip st.groupStates).any fun (g, gs) =>
          (hitKeys g gs.offloadKeys st.numLocallyComputedTokens ls.numHitTokens).any
            (· ∈ beingLoaded) then
        .ok none
      else .ok (some ls.numHitTokens)

def hitTokens (req : OffloadRequest) : Py (Option ℕ) :=
  if req.skipReadingPrefixCache then .ok (some 0) else s.lookupTokens lookup st req.numTokens

def getNumNewMatchedTokens (reqId : String) (req : OffloadRequest) (numComputedTokens : ℕ) :
    Py ((Option ℕ × Bool) × ConnectorScheduler) := do
  let st ← s.getReqStatus reqId
  let st := st.clearBlockIds
  if st.transferJobs ≠ [] then .ok ((none, false), s.setReqStatus reqId st)
  else do
    let st := { st.updateOffloadKeys s.config req.blockHashes with
      numLocallyComputedTokens := numComputedTokens }
    let numHitTokens ← s.hitTokens lookup st req
    let st := st.updateNumHitBlocks s.config (numComputedTokens + numHitTokens.getD 0)
    .ok ((numHitTokens, numHitTokens.getD 0 ≠ 0), s.setReqStatus reqId st)

/-- The blocks of a group that a load fills. -/
structure GroupLoad where
  keysToLoad : List OffloadKey
  dstBlockIds : List ℕ
  numPendingGpuBlocks : ℕ
  numLocallyComputedGpuBlocks : ℕ
  numBlocks : ℕ
  deriving DecidableEq, Repr

def loadGroup (gs : RequestGroupState) (blocks : List AllocatedBlock)
    (numLocallyComputedTokens numCachedTokens : ℕ) : Py GroupLoad := do
  let numGpuBlocks := ceilDiv numCachedTokens g.gpuBlockSize
  pyAssert (blocks.length ≥ numGpuBlocks) ""
  -- the first block that is neither a placeholder nor cached
  let numLocal := (blocks.take numGpuBlocks).findIdx fun b => !b.isNull && !b.hasHash
  pyAssert (numLocallyComputedTokens ≤ numLocal * g.gpuBlockSize) ""
  let numPending := numGpuBlocks - numLocal
  pyAssert (g.slidingWindowSizeInBlocks.all fun window =>
    numPending ≤ window * s.config.blockSizeFactor) ""
  let numBlocks := ceilDiv numCachedTokens g.offloadedBlockSize
  pyAssert (gs.offloadKeys.length ≥ numBlocks) ""
  .ok {
    keysToLoad := if numPending = 0 then []
      else slice gs.offloadKeys (numLocal / s.config.blockSizeFactor) numBlocks
    dstBlockIds := (slice blocks numLocal numGpuBlocks).map (·.blockId)
    numPendingGpuBlocks := numPending
    numLocallyComputedGpuBlocks := numLocal
    numBlocks := numBlocks }

def updateStateAfterAlloc (reqId : String) (blocks : List (List AllocatedBlock))
    (numExternalTokens : ℕ) (prepareLoad : List OffloadKey → Py (List ℕ)) : Py ConnectorScheduler :=
  if numExternalTokens = 0 then .ok s
  else do
    let st ← s.getReqStatus reqId
    let numCachedTokens := st.numLocallyComputedTokens + numExternalTokens
    let groups := (s.config.kvGroupConfigs.zip st.groupStates).zip blocks
    let loads ← groups.mapM fun ((g, gs), blocks) =>
      s.loadGroup g gs blocks st.numLocallyComputedTokens numCachedTokens
    let keysToLoad := loads.flatMap (·.keysToLoad)
    let srcSpec ← prepareLoad keysToLoad
    let dstSpec ← GPULoadStoreSpec.init (loads.flatMap (·.dstBlockIds))
      (loads.map (·.numPendingGpuBlocks))
      (loads.map (·.numLocallyComputedGpuBlocks))
    let jobId := s.jobCounter
    pyAssert (st.transferJobs = []) "not req_status.transfer_jobs"
    let groupStates := match st.policy with
      | .blockLevel =>
        List.zipWith (fun gs (load : GroupLoad) => { gs with nextStoredBlockIdx := load.numBlocks })
          st.groupStates loads ++ st.groupStates.drop loads.length
      | .requestLevel => st.groupStates
    let s := s.setReqStatus reqId { st with groupStates := groupStates, transferJobs := [jobId] }
    .ok { s with
      jobCounter := jobId + 1
      currentBatchAllocatedBlockIds := s.currentBatchAllocatedBlockIds ∪
        ((blocks.flatten.map (·.blockId)).filter (· ≠ 0))
      currentBatchLoadJobs := s.currentBatchLoadJobs ++
        [(jobId, { reqId := reqId, gpuSpec := dstSpec, backendSpec := srcSpec })]
      jobs := s.jobs.set jobId {
        reqId := reqId
        pendingCount := s.config.numWorkers
        keys := keysToLoad.dedup
        isStore := false }
      blocksBeingLoaded := s.blocksBeingLoaded.map (· ∪ keysToLoad) }

end ConnectorScheduler

end Vllm.Offload
