import Mathlib.Data.List.Sort
import Vllm.KVCache.CacheHit
import Vllm.Offload.CPUManager

/-!
# The offloading connector, scheduler side

`OffloadingConnectorScheduler` of
`vllm/distributed/kv_transfer/kv_connector/v1/offloading/scheduler.py`. The manager's answers and
the requests' fields are arguments. Assertions on the direction of jobs carry the asserted
expression as message, the source gives none.
-/

namespace Vllm.Offload

def islice {α : Type*} (xs : List α) (start step : ℕ) : List α :=
  (List.range ((xs.length - start + (step - 1)) / step)).filterMap fun i => xs[start + step * i]?

def pyGet {α : Type} (xs : List α) (i : ℕ) : Py α :=
  match xs[i]? with
  | some x => .ok x
  | none => .error (.indexError "list index out of range")

abbrev OffloadKey := Bytes × ℕ

instance : LawfulBEq OffloadKey := inferInstanceAs (LawfulBEq (Bytes × ℕ))

def makeOffloadKey (blockHash : Bytes) (groupIdx : ℕ) : OffloadKey := (blockHash, groupIdx)

/-- `GroupOffloadConfig`. -/
structure GroupOffloadConfig where
  groupIdx : ℕ
  gpuBlockSize : ℕ
  offloadedBlockSize : ℕ
  hashBlockSizeFactor : ℕ
  slidingWindowSizeInBlocks : Option ℕ
  alignmentBlockCount : Option ℕ := none
  isEagleGroup : Bool := false
  deriving DecidableEq, Repr

/-- `SchedulerOffloadConfig`. -/
structure SchedulerOffloadConfig where
  kvGroupConfigs : List GroupOffloadConfig
  blockSizeFactor : ℕ
  numWorkers : ℕ
  offloadPromptOnly : Bool
  deriving DecidableEq, Repr

/-- What the connector reads of a KV cache group. -/
structure OffloadGroup where
  attention : AttentionType
  gpuBlockSize : ℕ
  isEagleGroup : Bool := false

/-- What the connector reads of the offloading spec and the configuration. -/
structure OffloadingSpec where
  groups : List OffloadGroup
  blockSizeFactor : ℕ
  hashBlockSize : ℕ
  worldSize : ℕ
  offloadPromptOnly : Bool
  useEagle : Bool
  enablePrefixCaching : Bool

def getSlidingWindowSizeInBlocks (attention : AttentionType) (offloadedBlockSize : ℕ) :
    Py (Option ℕ) :=
  match attention with
  | .slidingWindow w => do
    pyAssert (0 < w) ""
    .ok (some (cdiv w offloadedBlockSize).toNat)
  | .mamba _ _ => .ok (some 1)
  | .full => .ok none
  | _ => .error (.assertionError "")

def alignmentBlockCount (alignmentTokens : Option ℕ) (offloadedBlockSize : ℕ)
    (slidingWindowSizeInBlocks : Option ℕ) : Option ℕ :=
  match alignmentTokens, slidingWindowSizeInBlocks with
  | some tokens, some window =>
    if tokens ≤ offloadedBlockSize then none
    else
      let perSegment := tokens / offloadedBlockSize
      if window ≥ perSegment then none else some perSegment
  | _, _ => none

variable (spec : OffloadingSpec)

def SchedulerOffloadConfig.fromSpec : Py SchedulerOffloadConfig := do
  let windows ← spec.groups.mapM fun g =>
    getSlidingWindowSizeInBlocks g.attention (g.gpuBlockSize * spec.blockSizeFactor)
  let fullSizes := (((spec.groups.zip windows).filter (·.2 = none)).map
    fun e => e.1.gpuBlockSize * spec.blockSizeFactor).dedup
  let alignmentTokens := match fullSizes with
    | [size] => some size
    | _ => none
  -- without a group that is marked, speculative decoding makes every group an EAGLE group
  let allEagle := spec.useEagle && spec.groups.all (fun g => !g.isEagleGroup)
  .ok {
    kvGroupConfigs := (spec.groups.zip windows).zipIdx.map fun ((g, window), idx) =>
      let size := g.gpuBlockSize * spec.blockSizeFactor
      { groupIdx := idx
        gpuBlockSize := g.gpuBlockSize
        offloadedBlockSize := size
        hashBlockSizeFactor := size / spec.hashBlockSize
        slidingWindowSizeInBlocks := window
        alignmentBlockCount := alignmentBlockCount alignmentTokens size window
        isEagleGroup := allEagle || g.isEagleGroup }
    blockSizeFactor := spec.blockSizeFactor
    numWorkers := spec.worldSize
    offloadPromptOnly := spec.offloadPromptOnly }

def resolveMambaAlignSize : Py (Option ℕ) :=
  spec.groups.foldlM (fun size g =>
    match g.attention with
    | .mamba .align _ => do
      let offloadBlockSize := g.gpuBlockSize * spec.blockSizeFactor
      pyAssert (size = none ∨ size = some offloadBlockSize) ""
      .ok (some offloadBlockSize)
    | _ => .ok size) none

/-- What the connector reads of a request. -/
structure OffloadRequest where
  numTokens : ℕ
  numPromptTokens : ℕ
  numComputedTokens : ℕ
  blockHashes : List Bytes
  isFinished : Bool := false
  skipReadingPrefixCache : Bool := false
  maxOffloadTokens : Option ℤ := none
  deriving DecidableEq, Repr

/-- `OffloadPolicy`. -/
inductive OffloadPolicy where
  | blockLevel
  | requestLevel
  deriving DecidableEq, Repr

/-- `RequestGroupState`: the offloaded blocks of a request in a group. -/
structure RequestGroupState where
  offloadKeys : List OffloadKey := []
  blockIds : List ℕ := []
  nextStoredBlockIdx : ℕ := 0
  numHitBlocks : ℕ := 0
  deriving DecidableEq, Repr

/-- `RequestOffloadState`. -/
structure RequestOffloadState where
  groupStates : List RequestGroupState
  policy : OffloadPolicy
  maxOffloadTokens : Option ℕ := none
  numLocallyComputedTokens : ℕ := 0
  transferJobs : List ℕ := []
  deriving DecidableEq, Repr

def RequestGroupState.updateOffloadKeys (g : GroupOffloadConfig) (blockHashes : List Bytes)
    (st : RequestGroupState) : RequestGroupState :=
  let f := g.hashBlockSizeFactor
  { st with
    offloadKeys := st.offloadKeys ++
      (islice blockHashes (f * st.offloadKeys.length + f - 1) f).map (makeOffloadKey · g.groupIdx) }

namespace RequestOffloadState

variable (cfg : SchedulerOffloadConfig) (st : RequestOffloadState)

def init (policy : OffloadPolicy) (rawMaxOffloadTokens : Option ℤ) : RequestOffloadState where
  groupStates := cfg.kvGroupConfigs.map fun _ => {}
  policy := policy
  maxOffloadTokens := match rawMaxOffloadTokens with
    | some raw => if 0 ≤ raw then some raw.toNat else none
    | none => none

def mapGroups (f : GroupOffloadConfig → RequestGroupState → RequestGroupState) :
    RequestOffloadState :=
  { st with groupStates := List.zipWith f cfg.kvGroupConfigs st.groupStates }

def updateOffloadKeys (blockHashes : List Bytes) : RequestOffloadState :=
  st.mapGroups cfg fun g => RequestGroupState.updateOffloadKeys g blockHashes

def clearBlockIds : RequestOffloadState :=
  { st with groupStates := st.groupStates.map fun g => { g with blockIds := [] } }

def updateBlockIdGroups (newBlockIdGroups : List (List ℕ)) : Py RequestOffloadState := do
  pyAssert (newBlockIdGroups.length = st.groupStates.length) ""
  .ok { st with
    groupStates := List.zipWith (fun g new => { g with blockIds := g.blockIds ++ new })
      st.groupStates newBlockIdGroups }

def advanceStoredIdx (numOffloadableTokens : ℕ) : RequestOffloadState :=
  st.mapGroups cfg fun g s =>
    { s with nextStoredBlockIdx := numOffloadableTokens / g.offloadedBlockSize }

def updateNumHitBlocks (numCachedTokens : ℕ) : RequestOffloadState :=
  st.mapGroups cfg fun g s => { s with numHitBlocks := numCachedTokens / g.offloadedBlockSize }

end RequestOffloadState

/-- `GPULoadStoreSpec`: the blocks of all groups in one list. -/
structure GPULoadStoreSpec where
  blockIds : List ℕ
  groupSizes : List ℕ
  blockIndices : List ℕ
  deriving DecidableEq, Repr

def GPULoadStoreSpec.init (blockIds groupSizes blockIndices : List ℕ) : Py GPULoadStoreSpec := do
  pyAssert (groupSizes.sum = blockIds.length) ""
  pyAssert (blockIndices.length = groupSizes.length) ""
  .ok { blockIds := blockIds, groupSizes := groupSizes, blockIndices := blockIndices }

/-- `TransferJob`: the GPU side and the backend's slots; a load copies to the GPU, a store from
it. -/
structure TransferJob where
  reqId : String
  gpuSpec : GPULoadStoreSpec
  backendSpec : List ℕ
  deriving DecidableEq, Repr

/-- `TransferJobStatus`. -/
structure TransferJobStatus where
  reqId : String
  pendingCount : ℤ
  keys : List OffloadKey
  isStore : Bool
  nonSlidingWindowBlockIds : List ℕ := []
  slidingWindowBlockIds : List ℕ := []
  deriving DecidableEq, Repr

/-- `OffloadingConnectorMetadata`: what the workers get. -/
structure OffloadingConnectorMetadata where
  loadJobs : List (ℕ × TransferJob)
  storeJobs : List (ℕ × TransferJob)
  jobsToFlush : List ℕ
  deriving DecidableEq, Repr

/-- What the connector reads of the scheduler's output. -/
structure SchedulerOutput where
  scheduledNewReqs : List (String × List (List ℕ)) := []
  /-- The request, its new blocks in each group, and whether it resumes after a preemption. -/
  scheduledCachedReqs : List (String × Option (List (List ℕ)) × Bool) := []
  numScheduledTokens : List (String × ℕ) := []
  preemptedReqIds : List String := []

def SchedulerOutput.yieldReqData (out : SchedulerOutput) :
    List (String × Option (List (List ℕ)) × Bool) :=
  out.scheduledNewReqs.map (fun e => (e.1, some e.2, false)) ++ out.scheduledCachedReqs

/-- What the connector reads of a block of the KV cache. -/
structure AllocatedBlock where
  blockId : ℕ
  isNull : Bool
  hasHash : Bool
  deriving DecidableEq, Repr

/-- `OffloadingConnectorScheduler`. -/
structure ConnectorScheduler where
  config : SchedulerOffloadConfig
  slidingWindowGroups : List ℕ
  lookupGroups : List ℕ
  mambaAlignSize : Option ℕ
  reqStatus : OrderedDict String RequestOffloadState := .empty
  currentBatchLoadJobs : List (ℕ × TransferJob) := []
  currentBatchJobsToFlush : List ℕ := []
  currentBatchAllocatedBlockIds : List ℕ := []
  blocksBeingLoaded : Option (List OffloadKey)
  jobCounter : ℕ := 0
  staleJobThreshold : ℕ := 0
  jobs : OrderedDict ℕ TransferJobStatus := .empty
  blockIdToPendingJobs : OrderedDict ℕ (List ℕ) := .empty

namespace ConnectorScheduler

def init : Py ConnectorScheduler := do
  let config ← SchedulerOffloadConfig.fromSpec spec
  let mambaAlignSize ← resolveMambaAlignSize spec
  let full := config.kvGroupConfigs.filter (·.slidingWindowSizeInBlocks = none)
  let sliding := config.kvGroupConfigs.filter (·.slidingWindowSizeInBlocks ≠ none)
  -- the sort is stable and by decreasing window
  let sliding := sliding.insertionSort fun a b =>
    b.slidingWindowSizeInBlocks.getD 0 ≤ a.slidingWindowSizeInBlocks.getD 0
  .ok {
    config := config
    slidingWindowGroups := sliding.map (·.groupIdx)
    lookupGroups := full.map (·.groupIdx) ++ sliding.map (·.groupIdx)
    mambaAlignSize := mambaAlignSize
    blocksBeingLoaded := if spec.enablePrefixCaching then some [] else none }

variable (s : ConnectorScheduler) (reqId : String)

def getReqStatus : Py RequestOffloadState :=
  match s.reqStatus.get? reqId with
  | some st => .ok st
  | none => .error (.keyError reqId)

def setReqStatus (st : RequestOffloadState) : ConnectorScheduler :=
  { s with reqStatus := s.reqStatus.set reqId st }

def getJob (jobId : ℕ) : Py TransferJobStatus :=
  match s.jobs.get? jobId with
  | some job => .ok job
  | none => .error (.keyError (toString jobId))

def onNewRequest (req : OffloadRequest) (policy : OffloadPolicy) : ConnectorScheduler :=
  s.setReqStatus reqId (.init s.config policy req.maxOffloadTokens)

end ConnectorScheduler

end Vllm.Offload
