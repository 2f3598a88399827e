import Vllm.Offload.Connector

/-! # Stores and completions of the offloading connector -/

namespace Vllm.Offload

def numOffloadableTokens (cfg : SchedulerOffloadConfig) (st : RequestOffloadState)
    (req : OffloadRequest) (numScheduledTokens : ℕ) : ℕ :=
  let numTokensAfterBatch := req.numComputedTokens + numScheduledTokens
  let n := min numTokensAfterBatch req.numTokens
  let n := match st.maxOffloadTokens with
    | some limit => min n limit
    | none => n
  if cfg.offloadPromptOnly then min n req.numPromptTokens else n

/-- How many blocks the first loop of `_build_store_jobs` considers: not the last one of an EAGLE
group. -/
def GroupOffloadConfig.numOfferedBlocks (g : GroupOffloadConfig) (numTokens : ℕ) : ℕ :=
  let numBlocks := numTokens / g.offloadedBlockSize
  if g.isEagleGroup then numBlocks - 1 else numBlocks

/-- Blocks of a sliding-window group that no aligned hit can use. -/
def GroupOffloadConfig.unreachable (g : GroupOffloadConfig) (absBlockIdx : ℕ) : Bool :=
  match g.alignmentBlockCount with
  | none => false
  | some count => absBlockIdx % count < count - g.slidingWindowSizeInBlocks.getD 0

variable (blockSizeFactor : ℕ)

/-- The first loop of `_build_store_jobs` for one group: the offered keys. -/
def offeredKeys (g : GroupOffloadConfig) (st : RequestGroupState) (numOffloadableTokens : ℕ) :
    Py (List OffloadKey) :=
  let numBlocks := g.numOfferedBlocks numOffloadableTokens
  let start := st.nextStoredBlockIdx
  if numBlocks ≤ start then .ok []
  else do
    let keys := slice st.offloadKeys start numBlocks
    -- the last GPU block of each offloaded block
    let ids := islice (st.blockIds.take (numBlocks * blockSizeFactor))
      (start * blockSizeFactor + blockSizeFactor - 1) blockSizeFactor
    pyAssert (keys.length = ids.length) ""
    pyAssert (g.alignmentBlockCount = none ∨ g.slidingWindowSizeInBlocks.isSome) ""
    .ok (((keys.zip ids).zipIdx start).filterMap fun ((key, id), absBlockIdx) =>
      if id = 0 ∨ g.unreachable absBlockIdx then none else some key)

/-- The logical indices that the second loop of `_build_store_jobs` visits: those of the stored
blocks. -/
def storedIndices (g : GroupOffloadConfig) (st : RequestGroupState)
    (numOffloadableTokens : ℕ) (keysToStore : List OffloadKey) : List ℕ :=
  let numBlocks := numOffloadableTokens / g.offloadedBlockSize
  let start := st.nextStoredBlockIdx
  (((slice st.offloadKeys start numBlocks).zipIdx start).filter
    (·.1 ∈ keysToStore)).flatMap fun e =>
    List.range' (e.2 * blockSizeFactor) blockSizeFactor

/-- The second loop of `_build_store_jobs`: logical index and id of the copied blocks. -/
def storeSources (g : GroupOffloadConfig) (st : RequestGroupState)
    (numOffloadableTokens : ℕ) (keysToStore : List OffloadKey) : Py (List (ℕ × ℕ)) := do
  let blocks ← (storedIndices blockSizeFactor g st numOffloadableTokens keysToStore).mapM fun i =>
    do
    let id ← pyGet st.blockIds i
    .ok (i, id)
  .ok (blocks.filter (·.2 ≠ 0))

def watchBlocks (jobId : ℕ) (bids : List ℕ) (d : OrderedDict ℕ (List ℕ)) : OrderedDict ℕ (List ℕ) :=
  bids.foldl (fun d bid => d.set bid (((d.get? bid).getD []).insert jobId)) d

def removePendingJob (jobId : ℕ) (bids : List ℕ) (d : OrderedDict ℕ (List ℕ)) :
    Py (OrderedDict ℕ (List ℕ)) :=
  bids.foldlM (fun d bid =>
    match d.get? bid with
    | none => .error (.keyError (toString bid))
    | some pending =>
      if jobId ∈ pending then
        let pending := pending.erase jobId
        .ok (if pending = [] then d.erase bid else d.set bid pending)
      else .error (.keyError (toString jobId))) d

namespace ConnectorScheduler

variable (s : ConnectorScheduler)

/-! ## The end of a scheduling step -/

def slidingLengths (st : RequestOffloadState) : Py (List ℕ) :=
  s.slidingWindowGroups.mapM fun i => do
    let g ← pyGet st.groupStates i
    .ok g.blockIds.length

variable (reqs : String → OffloadRequest)

/-- One round of the first loop of `_update_req_states`, with `new_block_ids_end`. -/
def updateReqData (acc : ConnectorScheduler × OrderedDict String (List ℕ))
    (data : String × Option (List (List ℕ)) × Bool) :
    Py (ConnectorScheduler × OrderedDict String (List ℕ)) := do
  let (s, ends) := acc
  let (reqId, newBlockIdGroups, preempted) := data
  let st ← s.getReqStatus reqId
  let st := st.updateOffloadKeys s.config (reqs reqId).blockHashes
  let st := if preempted then st.clearBlockIds else st
  match newBlockIdGroups with
  | some (g :: gs) => do
    let lengths ← s.slidingLengths st
    let ends := if s.slidingWindowGroups = [] then ends else ends.set reqId lengths
    let st ← st.updateBlockIdGroups (g :: gs)
    let s := s.setReqStatus reqId st
    .ok ({ s with
      currentBatchAllocatedBlockIds :=
        s.currentBatchAllocatedBlockIds ∪ ((g :: gs).flatten.filter (· ≠ 0)) }, ends)
  | _ => .ok (s.setReqStatus reqId st, ends)

def zeroStale (allocated : List ℕ) (start stop : ℕ) (blockIds : List ℕ) : List ℕ :=
  blockIds.mapIdx fun j bid => if start ≤ j ∧ j < stop ∧ bid ∈ allocated then 0 else bid

def zeroSlidingGroups (ends : Option (List ℕ)) (st : RequestOffloadState) : RequestOffloadState :=
  { st with
    groupStates := st.groupStates.mapIdx fun k g =>
      match s.slidingWindowGroups.idxOf? k with
      | none => g
      | some i =>
        let start := g.nextStoredBlockIdx * s.config.blockSizeFactor
        let stop := match ends with
          | some ends => ends.getD i 0
          | none => g.blockIds.length
        { g with blockIds := zeroStale s.currentBatchAllocatedBlockIds start stop g.blockIds } }

def updateReqStates (out : SchedulerOutput) : Py ConnectorScheduler := do
  let (s, ends) ← out.yieldReqData.foldlM (updateReqData reqs) (s, .empty)
  if s.slidingWindowGroups ≠ [] ∧ s.currentBatchAllocatedBlockIds ≠ [] then
    .ok { s with
      reqStatus := s.reqStatus.mapValues fun reqId st => s.zeroSlidingGroups (ends.get? reqId) st }
  else .ok s

def assertStore (transferJobs : List ℕ) : Py Unit :=
  match transferJobs with
  | [] => .ok ()
  | anyJid :: _ => do
    let job ← s.getJob anyJid
    pyAssert job.isStore "self._jobs[any_jid].is_store"

def createStoreJob (reqId : String) (st : RequestOffloadState) (numTokens : ℕ)
    (storeOutput : PrepareStoreOutput OffloadKey) : Py (ConnectorScheduler × ℕ × TransferJob) := do
  let groups := s.config.kvGroupConfigs.zip st.groupStates
  let sources ← groups.mapM fun (g, gs) =>
    storeSources s.config.blockSizeFactor g gs numTokens storeOutput.keysToStore
  let gpuSpec ← GPULoadStoreSpec.init (sources.flatMap fun blocks => blocks.map Prod.snd)
    (sources.map List.length) (sources.map fun blocks => blocks.head?.elim 0 Prod.fst)
  let jobId := s.jobCounter
  -- a store can only be issued when no load is pending
  s.assertStore st.transferJobs
  let idsOf (sliding : Bool) : List ℕ :=
    ((groups.zip sources).filter fun e => e.1.1.slidingWindowSizeInBlocks.isSome = sliding).flatMap
      fun e => e.2.map Prod.snd
  let st :=
    { st.advanceStoredIdx s.config numTokens with transferJobs := st.transferJobs ++ [jobId] }
  let job : TransferJob :=
    { reqId := reqId, gpuSpec := gpuSpec, backendSpec := storeOutput.storeSpec }
  .ok ({ s.setReqStatus reqId st with
    jobCounter := jobId + 1
    blockIdToPendingJobs := watchBlocks jobId (idsOf true) s.blockIdToPendingJobs
    jobs := s.jobs.set jobId {
      reqId := reqId
      pendingCount := s.config.numWorkers
      keys := storeOutput.keysToStore.dedup
      isStore := true
      nonSlidingWindowBlockIds := idsOf false
      slidingWindowBlockIds := idsOf true } }, jobId, job)

variable (prepareStore : String → List OffloadKey → Option (PrepareStoreOutput OffloadKey))

/-- One round of `_build_store_jobs`; `prepareStore` is the manager's answer for the request. -/
def buildStoreJob (reqId : String) (numScheduledTokens : ℕ) :
    Py (ConnectorScheduler × Option (ℕ × TransferJob)) :=
  match s.reqStatus.get? reqId with
  | none => .ok (s, none)
  | some st => do
    let numTokens := numOffloadableTokens s.config st (reqs reqId) numScheduledTokens
    let offered ← (s.config.kvGroupConfigs.zip st.groupStates).mapM fun (g, gs) =>
      offeredKeys s.config.blockSizeFactor g gs numTokens
    if offered.flatten = [] then
      .ok (s.setReqStatus reqId (st.advanceStoredIdx s.config numTokens), none)
    else
      match prepareStore reqId offered.flatten with
      | none => .ok (s, none)
      | some storeOutput =>
        if storeOutput.keysToStore = [] then
          .ok (s.setReqStatus reqId (st.advanceStoredIdx s.config numTokens), none)
        else do
          let (s, job) ← s.createStoreJob reqId st numTokens storeOutput
          .ok (s, some job)

/-- `_build_store_jobs`: the store jobs of the scheduled requests. -/
def buildStoreJobs (out : SchedulerOutput) : Py (ConnectorScheduler × List (ℕ × TransferJob)) :=
  out.numScheduledTokens.foldlM (fun (s, jobs) (reqId, n) => do
    let (s, job) ← s.buildStoreJob reqs prepareStore reqId n
    .ok (s, jobs ++ job.toList)) (s, [])

def flushPreempted (reqId : String) : Py ConnectorScheduler :=
  match s.reqStatus.get? reqId with
  | none => .ok s
  | some st => do
    s.assertStore st.transferJobs
    .ok { s with currentBatchJobsToFlush := s.currentBatchJobsToFlush ∪ st.transferJobs }

def flushReallocated : ConnectorScheduler :=
  { s with
    currentBatchJobsToFlush := s.currentBatchJobsToFlush ∪
      s.currentBatchAllocatedBlockIds.flatMap fun bid => (s.blockIdToPendingJobs.get? bid).getD [] }

/-- `build_connector_meta`. -/
def buildConnectorMeta
    (out : SchedulerOutput) : Py (ConnectorScheduler × OffloadingConnectorMetadata) := do
  let s ← s.updateReqStates reqs out
  let s ← out.preemptedReqIds.foldlM flushPreempted s
  let s := s.flushReallocated
  let (s, storeJobs) ← s.buildStoreJobs reqs prepareStore out
  let metadata : OffloadingConnectorMetadata := {
    loadJobs := s.currentBatchLoadJobs
    storeJobs := storeJobs
    jobsToFlush := s.currentBatchJobsToFlush }
  .ok ({ s with
    currentBatchLoadJobs := []
    currentBatchJobsToFlush := []
    currentBatchAllocatedBlockIds := [] }, metadata)

/-- The watched blocks after a job: of sliding windows from its creation, others from the end of the
request. -/
def unwatchJob (finished : Bool) (jobId : ℕ) (job : TransferJobStatus) :
    Py (OrderedDict ℕ (List ℕ)) :=
  if s.blockIdToPendingJobs.keys = [] then .ok s.blockIdToPendingJobs
  else do
    let d ← removePendingJob jobId job.slidingWindowBlockIds s.blockIdToPendingJobs
    if finished then removePendingJob jobId job.nonSlidingWindowBlockIds d else .ok d

def finishJob (jobId : ℕ) (job : TransferJobStatus) :
    Py ConnectorScheduler := do
  let st ← s.getReqStatus job.reqId
  let finished := (reqs job.reqId).isFinished
  let blocksBeingLoaded := if job.isStore then s.blocksBeingLoaded
    else s.blocksBeingLoaded.map fun keys => keys.filter (· ∉ job.keys)
  let pending ← s.unwatchJob finished jobId job
  if jobId ∈ st.transferJobs then
    let transferJobs := st.transferJobs.erase jobId
    let s := { s with
      blocksBeingLoaded := blocksBeingLoaded
      blockIdToPendingJobs := pending
      jobs := s.jobs.erase jobId }
    if transferJobs = [] ∧ finished then .ok { s with reqStatus := s.reqStatus.erase job.reqId }
    else .ok (s.setReqStatus job.reqId { st with transferJobs := transferJobs })
  else .error (.keyError (toString jobId))

def completeJob (completed : ℕ × ℤ) : Py ConnectorScheduler := do
  let (jobId, count) := completed
  pyAssert (count > 0) ""
  if jobId < s.staleJobThreshold then .ok s
  else do
    let job ← s.getJob jobId
    let job := { job with pendingCount := job.pendingCount - count }
    let s := { s with jobs := s.jobs.set jobId job }
    if job.pendingCount > 0 then .ok s
    else do
      pyAssert (job.pendingCount = 0) ""
      s.finishJob reqs jobId job

def updateConnectorOutput (completedJobs : List (ℕ × ℤ)) : Py ConnectorScheduler :=
  completedJobs.foldlM (fun s completed => s.completeJob reqs completed) s

def requestFinished (reqId : String) : Py ConnectorScheduler :=
  match s.reqStatus.get? reqId with
  | none => .ok s
  | some st =>
    if st.transferJobs = [] then .ok { s with reqStatus := s.reqStatus.erase reqId }
    else
      st.transferJobs.foldlM (fun s jobId => do
        let job ← s.getJob jobId
        .ok { s with
          blockIdToPendingJobs :=
            watchBlocks jobId job.nonSlidingWindowBlockIds s.blockIdToPendingJobs }) s

def resetCache : Py ConnectorScheduler := do
  pyAssert (s.currentBatchLoadJobs = []) ""
  pyAssert (s.currentBatchJobsToFlush = []) ""
  pyAssert (s.currentBatchAllocatedBlockIds = []) ""
  let live :=
    (s.reqStatus.keys.filter fun r => (reqs r).isFinished).foldl (fun d r => d.erase r) s.reqStatus
  .ok { s with
    currentBatchJobsToFlush := s.jobs.keys
    reqStatus := live.mapValues fun _ st =>
      { st with groupStates := st.groupStates.map fun g => { g with nextStoredBlockIdx := 0 } }
    staleJobThreshold := s.jobCounter
    jobs := .empty
    blockIdToPendingJobs := .empty
    blocksBeingLoaded := s.blocksBeingLoaded.map fun _ => [] }

end ConnectorScheduler

end Vllm.Offload
