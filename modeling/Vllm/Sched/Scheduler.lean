import Vllm.Request

/-!
# The scheduler

`Scheduler` of `vllm/v1/core/sched/scheduler.py` and `AsyncScheduler`. Decisions from budgets,
policies, the KV cache and connectors are arguments, token lists are their lengths.
-/

namespace Vllm

/-! ## Requests -/

/-- `Request`, as far as the scheduler's counts and queues depend on it. -/
structure SchedRequest where
  status : RequestStatus := .waiting
  numTokens : ℕ
  numComputedTokens : ℤ := 0
  numOutputPlaceholders : ℤ := 0
  numSpecTokens : ℕ := 0
  isPrefillChunk : Bool := false
  asyncTokensToDiscard : ℤ := 0
  numPreemptions : ℕ := 0
  resumable : Bool := false
  /-- The queued input chunks by their number of tokens; `none` ends the session. -/
  streamingQueue : Option (List (Option ℕ)) := none
  /-- History: the counts with which `remove_skipped_blocks` was called for the blocks it holds. -/
  removedAt : List ℤ := []
  deriving DecidableEq, Repr

/-- What one model step computes for a request. -/
structure ScheduledStep where
  numScheduledTokens : ℕ
  numDraftTokens : ℕ := 0
  /-- The step ends before the known tokens of the request, so no token is sampled. -/
  isPrefillChunk : Bool := false
  deriving DecidableEq, Repr

abbrev SchedulerOutput := List (String × ScheduledStep)

def RequestStatus.isBlockedWaiting : RequestStatus → Bool
  | .waitingForStructuredOutputGrammar | .waitingForRemoteKvs | .waitingForStreamingReq => true
  | _ => false

def RequestStatus.name : RequestStatus → String
  | .waiting => "WAITING"
  | .waitingForStructuredOutputGrammar => "WAITING_FOR_STRUCTURED_OUTPUT_GRAMMAR"
  | .waitingForRemoteKvs => "WAITING_FOR_REMOTE_KVS"
  | .waitingForStreamingReq => "WAITING_FOR_STREAMING_REQ"
  | .running => "RUNNING"
  | .preempted => "PREEMPTED"
  | .finishedStopped => "FINISHED_STOPPED"
  | .finishedLengthCapped => "FINISHED_LENGTH_CAPPED"
  | .finishedAborted => "FINISHED_ABORTED"
  | .finishedIgnored => "FINISHED_IGNORED"
  | .finishedError => "FINISHED_ERROR"
  | .finishedRepetition => "FINISHED_REPETITION"

namespace SchedRequest

variable (r : SchedRequest)

/-- The tokens that are not yet computed, with the drafts and the placeholders. -/
def numNewTokens : ℤ :=
  r.numTokens + r.numSpecTokens + r.numOutputPlaceholders - r.numComputedTokens

/-- The draft tokens among `numNewTokens` tokens scheduled for a running request. -/
def numScheduledSpecTokens (numNewTokens : ℤ) : ℕ :=
  min r.numSpecTokens
    (numNewTokens + r.numComputedTokens - r.numTokens - r.numOutputPlaceholders).toNat

/-- The running loop of `schedule` once blocks are allocated; `limit` is the least bound. Negative
numbers of tokens do not come up. -/
def scheduleRunning (limit : ℕ) : Option (ScheduledStep × SchedRequest) :=
  let numNewTokens := min r.numNewTokens limit
  if numNewTokens ≤ 0 then none
  else some
    ({ numScheduledTokens := numNewTokens.toNat
       numDraftTokens := r.numScheduledSpecTokens numNewTokens },
     { r with numSpecTokens := 0, removedAt := r.numComputedTokens :: r.removedAt })

lemma scheduleRunning_eq_some {r r' : SchedRequest} {limit : ℕ} {step : ScheduledStep}
    (h : r.scheduleRunning limit = some (step, r')) : ∃ n : ℤ, 0 < n ∧ n ≤ r.numNewTokens ∧
      step = { numScheduledTokens := n.toNat, numDraftTokens := r.numScheduledSpecTokens n } ∧
      r' = { r with numSpecTokens := 0, removedAt := r.numComputedTokens :: r.removedAt } := by
  simp only [scheduleRunning] at h
  split at h
  · cases h
  rename_i hn
  cases h
  exact ⟨_, by omega, min_le_left _ _, rfl, rfl⟩

def preempt : SchedRequest :=
  { r with
    status := .preempted
    numComputedTokens := 0
    numSpecTokens := 0
    numPreemptions := r.numPreemptions + 1
    removedAt := [] }

/-- `_try_promote_blocked_waiting_request`, `none` if still blocked; `ready`: the remote KV or the
grammar has arrived.
-/
def tryPromote (ready : Bool) : Py (Option SchedRequest) :=
  match r.status with
  | .waitingForRemoteKvs =>
    if ready then
      .ok (some { r with
        numComputedTokens := if r.numComputedTokens = r.numTokens then r.numTokens - 1
          else r.numComputedTokens
        status := if r.numPreemptions > 0 then .preempted else .waiting })
    else .ok none
  | .waitingForStructuredOutputGrammar =>
    .ok (if ready then some { r with status := .waiting } else none)
  | .waitingForStreamingReq => do
    pyAssert (r.streamingQueue.getD [] = []) ""
    .ok none
  | _ => .ok (some r)

/-- A request with computed tokens holds blocks, and `allocate_slots` has removed those outside its
window. -/
def start (computed : ℤ) : SchedRequest :=
  { r with
    status := .running
    numComputedTokens := computed
    removedAt := if r.numComputedTokens = 0 then [] else r.numComputedTokens :: r.removedAt }

/-- `_update_after_schedule` for one request, of `AsyncScheduler` if `async`; `numSpec` is
`num_spec_tokens_to_schedule`. -/
def updateAfterSchedule (async : Bool) (numSpec : ℕ) (r : SchedRequest) (step : ScheduledStep) :
    SchedRequest × ScheduledStep :=
  let numComputedTokens := r.numComputedTokens + step.numScheduledTokens
  let isPrefillChunk : Bool := numComputedTokens < r.numTokens + r.numOutputPlaceholders
  let r := { r with numComputedTokens, isPrefillChunk }
  (if async && !isPrefillChunk then
      { r with
        numOutputPlaceholders := r.numOutputPlaceholders + (1 + step.numDraftTokens)
        numSpecTokens := numSpec }
    else r,
   { step with isPrefillChunk })

/-- `_update_request_as_session`: `numNew` new tokens for those behind `num_computed_tokens`. -/
def updateAsSession (numNew : ℕ) : SchedRequest :=
  { r with
    numTokens := min (sliceBound r.numTokens r.numComputedTokens) r.numTokens + numNew
    status := .waiting }

end SchedRequest

/-- Why `check_stop` holds. -/
inductive StopReason where
  | stopped
  | lengthCapped
  | repetition
  deriving DecidableEq, Repr

def StopReason.status : StopReason → RequestStatus
  | stopped => .finishedStopped
  | lengthCapped => .finishedLengthCapped
  | repetition => .finishedRepetition

/-- What the workers return for a request. -/
structure RequestOutput where
  numGenerated : ℕ := 0
  /-- The number of generated tokens after which `check_stop` holds. -/
  stopAfter : Option (ℕ × StopReason) := none
  pooled : Bool := false
  grammarRejects : Bool := false
  /-- The connector keeps the blocks of a finished request until they are sent. -/
  delayFree : Bool := false
  deriving DecidableEq, Repr

/-- The tokens that `_update_request_with_output` keeps, and why it stops. -/
def RequestOutput.kept (o : RequestOutput) : ℕ × Option StopReason :=
  match o.stopAfter with
  | some (k, reason) =>
    if 1 ≤ k ∧ k ≤ o.numGenerated then (k, some reason) else (o.numGenerated, none)
  | none => (o.numGenerated, none)

namespace SchedRequest

def numRejected (step : ScheduledStep) (o : RequestOutput) : ℤ :=
  step.numDraftTokens - max ((o.numGenerated : ℤ) - 1) 0

def rejectDrafts (step : ScheduledStep) (o : RequestOutput) (r : SchedRequest) : SchedRequest :=
  if 0 < step.numDraftTokens ∧ 0 < o.numGenerated then
    { r with
      numComputedTokens := if 0 < r.numComputedTokens then r.numComputedTokens - numRejected step o
        else r.numComputedTokens
      numOutputPlaceholders := if 0 < r.numOutputPlaceholders
        then r.numOutputPlaceholders - numRejected step o else r.numOutputPlaceholders }
  else r

/-- `Scheduler._update_request_with_output`: the request, the number of kept tokens and whether it
stops. -/
def updateWithOutput (o : RequestOutput) (r : SchedRequest) : SchedRequest × ℕ × Bool :=
  match o.kept with
  | (k, some reason) =>
    ({ r with numTokens := r.numTokens + k, status := reason.status }, k, true)
  | (k, none) => ({ r with numTokens := r.numTokens + k }, k, false)

def asyncUpdateWithOutput (o : RequestOutput) (r : SchedRequest) : Py (SchedRequest × ℕ × Bool) :=
  if 0 < r.asyncTokensToDiscard then
    .ok ({ r with asyncTokensToDiscard := r.asyncTokensToDiscard - 1 }, 0, false)
  else do
    let (r, k, stopped) := r.updateWithOutput o
    pyAssert (0 ≤ r.numOutputPlaceholders - k) ""
    .ok ({ r with numOutputPlaceholders := r.numOutputPlaceholders - k }, k, stopped)

def checkStop (async : Bool) (o : RequestOutput) (r : SchedRequest) :
    Py (SchedRequest × ℕ × Bool) :=
  if 0 < o.numGenerated then
    if async then r.asyncUpdateWithOutput o else .ok (r.updateWithOutput o)
  else if o.pooled then .ok ({ r with status := .finishedStopped }, 0, true)
  else .ok (r, 0, false)

/-- The body of the loop in `update_from_output`, up to the handling of a stopped request. -/
def applyOutput (async : Bool) (step : ScheduledStep) (o : RequestOutput) (r : SchedRequest) :
    Py (SchedRequest × Bool) := do
  let (r, numNew, stopped) ← (r.rejectDrafts step o).checkStop async o
  if 0 < numNew ∧ o.grammarRejects then
    .ok ({ r with status := .finishedError, resumable := false }, true)
  else .ok (r, stopped)

/-- `_handle_stopped_request`: the request and whether it is finished. -/
def handleStopped (r : SchedRequest) : SchedRequest × Bool :=
  if !r.resumable then (r, true)
  else match r.streamingQueue with
    | some (none :: queue) => ({ r with streamingQueue := some queue }, true)
    | some (some numNew :: queue) =>
      ({ r with streamingQueue := some queue }.updateAsSession numNew, false)
    | _ => ({ r with status := .waitingForStreamingReq }, false)

end SchedRequest

/-- `inflight` holds the steps whose output is not processed, the oldest first. -/
structure Scheduler where
  requests : String → Option SchedRequest := fun _ => none
  running : List String := []
  waiting : List String := []
  skippedWaiting : List String := []
  inflight : List SchedulerOutput := []

def removeAll (lst : List String) : List String → List String
  | [] => lst
  | [item] => lst.erase item
  | items => lst.filter (· ∉ items)

def removeRequests (queue items : List String) : List String := queue.filter (· ∉ items)

namespace Scheduler

variable (s : Scheduler)

def set (rid : String) (r : SchedRequest) : Scheduler :=
  { s with requests := Function.update s.requests rid (some r) }

def delete (rid : String) : Scheduler :=
  { s with requests := Function.update s.requests rid none }

@[simp] lemma set_same (s : Scheduler) (rid : String) (r : SchedRequest) :
    (s.set rid r).requests rid = some r := by
  simp [set]

@[simp] lemma set_of_ne {rid i : String} (r : SchedRequest) (h : i ≠ rid) :
    (s.set rid r).requests i = s.requests i := by
  simp [set, h]

@[simp] lemma delete_same (rid : String) : (s.delete rid).requests rid = none := by simp [delete]

@[simp] lemma delete_of_ne {rid i : String} (h : i ≠ rid) :
    (s.delete rid).requests i = s.requests i := by
  simp [delete, h]

def enqueueWaiting (rid : String) (status : RequestStatus) : Scheduler :=
  if status.isBlockedWaiting then { s with skippedWaiting := s.skippedWaiting ++ [rid] }
  else { s with waiting := s.waiting ++ [rid] }

def preemptRequest (rid : String) : Py Scheduler :=
  match s.requests rid with
  | none => .ok s
  | some r => do
    pyAssert (r.status = .running) "Only running requests can be preempted"
    .ok { s.set rid r.preempt with waiting := rid :: s.waiting }

def freeRequest (rid : String) (r : SchedRequest) (delayFree : Bool) : Scheduler :=
  if delayFree then s.set rid r else s.delete rid

/-! ## `schedule` -/

/-- What the schedule decides about a running request. -/
inductive RunDecision where
  /-- Its blocks can be allocated; `limit` bounds its new tokens. -/
  | run (limit : ℕ)
  | preempt
  deriving DecidableEq, Repr

/-- What the waiting loop does to a request that it looks at and that is not blocked. -/
inductive WaitAction where
  /-- Set aside for this step: LoRA limit, or the connector has no answer yet. -/
  | skip
  /-- The loop ends here; `allocated` says that `allocate_slots` was called and refused. -/
  | leave (allocated : Bool)
  | loadAsync (numComputedTokens : ℕ)
  /-- It starts to run behind a prefix that is cached; `limit` bounds its new tokens. -/
  | start (numComputedTokens limit : ℕ)
  deriving DecidableEq, Repr

/-- What the schedule decides about a waiting request. -/
structure WaitDecision where
  /-- The remote KV or the grammar that the request waits for has arrived. -/
  ready : Bool := false
  action : WaitAction
  deriving DecidableEq, Repr

/-- The decisions of one `schedule`. -/
structure ScheduleCall where
  running : List (String × RunDecision) := []
  waiting : List (String × WaitDecision) := []
  numSpecTokens : ℕ := 0

/-- The local variables of `schedule`. -/
structure ScheduleState where
  sched : Scheduler
  scheduled : SchedulerOutput := []
  preempted : List String := []
  stepSkippedWaiting : List String := []

def recordStep (scheduled : SchedulerOutput) (rid : String) (step : ScheduledStep) :
    SchedulerOutput :=
  scheduled.filter (·.1 ≠ rid) ++ [(rid, step)]

variable (st : ScheduleState) (rid)

def runningStep : RunDecision → Py ScheduleState
  | .run limit =>
    if rid ∈ st.sched.running ∧ rid ∉ st.scheduled.map (·.1) then
      match (st.sched.requests rid).bind (·.scheduleRunning limit) with
      | none => .ok st
      | some (step, r) => .ok { st with
          sched := st.sched.set rid r
          scheduled := recordStep st.scheduled rid step }
    else .ok st
  | .preempt =>
    if rid ∈ st.sched.running then do
      let sched ← { st.sched with running := st.sched.running.erase rid }.preemptRequest rid
      .ok { st with
        sched
        scheduled := st.scheduled.filter (·.1 ≠ rid)
        preempted := st.preempted ++ [rid] }
    else .ok st

def popWaiting : Scheduler :=
  if rid ∈ s.skippedWaiting then { s with skippedWaiting := s.skippedWaiting.erase rid }
  else { s with waiting := s.waiting.erase rid }

def skipWaiting : ScheduleState :=
  { st with
    sched := st.sched.popWaiting rid
    stepSkippedWaiting := rid :: st.stepSkippedWaiting }

def startWaiting (r : SchedRequest) (numComputedTokens limit : ℕ) : Py ScheduleState := do
  let computed : ℤ := if r.numComputedTokens = 0 then numComputedTokens else r.numComputedTokens
  pyAssert (r.numComputedTokens ≠ 0 ∨ computed ≤ r.numTokens) ""
  let numNewTokens := min (r.numTokens - computed) limit
  pyAssert (0 < numNewTokens) ""
  if r.status = .waiting ∨ r.status = .preempted then
    let sched := st.sched.popWaiting rid
    .ok { st with
      sched := { sched with running := sched.running ++ [rid] }.set rid (r.start computed)
      scheduled := recordStep st.scheduled rid { numScheduledTokens := numNewTokens.toNat } }
  else .error (.runtimeError ("Invalid request status: " ++ r.status.name))

def waitingAction (r : SchedRequest) : WaitAction → Py ScheduleState
  | .skip => .ok (skipWaiting { st with sched := st.sched.set rid r } rid)
  | .leave allocated =>
    let r := if allocated ∧ r.numComputedTokens ≠ 0
      then { r with removedAt := r.numComputedTokens :: r.removedAt } else r
    .ok { st with sched := st.sched.set rid r }
  | .loadAsync numComputedTokens =>
    if r.numComputedTokens = 0 then do
      pyAssert (numComputedTokens ≤ r.numTokens) ""
      let r := { r with status := .waitingForRemoteKvs, numComputedTokens, removedAt := [] }
      .ok (skipWaiting { st with sched := st.sched.set rid r } rid)
    else .ok { st with sched := st.sched.set rid r }
  | .start numComputedTokens limit => startWaiting st rid r numComputedTokens limit

/-- One iteration of the waiting loop.  A request that is no longer in `requests` is passed over. -/
def waitingStep (decision : WaitDecision) : Py ScheduleState :=
  if rid ∈ st.sched.skippedWaiting ∨ rid ∈ st.sched.waiting then
    match st.sched.requests rid with
    | none => .ok st
    | some r => do
      match ← r.tryPromote decision.ready with
      | none => .ok (skipWaiting st rid)
      | some r => waitingAction st rid r decision.action
  else .ok st

variable {rid}

/-- `_update_after_schedule`: the requests of the step advance, and the step is in flight. -/
def updateAfterSchedule (async : Bool) (numSpec : ℕ) :
    SchedulerOutput → Scheduler → Scheduler × SchedulerOutput
  | [], s => (s, [])
  | (rid, step) :: rest, s =>
    match s.requests rid with
    | none => updateAfterSchedule async numSpec rest s
    | some r =>
      let advanced := r.updateAfterSchedule async numSpec step
      let done := updateAfterSchedule async numSpec rest (s.set rid advanced.1)
      (done.1, (rid, advanced.2) :: done.2)

variable (async : Bool)

def finishSchedule (numSpec : ℕ) (st : ScheduleState) : Scheduler :=
  let sched := { st.sched with
    skippedWaiting := st.stepSkippedWaiting ++ st.sched.skippedWaiting }
  let advanced := updateAfterSchedule async numSpec st.scheduled sched
  { advanced.1 with inflight := advanced.1.inflight ++ [advanced.2] }

def schedule (call : ScheduleCall) (s : Scheduler) : Py Scheduler := do
  let st ← call.running.foldlM (fun st d => runningStep st d.1 d.2) { sched := s }
  let waiting := if st.preempted = [] then call.waiting else []
  let st ← waiting.foldlM (fun st d => waitingStep st d.1 d.2) st
  .ok (finishSchedule async call.numSpecTokens st)

def scheduleLoops (call : ScheduleCall) (s : Scheduler) : Py ScheduleState := do
  let st ← call.running.foldlM (fun st d => runningStep st d.1 d.2) { sched := s }
  (if st.preempted = [] then call.waiting else []).foldlM (fun st d => waitingStep st d.1 d.2) st

def isUnfinished (rid : String) : Bool :=
  (s.requests rid).any (!·.status.isFinished)

def isRunning (rid : String) : Bool :=
  (s.requests rid).any (·.status = .running)

def finishRequest (status : RequestStatus) (delayFree : String → Bool) (s : Scheduler)
    (rid : String) : Scheduler :=
  match s.requests rid with
  | none => s
  | some r => s.freeRequest rid { r with status } (delayFree rid)

def finishRequests (ids : List String) (status : RequestStatus) (delayFree : String → Bool)
    (s : Scheduler) : Py Scheduler := do
  pyAssert status.isFinished ""
  let valid := ids.dedup.filter s.isUnfinished
  let inRunning := valid.filter s.isRunning
  let inWaiting := valid.filter (!s.isRunning ·)
  let s := { s with
    running := removeAll s.running inRunning
    waiting := removeRequests s.waiting inWaiting
    skippedWaiting := removeRequests s.skippedWaiting inWaiting }
  .ok (valid.foldl (finishRequest status delayFree) s)

/-- What `add_request` reads of a request. -/
structure NewRequest where
  numTokens : ℕ
  resumable : Bool := false
  waitsForGrammar : Bool := false
  /-- If it ends a session, the connector keeps the blocks of the session until they are sent. -/
  delayFree : Bool := false

def NewRequest.toRequest (new : NewRequest) : SchedRequest :=
  { status := if new.waitsForGrammar then .waitingForStructuredOutputGrammar else .waiting
    numTokens := new.numTokens
    resumable := new.resumable
    streamingQueue := if new.resumable then some [] else none }

/-- `add_request`: a new request, or the next input of a session. -/
def addRequest (rid : String) (new : NewRequest) (s : Scheduler) : Py Scheduler :=
  match s.requests rid with
  | none =>
    .ok ((s.enqueueWaiting rid new.toRequest.status).set rid new.toRequest)
  | some existing =>
    if existing.status ≠ .waitingForStreamingReq then
      match existing.streamingQueue with
      | none => .error (.assertionError "duplicate request id")
      | some queue =>
        .ok (s.set rid { existing with
          streamingQueue := some (queue ++ [if new.resumable then some new.numTokens else none]) })
    else if new.resumable then .ok (s.set rid (existing.updateAsSession new.numTokens))
    else finishRequests [rid] .finishedAborted (fun _ => new.delayFree) s

/-- What `update_from_output` is called with. -/
structure UpdateCall where
  outputs : String → RequestOutput := fun _ => {}
  /-- Requests whose KV could not be loaded, with the tokens that stay computed: in the background
  and in `running`. -/
  asyncFailed : List (String × ℤ) := []
  syncFailed : List (String × ℤ) := []
  recomputeKvLoadFailures : Bool := true
  finishedRecving : List String := []
  finishedSending : List String := []

variable (call : UpdateCall)

def UpdateCall.failedIds : List String :=
  (if call.recomputeKvLoadFailures then call.syncFailed else call.asyncFailed ++
    call.syncFailed).map
    (·.1)

def truncateComputed (failed : String × ℤ) : Scheduler :=
  match s.requests failed.1 with
  | none => s
  | some r => s.set failed.1 { r with numComputedTokens := failed.2 }

def UpdateCall.handleInvalidBlocks (s : Scheduler) : Scheduler :=
  (call.asyncFailed ++ call.syncFailed).foldl truncateComputed s

/-- The local variables of `update_from_output`. -/
structure UpdateState where
  sched : Scheduler
  stoppedRunning : List String := []
  stoppedPreempted : List String := []

def stopRequest (rid : String) (r : SchedRequest) (delayFree : Bool) : Scheduler :=
  match r.handleStopped with
  | (r, true) => s.freeRequest rid r delayFree
  | (r, false) => (s.enqueueWaiting rid r.status).set rid r

def processOutput (o : RequestOutput) (step : ScheduledStep) (rid : String)
    (r : SchedRequest) (u : UpdateState) : Py UpdateState := do
  let (r', stopped) ← r.applyOutput async step o
  if stopped then
    let sched := u.sched.stopRequest rid r' o.delayFree
    .ok (if r.status = .running
      then { u with sched, stoppedRunning := rid :: u.stoppedRunning }
      else { u with sched, stoppedPreempted := rid :: u.stoppedPreempted })
  else .ok { u with sched := u.sched.set rid r' }

def updateRequest (u : UpdateState) (entry : String × ScheduledStep) : Py UpdateState :=
  if entry.1 ∈ call.failedIds then .ok u
  else match u.sched.requests entry.1 with
    | none => .ok u
    | some r =>
      if r.status.isFinished then .ok u
      else processOutput async (call.outputs entry.1) entry.2 entry.1 r u

def updateRequests (out : SchedulerOutput) (s : Scheduler) : Py UpdateState :=
  out.foldlM (updateRequest async call) { sched := s }

def removeStopped (u : UpdateState) : Scheduler :=
  { u.sched with
    running := removeAll u.sched.running u.stoppedRunning
    waiting := removeRequests u.sched.waiting u.stoppedPreempted }

def UpdateCall.finishFailed (s : Scheduler) : Py Scheduler :=
  if call.recomputeKvLoadFailures then .ok s
  else finishRequests call.failedIds .finishedError (fun rid => (call.outputs rid).delayFree) s

variable (rid)

def finishRecving : Py Scheduler :=
  match s.requests rid with
  | none => .error (.assertionError "")
  | some r =>
    if r.status = .waitingForRemoteKvs then .ok s
    else do
      pyAssert r.status.isFinished ""
      .ok (s.delete rid)

def finishSending : Py Scheduler :=
  match s.requests rid with
  | none => .error (.assertionError "")
  | some r => do
    pyAssert r.status.isFinished ""
    .ok (s.delete rid)

def updateFromOutput (s : Scheduler) : Py Scheduler :=
  match s.inflight with
  | [] => .ok s
  | out :: inflight => do
    let u ← updateRequests async call out (call.handleInvalidBlocks { s with inflight })
    let s ← call.finishFailed (removeStopped u)
    let s ← call.finishedRecving.foldlM finishRecving s
    call.finishedSending.foldlM finishSending s

def updateDraftTokenIds (drafts : String × ℕ) : Scheduler :=
  match s.requests drafts.1 with
  | none => s
  | some r =>
    if r.status.isFinished then s
    else s.set drafts.1 { r with numSpecTokens := if r.isPrefillChunk then 0 else drafts.2 }

/-- A running request is preempted and the outputs that are in flight for it are marked stale. -/
def forcePreempt : Py Scheduler := do
  let s ← s.preemptRequest rid
  .ok (match s.requests rid with
    | none => s
    | some r => s.set rid { r with
        asyncTokensToDiscard := r.numOutputPlaceholders
        numOutputPlaceholders := 0 })

variable {rid}

/-- `reset_prefix_cache`.  `success` is the answer of the KV cache manager. -/
def resetPrefixCache (resetRunningRequests success : Bool) (s : Scheduler) : Py Scheduler :=
  if resetRunningRequests then do
    let s ← s.running.reverse.foldlM forcePreempt { s with running := [] }
    if success then .ok s
    else
      .error (.runtimeError ("Failed to reset KV cache even when all the running requests are " ++
        "preempted and moved to the waiting queue. This is likely due to the presence of " ++
        "running requests waiting for remote KV transfer, which is not supported yet."))
  else .ok s

/-- The calls of the engine core on the scheduler. -/
inductive Call where
  | addRequest (rid : String) (new : NewRequest)
  | schedule (call : ScheduleCall)
  | updateFromOutput (call : UpdateCall)
  | updateDraftTokenIds (drafts : List (String × ℕ))
  | finishRequests (ids : List String) (status : RequestStatus) (delayFree : String → Bool)
  | resetPrefixCache (resetRunningRequests success : Bool)

/-- One call.  `async` selects `AsyncScheduler`. -/
def step (s : Scheduler) : Call → Py Scheduler
  | .addRequest rid new => s.addRequest rid new
  | .schedule call => s.schedule async call
  | .updateFromOutput call => s.updateFromOutput async call
  | .updateDraftTokenIds drafts => .ok (drafts.foldl Scheduler.updateDraftTokenIds s)
  | .finishRequests ids status delayFree => s.finishRequests ids status delayFree
  | .resetPrefixCache resetRunningRequests success =>
    s.resetPrefixCache resetRunningRequests success

end Scheduler

end Vllm
