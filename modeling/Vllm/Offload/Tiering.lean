import Vllm.Offload.CPUManager

/-!
# The tiering offloading manager

`TieringOffloadingManager` of `vllm/v1/kv_offload/tiering/manager.py`. Secondary tiers are numbered;
their answers and the jobs they report are arguments.
-/

namespace Vllm.Offload

variable {κ : Type} [DecidableEq κ]

/-- `JobMetadata`. -/
structure JobMetadata (κ : Type) where
  jobId : ℕ
  keys : List κ
  blockIds : List ℕ
  isPromotion : Bool
  reqId : String
  deriving DecidableEq, Repr

/-- Keys of a request that wait to be promoted from a secondary tier. -/
structure PendingPromotion (κ : Type) where
  reqId : String
  keys : List κ := []
  blockIds : List ℕ := []
  deriving DecidableEq, Repr

/-- `JobResult`. -/
structure JobResult where
  jobId : ℕ
  success : Bool
  deriving DecidableEq, Repr

/-- `TieringOffloadingManager`, its secondary tiers by their number. -/
structure Tiering (κ : Type) where
  primaryTier : CPUManager κ
  numSecondaryTiers : ℕ
  jobIdCounter : ℕ := 0
  transferJobs : OrderedDict ℕ (JobMetadata κ) := .empty
  pendingLoadSubmissions : OrderedDict ℕ (OrderedDict String (PendingPromotion κ)) := .empty
  processedJobsThisStep : Bool := false
  requestLevelTiers : OrderedDict String (List ℕ) := .empty
  /-- The jobs from `submit_load` and `submit_store` that are not reported yet. -/
  submitted : List ℕ := []

namespace Tiering

variable (m : Tiering κ)

def finishJob (primary : CPUManager κ) (job : JobMetadata κ) (success : Bool) : Py (CPUManager κ) :=
  if job.isPromotion then primary.completeStore job.keys success else primary.completeLoad job.keys

def processJob (m : Tiering κ) (result : JobResult) : Py (Tiering κ) :=
  match m.transferJobs.get? result.jobId with
  | none => .error (.assertionError "Finished job_id not in _transfer_jobs")
  | some job => do
    let primary ← finishJob m.primaryTier job result.success
    .ok { m with
      primaryTier := primary
      transferJobs := m.transferJobs.erase result.jobId
      submitted := m.submitted.erase result.jobId }

variable (results : List JobResult)

def processFinishedJobs : Py (Tiering κ) := results.foldlM processJob m

def maybeProcessFinishedJobs : Py (Tiering κ) :=
  if m.processedJobsThisStep then .ok m
  else { m with processedJobsThisStep := true }.processFinishedJobs results

def pendingEntry (tier : ℕ) (reqId : String) : PendingPromotion κ :=
  (((m.pendingLoadSubmissions.get? tier).getD .empty).get? reqId).getD { reqId := reqId }

def setPending (tier : ℕ) (reqId : String) (entry : PendingPromotion κ) : Tiering κ :=
  let entries := (m.pendingLoadSubmissions.get? tier).getD .empty
  { m with pendingLoadSubmissions := m.pendingLoadSubmissions.set tier (entries.set reqId entry) }

def initiatePromotion (tier : ℕ) (key : κ) (reqId : String) : Py (Bool × Tiering κ) := do
  let (out, primary) ← m.primaryTier.prepareStore [key]
  let m := { m with primaryTier := primary }
  match out with
  | none => .ok (false, m)
  | some out =>
    let entry := m.pendingEntry tier reqId
    .ok (true, m.setPending tier reqId { entry with
      keys := entry.keys ++ out.keysToStore, blockIds := entry.blockIds ++ out.storeSpec })

/-- `lookup`: `answers` are those of the secondary tiers for the key. -/
def lookup (key : κ) (reqId : String) (answers : List (Option Bool)) (results : List JobResult) :
    Py (Option Bool × Tiering κ) := do
  let m ← m.maybeProcessFinishedJobs results
  let (primaryHit, primary) ← m.primaryTier.lookup key
  let m := { m with primaryTier := primary }
  match primaryHit with
  | some true => .ok (some true, m)
  | none => .ok (none, m)
  | some false =>
    match answers.findIdx? (· = some true) with
    | some tier => do
      let (started, m) ← m.initiatePromotion tier key reqId
      .ok (if started then none else some false, m)
    | none => .ok (if none ∈ answers then none else some false, m)

variable (keys : List κ)

def submit (blockIds : List ℕ) (isPromotion : Bool) (reqId : String) : Tiering κ :=
  { m with
    jobIdCounter := m.jobIdCounter + 1
    transferJobs := m.transferJobs.set m.jobIdCounter
      { jobId := m.jobIdCounter
        keys := keys
        blockIds := blockIds
        isPromotion := isPromotion
        reqId := reqId }
    submitted := m.submitted ++ [m.jobIdCounter] }

def flushPendingPromotions : Tiering κ :=
  let entries := m.pendingLoadSubmissions.entries.flatMap fun e => e.2.entries.map Prod.snd
  { entries.foldl (fun m (e : PendingPromotion κ) => m.submit e.keys e.blockIds true e.reqId) m with
    pendingLoadSubmissions := .empty }

def prepareLoad (results : List JobResult) : Py (List ℕ × Tiering κ) := do
  let m ← m.maybeProcessFinishedJobs results
  let (spec, primary) ← CPUManager.prepareLoad keys m.primaryTier
  .ok (spec, { m with primaryTier := primary })

def touch : Tiering κ := { m with primaryTier := m.primaryTier.touch keys }

def completeLoad : Py (Tiering κ) := do
  let primary ← m.primaryTier.completeLoad keys
  .ok { m with primaryTier := primary }

variable (reqId : String)

def cascade : Py (Tiering κ) := do
  let (spec, primary) ← CPUManager.prepareLoad keys m.primaryTier
  .ok ({ m with primaryTier := primary }.submit keys spec false reqId)

def cascadeAll (keys : List κ) (reqId : String) : ℕ → Tiering κ → Py (Tiering κ)
  | 0, m => .ok m
  | n + 1, m => do
    let m ← m.cascade keys reqId
    cascadeAll keys reqId n m

def readyKeys : List κ → CPUManager κ → Py (List κ × CPUManager κ)
  | [], p => .ok ([], p)
  | k :: ks, p => do
    let (hit, p) ← p.lookup k
    let (rest, p) ← readyKeys ks p
    .ok (if hit = some true then k :: rest else rest, p)

def cascadeExistingBlocks (tiers : List ℕ) : Py (Tiering κ) := do
  let (ready, primary) ← readyKeys keys m.primaryTier
  let m := { m with primaryTier := primary }
  if ready = [] then .ok m else cascadeAll ready reqId tiers.length m

def prepareStore (results : List JobResult) :
    Py (Option (PrepareStoreOutput κ) × Tiering κ) := do
  let m ← m.maybeProcessFinishedJobs results
  let (out, primary) ← m.primaryTier.prepareStore keys
  let m := { m with primaryTier := primary }
  match out with
  | none => .ok (none, m)
  | some out =>
    match m.requestLevelTiers.get? reqId with
    | none => .ok (some out, m)
    | some tiers => do
      let existing := keys.filter (· ∉ out.keysToStore)
      if existing = [] then .ok (some out, m)
      else do
        let m ← m.cascadeExistingBlocks existing reqId tiers
        .ok (some out, m)

def completeStore (success : Bool) : Py (Tiering κ) := do
  let primary ← m.primaryTier.completeStore keys success
  let m := { m with primaryTier := primary }
  if success then cascadeAll keys reqId m.numSecondaryTiers m else .ok m

/-- `on_new_request`; `tiers` are those that ask for the request-level policy. -/
def onNewRequest (tiers : List ℕ) : Tiering κ :=
  if tiers = [] then m
  else
    let known := (m.requestLevelTiers.get? reqId).getD []
    { m with requestLevelTiers := m.requestLevelTiers.set reqId (known ∪ tiers) }

def onRequestFinished : Tiering κ :=
  { m with requestLevelTiers := m.requestLevelTiers.erase reqId }

def onScheduleEnd : Py (Tiering κ) := do
  let m ← m.maybeProcessFinishedJobs results
  .ok { m with processedJobsThisStep := false }.flushPendingPromotions

/-- `reset_cache`; `results` are those of the drained tiers. -/
def resetCache : Py (Tiering κ) := do
  let m ← m.processFinishedJobs results
  .ok { m with
    pendingLoadSubmissions := .empty
    primaryTier := m.primaryTier.resetCache
    requestLevelTiers := .empty
    processedJobsThisStep := false }

end Tiering

end Vllm.Offload
