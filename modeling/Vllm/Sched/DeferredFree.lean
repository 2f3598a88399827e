import Vllm.KVCache.Ledger

/-!
# Deferred block frees

A step in flight may write the blocks of a request that is preempted, finished or aborted;
`_free_request_blocks` keeps them behind a fence. What is scheduled, preempted, finished, loaded and
written are arguments.
-/

namespace Vllm

open KVCacheManager

/-- Where a request is, as far as its blocks are concerned. -/
inductive BlockPhase where
  /-- In a waiting queue without blocks: new or preempted. -/
  | waiting
  /-- `WAITING_FOR_REMOTE_KVS`: a connector fills the blocks. -/
  | loading
  /-- In a waiting queue with blocks: loaded, or a session that waits for its next input. -/
  | ready
  | running
  | finished
  deriving DecidableEq, Repr

/-- A request with the last step it was scheduled in. -/
structure FencedRequest where
  phase : BlockPhase := .waiting
  lastSchedSeq : ℕ := 0

/-- A step writes to a block of a request. -/
structure BlockWrite where
  step : ℕ
  rid : String
  block : ℕ
  deriving DecidableEq, Repr

/-- The scheduler's fence of deferred frees over the KV cache manager. -/
structure FenceState where
  kv : KVCacheManager
  requests : Dict String FencedRequest := ∅
  schedStepSeq : ℕ := 0
  processedStepSeq : ℕ := 0
  deferredFrees : List (ℕ × List ℕ) := []
  /-- History: the writes of all steps scheduled so far. -/
  writes : List BlockWrite := []

/-- The calls that allocate, free or write blocks. -/
inductive FenceCall where
  | addRequest (rid : String)
  | allocate (r : Request) (a : AllocArgs)
  /-- `allocate_slots` for a waiting request with its hits; with `load` a connector first fills the
  blocks. -/
  | allocateWithHits (r : Request) (a : AllocArgs) (numNewComputedTokens : ℕ) (hits : List (List ℕ))
      (load : Bool)
  | loaded (r : Request) (failed : Bool)
  | preempt (rid : String)
  /-- The end of a non-empty `schedule`: the requests with the table positions that the forward pass
  writes. -/
  | endSchedule (scheduled : List (String × List (ℕ × ℕ)))
  /-- The start of `update_from_output` for a non-empty step. -/
  | updateFromOutput
  /-- A resumable request stops and waits for its next input. -/
  | park (rid : String)
  /-- `_free_request`, for a finished or an aborted request. -/
  | finish (rid : String) (numComputedTokens : ℤ) (delayFreeBlocks : Bool)
  /-- `_free_blocks` once the connector is done with a finished request. -/
  | freeFinished (rid : String)
  | evictBlocks (blockIds : List ℕ)
  | resetPrefixCache
  | newStepStarts

namespace FenceState

variable (s : FenceState) (rid : String)

def request : Py FencedRequest :=
  match s.requests.lookup rid with
  | some fr => .ok fr
  | none => .error (.keyError rid)

def setRequest (fr : FencedRequest) : FenceState :=
  { s with requests := s.requests.insert rid fr }

def freeRequestBlocks (lastSchedSeq : ℕ) : Py FenceState :=
  if lastSchedSeq ≤ s.processedStepSeq then do
    let kv ← s.kv.free rid
    .ok { s with kv := kv }
  else do
    let (blocks, kv) ← s.kv.popBlocksForFree rid
    if blocks = [] then .ok { s with kv := kv }
    else .ok { s with kv := kv, deferredFrees := s.deferredFrees ++ [(s.schedStepSeq, blocks)] }

def drain (processed : ℕ) : List (ℕ × List ℕ) → BlockPool → BlockPool × List (ℕ × List ℕ)
  | [], p => (p, [])
  | (fence, blocks) :: rest, p =>
    if fence > processed then (p, (fence, blocks) :: rest)
    else drain processed rest (p.freeBlocks blocks.reverse)

def drainDeferredFrees : FenceState :=
  let out := drain s.processedStepSeq s.deferredFrees s.kv.blockPool
  { s with kv := { s.kv with blockPool := out.1 }, deferredFrees := out.2 }

def writesOf (positions : List (ℕ × ℕ)) : List BlockWrite :=
  positions.filterMap fun pos => do
    let m ← s.kv.managers[pos.1]?
    let b ← (m.blocksOf rid)[pos.2]?
    some ⟨s.schedStepSeq, rid, b⟩

def recordScheduled (positions : List (ℕ × ℕ)) : Py FenceState := do
  let fr ← s.request rid
  let s' := s.setRequest rid { fr with lastSchedSeq := s.schedStepSeq }
  .ok { s' with writes := s.writes ++ s.writesOf rid positions }

def freeBlocks (fr : FencedRequest) : Py FenceState := do
  let s ← s.freeRequestBlocks rid fr.lastSchedSeq
  .ok { s with requests := s.requests.erase rid }

/-- A call, with the fence that keeps written blocks from being reused. -/
def call (env : HashEnv) (s : FenceState) : FenceCall → Py FenceState
  | .addRequest rid => match s.requests.lookup rid with
    | some _ => .ok s
    | none => .ok (s.setRequest rid {})
  | .allocate r a => do
    let fr ← s.request r.requestId
    let (new, kv) ← s.kv.allocateSlots env r a 0 (s.kv.managers.map fun _ => [])
    let s := { s with kv := kv }
    .ok (if new.isSome then s.setRequest r.requestId { fr with phase := .running } else s)
  | .allocateWithHits r a n hits load => do
    let fr ← s.request r.requestId
    let (new, kv) ← s.kv.allocateSlots env r a n hits
    let s := { s with kv := kv }
    let phase := if load then BlockPhase.loading else .running
    .ok (if new.isSome then s.setRequest r.requestId { fr with phase := phase } else s)
  | .loaded r failed => do
    let fr ← s.request r.requestId
    if failed ∧ r.numComputedTokens = 0 then
      let kv ← s.kv.free r.requestId
      .ok ({ s with kv := kv }.setRequest r.requestId { fr with phase := .waiting })
    else
      let kv ← s.kv.cacheBlocks env r r.numComputedTokens
      .ok ({ s with kv := kv }.setRequest r.requestId { fr with phase := .ready })
  | .preempt rid => do
    let fr ← s.request rid
    let s ← s.freeRequestBlocks rid fr.lastSchedSeq
    .ok (s.setRequest rid { fr with phase := .waiting })
  | .endSchedule scheduled =>
    scheduled.foldlM (fun s e => s.recordScheduled e.1 e.2)
      { s with schedStepSeq := s.schedStepSeq + 1 }
  | .updateFromOutput =>
    .ok { s with processedStepSeq := s.processedStepSeq + 1 }.drainDeferredFrees
  | .park rid => do
    let fr ← s.request rid
    .ok (s.setRequest rid { fr with phase := .ready })
  | .finish rid n delay => do
    let fr ← s.request rid
    -- A connector is there, or frees would not be deferred.
    let kv ← s.kv.removeSkippedBlocks rid n
    let s := { s with kv := kv }
    if delay then .ok (s.setRequest rid { fr with phase := .finished })
    else s.freeBlocks rid fr
  | .freeFinished rid => do
    let fr ← s.request rid
    s.freeBlocks rid fr
  | .evictBlocks ids => do
    let p ← s.kv.blockPool.evictBlocks ids
    .ok { s with kv := { s.kv with blockPool := p } }
  | .resetPrefixCache =>
    .ok { s with kv := { s.kv with blockPool := s.kv.blockPool.resetPrefixCache.2 } }
  | .newStepStarts => .ok { s with kv := s.kv.newStepStarts }

def InPhase (phases : List BlockPhase) : Prop :=
  ∃ fr, s.requests.lookup rid = some fr ∧ fr.phase ∈ phases

/-- When the scheduler makes a call. Outputs are processed in the order of their steps. -/
def Allowed (s : FenceState) : FenceCall → Prop
  | .allocate r a => s.InPhase r.requestId [.waiting, .ready, .running] ∧
      0 ≤ r.numComputedTokens + a.numNewTokens
  | .allocateWithHits r a _ hits _ => s.InPhase r.requestId [.waiting] ∧ s.kv.HitsCached r hits ∧
      0 ≤ r.numComputedTokens + a.numNewTokens
  | .loaded r _ => s.InPhase r.requestId [.loading]
  | .preempt rid | .park rid => s.InPhase rid [.running]
  | .endSchedule scheduled => ∀ e ∈ scheduled, s.InPhase e.1 [.running]
  | .updateFromOutput => s.processedStepSeq < s.schedStepSeq
  | .finish rid _ _ => s.InPhase rid [.waiting, .loading, .ready, .running]
  | .freeFinished rid => s.InPhase rid [.finished]
  | _ => True

/-- A step that is scheduled but not yet processed writes the block for the request. -/
def InFlight (b : ℕ) : Prop :=
  ∃ w ∈ s.writes, s.processedStepSeq < w.step ∧ w.step ≤ s.schedStepSeq ∧ w.rid = rid ∧ w.block = b

/-- No entry that `remove_skipped_blocks` may free is written by a step in flight. -/
def WindowIdle (totalComputedTokens : ℤ) : Prop :=
  ∀ m ∈ s.kv.managers, ∀ i b, m.recyclesAt rid totalComputedTokens i →
    (m.blocksOf rid)[i]? = some b →
    ¬ s.InFlight rid b

/-- The calls that recycle entries of a table find them idle. -/
def RecyclesIdle (s : FenceState) : FenceCall → Prop
  | .allocate r a => s.WindowIdle r.requestId
      (min (r.numComputedTokens + a.numExternalComputedTokens) s.kv.maxModelLen)
  | .finish rid n _ => s.WindowIdle rid n
  | _ => True

end FenceState

end Vllm
