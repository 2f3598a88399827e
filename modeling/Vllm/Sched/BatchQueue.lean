import Mathlib.Algebra.Order.BigOperators.Group.List
import Vllm.Sched.Placeholders

/-!
# The batch queue of the engine core

`step_with_batch_queue` of `vllm/v1/engine/core.py` over `AsyncScheduler`. Deferring a step until
the oldest is processed is enough by `next_decode_eligible_step`.
-/

namespace Vllm

open Scheduler List RequestView

/-- The configuration of the queue of steps in flight. -/
structure BatchQueueConfig where
  pipelineParallelSize : ℕ
  useV2ModelRunner : Bool
  /-- The V1 runner does not fully support async scheduling with a pipeline. -/
  supported : useV2ModelRunner = true ∨ pipelineParallelSize ≤ 1
  isEcConsumer : Bool := true
  isPoolingModel : Bool := false
  useStructuredOutput : String → Bool

/-- `max_concurrent_batches`, under async scheduling. -/
def BatchQueueConfig.maxConcurrentBatches (cfg : BatchQueueConfig) : ℕ :=
  if cfg.useV2ModelRunner then cfg.pipelineParallelSize + 1
  else if cfg.pipelineParallelSize ≤ 1 then 2
  else cfg.pipelineParallelSize

/-- A call of `get_grammar_bitmask`: the requests with a row, and the queue then. -/
structure GrammarCall where
  ids : List String
  unprocessed : List (ℕ × SchedulerOutput)

/-- `EngineCore` with its queue of steps in flight, and what the proofs look back at. -/
structure EngineCore where
  scheduler : Scheduler := {}
  currentStep : ℕ := 0
  nextDecodeEligibleStep : String → ℕ := fun _ => 0
  /-- The steps by their number, the oldest first. -/
  batchQueue : List (ℕ × SchedulerOutput) := []
  /-- History only: the steps that `update_from_output` got. -/
  received : List ℕ := []
  bitmasks : List GrammarCall := []

/-- What the workers and the clients decide during one `step_with_batch_queue`. -/
structure StepCall where
  hasRequests : Bool := true
  stillHasRequests : Bool := true
  schedule : ScheduleCall := {}
  aborts : List String := []
  delayFree : String → Bool := fun _ => false
  output : UpdateCall := {}

/-- The step samples a token for the request. -/
def Samples (out : SchedulerOutput) (rid : String) :
    Prop := ∃ step, (rid, step) ∈ out ∧ step.isPrefillChunk = false

namespace EngineCore

variable (cfg : BatchQueueConfig) (e : EngineCore)

def eligible (call : ScheduleCall) : ScheduleCall :=
  { call with running := call.running.filter fun d =>
      d.2 = .preempt || e.nextDecodeEligibleStep d.1 ≤ e.currentStep + 1 }

/-- `schedule`: the step and `pending_structured_output_tokens`. -/
def schedule (call : ScheduleCall) : Py (EngineCore × SchedulerOutput × Bool) := do
  let st ← e.scheduler.scheduleLoops (e.eligible call)
  let scheduler := finishSchedule true call.numSpecTokens st
  let out := scheduler.inflight.getLastD []
  let sampled := out.filter (!·.2.isPrefillChunk)
  -- the placeholders are those before `_update_after_schedule` adds the ones of this step
  let pending := sampled.any fun x => cfg.useStructuredOutput x.1 &&
    (st.sched.requests x.1).any (0 < ·.numOutputPlaceholders)
  .ok ({ e with
    scheduler
    currentStep := e.currentStep + 1
    nextDecodeEligibleStep := fun rid =>
      if cfg.useV2ModelRunner ∧
        rid ∈ sampled.map (·.1) then e.currentStep + 1 + cfg.pipelineParallelSize
      else e.nextDecodeEligibleStep rid }, out, pending)

/-- `get_grammar_bitmask`.  The flag `is_prefill_chunk` of a request is that of its latest step. -/
def getGrammarBitmask (out : SchedulerOutput) : EngineCore :=
  let ids :=
    (out.filter fun x => (e.scheduler.requests x.1).isSome && cfg.useStructuredOutput x.1 &&
    !x.2.isPrefillChunk).map (·.1)
  { e with bitmasks := e.bitmasks ++ [{ ids, unprocessed := e.batchQueue }] }

def appendleft (out : SchedulerOutput) : EngineCore :=
  { e with batchQueue := e.batchQueue ++ [(e.currentStep, out)] }

variable (c : StepCall)

/-- The first half of `step_with_batch_queue`: the state, the deferred step, and whether
`batch_queue.pop()` follows. -/
def fillQueue (e : EngineCore) : Py (EngineCore × Option SchedulerOutput × Bool) := do
  pyAssert (e.batchQueue.length < cfg.maxConcurrentBatches) ""
  if c.hasRequests then
    let (e, out, pending) ← e.schedule cfg c.schedule
    let modelExecuted := cfg.isEcConsumer && 0 < (out.map (·.2.numScheduledTokens)).sum
    let samples := !cfg.isPoolingModel && modelExecuted
    if samples && pending then .ok (e, some out, true)
    else
      let e := (if samples then e.getGrammarBitmask cfg out else e).appendleft out
      .ok (e, none,
        !(e.batchQueue.length < cfg.maxConcurrentBatches && (modelExecuted || c.stillHasRequests)))
  else .ok (e, none, !e.batchQueue.isEmpty)

/-- The second half: the oldest step is processed, then a deferred step samples. -/
def popQueue (deferred : Option SchedulerOutput) (e : EngineCore) : Py EngineCore :=
  match e.batchQueue with
  | [] => .error (.indexError "pop from an empty deque")
  | (n, out) :: batchQueue => do
    let s ← e.scheduler.finishRequests c.aborts .finishedAborted c.delayFree
    let scheduler ← { s with inflight := out :: s.inflight.tail }.updateFromOutput true c.output
    let e := { e with scheduler, batchQueue, received := e.received ++ [n] }
    .ok (match deferred with
      | none => e
      | some out => (e.getGrammarBitmask cfg out).appendleft out)

def stepWithBatchQueue (e : EngineCore) : Py EngineCore := do
  let (e, deferred, pops) ← e.fillQueue cfg c
  if pops then e.popQueue cfg c deferred else .ok e

/-- What the engine core handles. -/
inductive Event where
  | step (c : StepCall)
  | addRequest (rid : String) (new : NewRequest)
  | abortRequests (ids : List String) (delayFree : String → Bool)
  | resetPrefixCache (resetRunningRequests success : Bool)

/-- An event at the engine core. -/
def handle : Event → Py EngineCore
  | .step c => e.stepWithBatchQueue cfg c
  | .addRequest rid new => do
    let scheduler ← e.scheduler.addRequest rid new
    .ok { e with
      scheduler
      nextDecodeEligibleStep := if e.scheduler.requests rid = none
        then Function.update e.nextDecodeEligibleStep rid 0 else e.nextDecodeEligibleStep }
  | .abortRequests ids delayFree => do
    let scheduler ← e.scheduler.finishRequests ids .finishedAborted delayFree
    .ok { e with scheduler }
  | .resetPrefixCache resetRunningRequests success => do
    let scheduler ← e.scheduler.resetPrefixCache resetRunningRequests success
    .ok { e with scheduler }

/-- The decisions of `schedule` fit the statuses, and the model runner returns tokens as it
should. -/
def Regular : Event → Prop
  | .step c => AllocatesSchedule untrimmed e.scheduler (e.eligible c.schedule) ∧
      ∀ e' deferred s, e.fillQueue cfg c = .ok (e', deferred, true) →
        e'.scheduler.finishRequests c.aborts .finishedAborted c.delayFree = .ok s →
        GivesOutputs untrimmed true s c.output
  | .addRequest rid _ => e.scheduler.requests rid = none → e.scheduler.inflightOf rid = []
  | .abortRequests _ _ => True
  | .resetPrefixCache resetRunningRequests _ =>
    resetRunningRequests = true → e.scheduler.inflight = []

end EngineCore

/-! ## What `schedule` records -/

/-- What `schedule` has recorded: running requests, each once, eligible or not beyond their known
tokens. -/
structure Recorded (E : String → Prop) (s sched : Scheduler) (scheduled : SchedulerOutput) :
    Prop where
  inflight : sched.inflight = s.inflight
  once : (scheduled.map (·.1)).Nodup
  running : ∀ x ∈ scheduled, ∃ r, sched.requests x.1 = some r ∧ r.status = .running ∧
    (E x.1 ∨ r.numComputedTokens + x.2.numScheduledTokens ≤ r.numTokens)

section loops

variable {E : String → Prop} {s sched sched' : Scheduler} {scheduled : SchedulerOutput} {i : String}
  {r : SchedRequest} {st st' : ScheduleState}

section

variable (h : Recorded E s sched scheduled)
include h

lemma Recorded.erase (hfl : sched'.inflight = sched.inflight)
    (hoth : ∀ rid, rid ≠ i → sched'.requests rid = sched.requests rid) :
    Recorded E s sched' (scheduled.filter (·.1 ≠ i)) where
  inflight := hfl.trans h.inflight
  once := h.once.sublist (filter_sublist.map _)
  running x hx := by
    obtain ⟨hx, hne⟩ := mem_filter.mp hx
    rw [hoth x.1 (of_decide_eq_true hne)]
    exact h.running x hx

lemma Recorded.record {step : ScheduledStep} (hfl : sched'.inflight = sched.inflight)
    (hoth : ∀ rid, rid ≠ i → sched'.requests rid = sched.requests rid)
    (hreq : sched'.requests i = some r) (hst : r.status = .running)
    (hstep : E i ∨ r.numComputedTokens + step.numScheduledTokens ≤ r.numTokens) :
    Recorded E s sched' (recordStep scheduled i step) where
  inflight := hfl.trans h.inflight
  once := by
    rw [recordStep, map_append, nodup_append]
    refine ⟨(h.erase hfl hoth).once, pairwise_singleton _ _, ?_⟩
    simp
  running x hx := by
    rcases mem_append.mp hx with hx | hx
    · exact (h.erase hfl hoth).running x hx
    · obtain rfl := mem_singleton.mp hx
      exact ⟨r, hreq, hst, hstep⟩

lemma Recorded.set {r0 : SchedRequest}
    (hreq : sched.requests i = some r0) (hsame : r0.status = .running → r.status = .running ∧
      r.numComputedTokens = r0.numComputedTokens ∧ r.numTokens = r0.numTokens) :
    Recorded E s (sched.set i r) scheduled where
  inflight := h.inflight
  once := h.once
  running x hx := by
    obtain ⟨r1, hr1, hst, hstep⟩ := h.running x hx
    by_cases hi : x.1 = i
    · rw [hi] at hr1 ⊢
      cases hreq.symm.trans hr1
      obtain ⟨hst', hc, hn⟩ := hsame hst
      exact ⟨r, set_same .., hst', by rwa [hc, hn, ← hi]⟩
    · exact ⟨r1, by rwa [set_of_ne _ _ hi], hst, hstep⟩

end

variable (h : Recorded E s st.sched st.scheduled)
include h

lemma recorded_runningStep {d : RunDecision} (hA : AllocatesRunning untrimmed st (i, d))
    (hE : d ≠ .preempt → E i)
    (he : runningStep st i d = .ok st') : Recorded E s st'.sched st'.scheduled := by
  cases d with
  | run limit =>
    simp only [runningStep] at he
    split at he
    · split at he
      · cases he
        exact h
      rename_i step r hr
      cases he
      obtain ⟨r0, hr0, hr⟩ := Option.bind_eq_some_iff.mp hr
      obtain ⟨n, -, -, -, rfl⟩ := SchedRequest.scheduleRunning_eq_some hr
      exact h.record rfl (fun _ hi => set_of_ne _ _ hi) (set_same ..) (hA limit r0 rfl hr0).1
        (.inl (hE fun e => by cases e))
    · cases he
      exact h
  | preempt =>
    simp only [runningStep] at he
    split at he
    · obtain ⟨sched, hp, ⟨⟩⟩ := of_bind he
      unfold preemptRequest at hp
      split at hp
      · cases hp
        exact h.erase rfl fun _ _ => rfl
      · obtain ⟨-, -, ⟨⟩⟩ := of_bind hp
        exact h.erase rfl fun _ hi => set_of_ne _ _ hi
    · cases he
      exact h

lemma recorded_waitingStep {d : WaitDecision}
    (hA : AllocatesWaiting untrimmed st (i, d)) (he : waitingStep st i d = .ok st') :
    Recorded E s st'.sched st'.scheduled := by
  have hskip {st : ScheduleState} (h : Recorded E s st.sched st.scheduled) :
      Recorded E s (skipWaiting st i).sched (skipWaiting st i).scheduled :=
    ⟨(popWaiting_inflight ..).trans h.inflight, h.once, by simpa [skipWaiting] using h.running⟩
  obtain ⟨ready, action⟩ := d
  unfold waitingStep at he
  split at he
  case isFalse =>
    cases he
    exact h
  split at he
  · cases he
    exact h
  next r0 hreq =>
  obtain ⟨_ | r, hp, he⟩ := of_bind he
  · cases he
    exact hskip h
  -- a running request is not blocked
  have hpromoted (hst : r0.status = .running) : r = r0 := by
    rw [SchedRequest.tryPromote, hst] at hp
    exact (Option.some.inj (Except.ok.inj hp)).symm
  have hkeep (removedAt : List ℤ) :
    Recorded E s (st.sched.set i { r with removedAt }) st.scheduled :=
    h.set hreq fun hst => by cases hpromoted hst; exact ⟨hst, rfl, rfl⟩
  cases action with
  | skip =>
    cases he
    exact hskip (hkeep r.removedAt)
  | leave allocated =>
    cases he
    split
    · exact hkeep _
    · exact hkeep r.removedAt
  | loadAsync n =>
    simp only [waitingAction] at he
    split at he
    · obtain ⟨-, -, ⟨⟩⟩ := of_bind he
      refine hskip (h.set hreq fun hst => ?_)
      cases hpromoted hst
      exact absurd hst (RequestStatus.not_running_of_waits (hA rfl _ _ hreq hp).1)
    · cases he
      exact hkeep r.removedAt
  | start n limit =>
    obtain ⟨-, -, he⟩ := of_bind he
    obtain ⟨_, hpos, he⟩ := of_bind he
    have hpos := of_pyAssert hpos
    split at he
    · cases he
      refine h.record (popWaiting_inflight ..) (fun _ hi => ?_) (set_same ..) rfl (.inr ?_)
      · rw [set_of_ne _ _ hi]
        exact congrFun (popWaiting_requests ..) _
      · simp only [SchedRequest.start]
        omega
    · cases he

omit h

lemma recorded_scheduleLoops {call : ScheduleCall} (hA : AllocatesSchedule untrimmed s call)
    (hE : ∀ d ∈ call.running, d.2 ≠ .preempt → E d.1) (he : s.scheduleLoops call = .ok st') :
    Recorded E s st'.sched st'.scheduled := by
  obtain ⟨st, hrun, hwait⟩ := of_bind he
  have h1 : Recorded E s st.sched st.scheduled :=
    (hA.1.invariant (P := fun (rest : List (String × RunDecision)) (st : ScheduleState) =>
        (∀ d ∈ rest, d.2 ≠ .preempt → E d.1) ∧ Recorded E s st.sched st.scheduled)
      (fun _ _ _ _ h hok he => by
        rw [forall_mem_cons] at h
        exact ⟨h.1.2, recorded_runningStep h.2 hok h.1.1 he⟩) hrun ⟨hE, rfl, .nil, nofun⟩).2
  split at hwait
  · exact (hA.2 st hrun).invariant (P := fun _ (st : ScheduleState) =>
      Recorded E s st.sched st.scheduled)
      (fun _ _ _ _ h hok he => recorded_waitingStep h hok he) hwait h1
  · cases hwait
    exact h1

lemma mem_updateAfterSchedule {async : Bool} {numSpec : ℕ} {out : SchedulerOutput}
    (honce : (out.map (·.1)).Nodup) {x : String × ScheduledStep}
    (hx : x ∈ (Scheduler.updateAfterSchedule async numSpec out s).2) :
    ∃ r step, (x.1, step) ∈ out ∧ s.requests x.1 = some r ∧
    x.2 = (r.updateAfterSchedule async numSpec step).2 := by
  induction out generalizing s with
  | nil => cases hx
  | cons e out ih =>
    rw [map_cons, nodup_cons] at honce
    simp only [Scheduler.updateAfterSchedule] at hx
    split at hx
    · obtain ⟨r, step, hmem, hr⟩ := ih honce.2 hx
      exact ⟨r, step, mem_cons_of_mem _ hmem, hr⟩
    rename_i r hreq
    rcases mem_cons.mp hx with rfl | hx
    · exact ⟨r, e.2, mem_cons_self, hreq, rfl⟩
    obtain ⟨r1, step, hmem, hr1, hstep⟩ := ih honce.2 hx
    have hne : x.1 ≠ e.1 := fun heq => honce.1 (heq ▸ mem_map.mpr ⟨_, hmem, rfl⟩)
    exact ⟨r1, step, mem_cons_of_mem _ hmem, by rwa [set_of_ne _ _ hne] at hr1, hstep⟩

include h in
/-- Beyond its known tokens a request with steps in flight only gets by the running loop. -/
lemma Recorded.finishSchedule {n : ℕ} (hcnts : ∀ rid, (st.view rid).CountsInFlight) :
    ∃ out, (finishSchedule true n st).inflight = s.inflight ++ [out] ∧ ∀ x ∈ out, ∃ r,
      st.sched.requests x.1 = some r ∧
      r.numOutputPlaceholders = placeholdersInFlight (s.inflightOf x.1) ∧
      (x.2.isPrefillChunk = false → 0 < r.numOutputPlaceholders → E x.1) := by
  refine ⟨(Scheduler.updateAfterSchedule true n st.scheduled { st.sched with
    skippedWaiting := st.stepSkippedWaiting ++ st.sched.skippedWaiting }).2, ?_, fun x hx => ?_⟩
  · rw [Scheduler.finishSchedule, updateAfterSchedule_inflight, ← h.inflight]
  obtain ⟨r, step, hmem, hreq, hstep⟩ := mem_updateAfterSchedule h.once hx
  obtain ⟨r1, hr1, hst, hE⟩ := h.running _ hmem
  cases hreq.symm.trans hr1
  refine ⟨r, hreq, ?_, fun hchunk hpos => hE.resolve_right fun hle => ?_⟩
  · rw [(hcnts x.1 r hreq (by rw [hst]; decide)).placeholders]
    simp only [ScheduleState.view, inflightOf, h.inflight]
  rw [hstep] at hchunk
  have := of_decide_eq_false hchunk
  dsimp only at hle
  omega

end loops

lemma placeholders_of_samples {s : Scheduler} {rid : String} {x : SchedulerOutput}
    (hx : x ∈ s.inflight)
    (hsample : Samples x rid) : 0 < placeholdersInFlight (s.inflightOf rid) := by
  obtain ⟨step, hmem, hchunk⟩ := hsample
  have hin : step ∈ s.inflightOf rid := by
    refine mem_flatMap.mpr ⟨x, hx, ?_⟩
    simpa [stepsOf] using hmem
  have hle : step.placeholders ≤ placeholdersInFlight (s.inflightOf rid) := by
    refine single_le_sum ?_ _ (mem_map_of_mem hin)
    simp [ScheduledStep.placeholders_nonneg]
  simp only [ScheduledStep.placeholders, hchunk, Bool.false_eq_true, if_false] at hle
  omega

namespace EngineCore

variable {cfg : BatchQueueConfig} {e e' : EngineCore} {out : SchedulerOutput}

/-! ## Runs -/

/-- The steps `queue` are in flight, behind the processed ones; a request sampled by one is not
eligible before the pipeline has moved on. -/
structure InFlight (cfg : BatchQueueConfig) (queue : List (ℕ × SchedulerOutput)) (e : EngineCore) :
    Prop where
  counts : ∀ rid, (e.scheduler.view rid).CountsInFlight
  inflight : e.scheduler.inflight = queue.map (·.2)
  order : e.received ++ queue.map (·.1) = List.range' 1 e.currentStep
  cadence : cfg.useV2ModelRunner → ∀ x ∈ queue, ∀ rid, Samples x.2 rid →
    x.1 + cfg.pipelineParallelSize ≤ e.nextDecodeEligibleStep rid
  bitmasks : ∀ m ∈ e.bitmasks, ∀ x ∈ m.unprocessed, ∀ rid ∈ m.ids, ¬ Samples x.2 rid

/-- No step of the queue samples for a structured-output request that the step `out` samples. -/
def Apart (cfg : BatchQueueConfig) (out : SchedulerOutput) (queue : List (ℕ × SchedulerOutput)) :
    Prop :=
  ∀ x ∈ queue, ∀ rid, cfg.useStructuredOutput rid → Samples out rid → ¬ Samples x.2 rid

variable {queue : List (ℕ × SchedulerOutput)} {c : StepCall} {deferred : Option SchedulerOutput}
  (h : InFlight cfg queue e)

include h in
lemma InFlight.getGrammarBitmask (hout : Apart cfg out e.batchQueue) :
    InFlight cfg queue (e.getGrammarBitmask cfg out) where
  __ := h
  bitmasks m hm x hx rid hrid := by
    rcases mem_append.mp hm with hm | hm
    · exact h.bitmasks m hm x hx rid hrid
    obtain rfl := mem_singleton.mp hm
    obtain ⟨⟨rid, step⟩, hmem, rfl⟩ := mem_map.mp hrid
    obtain ⟨hmem, hrow⟩ := mem_filter.mp hmem
    simp only [Bool.and_eq_true, Bool.not_eq_true'] at hrow
    exact hout x hx rid hrow.1.2 ⟨step, hmem, hrow.2⟩

lemma InFlight.appendleft (h : InFlight cfg (e.batchQueue ++ [(e.currentStep, out)]) e) :
    InFlight cfg (e.appendleft out).batchQueue (e.appendleft out) where
  __ := h

include h in
lemma InFlight.length :
    e.received.length + queue.length = e.currentStep := by simpa using congrArg List.length h.order

variable {x : ℕ × SchedulerOutput}
include h

lemma InFlight.le_currentStep (hx : x ∈ queue) : x.1 ≤ e.currentStep := by
  have hmem : x.1 ∈ range' 1 e.currentStep := h.order ▸ mem_append_right _ (mem_map_of_mem hx)
  rw [mem_range'_1] at hmem
  omega

lemma InFlight.le_of_mem_tail (hx : x ∈ queue.tail) :
    e.currentStep + 2 ≤ x.1 + queue.length := by
  have hdrop : queue.tail.map (·.1) = (range' 1 e.currentStep).drop (e.received.length + 1) := by
    rw [← h.order, ← drop_drop, drop_left, drop_one, map_tail]
  have hmem : x.1 ∈ (range' 1 e.currentStep).drop (e.received.length + 1) :=
    hdrop ▸ mem_map_of_mem hx
  rw [drop_range', mem_range'_1] at hmem
  have := h.length
  omega

omit h

/-- A scheduled step joins the queue. -/
lemma InFlight.schedule (h : InFlight cfg e.batchQueue e)
    (hlen : e.batchQueue.length < cfg.maxConcurrentBatches) {call : ScheduleCall} {pending : Bool}
    (hA : AllocatesSchedule untrimmed e.scheduler (e.eligible call))
    (he : e.schedule cfg call = .ok (e', out, pending)) :
    InFlight cfg (e.batchQueue ++ [(e'.currentStep, out)]) e' ∧ e'.batchQueue = e.batchQueue ∧
    (pending = true → e.batchQueue ≠ []) ∧
    ∀ rid, cfg.useStructuredOutput rid → Samples out rid → ∀ x ∈ e.batchQueue, Samples x.2 rid →
      pending = true ∧ x ∉ e.batchQueue.tail := by
  obtain ⟨st, hloops, heq⟩ := of_bind he
  have hrec :
    Recorded (fun rid => e.nextDecodeEligibleStep rid ≤ e.currentStep + 1) e.scheduler st.sched
      st.scheduled := by
    refine recorded_scheduleLoops hA (fun d hd hne => ?_) hloops
    simpa [hne] using (mem_filter.mp hd).2
  obtain ⟨out', hinflight, hsampled⟩ := hrec.finishSchedule (n := call.numSpecTokens) fun rid =>
    countsInFlight_steps (scheduleLoops_view hA hloops rid) (h.counts rid)
  simp only [hinflight, getLastD_concat] at heq
  cases heq
  refine ⟨⟨fun rid => ?_, ?_, ?_, fun hv2 x hx rid hxs => ?_, h.bitmasks⟩, rfl,
    fun hpending hnil => ?_,
    fun rid hstruct hsample x hx hxs => ?_⟩
  · exact countsInFlight_steps (schedule_view hA (schedule_eq_ok.mpr ⟨st, hloops, rfl⟩) rid)
      (h.counts rid)
  · rw [map_append, ← h.inflight]
    exact hinflight
  · rw [map_append, ← append_assoc, h.order, range'_1_concat, Nat.add_comm 1]
    rfl
  · dsimp only
    rcases mem_append.mp hx with hx | hx
    · have hold := h.cadence hv2 x hx rid hxs
      have hlast := h.le_currentStep hx
      split <;> omega
    obtain rfl := mem_singleton.mp hx
    obtain ⟨step, hmem, hchunk⟩ := hxs
    rw [if_pos ⟨hv2, mem_map.mpr ⟨_, mem_filter.mpr ⟨hmem, by simp [hchunk]⟩, rfl⟩⟩]
  · simp only [any_filter, any_eq_true, Bool.and_eq_true] at hpending
    obtain ⟨x, hx, -, -, hpos⟩ := hpending
    obtain ⟨r, hreq, hcnt, -⟩ := hsampled x hx
    rw [hreq, Option.any_some, decide_eq_true_eq, hcnt, inflightOf, h.inflight, hnil] at hpos
    cases hpos
  obtain ⟨step, hmem, hchunk⟩ := hsample
  obtain ⟨r, hreq, hcnt, hE⟩ := hsampled _ hmem
  have hpos : 0 < r.numOutputPlaceholders :=
    hcnt ▸ placeholders_of_samples (h.inflight ▸ mem_map_of_mem hx) hxs
  constructor
  · simp only [any_filter, any_eq_true, Bool.and_eq_true]
    exact ⟨_, hmem, by simp [hchunk], hstruct, by simp [hreq, hpos]⟩
  intro htail
  have heligible : e.nextDecodeEligibleStep rid ≤ e.currentStep + 1 := hE hchunk hpos
  have hnumber := h.le_of_mem_tail htail
  unfold BatchQueueConfig.maxConcurrentBatches at hlen
  split at hlen
  next hv2 =>
    have := h.cadence hv2 x hx rid hxs
    omega
  rename_i hv1
  rw [if_pos (cfg.supported.resolve_left hv1)] at hlen
  have := length_pos_of_mem htail
  rw [length_tail] at this
  omega

/-- The steps without output, with the one that waits for its bitmask. -/
def queued (e : EngineCore) (deferred : Option SchedulerOutput) : List (ℕ × SchedulerOutput) :=
  e.batchQueue ++ (deferred.map (e.currentStep, ·)).toList

lemma InFlight.fillQueue (h : InFlight cfg e.batchQueue e) {pops : Bool}
    (hA : AllocatesSchedule untrimmed e.scheduler (e.eligible c.schedule))
    (he : e.fillQueue cfg c = .ok (e', deferred, pops)) :
    InFlight cfg (e'.queued deferred) e' ∧ (e'.queued deferred).length ≤ cfg.maxConcurrentBatches ∧
    (pops = true → e'.batchQueue ≠ []) ∧
    (pops = false → deferred = none ∧ e'.batchQueue.length < cfg.maxConcurrentBatches) ∧
    ∀ out, deferred = some out → Apart cfg out e'.batchQueue.tail := by
  obtain ⟨_, hlen, he⟩ := of_bind he
  have hlen := of_pyAssert hlen
  split at he
  next =>
    obtain ⟨⟨e1, out, pending⟩, hsched, he⟩ := of_bind he
    obtain ⟨h1, hsame, hpending, hearlier⟩ := h.schedule hlen hA hsched
    dsimp only at he
    split at he
    next hdefer =>
      rw [Bool.and_eq_true] at hdefer
      cases he
      refine ⟨by rwa [queued, hsame], ?_, fun _ => hsame ▸ hpending hdefer.2, nofun, ?_⟩
      · rw [queued, hsame, length_append]
        exact hlen
      rintro _ ⟨⟩ x hx rid hstruct hsample hxs
      rw [hsame] at hx
      exact (hearlier rid hstruct hsample x (mem_of_mem_tail hx) hxs).2 hx
    rename_i hnow
    have h2 : InFlight cfg (e1.batchQueue ++ [(e1.currentStep, out)]) e1 := by rwa [hsame]
    rw [← hsame] at hlen hearlier
    generalize (!cfg.isPoolingModel && (cfg.isEcConsumer && _)) = samples at he hnow
    obtain ⟨e2, he2, h2, hsame2⟩ : ∃ e2, (if samples then e1.getGrammarBitmask cfg out else e1) =
      e2 ∧
        InFlight cfg (e2.batchQueue ++ [(e2.currentStep, out)]) e2 ∧
          e2.batchQueue = e1.batchQueue := by
      cases samples with
      | false => exact ⟨e1, rfl, h2, rfl⟩
      | true =>
        refine ⟨_, rfl, h2.getGrammarBitmask fun x hx rid hstruct hsample hxs => hnow ?_, rfl⟩
        exact (hearlier rid hstruct hsample x hx hxs).1
    rw [he2] at he
    cases he
    have hlen2 : (e2.appendleft out).batchQueue.length ≤ cfg.maxConcurrentBatches := by
      rw [EngineCore.appendleft, length_append, hsame2]
      exact hlen
    refine ⟨by simpa [queued] using h2.appendleft, by simpa [queued] using hlen2,
      fun _ => by simp [EngineCore.appendleft],
      fun hpops => ⟨rfl, ?_⟩, nofun⟩
    simp only [Bool.not_eq_false', Bool.and_eq_true, decide_eq_true_eq] at hpops
    exact hpops.1
  next =>
    cases he
    refine ⟨by simpa [queued] using h, by simpa [queued] using hlen.le, fun hpops => ?_,
      fun _ => ⟨rfl, hlen⟩, nofun⟩
    simpa using hpops

lemma InFlight.popQueue (h : InFlight cfg (e.queued deferred) e)
    (hlen : (e.queued deferred).length ≤ cfg.maxConcurrentBatches)
    (hdefer : ∀ out, deferred = some out → Apart cfg out e.batchQueue.tail)
    (hout : ∀ s, e.scheduler.finishRequests c.aborts .finishedAborted c.delayFree = .ok s →
      GivesOutputs untrimmed true s c.output) (he : e.popQueue cfg c deferred = .ok e') :
    InFlight cfg e'.batchQueue e' ∧ e'.batchQueue.length < cfg.maxConcurrentBatches := by
  unfold EngineCore.popQueue at he
  split at he
  · cases he
  next n out batchQueue hqueue =>
  obtain ⟨s, hs, he⟩ := of_bind he
  obtain ⟨scheduler, hupdate, heq⟩ := of_bind he
  have hfull :
    e.queued deferred = (n, out) :: (batchQueue ++ (deferred.map (e.currentStep, ·)).toList) := by
    rw [queued, hqueue, cons_append]
  have hfinish := (finishRequests_spec hs).1
  have hsame : ({ s with inflight := out :: s.inflight.tail } : Scheduler) = s := by
    have : s.inflight = out :: s.inflight.tail := by rw [hfinish.1, h.inflight, hfull]; rfl
    rw [← this]
  rw [hsame] at hupdate
  have hview (rid : String) := updateFromOutput_view (hout s hs) hupdate rid
  have h' : InFlight cfg (batchQueue ++ (deferred.map (e.currentStep, ·)).toList)
      { e with scheduler, batchQueue, received := e.received ++ [n] } := {
    counts :=
      fun rid => countsInFlight_steps ((hfinish.view rid).trans (hview rid).2) (h.counts rid)
    inflight := by rw [(hview "").1, hfinish.1, h.inflight, hfull]; rfl
    order := by rw [append_assoc, ← h.order, hfull]; rfl
    cadence := fun hv2 x hx => h.cadence hv2 x (by rw [hfull]; exact mem_cons_of_mem _ hx)
    bitmasks := h.bitmasks }
  rw [hfull, length_cons, Nat.succ_le_iff] at hlen
  cases deferred with
  | none =>
    cases heq
    simpa using And.intro h' hlen
  | some out' =>
    cases heq
    refine ⟨(h'.getGrammarBitmask fun x hx => hdefer out' rfl x ?_).appendleft, hlen⟩
    rwa [hqueue]

include h in
lemma InFlight.of_view {s : Scheduler} (hview : ∀ rid,
      s.inflight = e.scheduler.inflight ∧
      ViewSteps true untrimmed (e.scheduler.view rid) (s.view rid)) :
    InFlight cfg queue { e with scheduler := s } where
  __ := h
  counts rid := countsInFlight_steps (hview rid).2 (h.counts rid)
  inflight := (hview "").1.trans h.inflight

lemma InFlight.handle {event : Event}
    (h : InFlight cfg e.batchQueue e) (hlen : e.batchQueue.length < cfg.maxConcurrentBatches)
    (hregular : e.Regular cfg event) (he : e.handle cfg event = .ok e') :
    InFlight cfg e'.batchQueue e' ∧ e'.batchQueue.length < cfg.maxConcurrentBatches := by
  cases event with
  | step c =>
    obtain ⟨⟨e1, deferred, pops⟩, hfill, he⟩ := of_bind he
    obtain ⟨h1, hlen1, -, hstays, hdefer⟩ := h.fillQueue hregular.1 hfill
    cases pops with
    | true => exact h1.popQueue hlen1 hdefer (fun s => hregular.2 e1 deferred s hfill) he
    | false =>
      cases he
      obtain ⟨rfl, hlt⟩ := hstays rfl
      exact ⟨by simpa [queued] using h1, hlt⟩
  | addRequest rid new =>
    obtain ⟨s, hadd, ⟨⟩⟩ := of_bind he
    have h1 := h.of_view (addRequest_view hregular hadd)
    refine ⟨{ h1 with cadence := fun hv2 x hx rid' hsample => ?_ }, hlen⟩
    have hcadence := h.cadence hv2 x hx rid' hsample
    dsimp only
    split
    next hnone =>
      -- no step of the queue samples for a new request
      have hne : rid' ≠ rid := by
        rintro rfl
        have := placeholders_of_samples (h.inflight ▸ mem_map_of_mem hx) hsample
        rw [hregular hnone] at this
        cases this
      rwa [Function.update_of_ne hne]
    · exact hcadence
  | abortRequests ids delayFree =>
    obtain ⟨s, habort, ⟨⟩⟩ := of_bind he
    have hfinish := (finishRequests_spec habort).1
    exact ⟨h.of_view fun rid => ⟨hfinish.1, hfinish.view rid⟩, hlen⟩
  | resetPrefixCache resetRunning success =>
    obtain ⟨s, hreset, ⟨⟩⟩ := of_bind he
    exact ⟨h.of_view (resetPrefixCache_view hregular hreset), hlen⟩

/-- In every run the queue is never full at the start of a step and never empty at `pop`,
`update_from_output` gets every step once and in the order of scheduling, and whenever
`get_grammar_bitmask` runs, no step that is not yet processed samples a token for a request that
gets a row. -/
theorem bitmask_after_outputs {events : List Event}
    (hrun : Machine.Run (handle cfg) (Regular cfg) {} events e) :
    e.batchQueue.length < cfg.maxConcurrentBatches ∧
    (∀ c e' deferred, e.Regular cfg (.step c) → e.fillQueue cfg c = .ok (e', deferred, true) →
      e'.batchQueue ≠ [] ∧ (e'.queued deferred).length ≤ cfg.maxConcurrentBatches) ∧
    e.received ++ e.batchQueue.map (·.1) = range' 1 e.currentStep ∧
    ∀ m ∈ e.bitmasks, ∀ x ∈ m.unprocessed, ∀ rid ∈ m.ids, ¬ Samples x.2 rid := by
  have hinit : InFlight cfg [] {} := ⟨fun _ => nofun, rfl, rfl, nofun, nofun⟩
  have hpos : 0 < cfg.maxConcurrentBatches := by
    unfold BatchQueueConfig.maxConcurrentBatches
    split
    · omega
    rename_i hv1
    rw [if_pos (cfg.supported.resolve_left hv1)]
    decide
  obtain ⟨h, hlen⟩ := hrun.invariant
    (P := fun e => InFlight cfg e.batchQueue e ∧ e.batchQueue.length < cfg.maxConcurrentBatches)
    (fun _ _ _ h hregular he => h.1.handle h.2 hregular he) ⟨hinit, hpos⟩
  refine ⟨hlen, fun c e' deferred hregular hfill => ?_, h.order, h.bitmasks⟩
  obtain ⟨-, hlen', hpop, -⟩ := h.fillQueue hregular.1 hfill
  exact ⟨hpop rfl, hlen'⟩

def structuredConfig : BatchQueueConfig where
  pipelineParallelSize := 1
  useV2ModelRunner := true
  supported := .inl rfl
  useStructuredOutput _ := true

def prefillStep : StepCall where
  schedule := { waiting := [("r", { action := .start 0 16 })] }
  output := { outputs := fun _ => { numGenerated := 1 } }

/-- The second step is deferred until the output of the first is processed. -/
def decodeEvents : List Event :=
  [.addRequest "r" { numTokens := 3 }, .step prefillStep,
    .step { prefillStep with schedule := { running := [("r", .run 16)] } }]

/-- The bitmask of the decode step is made after the output of the step before it. -/
theorem decode_after_output :
    ∃ e, Machine.Run (handle structuredConfig) (Regular structuredConfig) {} decodeEvents e ∧
    e.received = [1] ∧ e.bitmasks.map (·.ids) = [["r"], ["r"]] ∧
    ∀ m ∈ e.bitmasks, ∀ x ∈ m.unprocessed, ∀ rid ∈ m.ids, ¬ Samples x.2 rid := by
  refine Exists.imp (fun e (h : Machine.Run _ _ _ _ e ∧ _ ∧ _) =>
    ⟨h.1, h.2.1, h.2.2, (bitmask_after_outputs h.1).2.2.2⟩) ⟨_, .cons (fun _ => rfl) rfl
      (.cons ⟨allocatesSchedule_start rfl rfl trivial, ?_⟩ rfl
      (.cons ⟨allocatesSchedule_run rfl rfl trivial, ?_⟩ rfl (.nil _))), rfl, rfl⟩
  · rintro e' deferred s ⟨⟩
  · rintro e' deferred s ⟨⟩ ⟨⟩
    exact givesOutputs_single rfl fun _ => ⟨⟨by decide, by decide⟩, fun _ => rfl⟩

/-- `reset_prefix_cache` preempts the request while its first step is in flight. It resumes in the
next step, whose bitmask is computed before that output comes back. -/
theorem reset_bitmask_early : ∃ e, Machine.Run (handle structuredConfig) (fun _ _ => True) {}
    [.addRequest "r" { numTokens := 3 }, .step prefillStep, .resetPrefixCache true true,
      .step prefillStep] e ∧
    ∃ m ∈ e.bitmasks, ∃ x ∈ m.unprocessed, "r" ∈ m.ids ∧ Samples x.2 "r" := by
  refine ⟨_, .cons trivial rfl (.cons trivial rfl (.cons trivial rfl (.cons trivial rfl (.nil _)))),
    ?_⟩
  exact ⟨_, .tail _ (.head _), _, .head _, .head _, _, .head _, rfl⟩

end EngineCore

end Vllm
