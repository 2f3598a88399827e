import Mathlib.Data.List.Dedup
import Vllm.Sched.QueueRuns

/-!
# The scheduler as one request sees it

`RequestView` keeps what concerns one request, `ViewStep` lists what can happen to it; every run is
a sequence of such steps for each request (`view_run`). `Assumption` carries what a run may assume.
-/

namespace Vllm

open List Option SchedRequest Scheduler

variable {r r' : SchedRequest} {rid i : String} (out : SchedulerOutput)

def stepsOf (rid : String) : List ScheduledStep :=
  (out.filter (·.1 = rid)).map (·.2)

@[simp] lemma stepsOf_nil (rid : String) : stepsOf [] rid = [] := rfl

lemma stepsOf_cons_self (rid : String) (step : ScheduledStep) (out : SchedulerOutput) :
    stepsOf ((rid, step) :: out) rid = step :: stepsOf out rid := by
  simp [stepsOf]

lemma stepsOf_cons_of_ne (h : i ≠ rid) (step : ScheduledStep)
    (out : SchedulerOutput) : stepsOf ((i, step) :: out) rid = stepsOf out rid := by
  simp [stepsOf, h]

lemma stepsOf_eq_nil {out : SchedulerOutput} {rid : String} (h : rid ∉ out.map (·.1)) :
    stepsOf out rid = [] := by
  have : out.filter (·.1 = rid) = [] := by
    rw [filter_eq_nil_iff]
    intro e he hrid
    exact h (mem_map.mpr ⟨e, he, of_decide_eq_true hrid⟩)
  rw [stepsOf, this]
  rfl

lemma stepsOf_filter_self (rid : String) : stepsOf (out.filter (·.1 ≠ rid)) rid = [] := by
  refine stepsOf_eq_nil fun h => ?_
  obtain ⟨e, he, hrid⟩ := mem_map.mp h
  simpa [hrid] using of_mem_filter he

lemma stepsOf_filter_of_ne (h : i ≠ rid) :
    stepsOf (out.filter (·.1 ≠ i)) rid = stepsOf out rid := by
  unfold stepsOf
  rw [List.filter_filter]
  congr 1
  refine List.filter_congr fun e _ => ?_
  by_cases he : e.1 = rid
  · simp [he, Ne.symm h]
  · simp [he]

lemma stepsOf_append (out out' : SchedulerOutput) (rid : String) :
    stepsOf (out ++ out') rid = stepsOf out rid ++ stepsOf out' rid := by
  simp [stepsOf]

lemma stepsOf_recordStep_self (rid : String) (step : ScheduledStep) :
    stepsOf (recordStep out rid step) rid = [step] := by
  rw [recordStep, stepsOf_append, stepsOf_filter_self, stepsOf_cons_self]
  rfl

lemma stepsOf_recordStep_of_ne (h : i ≠ rid)
    (step : ScheduledStep) : stepsOf (recordStep out i step) rid = stepsOf out rid := by
  rw [recordStep, stepsOf_append, stepsOf_filter_of_ne _ h, stepsOf_cons_of_ne h, stepsOf_nil,
    append_nil]

/-- The steps in flight of the request, the oldest first. -/
def Scheduler.inflightOf (s : Scheduler) (rid : String) : List ScheduledStep :=
  s.inflight.flatMap (stepsOf · rid)

/-- What concerns one request. -/
structure RequestView where
  request : Option SchedRequest
  chosen : List ScheduledStep
  inflight : List ScheduledStep

/-- What a result assumes about the calls, seen from one request. -/
structure Assumption where
  /-- At a call of `allocate_slots`, for the request and its steps in flight. -/
  allocate : SchedRequest → List ScheduledStep → Prop
  /-- At an output, for the request and the step that it belongs to. -/
  output : SchedRequest → ScheduledStep → RequestOutput → Prop

/-- Everything that can happen to a request. -/
inductive ViewStep (async : Bool) (A : Assumption) : RequestView → RequestView → Prop
  /-- `add_request` with an id that is not in use. -/
  | add (new : Scheduler.NewRequest) : ViewStep async A ⟨none, [], []⟩ ⟨some new.toRequest, [], []⟩
  /-- `add_request` queues input for a session. -/
  | queueInput (r : SchedRequest) (queue : Option (List (Option ℕ))) (c fl : List ScheduledStep) :
      ViewStep async A ⟨some r, c, fl⟩ ⟨some { r with streamingQueue := queue }, c, fl⟩
  /-- `add_request` brings the input that a session waits for. -/
  | session (r : SchedRequest) (numNew : ℕ) (c fl : List ScheduledStep)
      (hst : r.status = .waitingForStreamingReq) :
      ViewStep async A ⟨some r, c, fl⟩ ⟨some (r.updateAsSession numNew), c, fl⟩
  | finish (r r' : Option SchedRequest) (c fl : List ScheduledStep) (hgone : Scheduler.Gone r') :
      ViewStep async A ⟨r, c, fl⟩ ⟨r', c, fl⟩
  | drafts (r : SchedRequest) (numSpecTokens : ℕ) (c fl : List ScheduledStep) :
      ViewStep async A ⟨some r, c, fl⟩ ⟨some { r with numSpecTokens }, c, fl⟩
  /-- The running loop of `schedule` gives the request tokens. -/
  | run (r r' : SchedRequest) (limit : ℕ) (step : ScheduledStep) (fl : List ScheduledStep)
      (hst : r.status = .running) (halloc : A.allocate r fl) (h : r.scheduleRunning limit =
        some (step, r')) :
      ViewStep async A ⟨some r, [], fl⟩ ⟨some r', [step], fl⟩
  | preempt (r : SchedRequest) (c fl : List ScheduledStep) (hst : r.status = .running) :
      ViewStep async A ⟨some r, c, fl⟩ ⟨some r.preempt, [], fl⟩
  | unknown (c c' fl : List ScheduledStep) : ViewStep async A ⟨none, c, fl⟩ ⟨none, c', fl⟩
  /-- A blocked request becomes schedulable. -/
  | promote (r r' : SchedRequest) (ready : Bool) (c fl : List ScheduledStep)
      (h : r.tryPromote ready = .ok (some r')) : ViewStep async A ⟨some r, c, fl⟩ ⟨some r', c, fl⟩
  /-- `allocate_slots` refuses a waiting request that holds blocks. -/
  | refuse (r : SchedRequest) (c fl : List ScheduledStep) (hst : r.status.waits)
      (hremote : r.status ≠ .waitingForRemoteKvs) (halloc : A.allocate r fl) :
      ViewStep async A ⟨some r, c, fl⟩
        ⟨some { r with removedAt := r.numComputedTokens :: r.removedAt }, c, fl⟩
  /-- The KV of a waiting request is loaded in the background. -/
  | loadAsync (r : SchedRequest) (n : ℕ) (c fl : List ScheduledStep) (hst : r.status.waits)
      (halloc : A.allocate r fl) (hzero : r.numComputedTokens = 0) (hn : n ≤ r.numTokens) :
      ViewStep async A ⟨some r, c, fl⟩
        ⟨some { r with status := .waitingForRemoteKvs, numComputedTokens := n, removedAt := [] }, c,
          fl⟩
  /-- The KV of a waiting request could not be loaded, so that fewer tokens are computed. -/
  | loadFailed (r : SchedRequest) (n : ℤ) (c fl : List ScheduledStep)
      (hst : r.status = .waitingForRemoteKvs) :
      ViewStep async A ⟨some r, c, fl⟩ ⟨some { r with numComputedTokens := n }, c, fl⟩
  /-- A waiting request starts to run. -/
  | start (r : SchedRequest) (computed : ℤ) (n : ℕ) (c fl : List ScheduledStep)
      (hst : r.status.waits) (halloc : A.allocate r fl)
      (hcomputed : computed = r.numComputedTokens ∨ r.numComputedTokens = 0 ∧ 0 ≤ computed)
      (hn : 0 < n) (hle : computed + n ≤ r.numTokens) :
      ViewStep async A ⟨some r, c, fl⟩ ⟨some (r.start computed), [{ numScheduledTokens := n }], fl⟩
  /-- The step that was recorded is in flight. -/
  | advance (r : SchedRequest) (numSpec : ℕ) (step : ScheduledStep) (c fl : List ScheduledStep) :
      ViewStep async A ⟨some r, step :: c, fl⟩
        ⟨some (r.updateAfterSchedule async numSpec step).1, c,
          fl ++ [(r.updateAfterSchedule async numSpec step).2]⟩
  | output (r r' : SchedRequest) (step : ScheduledStep) (o : RequestOutput)
      (fl : List ScheduledStep) (hfin : ¬ r.status.isFinished) (hout : A.output r step o)
      (h : r.applyOutput async step o = .ok (r', false)) :
      ViewStep async A ⟨some r, [], step :: fl⟩ ⟨some r', [], fl⟩
  /-- An output that stops a session, which then waits for its next input. -/
  | stop (r r' : SchedRequest) (step : ScheduledStep) (o : RequestOutput)
      (fl : List ScheduledStep) (hfin : ¬ r.status.isFinished) (hout : A.output r step o)
      (h : r.applyOutput async step o = .ok (r', true)) (hgo : r'.handleStopped.2 = false) :
      ViewStep async A ⟨some r, [], step :: fl⟩ ⟨some r'.handleStopped.1, [], fl⟩
  /-- An output of a request that is finished, or that finishes it. -/
  | lastOutput (r r' : Option SchedRequest) (step : ScheduledStep) (fl : List ScheduledStep)
      (hgone : Scheduler.Gone r') : ViewStep async A ⟨r, [], step :: fl⟩ ⟨r', [], fl⟩
  /-- `reset_prefix_cache` preempts the request when none of its steps is in flight. -/
  | reset (r : SchedRequest) (hst : r.status = .running) :
      ViewStep async A ⟨some r, [], []⟩
        ⟨some { r.preempt with
          asyncTokensToDiscard := r.numOutputPlaceholders
          numOutputPlaceholders := 0 }, [], []⟩

/-- A promotion keeps a request that is not blocked; otherwise it waits in line, and only the
arrival of its KV may move it. -/
structure SchedRequest.Promoted (r r' : SchedRequest) : Prop where
  blocked : r.status = .waitingForRemoteKvs ∨ r.status = .waitingForStructuredOutputGrammar
  status : r'.status = .waiting ∨ r'.status = .preempted
  numComputedTokens : r.status ≠ .waitingForRemoteKvs → r'.numComputedTokens = r.numComputedTokens
  numOutputPlaceholders : r'.numOutputPlaceholders = r.numOutputPlaceholders
  asyncTokensToDiscard : r'.asyncTokensToDiscard = r.asyncTokensToDiscard
  removedAt : r'.removedAt = r.removedAt

variable {ready : Bool}

lemma SchedRequest.tryPromote_cases (h : r.tryPromote ready = .ok (some r')) :
    r' = r ∧ r.status ≠ .waitingForRemoteKvs ∨ Promoted r r' := by
  unfold tryPromote at h
  split at h
  next hst =>
    split at h
    · obtain rfl := some.inj (Except.ok.inj h)
      refine .inr ⟨.inl hst, ?_, fun e => absurd hst e, rfl, rfl, rfl⟩
      split
      · exact .inr rfl
      · exact .inl rfl
    · cases h
  next hst =>
    cases ready with
    | true =>
      obtain rfl := some.inj (Except.ok.inj h)
      exact .inr ⟨.inr hst, .inl rfl, fun _ => rfl, rfl, rfl, rfl⟩
    | false => cases h
  · obtain ⟨_, _, ⟨⟩⟩ := of_bind h
  rename_i hremote _ _
  obtain rfl := some.inj (Except.ok.inj h)
  exact .inl ⟨rfl, hremote⟩

lemma SchedRequest.Promoted.unfinished (h : Promoted r r') : ¬ r.status.isFinished := by
  rcases h.blocked with e | e <;> simp [e, RequestStatus.isFinished]

lemma SchedRequest.Promoted.not_running (h : Promoted r r') : r'.status ≠ .running := by
  rcases h.status with e | e <;> simp [e]

lemma SchedRequest.tryPromote_not_remote
    (h : r.tryPromote ready = .ok (some r')) : r'.status ≠ .waitingForRemoteKvs := by
  obtain ⟨rfl, hst⟩ | hp := tryPromote_cases h
  · exact hst
  · rcases hp.status with e | e <;> simp [e]

abbrev ViewSteps (async : Bool) (A : Assumption) := Relation.ReflTransGen (ViewStep async A)

namespace Scheduler

open Relation

variable {async : Bool} {A : Assumption}
variable {s t : Scheduler} {i : String} {rid : String} {st st' : ScheduleState} {r : SchedRequest}
  {call : UpdateCall} (s : Scheduler)

def view (rid : String) : RequestView := ⟨s.requests rid, [], s.inflightOf rid⟩

def ScheduleState.view (st : ScheduleState) (rid : String) : RequestView :=
  ⟨st.sched.requests rid, stepsOf st.scheduled rid, st.sched.inflightOf rid⟩

def UpdateState.view (u : UpdateState) (todo : SchedulerOutput) (rid : String) : RequestView :=
  ⟨u.sched.requests rid, [], stepsOf todo rid ++ u.sched.inflightOf rid⟩

/-! ## `schedule` -/

/-- At a decision of the running loop that calls `allocate_slots`: the request is in `RUNNING`. -/
def AllocatesRunning (A : Assumption) (st : ScheduleState) (d : String × RunDecision) : Prop :=
  ∀ limit r, d.2 = .run limit → st.sched.requests d.1 = some r →
    r.status = .running ∧ A.allocate r (st.sched.inflightOf d.1)

def WaitAction.allocates : WaitAction → Bool
  | .skip => false
  | .leave allocated => allocated
  | .loadAsync _ => true
  | .start _ _ => true

/-- At an iteration of the waiting loop that calls `allocate_slots`: the request, perhaps just
promoted, waits. -/
def AllocatesWaiting (A : Assumption) (st : ScheduleState) (d : String × WaitDecision) : Prop :=
  d.2.action.allocates → ∀ r r', st.sched.requests d.1 = some r →
    r.tryPromote d.2.ready = .ok (some r') →
    r'.status.waits ∧ A.allocate r' (st.sched.inflightOf d.1)

lemma runningStep_view {d : RunDecision}
    (hA : AllocatesRunning A st (i, d)) (he : runningStep st i d = .ok st') (rid : String) :
    ViewSteps async A (st.view rid) (st'.view rid) := by
  cases d with
  | run limit =>
    simp only [runningStep] at he
    split at he
    next hguard =>
      split at he
      · cases he
        exact .refl
      rename_i step r hr
      cases he
      obtain ⟨r0, hreq, hr⟩ := bind_eq_some_iff.mp hr
      rcases eq_or_ne i rid with rfl | hi
      · have hv : st.view i = ⟨some r0, [], st.sched.inflightOf i⟩ := by
          rw [ScheduleState.view, hreq, stepsOf_eq_nil hguard.2]
        rw [hv]
        simp only [ScheduleState.view, set_same, stepsOf_recordStep_self]
        obtain ⟨hst, hal⟩ := hA limit r0 rfl hreq
        exact .single (.run r0 r limit step _ hst hal hr)
      · simp only [ScheduleState.view, set_of_ne _ _ (Ne.symm hi), stepsOf_recordStep_of_ne _ hi]
        exact .refl
    · cases he
      exact .refl
  | preempt =>
    simp only [runningStep] at he
    split at he
    next hmem =>
      obtain ⟨sched, hp, ⟨⟩⟩ := of_bind he
      unfold preemptRequest at hp
      split at hp
      next hnone =>
        cases hp
        rcases eq_or_ne i rid with rfl | hi
        · have hnone : st.sched.requests i = none := hnone
          simp only [ScheduleState.view, hnone]
          exact .single (.unknown _ _ _)
        · simp only [ScheduleState.view, stepsOf_filter_of_ne _ hi]
          exact .refl
      rename_i r hreq
      obtain ⟨_, hst, ⟨⟩⟩ := of_bind hp
      rcases eq_or_ne i rid with rfl | hi
      · have hreq : st.sched.requests i = some r := hreq
        simp only [ScheduleState.view, hreq, set_same, stepsOf_filter_self]
        exact .single (.preempt r _ _ (of_pyAssert hst))
      · simp only [ScheduleState.view, set_of_ne _ _ (Ne.symm hi), stepsOf_filter_of_ne _ hi]
        exact .refl
    · cases he
      exact .refl

@[simp] lemma popWaiting_requests (rid : String) : (s.popWaiting rid).requests = s.requests := by
  unfold popWaiting
  split <;> rfl

@[simp] lemma popWaiting_inflight (rid : String) : (s.popWaiting rid).inflight = s.inflight := by
  unfold popWaiting
  split <;> rfl

@[simp] lemma skipWaiting_view (st : ScheduleState) (i rid : String) :
    (skipWaiting st i).view rid = st.view rid := by
  simp [ScheduleState.view, skipWaiting, inflightOf]

variable {r0 r : SchedRequest}

lemma startWaiting_view {n limit : ℕ} (hreq : st.sched.requests i = some r0)
    (hp : r0.tryPromote ready = .ok (some r))
    (hA : r.status.waits ∧ A.allocate r (st.sched.inflightOf i))
    (he : startWaiting st i r n limit = .ok st') (rid : String) :
    ViewSteps async A (st.view rid) (st'.view rid) := by
  obtain ⟨_, _, he⟩ := of_bind he
  obtain ⟨_, hpos, he⟩ := of_bind he
  have hpos := of_pyAssert hpos
  split at he
  · cases he
    rcases eq_or_ne i rid with rfl | hi
    · simp only [ScheduleState.view, hreq, set_same, stepsOf_recordStep_self]
      refine (ReflTransGen.single (.promote r0 r ready _ _ hp)).tail ?_
      have hfl : (({ st.sched.popWaiting i with
          running := (st.sched.popWaiting i).running ++ [i] } : Scheduler).set i
          (r.start (if r.numComputedTokens = 0 then (n : ℤ) else r.numComputedTokens))).inflightOf
            i =
          st.sched.inflightOf i := by
        simp [inflightOf, set]
      rw [hfl]
      refine .start r _ _ _ _ hA.1 hA.2 ?_ (by omega) (by omega)
      split
      next hz => exact .inr ⟨hz, Int.natCast_nonneg n⟩
      · exact .inl rfl
    simp only [ScheduleState.view, set_of_ne _ _ (Ne.symm hi), stepsOf_recordStep_of_ne _ hi]
    simp only [popWaiting_requests, inflightOf, set, popWaiting_inflight]
    exact .refl
  · cases he

lemma waitingAction_view {action : WaitAction} (hreq : st.sched.requests i = some r0)
    (hp : r0.tryPromote ready = .ok (some r))
    (hA : action.allocates → r.status.waits ∧ A.allocate r (st.sched.inflightOf i))
    (he : waitingAction st i r action = .ok st') (rid : String) :
    ViewSteps async A (st.view rid) (st'.view rid) := by
  -- Every action but `start` first writes the promoted request back.
  have hset (r' : SchedRequest) (hr' : ViewSteps async A (⟨some r, stepsOf st.scheduled i,
      st.sched.inflightOf i⟩) ⟨some r', stepsOf st.scheduled i, st.sched.inflightOf i⟩) :
      ViewSteps async A (st.view rid)
        (ScheduleState.view { st with sched := st.sched.set i r' } rid) := by
    rcases eq_or_ne i rid with rfl | hi
    · simp only [ScheduleState.view, hreq, set_same]
      exact (ReflTransGen.single (.promote r0 r ready _ _ hp)).trans hr'
    · simp only [ScheduleState.view, set_of_ne _ _ (Ne.symm hi)]
      exact .refl
  cases action with
  | skip =>
    cases he
    rw [skipWaiting_view]
    exact hset r .refl
  | leave allocated =>
    cases he
    refine hset _ ?_
    split
    next h =>
      exact .single (.refuse r _ _ (hA h.1).1 (tryPromote_not_remote hp) (hA h.1).2)
    · exact .refl
  | loadAsync n =>
    simp only [waitingAction] at he
    split at he
    next hzero =>
      obtain ⟨_, hle, ⟨⟩⟩ := of_bind he
      rw [skipWaiting_view]
      exact hset _ (.single (.loadAsync r n _ _ (hA rfl).1 (hA rfl).2 hzero
        (of_pyAssert hle)))
    · cases he
      exact hset r .refl
  | start n limit => exact startWaiting_view hreq hp (hA rfl) he rid

lemma waitingStep_view {d : WaitDecision}
    (hA : AllocatesWaiting A st (i, d)) (he : waitingStep st i d = .ok st') (rid : String) :
    ViewSteps async A (st.view rid) (st'.view rid) := by
  unfold waitingStep at he
  split at he
  · split at he
    · cases he
      exact .refl
    rename_i r hreq
    obtain ⟨promoted, hp, he⟩ := of_bind he
    cases promoted with
    | none =>
      cases he
      rw [skipWaiting_view]
    | some r' => exact waitingAction_view hreq hp (fun hact => hA hact r r' hreq hp) he rid
  · cases he
    exact .refl

lemma updateAfterSchedule_inflight (numSpec : ℕ) (out : SchedulerOutput) (s : Scheduler) :
    (updateAfterSchedule async numSpec out s).1.inflight = s.inflight := by
  induction out generalizing s with
  | nil => rfl
  | cons e out ih =>
    simp only [updateAfterSchedule]
    split
    · exact ih s
    · exact ih _

lemma updateAfterSchedule_view (numSpec : ℕ) (out : SchedulerOutput) (s : Scheduler) (rid : String)
    (fl : List ScheduledStep) : ViewSteps async A ⟨s.requests rid, stepsOf out rid, fl⟩
      ⟨(updateAfterSchedule async numSpec out s).1.requests rid, [],
        fl ++ stepsOf (updateAfterSchedule async numSpec out s).2 rid⟩ := by
  induction out generalizing s fl with
  | nil =>
    simp only [updateAfterSchedule, stepsOf_nil, append_nil]
    exact .refl
  | cons e out ih =>
    obtain ⟨i, step⟩ := e
    simp only [updateAfterSchedule]
    rcases eq_or_ne i rid with rfl | hi
    · split
      next hnone =>
        rw [hnone]
        refine (ReflTransGen.single (.unknown _ (stepsOf out i) fl)).trans ?_
        rw [← hnone]
        exact ih s fl
      rename_i r hreq
      rw [hreq, stepsOf_cons_self]
      refine (ReflTransGen.single (.advance r numSpec step _ fl)).trans ?_
      have h := ih (s.set i (r.updateAfterSchedule async numSpec step).1)
        (fl ++ [(r.updateAfterSchedule async numSpec step).2])
      rw [set_same] at h
      simpa only [stepsOf_cons_self, append_assoc, singleton_append] using h
    rw [stepsOf_cons_of_ne hi]
    split
    · exact ih s fl
    rename_i r hreq
    have h := ih (s.set i (r.updateAfterSchedule async numSpec step).1) fl
    rw [set_of_ne _ _ (Ne.symm hi)] at h
    rw [stepsOf_cons_of_ne hi]
    exact h

def AllocatesSchedule (A : Assumption) (s : Scheduler) (call : ScheduleCall) : Prop :=
  Machine.Along (fun st d => runningStep st d.1 d.2) (AllocatesRunning A) { sched := s }
    call.running ∧
    ∀ st, call.running.foldlM (fun st d => runningStep st d.1 d.2) { sched := s } = .ok st →
      Machine.Along (fun st d => waitingStep st d.1 d.2) (AllocatesWaiting A) st call.waiting

variable {s : Scheduler}

lemma allocatesSchedule_run {limit numSpec : ℕ}
    (hreq : s.requests rid = some r) (hst : r.status = .running)
    (hA : A.allocate r (s.inflightOf rid)) :
    AllocatesSchedule A s { running := [(rid, .run limit)], numSpecTokens := numSpec } := by
  refine ⟨⟨fun _ r' _ hr' => ?_, fun _ _ => trivial⟩, fun _ _ => trivial⟩
  obtain rfl := some.inj (hreq.symm.trans hr')
  exact ⟨hst, hA⟩

lemma allocatesSchedule_start {n limit numSpec : ℕ} (hreq : s.requests rid = some r)
    (hst : r.status = .waiting) (hA : A.allocate r (s.inflightOf rid)) : AllocatesSchedule A s
      { waiting := [(rid, { action := .start n limit })], numSpecTokens := numSpec } := by
  refine ⟨trivial, fun st hst' => ⟨fun _ r0 r' hr0 hp => ?_, fun _ _ => trivial⟩⟩
  cases hst'
  obtain rfl := some.inj (hreq.symm.trans hr0)
  rw [tryPromote, hst] at hp
  obtain rfl := some.inj (Except.ok.inj hp)
  exact ⟨by rw [hst]; rfl, hA⟩

lemma schedule_eq_ok {call : ScheduleCall} : s.schedule async call = .ok t ↔
    ∃ st, s.scheduleLoops call = .ok st ∧ finishSchedule async call.numSpecTokens st = t := by
  simp only [schedule, scheduleLoops, bind_eq_ok, Except.ok.injEq]
  tauto

lemma scheduleLoops_view {call : ScheduleCall} (hA : AllocatesSchedule A s call)
    (he : s.scheduleLoops call = .ok st') (rid : String) :
    ViewSteps async A (s.view rid) (st'.view rid) := by
  obtain ⟨st, hrun, hwait⟩ := of_bind he
  have h1 : ViewSteps async A (s.view rid) (st.view rid) :=
    hA.1.invariant (P := fun _ st => ViewSteps async A (s.view rid) (ScheduleState.view st rid))
      (fun _ _ _ _ h hok he => h.trans (runningStep_view hok he rid)) hrun .refl
  split at hwait
  · exact (hA.2 st hrun).invariant (P := fun _ st =>
      ViewSteps async A (s.view rid) (ScheduleState.view st rid))
      (fun _ _ _ _ h hok he => h.trans (waitingStep_view hok he rid)) hwait h1
  · cases hwait
    exact h1

lemma schedule_view {call : ScheduleCall} (hA : AllocatesSchedule A s call)
    (he : s.schedule async call = .ok t) (rid : String) :
    ViewSteps async A (s.view rid) (t.view rid) := by
  obtain ⟨st', hloops, rfl⟩ := schedule_eq_ok.mp he
  refine (scheduleLoops_view hA hloops rid).trans ?_
  convert updateAfterSchedule_view call.numSpecTokens st'.scheduled
    { st'.sched with skippedWaiting := st'.stepSkippedWaiting ++ st'.sched.skippedWaiting } rid
    (st'.sched.inflightOf rid) using 1
  · rfl
  · simp only [view, finishSchedule, inflightOf, updateAfterSchedule_inflight, flatMap_append,
      flatMap_singleton]

/-! ## `update_from_output` -/

def GivesOutput (A : Assumption) (call : UpdateCall) (u : UpdateState)
    (entry : String × ScheduledStep) : Prop :=
  entry.1 ∉ call.failedIds → ∀ r, u.sched.requests entry.1 = some r → ¬ r.status.isFinished →
    A.output r entry.2 (call.outputs entry.1)

lemma enqueueWaiting_requests (s : Scheduler) (rid : String) (status : RequestStatus) :
    (s.enqueueWaiting rid status).requests = s.requests := by
  unfold enqueueWaiting
  split <;> rfl

lemma enqueueWaiting_inflight (s : Scheduler) (rid : String) (status : RequestStatus) :
    (s.enqueueWaiting rid status).inflight = s.inflight := by
  unfold enqueueWaiting
  split <;> rfl

lemma stopRequest_view (hr : r.status.isFinished) (s : Scheduler) (rid : String)
    (delayFree : Bool) :
    let t := s.stopRequest rid r delayFree
    t.inflight = s.inflight ∧ (∀ i, i ≠ rid → t.requests i = s.requests i) ∧
      (Gone (t.requests rid) ∨
        r.handleStopped.2 = false ∧ t.requests rid = some r.handleStopped.1) := by
  rcases stopRequest_cases hr s rid delayFree with ⟨requests, heq, hoth, hgone⟩ | ⟨hgo, -, heq⟩
  · rw [heq]
    exact ⟨rfl, hoth, .inl hgone⟩
  rw [heq]
  refine ⟨enqueueWaiting_inflight s rid _, fun i hi => ?_, .inr ⟨hgo, set_same ..⟩⟩
  rw [set_of_ne _ _ hi, enqueueWaiting_requests]

variable {entry : String × ScheduledStep} {u u' : UpdateState}

lemma updateRequest_view {todo : SchedulerOutput} (hrid : rid ∉ call.failedIds)
    (hA : GivesOutput A call u entry) (he : updateRequest async call u entry = .ok u') :
    ViewSteps async A (u.view (entry :: todo) rid) (u'.view todo rid) := by
  obtain ⟨i, step⟩ := entry
  have hskip : Gone (u.sched.requests i) →
    ViewSteps async A (u.view ((i, step) :: todo) rid) (u.view todo rid) := by
    intro hgone
    rcases eq_or_ne i rid with rfl | hi
    · simp only [UpdateState.view, stepsOf_cons_self, cons_append]
      exact .single (.lastOutput _ _ step _ hgone)
    · simp only [UpdateState.view, stepsOf_cons_of_ne hi]
      exact .refl
  unfold updateRequest at he
  split at he
  next hfailed =>
    cases he
    have hi : i ≠ rid := fun e => hrid (e ▸ hfailed)
    simp only [UpdateState.view, stepsOf_cons_of_ne hi]
    exact .refl
  rename_i hid
  split at he
  next hnone =>
    cases he
    exact hskip fun r hr => by rw [hnone] at hr; cases hr
  rename_i r hreq
  split at he
  next hfin =>
    cases he
    refine hskip fun r' hr' => ?_
    obtain rfl := some.inj (hreq.symm.trans hr')
    exact hfin
  rename_i hfin
  obtain ⟨⟨r', stopped⟩, happ, he⟩ := of_bind he
  have hout := hA hid r hreq hfin
  cases stopped with
  | false =>
    cases he
    rcases eq_or_ne i rid with rfl | hi
    · have hreq : u.sched.requests i = some r := hreq
      simp only [UpdateState.view, set_same, stepsOf_cons_self, cons_append, hreq]
      exact .single (.output r r' step _ _ hfin hout happ)
    · simp only [UpdateState.view, set_of_ne _ _ (Ne.symm hi), stepsOf_cons_of_ne hi]
      exact .refl
  | true =>
    obtain ⟨hfl, hoth, hstop⟩ := stopRequest_view (applyOutput_stops happ).1
      u.sched i (call.outputs i).delayFree
    have hu' : u'.sched = u.sched.stopRequest i r' (call.outputs i).delayFree := by
      have he := Except.ok.inj he
      dsimp only at he
      rw [← he]
      split <;> rfl
    rcases eq_or_ne i rid with rfl | hi
    · have hreq : u.sched.requests i = some r := hreq
      simp only [UpdateState.view, stepsOf_cons_self, cons_append, hreq, hu', inflightOf, hfl]
      rcases hstop with hgone | ⟨hgo, hsome⟩
      · exact .single (.lastOutput _ _ step _ hgone)
      rw [hsome]
      exact .single (.stop r r' step _ _ hfin hout happ hgo)
    · simp only [UpdateState.view, stepsOf_cons_of_ne hi, hu', inflightOf, hfl,
        hoth rid (Ne.symm hi)]
      exact .refl

lemma updateRequest_inflight
    (he : updateRequest async call u entry = .ok u') : u'.sched.inflight = u.sched.inflight := by
  unfold updateRequest at he
  split at he
  · cases he
    rfl
  split at he
  · cases he
    rfl
  split at he
  · cases he
    rfl
  obtain ⟨⟨r', stopped⟩, happ, he⟩ := of_bind he
  cases stopped with
  | false =>
    cases he
    rfl
  | true =>
    cases he
    split <;> exact (stopRequest_view (applyOutput_stops happ).1 ..).1

/-- Requests are finished, and everything else of their views stays. -/
def OnlyFinishes (s t : Scheduler) : Prop :=
  t.inflight = s.inflight ∧ ∀ i, t.requests i = s.requests i ∨ Gone (t.requests i)

lemma OnlyFinishes.view (h : OnlyFinishes s t) (rid : String) :
    ViewSteps async A (s.view rid) (t.view rid) := by
  unfold Scheduler.view inflightOf
  rw [h.1]
  rcases h.2 rid with hsame | hgone
  · rw [hsame]
  · exact .single (.finish _ _ _ _ hgone)

lemma OnlyFinishes.trans {s t u : Scheduler} (h : OnlyFinishes s t) (h' : OnlyFinishes t u) :
    OnlyFinishes s u := by
  refine ⟨h'.1.trans h.1, fun i => ?_⟩
  rcases h'.2 i with hsame | hgone
  · rw [hsame]
    exact h.2 i
  · exact .inr hgone

lemma finishRequests_spec {ids : List String} {status : RequestStatus}
    {delayFree : String → Bool} (he : s.finishRequests ids status delayFree = .ok t) :
    OnlyFinishes s t ∧ ∀ i ∈ ids, Gone (t.requests i) := by
  obtain ⟨_, hfin, he⟩ := of_bind he
  have hfin := pyAssert_eq_ok.mp hfin
  cases he
  obtain ⟨requests, hfold, hoth, hgone⟩ :=
    foldl_finishRequest hfin delayFree (ids.dedup.filter s.isUnfinished)
    { s with
      running := removeAll s.running ((ids.dedup.filter s.isUnfinished).filter s.isRunning)
      waiting := removeRequests s.waiting
        ((ids.dedup.filter s.isUnfinished).filter (!s.isRunning ·))
      skippedWaiting := removeRequests s.skippedWaiting
        ((ids.dedup.filter s.isUnfinished).filter (!s.isRunning ·)) }
  rw [hfold]
  refine ⟨⟨rfl, fun i => ?_⟩, fun i hids => ?_⟩ <;>
    by_cases hi : i ∈ ids.dedup.filter s.isUnfinished
  · exact .inr (hgone i hi)
  · exact .inl (hoth i hi)
  · exact hgone i hi
  · intro r hr
    have hr : s.requests i = some r := (hoth i hi).symm.trans hr
    simpa [hids, isUnfinished, hr] using hi

lemma finishSending_onlyFinishes (he : s.finishSending rid = .ok t) : OnlyFinishes s t := by
  unfold finishSending at he
  split at he
  · cases he
  obtain ⟨_, _, ⟨⟩⟩ := of_bind he
  refine ⟨rfl, fun i => ?_⟩
  rcases eq_or_ne i rid with rfl | hi
  · rw [delete_same]
    exact .inr nofun
  · exact .inl (delete_of_ne s hi)

lemma finishRecving_onlyFinishes (he : s.finishRecving rid = .ok t) : OnlyFinishes s t := by
  rcases finishRecving_eq s rid with hsame | hsame
  · cases hsame.symm.trans he
    exact ⟨rfl, fun _ => .inl rfl⟩
  · exact finishSending_onlyFinishes (hsame ▸ he)

/-- A request whose KV could not be loaded is finished with an error, or waits for the KV and has
tokens left to compute. -/
def FailsLoads (s : Scheduler) (call : UpdateCall) : Prop :=
  call.recomputeKvLoadFailures = true → call.syncFailed = [] ∧
    ∀ f ∈ call.asyncFailed, ∀ r, s.requests f.1 = some r →
      r.status = .waitingForRemoteKvs ∧ f.2 < r.numTokens

/-- No running request has to load KV again, and the outputs meet the assumption. -/
def GivesOutputs (A : Assumption) (async : Bool) (s : Scheduler) (call : UpdateCall) : Prop :=
  FailsLoads s call ∧ ∀ out inflight, s.inflight = out :: inflight →
    Machine.Along (updateRequest async call) (GivesOutput A call)
      { sched := call.handleInvalidBlocks { s with inflight } } out

lemma givesOutputs_single {step : ScheduledStep} {inflight : List SchedulerOutput}
    {o : RequestOutput}
    (hinflight : s.inflight = [(rid, step)] :: inflight) (hA : ∀ r, A.output r step o) :
    GivesOutputs A async s { outputs := fun _ => o } := by
  refine ⟨fun _ => ⟨rfl, nofun⟩, fun out rest h => ?_⟩
  obtain ⟨rfl, rfl⟩ := cons.inj (hinflight.symm.trans h)
  exact ⟨fun _ r _ _ => hA r, fun _ _ => trivial⟩

lemma foldl_truncateComputed (failed : List (String × ℤ)) (s : Scheduler) (rid : String) :
    let t := failed.foldl truncateComputed s
    t.inflight = s.inflight ∧ (t.requests rid = s.requests rid ∨ rid ∈ failed.map (·.1) ∧ ∃ r n,
      s.requests rid = some r ∧ t.requests rid = some { r with numComputedTokens := n }) := by
  induction failed generalizing s with
  | nil => exact ⟨rfl, .inl rfl⟩
  | cons f failed ih =>
    obtain ⟨hfl, hreq⟩ := ih (s.truncateComputed f)
    have hfirst : (s.truncateComputed f).inflight = s.inflight ∧
        ((s.truncateComputed f).requests rid = s.requests rid ∨ f.1 = rid ∧ ∃ r,
          s.requests rid = some r ∧ (s.truncateComputed f).requests rid =
            some { r with numComputedTokens := f.2 }) := by
      unfold truncateComputed
      split
      · exact ⟨rfl, .inl rfl⟩
      next r hr =>
        rcases eq_or_ne f.1 rid with rfl | hne
        · exact ⟨rfl, .inr ⟨rfl, r, hr, set_same ..⟩⟩
        · exact ⟨rfl, .inl (set_of_ne _ _ (Ne.symm hne))⟩
    refine ⟨hfl.trans hfirst.1, ?_⟩
    rcases hreq with hsame | ⟨hmem, r, n, hr, hn⟩
    · rcases hfirst.2 with hkept | ⟨hf, r, hr, hn⟩
      · exact .inl (hsame.trans hkept)
      · exact .inr ⟨by simp [hf], r, f.2, hr, hsame.trans hn⟩
    · refine .inr ⟨mem_cons_of_mem _ hmem, ?_⟩
      rcases hfirst.2 with hkept | ⟨-, r0, hr0, hn0⟩
      · exact ⟨r, n, hkept.symm.trans hr, hn⟩
      · obtain rfl := some.inj (hn0.symm.trans hr)
        exact ⟨r0, n, hr0, hn⟩

lemma handleInvalidBlocks_view {out : SchedulerOutput} {inflight : List SchedulerOutput}
    (h : FailsLoads s call) (hrid : rid ∉ call.failedIds)
    (hinflight : s.inflight = out :: inflight) :
    ViewSteps async A (s.view rid)
      (UpdateState.view { sched := call.handleInvalidBlocks { s with inflight } } out rid) := by
  obtain ⟨hfl, hreq⟩ :=
    foldl_truncateComputed (call.asyncFailed ++ call.syncFailed) { s with inflight } rid
  simp only [view, UpdateState.view, UpdateCall.handleInvalidBlocks, inflightOf, hfl, hinflight,
    flatMap_cons]
  rcases hreq with hsame | ⟨hmem, r, n, hr, hn⟩
  · rw [hsame]
  -- Only a request that waits for its KV is truncated and goes on.
  have hrecompute : call.recomputeKvLoadFailures = true := by
    by_contra hno
    exact hrid (by simpa [UpdateCall.failedIds, hno] using hmem)
  obtain ⟨hsync, hasync⟩ := h hrecompute
  rw [hsync, append_nil] at hmem
  obtain ⟨f, hf, rfl⟩ := mem_map.mp hmem
  have hr : s.requests f.1 = some r := hr
  rw [hn, hr]
  exact .single (.loadFailed r n _ _ (hasync f hf r hr).1)

/-- A request that is finished gets no further output. -/
lemma gone_view {r r' : Option SchedRequest} (hgone : Gone r') (steps fl : List ScheduledStep) :
    ViewSteps async A ⟨r, [], steps ++ fl⟩ ⟨r', [], fl⟩ := by
  refine .trans (.single (.finish r r' [] _ hgone)) ?_
  induction steps with
  | nil => exact .refl
  | cons step steps ih => exact .head (.lastOutput r' r' step _ hgone) ih

lemma updateFromOutput_view
    (hA : GivesOutputs A async s call) (he : s.updateFromOutput async call = .ok t) (rid : String) :
    t.inflight = s.inflight.tail ∧ ViewSteps async A (s.view rid) (t.view rid) := by
  unfold updateFromOutput at he
  split at he
  next hnil =>
    cases he
    rw [hnil]
    exact ⟨rfl, .refl⟩
  rename_i out inflight hinflight
  obtain ⟨u, hu, he⟩ := of_bind he
  obtain ⟨s1, hs1, he⟩ := of_bind he
  obtain ⟨s2, hs2, he⟩ := of_bind he
  have hloop : u.sched.inflight = inflight ∧
      (rid ∉ call.failedIds → ViewSteps async A (s.view rid) (u.view [] rid)) :=
    (hA.2 out inflight hinflight).invariant (P := fun todo (u : UpdateState) =>
        u.sched.inflight = inflight ∧
          (rid ∉ call.failedIds → ViewSteps async A (s.view rid) (u.view todo rid)))
      (fun _ _ _ _ h hok he => ⟨(updateRequest_inflight he).trans h.1,
        fun hrid => (h.2 hrid).trans (updateRequest_view hrid hok he)⟩) hu
      ⟨(foldl_truncateComputed _ _ rid).1, fun hrid => handleInvalidBlocks_view hA.1 hrid hinflight⟩
  have h1 : OnlyFinishes (removeStopped u) s1 ∧ ∀ i ∈ call.failedIds, Gone (s1.requests i) := by
    unfold UpdateCall.finishFailed at hs1
    split at hs1
    next hrecompute =>
      cases hs1
      refine ⟨⟨rfl, fun _ => .inl rfl⟩, ?_⟩
      simp [UpdateCall.failedIds, hrecompute, (hA.1 hrecompute).1]
    · exact finishRequests_spec hs1
  have h2 : OnlyFinishes s1 s2 :=
    Machine.foldlM_invariant (P := fun _ s => OnlyFinishes s1 s)
      (fun _ _ _ _ h he => h.trans (finishRecving_onlyFinishes he)) hs2 ⟨rfl, fun _ => .inl rfl⟩
  have h3 : OnlyFinishes s1 t :=
    Machine.foldlM_invariant (P := fun _ s => OnlyFinishes s1 s)
      (fun _ _ _ _ h he => h.trans (finishSending_onlyFinishes he)) he h2
  have hfl : t.inflight = inflight := (h1.1.trans h3).1.trans hloop.1
  refine ⟨by rw [hfl, hinflight]; rfl, ?_⟩
  by_cases hrid : rid ∈ call.failedIds
  · have hgone : Gone (t.requests rid) := by
      rcases h3.2 rid with hsame | hgone
      · rw [hsame]
        exact h1.2 rid hrid
      · exact hgone
    simp only [view, inflightOf, hfl, hinflight, flatMap_cons]
    exact gone_view hgone _ _
  · exact (hloop.2 hrid).trans ((h1.1.trans h3).view rid)

lemma set_view {r' : SchedRequest} (hreq : s.requests i = some r) (hr' : ViewSteps async A
    ⟨some r, [], s.inflightOf i⟩ ⟨some r', [], s.inflightOf i⟩) (rid : String) :
    ViewSteps async A (s.view rid) ((s.set i r').view rid) := by
  rcases eq_or_ne i rid with rfl | hi
  · simp only [view, hreq, set_same]
    exact hr'
  · simp only [view, set_of_ne _ _ (Ne.symm hi)]
    exact .refl

lemma updateDraftTokenIds_view (s : Scheduler) (d : String × ℕ) (rid : String) :
    ViewSteps async A (s.view rid) ((s.updateDraftTokenIds d).view rid) := by
  unfold updateDraftTokenIds
  split
  · exact .refl
  rename_i r hreq
  split
  · exact .refl
  · exact set_view hreq (.single (.drafts r _ _ _)) rid

lemma addRequest_view {new : NewRequest}
    (hnew : s.requests i = none → s.inflightOf i = []) (he : s.addRequest i new = .ok t)
    (rid : String) : t.inflight = s.inflight ∧ ViewSteps async A (s.view rid) (t.view rid) := by
  unfold addRequest at he
  split at he
  next hnone =>
    cases he
    refine ⟨enqueueWaiting_inflight s i _, ?_⟩
    rcases eq_or_ne i rid with rfl | hi
    · have hfl : ((s.enqueueWaiting i new.toRequest.status).set i new.toRequest).inflightOf i =
        [] := by
        rw [← hnew hnone]
        exact congrArg (·.flatMap (stepsOf · i)) (enqueueWaiting_inflight s i _)
      simp only [view, hnone, set_same, hnew hnone, hfl]
      exact .single (.add new)
    have hfl : ((s.enqueueWaiting i new.toRequest.status).set i new.toRequest).inflightOf rid =
        s.inflightOf rid := congrArg (·.flatMap (stepsOf · rid)) (enqueueWaiting_inflight s i _)
    simp only [view, set_of_ne _ _ (Ne.symm hi), enqueueWaiting_requests, hfl]
    exact .refl
  rename_i existing hreq
  split at he
  · split at he
    · cases he
    cases he
    exact ⟨rfl, set_view hreq (.single (.queueInput existing _ _ _)) rid⟩
  rename_i hst
  split at he
  · cases he
    exact ⟨rfl, set_view hreq (.single (.session existing _ _ _ (not_not.mp hst))) rid⟩
  · exact ⟨((finishRequests_spec he).1).1, ((finishRequests_spec he).1).view rid⟩

lemma forcePreempt_view (hfl : s.inflight = []) (he : s.forcePreempt i = .ok t) :
    t.inflight = [] ∧ ∀ rid, ViewSteps async A (s.view rid) (t.view rid) := by
  obtain ⟨u, hu, he⟩ := of_bind he
  unfold preemptRequest at hu
  split at hu
  next hnone =>
    cases hu
    cases he
    rw [hnone]
    exact ⟨hfl, fun _ => .refl⟩
  rename_i r hreq
  obtain ⟨_, hst, hu⟩ := of_bind hu
  have hst := of_pyAssert hst
  cases hu
  cases he
  simp only [set_same]
  refine ⟨hfl, fun rid => ?_⟩
  rcases eq_or_ne i rid with rfl | hi
  · simp only [view, hreq, inflightOf, set, hfl, flatMap_nil]
    simp only [Function.update_self]
    exact .single (.reset r hst)
  · simp only [view, set_of_ne _ _ (Ne.symm hi)]
    exact .refl

lemma resetPrefixCache_view {resetRunning success : Bool}
    (hfl : resetRunning = true → s.inflight = [])
    (he : s.resetPrefixCache resetRunning success = .ok t) (rid : String) :
    t.inflight = s.inflight ∧ ViewSteps async A (s.view rid) (t.view rid) := by
  unfold resetPrefixCache at he
  split at he
  next hreset =>
    obtain ⟨u, hu, he⟩ := of_bind he
    have hloop : u.inflight = [] ∧ ViewSteps async A (s.view rid) (u.view rid) :=
      Machine.foldlM_invariant
        (P := fun _ u => u.inflight = [] ∧ ViewSteps async A (s.view rid) (u.view rid))
        (fun _ _ _ _ h he => by
          obtain ⟨hfl, hview⟩ := forcePreempt_view h.1 he
          exact ⟨hfl, h.2.trans (hview rid)⟩) hu ⟨hfl hreset, .refl⟩
    split at he
    · cases he
      exact ⟨hloop.1.trans (hfl hreset).symm, hloop.2⟩
    · cases he
  · cases he
    exact ⟨rfl, .refl⟩

/-- A call meets the assumption. A new id is in no step in flight, and running requests are reset
only when no step is in flight. -/
def Meets (A : Assumption) (async : Bool) (s : Scheduler) : Call → Prop
  | .addRequest rid _ => s.requests rid = none → s.inflightOf rid = []
  | .schedule call => AllocatesSchedule A s call
  | .updateFromOutput call => GivesOutputs A async s call
  | .resetPrefixCache resetRunningRequests _ => resetRunningRequests = true → s.inflight = []
  | _ => True

lemma step_view {call : Call} (hA : Meets A async s call) (he : s.step async call = .ok t)
    (rid : String) :
    ViewSteps async A (s.view rid) (t.view rid) := by
  cases call with
  | addRequest i new => exact (addRequest_view hA he rid).2
  | schedule call => exact schedule_view hA he rid
  | updateFromOutput call => exact (updateFromOutput_view hA he rid).2
  | updateDraftTokenIds drafts =>
    cases he
    induction drafts generalizing s with
    | nil => exact .refl
    | cons d drafts ih => exact (updateDraftTokenIds_view s d rid).trans (ih trivial)
  | finishRequests ids status delayFree => exact ((finishRequests_spec he).1).view rid
  | resetPrefixCache resetRunning success => exact (resetPrefixCache_view hA he rid).2

variable {calls : List Call}

/-- Every run is, for each request, a sequence of view steps. -/
lemma view_run (hrun : Machine.Run (step async) (Meets A async) s calls t) (rid : String) :
    ViewSteps async A (s.view rid) (t.view rid) := by
  induction hrun with
  | nil s => exact .refl
  | cons hok he _ ih => exact (step_view hok he rid).trans ih

/-- What every view step preserves holds for every request in every state that a run reaches. -/
lemma view_invariant {I : RequestView → Prop} (hstep : ∀ v w, ViewStep async A v w → I v → I w)
    (hinit : I ⟨none, [], []⟩)
    (hrun : Machine.Run (step async) (Meets A async) {} calls s) (rid : String) :
    I (s.view rid) := by
  have h := view_run hrun rid
  generalize s.view rid = v at h
  induction h with
  | refl => exact hinit
  | tail _ he ih => exact hstep _ _ he ih

end Scheduler

end Vllm
