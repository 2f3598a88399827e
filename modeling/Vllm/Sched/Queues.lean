import Vllm.Sched.Scheduler
import Vllm.Lib.Run

/-! # The queues of the scheduler -/

namespace Vllm

open List SchedRequest

/-- The status of a request in a waiting queue. -/
def RequestStatus.waits (status : RequestStatus) : Bool := status ≠ .running && !status.isFinished

variable {status : RequestStatus}

lemma RequestStatus.not_running_of_waits (h : status.waits) : status ≠ .running := by
  rintro rfl
  cases h

lemma RequestStatus.unfinished_of_waits (h : status.waits) : ¬ status.isFinished := by
  cases status <;> simp_all [waits, isFinished]

namespace Scheduler

/-! ## Where a request belongs -/

variable (r : Option SchedRequest)

/-- How often a request belongs into `running`. -/
def inRunning : ℕ := if r.any (·.status = .running) then 1 else 0

/-- How often it belongs into the waiting queues. -/
def inWaiting : ℕ := if r.any (·.status.waits) then 1 else 0

def waitingCount (s : Scheduler) (aside : List String) (rid : String) : ℕ :=
  s.waiting.count rid + s.skippedWaiting.count rid + aside.count rid

/-- Every request is in the queue of its status, except that a loop may have taken `popped` out of
`running` and `aside` out of a waiting queue. -/
structure Queued (s : Scheduler) (popped aside : List String) : Prop where
  running : ∀ rid, s.running.count rid + popped.count rid = inRunning (s.requests rid)
  waiting : ∀ rid, s.waitingCount aside rid = inWaiting (s.requests rid)

@[simp] lemma inRunning_none : inRunning none = 0 := rfl

@[simp] lemma inWaiting_none : inWaiting none = 0 := rfl

@[simp] lemma inRunning_some (r : SchedRequest) :
    inRunning (some r) = if r.status = .running then 1 else 0 := by
  simp [inRunning]

@[simp] lemma inWaiting_some (r : SchedRequest) :
    inWaiting (some r) = if r.status.waits then 1 else 0 := by
  simp [inWaiting]

lemma inRunning_of_waits {r : SchedRequest} (h : r.status.waits) : inRunning (some r) = 0 := by
  rw [inRunning_some, if_neg]
  intro e
  simp [e, RequestStatus.waits] at h

/-- The request is finished or no longer known. -/
def Gone : Prop := ∀ r', r = some r' → r'.status.isFinished

variable {r : Option SchedRequest}

lemma Gone.inRunning (h : Gone r) : inRunning r = 0 := by
  cases r with
  | none => rfl
  | some r =>
    have hr := h r rfl
    rw [inRunning_some, if_neg]
    intro e
    simp [e, RequestStatus.isFinished] at hr

lemma Gone.inWaiting (h : Gone r) : inWaiting r = 0 := by
  cases r with
  | none => rfl
  | some r => simp [RequestStatus.waits, h r rfl]

lemma freeRequest_eq {r : SchedRequest} (hr : r.status.isFinished) (s : Scheduler) (rid : String)
    (delayFree : Bool) :
    ∃ requests, s.freeRequest rid r delayFree = { s with requests } ∧
      (∀ i, i ≠ rid → requests i = s.requests i) ∧ Gone (requests rid) := by
  unfold freeRequest
  split
  · refine ⟨_, rfl, fun i hi => set_of_ne s r hi, fun r' hr' => ?_⟩
    obtain rfl := Option.some.inj ((set_same s rid r).symm.trans hr')
    exact hr
  · refine ⟨_, rfl, fun i hi => delete_of_ne s hi, fun r' hr' => ?_⟩
    cases (delete_same s rid).symm.trans hr'

namespace Queued

variable {s t : Scheduler} {popped aside popped' aside' : List String} {rid : String}
  {r r' : SchedRequest}

section

variable (h : s.Queued popped aside)
include h

/-- A change to one request only. -/
lemma move (rid : String) (hreq : ∀ i, i ≠ rid → t.requests i = s.requests i)
    (hrun : ∀ i, i ≠ rid → t.running.count i + popped'.count i = s.running.count i + popped.count i)
    (hwait : ∀ i, i ≠ rid → t.waitingCount aside' i = s.waitingCount aside i)
    (hr : t.running.count rid + popped'.count rid = inRunning (t.requests rid))
    (hw : t.waitingCount aside' rid = inWaiting (t.requests rid)) : t.Queued popped' aside' := by
  refine ⟨fun i => ?_, fun i => ?_⟩
  · by_cases hi : i = rid
    · exact hi ▸ hr
    · rw [hreq i hi, hrun i hi, h.running i]
  by_cases hi : i = rid
  · exact hi ▸ hw
  · rw [hreq i hi, hwait i hi, h.waiting i]

variable {r : SchedRequest}

lemma set (hr : inRunning (some r) = inRunning (s.requests rid))
    (hw : inWaiting (some r) = inWaiting (s.requests rid)) : (s.set rid r).Queued popped aside := by
  refine h.move rid (fun i hi => set_of_ne s r hi) (fun _ _ => rfl) (fun _ _ => rfl) ?_ ?_
  · rw [set_same, hr]
    exact h.running rid
  · rw [set_same, hw]
    exact h.waiting rid

variable (hreq : s.requests rid = some r)
include hreq

lemma set_status
    (hst : r'.status = r.status) : (s.set rid r').Queued popped aside := by
  refine h.set ?_ ?_
  · rw [hreq, inRunning_some, inRunning_some, hst]
  · rw [hreq, inWaiting_some, inWaiting_some, hst]

lemma set_waits
    (hr : r.status.waits) (hr' : r'.status.waits) : (s.set rid r').Queued popped aside := by
  refine h.set ?_ ?_
  · rw [hreq, inRunning_of_waits hr, inRunning_of_waits hr']
  · rw [hreq, inWaiting_some, inWaiting_some, if_pos hr, if_pos hr']

omit hreq

lemma count_running_le_one (i : String) : s.running.count i ≤ 1 := by
  have hr := h.running i
  unfold inRunning at hr
  split at hr <;> omega

include hreq in
lemma waits_of_mem
    (hmem : rid ∈ s.skippedWaiting ∨ rid ∈ s.waiting) : r.status.waits := by
  have hw := h.waiting rid
  rw [hreq, inWaiting_some, waitingCount] at hw
  by_contra hne
  rw [if_neg hne] at hw
  rcases hmem with hmem | hmem
  · have := count_pos_iff.mpr hmem
    omega
  · have := count_pos_iff.mpr hmem
    omega

lemma popWaiting (hmem : rid ∈ s.skippedWaiting ∨ rid ∈ s.waiting) :
    (s.popWaiting rid).Queued popped (rid :: aside) := by
  have key : ∀ i, (s.popWaiting rid).waitingCount (rid :: aside) i = s.waitingCount aside i := by
    intro i
    simp only [Scheduler.popWaiting, waitingCount]
    split
    next hsk =>
      rw [(perm_cons_erase hsk).count_eq i, count_cons, count_cons]
      dsimp only
      omega
    rename_i hsk
    rw [(perm_cons_erase (hmem.resolve_left hsk)).count_eq i, count_cons, count_cons]
    dsimp only
    omega
  have hreq : (s.popWaiting rid).requests = s.requests := by
    unfold Scheduler.popWaiting
    split <;> rfl
  have hrun : (s.popWaiting rid).running = s.running := by
    unfold Scheduler.popWaiting
    split <;> rfl
  exact ⟨fun i => by rw [hreq, hrun, h.running], fun i => by rw [key, hreq, h.waiting]⟩

end

lemma preemptRequest (h : s.Queued (rid :: popped) aside) (he : s.preemptRequest rid = .ok t) :
    t.Queued popped aside := by
  unfold Scheduler.preemptRequest at he
  split at he
  next hnone =>
    have hr := h.running rid
    rw [hnone, count_cons_self, inRunning_none] at hr
    omega
  rename_i r hreq
  obtain ⟨_, hst, he⟩ := of_bind he
  have hst := of_pyAssert hst
  cases he
  have hr := h.running rid
  have hw := h.waiting rid
  rw [hreq, count_cons_self, inRunning_some, if_pos hst] at hr
  rw [hreq, inWaiting_some, hst] at hw
  refine h.move rid (fun i hi => set_of_ne s _ hi) (fun i hi => ?_) (fun i hi => ?_) ?_ ?_
  · rw [count_cons_of_ne (Ne.symm hi)]
    rfl
  · simp [waitingCount, count_cons_of_ne (Ne.symm hi), Scheduler.set]
  · simp only [set_same, inRunning_some, preempt]
    show s.running.count rid + popped.count rid = 0
    omega
  simp only [set_same, inWaiting_some, preempt]
  simp only [waitingCount, count_cons_self, Scheduler.set] at hw ⊢
  simp [RequestStatus.waits, RequestStatus.isFinished] at hw ⊢
  omega

lemma start (h : s.Queued popped (rid :: aside))
    (hreq : s.requests rid = some r) (hr : r.status.waits) (hr' : r'.status = .running) :
    ({ s with running := s.running ++ [rid] }.set rid r').Queued popped aside := by
  have hrun := h.running rid
  have hw := h.waiting rid
  rw [hreq, inRunning_of_waits hr] at hrun
  rw [hreq, inWaiting_some, if_pos hr, waitingCount, count_cons_self] at hw
  refine h.move rid (fun i hi => set_of_ne _ _ hi) (fun i hi => ?_) (fun i hi => ?_) ?_ ?_
  · simp [Scheduler.set, List.count_append, Ne.symm hi]
  · simp [waitingCount, Scheduler.set, List.count_cons_of_ne (Ne.symm hi)]
  · simp only [set_same, inRunning_some, if_pos hr']
    simp only [Scheduler.set, List.count_append, List.count_singleton_self]
    omega
  simp only [set_same, inWaiting_some, hr']
  simp only [waitingCount, Scheduler.set]
  simp [RequestStatus.waits]
  omega

end Queued

variable {rid : String} {st st' : ScheduleState}

/-! ## `schedule` -/

def ScheduleState.Queued (st : ScheduleState) : Prop := st.sched.Queued [] st.stepSkippedWaiting

variable {popped aside : List String}

lemma mem_running_queued {s : Scheduler} (h : s.Queued popped aside) (hmem : rid ∈ s.running) :
    ({ s with running := s.running.erase rid } : Scheduler).Queued (rid :: popped) aside := by
  refine ⟨fun i => ?_, h.waiting⟩
  rw [← h.running i]
  rw [(perm_cons_erase hmem).count_eq i, count_cons, count_cons]
  dsimp only
  omega

lemma queued_runningStep {d : RunDecision} (h : st.Queued) (he : runningStep st rid d = .ok st') :
    st'.Queued := by
  cases d with
  | run limit =>
    simp only [runningStep] at he
    split at he
    · split at he
      · cases he
        exact h
      rename_i step r hr
      cases he
      obtain ⟨r0, hreq, hr⟩ := Option.bind_eq_some_iff.mp hr
      obtain ⟨_, _, _, _, rfl⟩ := scheduleRunning_eq_some hr
      exact Queued.set_status h hreq rfl
    · cases he
      exact h
  | preempt =>
    simp only [runningStep] at he
    split at he
    next hmem =>
      obtain ⟨sched, hp, ⟨⟩⟩ := of_bind he
      exact (mem_running_queued h hmem).preemptRequest hp
    · cases he
      exact h

lemma queued_skipWaiting {st : ScheduleState} (h : st.Queued)
    (hmem : rid ∈ st.sched.skippedWaiting ∨ rid ∈ st.sched.waiting) : (skipWaiting st rid).Queued :=
  Queued.popWaiting h hmem

lemma tryPromote_waits {r r' : SchedRequest} {ready : Bool} (hr : r.status.waits)
    (h : r.tryPromote ready = .ok (some r')) : r'.status.waits := by
  unfold tryPromote at h
  split at h
  · split at h
    · cases h
      split <;> rfl
    · cases h
  · cases ready <;> cases h
    rfl
  · obtain ⟨_, _, ⟨⟩⟩ := of_bind h
  · cases h
    exact hr

variable {r0 r : SchedRequest}

lemma queued_startWaiting
    {numComputedTokens limit : ℕ} (h : st.Queued) (hreq : st.sched.requests rid = some r0)
    (hr0 : r0.status.waits) (hmem : rid ∈ st.sched.skippedWaiting ∨ rid ∈ st.sched.waiting)
    (he : startWaiting st rid r numComputedTokens limit = .ok st') : st'.Queued := by
  obtain ⟨_, _, he⟩ := of_bind he
  obtain ⟨_, _, he⟩ := of_bind he
  split at he
  · cases he
    have hpop : (st.sched.popWaiting rid).requests rid = some r0 := by
      rw [← hreq]
      unfold popWaiting
      split <;> rfl
    exact (Queued.popWaiting h hmem).start hpop hr0 rfl
  · cases he

lemma queued_waitingAction {action : WaitAction} (h : st.Queued)
    (hreq : st.sched.requests rid = some r0) (hr0 : r0.status.waits) (hr : r.status.waits)
    (hmem : rid ∈ st.sched.skippedWaiting ∨ rid ∈ st.sched.waiting)
    (he : waitingAction st rid r action = .ok st') : st'.Queued := by
  cases action with
  | skip =>
    cases he
    exact Queued.popWaiting (Queued.set_waits h hreq hr0 hr) hmem
  | leave allocated =>
    cases he
    refine Queued.set_waits h hreq hr0 ?_
    split <;> exact hr
  | loadAsync numComputedTokens =>
    simp only [waitingAction] at he
    split at he
    · obtain ⟨_, _, ⟨⟩⟩ := of_bind he
      exact Queued.popWaiting (Queued.set_waits h hreq hr0 rfl) hmem
    · cases he
      exact Queued.set_waits h hreq hr0 hr
  | start numComputedTokens limit => exact queued_startWaiting h hreq hr0 hmem he

lemma queued_waitingStep {d : WaitDecision} (h : st.Queued) (he : waitingStep st rid d = .ok st') :
    st'.Queued := by
  unfold waitingStep at he
  split at he
  next hmem =>
    split at he
    · cases he
      exact h
    rename_i r hreq
    have hr := Queued.waits_of_mem h hreq hmem
    obtain ⟨promoted, hp, he⟩ := of_bind he
    cases promoted with
    | none =>
      cases he
      exact queued_skipWaiting h hmem
    | some r' => exact queued_waitingAction h hreq hr (tryPromote_waits hr hp) hmem he
  · cases he
    exact h

lemma updateAfterSchedule_status (async : Bool) (numSpec : ℕ) (r : SchedRequest)
    (step : ScheduledStep) : (r.updateAfterSchedule async numSpec step).1.status = r.status := by
  simp only [SchedRequest.updateAfterSchedule]
  split <;> rfl

lemma queued_updateAfterSchedule (async : Bool) (numSpec : ℕ) {aside : List String}
    (out : SchedulerOutput) {s : Scheduler} (h : s.Queued [] aside) :
    (updateAfterSchedule async numSpec out s).1.Queued [] aside := by
  induction out generalizing s with
  | nil => exact h
  | cons e out ih =>
    simp only [updateAfterSchedule]
    split
    · exact ih h
    next r hreq => exact ih (h.set_status hreq (updateAfterSchedule_status _ _ _ _))

lemma queued_schedule {async : Bool} {call : ScheduleCall} {s t : Scheduler} (h : s.Queued [] [])
    (he : s.schedule async call = .ok t) : t.Queued [] [] := by
  obtain ⟨st, hrun, he⟩ := of_bind he
  obtain ⟨st', hwait, ⟨⟩⟩ := of_bind he
  have h1 : st.Queued := Machine.foldlM_invariant (P := fun _ st => ScheduleState.Queued st)
    (fun _ _ _ _ h he => queued_runningStep h he) hrun h
  have h2 : st'.Queued := Machine.foldlM_invariant (P := fun _ st => ScheduleState.Queued st)
    (fun _ _ _ _ h he => queued_waitingStep h he) hwait h1
  have h3 : ({ st'.sched with
      skippedWaiting := st'.stepSkippedWaiting ++ st'.sched.skippedWaiting } : Scheduler).Queued
      [] [] := by
    refine ⟨h2.running, fun i => ?_⟩
    rw [← h2.waiting i]
    simp only [waitingCount, count_append, count_nil]
    omega
  have h4 := queued_updateAfterSchedule async call.numSpecTokens st'.scheduled h3
  exact ⟨h4.running, h4.waiting⟩

/-! ## `finish_requests`, `add_request` and `reset_prefix_cache` -/

lemma count_removeRequests (queue items : List String) (i : String) :
    (removeRequests queue items).count i = if i ∈ items then 0 else queue.count i := by
  split
  next hi => exact count_eq_zero.mpr fun h => by simpa [hi] using of_mem_filter h
  next hi => exact count_filter (by simpa using hi)

lemma count_removeAll {lst : List String} {i : String} (h : lst.count i ≤ 1) (items : List String) :
    (removeAll lst items).count i = if i ∈ items then 0 else lst.count i := by
  unfold removeAll
  split
  · simp
  next item =>
    rcases eq_or_ne i item with rfl | hi
    · simp only [count_erase_self, mem_singleton, if_true]
      omega
    · simp [count_erase_of_ne hi, hi]
  · exact count_removeRequests lst items i

section finish

variable {status : RequestStatus} (hstat : status.isFinished) (delayFree : String → Bool)
include hstat

lemma finishRequest_eq (s : Scheduler) (rid : String) :
    ∃ requests, finishRequest status delayFree s rid = { s with requests } ∧
      (∀ i, i ≠ rid → requests i = s.requests i) ∧ Gone (requests rid) := by
  unfold finishRequest
  split
  next hnone =>
    refine ⟨s.requests, rfl, fun _ _ => rfl, fun r hr => ?_⟩
    rw [hnone] at hr
    cases hr
  next r hreq => exact freeRequest_eq hstat s rid (delayFree rid)

lemma foldl_finishRequest (ids : List String) (s : Scheduler) :
    ∃ requests, ids.foldl (finishRequest status delayFree) s = { s with requests } ∧
      (∀ i, i ∉ ids → requests i = s.requests i) ∧ ∀ i ∈ ids, Gone (requests i) := by
  induction ids generalizing s with
  | nil => exact ⟨s.requests, rfl, fun _ _ => rfl, fun _ h => by cases h⟩
  | cons rid ids ih =>
    obtain ⟨mid, hmid, hoth, hdone⟩ := finishRequest_eq hstat delayFree s rid
    obtain ⟨fin, hfin, hoth', hdone'⟩ := ih { s with requests := mid }
    refine ⟨fin, by rw [foldl_cons, hmid, hfin], fun i hi => ?_, fun i hi => ?_⟩
    · rw [mem_cons, not_or] at hi
      exact (hoth' i hi.2).trans (hoth i hi.1)
    by_cases hids : i ∈ ids
    · exact hdone' i hids
    obtain rfl := (mem_cons.mp hi).resolve_right hids
    rw [hoth' i hids]
    exact hdone

end finish

variable {s t : Scheduler} {rid : String}

lemma queued_finishRequests {ids : List String} {status : RequestStatus}
    {delayFree : String → Bool} (h : s.Queued [] [])
    (he : s.finishRequests ids status delayFree = .ok t) : t.Queued [] [] := by
  obtain ⟨_, hfin, he⟩ := of_bind he
  have hfin := pyAssert_eq_ok.mp hfin
  cases he
  generalize hv : ids.dedup.filter s.isUnfinished = valid
  obtain ⟨requests, hfold, hoth, hgone⟩ := foldl_finishRequest hfin delayFree valid
    { s with
      running := removeAll s.running (valid.filter s.isRunning)
      waiting := removeRequests s.waiting (valid.filter (!s.isRunning ·))
      skippedWaiting := removeRequests s.skippedWaiting (valid.filter (!s.isRunning ·)) }
  rw [hfold]
  have hrun (i : String) : s.running.count i = if s.isRunning i then 1 else 0 := h.running i
  refine ⟨fun i => ?_, fun i => ?_⟩
  · show (removeAll s.running _).count i + 0 = inRunning (requests i)
    rw [count_removeAll (h.count_running_le_one i)]
    by_cases hi : i ∈ valid
    · rw [(hgone i hi).inRunning, hrun]
      by_cases hri : s.isRunning i <;> simp [hri, hi]
    · rw [hoth i hi, ← h.running i, if_neg (fun hm => hi (mem_of_mem_filter hm))]
      rfl
  have hw := h.waiting i
  simp only [waitingCount, count_nil, Nat.add_zero] at hw ⊢
  rw [count_removeRequests, count_removeRequests]
  by_cases hi : i ∈ valid
  · rw [(hgone i hi).inWaiting]
    by_cases hri : s.isRunning i
    · -- A running request is in no waiting queue.
      have hzero : inWaiting (s.requests i) = 0 := by
        unfold isRunning at hri
        cases hreq : s.requests i with
        | none => rfl
        | some r =>
          rw [hreq] at hri
          have hst : r.status = .running := by simpa using hri
          simp [hst, RequestStatus.waits]
      simp only [mem_filter, hri, Bool.not_true, Bool.false_eq_true, and_false, if_false]
      omega
    · simp [hri, hi]
  · rw [hoth i hi, if_neg (fun hm => hi (mem_of_mem_filter hm)),
      if_neg (fun hm => hi (mem_of_mem_filter hm)), hw]

lemma Queued.enqueue {s : Scheduler} {r : SchedRequest}
    (h : s.Queued popped aside) (hrun : inRunning (s.requests rid) = 0)
    (hwait : inWaiting (s.requests rid) = 0) (hr : r.status.waits) :
    ((s.enqueueWaiting rid r.status).set rid r).Queued popped aside := by
  have h1 := h.running rid
  have h2 := h.waiting rid
  rw [hrun] at h1
  rw [hwait] at h2
  have hq : (s.enqueueWaiting rid r.status).requests = s.requests ∧
      (s.enqueueWaiting rid r.status).running = s.running ∧
      ∀ i, (s.enqueueWaiting rid r.status).waitingCount aside i = s.waitingCount aside i +
        [rid].count i := by
    unfold enqueueWaiting
    split
    · refine ⟨rfl, rfl, fun i => ?_⟩
      simp only [waitingCount, count_append]
      omega
    refine ⟨rfl, rfl, fun i => ?_⟩
    simp only [waitingCount, count_append]
    omega
  refine h.move rid (fun i hi => by rw [set_of_ne _ _ hi, hq.1]) (fun i hi => ?_)
    (fun i hi => ?_) ?_ ?_
  · exact congrArg (·.count i + popped.count i) hq.2.1
  · exact (hq.2.2 i).trans (by simp [Ne.symm hi])
  · rw [set_same, inRunning_of_waits hr, ← h1]
    exact congrArg (·.count rid + popped.count rid) hq.2.1
  · rw [set_same, inWaiting_some, if_pos hr]
    exact (hq.2.2 rid).trans (by rw [h2, count_singleton_self])

lemma queued_addRequest {new : NewRequest} (h : s.Queued [] [])
    (he : s.addRequest rid new = .ok t) : t.Queued [] [] := by
  unfold addRequest at he
  split at he
  next hnone =>
    cases he
    refine h.enqueue (by rw [hnone]; rfl) (by rw [hnone]; rfl) ?_
    unfold NewRequest.toRequest
    cases new.waitsForGrammar <;> rfl
  rename_i existing hreq
  split at he
  · split at he
    · cases he
    cases he
    exact h.set_status hreq rfl
  rename_i hst
  have hst : existing.status = .waitingForStreamingReq := not_not.mp hst
  split at he
  · cases he
    exact h.set_waits hreq (by rw [hst]; rfl) rfl
  · exact queued_finishRequests h he

lemma queued_forcePreempt {popped : List String}
    (h : s.Queued (rid :: popped) []) (he : s.forcePreempt rid = .ok t) : t.Queued popped [] := by
  obtain ⟨u, hu, he⟩ := of_bind he
  have hq := h.preemptRequest hu
  cases he
  split
  · exact hq
  next r hreq => exact hq.set_status hreq rfl

lemma queued_resetPrefixCache {resetRunning success : Bool}
    (h : s.Queued [] []) (he : s.resetPrefixCache resetRunning success = .ok t) :
    t.Queued [] [] := by
  unfold resetPrefixCache at he
  split at he
  · obtain ⟨u, hu, he⟩ := of_bind he
    have hall : ({ s with running := [] } : Scheduler).Queued s.running.reverse [] := by
      refine ⟨fun i => ?_, h.waiting⟩
      rw [← h.running i]
      simp
    have hq : u.Queued [] [] := Machine.foldlM_invariant (P := fun popped s => s.Queued popped [])
      (fun _ _ _ _ h he => queued_forcePreempt h he) hu hall
    split at he
    · cases he
      exact hq
    · cases he
  · cases he
    exact h

end Scheduler

end Vllm
