import Vllm.Sched.Queues

/-!
# Stopped requests and the queues

`update_from_output` takes a stopped request that was not `RUNNING` out of `waiting` only; it may be
in `skipped_waiting`, and `_handle_stopped_request` puts a session with further input back into
`waiting` before.
-/

namespace Vllm

open List

def RequestOutput.mayStop (o : RequestOutput) : Bool :=
  o.stopAfter.isSome || o.pooled || o.grammarRejects

/-- After a stop by `o` the request does not go on at once: it is no session, has no further input
in its queue, or the grammar has rejected the tokens. -/
def SchedRequest.restsAfter (r : SchedRequest) (o : RequestOutput) : Bool :=
  !r.resumable || (r.streamingQueue.getD []).head?.join = none ||
    (o.grammarRejects && 0 < o.numGenerated)

/-- `_handle_stopped_request` has ended the request or made it wait for input. -/
def SchedRequest.Rests (r : SchedRequest) : Prop :=
  r.handleStopped.2 = true ∨ r.handleStopped.1.status = .waitingForStreamingReq

namespace SchedRequest

variable {async : Bool} {o : RequestOutput} {r r' : SchedRequest}

lemma checkStop_spec {k : ℕ} {stopped : Bool} (h : r.checkStop async o = .ok (r', k, stopped)) :
    r'.resumable = r.resumable ∧ r'.streamingQueue = r.streamingQueue ∧
    (stopped = false → r'.status = r.status) ∧
      (stopped = true → r'.status.isFinished ∧ (o.stopAfter.isSome ∨ o.pooled) ∧
        (0 < o.numGenerated → 0 < k)) := by
  have base (r0 : SchedRequest) : let u := r0.updateWithOutput o
      u.1.resumable = r0.resumable ∧ u.1.streamingQueue = r0.streamingQueue ∧
        (u.2.2 = false → u.1.status = r0.status) ∧
      (u.2.2 = true → u.1.status.isFinished ∧ o.stopAfter.isSome ∧ 0 < u.2.1) := by
    unfold updateWithOutput RequestOutput.kept
    cases hs : o.stopAfter with
    | none => simp
    | some stop =>
      obtain ⟨k, reason⟩ := stop
      by_cases hk : 1 ≤ k ∧ k ≤ o.numGenerated
      · cases reason <;> simp [hk, StopReason.status, RequestStatus.isFinished] <;> omega
      · simp [hk]
  unfold checkStop at h
  split at h
  next hgen =>
    split at h
    · unfold asyncUpdateWithOutput at h
      split at h
      · cases h
        simp
      obtain ⟨_, _, ⟨⟩⟩ := of_bind h
      obtain ⟨h1, h2, h3, h4⟩ := base r
      exact ⟨h1, h2, h3, fun hs => ⟨(h4 hs).1, .inl (h4 hs).2.1, fun _ => (h4 hs).2.2⟩⟩
    obtain ⟨h1, h2, h3, h4⟩ := base r
    rw [Except.ok.inj h] at h1 h2 h3 h4
    exact ⟨h1, h2, h3, fun hs => ⟨(h4 hs).1, .inl (h4 hs).2.1, fun _ => (h4 hs).2.2⟩⟩
  rename_i hgen
  split at h
  next hp =>
    cases h
    exact ⟨rfl, rfl, by simp, fun _ => ⟨rfl, .inr hp, fun hg => absurd hg hgen⟩⟩
  · cases h
    exact ⟨rfl, rfl, fun _ => rfl, fun hs => by cases hs⟩

lemma rejectDrafts_same (step : ScheduledStep) (o : RequestOutput) (r : SchedRequest) :
    (r.rejectDrafts step o).status = r.status ∧ (r.rejectDrafts step o).resumable = r.resumable ∧
      (r.rejectDrafts step o).streamingQueue = r.streamingQueue := by
  unfold rejectDrafts
  split <;> exact ⟨rfl, rfl, rfl⟩

variable {step : ScheduledStep}

lemma applyOutput_continues (h : r.applyOutput async step o = .ok (r', false)) :
    r'.status = r.status := by
  obtain ⟨⟨r1, k, stopped⟩, hc, h⟩ := of_bind h
  obtain ⟨_, _, hgo, _⟩ := checkStop_spec hc
  dsimp only at h
  split at h
  · cases h
  cases h
  exact (hgo rfl).trans (rejectDrafts_same step o r).1

lemma applyOutput_stops (h : r.applyOutput async step o = .ok (r', true)) :
    r'.status.isFinished ∧ o.mayStop ∧ (r.restsAfter o → r'.Rests) := by
  obtain ⟨⟨r1, k, stopped⟩, hc, h⟩ := of_bind h
  obtain ⟨hres, hqueue, _, hstop⟩ := checkStop_spec hc
  obtain ⟨_, hres0, hqueue0⟩ := rejectDrafts_same step o r
  dsimp only at h
  split at h
  next hg =>
    cases h
    exact ⟨rfl, by simp [RequestOutput.mayStop, hg.2], fun _ => .inl rfl⟩
  rename_i hg
  cases h
  obtain ⟨hfin, hmay, hk⟩ := hstop rfl
  refine ⟨hfin, ?_, fun hrests => ?_⟩
  · rcases hmay with hmay | hmay <;> simp [RequestOutput.mayStop, hmay]
  rw [hres0] at hres
  rw [hqueue0] at hqueue
  simp only [restsAfter, Bool.or_eq_true, Bool.not_eq_true', Bool.and_eq_true, decide_eq_true_eq]
    at hrests
  rcases hrests with (hrests | hrests) | hrests
  · exact .inl (by simp [handleStopped, hres, hrests])
  · unfold Rests handleStopped
    split
    · exact .inl rfl
    rw [hqueue]
    cases hq : r.streamingQueue with
    | none => exact .inr rfl
    | some queue =>
      cases queue with
      | nil => exact .inr rfl
      | cons first rest =>
        obtain rfl : first = none := by simpa [hq] using hrests
        exact .inl rfl
  · exact absurd ⟨hk hrests.2, hrests.1⟩ hg

lemma handleStopped_status {r : SchedRequest} (h : r.status.isFinished) :
    (r.handleStopped.2 = true ∧ r.handleStopped.1.status.isFinished) ∨
      (r.handleStopped.2 = false ∧ r.handleStopped.1.status.waits) := by
  unfold handleStopped
  split
  · exact .inl ⟨rfl, h⟩
  split
  · exact .inl ⟨rfl, h⟩
  · exact .inr ⟨rfl, rfl⟩
  · exact .inr ⟨rfl, rfl⟩

end SchedRequest

namespace Scheduler

variable {async : Bool} {rid : String} {s t : Scheduler}

/-- In the main loop of `update_from_output` stopped requests are still in the queue they were found
in; one that waits for input is in `skipped_waiting` too. -/
structure UpdateState.Queued (u : UpdateState) : Prop where
  running : ∀ i, u.sched.running.count i =
    inRunning (u.sched.requests i) + u.stoppedRunning.count i
  once : ∀ i, u.sched.running.count i ≤ 1
  waiting : ∀ i, u.sched.waitingCount [] i =
    inWaiting (u.sched.requests i) + u.stoppedPreempted.count i
  preempted : ∀ i ∈ u.stoppedPreempted,
    u.sched.skippedWaiting.count i = inWaiting (u.sched.requests i) ∧
      inRunning (u.sched.requests i) = 0

variable (call : UpdateCall)

/-- A request not in `RUNNING` that an output may stop is in `waiting`, was not stopped by an entry
before, and rests after the stop. -/
def CleanStop (u : UpdateState) (entry : String × ScheduledStep) : Prop :=
  entry.1 ∉ call.failedIds → ∀ r, u.sched.requests entry.1 = some r → r.status.waits →
    (call.outputs entry.1).mayStop → entry.1 ∈ u.sched.waiting ∧ entry.1 ∉ u.stoppedPreempted ∧
      r.restsAfter (call.outputs entry.1)

variable {r : SchedRequest}

/-- A stopped request is freed, or a session is put back into a queue. -/
lemma stopRequest_cases (hr : r.status.isFinished) (s : Scheduler) (rid : String)
    (delayFree : Bool) :
    (∃ requests, s.stopRequest rid r delayFree = { s with requests } ∧
      (∀ i, i ≠ rid → requests i = s.requests i) ∧ Gone (requests rid)) ∨
    r.handleStopped.2 = false ∧ r.handleStopped.1.status.waits ∧ s.stopRequest rid r delayFree =
      (s.enqueueWaiting rid r.handleStopped.1.status).set rid r.handleStopped.1 := by
  have hst := SchedRequest.handleStopped_status hr
  unfold stopRequest
  split
  next h =>
    rw [h] at hst
    exact .inl (freeRequest_eq (by simpa using hst) s rid delayFree)
  next h =>
    rw [h] at hst ⊢
    exact .inr ⟨rfl, by simpa using hst, rfl⟩

lemma stopRequest_spec (hr : r.status.isFinished) (s : Scheduler) (rid : String)
    (delayFree : Bool) : let t := s.stopRequest rid r delayFree
    (∀ i, i ≠ rid → t.requests i = s.requests i) ∧ t.running = s.running ∧
      inRunning (t.requests rid) = 0 ∧
      (∀ i, t.waitingCount [] i = s.waitingCount [] i + if i = rid then
        inWaiting (t.requests rid) else 0) ∧
      (∀ i, i ≠ rid → t.skippedWaiting.count i = s.skippedWaiting.count i) ∧
      (r.Rests → t.skippedWaiting.count rid =
        s.skippedWaiting.count rid + inWaiting (t.requests rid)) := by
  rcases stopRequest_cases hr s rid delayFree with ⟨requests, heq, hoth, hgone⟩ | ⟨hgo, hst, heq⟩
  · rw [heq]
    refine ⟨hoth, rfl, hgone.inRunning, fun i => ?_, fun _ _ => rfl, fun _ => ?_⟩
    · simp only [hgone.inWaiting, ite_self, Nat.add_zero]
      rfl
    · rw [hgone.inWaiting, Nat.add_zero]
  have hone : inWaiting (some r.handleStopped.1) = 1 := by rw [inWaiting_some, if_pos hst]
  rw [heq]
  refine ⟨fun i hi => ?_, ?_, ?_, fun i => ?_, fun i hi => ?_, fun hrests => ?_⟩
  · rw [set_of_ne _ _ hi]
    unfold enqueueWaiting
    split <;> rfl
  · unfold enqueueWaiting
    split <;> rfl
  · rw [set_same, inRunning_of_waits hst]
  · rw [set_same, hone]
    unfold enqueueWaiting waitingCount
    split
    all_goals
      simp only [Scheduler.set, count_append, count_singleton, beq_iff_eq, eq_comm (a := rid)]
      omega
  · unfold enqueueWaiting
    split
    · simp [Scheduler.set, count_append, Ne.symm hi]
    · rfl
  · have hwaits : r.handleStopped.1.status = .waitingForStreamingReq :=
      hrests.resolve_left (by simp [hgo])
    rw [set_same, hone, hwaits]
    simp [enqueueWaiting, RequestStatus.isBlockedWaiting, Scheduler.set]

variable {u u' : UpdateState}

/-- An output with a clean stop keeps each request in its one queue. -/
lemma queued_processOutput {o : RequestOutput} {step : ScheduledStep}
    (h : u.Queued) (hreq : u.sched.requests rid = some r) (hunfinished : ¬ r.status.isFinished)
    (hclean : r.status.waits → o.mayStop →
      rid ∈ u.sched.waiting ∧ rid ∉ u.stoppedPreempted ∧ r.restsAfter o)
    (he : processOutput async o step rid r u = .ok u') : u'.Queued := by
  obtain ⟨⟨r', stopped⟩, happ, he⟩ := of_bind he
  have hrun := h.running rid
  have hwait := h.waiting rid
  have honce := h.once rid
  rw [hreq] at hrun hwait
  cases stopped with
  | false =>
    cases he
    have hst := SchedRequest.applyOutput_continues happ
    have hsame (i : String) :
        inRunning ((u.sched.set rid r').requests i) = inRunning (u.sched.requests i) ∧
        inWaiting ((u.sched.set rid r').requests i) = inWaiting (u.sched.requests i) := by
      rcases eq_or_ne i rid with rfl | hi
      · simp [hreq, hst]
      · simp [hi]
    refine ⟨fun i => (h.running i).trans (by rw [(hsame i).1]), h.once,
      fun i => (h.waiting i).trans (by rw [(hsame i).2]), fun i hi => ?_⟩
    rw [(hsame i).1, (hsame i).2]
    exact h.preempted i hi
  | true =>
    obtain ⟨hfin, hmay, hrests⟩ := SchedRequest.applyOutput_stops happ
    obtain ⟨hoth, hrunning, hgone, hcnt, hskip, hdone⟩ :=
      stopRequest_spec hfin u.sched rid o.delayFree
    have he := Except.ok.inj he
    generalize u.sched.stopRequest rid r' o.delayFree = t at *
    have hold (hnew : rid ∉ u.stoppedPreempted) (i : String) (hi : i ∈ u.stoppedPreempted) :
        t.skippedWaiting.count i = inWaiting (t.requests i) ∧ inRunning (t.requests i) = 0 := by
      have hne : i ≠ rid := fun e => hnew (e ▸ hi)
      rw [hskip i hne, hoth i hne]
      exact h.preempted i hi
    by_cases hst : r.status = .running
    · -- The request stays in `running` until the end of the loop.
      rw [if_pos hst] at he
      subst he
      have hnew : rid ∉ u.stoppedPreempted := fun hmem => by
        simpa [hreq, hst] using (h.preempted rid hmem).2
      rw [inRunning_some, if_pos hst] at hrun
      rw [inWaiting_some, if_neg (by simp [hst, RequestStatus.waits])] at hwait
      refine ⟨fun i => ?_, fun i => hrunning ▸ h.once i, fun i => ?_, hold hnew⟩
      · rcases eq_or_ne i rid with rfl | hi
        · simp only [hrunning, hgone, count_cons_self]
          omega
        · simp only [hrunning, hoth i hi, count_cons_of_ne (Ne.symm hi), h.running i]
      rw [hcnt i]
      rcases eq_or_ne i rid with rfl | hi
      · rw [if_pos rfl, hwait]
        dsimp only
        omega
      · rw [if_neg hi, hoth i hi, h.waiting i, Nat.add_zero]
    -- The request stays in `waiting` until the end of the loop.
    rw [if_neg hst] at he
    subst he
    have hw : r.status.waits := by simp [RequestStatus.waits, hst, hunfinished]
    obtain ⟨hmem, hnew, hrest⟩ := hclean hw hmay
    have hskipped := hdone (hrests hrest)
    rw [inRunning_some, if_neg hst] at hrun
    rw [inWaiting_some, if_pos hw, count_eq_zero.mpr hnew, waitingCount] at hwait
    have hpos := count_pos_iff.mpr hmem
    refine ⟨fun i => ?_, fun i => hrunning ▸ h.once i, fun i => ?_, fun i hi => ?_⟩
    · rcases eq_or_ne i rid with rfl | hi
      · simp only [hrunning, hgone]
        omega
      · simp only [hrunning, hoth i hi, h.running i]
    · rw [hcnt i]
      rcases eq_or_ne i rid with rfl | hi
      · simp only [if_true, count_cons_self, count_eq_zero.mpr hnew, waitingCount]
        omega
      · simp only [if_neg hi, hoth i hi, h.waiting i, count_cons_of_ne (Ne.symm hi)]
        rfl
    rcases mem_cons.mp hi with rfl | hi
    · refine ⟨?_, hgone⟩
      dsimp only
      omega
    · exact hold hnew i hi

lemma queued_updateRequest {call : UpdateCall}
    {entry : String × ScheduledStep} (h : u.Queued) (hclean : CleanStop call u entry)
    (he : updateRequest async call u entry = .ok u') : u'.Queued := by
  unfold updateRequest at he
  split at he
  · cases he
    exact h
  rename_i hid
  split at he
  · cases he
    exact h
  rename_i r hreq
  split at he
  · cases he
    exact h
  next hfin => exact queued_processOutput h hreq hfin (hclean hid r hreq) he

lemma queued_removeStopped {u : UpdateState} (h : u.Queued) : (removeStopped u).Queued [] [] := by
  refine ⟨fun i => ?_, fun i => ?_⟩
  · have hrun := h.running i
    have honce := h.once i
    show (removeAll u.sched.running u.stoppedRunning).count i + 0 = inRunning (u.sched.requests i)
    rw [count_removeAll honce]
    split
    next hmem =>
      have := count_pos_iff.mpr hmem
      omega
    rename_i hmem
    rw [count_eq_zero.mpr hmem] at hrun
    omega
  have hwait := h.waiting i
  simp only [waitingCount, count_nil, removeStopped] at hwait ⊢
  rw [count_removeRequests]
  split
  next hmem =>
    have hskip := (h.preempted i hmem).1
    omega
  rename_i hmem
  rw [count_eq_zero.mpr hmem] at hwait
  omega

variable {s : Scheduler} (h : s.Queued [] [])

include h in
lemma queued_handleInvalidBlocks : (call.handleInvalidBlocks s).Queued [] [] := by
  unfold UpdateCall.handleInvalidBlocks
  generalize call.asyncFailed ++ call.syncFailed = failed
  induction failed generalizing s with
  | nil => exact h
  | cons f failed ih =>
    refine ih ?_
    unfold truncateComputed
    split
    · exact h
    next r hreq => exact h.set_status hreq rfl

lemma Queued.delete {popped aside : List String}
    (h : s.Queued popped aside) (hgone : Gone (s.requests rid)) :
    (s.delete rid).Queued popped aside := by
  refine h.move rid (fun i hi => delete_of_ne s hi) (fun _ _ => rfl) (fun _ _ => rfl) ?_ ?_
  · rw [delete_same, inRunning_none, ← hgone.inRunning]
    exact h.running rid
  · rw [delete_same, inWaiting_none, ← hgone.inWaiting]
    exact h.waiting rid

include h in
lemma queued_finishSending (he : s.finishSending rid = .ok t) : t.Queued [] [] := by
  unfold finishSending at he
  split at he
  · cases he
  rename_i r hreq
  obtain ⟨_, hfin, ⟨⟩⟩ := of_bind he
  refine h.delete fun r' hr' => ?_
  obtain rfl := Option.some.inj (hreq.symm.trans hr')
  exact pyAssert_eq_ok.mp hfin

lemma finishRecving_eq (s : Scheduler) (rid : String) :
    s.finishRecving rid = .ok s ∨ s.finishRecving rid = s.finishSending rid := by
  unfold finishRecving finishSending
  split
  · exact .inr rfl
  split
  · exact .inl rfl
  · exact .inr rfl

include h in
lemma queued_finishRecving (he : s.finishRecving rid = .ok t) : t.Queued [] [] := by
  rcases finishRecving_eq s rid with hsame | hsame
  · cases hsame.symm.trans he
    exact h
  · exact queued_finishSending h (hsame ▸ he)

/-- Each request that stops in the output stops cleanly. -/
def CleanCall (async : Bool) (s : Scheduler) : Call → Prop
  | .updateFromOutput call => ∀ out inflight, s.inflight = out :: inflight →
      Machine.Along (updateRequest async call) (CleanStop call)
        { sched := call.handleInvalidBlocks { s with inflight } } out
  | _ => True

include h in
lemma queued_updateFromOutput {call : UpdateCall}
    (hclean : CleanCall async s (.updateFromOutput call))
    (he : s.updateFromOutput async call = .ok t) : t.Queued [] [] := by
  unfold updateFromOutput at he
  split at he
  · cases he
    exact h
  rename_i out inflight hinflight
  obtain ⟨u, hu, he⟩ := of_bind he
  obtain ⟨s1, hs1, he⟩ := of_bind he
  obtain ⟨s2, hs2, he⟩ := of_bind he
  have h0 : ({ s with inflight } : Scheduler).Queued [] [] := ⟨h.running, h.waiting⟩
  have h1 := queued_handleInvalidBlocks call h0
  have hstart : ({ sched := call.handleInvalidBlocks { s with inflight } } : UpdateState).Queued :=
    ⟨h1.running, h1.count_running_le_one, h1.waiting, nofun⟩
  have hloop : u.Queued :=
    (hclean out inflight hinflight).invariant (P := fun _ u => UpdateState.Queued u)
    (fun _ _ _ _ h hc he => queued_updateRequest h hc he) hu hstart
  have h2 : s1.Queued [] [] := by
    unfold UpdateCall.finishFailed at hs1
    split at hs1
    · cases hs1
      exact queued_removeStopped hloop
    · exact queued_finishRequests (queued_removeStopped hloop) hs1
  have h3 : s2.Queued [] [] := Machine.foldlM_invariant (P := fun _ s => s.Queued [] [])
    (fun _ _ _ _ h he => queued_finishRecving h he) hs2 h2
  exact Machine.foldlM_invariant (P := fun _ s => s.Queued [] [])
    (fun _ _ _ _ h he => queued_finishSending h he) he h3

lemma queued_updateDraftTokenIds (drafts : List (String × ℕ))
    (h : s.Queued [] []) : (drafts.foldl updateDraftTokenIds s).Queued [] [] := by
  induction drafts generalizing s with
  | nil => exact h
  | cons d drafts ih =>
    refine ih ?_
    unfold updateDraftTokenIds
    split
    · exact h
    rename_i r hreq
    split
    · exact h
    · exact h.set_status hreq rfl

include h in
lemma queued_step {call : Call}
    (hclean : CleanCall async s call) (he : s.step async call = .ok t) : t.Queued [] [] := by
  cases call with
  | addRequest rid new => exact queued_addRequest h he
  | schedule call => exact queued_schedule h he
  | updateFromOutput call => exact queued_updateFromOutput h hclean he
  | updateDraftTokenIds drafts =>
    cases he
    exact queued_updateDraftTokenIds drafts h
  | finishRequests ids status delayFree => exact queued_finishRequests h he
  | resetPrefixCache resetRunning success => exact queued_resetPrefixCache h he

lemma queued_init : ({} : Scheduler).Queued [] [] := ⟨fun _ => rfl, fun _ => rfl⟩

/-- In every run whose stops are clean, an unfinished request is in exactly one of the three queues
and there once, it is in `running` if and only if its status is `RUNNING`, and what is finished or
unknown is in no queue. -/
theorem queues_partition_requests (async : Bool) {calls : List Call} {s : Scheduler}
    (hrun : Machine.Run (step async) (CleanCall async) {} calls s) (rid : String) :
    (∀ r, s.requests rid = some r → ¬ r.status.isFinished →
      s.running.count rid + s.waiting.count rid + s.skippedWaiting.count rid = 1 ∧
        (rid ∈ s.running ↔ r.status = .running)) ∧
        ((∀ r, s.requests rid = some r → r.status.isFinished) →
        rid ∉ s.running ∧ rid ∉ s.waiting ∧ rid ∉ s.skippedWaiting) := by
  have h : s.Queued [] [] := hrun.invariant (P := fun s => s.Queued [] [])
    (fun _ _ _ h hc he => queued_step h hc he) queued_init
  have hr := h.running rid
  have hw := h.waiting rid
  simp only [waitingCount, count_nil, Nat.add_zero] at hr hw
  constructor
  · intro r hreq hfin
    rw [hreq, inRunning_some] at hr
    rw [hreq, inWaiting_some] at hw
    by_cases hst : r.status = .running
    · rw [if_pos hst] at hr
      rw [if_neg (by simp [hst, RequestStatus.waits])] at hw
      exact ⟨by omega, fun _ => hst, fun _ => count_pos_iff.mp (by omega)⟩
    rw [if_neg hst] at hr
    rw [if_pos (by simp [RequestStatus.waits, hst, hfin])] at hw
    exact ⟨by omega, fun hmem => absurd hmem (count_eq_zero.mp hr), fun e => absurd e hst⟩
  intro hgone
  rw [Gone.inRunning hgone] at hr
  rw [Gone.inWaiting hgone] at hw
  refine ⟨count_eq_zero.mp hr, count_eq_zero.mp ?_, count_eq_zero.mp ?_⟩
  · omega
  · omega

/-- A session `r` is preempted for `q` while its first output is in flight, and that output stops
it. -/
def preemptedSession : List Call :=
  [.addRequest "q" { numTokens := 4 },
   .addRequest "r" { numTokens := 3, resumable := true },
   .schedule { waiting := [("q", { action := .start 0 8 }), ("r", { action := .start 0 8 })] },
   .addRequest "r" { numTokens := 2, resumable := true },
   .schedule { running := [("r", .preempt), ("q", .run 8)] },
   .updateFromOutput { outputs := fun _ => { numGenerated := 1, stopAfter := some (1, .stopped) } }]

/-- The session goes on with its next input, but it is in no queue any more. -/
theorem preempted_session_lost :
    ∃ s, Machine.Run (step true) (fun _ _ => True) {} preemptedSession s ∧
      ∃ r, s.requests "r" = some r ∧ r.status = .waiting ∧
        "r" ∉ s.running ∧ "r" ∉ s.waiting ∧ "r" ∉ s.skippedWaiting := by
  refine ⟨_, .cons trivial rfl (.cons trivial rfl (.cons trivial rfl (.cons trivial rfl
    (.cons trivial rfl (.cons trivial rfl (.nil _)))))), _, rfl, rfl, ?_, ?_, ?_⟩
  all_goals decide

def preemptedRequest : List Call :=
  [.addRequest "r" { numTokens := 3 },
   .schedule { waiting := [("r", { action := .start 0 8 })] },
   .schedule { running := [("r", .preempt)] },
   .updateFromOutput { outputs := fun _ => { numGenerated := 1, stopAfter := some (1, .stopped) } }]

/-- A request that stops while it is preempted leaves all queues. -/
theorem preemptedRequest_partitioned :
    ∃ s, Machine.Run (step true) (CleanCall true) {} preemptedRequest s ∧ s.requests "r" = none ∧
      "r" ∉ s.running ∧ "r" ∉ s.waiting ∧ "r" ∉ s.skippedWaiting := by
  obtain ⟨s, hrun, hgone⟩ : ∃ s, Machine.Run (step true) (CleanCall true) {} preemptedRequest s ∧
      s.requests "r" = none := by
    refine ⟨_, .cons trivial rfl (.cons trivial rfl (.cons trivial rfl (.cons ?_ rfl (.nil _)))),
      rfl⟩
    intro out inflight h
    obtain ⟨rfl, rfl⟩ := cons.inj h
    refine ⟨fun _ r hr _ _ => ?_, fun _ _ => trivial⟩
    cases hr
    decide
  refine ⟨s, hrun, hgone, (queues_partition_requests true hrun "r").2 fun r hr => ?_⟩
  rw [hgone] at hr
  cases hr

end Scheduler

end Vllm
