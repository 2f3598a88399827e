import Vllm.Sched.RequestView

/-!
# Output placeholders of the async scheduler

The placeholders count what is in flight, except that a session stopped before its last generated
token keeps those of the tokens cut off.
-/

namespace Vllm

open SchedRequest

def ScheduledStep.placeholders (step : ScheduledStep) : ℤ :=
  if step.isPrefillChunk then 0 else 1 + step.numDraftTokens

variable (steps : List ScheduledStep)

/-- The placeholders of the steps in flight. -/
def placeholdersInFlight : ℤ := (steps.map (·.placeholders)).sum

lemma ScheduledStep.placeholders_nonneg (step : ScheduledStep) : 0 ≤ step.placeholders := by
  unfold placeholders
  split <;> omega

@[simp] lemma placeholdersInFlight_nil : placeholdersInFlight [] = 0 := rfl

@[simp] lemma placeholdersInFlight_cons (step : ScheduledStep) (steps : List ScheduledStep) :
    placeholdersInFlight (step :: steps) = step.placeholders + placeholdersInFlight steps := by
  simp [placeholdersInFlight]

lemma placeholdersInFlight_snoc (step : ScheduledStep) :
    placeholdersInFlight (steps ++ [step]) = placeholdersInFlight steps + step.placeholders := by
  simp [placeholdersInFlight]

lemma placeholdersInFlight_nonneg : 0 ≤ placeholdersInFlight steps := by
  induction steps with
  | nil => exact le_rfl
  | cons step steps ih =>
    have := step.placeholders_nonneg
    rw [placeholdersInFlight_cons]
    omega

/-- The model runner returns nothing for a partial prefill, otherwise the sampled token and the
accepted drafts. -/
def ReturnsTokens (step : ScheduledStep) (o : RequestOutput) : Prop :=
  if step.isPrefillChunk then o.numGenerated = 0
  else 1 ≤ o.numGenerated ∧ o.numGenerated ≤ 1 + step.numDraftTokens

variable (o : RequestOutput)

lemma RequestOutput.kept_le : o.kept.1 ≤ o.numGenerated := by
  unfold kept
  split
  · split
    next h => exact h.2
    · exact le_rfl
  · exact le_rfl

lemma RequestOutput.kept_of_continues {o : RequestOutput} (h : o.kept.2 = none) :
    o.kept.1 = o.numGenerated := by
  unfold kept at h ⊢
  split
  · split
    next hs hk => simp [hs, hk] at h
    · rfl
  · rfl

namespace SchedRequest

variable {r r' : SchedRequest}

lemma updateWithOutput_eq (r : SchedRequest) : r.updateWithOutput o = ({ r with
        numTokens := r.numTokens + o.kept.1
        status := (o.kept.2.map StopReason.status).getD r.status }, o.kept.1, o.kept.2.isSome) := by
  unfold updateWithOutput
  split
  next h => simp [h]
  next h => simp [h]

/-- What `_update_request_with_output` does to a request: `k` tokens are appended. -/
structure Appended (async : Bool) (o : RequestOutput) (r r' : SchedRequest) (k : ℕ)
    (stopped : Bool) : Prop where
  le : k ≤ o.numGenerated
  numTokens : r'.numTokens = r.numTokens + k
  numComputedTokens : r'.numComputedTokens = r.numComputedTokens
  numOutputPlaceholders : r'.numOutputPlaceholders =
    r.numOutputPlaceholders - (if async then (k : ℤ) else 0)
  isPrefillChunk : r'.isPrefillChunk = r.isPrefillChunk
  removedAt : r'.removedAt = r.removedAt
  discard : r'.asyncTokensToDiscard ≤ r.asyncTokensToDiscard
  resumable : r'.resumable → r.resumable
  kept : async = false ∨ r.asyncTokensToDiscard ≤ 0 → 0 < o.numGenerated → k = o.kept.1
  continues : async = false ∨ r.asyncTokensToDiscard ≤ 0 → stopped = false → k = o.numGenerated

lemma checkStop_appended {async : Bool} {o : RequestOutput} {k : ℕ}
    {stopped : Bool} (h : r.checkStop async o = .ok (r', k, stopped)) :
    Appended async o r r' k stopped := by
  have hcont : o.kept.2.isSome = false → o.kept.1 = o.numGenerated := fun hs =>
    RequestOutput.kept_of_continues
      (Option.isSome_eq_false_iff.mp hs |> Option.isNone_iff_eq_none.mp)
  unfold checkStop at h
  split at h
  · split at h
    next hasync =>
      subst hasync
      unfold asyncUpdateWithOutput at h
      split at h
      next hdis =>
        cases h
        refine ⟨Nat.zero_le _, rfl, rfl, ?_, rfl, rfl, ?_, id, fun hd => ?_, fun hd => ?_⟩
        · simp
        · exact Int.sub_le_self _ (by decide)
        · exact absurd (hd.resolve_left nofun) (by omega)
        · exact absurd (hd.resolve_left nofun) (by omega)
      rw [updateWithOutput_eq] at h
      obtain ⟨_, _, ⟨⟩⟩ := of_bind h
      exact ⟨o.kept_le, rfl, rfl, by simp, rfl, rfl, le_rfl, id, fun _ _ => rfl, fun _ => hcont⟩
    rename_i hasync
    rw [updateWithOutput_eq] at h
    cases h
    exact ⟨o.kept_le, rfl, rfl, by simp [hasync], rfl, rfl, le_rfl, id, fun _ _ => rfl,
      fun _ => hcont⟩
  rename_i hgen
  split at h
  · cases h
    exact ⟨Nat.zero_le _, rfl, rfl, by simp, rfl, rfl, le_rfl, id, fun _ hg => absurd hg hgen,
      fun _ hs => by cases hs⟩
  · cases h
    exact ⟨Nat.zero_le _, rfl, rfl, by simp, rfl, rfl, le_rfl, id, fun _ hg => absurd hg hgen,
      fun _ _ => by omega⟩

lemma applyOutput_appended {async : Bool} {step : ScheduledStep} {o : RequestOutput}
    {stopped : Bool} (h : r.applyOutput async step o = .ok (r', stopped)) :
    ∃ k, Appended async o (r.rejectDrafts step o) r' k stopped := by
  obtain ⟨⟨r1, k, st⟩, hc, h⟩ := of_bind h
  have hk := checkStop_appended hc
  refine ⟨k, ?_⟩
  dsimp only at h
  split at h
  · cases h
    exact ⟨hk.le, hk.numTokens, hk.numComputedTokens, hk.numOutputPlaceholders, hk.isPrefillChunk,
      hk.removedAt, hk.discard, nofun, hk.kept, nofun⟩
  · cases h
    exact hk

/-- A stopped session that waits for its next input. -/
structure StopWaits (r r' : SchedRequest) : Prop where
  resumable : r.resumable
  status : r'.status = .waiting ∨ r'.status = .waitingForStreamingReq
  numComputedTokens : r'.numComputedTokens = r.numComputedTokens
  numOutputPlaceholders : r'.numOutputPlaceholders = r.numOutputPlaceholders
  asyncTokensToDiscard : r'.asyncTokensToDiscard = r.asyncTokensToDiscard
  removedAt : r'.removedAt = r.removedAt

lemma handleStopped_waits {r : SchedRequest} (h : r.handleStopped.2 = false) :
    StopWaits r r.handleStopped.1 := by
  have hres : r.resumable := by
    cases hb : r.resumable with
    | true => rfl
    | false => simp [handleStopped, hb] at h
  unfold handleStopped at h ⊢
  rw [if_neg (by simp [hres])] at h ⊢
  split
  next hq => simp [hq] at h
  · exact ⟨hres, .inl rfl, rfl, rfl, rfl, rfl⟩
  · exact ⟨hres, .inr rfl, rfl, rfl, rfl, rfl⟩

lemma StopWaits.not_running (h : StopWaits r r') :
    r'.status ≠ .running := by rcases h.status with e | e <;> simp [e]

section rejectDrafts

variable (step : ScheduledStep) (o : RequestOutput) (r : SchedRequest)

@[simp] lemma rejectDrafts_numTokens : (r.rejectDrafts step o).numTokens = r.numTokens := by
  unfold rejectDrafts
  split <;> rfl

@[simp] lemma rejectDrafts_isPrefillChunk :
    (r.rejectDrafts step o).isPrefillChunk = r.isPrefillChunk := by
  unfold rejectDrafts
  split <;> rfl

@[simp] lemma rejectDrafts_removedAt : (r.rejectDrafts step o).removedAt = r.removedAt := by
  unfold rejectDrafts
  split <;> rfl

@[simp] lemma rejectDrafts_asyncTokensToDiscard :
    (r.rejectDrafts step o).asyncTokensToDiscard = r.asyncTokensToDiscard := by
  unfold rejectDrafts
  split <;> rfl

def takenBack : ℤ := if 0 < step.numDraftTokens ∧ 0 < o.numGenerated then numRejected step o else 0

lemma rejectDrafts_numComputedTokens : (r.rejectDrafts step o).numComputedTokens =
    r.numComputedTokens - if 0 < r.numComputedTokens then takenBack step o else 0 := by
  unfold rejectDrafts takenBack
  split
  · dsimp only
    split <;> omega
  · simp

lemma rejectDrafts_numOutputPlaceholders : (r.rejectDrafts step o).numOutputPlaceholders =
    r.numOutputPlaceholders - if 0 < r.numOutputPlaceholders then takenBack step o else 0 := by
  unfold rejectDrafts takenBack
  split
  · dsimp only
    split <;> omega
  · simp

end rejectDrafts

lemma takenBack_spec {step : ScheduledStep} {o : RequestOutput} (h : ReturnsTokens step o) :
    0 ≤ takenBack step o ∧ takenBack step o ≤ step.numDraftTokens ∧
      takenBack step o + o.numGenerated = step.placeholders ∧
      (0 < takenBack step o → 0 < o.numGenerated) := by
  unfold ReturnsTokens at h
  unfold takenBack numRejected ScheduledStep.placeholders
  split at h
  next hp =>
    simp [h, hp]
  next hp =>
    split <;> omega

end SchedRequest

/-! ## The invariant -/

/-- Between calls a running request past its prefill is one token short of its known tokens and
placeholders. -/
structure CountsInFlight (r : SchedRequest) (chosen inflight : List ScheduledStep) : Prop where
  placeholders : r.numOutputPlaceholders = placeholdersInFlight inflight
  discard : r.asyncTokensToDiscard ≤ 0
  settled : chosen = [] → r.status = .running → r.isPrefillChunk = false →
    r.numComputedTokens = r.numTokens - 1 + r.numOutputPlaceholders
  recorded : ∀ step rest, chosen = step :: rest → rest = [] ∧ (r.status = .running →
    (step.numDraftTokens : ℤ) = max 0 (r.numComputedTokens + step.numScheduledTokens -
      r.numTokens - r.numOutputPlaceholders))

def RequestView.CountsInFlight (v : RequestView) : Prop :=
  ∀ r, v.request = some r → ¬ r.status.isFinished → Vllm.CountsInFlight r v.chosen v.inflight

/-- Each output has the tokens that its step sampled. -/
def returnsTokens : Assumption where
  allocate _ _ := True
  output _ := ReturnsTokens

/-- Moreover a session stops at the last of the returned tokens if at all. -/
def untrimmed : Assumption where
  allocate _ _ := True
  output r step o := ReturnsTokens step o ∧ (r.resumable → o.kept.1 = o.numGenerated)

namespace CountsInFlight

variable {r r' : SchedRequest} {c fl : List ScheduledStep} {step : ScheduledStep}

lemma of_not_running (h : CountsInFlight r c fl)
    (hp : r'.numOutputPlaceholders = r.numOutputPlaceholders)
    (hd : r'.asyncTokensToDiscard = r.asyncTokensToDiscard) (hst : r'.status ≠ .running) :
    CountsInFlight r' c fl :=
  ⟨hp.trans h.placeholders, hd.trans_le h.discard, fun _ e => absurd e hst,
    fun step rest e => ⟨(h.recorded step rest e).1, fun e => absurd e hst⟩⟩

lemma run (h : CountsInFlight r [] fl) {limit : ℕ}
    (he : r.scheduleRunning limit = some (step, r')) : CountsInFlight r' [step] fl := by
  obtain ⟨n, hn, hle, rfl, rfl⟩ := scheduleRunning_eq_some he
  refine ⟨h.placeholders, h.discard, nofun, fun step rest e => ?_⟩
  obtain ⟨rfl, rfl⟩ := List.cons.inj e
  refine ⟨rfl, fun _ => ?_⟩
  simp only [numScheduledSpecTokens, numNewTokens] at hle ⊢
  omega

lemma start (h : CountsInFlight r c fl) {computed : ℤ} {n : ℕ} (hle : computed + n ≤ r.numTokens) :
    CountsInFlight (r.start computed) [{ numScheduledTokens := n }] fl := by
  have hp := placeholdersInFlight_nonneg fl
  refine ⟨h.placeholders, h.discard, nofun, fun step rest e => ?_⟩
  obtain ⟨rfl, rfl⟩ := List.cons.inj e
  refine ⟨rfl, fun _ => ?_⟩
  have := h.placeholders
  simp only [SchedRequest.start]
  omega

lemma advance (h : CountsInFlight r (step :: c) fl) (numSpec : ℕ) :
    CountsInFlight (r.updateAfterSchedule true numSpec step).1 c
      (fl ++ [(r.updateAfterSchedule true numSpec step).2]) := by
  obtain ⟨rfl, hrec⟩ := h.recorded step c rfl
  have hp := h.placeholders
  simp only [updateAfterSchedule, Bool.true_and, Bool.not_eq_true', decide_eq_false_iff_not]
  split
  next hpre =>
    refine ⟨?_, h.discard, fun _ hst _ => ?_, fun _ _ e => by cases e⟩
    · rw [placeholdersInFlight_snoc, ScheduledStep.placeholders]
      simp only [hpre, decide_false, Bool.false_eq_true, if_false]
      omega
    have hd := hrec hst
    dsimp only
    omega
  rename_i hpre
  refine ⟨?_, h.discard, fun _ hst hno => ?_, fun _ _ e => by cases e⟩
  · rw [placeholdersInFlight_snoc, ScheduledStep.placeholders]
    simp only [not_not.mp hpre, decide_true, if_true]
    omega
  · exact absurd (of_decide_eq_false hno) hpre

lemma output (h : CountsInFlight r [] (step :: fl)) {o : RequestOutput} {k : ℕ} {stopped : Bool}
    (hret : ReturnsTokens step o) (happ : Appended true o (r.rejectDrafts step o) r' k stopped)
    (hk : k = o.numGenerated) :
    r'.numOutputPlaceholders = placeholdersInFlight fl ∧ r'.asyncTokensToDiscard ≤ 0 ∧
      (r.numComputedTokens = r.numTokens - 1 + r.numOutputPlaceholders →
        r'.numComputedTokens = r'.numTokens - 1 + r'.numOutputPlaceholders) := by
  obtain ⟨hnonneg, hle, hsum, hpos⟩ := takenBack_spec hret
  have hfl := placeholdersInFlight_nonneg fl
  have hp := h.placeholders
  have hplace := happ.numOutputPlaceholders
  have hcomp := happ.numComputedTokens
  have htok := happ.numTokens
  have hdis := happ.discard
  rw [placeholdersInFlight_cons] at hp
  rw [rejectDrafts_numOutputPlaceholders, if_pos rfl] at hplace
  rw [rejectDrafts_numComputedTokens] at hcomp
  rw [rejectDrafts_numTokens] at htok
  rw [rejectDrafts_asyncTokensToDiscard] at hdis
  -- A step with drafts to take back has placeholders, so both guards hold.
  have hguard : (if 0 < r.numOutputPlaceholders then takenBack step o else 0) =
    takenBack step o := by split <;> omega
  refine ⟨by omega, hdis.trans h.discard, fun hset => ?_⟩
  have hguard' : (if 0 < r.numComputedTokens then takenBack step o else 0) = takenBack step o := by
    split <;> omega
  omega

end CountsInFlight

namespace RequestView

variable {v w : RequestView}

/-- Every step of a request keeps its placeholders equal to those in flight. -/
lemma countsInFlight_step (h : ViewStep true untrimmed v w) (hv : v.CountsInFlight) :
    w.CountsInFlight := by
  intro r' hr' hfin'
  cases h with
  | add new =>
    cases hr'
    refine ⟨rfl, le_rfl, fun _ hst => ?_, nofun⟩
    simp only [Scheduler.NewRequest.toRequest] at hst
    split at hst <;> cases hst
  | queueInput r queue c fl =>
    cases hr'
    have h := hv r rfl hfin'
    exact ⟨h.placeholders, h.discard, h.settled, h.recorded⟩
  | session r numNew c fl hst =>
    cases hr'
    exact (hv r rfl (by rw [hst]; decide)).of_not_running rfl rfl nofun
  | finish r r'' c fl hgone => exact absurd (hgone r' hr') hfin'
  | drafts r n c fl =>
    cases hr'
    have h := hv r rfl hfin'
    exact ⟨h.placeholders, h.discard, h.settled, h.recorded⟩
  | run r r1 limit step fl hst hal he =>
    cases hr'
    exact (hv r rfl (by rw [hst]; decide)).run he
  | preempt r c fl hst =>
    cases hr'
    have h := hv r rfl (by rw [hst]; decide)
    exact ⟨h.placeholders, h.discard, fun _ => nofun, nofun⟩
  | unknown => cases hr'
  | promote r r1 ready c fl he =>
    cases hr'
    obtain ⟨rfl, -⟩ | hp := tryPromote_cases he
    · exact hv _ rfl hfin'
    · exact (hv r rfl hp.unfinished).of_not_running hp.numOutputPlaceholders hp.asyncTokensToDiscard
        hp.not_running
  | refuse r c fl hst hremote hal =>
    cases hr'
    have h := hv r rfl hfin'
    exact ⟨h.placeholders, h.discard, h.settled, h.recorded⟩
  | loadAsync r n c fl hst hal hzero hn =>
    cases hr'
    exact (hv r rfl (RequestStatus.unfinished_of_waits hst)).of_not_running rfl rfl nofun
  | loadFailed r n c fl hst =>
    cases hr'
    exact (hv r rfl hfin').of_not_running rfl rfl fun e => by simp [hst] at e
  | start r computed n c fl hst hal hcomputed hn hle =>
    cases hr'
    exact (hv r rfl (RequestStatus.unfinished_of_waits hst)).start hle
  | advance r numSpec step c fl =>
    cases hr'
    rw [Scheduler.updateAfterSchedule_status] at hfin'
    exact (hv r rfl hfin').advance numSpec
  | output r r1 step o fl hfin hout he =>
    cases hr'
    obtain ⟨k, happ⟩ := applyOutput_appended he
    have h := hv r rfl hfin
    have hdis : (r.rejectDrafts step o).asyncTokensToDiscard ≤ 0 := by simpa using h.discard
    obtain ⟨hp, hd, hset⟩ := h.output hout.1 happ (happ.continues (.inr hdis) rfl)
    refine ⟨hp, hd, fun _ hst hno => hset ?_, nofun⟩
    rw [applyOutput_continues he] at hst
    rw [happ.isPrefillChunk, rejectDrafts_isPrefillChunk] at hno
    exact h.settled rfl hst hno
  | stop r r1 step o fl hfin hout he hgo =>
    cases hr'
    obtain ⟨k, happ⟩ := applyOutput_appended he
    have h := hv r rfl hfin
    have hdis : (r.rejectDrafts step o).asyncTokensToDiscard ≤ 0 := by simpa using h.discard
    -- The request waits for more input, so it is a session and its output was not cut.
    have hres : r1.resumable := (handleStopped_waits hgo).resumable
    have hres0 : r.resumable := by
      have := happ.resumable hres
      rwa [(rejectDrafts_same step o r).2.1] at this
    have hk : k = o.numGenerated := by
      rcases Nat.eq_zero_or_pos o.numGenerated with hz | hpos
      · have := happ.le
        omega
      · exact (happ.kept (.inr hdis) hpos).trans (hout.2 hres0)
    obtain ⟨hp, hd, -⟩ := h.output hout.1 happ hk
    have hstop := handleStopped_waits hgo
    exact ⟨hstop.numOutputPlaceholders.trans hp, hstop.asyncTokensToDiscard.trans_le hd,
      fun _ e => absurd e hstop.not_running, nofun⟩
  | lastOutput r r'' step fl hgone => exact absurd (hgone r' hr') hfin'
  | reset r hst =>
    cases hr'
    have h := hv r rfl (by rw [hst]; decide)
    exact ⟨rfl, h.placeholders.le, fun _ => nofun, nofun⟩

lemma countsInFlight_steps (h : ViewSteps true untrimmed v w) (hv : v.CountsInFlight) :
    w.CountsInFlight := by
  induction h with
  | refl => exact hv
  | tail _ he ih => exact countsInFlight_step he ih

end RequestView

lemma CountsInFlight.applyOutput_ok {r : SchedRequest} {step : ScheduledStep}
    {fl : List ScheduledStep} (h : CountsInFlight r [] (step :: fl)) {o : RequestOutput}
    (hret : ReturnsTokens step o) :
    ∃ r' stopped, r.applyOutput true step o = .ok (r', stopped) := by
  obtain ⟨hnonneg, hle, hsum, hpos⟩ := takenBack_spec hret
  have hp := h.placeholders
  have hd := h.discard
  have hfl := placeholdersInFlight_nonneg fl
  have hkept := o.kept_le
  rw [placeholdersInFlight_cons] at hp
  have hcheck : ∃ res, (r.rejectDrafts step o).checkStop true o = .ok res := by
    unfold checkStop
    split
    · rw [if_pos rfl, asyncUpdateWithOutput, rejectDrafts_asyncTokensToDiscard, if_neg (by omega),
        updateWithOutput_eq]
      have hassert : 0 ≤ (r.rejectDrafts step o).numOutputPlaceholders - (o.kept.1 : ℤ) := by
        rw [rejectDrafts_numOutputPlaceholders]
        split <;> omega
      dsimp only
      rw [pyAssert_pos hassert]
      exact ⟨_, rfl⟩
    split
    · exact ⟨_, rfl⟩
    · exact ⟨_, rfl⟩
  obtain ⟨⟨r1, k, stopped⟩, hc⟩ := hcheck
  rw [applyOutput, hc, ok_bind]
  dsimp only
  split
  · exact ⟨_, _, rfl⟩
  · exact ⟨_, _, rfl⟩

namespace Scheduler

lemma updateRequest_ok {call : UpdateCall} {u : UpdateState} {entry : String × ScheduledStep}
    {todo : SchedulerOutput}
    (hview : ∀ rid ∉ call.failedIds, (u.view (entry :: todo) rid).CountsInFlight)
    (hout : GivesOutput untrimmed call u entry) :
    ∃ u', updateRequest true call u entry = .ok u' := by
  unfold updateRequest
  split
  · exact ⟨_, rfl⟩
  rename_i hid
  split
  · exact ⟨_, rfl⟩
  rename_i r hreq
  split
  · exact ⟨_, rfl⟩
  rename_i hfin
  have h := hview entry.1 hid r hreq hfin
  have hcons : stepsOf (entry :: todo) entry.1 = entry.2 :: stepsOf todo entry.1 :=
    stepsOf_cons_self entry.1 entry.2 todo
  simp only [UpdateState.view, hcons, List.cons_append] at h
  obtain ⟨r', stopped, happ⟩ := h.applyOutput_ok (hout hid r hreq hfin).1
  rw [processOutput, happ, ok_bind]
  dsimp only
  split
  · exact ⟨_, rfl⟩
  · exact ⟨_, rfl⟩

/-- In every run of `AsyncScheduler` in which the model runner returns tokens as it should and no
session is cut before its last returned token: the placeholders of a request are the sum over its
steps in flight that produce tokens, a running request past its prefill has computed all but one of
its tokens and placeholders, and the assertion on the placeholders never fails. -/
theorem placeholders_count_inflight {calls : List Call} {s : Scheduler}
    (hrun : Machine.Run (step true) (Meets untrimmed true) {} calls s) :
    (∀ rid r, s.requests rid = some r → ¬ r.status.isFinished →
      r.numOutputPlaceholders = placeholdersInFlight (s.inflightOf rid) ∧
        (r.status = .running → r.isPrefillChunk = false →
          r.numComputedTokens = r.numTokens - 1 + r.numOutputPlaceholders)) ∧
      ∀ call out inflight, s.inflight = out :: inflight → GivesOutputs untrimmed true s call →
        ∃ u, updateRequests true call out (call.handleInvalidBlocks { s with inflight }) =
          .ok u := by
  have hinv (rid : String) : (s.view rid).CountsInFlight :=
    view_invariant (fun _ _ h hv => RequestView.countsInFlight_step h hv) nofun hrun rid
  refine ⟨fun rid r hreq hfin => ?_, fun call out inflight hinflight hout => ?_⟩
  · have h := hinv rid r hreq hfin
    exact ⟨h.placeholders, h.settled rfl⟩
  refine (hout.2 out inflight hinflight).exists_ok
    (P := fun todo u => ∀ rid ∉ call.failedIds, (UpdateState.view u todo rid).CountsInFlight)
    (fun u entry todo hview hok => ?_) (fun rid hrid => ?_)
  · obtain ⟨u', hu'⟩ := updateRequest_ok hview hok
    refine ⟨u', hu', fun rid hrid => ?_⟩
    have hsteps : ViewSteps true untrimmed (u.view (entry :: todo) rid) (u'.view todo rid) :=
      updateRequest_view hrid hok hu'
    exact RequestView.countsInFlight_steps hsteps (hview rid hrid)
  · exact RequestView.countsInFlight_steps
      (handleInvalidBlocks_view hout.1 hrid hinflight) (hinv rid)

/-- A session decodes with two drafts, three tokens are returned, and the first of them stops it. -/
def trimmedSession : List Call :=
  [.addRequest "r" { numTokens := 10, resumable := true },
   .schedule { waiting := [("r", { action := .start 0 16 })], numSpecTokens := 2 },
   .updateFromOutput { outputs := fun _ => { numGenerated := 1 } },
   .schedule { running := [("r", .run 16)], numSpecTokens := 2 },
   .updateFromOutput { outputs := fun _ => { numGenerated := 3, stopAfter := some (1, .stopped) } }]

/-- Nothing is in flight, but the session keeps the placeholders of the two tokens cut off. -/
theorem trimmed_session_keeps_placeholder :
    ∃ s, Machine.Run (step true) (Meets returnsTokens true) {} trimmedSession s ∧
      ∃ r, s.requests "r" = some r ∧ r.status = .waitingForStreamingReq ∧
        r.numOutputPlaceholders = 2 ∧ placeholdersInFlight (s.inflightOf "r") = 0 := by
  have hout (step : ScheduledStep) (o : RequestOutput) (h : ReturnsTokens step o)
    (r : SchedRequest) :
      returnsTokens.output r step o := h
  exact ⟨_, .cons (fun _ => rfl) rfl (.cons (allocatesSchedule_start rfl rfl trivial) rfl
    (.cons (givesOutputs_single rfl (hout _ _ ⟨by decide, by decide⟩)) rfl
    (.cons (allocatesSchedule_run rfl rfl trivial) rfl
    (.cons (givesOutputs_single rfl (hout _ _ ⟨by decide, by decide⟩)) rfl (.nil _))))),
    _, rfl, rfl, rfl, rfl⟩

def draftedRequest : List Call :=
  [.addRequest "r" { numTokens := 10 },
   .schedule { waiting := [("r", { action := .start 0 16 })], numSpecTokens := 2 },
   .schedule { running := [("r", .run 16)], numSpecTokens := 2 },
   .updateFromOutput { outputs := fun _ => { numGenerated := 1 } }]

/-- A request with drafts, of whose two steps the second is in flight. -/
theorem draftedRequest_counts :
    ∃ s, Machine.Run (step true) (Meets untrimmed true) {} draftedRequest s ∧
      ∃ r, s.requests "r" = some r ∧
      r.numOutputPlaceholders = placeholdersInFlight (s.inflightOf "r") := by
  refine Exists.imp (fun s (h : Machine.Run _ _ _ _ s ∧ ∃ r, s.requests "r" = some r ∧
    r.status = .running) =>
    ⟨h.1,
      h.2.imp fun r hr =>
      ⟨hr.1, ((placeholders_count_inflight h.1).1 "r" r hr.1 (by rw [hr.2]; decide)).1⟩⟩)
    ⟨_, .cons (fun _ => rfl) rfl (.cons (allocatesSchedule_start rfl rfl trivial) rfl
      (.cons (allocatesSchedule_run rfl rfl trivial) rfl
      (.cons (givesOutputs_single rfl fun _ => ⟨⟨by decide, by decide⟩, fun _ => rfl⟩) rfl
        (.nil _)))), _, rfl, rfl⟩

end Scheduler

end Vllm
