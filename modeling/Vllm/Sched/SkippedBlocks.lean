import Vllm.Sched.Placeholders
import Vllm.KVCache.AllocateSlotsRuns

/-!
# Removed blocks and rejected drafts

In the async scheduler `num_computed_tokens` counts the drafts in flight, and a rejection moves the
window back.
-/

namespace Vllm

open List Option SchedRequest SingleTypeKVCacheManager

/-- The query at position `q` attends to the key at position `k`. -/
def AttentionType.NeedsKey : AttentionType → ℤ → ℤ → Prop
  | .slidingWindow w, q, k => q - w < k ∧ k ≤ q
  | .chunkedLocal c, q, k => q / c * c ≤ k ∧ k ≤ q
  | _, q, k => 0 ≤ k ∧ k ≤ q

/-- A sliding window or chunks, of at least one token. -/
def AttentionType.Windowed : AttentionType → Prop
  | .slidingWindow w => 0 < w
  | .chunkedLocal c => 0 < c
  | _ => False

variable {att : AttentionType}

lemma AttentionType.not_needsKey (hatt : att.Windowed) {q k : ℤ} (hk0 : 0 ≤ k)
    (hk : k < getNumSkippedTokens att q) : ¬ att.NeedsKey q k := by
  cases att with
  | slidingWindow w =>
    simp only [getNumSkippedTokens, NeedsKey] at hk ⊢
    omega
  | chunkedLocal c =>
    simp only [getNumSkippedTokens, NeedsKey] at hk ⊢
    omega
  | full => exact hatt.elim
  | mamba _ _ => exact hatt.elim
  | crossAttention => exact hatt.elim

variable (steps : List ScheduledStep)

def draftsInFlight : ℤ := (steps.map fun e => (e.numDraftTokens : ℤ)).sum

@[simp] lemma draftsInFlight_cons (step : ScheduledStep) (steps : List ScheduledStep) :
    draftsInFlight (step :: steps) = step.numDraftTokens + draftsInFlight steps := by
  simp [draftsInFlight]

lemma draftsInFlight_snoc (step : ScheduledStep) :
    draftsInFlight (steps ++ [step]) = draftsInFlight steps + step.numDraftTokens := by
  simp [draftsInFlight]

/-- The tokens of the newest step in flight that are no drafts. -/
def newestTokens : ℤ :=
  (steps.getLast?.map fun e => (e.numScheduledTokens : ℤ) - e.numDraftTokens).getD 0

lemma newestTokens_snoc (step : ScheduledStep) :
    newestTokens (steps ++ [step]) = step.numScheduledTokens - step.numDraftTokens := by
  simp [newestTokens]

lemma newestTokens_nonneg {steps : List ScheduledStep}
    (h : ∀ step ∈ steps, step.numDraftTokens ≤ step.numScheduledTokens) :
    0 ≤ newestTokens steps := by
  unfold newestTokens
  cases hlast : steps.getLast? with
  | none => exact le_rfl
  | some step =>
    have := h step (mem_of_getLast? hlast)
    simp only [map_some, getD_some]
    omega

lemma newestTokens_le_cons {step : ScheduledStep}
    (h : step.numDraftTokens ≤ step.numScheduledTokens) :
    newestTokens steps ≤ newestTokens (step :: steps) := by
  cases steps with
  | nil =>
    simp only [newestTokens, getLast?_nil, getLast?_singleton, map_none, map_some, getD_none,
      getD_some]
    omega
  | cons step' steps => simp [newestTokens]

variable (r : SchedRequest) (steps : List ScheduledStep)

/-- The least position that a step scheduled from now on can compute if every draft in flight is
rejected. -/
def nextQuery : ℤ :=
  r.numComputedTokens - draftsInFlight steps

/-- The least position of a step scheduled with or after the last removal, as the newest step in
flight of a running request was. -/
def firstQuery : ℤ :=
  nextQuery r steps - if r.status = .running then newestTokens steps else 0

/-- The blocks before the window at `n` are before the window at `n'`. -/
def BlocksBefore (att : AttentionType) (bs : ℕ) (n n' : ℤ) : Prop :=
  ∀ i : ℕ, ((i : ℤ) + 1) * bs ≤ getNumSkippedTokens att n →
    ((i : ℤ) + 1) * bs ≤ getNumSkippedTokens att n'

lemma BlocksBefore.mono {bs : ℕ} {n a b : ℤ} (h : BlocksBefore att bs n a)
    (hab : a ≤ b) : BlocksBefore att bs n b := fun i hi =>
  (h i hi).trans (getNumSkippedTokens_mono att hab)

/-- `allocate_slots` removes only blocks that it would also remove with every draft rejected, and
the synchronous scheduler has all outputs. -/
def removesSame (async : Bool) (att : AttentionType) (bs : ℕ) : Assumption where
  allocate r steps := BlocksBefore att bs r.numComputedTokens (nextQuery r steps) ∧
    (async = false → r.numComputedTokens ≤ r.numTokens)
  output _ := ReturnsTokens

/-! ## The invariant -/

/-- The blocks removed for the request are needed by no step chosen or in flight. -/
structure KeepsWindow (async : Bool) (att : AttentionType) (bs : ℕ) (r : SchedRequest)
    (chosen inflight : List ScheduledStep) : Prop where
  placeholders : if async then placeholdersInFlight inflight ≤ r.numOutputPlaceholders
    else r.numOutputPlaceholders = 0
  drafts : ∀ step ∈ inflight, step.numDraftTokens ≤ step.numScheduledTokens
  remote : r.status = .waitingForRemoteKvs → r.removedAt = []
  settled : async = true → chosen = [] → r.status = .running →
    r.numComputedTokens ≤ r.numTokens + r.numOutputPlaceholders
  recorded : ∀ step rest, chosen = step :: rest → rest = [] ∧ r.status = .running ∧
    step.numDraftTokens ≤ step.numScheduledTokens ∧
    r.numComputedTokens + step.numScheduledTokens ≤
      r.numTokens + r.numOutputPlaceholders + step.numDraftTokens
  before : chosen = [] → ∀ n ∈ r.removedAt, BlocksBefore att bs n (firstQuery r inflight)
  beforeRecorded : chosen ≠ [] → ∀ n ∈ r.removedAt, BlocksBefore att bs n (nextQuery r inflight)

namespace KeepsWindow

variable {async : Bool} {att : AttentionType} {bs : ℕ} {r r' : SchedRequest}
  {c fl : List ScheduledStep} {step : ScheduledStep}

section

variable (h : KeepsWindow async att bs r c fl)
include h

lemma placeholders_nonneg : 0 ≤ r.numOutputPlaceholders := by
  have hfl := placeholdersInFlight_nonneg fl
  have hp := h.placeholders
  split at hp <;> omega

lemma chosen_eq_nil (hst : r.status ≠ .running) : c = [] := by
  cases c with
  | nil => rfl
  | cons step rest => exact absurd (h.recorded step rest rfl).2.1 hst

lemma firstQuery_le_nextQuery : firstQuery r fl ≤ nextQuery r fl := by
  have := newestTokens_nonneg h.drafts
  unfold firstQuery
  split <;> omega

lemma before_next : ∀ n ∈ r.removedAt, BlocksBefore att bs n (nextQuery r fl) := by
  intro n hn
  cases c with
  | nil => exact (h.before rfl n hn).mono h.firstQuery_le_nextQuery
  | cons step rest => exact h.beforeRecorded nofun n hn

end

lemma of_waiting (h : KeepsWindow async att bs r [] fl)
    (hp : r'.numOutputPlaceholders = r.numOutputPlaceholders)
    (hnc : r'.numComputedTokens = r.numComputedTokens) (hrem : r'.removedAt = r.removedAt)
    (hst : r'.status ≠ .running) (hremote : r'.status ≠ .waitingForRemoteKvs) :
    KeepsWindow async att bs r' [] fl := by
  refine ⟨by rw [hp]; exact h.placeholders, h.drafts, fun e => absurd e hremote,
    fun _ _ e => absurd e hst, nofun, fun _ n hn => ?_, fun e => absurd rfl e⟩
  have hquery : firstQuery r' fl = nextQuery r fl := by simp [firstQuery, nextQuery, hst, hnc]
  rw [hquery]
  exact h.before_next n (hrem ▸ hn)

lemma of_noBlocks (h : KeepsWindow async att bs r c fl)
    (hp : r'.numOutputPlaceholders = r.numOutputPlaceholders) (hrem : r'.removedAt = [])
    (hst : r'.status ≠ .running) : KeepsWindow async att bs r' [] fl := by
  refine ⟨by rw [hp]; exact h.placeholders, h.drafts, fun _ => hrem, fun _ _ e => absurd e hst,
    nofun,
    fun _ n hn => ?_, fun e => absurd rfl e⟩
  rw [hrem] at hn
  cases hn

lemma run (h : KeepsWindow async att bs r [] fl) {limit : ℕ} (hst : r.status = .running)
    (hal : (removesSame async att bs).allocate r fl)
    (he : r.scheduleRunning limit = some (step, r')) : KeepsWindow async att bs r' [step] fl := by
  obtain ⟨n, hn, hle, rfl, rfl⟩ := scheduleRunning_eq_some he
  refine ⟨h.placeholders, h.drafts, fun e => absurd (hst.symm.trans e) nofun, nofun,
    fun step rest e => ?_, nofun, fun _ m hm => ?_⟩
  · obtain ⟨rfl, rfl⟩ := cons.inj e
    have hcomputed : r.numComputedTokens ≤ r.numTokens + r.numOutputPlaceholders := by
      cases async with
      | true => exact h.settled rfl rfl hst
      | false =>
        have := h.placeholders_nonneg
        have := hal.2 rfl
        omega
    refine ⟨rfl, hst, ?_⟩
    simp only [numScheduledSpecTokens, numNewTokens] at hle ⊢
    omega
  rcases mem_cons.mp hm with rfl | hm
  · exact hal.1
  · exact h.before_next m hm

lemma start (h : KeepsWindow async att bs r c fl) {computed : ℤ} {n : ℕ}
    (hal : (removesSame async att bs).allocate r fl)
    (hcomputed : computed = r.numComputedTokens ∨ r.numComputedTokens = 0 ∧ 0 ≤ computed)
    (hle : computed + n ≤ r.numTokens) :
    KeepsWindow async att bs (r.start computed) [{ numScheduledTokens := n }] fl := by
  refine ⟨h.placeholders, h.drafts, nofun, nofun, fun step rest e => ?_, nofun, fun _ m hm => ?_⟩
  · obtain ⟨rfl, rfl⟩ := cons.inj e
    have := h.placeholders_nonneg
    refine ⟨rfl, rfl, Nat.zero_le n, ?_⟩
    simp only [SchedRequest.start]
    omega
  simp only [SchedRequest.start] at hm
  split at hm
  · cases hm
  rename_i hnz
  -- A request with blocks goes on where it was.
  obtain rfl := hcomputed.resolve_right fun hz => hnz hz.1
  rcases mem_cons.mp hm with rfl | hm
  · exact hal.1
  · exact h.before_next m hm

lemma advance (h : KeepsWindow async att bs r (step :: c) fl) (numSpec : ℕ) :
    KeepsWindow async att bs (r.updateAfterSchedule async numSpec step).1 c
      (fl ++ [(r.updateAfterSchedule async numSpec step).2]) := by
  obtain ⟨rfl, hst, hd, hle⟩ := h.recorded step c rfl
  have hp := h.placeholders
  have hdrafts (pre : Bool) : ∀ e ∈ fl ++ [{ step with isPrefillChunk := pre }],
      e.numDraftTokens ≤ e.numScheduledTokens := by
    intro e he
    rcases mem_append.mp he with he | he
    · exact h.drafts e he
    · obtain rfl := mem_singleton.mp he
      exact hd
  -- The new step starts where the next query was.
  have hquery (pre : Bool) (q : SchedRequest) (hq : q.status = .running)
      (hnc : q.numComputedTokens = r.numComputedTokens + step.numScheduledTokens) :
      firstQuery q (fl ++ [{ step with isPrefillChunk := pre }]) = nextQuery r fl := by
    simp only [firstQuery, nextQuery, hq, hnc, if_true, newestTokens_snoc, draftsInFlight_snoc]
    omega
  simp only [updateAfterSchedule]
  split
  next hasync =>
    obtain ⟨rfl, hpre⟩ := (Bool.and_eq_true _ _).mp hasync
    refine ⟨?_, hdrafts _, fun e => absurd (hst.symm.trans e) (by decide), fun _ _ _ => ?_, by simp,
      fun _ n hn => ?_, fun e => absurd rfl e⟩
    · rw [if_pos rfl] at hp ⊢
      rw [placeholdersInFlight_snoc, ScheduledStep.placeholders]
      dsimp only
      omega
    · dsimp only
      omega
    · rw [hquery]
      exacts [h.beforeRecorded (cons_ne_nil _ _) n hn, hst, rfl]
  rename_i hasync
  refine ⟨?_, hdrafts _, fun e => absurd (hst.symm.trans e) (by decide), fun ha _ _ => ?_, by simp,
    fun _ n hn => ?_, fun e => absurd rfl e⟩
  · cases async with
    | false => exact hp
    | true =>
      simp only [Bool.true_and, Bool.not_eq_true', decide_eq_false_iff_not, not_not] at hasync
      rw [if_pos rfl] at hp ⊢
      rw [placeholdersInFlight_snoc, ScheduledStep.placeholders]
      simp only [hasync, decide_true, if_true]
      omega
  · subst ha
    simp only [Bool.true_and, Bool.not_eq_true', decide_eq_false_iff_not, not_not] at hasync
    dsimp only
    omega
  · rw [hquery]
    exacts [h.beforeRecorded (cons_ne_nil _ _) n hn, hst, rfl]

lemma output (h : KeepsWindow async att bs r [] (step :: fl)) {o : RequestOutput} {k : ℕ}
    {stopped : Bool} (hret : ReturnsTokens step o)
    (happ : Appended async o (r.rejectDrafts step o) r' k stopped) :
    (if async then placeholdersInFlight fl ≤ r'.numOutputPlaceholders else
      r'.numOutputPlaceholders = 0) ∧
    (r.numComputedTokens ≤ r.numTokens + r.numOutputPlaceholders → async = true →
      r'.numComputedTokens ≤ r'.numTokens + r'.numOutputPlaceholders) ∧
      nextQuery r (step :: fl) ≤ nextQuery r' fl := by
  obtain ⟨hnonneg, hle, hsum, hpos⟩ := takenBack_spec hret
  have hfl := placeholdersInFlight_nonneg fl
  have hp := h.placeholders
  have hplace := happ.numOutputPlaceholders
  have hcomp := happ.numComputedTokens
  have htok := happ.numTokens
  have hk := happ.le
  rw [rejectDrafts_numOutputPlaceholders] at hplace
  rw [rejectDrafts_numComputedTokens] at hcomp
  rw [rejectDrafts_numTokens] at htok
  refine ⟨?_, fun hset hasync => ?_, ?_⟩
  · cases async with
    | true =>
      simp only [if_true, placeholdersInFlight_cons] at hp hplace ⊢
      split at hplace <;> omega
    | false =>
      simp only [Bool.false_eq_true, if_false] at hp hplace ⊢
      omega
  · subst hasync
    simp only [if_true, placeholdersInFlight_cons] at hp hplace
    split at hplace <;> split at hcomp <;> omega
  unfold nextQuery
  rw [draftsInFlight_cons]
  split at hcomp <;> omega

end KeepsWindow

def RequestView.KeepsWindow (async : Bool) (att : AttentionType) (bs : ℕ) (v : RequestView) :
    Prop :=
  ∀ r, v.request = some r → ¬ r.status.isFinished →
    Vllm.KeepsWindow async att bs r v.chosen v.inflight

namespace RequestView

/-- Every step of a request keeps the removed blocks out of its windows. -/
lemma keepsWindow_step {async : Bool} {att : AttentionType} {bs : ℕ} {v w : RequestView}
    (h : ViewStep async (removesSame async att bs) v w) (hv : v.KeepsWindow async att bs) :
    w.KeepsWindow async att bs := by
  intro r' hr' hfin'
  cases h with
  | add new =>
    cases hr'
    refine ⟨?_, by simp, fun _ => rfl, fun _ _ hst => ?_, by simp,
      fun _ _ hn => absurd hn not_mem_nil,
      fun e => absurd rfl e⟩
    · cases async <;> simp [Scheduler.NewRequest.toRequest]
    · simp only [Scheduler.NewRequest.toRequest] at hst
      split at hst <;> cases hst
  | queueInput r queue c fl =>
    cases hr'
    have h := hv r rfl hfin'
    exact ⟨h.placeholders, h.drafts, h.remote, h.settled, h.recorded, h.before, h.beforeRecorded⟩
  | session r numNew c fl hst =>
    cases hr'
    have h := hv r rfl (by rw [hst]; decide)
    obtain rfl := h.chosen_eq_nil (by rw [hst]; decide)
    exact h.of_waiting rfl rfl rfl (fun e => by cases e) fun e => by cases e
  | finish r r'' c fl hgone => exact absurd (hgone r' hr') hfin'
  | drafts r n c fl =>
    cases hr'
    have h := hv r rfl hfin'
    exact ⟨h.placeholders, h.drafts, h.remote, h.settled, h.recorded, h.before, h.beforeRecorded⟩
  | run r r1 limit step fl hst hal he =>
    cases hr'
    exact (hv r rfl (by rw [hst]; decide)).run hst hal he
  | preempt r c fl hst =>
    cases hr'
    exact (hv r rfl (by rw [hst]; decide)).of_noBlocks rfl rfl fun e => by cases e
  | unknown => cases hr'
  | promote r r1 ready c fl he =>
    cases hr'
    obtain ⟨rfl, -⟩ | hp := tryPromote_cases he
    · exact hv _ rfl hfin'
    have h := hv r rfl hp.unfinished
    obtain rfl : c = [] := h.chosen_eq_nil fun e => by
      rcases hp.blocked with e' | e' <;> simp [e] at e'
    by_cases hremote : r.status = .waitingForRemoteKvs
    · exact h.of_noBlocks hp.numOutputPlaceholders (hp.removedAt.trans (h.remote hremote))
        hp.not_running
    · exact h.of_waiting hp.numOutputPlaceholders (hp.numComputedTokens hremote) hp.removedAt
        hp.not_running (tryPromote_not_remote he)
  | refuse r c fl hst hremote hal =>
    cases hr'
    have h := hv r rfl hfin'
    have hrun : r.status ≠ .running := RequestStatus.not_running_of_waits hst
    obtain rfl : c = [] := h.chosen_eq_nil hrun
    refine ⟨h.placeholders, h.drafts, fun e => absurd e hremote, fun _ _ e => absurd e hrun,
      by simp,
      fun _ n hn => ?_, fun e => absurd rfl e⟩
    have hquery (removedAt : List ℤ) : firstQuery { r with removedAt } fl = nextQuery r fl := by
      simp [firstQuery, nextQuery, hrun]
    rw [hquery]
    rcases mem_cons.mp hn with rfl | hn
    · exact hal.1
    · exact h.before_next n hn
  | loadAsync r n c fl hst hal hzero hn =>
    cases hr'
    have h := hv r rfl (RequestStatus.unfinished_of_waits hst)
    obtain rfl : c = [] := h.chosen_eq_nil (RequestStatus.not_running_of_waits hst)
    exact h.of_noBlocks rfl rfl fun e => by cases e
  | loadFailed r n c fl hst =>
    cases hr'
    have h := hv r rfl hfin'
    have hrun : r.status ≠ .running := by simp [hst]
    obtain rfl : c = [] := h.chosen_eq_nil hrun
    exact h.of_noBlocks rfl (h.remote hst) hrun
  | start r computed n c fl hst hal hcomputed hn hle =>
    cases hr'
    exact (hv r rfl (RequestStatus.unfinished_of_waits hst)).start hal hcomputed hle
  | advance r numSpec step c fl =>
    cases hr'
    rw [Scheduler.updateAfterSchedule_status] at hfin'
    exact (hv r rfl hfin').advance numSpec
  | output r r1 step o fl hfin hout he =>
    obtain rfl := some.inj hr'
    obtain ⟨k, happ⟩ := applyOutput_appended he
    have h := hv r rfl hfin
    obtain ⟨hp, hset, hquery⟩ := h.output hout happ
    have hst := applyOutput_continues he
    have hrem : r1.removedAt = r.removedAt := by rw [happ.removedAt, rejectDrafts_removedAt]
    refine ⟨hp, fun e he => h.drafts e (mem_cons_of_mem _ he), fun e => ?_, fun ha _ e => ?_,
      by simp,
      fun _ n hn => ?_, fun e => absurd rfl e⟩
    · rw [hrem]
      exact h.remote (hst ▸ e)
    · exact hset (h.settled ha rfl (hst ▸ e)) ha
    refine (h.before rfl n (hrem ▸ hn)).mono ?_
    have hnew := newestTokens_le_cons fl (h.drafts step mem_cons_self)
    dsimp only
    unfold firstQuery
    rw [hst]
    split <;> omega
  | stop r r1 step o fl hfin hout he hgo =>
    cases hr'
    obtain ⟨k, happ⟩ := applyOutput_appended he
    have h := hv r rfl hfin
    obtain ⟨hp, -, hquery⟩ := h.output hout happ
    have hstop := handleStopped_waits hgo
    have hrem : r1.handleStopped.1.removedAt = r.removedAt := by
      rw [hstop.removedAt, happ.removedAt, rejectDrafts_removedAt]
    refine ⟨by rw [hstop.numOutputPlaceholders]; exact hp,
      fun e he => h.drafts e (mem_cons_of_mem _ he), fun e => ?_,
      fun _ _ e => absurd e hstop.not_running, by simp, fun _ n hn => ?_, fun e => absurd rfl e⟩
    · rcases hstop.status with e' | e' <;> simp [e'] at e
    · refine (h.before_next n (hrem ▸ hn)).mono (hquery.trans_eq ?_)
      simp [firstQuery, nextQuery, hstop.not_running, hstop.numComputedTokens]
  | lastOutput r r'' step fl hgone => exact absurd (hgone r' hr') hfin'
  | reset r hst =>
    cases hr'
    refine ⟨?_, by simp, fun _ => rfl, fun _ _ e => ?_, by simp,
      fun _ _ hn => absurd hn not_mem_nil, fun e => absurd rfl e⟩
    · cases async <;> simp
    · cases e

end RequestView

namespace Scheduler

/-- In every run in which every call of `allocate_slots` removes only blocks that it would also
remove with all drafts in flight rejected: if `remove_skipped_blocks` frees entry `i` of a request,
then no query of the step scheduled with it or of a later one needs a key of that block. -/
theorem removed_blocks_not_needed {async : Bool} {att : AttentionType} {bs : ℕ}
    (hatt : att.Windowed) (hbs : 0 < bs) {calls : List Call} {s : Scheduler}
    (hrun : Machine.Run (step async) (Meets (removesSame async att bs) async) {} calls s)
    {rid : String} {r : SchedRequest} (hreq : s.requests rid = some r)
    (hfin : ¬ r.status.isFinished)
    {n : ℤ} (hn : n ∈ r.removedAt) {m m' : SingleTypeKVCacheManager} {p p' : BlockPool}
    (hspec : m.spec.attention = att) (hsize : m.blockSize = bs)
    (hremove : m.removeSkippedBlocks p rid n = .ok (m', p')) {i : ℕ}
    (hfreed : (m'.blocksOf rid)[i]? ≠ (m.blocksOf rid)[i]?) {q k : ℤ}
    (hq : firstQuery r (s.inflightOf rid) ≤ q) (hk : (i : ℤ) * bs ≤ k)
    (hk' : k < ((i : ℤ) + 1) * bs) :
    ¬ att.NeedsKey q k := by
  have hinv : (s.view rid).KeepsWindow async att bs :=
    view_invariant (fun _ _ h hv => RequestView.keepsWindow_step h hv) nofun hrun rid
  have hbefore := (hinv r hreq hfin).before rfl n hn
  -- The freed entry lies before the window at the removal, so it lies before every later one.
  have hbase : m.baseRemoveSkippedBlocks p rid n = (m', p') := by
    unfold removeSkippedBlocks at hremove
    rw [hspec] at hremove
    cases att with
    | slidingWindow w => exact Except.ok.inj hremove
    | chunkedLocal c => exact Except.ok.inj hremove
    | full => exact hatt.elim
    | mamba _ _ => exact hatt.elim
    | crossAttention => exact hatt.elim
  have hentries := (baseRemoveSkippedBlocks_entries (m := m) (hsize ▸ hbs) p
    rid (le_refl n)).entries i
  rw [hbase, hspec, hsize] at hentries
  have hskipped := hbefore.mono hq i (hentries.resolve_left hfreed).2
  have hk0 : 0 ≤ k := (mul_nonneg (Int.natCast_nonneg i) (Int.natCast_nonneg bs)).trans hk
  exact AttentionType.not_needsKey hatt hk0 (hk'.trans_le hskipped)

/-- A group with a sliding window of two tokens and blocks of one token, and the table of a
request. -/
def windowManager (blocks : List ℕ) : SingleTypeKVCacheManager where
  spec := ⟨.slidingWindow 2, 1, 0⟩
  blockSize := 1
  enableCaching := false
  kvCacheGroupId := 0
  schedulerBlockSize := 1
  reqToBlocks := AList.insert "r" blocks ∅

def draftsInFlightRun : List Call :=
  [.addRequest "r" { numTokens := 3 },
   .schedule { waiting := [("r", { action := .start 0 16 })], numSpecTokens := 2 },
   .schedule { running := [("r", .run 16)], numSpecTokens := 2 }]

/-- Drafts are in flight, and the removed blocks are out of the window of every query. -/
theorem windowManager_removed_not_needed : ∃ s r, Machine.Run (step true)
    (Meets (removesSame true (.slidingWindow 2) 1) true) {} draftsInFlightRun s ∧
    s.requests "r" = some r ∧ 3 ∈ r.removedAt ∧ ¬ (AttentionType.slidingWindow 2).NeedsKey 3 1 := by
  have hrun : ∃ s, Machine.Run (step true) (Meets (removesSame true (.slidingWindow 2) 1) true) {}
      draftsInFlightRun s ∧ ∃ r, s.requests "r" = some r ∧ r.status = .running ∧ r.removedAt = [3] ∧
      firstQuery r (s.inflightOf "r") = 3 := by
    exact ⟨_,
      .cons (fun _ => rfl) rfl (.cons (allocatesSchedule_start rfl rfl ⟨fun _ hi => hi, nofun⟩) rfl
      (.cons (allocatesSchedule_run rfl rfl ⟨fun _ hi => hi, nofun⟩) rfl (.nil _))), _, rfl, rfl,
        rfl, rfl⟩
  obtain ⟨s, hs, r, hreq, hst, hrem, hquery⟩ := hrun
  have hwindow : (AttentionType.slidingWindow 2).Windowed := Nat.two_pos
  refine ⟨s, r, hs, hreq, by rw [hrem]; exact mem_singleton_self 3, ?_⟩
  refine removed_blocks_not_needed hwindow (by decide) hs hreq (by rw [hst]; decide)
    (by rw [hrem]; exact mem_singleton_self 3) (m := windowManager [1, 2, 3])
    (p := BlockPool.init 8 false 1 false false) rfl rfl rfl (i := 1) ?_ hquery.le
    (by decide) (by decide)
  decide

/-- Drafts are rejected while the next step is in flight. -/
def rejectedDraftsRun : List Call :=
  draftsInFlightRun ++
  [.updateFromOutput { outputs := fun _ => { numGenerated := 1 } },
   .schedule { running := [("r", .run 16)], numSpecTokens := 2 },
   .updateFromOutput { outputs := fun _ => { numGenerated := 1 } },
   .updateFromOutput { outputs := fun _ => { numGenerated := 1 } }]

/-- The third step was scheduled at token 6 with two drafts in flight. After all drafts were
rejected the request goes on at token 5, which needs the key at 4; its block was removed at 6. -/
theorem rejected_drafts_need_removed_block : ∃ s r, Machine.Run (step true)
    (Meets returnsTokens true) {} rejectedDraftsRun s ∧ s.requests "r" = some r ∧
    r.status = .running ∧ 6 ∈ r.removedAt ∧ nextQuery r (s.inflightOf "r") = 5 ∧
    (∃ m' pool', (windowManager [1, 2, 3, 4, 5, 6]).removeSkippedBlocks
      (BlockPool.init 8 false 1 false false) "r" 6 = .ok (m', pool') ∧
      m'.blocksOf "r" = [0, 0, 0, 0, 0, 6]) ∧
    (AttentionType.slidingWindow 2).NeedsKey 5 4 := by
  have hout (step : ScheduledStep) (h : step.isPrefillChunk = false) (r : SchedRequest) :
      returnsTokens.output r step { numGenerated := 1 } := by
    simp [returnsTokens, ReturnsTokens, h]
  refine ⟨_, _, .cons (fun _ => rfl) rfl (.cons (allocatesSchedule_start rfl rfl trivial) rfl
    (.cons (allocatesSchedule_run rfl rfl trivial) rfl
    (.cons (givesOutputs_single rfl (hout _ rfl)) rfl
    (.cons (allocatesSchedule_run rfl rfl trivial) rfl
    (.cons (givesOutputs_single rfl (hout _ rfl)) rfl
    (.cons (givesOutputs_single rfl (hout _ rfl)) rfl (.nil _))))))),
    rfl, rfl, ?_, rfl, ⟨_, _, rfl, ?_⟩, ?_⟩
  · exact mem_cons_self
  · decide
  · exact ⟨by decide, by decide⟩

end Scheduler

end Vllm
