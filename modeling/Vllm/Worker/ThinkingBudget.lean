import Vllm.Worker.ReplayRuns

/-!
# Thinking budgets follow the batch

`ThinkingBudgetStateHolder.sync_batch` replays the moves of a step without clearing the other side.
-/

namespace Vllm.Worker

open Compaction InputBatch Machine List Function OrderedDict ThinkingBudgetStateHolder

variable {ε γ : Type}

section holder

variable {h : ThinkingBudgetStateHolder} {τ : Type}

/-- A one-way move brings an entry or finds none, a swap has entries on both sides or neither. -/
def MovedRequest.Benign (table : ℕ → Option τ) (mv : MovedRequest) : Prop :=
  match mv.direct with
  | .unidirectional => (table mv.i1).isSome ∨ table mv.i2 = none
  | .swap => (table mv.i1).isSome ↔ (table mv.i2).isSome

/-- Each move is benign when its turn comes. -/
def BenignMoves {τ : Type} : (ℕ → Option τ) → List MovedRequest → Prop
  | _, [] => True
  | table, mv :: moves => mv.Benign table ∧ BenignMoves (applyMove none table mv) moves

variable {table : ℕ → Option τ}

lemma benignMoves_append {moves moves' : List MovedRequest} : BenignMoves table (moves ++ moves') ↔
      BenignMoves table moves ∧ BenignMoves (moves.foldl (applyMove none) table) moves' := by
  induction moves generalizing table with
  | nil => simp [BenignMoves]
  | cons mv moves ih => rw [cons_append, BenignMoves, BenignMoves, ih, foldl_cons, and_assoc]

variable {moves : List MovedRequest}

lemma BenignMoves.clear {rows : List ℕ}
    (hb : BenignMoves table moves) (hrows : ∀ mv ∈ moves, mv.i1 ∉ rows ∧ mv.i2 ∉ rows) :
    BenignMoves (clear none rows table) moves := by
  induction moves generalizing table with
  | nil => trivial
  | cons mv moves ih =>
    obtain ⟨h1, h2⟩ := hrows mv mem_cons_self
    refine ⟨?_, ?_⟩
    · have hmv := hb.1
      unfold MovedRequest.Benign at hmv ⊢
      rwa [Worker.clear, Worker.clear, if_neg h1, if_neg h2]
    · rw [applyMove_clear h1 h2]
      exact ih hb.2 (forall_mem_cons.mp hrows).2

/-- The tokens and the flag that the holder was built with are the same. -/
structure SameConfig (h h' : ThinkingBudgetStateHolder) : Prop where
  isEnabled : h'.isEnabled = h.isEnabled
  newEntry : h'.newEntry = h.newEntry

lemma newEntry_congr {h' : ThinkingBudgetStateHolder}
    (hstart : h'.thinkStartTokenIds = h.thinkStartTokenIds)
    (hend : h'.thinkEndTokenIds = h.thinkEndTokenIds) : h'.newEntry = h.newEntry := by
  funext params prompt output
  unfold newEntry initStateEntry
  rw [hstart, hend]

lemma addState_spec (h : ThinkingBudgetStateHolder) (a : AddedRequest) :
    (h.addState a).state.get? = applyAdded h.newEntry h.state.get? a ∧ SameConfig h
    (h.addState a) := by
  unfold addState
  split
  next entry hentry =>
    refine ⟨?_, rfl, newEntry_congr rfl rfl⟩
    funext i
    rw [applyAdded, update_apply, hentry, get?_set]
  rename_i hentry
  refine ⟨?_, rfl, newEntry_congr rfl rfl⟩
  funext i
  rw [applyAdded, update_apply, hentry, get?_erase]

lemma removeState_spec (h : ThinkingBudgetStateHolder) (i : ℕ) :
    (h.removeState i).state.get? = update h.state.get? i none ∧ SameConfig h (h.removeState i) := by
  refine ⟨?_, rfl, newEntry_congr rfl rfl⟩
  funext j
  rw [removeState, get?_erase, update_apply]

lemma moveState_spec {mv : MovedRequest} (hproper : mv.Proper) (hbenign : mv.Benign h.state.get?) :
    (h.moveState mv).state.get? = applyMove none h.state.get? mv ∧ SameConfig h
    (h.moveState mv) := by
  rcases mv with ⟨i1, i2, _ | _⟩
  · have hne : i1 ≠ i2 := hproper rfl
    have hone : (h.state.get? i1).isSome ∨ h.state.get? i2 = none := hbenign
    unfold moveState
    cases h1 : h.state.get? i1 with
    | none =>
      rw [h1] at hone
      refine ⟨?_, rfl, newEntry_congr rfl rfl⟩
      funext i
      simp only [applyMove, slide, update_apply, get?_erase, h1]
      split_ifs with hi1 hi2
      · rfl
      · rw [hi2]
        exact hone.resolve_left (by simp)
      · rfl
    | some entry =>
      refine ⟨?_, rfl, newEntry_congr rfl rfl⟩
      funext i
      simp only [applyMove, slide, update_apply, get?_set, get?_erase, h1]
      split_ifs with hi2 hi1
      · exact absurd (hi1.symm.trans hi2) hne
      all_goals rfl
  have hboth : (h.state.get? i1).isSome ↔ (h.state.get? i2).isSome := hbenign
  refine ⟨?_, rfl, newEntry_congr rfl rfl⟩
  funext i
  unfold moveState
  cases h1 : h.state.get? i1 <;> cases h2 : h.state.get? i2 <;> rw [h1, h2] at hboth <;>
    simp only [applyMove, exchange, update_apply, get?_set, h1, h2] <;> split_ifs <;> simp_all

lemma SameConfig.foldl {ι : Type} {f : ThinkingBudgetStateHolder → ι → ThinkingBudgetStateHolder}
    {F : (ℕ → Option ThinkState) → ι → ℕ → Option ThinkState} {l : List ι}
    (h0 : ThinkingBudgetStateHolder)
    (hf : ∀ x ∈ l, ∀ h', SameConfig h0 h' → (f h' x).state.get? = F h'.state.get? x ∧
      SameConfig h' (f h' x))
    (hh : SameConfig h0 h) :
    (l.foldl f h).state.get? = l.foldl F h.state.get? ∧ SameConfig h0 (l.foldl f h) := by
  induction l generalizing h with
  | nil => exact ⟨rfl, hh⟩
  | cons x l ih =>
    obtain ⟨hget, hsame⟩ := hf x mem_cons_self h hh
    rw [foldl_cons, foldl_cons, ← hget]
    exact ih (forall_mem_cons.mp hf).2
      ⟨hsame.isEnabled.trans hh.isEnabled, hsame.newEntry.trans hh.newEntry⟩

lemma foldl_moveState (hproper : ∀ mv ∈ moves, mv.Proper)
    (hbenign : BenignMoves h.state.get? moves) :
    (moves.foldl moveState h).state.get? = moves.foldl (applyMove none) h.state.get? ∧
      SameConfig h (moves.foldl moveState h) := by
  induction moves generalizing h with
  | nil => exact ⟨rfl, rfl, rfl⟩
  | cons mv moves ih =>
    obtain ⟨hget, hsame⟩ := moveState_spec (hproper mv mem_cons_self) hbenign.1
    rw [foldl_cons, foldl_cons, ← hget]
    obtain ⟨hget', hsame'⟩ := ih (forall_mem_cons.mp hproper).2 (by rw [hget]; exact hbenign.2)
    exact ⟨hget', hsame'.isEnabled.trans hsame.isEnabled, hsame'.newEntry.trans hsame.newEntry⟩

lemma syncBatch_spec (update : BatchUpdate) (henabled : h.isEnabled = true)
    (hproper : ∀ mv ∈ update.moved, mv.Proper)
    (hadded : ∀ a ∈ update.added, a.index ∉ update.removed)
    (hmoved : ∀ mv ∈ update.moved, mv.i1 ∉ update.removed ∧ mv.i2 ∉ update.removed)
    (hbenign : BenignMoves (update.added.foldl (applyAdded h.newEntry) h.state.get?) update.moved) :
    (h.syncBatch (some update)).state.get? = replay none h.newEntry update h.state.get? ∧
      SameConfig h (h.syncBatch (some update)) := by
  have hsync : h.syncBatch (some update) = update.moved.foldl moveState (update.added.foldl addState
        (update.removed.foldl removeState h)) := if_pos henabled
  obtain ⟨hrem, hrem'⟩ := SameConfig.foldl (F := fun t i => Function.update t i none) h
    (fun i (_ : i ∈ update.removed) h' _ => removeState_spec h' i) ⟨rfl, rfl⟩
  obtain ⟨hadd, hadd'⟩ :=
    SameConfig.foldl (F := applyAdded h.newEntry) h (fun a (_ : a ∈ update.added) h' hh' => by
      obtain ⟨hget, hsame⟩ := addState_spec h' a
      rw [hh'.newEntry] at hget
      exact ⟨hget, hsame⟩) hrem'
  rw [hrem, foldl_update_eq_clear, foldl_applyAdded_clear hadded] at hadd
  obtain ⟨hmove, hmove'⟩ := foldl_moveState hproper (by rw [hadd]; exact hbenign.clear hmoved)
  rw [hsync]
  refine ⟨?_, hmove'.isEnabled.trans hadd'.isEnabled, hmove'.newEntry.trans hadd'.newEntry⟩
  rw [hmove, hadd]
  rfl

end holder

namespace ModelRunner

variable (w : ModelRunner ε γ)

def HasBudget (i : ℕ) : Prop :=
  ((w.requestAt i).bind fun r => r.samplingParams.bind fun p => p.thinkingTokenBudget).isSome

/-- The holder's entry for the row is that of the request that was in it when the step began. -/
def TrackedRow (i : ℕ) : Prop :=
  (w.batch.thinkingBudgetStateHolder.bind fun h => h.state.get? i).isSome

/-- `condense` moves a request without a budget only to where there was none, and rows are swapped
only when both or neither have one. -/
def BudgetsKept : RunnerCall ε γ → Prop
  | .condense => ∀ mv ∈ w.batch.condenseMoves, w.HasBudget mv.1 ∨ ¬ w.TrackedRow mv.2
  | .swap i1 i2 => w.HasBudget i1 ↔ w.HasBudget i2
  | _ => True

instance (w : ModelRunner ε γ) (i : ℕ) :
    Decidable (w.HasBudget i) := inferInstanceAs (Decidable (_ = true))

instance (w : ModelRunner ε γ) (i : ℕ) :
    Decidable (w.TrackedRow i) := inferInstanceAs (Decidable (_ = true))

instance (w : ModelRunner ε γ) : (call : RunnerCall ε γ) → Decidable (w.BudgetsKept call)
  | .condense =>
    inferInstanceAs (Decidable (∀ mv ∈ w.batch.condenseMoves, w.HasBudget mv.1 ∨
      ¬ w.TrackedRow mv.2))
  | .swap i1 i2 => inferInstanceAs (Decidable (w.HasBudget i1 ↔ w.HasBudget i2))
  | .remove _ | .updateSpec _ _ | .add _ | .refresh => isTrue trivial

/-- The holder has exactly the entries created for the requests in the rows. -/
def BudgetsExact : Prop :=
  ∃ h, w.batch.thinkingBudgetStateHolder = some h ∧ ∀ i, h.state.get? i = w.value none h.newEntry i

/-- At any time in a step: the entries are tracked, and the recorded moves are benign. -/
structure Thinking (w : ModelRunner ε γ) (h : ThinkingBudgetStateHolder) : Prop where
  holder : w.batch.thinkingBudgetStateHolder = some h
  enabled : h.isEnabled = true
  tracks : w.batch.isPoolingModel = false → Tracks none h.newEntry h.state.get? w
  benign : BenignMoves (w.batch.batchUpdateBuilder.added.foldl (applyAdded h.newEntry) h.state.get?)
    w.batch.batchUpdateBuilder.moved
  idle : w.batch.isPoolingModel = true → h.state = OrderedDict.empty

section steps

variable {w w' : ModelRunner ε γ} {h : ThinkingBudgetStateHolder}

lemma isSome_value_newEntry (i : ℕ) : (w.value none h.newEntry i).isSome ↔ w.HasBudget i := by
  unfold value requestValue HasBudget newEntry
  cases w.requestAt i with
  | none => rfl
  | some r =>
    cases hp : r.samplingParams with
    | none => simp [hp]
    | some p => cases hb : p.thinkingTokenBudget <;> simp [hp, hb]

lemma foldl_applyAdded_of_notMem {β : Type} {g : SamplingParams → Option (List ℤ) → List ℤ → β}
    {added : List AddedRequest} {table : ℕ → β} {i : ℕ} (hi : ∀ a ∈ added, a.index ≠ i) :
    added.foldl (applyAdded g) table i = table i := by
  induction added generalizing table with
  | nil => rfl
  | cons a added ih =>
    rw [foldl_cons, ih (forall_mem_cons.mp hi).2, applyAdded,
      update_of_ne (hi a mem_cons_self).symm]

lemma benignMoves_of_apart {τ : Type} {table : ℕ → Option τ} {moves : List (ℕ × ℕ)}
    (hapart : Apart moves) (hmove : ∀ mv ∈ moves, (table mv.1).isSome ∨ table mv.2 = none) :
    BenignMoves table (moves.map fun mv => ⟨mv.1, mv.2, .unidirectional⟩) := by
  induction moves generalizing table with
  | nil => trivial
  | cons mv moves ih =>
    refine ⟨hmove mv mem_cons_self, ih hapart.tail fun m hm => ?_⟩
    obtain ⟨h1, h2⟩ := hapart.slide_of_mem (f := fun _ x => x) (g := fun _ => none) hm table
    have hsame : applyMove none table ⟨mv.1, mv.2, .unidirectional⟩ =
      slide (fun _ x => x) (fun _ => none) table mv := rfl
    rw [hsame, h1, h2]
    exact hmove m (mem_cons_of_mem _ hm)

lemma benign_of_open {table : ℕ → Option ThinkState} (hopen : w.batch.Open) :
    BenignMoves table w.batch.batchUpdateBuilder.moved := by
  rw [hopen.moved]
  trivial

lemma Thinking.condense_benign (hbase : Base w) (hr : Recorded w) (ht : Thinking w h)
    (hph : w.phase ≠ .condensed) (hpool : w.batch.isPoolingModel = false)
    (hcond : Condensed w.batch w'.batch w.batch.condenseMoves) (hkept : w.BudgetsKept .condense) :
    BenignMoves (w'.batch.batchUpdateBuilder.added.foldl (applyAdded h.newEntry) h.state.get?)
      w'.batch.batchUpdateBuilder.moved := by
  have hopen := hbase.layout.open hph
  rw [hcond.added, hcond.moved, hpool, if_neg (by simp)]
  refine benignMoves_of_apart hcond.apart fun mv hmv => ?_
  obtain ⟨hsome, _, hmem, _⟩ := hcond.move mv hmv
  rcases hkept mv hmv with hbudget | hstale
  · left
    have hnot : mv.1 ∉ w.batch.removed := by
      intro hmem'
      rw [((hopen.hole_iff _).mp hmem').2] at hsome
      cases hsome
    have hvalue := ht.tracks hpool mv.1 hnot
    rw [pending, hopen.moved] at hvalue
    rw [foldl_nil] at hvalue
    rw [hvalue, isSome_value_newEntry]
    exact hbudget
  right
  rw [foldl_applyAdded_of_notMem fun a ha => (ne_of_mem_of_not_mem hmem (hr.added a ha).1).symm]
  rw [TrackedRow, ht.holder, Option.bind_some] at hstale
  exact Option.not_isSome_iff_eq_none.mp hstale

lemma Thinking.swap_benign (ht : Thinking w h) (hcl : w.batch.Closed)
    (hpool : w.batch.isPoolingModel = false)
    {i1 i2 : ℕ} {id1 id2 : String} (h1 : w.batch.rowId i1 = some id1)
    (h2 : w.batch.rowId i2 = some id2)
    (hswap : RowsSwapped w.batch w'.batch i1 i2 id1 id2) (hkept : w.BudgetsKept (.swap i1 i2)) :
    BenignMoves (w'.batch.batchUpdateBuilder.added.foldl (applyAdded h.newEntry) h.state.get?)
      w'.batch.batchUpdateBuilder.moved := by
  have hvalue : ∀ i id, w.batch.rowId i = some id →
      pending none h.newEntry w.batch.batchUpdateBuilder h.state.get? i =
        w.value none h.newEntry i := by
    intro i id hrow
    refine ht.tracks hpool i fun hmem => ?_
    have := hcl.beyond i hmem
    have := lt_of_cells hrow
    omega
  rw [hswap.builder, hpool, if_neg (by simp)]
  dsimp only
  rw [benignMoves_append]
  refine ⟨ht.benign, ?_, trivial⟩
  show (pending none h.newEntry w.batch.batchUpdateBuilder h.state.get? i1).isSome ↔
    (pending none h.newEntry w.batch.batchUpdateBuilder h.state.get? i2).isSome
  rw [hvalue i1 id1 h1, hvalue i2 id2 h2, isSome_value_newEntry, isSome_value_newEntry]
  exact hkept

lemma Thinking.next (hbase : Base w) (hbase' : Base w') (hr : Recorded w) (ht : Thinking w h)
    {call : RunnerCall ε γ}
    (hiss : w.Issued call) (hkept : w.BudgetsKept call) (heff : Effect w w' call)
    (hcall : call ≠ .refresh) :
    Thinking w' h := by
  have hsetup := heff.setup hcall
  refine ⟨hsetup.thinking.trans ht.holder, ht.enabled, ?_, ?_, ?_⟩
  · rw [hsetup.isPoolingModel]
    exact fun hpool => (ht.tracks hpool).next hbase hpool hiss heff hcall
  · cases call with
    | remove reqId =>
      refine benign_of_open (hbase'.layout.open ?_)
      rw [heff.1, show w.phase = .removing from hiss]
      simp
    | updateSpec reqId spec =>
      exact benign_of_open (hbase'.layout.open (by rw [heff.1]; exact hiss.1))
    | add r => exact benign_of_open (hbase'.layout.open (by rw [heff.1]; simp))
    | condense =>
      obtain ⟨_, _, hcond⟩ := heff
      cases hpool : w.batch.isPoolingModel with
      | false => exact ht.condense_benign hbase hr hiss hpool hcond hkept
      | true =>
        rw [hcond.moved, hpool]
        trivial
    | swap i1 i2 =>
      obtain ⟨_, _, id1, id2, h1, h2, hswap⟩ := heff
      cases hpool : w.batch.isPoolingModel with
      | false => exact ht.swap_benign (hbase.layout.closed hiss.1) hpool h1 h2 hswap hkept
      | true =>
        rw [hswap.builder, hpool]
        exact ht.benign
    | refresh => exact absurd rfl hcall
  · rw [hsetup.isPoolingModel]
    exact ht.idle

/-- Replaying the update brings the budgets to those of the batch. -/
lemma Thinking.refresh (hbase : Base w) (hr : Recorded w) (ht : Thinking w h)
    (hph : w.phase = .condensed)
    (hheld : w'.held = w.held) (hbatch : w'.batch = w.batch.refreshMetadata) :
    ∃ h', Thinking w' h' ∧ ∀ i, h'.state.get? i = w'.value none h'.newEntry i := by
  have hcl := hbase.layout.closed hph
  obtain ⟨_, hmoved', hadded', _⟩ := refreshMetadata_builder w.batch
  have hpool' : w'.batch.isPoolingModel = w.batch.isPoolingModel := by
    rw [hbatch]
    exact (refreshMetadata_rows w.batch).2.2.2.2.2.2.2.2.1
  rw [← hbatch] at hmoved' hadded'
  cases hpool : w.batch.isPoolingModel with
  | false =>
    -- the holder after the replay, with the values of the rows
    obtain ⟨h', hholder, henabled, hget⟩ : ∃ h', w'.batch.thinkingBudgetStateHolder = some h' ∧
      h'.isEnabled = true ∧
        h'.state.get? = w.value none h'.newEntry := by
      rcases getAndReset_cases w.batch with ⟨hnone, hremoved, hmoved, hadded⟩ | hsome
      · refine ⟨h, ?_, ht.enabled, (ht.tracks hpool).refresh_nil hremoved hmoved hadded⟩
        rw [hbatch, (refreshMetadata_procs hpool hnone).2.2.2, ht.holder]
        rfl
      obtain ⟨hget, hsame⟩ :=
        syncBatch_spec w.batch.update ht.enabled (fun mv hmv => (hr.moved mv hmv).1)
        (fun a ha => (hr.added a ha).1) (fun mv hmv => (hr.moved mv hmv).2.1) ht.benign
      refine ⟨h.syncBatch (some w.batch.update), ?_, hsame.isEnabled.trans ht.enabled, ?_⟩
      · rw [hbatch, (refreshMetadata_procs hpool hsome).2.2.2, ht.holder]
        rfl
      · rw [hget, hsame.newEntry]
        exact (ht.tracks hpool).refresh hr hcl
    rw [← value_refresh hheld hbatch] at hget
    refine ⟨h', ⟨hholder, henabled, fun _ i _ => ?_, ?_, ?_⟩, fun i => by rw [hget]⟩
    · rw [pending, hmoved', hadded', ← hget]
      rfl
    · rw [hmoved']
      trivial
    · rw [hpool', hpool]
      exact fun hp => by cases hp
  | true =>
    have hsame : w'.batch.thinkingBudgetStateHolder = some h := by
      rw [hbatch, refreshMetadata, if_pos hpool]
      exact ht.holder
    have hidle := ht.idle hpool
    refine ⟨h, ⟨hsame, ht.enabled, ?_, ?_, fun _ => hidle⟩, fun i => ?_⟩
    · rw [hpool', hpool]
      exact fun hp => by cases hp
    · rw [hmoved']
      trivial
    · rw [hidle, value_refresh hheld hbatch, hbase.value_of_pooling hpool]
      rfl

end steps

def Budgeting (w : ModelRunner ε γ) : Prop := Base w ∧ Recorded w ∧ ∃ h, Thinking w h

lemma Budgeting.next {w : ModelRunner ε γ} (hw : Budgeting w) {call : RunnerCall ε γ}
    (hiss : w.Issued call)
    (hkept : w.BudgetsKept call) : ∃ w', w.step call = .ok w' ∧ Budgeting w' := by
  obtain ⟨hbase, hr, h, ht⟩ := hw
  obtain ⟨w', hstep, hbase', heff⟩ := hbase.next hiss
  refine ⟨w', hstep, hbase', hr.next hbase hiss heff, ?_⟩
  rcases eq_or_ne call .refresh with rfl | hcall
  · obtain ⟨h', ht', _⟩ := ht.refresh hbase hr hiss heff.2.1 heff.2.2
    exact ⟨h', ht'⟩
  · exact ⟨h, ht.next hbase hbase' hr hiss hkept heff hcall⟩

def newHolder (thinkStart thinkEnd : List ℤ) :
    ThinkingBudgetStateHolder := ⟨true, thinkStart, thinkEnd, OrderedDict.empty⟩

lemma Budgeting.init (isPoolingModel : Bool) (maxNumReqs vocabSize : ℕ) (blocksPerKvBlock : List ℕ)
    (thinkStart thinkEnd : List ℤ) (numpy : NumpyFloat32) :
    Budgeting (init isPoolingModel maxNumReqs vocabSize blocksPerKvBlock
      (some (newHolder thinkStart thinkEnd)) numpy : ModelRunner ε γ) :=
  ⟨Base.init _ _ _ _ _ _, Recorded.of_nil rfl rfl, newHolder thinkStart thinkEnd, rfl, rfl,
    fun _ _ _ => rfl, trivial,
    fun _ => rfl⟩

/-- As long as the moves keep the budgets, each refresh leaves the holder with exactly the entries
of the requests. -/
theorem budgets_follow_batch (isPoolingModel : Bool) (maxNumReqs vocabSize : ℕ)
    (blocksPerKvBlock : List ℕ)
    (thinkStart thinkEnd : List ℤ) (numpy : NumpyFloat32) (calls : List (RunnerCall ε γ))
    (hcalls : Along step (fun w call => w.Issued call ∧ w.BudgetsKept call)
      (init isPoolingModel maxNumReqs vocabSize blocksPerKvBlock
        (some (newHolder thinkStart thinkEnd)) numpy) calls) :
    ∃ w, calls.foldlM step (init isPoolingModel maxNumReqs vocabSize blocksPerKvBlock
        (some (newHolder thinkStart thinkEnd)) numpy) = .ok w ∧
      (w.Issued .refresh → ∃ w', w.step .refresh = .ok w' ∧ BudgetsExact w') := by
  obtain ⟨w, hrun, hbase, hr, h, ht⟩ :=
    hcalls.exists_invariant (fun w call hw hcall => hw.next hcall.1 hcall.2)
    (Budgeting.init isPoolingModel maxNumReqs vocabSize blocksPerKvBlock thinkStart thinkEnd numpy)
  refine ⟨w, hrun, fun hphase => ?_⟩
  obtain ⟨w', hstep, _, heffect⟩ := hbase.next hphase
  obtain ⟨h', ht', hexact⟩ := ht.refresh hbase hr hphase heffect.2.1 heffect.2.2
  exact ⟨w', hstep, h', ht'.holder, hexact⟩

/-- Two requests with budgets are swapped and one of them removed. -/
theorem budgets_follow_swapped_requests :
    ∃ w, [RunnerCall.add (sampleRequest "a" { thinkingTokenBudget := some 5 }),
        .add (sampleRequest "b" { thinkingTokenBudget := some 7 }), .condense, .swap 0 1, .refresh,
          .remove "b",
        .condense].foldlM step (init false 2 10 [1] (some (newHolder [3] [4])) float32) = .ok w ∧
      (w.Issued .refresh → ∃ w', w.step .refresh = .ok w' ∧ BudgetsExact w') := by
  apply budgets_follow_batch
  apply Run.along
  iterate 2 apply Run.cons ⟨by decide, trivial⟩ rfl
  apply Run.cons ⟨by decide, by decide⟩ rfl
  apply Run.cons ⟨by decide, iff_of_true rfl rfl⟩ rfl
  iterate 2 apply Run.cons ⟨by decide, trivial⟩ rfl
  apply Run.cons ⟨by decide, by decide⟩ rfl
  apply Run.nil

/-- A request with a budget is swapped with one without, and both rows have its entry; a request
without a budget moves into the row of one and is given its entry. -/
theorem budgets_not_kept :
    (∃ w, Run step Issued (init false 2 10 [1] (some (newHolder [3] [4])) float32)
        [RunnerCall.add (sampleRequest "a" { thinkingTokenBudget := some 5 }),
          .add (sampleRequest "b" {}), .condense,
          .swap 0 1, .refresh] w ∧ ¬ BudgetsExact w) ∧
      ∃ w, Run step Issued (init false 2 10 [1] (some (newHolder [3] [4])) float32)
        [RunnerCall.add (sampleRequest "a" { thinkingTokenBudget := some 5 }),
          .add (sampleRequest "b" {}), .condense,
          .refresh, .remove "a", .condense, .refresh] w ∧ ¬ BudgetsExact w := by
  constructor
  · apply Exists.intro
    apply And.intro
    · iterate 5 apply Run.cons (by decide) rfl
      apply Run.nil
    rintro ⟨h, hh, hexact⟩
    cases hh
    exact absurd (hexact 0) (by decide)
  apply Exists.intro
  apply And.intro
  · iterate 7 apply Run.cons (by decide) rfl
    apply Run.nil
  rintro ⟨h, hh, hexact⟩
  cases hh
  exact absurd (hexact 0) (by decide)

end ModelRunner

end Vllm.Worker
