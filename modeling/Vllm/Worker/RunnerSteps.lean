import Vllm.Lib.Run
import Vllm.Worker.BatchLayout

/-!
# Worker steps

`_update_states` of `vllm/v1/worker/gpu_model_runner.py` removes and adds requests, condenses, may
swap rows and refreshes; `held` records the requests.
-/

namespace Vllm.Worker

open Compaction InputBatch Function Option

variable {ε γ : Type}

/-- How far `_update_states` has come in the step. -/
inductive Phase where
  | removing
  | adding
  | condensed
  deriving DecidableEq, Repr

/-- The runner's batch with the requests it holds. -/
structure ModelRunner (ε γ : Type) where
  batch : InputBatch ε γ
  held : String → Option (CachedRequestState ε γ × List ℤ)
  phase : Phase

/-- The calls of `_update_states` on the batch. -/
inductive RunnerCall (ε γ : Type) where
  | remove (reqId : String)
  | updateSpec (reqId : String) (spec : List ℤ)
  | add (request : CachedRequestState ε γ)
  | condense
  | swap (i1 i2 : ℕ)
  | refresh

namespace ModelRunner

def init (isPoolingModel : Bool) (maxNumReqs vocabSize : ℕ) (blocksPerKvBlock : List ℕ)
    (thinking : Option ThinkingBudgetStateHolder) (numpy : NumpyFloat32) : ModelRunner ε γ :=
  ⟨InputBatch.init isPoolingModel maxNumReqs vocabSize blocksPerKvBlock thinking numpy,
    fun _ => none, .removing⟩

variable (w : ModelRunner ε γ)

/-- A call of `_update_states`, with the requests that the runner holds. -/
def step : RunnerCall ε γ → Py (ModelRunner ε γ)
  | .remove reqId => do
    let (_, batch) ← w.batch.removeRequest reqId
    return { w with batch, held := update w.held reqId none }
  | .updateSpec reqId spec => do
    let batch ← w.batch.updateReqSpecTokenIds reqId spec
    return { w with batch, held := update w.held reqId ((w.held reqId).map fun h => (h.1, spec)) }
  | .add request => do
    let (_, batch) ← w.batch.addRequest request
    return { batch, held := update w.held request.reqId (some (request, [])), phase := .adding }
  | .condense => do
    let batch ← w.batch.condense
    return { w with batch, phase := .condensed }
  | .swap i1 i2 => do
    let batch ← w.batch.swapStates i1 i2
    return { w with batch }
  | .refresh => return { w with batch := w.batch.refreshMetadata, phase := .removing }

/-- A request of the kind the model serves, with flags for the whole prompt and blocks for every KV
cache group. -/
structure Fits (b : InputBatch ε γ) (r : CachedRequestState ε γ) : Prop where
  sampling : b.isPoolingModel = false → r.samplingParams.isSome
  pooling : b.isPoolingModel = true → r.samplingParams = none ∧ r.poolingParams.isSome
  flags : ∀ flags, r.promptIsTokenIds = some flags → flags.length = r.numPromptTokens
  blocks : r.blockIds.length = b.blocksPerKvBlock.length

instance (b : InputBatch ε γ) (r : CachedRequestState ε γ) : Decidable (Fits b r) :=
  decidable_of_iff ((b.isPoolingModel = false → r.samplingParams.isSome) ∧
      (b.isPoolingModel = true → r.samplingParams = none ∧ r.poolingParams.isSome) ∧
      (∀ flags ∈ r.promptIsTokenIds, flags.length = r.numPromptTokens) ∧
        r.blockIds.length = b.blocksPerKvBlock.length)
    ⟨fun ⟨h₁, h₂, h₃, h₄⟩ => ⟨h₁, h₂, h₃, h₄⟩, fun ⟨h₁, h₂, h₃, h₄⟩ => ⟨h₁, h₂, h₃, h₄⟩⟩

/-- The calls in the order of a worker step, each with arguments that it may have. -/
def Issued : RunnerCall ε γ → Prop
  | .remove _ => w.phase = .removing
  | .updateSpec reqId _ => w.phase ≠ .condensed ∧ (w.held reqId).isSome
  | .add r =>
    w.phase ≠ .condensed ∧ w.held r.reqId = none ∧ w.batch.numReqs < w.batch.maxNumReqs ∧
      Fits w.batch r
  | .condense => w.phase ≠ .condensed
  | .swap i1 i2 => w.phase = .condensed ∧ i1 < w.batch.numReqs ∧ i2 < w.batch.numReqs
  | .refresh => w.phase = .condensed

instance : DecidablePred w.Issued
  | .remove _ => inferInstanceAs (Decidable (w.phase = _))
  | .updateSpec _ _ => inferInstanceAs (Decidable (_ ∧ _ = true))
  | .add r => inferInstanceAs (Decidable (_ ∧ w.held r.reqId = none ∧ _ < _ ∧ Fits _ _))
  | .condense => inferInstanceAs (Decidable (w.phase ≠ _))
  | .swap _ _ => inferInstanceAs (Decidable (_ ∧ _ < _ ∧ _ < _))
  | .refresh => inferInstanceAs (Decidable (w.phase = _))

end ModelRunner

namespace ModelRunner

variable {w : ModelRunner ε γ}

def Effect (w w' : ModelRunner ε γ) : RunnerCall ε γ → Prop
  | .remove reqId => w'.phase = w.phase ∧ w'.held = update w.held reqId none ∧
      (w.batch.reqIdToIndex.get? reqId = none ∧ w'.batch = w.batch ∨
        ∃ i, w.batch.rowId i = some reqId ∧ Removed w.batch w'.batch reqId i)
  | .updateSpec reqId spec => w'.phase = w.phase ∧
      w'.held = update w.held reqId ((w.held reqId).map fun h => (h.1, spec)) ∧
      ∃ i, w.batch.rowId i = some reqId ∧ SpecUpdated w.batch w'.batch i spec
  | .add r => w'.phase = .adding ∧ w'.held = update w.held r.reqId (some (r, [])) ∧
      ∃ builder, Popped w.batch builder ∧ Added w.batch w'.batch r w.batch.nextIndex builder
  | .condense => w'.phase = .condensed ∧ w'.held = w.held ∧
      Condensed w.batch w'.batch w.batch.condenseMoves
  | .swap i1 i2 => w'.phase = w.phase ∧ w'.held = w.held ∧
      ∃ id1 id2, w.batch.rowId i1 = some id1 ∧ w.batch.rowId i2 = some id2 ∧
      RowsSwapped w.batch w'.batch i1 i2 id1 id2
  | .refresh => w'.phase = .removing ∧ w'.held = w.held ∧ w'.batch = w.batch.refreshMetadata

def Layout (w : ModelRunner ε γ) : Prop :=
  match w.phase with
  | .removing => w.batch.Open ∧ w.batch.batchUpdateBuilder.isRemovedSorted = false
  | .adding => w.batch.Open
  | .condensed => w.batch.Closed

lemma Layout.open (h : w.Layout) (hph : w.phase ≠ .condensed) : w.batch.Open := by
  unfold Layout at h
  split at h
  · exact h.1
  · exact h
  next hc => exact absurd hc hph

lemma Layout.of_open {w w' : ModelRunner ε γ} (h : w.Layout) (hph : w.phase ≠ .condensed)
    (hopen : w'.batch.Open) (hflag : w'.batch.batchUpdateBuilder.isRemovedSorted =
      w.batch.batchUpdateBuilder.isRemovedSorted)
    (hsame : w'.phase = w.phase) : w'.Layout := by
  unfold Layout at h ⊢
  rw [hsame]
  split at h
  · exact ⟨hopen, hflag.trans h.2⟩
  · exact hopen
  next hc => exact absurd hc hph

lemma Layout.closed (h : w.Layout) (hph : w.phase = .condensed) : w.batch.Closed := by
  rw [Layout, hph] at h
  exact h

def UsesLora (w : ModelRunner ε γ) (l : ℕ) (reqId : String) : Prop :=
  l ≠ 0 ∧ ∃ h, w.held reqId = some h ∧ h.1.loraId = l

/-- The invariant of the batch between calls. -/
structure Base (w : ModelRunner ε γ) : Prop where
  layout : w.Layout
  held_iff : ∀ reqId, (w.held reqId).isSome ↔ ∃ i, w.batch.rowId i = some reqId
  fits : ∀ reqId h, w.held reqId = some h → h.1.reqId = reqId ∧ Fits w.batch h.1
  lora : LoraMaps w.batch.loraIdToRequestIds w.batch.loraIdToLoraRequest w.UsesLora
  loraRow : ∀ i reqId h, w.batch.rowId i = some reqId → w.held reqId = some h →
    (w.batch.rows i).requestLoraMapping = h.1.loraId

variable {r : CachedRequestState ε γ}

lemma Fits.congr {b b' : InputBatch ε γ} (h : Fits b r)
    (hpool : b'.isPoolingModel = b.isPoolingModel)
    (hblk : b'.blocksPerKvBlock = b.blocksPerKvBlock) : Fits b' r where
  sampling := by rw [hpool]; exact h.sampling
  pooling := by rw [hpool]; exact h.pooling
  flags := h.flags
  blocks := by rw [hblk]; exact h.blocks

lemma Base.indexed (h : Base w) : w.batch.Indexed := by
  by_cases hph : w.phase = .condensed
  · exact (h.layout.closed hph).indexed
  · exact (h.layout.open hph).indexed

variable {reqId : String}

lemma Base.row_unique (h : Base w) {i j : ℕ}
    (hi : w.batch.rowId i = some reqId) (hj : w.batch.rowId j = some reqId) : i = j := by
  have hi' := (h.indexed reqId i).mpr hi
  have hj' := (h.indexed reqId j).mpr hj
  rw [hi'] at hj'
  exact some.inj hj'

lemma Base.held_of_row (h : Base w) {i : ℕ} (hi : w.batch.rowId i = some reqId) :
    ∃ x, w.held reqId = some x :=
  isSome_iff_exists.mp ((h.held_iff reqId).mpr ⟨i, hi⟩)

lemma Base.update_held_of_unknown (h : Base w) (hidx : w.batch.reqIdToIndex.get? reqId = none) :
    update w.held reqId none = w.held := by
  refine update_eq_self_iff.mpr (not_isSome_iff_eq_none.mp ?_).symm
  rw [h.held_iff]
  rintro ⟨i, hi⟩
  rw [(h.indexed reqId i).mpr hi] at hidx
  cases hidx

lemma Base.init (isPoolingModel : Bool) (maxNumReqs vocabSize : ℕ) (blocksPerKvBlock : List ℕ)
    (thinking : Option ThinkingBudgetStateHolder) (numpy : NumpyFloat32) :
    Base (init isPoolingModel maxNumReqs vocabSize blocksPerKvBlock thinking numpy :
      ModelRunner ε γ) where
  layout := by
    refine ⟨⟨?_, rfl, Nat.zero_le _, ?_, List.nodup_nil, rfl,
      fun h => absurd h (by simp [ModelRunner.init, InputBatch.init]), rfl⟩, rfl⟩
    · intro reqId i
      exact iff_of_false (by simp [ModelRunner.init, InputBatch.init]) (by
        simp [ModelRunner.init, InputBatch.init, rowId, cells])
    · intro i
      exact iff_of_false (by simp [ModelRunner.init, InputBatch.init, removed]) (by
        simp [ModelRunner.init, InputBatch.init])
  held_iff reqId :=
    iff_of_false (by simp [ModelRunner.init]) (by
      simp [ModelRunner.init, InputBatch.init, rowId, cells])
  fits reqId h heq := by cases heq
  lora := by
    refine ⟨fun l reqId => iff_of_false ?_ ?_, fun l h => ?_⟩
    · simp [ModelRunner.init, InputBatch.init]
    · rintro ⟨_, h, heq, _⟩
      cases heq
    · simp [ModelRunner.init, InputBatch.init] at h
  loraRow i reqId h _ heq := by cases heq

section calls

variable {w : ModelRunner ε γ}

lemma Base.remove (h : Base w) (reqId : String) (hph : w.phase = .removing) :
    ∃ w', w.step (.remove reqId) = .ok w' ∧ Base w' ∧ Effect w w' (.remove reqId) := by
  obtain ⟨hopen, hflag⟩ : w.batch.Open ∧ w.batch.batchUpdateBuilder.isRemovedSorted = false := by
    have := h.layout
    rwa [Layout, hph] at this
  cases hidx : w.batch.reqIdToIndex.get? reqId with
  | none =>
    have hsame := h.update_held_of_unknown hidx
    refine ⟨w, ?_, h, rfl, hsame.symm, .inl ⟨hidx, rfl⟩⟩
    rw [step, removeRequest_unknown hidx, hsame]
    rfl
  | some i =>
    have hrow := (h.indexed reqId i).mp hidx
    obtain ⟨x, hx⟩ := h.held_of_row hrow
    have hloraRow := h.loraRow i reqId x hrow hx
    have huses : (w.batch.rows i).requestLoraMapping = 0 ∨
      w.UsesLora (w.batch.rows i).requestLoraMapping reqId := by
      rw [hloraRow]
      by_cases hzero : x.1.loraId = 0
      · exact .inl hzero
      · exact .inr ⟨hzero, x, hx, rfl⟩
    obtain ⟨b', hcall, hrem, hmaps⟩ :=
      removeRequest_ok hidx hflag h.lora (fun _ hu => hu.1 rfl) huses
    have hrow' := hrem.rowId (lt_of_cells hrow)
    refine ⟨{ w with batch := b', held := update w.held reqId none }, ?_, ⟨?_, ?_, ?_, ?_, ?_⟩, rfl,
      rfl, .inr ⟨i, hrow, hrem⟩⟩
    · rw [step, hcall]
      rfl
    · rw [Layout]
      rw [hph]
      exact hopen.remove hrow hflag hrem
    · intro x'
      rw [isSome_iff_exists, hrow']
      simp only [update_none_eq_some, exists_and_left]
      rw [← isSome_iff_exists, h.held_iff, ← exists_and_left]
      exact exists_congr fun j => and_congr_left fun hj =>
        not_congr (Inverse.eq_iff h.indexed hrow hj)
    · intro x' h' hheld
      obtain ⟨hid, hfits⟩ := h.fits x' h' (update_none_eq_some.mp hheld).2
      exact ⟨hid, hfits.congr hrem.setup.isPoolingModel hrem.setup.blocksPerKvBlock⟩
    · refine ⟨fun l x' => (hmaps.mem_iff l x').trans ?_, hmaps.known⟩
      simp only [UsesLora, update_none_eq_some, and_assoc, exists_and_left]
      rcases eq_or_ne x' reqId with rfl | hne
      · simp [hx, hloraRow, eq_comm]
      · simp [hne]
    intro j x' h' hj hheld
    rw [hrow', update_none_eq_some] at hj
    rw [hrem.rows, update_of_ne hj.1]
    exact h.loraRow j x' h' hj.2 (update_none_eq_some.mp hheld).2

lemma updateSpec_lora (row : Row ε γ) (spec : List ℤ) :
    (row.updateSpec spec).requestLoraMapping = row.requestLoraMapping := by
  unfold Row.updateSpec
  split_ifs <;> rfl

lemma Base.updateSpec (h : Base w) (spec : List ℤ) (hph : w.phase ≠ .condensed)
    (hheld : (w.held reqId).isSome) :
    ∃ w', w.step (.updateSpec reqId spec) = .ok w' ∧ Base w' ∧
    Effect w w' (.updateSpec reqId spec) := by
  obtain ⟨x, hx⟩ := isSome_iff_exists.mp hheld
  obtain ⟨i, hrow⟩ := (h.held_iff reqId).mp hheld
  obtain ⟨b', hcall, hupd⟩ := updateReqSpecTokenIds_ok ((h.indexed reqId i).mpr hrow) spec
  have hrow' : b'.rowId = w.batch.rowId := by rw [rowId, hupd.reqIds]; rfl
  -- only the draft tokens of the request change
  have hold : ∀ x' h', update w.held reqId ((w.held reqId).map fun h => (h.1, spec)) x' = some h' →
      ∃ h'', w.held x' = some h'' ∧ h'.1 = h''.1 := by
    intro x' h' heq
    rw [hx, map_some] at heq
    obtain ⟨rfl, rfl⟩ | ⟨_, heq⟩ := update_some_eq_some.mp heq
    · exact ⟨x, hx, rfl⟩
    · exact ⟨h', heq, rfl⟩
  have hnew : ∀ x' h', w.held x' = some h' →
      ∃ h'', update w.held reqId ((w.held reqId).map fun h => (h.1, spec)) x' = some h'' ∧
        h''.1 = h'.1 := by
    intro x' h' heq
    rcases eq_or_ne x' reqId with rfl | hne
    · rw [update_self, heq]
      exact ⟨_, rfl, rfl⟩
    · rw [update_of_ne hne]
      exact ⟨h', heq, rfl⟩
  refine ⟨{ w with
      batch := b'
      held := update w.held reqId ((w.held reqId).map fun h => (h.1, spec)) }, ?_,
    ⟨?_, ?_, ?_, ?_, ?_⟩, rfl, rfl, i, hrow, hupd⟩
  · rw [step, hcall]
    rfl
  · exact h.layout.of_open hph ((h.layout.open hph).spec hupd) (by rw [hupd.builder]) rfl
  · intro x'
    dsimp only
    rw [hrow', ← h.held_iff, isSome_iff_exists, isSome_iff_exists]
    constructor
    · rintro ⟨h', heq⟩
      obtain ⟨h'', heq', _⟩ := hold x' h' heq
      exact ⟨h'', heq'⟩
    rintro ⟨h', heq⟩
    obtain ⟨h'', heq', _⟩ := hnew x' h' heq
    exact ⟨h'', heq'⟩
  · intro x' h' heq
    obtain ⟨h'', heq', hsame⟩ := hold x' h' heq
    rw [hsame]
    obtain ⟨hid, hfits⟩ := h.fits x' h'' heq'
    exact ⟨hid, hfits.congr hupd.setup.isPoolingModel hupd.setup.blocksPerKvBlock⟩
  · have hmaps := h.lora
    refine ⟨fun l x' => ?_, fun l => ?_⟩
    · dsimp only
      rw [hupd.loraIdToRequestIds, hmaps.mem_iff]
      constructor
      · rintro ⟨hl, h', heq, hlora⟩
        obtain ⟨h'', heq', hsame⟩ := hnew x' h' heq
        exact ⟨hl, h'', heq', by rw [hsame, hlora]⟩
      rintro ⟨hl, h', heq, hlora⟩
      obtain ⟨h'', heq', hsame⟩ := hold x' h' heq
      exact ⟨hl, h'', heq', by rw [← hsame, hlora]⟩
    dsimp only
    rw [hupd.loraIdToRequestIds, hupd.loraIdToLoraRequest]
    exact hmaps.known l
  intro j x' h' hj heq
  dsimp only at hj heq ⊢
  obtain ⟨h'', heq', hsame⟩ := hold x' h' heq
  rw [hrow'] at hj
  rw [hsame, ← h.loraRow j x' h'' hj heq', hupd.rows]
  rcases eq_or_ne j i with rfl | hne
  · rw [update_self, updateSpec_lora]
  · rw [update_of_ne hne]

lemma addedRow_lora (b : InputBatch ε γ) (r : CachedRequestState ε γ) (row : Row ε γ) :
    (b.addedRow r row).requestLoraMapping = r.loraId := by
  unfold addedRow
  split <;> rfl

/-- A new request can be added while there is room. -/
lemma Base.add (h : Base w) (hph : w.phase ≠ .condensed) (hnew : w.held r.reqId = none)
    (hmax : w.batch.numReqs < w.batch.maxNumReqs) (hfits : Fits w.batch r) :
    ∃ w', w.step (.add r) = .ok w' ∧ Base w' ∧ Effect w w' (.add r) := by
  have hopen := h.layout.open hph
  obtain ⟨builder, hpop⟩ := hopen.popped
  obtain ⟨hnone, hle⟩ := hopen.rowId_nextIndex
  have hlt := hopen.nextIndex_lt hmax
  have hkind : r.samplingParams.isSome ∨ r.poolingParams.isSome := by
    cases hpool : w.batch.isPoolingModel with
    | true => exact .inr (hfits.pooling hpool).2
    | false => exact .inl (hfits.sampling hpool)
  obtain ⟨b', hcall, hadd⟩ := hpop.addRequest hlt hkind
  have hnewIdx : w.batch.reqIdToIndex.get? r.reqId = none := by
    by_contra hsome
    obtain ⟨i, hi⟩ := ne_none_iff_exists'.mp hsome
    obtain ⟨x, hx⟩ := h.held_of_row ((h.indexed r.reqId i).mp hi)
    rw [hnew] at hx
    cases hx
  have hrow := hadd.rowId hle
  have hoth : ∀ j x, w.batch.rowId j = some x → j ≠ w.batch.nextIndex ∧ x ≠ r.reqId := by
    intro j x hj
    constructor
    · rintro rfl
      rw [hnone] at hj
      cases hj
    rintro rfl
    rw [(h.indexed r.reqId j).mpr hj] at hnewIdx
    cases hnewIdx
  refine ⟨⟨b', update w.held r.reqId (some (r, [])), .adding⟩, ?_,
    ⟨hopen.add hpop hnewIdx hmax hadd, ?_, ?_, ?_, ?_⟩, rfl, rfl, builder, hpop, hadd⟩
  · rw [step, hcall]
    rfl
  · intro x
    dsimp only
    rw [hrow]
    rcases eq_or_ne x r.reqId with rfl | hne
    · rw [update_self]
      exact iff_of_true rfl ⟨w.batch.nextIndex, update_self _ _ _⟩
    rw [update_of_ne hne, h.held_iff]
    refine exists_congr fun j => ⟨fun hj => ?_, fun hj => ?_⟩
    · exact update_some_eq_some.mpr (.inr ⟨(hoth j x hj).1, hj⟩)
    obtain ⟨_, rfl⟩ | ⟨_, hj⟩ := update_some_eq_some.mp hj
    · exact absurd rfl hne
    · exact hj
  · intro x x' hheld
    obtain ⟨rfl, rfl⟩ | ⟨_, hheld⟩ := update_some_eq_some.mp hheld
    · exact ⟨rfl, hfits.congr hadd.setup.isPoolingModel hadd.setup.blocksPerKvBlock⟩
    · obtain ⟨hid, hf⟩ := h.fits x x' hheld
      exact ⟨hid, hf.congr hadd.setup.isPoolingModel hadd.setup.blocksPerKvBlock⟩
  · have hmaps := h.lora.addLora (r := r)
    refine ⟨fun l x => ?_, fun l => ?_⟩
    · dsimp only
      rw [hadd.loraIdToRequestIds, hmaps.mem_iff]
      rcases eq_or_ne x r.reqId with rfl | hne
      · simp [UsesLora, hnew]
      · simp [UsesLora, hne]
    dsimp only
    rw [hadd.loraIdToRequestIds, hadd.loraIdToLoraRequest]
    exact hmaps.known l
  intro j x x' hj hheld
  dsimp only at hj hheld ⊢
  rw [hrow] at hj
  rw [hadd.rows]
  obtain ⟨rfl, rfl⟩ | ⟨hne, hj⟩ := update_some_eq_some.mp hj
  · rw [update_self] at hheld
    cases hheld
    rw [update_self, addedRow_lora]
  rw [update_of_ne (hoth j x hj).2] at hheld
  rw [update_of_ne hne]
  exact h.loraRow j x x' hj hheld

lemma moveFrom_lora (dst src : Row ε γ) (pooling : Bool) :
    (dst.moveFrom src pooling).requestLoraMapping = src.requestLoraMapping := by
  cases pooling <;> rfl

lemma swapWith_lora (row other : Row ε γ) (pooling : Bool) :
    (row.swapWith other pooling).requestLoraMapping = other.requestLoraMapping := by
  cases pooling <;> rfl

lemma Base.rearrange (h : Base w) {b' : InputBatch ε γ} {phase : Phase}
    (hlayout : Layout ⟨b', w.held, phase⟩) (hpool : b'.isPoolingModel = w.batch.isPoolingModel)
    (hblk : b'.blocksPerKvBlock = w.batch.blocksPerKvBlock)
    (hids : b'.loraIdToRequestIds = w.batch.loraIdToRequestIds)
    (hreqs : b'.loraIdToLoraRequest = w.batch.loraIdToLoraRequest)
    (htarget : ∀ i x, w.batch.rowId i = some x → ∃ j, b'.rowId j = some x)
    (hsource : ∀ j x, b'.rowId j = some x → ∃ i, w.batch.rowId i = some x ∧
      (b'.rows j).requestLoraMapping = (w.batch.rows i).requestLoraMapping) :
      Base ⟨b', w.held, phase⟩ where
  layout := hlayout
  held_iff x := by
    rw [h.held_iff]
    constructor
    · rintro ⟨i, hi⟩
      exact htarget i x hi
    rintro ⟨j, hj⟩
    obtain ⟨i, hi, _⟩ := hsource j x hj
    exact ⟨i, hi⟩
  fits x x' hheld := by
    obtain ⟨hid, hf⟩ := h.fits x x' hheld
    exact ⟨hid, hf.congr hpool hblk⟩
  lora := by
    dsimp only
    rw [hids, hreqs]
    exact h.lora
  loraRow j x x' hj hheld := by
    obtain ⟨i, hi, hlora⟩ := hsource j x hj
    exact hlora.trans (h.loraRow i x x' hi hheld)

lemma Base.condense (h : Base w) (hph : w.phase ≠ .condensed) :
    ∃ w', w.step .condense = .ok w' ∧ Base w' ∧ Effect w w' .condense := by
  have hopen := h.layout.open hph
  obtain ⟨b', hcall, hcond⟩ := hopen.condense_ok
  refine ⟨⟨b', w.held, .condensed⟩, ?_, ?_, rfl, rfl, hcond⟩
  · rw [step, hcall]
    rfl
  refine h.rearrange hcond.closed hcond.setup.isPoolingModel hcond.setup.blocksPerKvBlock
    hcond.loraIdToRequestIds
    hcond.loraIdToLoraRequest ?_ ?_
  · exact fun i x hi => hcond.target hopen hi
  intro j x hj
  obtain ⟨src, hsrc, _, _, ⟨rfl, hrows⟩ | ⟨_, hrows⟩⟩ := hcond.source hj
  · exact ⟨src, hsrc, by rw [hrows]⟩
  · exact ⟨src, hsrc, by rw [hrows, moveFrom_lora]⟩

lemma Base.swap (h : Base w) {i1 i2 : ℕ} (hph : w.phase = .condensed) (h1 : i1 < w.batch.numReqs)
    (h2 : i2 < w.batch.numReqs) :
    ∃ w', w.step (.swap i1 i2) = .ok w' ∧ Base w' ∧ Effect w w' (.swap i1 i2) := by
  have hcl := h.layout.closed hph
  rw [← hcl.count] at h1 h2
  obtain ⟨id1, hid1⟩ := isSome_iff_exists.mp (hcl.filled i1 h1)
  obtain ⟨id2, hid2⟩ := isSome_iff_exists.mp (hcl.filled i2 h2)
  obtain ⟨b', hcall, hswap⟩ :=
    swapStates_ok hid1 hid2 ((h.indexed _ _).mpr hid1) ((h.indexed _ _).mpr hid2)
  refine ⟨{ w with batch := b' }, ?_, ?_, rfl, rfl, id1, id2, hid1, hid2, hswap⟩
  · rw [step, hcall]
    rfl
  refine h.rearrange ?_ hswap.setup.isPoolingModel hswap.setup.blocksPerKvBlock
    hswap.loraIdToRequestIds
    hswap.loraIdToLoraRequest ?_ ?_
  · rw [Layout]
    dsimp only
    rw [hph]
    exact hcl.swap hid1 hid2 hswap
  · exact fun i x hi => hswap.target hid1 hid2 hi
  intro j x hj
  obtain ⟨src, hsrc, _, ⟨⟨rfl, _⟩, hrows⟩ | ⟨_, hrows⟩⟩ := hswap.source hcl hid1 hid2 hj
  · exact ⟨src, hsrc, by rw [hrows]⟩
  · exact ⟨src, hsrc, by rw [hrows, swapWith_lora]⟩

lemma Base.refresh (h : Base w) (hph : w.phase = .condensed) :
    ∃ w', w.step .refresh = .ok w' ∧ Base w' ∧ Effect w w' .refresh := by
  obtain ⟨hids, _, _, hrows, _, hlora, hlora', _, hpool, _, hblk⟩ := refreshMetadata_rows w.batch
  have hrow : w.batch.refreshMetadata.rowId = w.batch.rowId := by rw [rowId, hids]; rfl
  refine ⟨⟨w.batch.refreshMetadata, w.held, .removing⟩, rfl, ?_, rfl, rfl, rfl⟩
  refine h.rearrange (h.layout.closed hph).refresh hpool hblk hlora hlora' ?_ ?_
  · exact fun i x hi => ⟨i, by rw [hrow, hi]⟩
  · exact fun j x hj => ⟨j, by rw [← hrow, hj], by rw [hrows]⟩

lemma Base.next (h : Base w) {call : RunnerCall ε γ} (hiss : w.Issued call) :
    ∃ w', w.step call = .ok w' ∧ Base w' ∧ Effect w w' call := by
  cases call with
  | remove reqId => exact h.remove reqId hiss
  | updateSpec reqId spec => exact h.updateSpec spec hiss.1 hiss.2
  | add r => exact h.add hiss.1 hiss.2.1 hiss.2.2.1 hiss.2.2.2
  | condense => exact h.condense hiss
  | swap i1 i2 => exact h.swap hiss.1 hiss.2.1 hiss.2.2
  | refresh => exact h.refresh hiss

end calls

end ModelRunner

end Vllm.Worker
