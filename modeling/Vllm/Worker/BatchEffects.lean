import Vllm.Worker.InputBatch

/-! # What an operation of the batch does -/

namespace Vllm.Worker

open Compaction List Function BatchUpdateBuilder OrderedDict

variable {ε γ : Type}

/-- The adapter of a request, 0 for none. -/
def CachedRequestState.loraId (r : CachedRequestState ε γ) :
    ℕ := (r.loraRequest.map LoRARequest.loraIntId).getD 0

namespace InputBatch

variable {b : InputBatch ε γ} {reqId : String} {r : CachedRequestState ε γ}
  {builder : BatchUpdateBuilder}
  {uses : ℕ → String → Prop} {last hole : ℕ} (b : InputBatch ε γ)

/-- `_req_ids` as a table of rows. -/
def rowId : ℕ → Option String := cells b.reqIds

def outputAt : ℕ → Option (List ℤ) := cells b.reqOutputTokenIds

abbrev removed : List ℕ := b.batchUpdateBuilder.removed

/-- Nothing that the constructor fixed has changed. -/
structure SameSetup (b b' : InputBatch ε γ) : Prop where
  isPoolingModel : b'.isPoolingModel = b.isPoolingModel
  maxNumReqs : b'.maxNumReqs = b.maxNumReqs
  vocabSize : b'.vocabSize = b.vocabSize
  blocksPerKvBlock : b'.blocksPerKvBlock = b.blocksPerKvBlock
  thinking : b'.thinkingBudgetStateHolder = b.thinkingBudgetStateHolder
  biases : b'.biases = b.biases
  minToks : b'.minToks = b.minToks
  minP : b'.minP = b.minP

lemma SameSetup.refl : SameSetup b b := ⟨rfl, rfl, rfl, rfl, rfl, rfl, rfl, rfl⟩

variable {b b' b'' : InputBatch ε γ}

lemma SameSetup.trans (h : SameSetup b b') (h' : SameSetup b' b'') : SameSetup b b'' where
  isPoolingModel := h'.isPoolingModel.trans h.isPoolingModel
  maxNumReqs := h'.maxNumReqs.trans h.maxNumReqs
  vocabSize := h'.vocabSize.trans h.vocabSize
  blocksPerKvBlock := h'.blocksPerKvBlock.trans h.blocksPerKvBlock
  thinking := h'.thinking.trans h.thinking
  biases := h'.biases.trans h.biases
  minToks := h'.minToks.trans h.minToks
  minP := h'.minP.trans h.minP

variable (b)

def addedRow (r : CachedRequestState ε γ) (row : Row ε γ) : Row ε γ :=
  match r.samplingParams, r.poolingParams with
  | some params, _ =>
    (row.addTokens b.blocksPerKvBlock r).addSampling b.vocabSize params r.generator
  | none, some params => (row.addTokens b.blocksPerKvBlock r).addPooling params
  | none, none => row.addTokens b.blocksPerKvBlock r

def addedMask (r : CachedRequestState ε γ) (i : ℕ) : ℕ → ℕ → Bool :=
  match r.samplingParams.bind fun p => Row.nonEmpty? p.allowedTokenIds with
  | some allowed => update b.maskRow i fun v => decide (v ∉ allowed)
  | none => b.maskRow

variable {b}

def addedEntry (r : CachedRequestState ε γ) (i : ℕ) : List AddedRequest :=
  (r.samplingParams.map fun params =>
    AddedRequest.mk i params r.promptTokenIds r.outputTokenIds).toList

/-- What `add_request` did to the batch. -/
structure Added (b b' : InputBatch ε γ) (r : CachedRequestState ε γ) (i : ℕ)
    (builder : BatchUpdateBuilder) : Prop where
  setup : SameSetup b b'
  reqIds : b'.reqIds = if i = b.reqIds.length then b.reqIds ++ [some r.reqId] else
    b.reqIds.set i (some r.reqId)
  reqOutputTokenIds : b'.reqOutputTokenIds = if i = b.reqIds.length then b.reqOutputTokenIds ++
    [some r.outputTokenIds]
    else b.reqOutputTokenIds.set i (some r.outputTokenIds)
  reqIdToIndex : b'.reqIdToIndex = b.reqIdToIndex.set r.reqId i
  rows : b'.rows = update b.rows i (b.addedRow r (b.rows i))
  mask : b'.maskRow = b.addedMask r i
  builder : b'.batchUpdateBuilder =
    { builder with batchChanged := true, added := builder.added ++ addedEntry r i }
  loraIdToRequestIds : b'.loraIdToRequestIds = (b.addLora r).loraIdToRequestIds
  loraIdToLoraRequest : b'.loraIdToLoraRequest = (b.addLora r).loraIdToLoraRequest

lemma maskRow_allowTokens (b : InputBatch ε γ) (i : ℕ) (params : SamplingParams) :
    { b with allowedTokenIdsMask := b.allowTokens i params }.maskRow =
    match Row.nonEmpty? params.allowedTokenIds with
      | some allowed => update b.maskRow i fun v => decide (v ∉ allowed)
      | none => b.maskRow := by
  cases hal : Row.nonEmpty? params.allowedTokenIds with
  | none =>
    have hsame : b.allowTokens i params = b.allowedTokenIdsMask := by rw [allowTokens, hal]
    simp only [hsame]
  | some allowed =>
    have hmask : b.allowTokens i params =
        some (update (b.allowedTokenIdsMask.getD fun _ _ => false) i fun v =>
          decide (v ∉ allowed)) := by
      rw [allowTokens, hal]
    have hold : b.maskRow = b.allowedTokenIdsMask.getD fun _ _ => false := by
      funext j
      unfold maskRow
      cases b.allowedTokenIdsMask <;> rfl
    funext j
    rw [hold]
    unfold maskRow
    simp only [hmask]

lemma addLora_eq {b c : InputBatch ε γ} (hids : c.loraIdToRequestIds = b.loraIdToRequestIds)
    (hreqs : c.loraIdToLoraRequest = b.loraIdToLoraRequest) :
    c.addLora r = { c with
      loraIdToRequestIds := (b.addLora r).loraIdToRequestIds
      loraIdToLoraRequest := (b.addLora r).loraIdToLoraRequest } := by
  unfold addLora
  cases r.loraRequest with
  | none => simp only [← hids, ← hreqs]
  | some lora => simp only [hids, hreqs]

lemma addRequest_ok {popped : Option ℕ} (hpop : b.batchUpdateBuilder.popRemoved = (popped, builder))
    (hlt : popped.getD b.numReqs < b.maxNumReqs)
    (hkind : r.samplingParams.isSome ∨ r.poolingParams.isSome) :
    ∃ b', b.addRequest r = .ok (popped.getD b.numReqs, b') ∧
    Added b b' r (popped.getD b.numReqs) builder := by
  have hreg : b.registerAddRequest r = .ok (popped.getD b.numReqs, { b with batchUpdateBuilder :=
      { builder with
        batchChanged := true
        added := builder.added ++ addedEntry r (popped.getD b.numReqs) } }) := by
    unfold registerAddRequest
    rw [hpop]
    simp only [pyAssert_pos hlt, ok_bind]
    rcases hs : r.samplingParams with _ | params <;> simp only [addedEntry, hs] <;> rfl
  generalize popped.getD b.numReqs = i at *
  unfold addRequest
  rw [hreg]
  rcases hs : r.samplingParams with _ | params
  · rw [hs] at hkind
    obtain ⟨params, hp⟩ := Option.isSome_iff_exists.mp (hkind.resolve_left (by simp))
    rw [hp]
    refine ⟨_, congrArg (fun c => Except.ok (i, c)) (addLora_eq (b := b) rfl rfl), ?_⟩
    refine ⟨⟨rfl, rfl, rfl, rfl, rfl, rfl, rfl, rfl⟩, rfl, rfl, rfl, ?_, ?_, rfl, rfl, rfl⟩
    · simp [addedRow, addPoolingRequest, setRow, placeRequest, hs, hp]
    simp only [addedMask, hs]
    rfl
  refine ⟨_, congrArg (fun c => Except.ok (i, c)) (addLora_eq (b := b) rfl rfl), ?_⟩
  refine ⟨⟨rfl, rfl, rfl, rfl, rfl, rfl, rfl, rfl⟩, rfl, rfl, rfl, ?_, ?_, rfl, rfl, rfl⟩
  · simp [addedRow, addSamplingRequest, setRow, placeRequest, hs]
  simp only [addedMask, hs]
  exact maskRow_allowTokens b i params

/-- The maps of LoRA adapters list the requests that use each. -/
structure LoraMaps (requestIds : OrderedDict ℕ (List String)) (requests : OrderedDict ℕ LoRARequest)
    (uses : ℕ → String → Prop) : Prop where
  mem_iff : ∀ l reqId, (∃ ids, requestIds.get? l = some ids ∧ reqId ∈ ids) ↔ uses l reqId
  known : ∀ l, (requestIds.get? l).isSome → (requests.get? l).isSome

variable (h : LoraMaps b.loraIdToRequestIds b.loraIdToLoraRequest uses)
include h

lemma LoraMaps.addLora : LoraMaps (b.addLora r).loraIdToRequestIds (b.addLora r).loraIdToLoraRequest
      fun l reqId => uses l reqId ∨ l ≠ 0 ∧ r.loraId = l ∧ reqId = r.reqId := by
  cases hr : r.loraRequest with
  | none =>
    have hid : r.loraId = 0 := by rw [CachedRequestState.loraId, hr]; rfl
    have hsame : b.addLora r = b := by rw [InputBatch.addLora, hr]
    rw [hsame]
    refine ⟨fun l reqId => ?_, h.known⟩
    rw [h.mem_iff]
    constructor
    · exact .inl
    rintro (hu | ⟨hl, hl', _⟩)
    · exact hu
    · exact absurd (hl'.symm.trans hid) hl
  | some lora =>
    have hid : r.loraId = lora.loraIntId := by rw [CachedRequestState.loraId, hr]; rfl
    have hadd : b.addLora r = { b with
        loraIdToRequestIds := b.loraIdToRequestIds.set lora.loraIntId
          (((b.loraIdToRequestIds.get? lora.loraIntId).getD []).filter (· ≠ r.reqId) ++ [r.reqId])
        loraIdToLoraRequest := b.loraIdToLoraRequest.set lora.loraIntId lora } := by
      rw [InputBatch.addLora, hr]
    rw [hadd, hid]
    constructor
    · intro l reqId
      simp only [get?_set]
      rcases eq_or_ne l lora.loraIntId with rfl | hne
      · rw [← h.mem_iff]
        simp only [if_true, Option.some.injEq, exists_eq_left', mem_append, mem_filter,
          decide_eq_true_eq, mem_singleton]
        have hpos := lora.pos
        rcases eq_or_ne reqId r.reqId with rfl | hid'
        · simp [hpos.ne']
        simp only [hid', and_false, or_false, ne_eq, not_false_eq_true, and_true]
        rcases b.loraIdToRequestIds.get? lora.loraIntId with _ | ids <;> simp
      · simp only [if_neg hne, hne.symm, false_and, and_false, or_false]
        exact h.mem_iff l reqId
    intro l
    simp only [get?_set]
    split_ifs
    · simp
    · exact h.known l

lemma LoraMaps.removeLora {loraId : ℕ} (hpos : ∀ x, ¬ uses 0 x)
    (huses : loraId = 0 ∨ uses loraId reqId) :
    ∃ m m', b.removeLora reqId loraId =
    .ok { b with loraIdToRequestIds := m, loraIdToLoraRequest := m' } ∧
      LoraMaps m m' fun l x => uses l x ∧ ¬ (l = loraId ∧ x = reqId) := by
  unfold InputBatch.removeLora
  by_cases hzero : loraId = 0
  · rw [if_pos hzero]
    refine ⟨_, _, rfl, fun l x => ?_, h.known⟩
    rw [h.mem_iff]
    constructor
    · intro hu
      refine ⟨hu, ?_⟩
      rintro ⟨rfl, _⟩
      rw [hzero] at hu
      exact hpos x hu
    · exact And.left
  rw [if_neg hzero]
  obtain ⟨ids, hids, hmem⟩ := (h.mem_iff loraId reqId).mpr (huses.resolve_left hzero)
  obtain ⟨lora, hlora⟩ := Option.isSome_iff_exists.mp (h.known loraId (by rw [hids]; rfl))
  rw [hids]
  dsimp only
  have hoth : ∀ l x, l ≠ loraId → ((∃ ids, b.loraIdToRequestIds.get? l = some ids ∧ x ∈ ids) ↔
      uses l x ∧ ¬ (l = loraId ∧ x = reqId)) := by
    intro l x hl
    rw [h.mem_iff]
    simp [hl]
  have hself : ∀ x, x ∈ ids.filter (· ≠ reqId) ↔ uses loraId x ∧
    ¬ (loraId = loraId ∧ x = reqId) := by
    intro x
    rw [← h.mem_iff, hids]
    simp
  by_cases hemp : (ids.filter (· ≠ reqId)).isEmpty
  · rw [if_pos hemp, hlora]
    refine ⟨_, _, rfl, ?_, ?_⟩
    · intro l x
      rw [get?_erase]
      split_ifs with hl
      · subst hl
        rw [List.isEmpty_iff] at hemp
        rw [← hself x, hemp]
        simp
      · exact hoth l x hl
    intro l hl
    rw [get?_erase] at hl ⊢
    split_ifs with heq
    · rw [if_pos heq] at hl
      cases hl
    · rw [if_neg heq] at hl
      exact h.known l hl
  rw [if_neg hemp]
  refine ⟨_, _, rfl, ?_, ?_⟩
  · intro l x
    rw [get?_set]
    split_ifs with hl
    · subst hl
      rw [← hself x]
      simp
    · exact hoth l x hl
  intro l hl
  rw [get?_set] at hl
  split_ifs at hl with heq
  · rw [heq, hlora]
    rfl
  · exact h.known l hl

omit h

/-- What `remove_request` did to the batch. -/
structure Removed (b b' : InputBatch ε γ) (reqId : String) (i : ℕ) : Prop where
  setup : SameSetup b b'
  reqIds : b'.reqIds = b.reqIds.set i none
  reqOutputTokenIds : b'.reqOutputTokenIds = b.reqOutputTokenIds.set i none
  reqIdToIndex : b'.reqIdToIndex = b.reqIdToIndex.erase reqId
  rows : b'.rows = update b.rows i ((b.rows i).remove b.isPoolingModel)
  mask : b'.maskRow = if b.isPoolingModel then b.maskRow else update b.maskRow i fun _ => false
  builder :
    b'.batchUpdateBuilder =
    { b.batchUpdateBuilder with removed := b.removed ++ [i], batchChanged := true }

variable {b b' : InputBatch ε γ}

lemma maskRow_map {f : (ℕ → ℕ → Bool) → ℕ → ℕ → Bool}
    (h : b'.allowedTokenIdsMask = b.allowedTokenIdsMask.map f)
    (hzero : f (fun _ _ => false) = fun _ _ => false) :
    b'.maskRow = f b.maskRow := by
  cases hm : b.allowedTokenIdsMask with
  | none =>
    have hnone : b.maskRow = fun _ _ => false := by
      funext i
      rw [maskRow, hm]
    rw [hnone, hzero]
    funext i
    rw [maskRow, h, hm]
    rfl
  | some mask =>
    have hsome : b.maskRow = mask := by
      funext i
      rw [maskRow, hm]
    rw [hsome]
    funext i
    rw [maskRow, h, hm]
    rfl

lemma removeRequest_ok {i : ℕ} (hidx : b.reqIdToIndex.get? reqId = some i)
    (hsorted : b.batchUpdateBuilder.isRemovedSorted = false)
    (hmaps : LoraMaps b.loraIdToRequestIds b.loraIdToLoraRequest uses) (hpos : ∀ x, ¬ uses 0 x)
    (huses : (b.rows i).requestLoraMapping = 0 ∨ uses (b.rows i).requestLoraMapping reqId) :
    ∃ b', b.removeRequest reqId = .ok (some i, b') ∧ Removed b b' reqId i ∧
      LoraMaps b'.loraIdToRequestIds b'.loraIdToLoraRequest
        fun l x => uses l x ∧ ¬ (l = (b.rows i).requestLoraMapping ∧ x = reqId) := by
  have happ : b.batchUpdateBuilder.removedAppend i =
      .ok { b.batchUpdateBuilder with removed := b.removed ++ [i], batchChanged := true } := by
    exact if_neg (by simp [hsorted])
  let cleared : InputBatch ε γ := { b.setRow i ((b.rows i).remove b.isPoolingModel) with
    batchUpdateBuilder :=
      { b.batchUpdateBuilder with removed := b.removed ++ [i], batchChanged := true }
    reqIdToIndex := b.reqIdToIndex.erase reqId
    reqIds := b.reqIds.set i none
    reqOutputTokenIds := b.reqOutputTokenIds.set i none }
  have hmaps' : LoraMaps cleared.loraIdToRequestIds cleared.loraIdToLoraRequest uses := hmaps
  obtain ⟨m, m', hlora, hmaps'⟩ := hmaps'.removeLora hpos huses
  unfold removeRequest
  rw [hidx]
  simp only [happ, ok_bind]
  rw [show cleared.removeLora reqId (b.rows i).requestLoraMapping = _ from hlora, ok_bind]
  cases hpool : b.isPoolingModel with
  | true =>
    refine ⟨_, if_pos hpool,
      ⟨⟨rfl, rfl, rfl, rfl, rfl, rfl, rfl, rfl⟩, rfl, rfl, rfl, rfl, ?_, rfl⟩, hmaps'⟩
    rw [hpool, if_pos rfl]
    rfl
  | false =>
    refine ⟨_, if_neg (by rw [show cleared.isPoolingModel = false from hpool]; simp),
      ⟨⟨rfl, rfl, rfl, rfl, rfl, rfl, rfl, rfl⟩, rfl, rfl, rfl, rfl, ?_, rfl⟩, hmaps'⟩
    rw [hpool, if_neg (by simp)]
    refine maskRow_map (f := fun mask => update mask i fun _ => false) rfl ?_
    funext j
    rcases eq_or_ne j i with rfl | hne
    · rw [update_self]
    · rw [update_of_ne hne]

lemma removeRequest_unknown (h : b.reqIdToIndex.get? reqId = none) :
    b.removeRequest reqId = .ok (none, b) := by
  rw [removeRequest, h]
  rfl

/-- What the update of a request's drafts did to the batch. -/
structure SpecUpdated (b b' : InputBatch ε γ) (i : ℕ) (spec : List ℤ) : Prop where
  setup : SameSetup b b'
  reqIds : b'.reqIds = b.reqIds
  reqOutputTokenIds : b'.reqOutputTokenIds = b.reqOutputTokenIds
  reqIdToIndex : b'.reqIdToIndex = b.reqIdToIndex
  rows : b'.rows = update b.rows i ((b.rows i).updateSpec spec)
  mask : b'.maskRow = b.maskRow
  builder : b'.batchUpdateBuilder = b.batchUpdateBuilder
  loraIdToRequestIds : b'.loraIdToRequestIds = b.loraIdToRequestIds
  loraIdToLoraRequest : b'.loraIdToLoraRequest = b.loraIdToLoraRequest

lemma updateReqSpecTokenIds_ok {i : ℕ} (h : b.reqIdToIndex.get? reqId = some i) (spec : List ℤ) :
    ∃ b', b.updateReqSpecTokenIds reqId spec = .ok b' ∧ SpecUpdated b b' i spec := by
  rw [updateReqSpecTokenIds, h]
  exact ⟨_, rfl, ⟨rfl, rfl, rfl, rfl, rfl, rfl, rfl, rfl⟩, rfl, rfl, rfl, rfl, rfl, rfl, rfl, rfl⟩

/-- What `swap_states` did to the batch. -/
structure RowsSwapped (b b' : InputBatch ε γ) (i1 i2 : ℕ) (id1 id2 : String) : Prop where
  setup : SameSetup b b'
  reqIds : b'.reqIds = (b.reqIds.set i1 (some id2)).set i2 (some id1)
  reqOutputTokenIds : b'.reqOutputTokenIds =
    (b.reqOutputTokenIds.set i1 (b.outputAt i2)).set i2 (b.outputAt i1)
  reqIdToIndex : b'.reqIdToIndex = (b.reqIdToIndex.set id1 i2).set id2 i1
  rows : b'.rows = update (update b.rows i1 ((b.rows i1).swapWith (b.rows i2) b.isPoolingModel)) i2
    ((b.rows i2).swapWith (b.rows i1) b.isPoolingModel)
  mask : b'.maskRow = if b.isPoolingModel then b.maskRow else swapMask b.maskRow i1 i2
  builder : b'.batchUpdateBuilder = if b.isPoolingModel then b.batchUpdateBuilder
    else { b.batchUpdateBuilder with moved := b.batchUpdateBuilder.moved ++ [⟨i1, i2, .swap⟩] }
  loraIdToRequestIds : b'.loraIdToRequestIds = b.loraIdToRequestIds
  loraIdToLoraRequest : b'.loraIdToLoraRequest = b.loraIdToLoraRequest

lemma swapMask_const (i1 i2 : ℕ) : swapMask (fun _ _ => false) i1 i2 = fun _ _ => false := by
  rw [swapMask, update_eq_self_iff.mpr rfl]
  exact update_eq_self_iff.mpr rfl

lemma outputAt_eq (b : InputBatch ε γ) (i : ℕ) :
    (b.reqOutputTokenIds[i]?).getD none = b.outputAt i := by
  rw [outputAt, cells]
  cases b.reqOutputTokenIds[i]? <;> rfl

lemma swapStates_ok {i1 i2 : ℕ} {id1 id2 : String} (h1 : b.rowId i1 = some id1)
    (h2 : b.rowId i2 = some id2) (hidx1 : b.reqIdToIndex.get? id1 = some i1)
    (hidx2 : b.reqIdToIndex.get? id2 = some i2) :
    ∃ b', b.swapStates i1 i2 = .ok b' ∧ RowsSwapped b b' i1 i2 id1 id2 := by
  unfold swapStates
  rw [cells_eq_some.mp h1, cells_eq_some.mp h2]
  dsimp only
  rw [hidx1, hidx2, outputAt_eq, outputAt_eq]
  dsimp only
  by_cases hpool : b.isPoolingModel = true
  · refine ⟨_, if_pos hpool, ⟨rfl, rfl, rfl, rfl, rfl, rfl, rfl, rfl⟩, rfl, rfl, rfl, rfl, ?_, ?_,
      rfl, rfl⟩
    · rw [if_pos hpool]
      rfl
    · rw [if_pos hpool]
  refine ⟨_, if_neg hpool, ⟨rfl, rfl, rfl, rfl, rfl, rfl, rfl, rfl⟩, rfl, rfl, rfl, rfl, ?_, ?_,
    rfl, rfl⟩
  · rw [if_neg hpool]
    exact maskRow_map (f := fun mask => swapMask mask i1 i2) rfl (swapMask_const i1 i2)
  · rw [if_neg hpool]

/-! ## Condensing -/

/-- `req_id_to_index` is the inverse of `_req_ids`. -/
def Indexed (b : InputBatch ε γ) :
    Prop := ∀ reqId i, b.reqIdToIndex.get? reqId = some i ↔ b.rowId i = some reqId

/-- What `condense` did to the rows that it moved. -/
structure Slid (b b' : InputBatch ε γ) (moves : List (ℕ × ℕ)) : Prop where
  setup : SameSetup b b'
  length : b'.reqIds.length = b.reqIds.length
  outputs_length : b'.reqOutputTokenIds.length = b.reqOutputTokenIds.length
  rowId : b'.rowId = moves.foldl (slide (fun _ x => x) fun _ => none) b.rowId
  outputAt : b'.outputAt = moves.foldl (slide (fun _ x => x) fun _ => none) b.outputAt
  rows : b'.rows = moves.foldl (slide (fun dst src => dst.moveFrom src b.isPoolingModel)
    fun src => src.vacate b.isPoolingModel) b.rows
  mask : b'.maskRow = if b.isPoolingModel then b.maskRow else
    moves.foldl (slide (fun _ x => x) id) b.maskRow
  indexed : b'.Indexed
  numReqs : b'.numReqs = b.numReqs
  removed : b.removed = b'.removed ++ (moves.map Prod.snd).reverse
  sorted : b'.batchUpdateBuilder.isRemovedSorted = b.batchUpdateBuilder.isRemovedSorted
  added : b'.batchUpdateBuilder.added = b.batchUpdateBuilder.added
  moved : b'.batchUpdateBuilder.moved = b.batchUpdateBuilder.moved ++
    if b.isPoolingModel then [] else moves.map fun mv => ⟨mv.1, mv.2, .unidirectional⟩
  loraIdToRequestIds : b'.loraIdToRequestIds = b.loraIdToRequestIds
  loraIdToLoraRequest : b'.loraIdToLoraRequest = b.loraIdToLoraRequest

lemma Slid.nil (h : b.Indexed) : Slid b b [] := by
  refine ⟨SameSetup.refl b, rfl, rfl, rfl, rfl, rfl, ?_, h, rfl, ?_, rfl, rfl, ?_, rfl, rfl⟩
  · exact (ite_self _).symm
  · simp
  · simp

lemma Slid.cons {mv : ℕ × ℕ} {moves : List (ℕ × ℕ)} (h : Slid b b' [mv])
    (h' : Slid b' b'' moves) : Slid b b'' (mv :: moves) where
  setup := h.setup.trans h'.setup
  length := h'.length.trans h.length
  outputs_length := h'.outputs_length.trans h.outputs_length
  rowId := by rw [h'.rowId, h.rowId]; rfl
  outputAt := by rw [h'.outputAt, h.outputAt]; rfl
  rows := by rw [h'.rows, h.rows, h.setup.isPoolingModel]; rfl
  mask := by
    rw [h'.mask, h.mask, h.setup.isPoolingModel]
    split_ifs <;> rfl
  indexed := h'.indexed
  numReqs := h'.numReqs.trans h.numReqs
  removed := by rw [h.removed, h'.removed]; simp
  sorted := h'.sorted.trans h.sorted
  added := h'.added.trans h.added
  moved := by
    rw [h'.moved, h.moved, h.setup.isPoolingModel]
    split_ifs <;> simp
  loraIdToRequestIds := h'.loraIdToRequestIds.trans h.loraIdToRequestIds
  loraIdToLoraRequest := h'.loraIdToLoraRequest.trans h.loraIdToLoraRequest

lemma cells_slide {α : Type*} {xs : List (Option α)} (hlast : last < xs.length)
    (hhole : hole < xs.length) :
    cells ((xs.set hole (cells xs last)).set last none) =
    slide (fun _ x => x) (fun _ => none) (cells xs) (last, hole) := by
  rw [cells_set (by simpa using hlast), cells_set hhole]
  rfl

lemma Indexed.slide (h : b.Indexed) (hlast : b.rowId last = some reqId)
    (hhole : b.rowId hole = none)
    (hrow : b'.rowId = Compaction.slide (fun _ x => x) (fun _ => none) b.rowId (last, hole))
    (hidx : b'.reqIdToIndex = b.reqIdToIndex.set reqId hole) : b'.Indexed := by
  rw [Indexed, hidx, get?_set_eq_update, hrow]
  exact Inverse.move h hlast hhole

variable {init : List ℕ}

lemma moveRequest_ok (hidx : b.Indexed)
    (hlast : b.rowId last = some reqId) (hhole : b.rowId hole = none) (hlt : hole < b.reqIds.length)
    (houtputs : b.reqOutputTokenIds.length = b.reqIds.length) (hrem : b.removed = init ++ [hole]) :
    ∃ b', { b with batchUpdateBuilder := { b.batchUpdateBuilder with removed := init } }.moveRequest
    last hole = .ok b' ∧
      Slid b b' [(last, hole)] := by
  have hlt' : last < b.reqIds.length := lt_of_cells hlast
  have hids : some reqId = cells b.reqIds last := hlast.symm
  have hrow : cells ((b.reqIds.set hole (some reqId)).set last none) =
      slide (fun _ x => x) (fun _ => none) b.rowId (last, hole) := by
    rw [hids, cells_slide hlt' hlt]
    rfl
  have houts : cells ((b.reqOutputTokenIds.set hole (b.outputAt last)).set last none) =
      slide (fun _ x => x) (fun _ => none) b.outputAt (last, hole) :=
    cells_slide (by omega) (by omega)
  have hnum : (b.reqIdToIndex.set reqId hole).length = b.reqIdToIndex.length :=
    length_set_of_some ((hidx reqId last).mpr hlast)
  have hsplit : b.removed = init ++ ([(last, hole)].map Prod.snd).reverse := hrem
  unfold moveRequest
  rw [cells_eq_some.mp hlast]
  dsimp only
  rw [outputAt_eq]
  by_cases hpool : b.isPoolingModel = true
  · refine ⟨_, if_pos hpool, ⟨rfl, rfl, rfl, rfl, rfl, rfl, rfl, rfl⟩, by simp, by simp, hrow,
      houts, rfl, ?_, hidx.slide hlast hhole hrow rfl, hnum, hsplit, rfl, rfl, ?_, rfl, rfl⟩
    · rw [if_pos hpool]
      rfl
    · rw [if_pos hpool, append_nil]
  refine ⟨_, if_neg hpool, ⟨rfl, rfl, rfl, rfl, rfl, rfl, rfl, rfl⟩, by simp, by simp, hrow, houts,
    rfl, ?_, hidx.slide hlast hhole hrow rfl, hnum, hsplit, rfl, rfl, ?_, rfl, rfl⟩
  · rw [if_neg hpool]
    have hkeep : ∀ mask : ℕ → ℕ → Bool,
      slide (fun _ x => x) id mask (last, hole) = update mask hole (mask last) := by
      intro mask
      rw [slide]
      refine update_eq_self_iff.mpr ?_
      rcases eq_or_ne last hole with heq | hne
      · dsimp only
        rw [heq, update_self]
        rfl
      · exact (update_of_ne hne _ _).symm
    show _ = slide (fun _ x => x) id b.maskRow (last, hole)
    rw [hkeep]
    refine maskRow_map (f := fun mask => update mask hole (mask last)) rfl ?_
    exact update_eq_self_iff.mpr rfl
  · rw [if_neg hpool]
    rfl

lemma popRemoved_nil (h : builder.removed = []) : builder.popRemoved = (none, builder) := by
  rw [popRemoved, h]
  rfl

lemma popRemoved_concat (builder : BatchUpdateBuilder) {hole : ℕ}
    (h : builder.ensureRemovedSorted.removed = init ++ [hole]) :
    builder.popRemoved = (some hole, { builder.ensureRemovedSorted with removed := init }) := by
  have hne : builder.removed.isEmpty = false := by
    rw [isEmpty_eq_false_iff]
    intro hnil
    rw [ensureRemovedSorted, hnil] at h
    split_ifs at h
    · rw [hnil] at h
      simp at h
    · simp at h
  rw [popRemoved, hne]
  simp [h]

lemma ensureRemovedSorted_of_sorted (h : builder.isRemovedSorted = true) :
    builder.ensureRemovedSorted = builder := by
  rw [ensureRemovedSorted, if_pos h]

/-- The loop of `condense` moves the rows as `slides` says. -/
lemma condenseLoop_ok {rounds last : ℕ} (hidx : b.Indexed)
    (houtputs : b.reqOutputTokenIds.length = b.reqIds.length)
    (hflag : b.batchUpdateBuilder.isRemovedSorted = true) (hpw : b.removed.Pairwise (· > ·))
    (hholes : ∀ i ∈ b.removed, i < b.reqIds.length ∧ b.rowId i = none)
    (hfilled : ∀ i ≤ last, i ∉ b.removed → (b.rowId i).isSome) :
    ∃ b', b.condenseLoop rounds last = .ok b' ∧ Slid b b' (slides b.removed rounds last) := by
  induction rounds generalizing b last with
  | zero => exact ⟨b, rfl, Slid.nil hidx⟩
  | succ rounds ih =>
    rw [condenseLoop, slides]
    rcases eq_nil_or_concat b.removed with hnil | ⟨init, hole, hconcat⟩
    · rw [popRemoved_nil hnil, hnil]
      exact ⟨b, rfl, Slid.nil hidx⟩
    rw [concat_eq_append] at hconcat
    have hsorted := ensureRemovedSorted_of_sorted hflag
    have hpop := popRemoved_concat b.batchUpdateBuilder (by rw [hsorted]; exact hconcat)
    rw [hsorted] at hpop
    rw [hpop, hconcat, getLast?_concat, dropLast_concat, ← hconcat]
    dsimp only
    generalize htop : lastFilled b.removed last = top
    have hle : top ≤ last := htop ▸ lastFilled_le _ _
    split_ifs with hcmp
    · exact ⟨b, rfl, Slid.nil hidx⟩
    have htopMem : top ∉ b.removed := by
      rw [← htop]
      exact lastFilled_notMem_of_pos (by omega)
    obtain ⟨reqId, hid⟩ := Option.isSome_iff_exists.mp (hfilled top hle htopMem)
    have hmem : hole ∈ b.removed := by simp [hconcat]
    obtain ⟨hlt, hnone⟩ := hholes hole hmem
    obtain ⟨b1, hmove, hslid⟩ := moveRequest_ok hidx hid hnone hlt houtputs hconcat
    have hrest : b1.removed = init := by
      have := hslid.removed
      rw [hconcat] at this
      exact (append_cancel_right this).symm
    have hoth : ∀ i, i ≠ top → i ≠ hole → b1.rowId i = b.rowId i := by
      intro i htop' hhole'
      rw [hslid.rowId]
      exact foldl_slide_of_notMem (by simpa using htop') (by simpa using hhole')
    rw [hconcat] at hpw
    have hnotMem : hole ∉ init := fun h =>
      lt_irrefl hole ((pairwise_append.mp hpw).2.2 hole h hole (mem_singleton_self _))
    have hholes' : ∀ i ∈ b1.removed, i < b1.reqIds.length ∧ b1.rowId i = none := by
      intro i hi
      rw [hrest] at hi
      have hi' : i ∈ b.removed := by rw [hconcat]; exact mem_append_left _ hi
      rw [hslid.length, hoth i (ne_of_mem_of_not_mem hi' htopMem) (ne_of_mem_of_not_mem hi hnotMem)]
      exact hholes i hi'
    have hfilled' : ∀ i ≤ top - 1, i ∉ b1.removed → (b1.rowId i).isSome := by
      intro i hi hnot
      rw [hrest] at hnot
      rcases eq_or_ne i hole with rfl | hne
      · have hto : b1.rowId i = b.rowId top := by
          rw [hslid.rowId]
          exact (update_of_ne (by omega) _ _).trans (update_self _ _ _)
        rw [hto, hid]
        rfl
      rw [hoth i (by omega) hne]
      refine hfilled i (by omega) ?_
      rw [hconcat, mem_append, mem_singleton]
      exact fun h => h.elim hnot hne
    obtain ⟨b', hloop, hslid'⟩ :=
      ih hslid.indexed (by rw [hslid.outputs_length, hslid.length, houtputs])
      (by rw [hslid.sorted, hflag]) (by rw [hrest]; exact (pairwise_append.mp hpw).1) hholes'
        hfilled'
    refine ⟨b', ?_, ?_⟩
    · rw [hmove]
      exact hloop
    · rw [hrest] at hslid'
      exact hslid.cons hslid'

end InputBatch

end Vllm.Worker
