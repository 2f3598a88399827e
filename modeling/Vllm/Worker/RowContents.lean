import Vllm.Worker.RunnerSteps

/-! # What a row holds for its request -/

namespace Vllm.Worker

open List ModelRunner

variable {ε γ : Type}

section reads

variable {α : Type*} {row src dst : ℕ → α} {start n : ℕ} {xs ys : List α}

def Reads (row : ℕ → α) (start : ℕ) (xs : List α) :
    Prop := ∀ j x, xs[j]? = some x → row (start + j) = x

lemma reads_append :
    Reads row start (xs ++ ys) ↔ Reads row start xs ∧ Reads row (start + xs.length) ys := by
  constructor
  · intro h
    refine ⟨fun j x hx => h j x ?_, fun j x hx => ?_⟩
    · rw [getElem?_append_left (lt_of_getElem? hx), hx]
    rw [add_assoc]
    apply h
    rw [getElem?_append_right (Nat.le_add_right _ _), Nat.add_sub_cancel_left, hx]
  rintro ⟨hx, hy⟩ j x hj
  rcases lt_or_ge j xs.length with hlt | hge
  · exact hx j x (by rwa [getElem?_append_left hlt] at hj)
  rw [getElem?_append_right hge] at hj
  have := hy _ x hj
  rwa [add_assoc, Nat.add_sub_cancel' hge] at this

lemma Reads.congr (h : Reads src start xs) (heq : ∀ j, j < start + xs.length → row j = src j) :
    Reads row start xs := by
  intro j x hx
  have hj := lt_of_getElem? hx
  rw [heq _ (by omega)]
  exact h j x hx

lemma reads_writeSlice : Reads (writeSlice row start xs) start xs := by
  intro j x hx
  rw [writeSlice, if_pos (Nat.le_add_right _ _), Nat.add_sub_cancel_left, getD_eq_getElem?_getD, hx]
  rfl

lemma Reads.writeSlice (h : Reads row start xs) (hn : start + xs.length ≤ n) :
    Reads (writeSlice row n ys) start xs :=
  h.congr fun _ hj => if_neg (by omega)

lemma Reads.copyPrefix (h : Reads src start xs) (hn : start + xs.length ≤ n) :
    Reads (copyPrefix n src dst) start xs :=
  h.congr fun _ hj => if_pos (by omega)

end reads

def HoldsBlocks (table : List BlockRow) (blocks : List (List ℕ)) : Prop :=
  List.Forall₂ (fun row ids => row.numBlocks = ids.length ∧ Reads row.blocks 0 ids) table blocks

lemma HoldsBlocks.addRow {table : List BlockRow} {blocksPerKvBlock : List ℕ}
    {blockIds : List (List ℕ)} (htab : table.length = blocksPerKvBlock.length)
    (hids : blockIds.length = blocksPerKvBlock.length) :
    HoldsBlocks
    (zipWith (fun r (n, ids) => BlockRow.addRow r n ids) table (blocksPerKvBlock.zip blockIds))
      (zipWith BlockRow.mapToKernelBlocks blocksPerKvBlock blockIds) := by
  induction blocksPerKvBlock generalizing table blockIds with
  | nil =>
    rw [eq_nil_of_length_eq_zero htab]
    exact Forall₂.nil
  | cons n blocksPerKvBlock ih =>
    obtain ⟨row, table, rfl⟩ := exists_cons_of_length_eq_add_one htab
    obtain ⟨ids, blockIds, rfl⟩ := exists_cons_of_length_eq_add_one hids
    refine Forall₂.cons ⟨zero_add _, ?_⟩ (ih ?_ ?_)
    · show Reads (writeSlice row.blocks 0 _) 0 _
      exact reads_writeSlice
    · simpa using htab
    · simpa using hids

lemma HoldsBlocks.moveRow {src dst : List BlockRow} {blocks : List (List ℕ)}
    (h : HoldsBlocks src blocks)
    (hlen : dst.length = src.length) : HoldsBlocks (zipWith BlockRow.moveRow src dst) blocks := by
  induction h generalizing dst with
  | nil => exact Forall₂.nil
  | @cons row ids src blocks hrow _ ih =>
    obtain ⟨row', dst, rfl⟩ := exists_cons_of_length_eq_add_one hlen
    refine Forall₂.cons ⟨hrow.1, hrow.2.copyPrefix ?_⟩ (ih (by simpa using hlen))
    rw [zero_add, hrow.1]

/-! ### Requests -/

namespace CachedRequestState

variable (r : CachedRequestState ε γ)

lemma length_promptTokenIds : (r.promptTokenIds.getD []).length ≤ r.numPromptTokens := by
  have h := r.length_ok
  unfold lengthFromPromptTokenIdsOrEmbeds at h
  split at h
  next => cases h
  next => simp_all
  next hids _ =>
    rw [hids]
    exact (Except.ok.inj h).le
  rename_i hids _
  rw [hids]
  split_ifs at h
  exact (Except.ok.inj h).le

lemma length_promptFlags {b : InputBatch ε γ} (hfits : Fits b r) :
    (Row.promptFlags r).length = r.numPromptTokens := by
  unfold Row.promptFlags
  split
  next =>
    cases hflags : r.promptIsTokenIds with
    | none => exact length_replicate
    | some flags => exact hfits.flags flags hflags
  next => exact length_replicate

/-- The mask row of the request: a token is masked if tokens are named and it is not among them. -/
def mask : ℕ → Bool :=
  match r.samplingParams.bind fun p => Row.nonEmpty? p.allowedTokenIds with
  | some allowed => fun v => decide (v ∉ allowed)
  | none => fun _ => false

end CachedRequestState

namespace Row

def samplingFields (row : Row ε γ) :
    (ℚ × ℚ × ℤ) × (ℚ × ℚ × ℚ) × ℕ × Option γ × Option (List (List ℤ)) :=
  ((row.temperature, row.topP, row.topK),
    (row.frequencyPenalty, row.presencePenalty, row.repetitionPenalty),
    row.numAcceptedTokens, row.generator, row.badWordsTokenIds)

/-- The row holds the data of the request and its drafts. -/
structure Holds (row : Row ε γ) (b : InputBatch ε γ) (r : CachedRequestState ε γ) (spec : List ℤ) :
    Prop where
  promptTokens : Reads row.tokenIds 0 (r.promptTokenIds.getD [])
  tokens : Reads row.tokenIds r.numPromptTokens (r.outputTokenIds ++ spec)
  promptIsTokenIds : Reads row.isTokenIds 0 (promptFlags r)
  isTokenIds :
    Reads row.isTokenIds r.numPromptTokens
    (List.replicate (r.outputTokenIds.length + spec.length) true)
  promptEmbeds : row.promptEmbeds = r.promptEmbeds
  numTokensNoSpec : row.numTokensNoSpec = r.numTokens
  numPromptTokens : row.numPromptTokens = r.numPromptTokens
  numComputedTokens : row.numComputedTokens = r.numComputedTokens
  specTokenIds : row.specTokenIds = spec
  blockTable :
    HoldsBlocks row.blockTable
    (List.zipWith BlockRow.mapToKernelBlocks b.blocksPerKvBlock r.blockIds)
  requestLoraMapping : row.requestLoraMapping = r.loraId
  sampling : ∀ params, r.samplingParams = some params →
    row.samplingFields = (({} : Row ε γ).addSampling b.vocabSize params r.generator).samplingFields
  needsTokenIds : r.samplingParams = none → ∀ params, r.poolingParams = some params →
    row.logitsProcessingNeedsTokenIds = params.requiresTokenIds

variable {row src dst : Row ε γ} {b b' : InputBatch ε γ} {r : CachedRequestState ε γ}
  {spec : List ℤ}

lemma Holds.congr (h : row.Holds b r spec) (hsetup : InputBatch.SameSetup b b') :
    row.Holds b' r spec := { h with
    blockTable := by rw [hsetup.blocksPerKvBlock]; exact h.blockTable
    sampling := by rw [hsetup.vocabSize]; exact h.sampling }

lemma Holds.activeTokenCount (h : row.Holds b r spec) :
    row.activeTokenCount = r.numTokens + spec.length := by
  rw [Row.activeTokenCount, h.numTokensNoSpec, h.specTokenIds]

/-- `add_request` writes the data of the request into its row. -/
lemma holds_addedRow (hfits : Fits b r) (htab : row.blockTable.length = b.blocksPerKvBlock.length)
    (hembeds : r.promptEmbeds.isSome ∨ row.promptEmbeds = none) (hgen : row.generator = none)
    (hbad : row.badWordsTokenIds = none) : (b.addedRow r row).Holds b r [] := by
  have hprompt := r.length_promptTokenIds
  have hflags := r.length_promptFlags hfits
  have hadd : (row.addTokens b.blocksPerKvBlock r).promptEmbeds = r.promptEmbeds := by
    rcases hembeds with hsome | hnone
    · obtain ⟨embeds, he⟩ := Option.isSome_iff_exists.mp hsome
      simp [addTokens, he]
    · simp [addTokens, hnone]
  have htokens : Reads (row.addTokens b.blocksPerKvBlock r).tokenIds 0 (r.promptTokenIds.getD []) :=
    reads_writeSlice.writeSlice (by omega)
  have hout :
    Reads (row.addTokens b.blocksPerKvBlock r).tokenIds r.numPromptTokens (r.outputTokenIds ++
    []) := by
    rw [append_nil]
    exact reads_writeSlice
  have hpf : Reads (row.addTokens b.blocksPerKvBlock r).isTokenIds 0 (promptFlags r) :=
    reads_writeSlice.writeSlice (by omega)
  have hof : Reads (row.addTokens b.blocksPerKvBlock r).isTokenIds r.numPromptTokens
      (replicate (r.outputTokenIds.length + ([] : List ℤ).length) true) := reads_writeSlice
  have hblk := HoldsBlocks.addRow htab hfits.blocks
  unfold InputBatch.addedRow
  cases hs : r.samplingParams with
  | some params =>
    refine ⟨htokens, hout, hpf, hof, hadd, rfl, rfl, rfl, rfl, hblk, rfl, ?_,
      fun hnone => by simp [hs] at hnone⟩
    intro params' hs'
    obtain rfl : params = params' := Option.some.inj (hs.symm.trans hs')
    simp [samplingFields, addSampling, addTokens, hgen, hbad]
  | none =>
    cases hp : r.poolingParams with
    | some params =>
      refine ⟨htokens, hout, hpf, hof, hadd, rfl, rfl, rfl, rfl, hblk, rfl,
        fun params' hs' => by simp [hs] at hs', ?_⟩
      intro _ params' hp'
      obtain rfl : params = params' := Option.some.inj (hp.symm.trans hp')
      rfl
    | none =>
      exact ⟨htokens, hout, hpf, hof, hadd, rfl, rfl, rfl, rfl, hblk, rfl,
        fun params' hs' => by simp [hs] at hs',
        fun _ params' hp' => by simp [hp] at hp'⟩

lemma Holds.updateSpec (h : row.Holds b r spec) (hfits : Fits b r) (spec' : List ℤ) :
    (row.updateSpec spec').Holds b r spec' := by
  have hprompt := r.length_promptTokenIds
  have hflags := r.length_promptFlags hfits
  have hout := (reads_append.mp h.tokens).1
  have hof : Reads row.isTokenIds r.numPromptTokens (replicate r.outputTokenIds.length true) := by
    have := h.isTokenIds
    rw [replicate_add] at this
    exact (reads_append.mp this).1
  have hnum : row.numTokensNoSpec = r.numPromptTokens + r.outputTokenIds.length := h.numTokensNoSpec
  unfold Row.updateSpec
  split_ifs with hemp
  · subst hemp
    exact { h with
      tokens := by rw [append_nil]; exact hout
      isTokenIds := by simpa using hof
      specTokenIds := rfl }
  refine { h with
    promptTokens := h.promptTokens.writeSlice (by omega)
    tokens := reads_append.mpr ⟨hout.writeSlice hnum.ge, ?_⟩
    promptIsTokenIds := h.promptIsTokenIds.writeSlice (by omega)
    isTokenIds := ?_
    specTokenIds := rfl }
  · rw [← hnum]
    exact reads_writeSlice
  rw [replicate_add, reads_append, length_replicate, ← hnum]
  refine ⟨hof.writeSlice ?_, reads_writeSlice⟩
  rw [length_replicate, hnum]

lemma Holds.copied {active : ℕ} {tokens : ℕ → ℤ} {flags : ℕ → Bool} (h : src.Holds b r spec)
    (hfits : Fits b r) (hle : src.activeTokenCount ≤ active)
    (htokens : row.tokenIds = copyPrefix active src.tokenIds tokens)
    (hflags : row.isTokenIds = copyPrefix active src.isTokenIds flags)
    (hembeds : row.promptEmbeds = src.promptEmbeds)
    (hnums : (row.numTokensNoSpec, row.numPromptTokens, row.numComputedTokens, row.specTokenIds,
      row.requestLoraMapping) = (src.numTokensNoSpec, src.numPromptTokens, src.numComputedTokens,
        src.specTokenIds,
      src.requestLoraMapping))
    (hblk : HoldsBlocks row.blockTable
      (zipWith BlockRow.mapToKernelBlocks b.blocksPerKvBlock r.blockIds))
    (hsampling : b.isPoolingModel = false → row.samplingFields = src.samplingFields)
    (hflag : b.isPoolingModel = true →
      row.logitsProcessingNeedsTokenIds = src.logitsProcessingNeedsTokenIds) :
    row.Holds b r spec := by
  have hprompt := r.length_promptTokenIds
  have hlength := r.length_promptFlags hfits
  have hactive := h.activeTokenCount
  have hnum : r.numTokens = r.numPromptTokens + r.outputTokenIds.length := rfl
  simp only [Prod.mk.injEq] at hnums
  obtain ⟨hnoSpec, hpromptTokens, hcomp, hspec, hlora⟩ := hnums
  refine ⟨?_, ?_, ?_, ?_, hembeds.trans h.promptEmbeds, hnoSpec.trans h.numTokensNoSpec,
    hpromptTokens.trans h.numPromptTokens, hcomp.trans h.numComputedTokens,
      hspec.trans h.specTokenIds, hblk,
    hlora.trans h.requestLoraMapping, fun params hs => ?_, fun hnone params hp => ?_⟩
  · rw [htokens]
    exact h.promptTokens.copyPrefix (by omega)
  · rw [htokens]
    exact h.tokens.copyPrefix (by rw [length_append]; omega)
  · rw [hflags]
    exact h.promptIsTokenIds.copyPrefix (by omega)
  · rw [hflags]
    exact h.isTokenIds.copyPrefix (by rw [length_replicate]; omega)
  · cases hpool : b.isPoolingModel with
    | true => cases (hfits.pooling hpool).1.symm.trans hs
    | false => exact (hsampling hpool).trans (h.sampling params hs)
  cases hpool : b.isPoolingModel with
  | true => exact (hflag hpool).trans (h.needsTokenIds hnone params hp)
  | false =>
    have := hfits.sampling hpool
    rw [hnone] at this
    cases this

lemma Holds.moveFrom (h : src.Holds b r spec) (hfits : Fits b r)
    (htab : dst.blockTable.length = src.blockTable.length)
    (hembeds : src.promptEmbeds.isSome ∨ dst.promptEmbeds = none) (hgen : dst.generator = none)
    (hbad : dst.badWordsTokenIds = none) (hflag : b.isPoolingModel = true →
      dst.logitsProcessingNeedsTokenIds = src.logitsProcessingNeedsTokenIds) :
    (dst.moveFrom src b.isPoolingModel).Holds b r spec := by
  have hemb : (src.promptEmbeds <|> dst.promptEmbeds) = src.promptEmbeds := by
    rcases hembeds with hsome | hnone
    · obtain ⟨embeds, he⟩ := Option.isSome_iff_exists.mp hsome
      rw [he]
      rfl
    · rw [hnone]
      cases src.promptEmbeds <;> rfl
  unfold Row.moveFrom
  cases hpool : b.isPoolingModel with
  | true =>
    exact h.copied hfits le_rfl rfl rfl hemb rfl (h.blockTable.moveRow htab)
      (fun hno => by rw [hpool] at hno; cases hno) hflag
  | false =>
    refine h.copied hfits le_rfl rfl rfl hemb rfl (h.blockTable.moveRow htab) (fun _ => ?_)
      fun hyes => by rw [hpool] at hyes; cases hyes
    simp [samplingFields, hgen, hbad]

lemma Holds.swapWith (h : src.Holds b r spec) (hfits : Fits b r) (hflag : b.isPoolingModel = true →
      dst.logitsProcessingNeedsTokenIds = src.logitsProcessingNeedsTokenIds) :
    (dst.swapWith src b.isPoolingModel).Holds b r spec := by
  cases hpool : b.isPoolingModel with
  | true =>
    exact h.copied hfits (le_max_right _ _) rfl rfl rfl rfl h.blockTable
      (fun hno => by rw [hpool] at hno; cases hno) hflag
  | false =>
    exact h.copied hfits (le_max_right _ _) rfl rfl rfl rfl h.blockTable (fun _ => rfl)
      fun hyes => by rw [hpool] at hyes; cases hyes

end Row

end Vllm.Worker
