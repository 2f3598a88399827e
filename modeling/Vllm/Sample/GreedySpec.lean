import Vllm.Sample.DraftRows

/-! # Greedy decoding with draft tokens -/

namespace Vllm.Sample

open Ragged List RejectionSampler SpecRequest

variable {L ρ : Type}

namespace SpecRequest

variable (r : SpecRequest L ρ)

/-- The prompt, the output and the drafts. -/
def tokens : List ℕ := r.promptTokenIds ++ r.outputTokenIds ++ r.specTokenIds

def scheduledTokens : List ℕ := r.tokens.drop (r.tokens.length - r.numScheduledTokens)

/-- The logits after a scheduled token, which depend on the tokens up to it only. -/
def logitsAt (position : ℕ) :
    ℕ → L := r.logits (r.tokens.take (r.tokens.length - r.numScheduledTokens + position + 1))

end SpecRequest

section steps

variable [LinearOrder L] [OrderBot L] (applyPenalties : ρ → List ℕ → List ℕ → (ℕ → L) → ℕ → L)
  (vocabSize : ℕ) (reqs : List (SpecRequest L ρ))
  (m : SamplingMetadata ρ)

/-- The tokens that a step with draft tokens emits. -/
def specStep : Py (List (List ℕ)) := do
  let metadata ← calcSpecDecodeMetadata (reqs.flatMap (·.scheduledTokens)) (reqs.map (·.numDrafts))
    (cumsum 0 (reqs.map (·.numScheduledTokens)))
  let logits ← gather (ragged (·.numScheduledTokens) (·.logitsAt) reqs) metadata.logitsIndices
  let outputTokenIds ← RejectionSampler.forward applyPenalties vocabSize metadata logits m
  return RejectionSampler.parseOutput outputTokenIds vocabSize

def samplerStep (outputs : List (List ℕ)) : Py (List (List ℕ)) := do
  let logits := List.zipWith (fun r out => r.logits (r.promptTokenIds ++ out)) reqs outputs
  let tokens ← Sampler.forward applyPenalties vocabSize logits { m with outputTokenIds := outputs }
    false
  return List.zipWith (fun out token => out ++ [token]) outputs tokens

/-- One token is added to every request at a time. -/
def samplerSteps : ℕ → List (List ℕ) → Py (List (List ℕ))
  | 0, outputs => .ok outputs
  | k + 1, outputs => do
    let outputs ← samplerStep applyPenalties vocabSize reqs m outputs
    samplerSteps k outputs

end steps

/-- The tokens up to and including the first that differs from the draft, or one more than the draft
has. -/
def upToMismatch : List ℕ → List ℕ → List ℕ
  | _, [] => []
  | [], token :: _ => [token]
  | draft :: drafts, token :: tokens =>
    if draft = token then token :: upToMismatch drafts tokens else [token]

/-! ### The metadata of the step -/

section metadata

variable {reqs : List (SpecRequest L ρ)} (r : SpecRequest L ρ)

lemma length_scheduledTokens : r.scheduledTokens.length = r.numScheduledTokens := by
  have hle : r.numScheduledTokens ≤ r.tokens.length := r.scheduled.2
  rw [scheduledTokens, length_drop]
  omega

lemma flatMap_eq_ragged {ι : Type} (f : ι → List ℕ) (xs : List ι) :
    xs.flatMap f = ragged (fun x => (f x).length) (fun x j => (f x).getD j 0) xs := by
  congr 1
  funext x
  apply ext_getElem
  · simp
  intro i h _
  simp [h]

lemma drafts_eq (j : ℕ) :
    r.scheduledTokens.getD (r.numScheduledTokens - (r.numDrafts + 1) + (j + 1)) 0 =
    r.specTokenIds.getD j 0 := by
  obtain ⟨hlo, hhi⟩ := r.scheduled
  have htokens : r.tokens = (r.promptTokenIds ++ r.outputTokenIds) ++ r.specTokenIds := rfl
  have hlen : r.tokens.length = (r.promptTokenIds ++ r.outputTokenIds).length + r.numDrafts := by
    rw [htokens, length_append]
    rfl
  have hhi' : r.numScheduledTokens ≤ r.tokens.length := hhi
  have hlo' : r.numDrafts + 1 ≤ r.numScheduledTokens := hlo
  rw [getD_eq_getElem?_getD, getD_eq_getElem?_getD, scheduledTokens, getElem?_drop, htokens,
    getElem?_append_right (by rw [← htokens]; omega)]
  congr 2
  rw [← htokens]
  omega

lemma logitsAt_eq (j : ℕ) :
    r.logitsAt (r.numScheduledTokens - (r.numDrafts + 1) + j) =
    r.logits (r.promptTokenIds ++ r.history j) := by
  obtain ⟨hlo, hhi⟩ := r.scheduled
  have hlen : r.tokens.length = (r.promptTokenIds ++ r.outputTokenIds).length + r.numDrafts := by
    rw [tokens, length_append]
    rfl
  have hhi' : r.numScheduledTokens ≤ r.tokens.length := hhi
  have hlo' : r.numDrafts + 1 ≤ r.numScheduledTokens := hlo
  have hpos : r.tokens.length - r.numScheduledTokens +
    (r.numScheduledTokens - (r.numDrafts + 1) + j) + 1 =
      (r.promptTokenIds ++ r.outputTokenIds).length + j := by omega
  rw [logitsAt, hpos, tokens, take_length_add_append, history, append_assoc]

def stepMetadata (reqs : List (SpecRequest L ρ)) (maxSpecLen : ℕ) : SpecDecodeMetadata where
  draftTokenIds := ragged (·.numDrafts) (fun r j => r.specTokenIds.getD j 0) reqs
  numDraftTokens := reqs.map (·.numDrafts)
  cuNumDraftTokens := cumsum 0 (reqs.map (·.numDrafts))
  targetLogitsIndices :=
    ragged (fun p => p.1.numDrafts) (fun p j => p.2 + j) (withOffset (·.numDrafts + 1) 0 reqs)
  bonusLogitsIndices := (withOffset (·.numDrafts + 1) 0 reqs).map fun p => p.2 + p.1.numDrafts
  logitsIndices := ragged (fun p => p.1.numDrafts + 1)
    (fun p j => p.2 + (p.1.numScheduledTokens - (p.1.numDrafts + 1) + j))
      (withOffset (·.numScheduledTokens) 0 reqs)
  maxSpecLen

/-- The metadata points each request to its own rows. -/
lemma calcSpecDecodeMetadata_eq (hne : reqs ≠ []) :
    ∃ maxLen, calcSpecDecodeMetadata (reqs.flatMap (·.scheduledTokens)) (reqs.map (·.numDrafts))
        (cumsum 0 (reqs.map (·.numScheduledTokens))) = .ok (stepMetadata reqs maxLen) ∧
      (∃ r ∈ reqs, maxLen = r.numDrafts) ∧ ∀ r ∈ reqs, r.numDrafts ≤ maxLen := by
  have hlo : ∀ r ∈ reqs, r.numDrafts + 1 ≤ r.numScheduledTokens := fun r _ => r.scheduled.1
  have hlogits :
    zipWith (· + ·) (npRepeat (zipWith (· - ·) (cumsum 0 (reqs.map (·.numScheduledTokens)))
      (reqs.map (·.numDrafts + 1))) (reqs.map (·.numDrafts + 1)))
        (arange (reqs.map (·.numDrafts + 1))) =
      (stepMetadata reqs 0).logitsIndices := positions_eq hlo
  have htarget : zipWith (· + ·) (npRepeat (zipWith (· - ·) (cumsum 0 (reqs.map (·.numDrafts + 1)))
      (reqs.map (·.numDrafts + 1))) (reqs.map (·.numDrafts))) (arange (reqs.map (·.numDrafts))) =
      (stepMetadata reqs 0).targetLogitsIndices := by
    rw [positions_eq fun r _ => le_rfl]
    exact ragged_congr fun p _ j _ => by rw [Nat.sub_self, Nat.zero_add]
  have hbonus : (cumsum 0 (reqs.map (·.numDrafts + 1))).map (· - 1) =
    (stepMetadata reqs 0).bonusLogitsIndices := by
    rw [cumsum_map, map_map]
    rfl
  have hinput : reqs.flatMap (·.scheduledTokens) =
      ragged (·.numScheduledTokens) (fun r p => r.scheduledTokens.getD p 0) reqs := by
    rw [flatMap_eq_ragged]
    simp only [length_scheduledTokens]
  -- the draft tokens are the input ids behind the rows of the draft tokens
  have hgather : gather (reqs.flatMap (·.scheduledTokens)) (stepMetadata reqs 0).logitsIndices =
      .ok (ragged (·.numDrafts + 1)
        (fun r j => r.scheduledTokens.getD (r.numScheduledTokens - (r.numDrafts + 1) + j) 0)
          reqs) := by
    rw [hinput]
    refine gather_ragged (n := fun r : SpecRequest L ρ => r.numScheduledTokens)
      (k := fun r => r.numDrafts + 1) (f := fun r p => r.scheduledTokens.getD p 0)
      (fun r j => r.numScheduledTokens - (r.numDrafts + 1) + j) fun r hr j hj => ?_
    have := hlo r hr
    omega
  have hdrafts : gather (ragged (·.numDrafts + 1)
        (fun r j => r.scheduledTokens.getD (r.numScheduledTokens - (r.numDrafts + 1) + j) 0) reqs)
        ((stepMetadata reqs 0).targetLogitsIndices.map (· + 1)) =
          .ok (stepMetadata reqs 0).draftTokenIds := by
    rw [stepMetadata, map_ragged]
    refine (gather_ragged (fun _ j => j + 1) fun r _ j hj => by omega).trans ?_
    exact congrArg Except.ok (ragged_congr fun r _ j _ => drafts_eq r j)
  obtain ⟨maxLen, hmax⟩ : ∃ k, (reqs.map (·.numDrafts)).max? = some k :=
    Option.isSome_iff_exists.mp (by simpa [isSome_max?_iff] using hne)
  obtain ⟨hmem, hle⟩ := max?_eq_some_iff.mp hmax
  refine ⟨maxLen, ?_, ?_, ?_⟩
  · have hsampled : (reqs.map (·.numDrafts)).map (· + 1) = reqs.map (·.numDrafts + 1) := map_map
    rw [calcSpecDecodeMetadata, hsampled, hlogits, htarget, hbonus, hgather, ok_bind, hdrafts,
      pyMax, hmax]
    rfl
  · obtain ⟨r, hr, heq⟩ := mem_map.mp hmem
    exact ⟨r, hr, heq.symm⟩
  · exact fun r hr => hle _ (mem_map_of_mem hr)

section

variable (reqs) (maxLen : ℕ)

lemma gather_logits :
    gather (ragged (·.numScheduledTokens) (·.logitsAt) reqs)
    (stepMetadata reqs maxLen).logitsIndices =
      .ok (ragged (·.numDrafts + 1) (fun r j => r.logits (r.promptTokenIds ++ r.history j))
        reqs) := by
  refine (gather_ragged (n := fun r : SpecRequest L ρ => r.numScheduledTokens)
    (k := fun r => r.numDrafts + 1) (f := fun r => r.logitsAt)
    (fun r j => r.numScheduledTokens - (r.numDrafts + 1) + j) fun r _ j hj => ?_).trans ?_
  · have hlo : r.numDrafts + 1 ≤ r.numScheduledTokens := r.scheduled.1
    omega
  · exact congrArg Except.ok (ragged_congr fun r _ j _ => logitsAt_eq r j)

lemma gather_bonusLogits :
    gather (ragged (·.numDrafts + 1) (fun r j => r.logits (r.promptTokenIds ++ r.history j)) reqs)
        (stepMetadata reqs maxLen).bonusLogitsIndices =
      .ok (reqs.map fun r =>
        r.logits (r.promptTokenIds ++ (r.outputTokenIds ++ r.specTokenIds))) := by
  rw [stepMetadata, ← ragged_one (fun p : SpecRequest L ρ × ℕ => fun _ => p.2 + p.1.numDrafts)]
  refine (gather_ragged (k := fun _ => 1) (fun (r : SpecRequest L ρ) _ => r.numDrafts)
    fun r _ j _ => Nat.lt_succ_self _).trans ?_
  rw [ragged_one]
  simp [history, numDrafts]

lemma gather_targetLogits :
    gather (ragged (·.numDrafts + 1) (fun r j => r.logits (r.promptTokenIds ++ r.history j)) reqs)
        (stepMetadata reqs maxLen).targetLogitsIndices =
      .ok (ragged (·.numDrafts) (fun r j => r.logits (r.promptTokenIds ++ r.history j)) reqs) :=
  gather_ragged (fun _ j => j) fun r _ j hj => by omega

lemma combine_outputs :
    Sampler.combineOutputsWithSpecTokens (reqs.map (·.outputTokenIds))
    (some (reqs.map (·.specTokenIds))) =
      reqs.map fun r => r.outputTokenIds ++ r.specTokenIds := by
  rw [Sampler.combineOutputsWithSpecTokens, zipWith_map, zipWith_self]
  refine map_congr_left fun r _ => ?_
  split_ifs with hemp
  · rw [List.isEmpty_iff.mp hemp, append_nil]
  · rfl

end

end metadata

/-! ### Rejection -/

/-- The draft tokens are checked against the tokens that the rows before them choose. -/
def verify (next : List ℕ → ℕ) : List ℕ → List ℕ → List ℕ
  | past, [] => [next past]
  | past, draft :: drafts =>
    if draft = next past then next past :: verify next (past ++ [draft]) drafts else [next past]

/-- What the kernel writes for drafts with the tokens of their rows, and the token behind them. -/
def written : List (ℕ × ℕ) → ℕ → List ℕ
  | [], bonus => [bonus]
  | (draft, target) :: rest, bonus =>
    if draft = target then target :: written rest bonus else [target]

lemma length_written_le (pairs : List (ℕ × ℕ)) (bonus : ℕ) :
    (written pairs bonus).length ≤ pairs.length + 1 := by
  induction pairs with
  | nil => exact le_rfl
  | cons p pairs ih =>
    rw [written]
    split_ifs
    · simpa using ih
    · simp

lemma greedyRounds_eq (drafts targets : List ℕ) (startIdx : ℕ) (pairs : List (ℕ × ℕ)) (bonus : ℕ)
    (done : List ℤ) (free : ℕ) (hpairs : ∀ j p, pairs[j]? = some p →
      drafts[startIdx + (done.length + j)]? = some p.1 ∧
      targets[startIdx + (done.length + j)]? = some p.2) :
    ∃ row rejected, greedyRounds drafts targets startIdx done.length pairs.length
        (done ++ replicate (pairs.length + 1 + free) placeholderTokenId) = .ok (row, rejected) ∧
      (if rejected then row else row.set (done.length + pairs.length) (bonus : ℤ)) =
        done ++ (written pairs bonus).map (Nat.cast : ℕ → ℤ) ++
          replicate (pairs.length + 1 + free - (written pairs bonus).length)
          placeholderTokenId := by
  induction pairs generalizing done with
  | nil =>
    refine ⟨_, false, rfl, ?_⟩
    rw [if_neg (by simp), written, length_nil, zero_add, add_comm 1 free, replicate_succ]
    simp
  | cons p pairs ih =>
    obtain ⟨hdraft, htarget⟩ := hpairs 0 p rfl
    rw [add_zero] at hdraft htarget
    rw [length_cons, greedyRounds, getItem_eq hdraft, ok_bind, getItem_eq htarget, ok_bind, written]
    have hset : (done ++ replicate (pairs.length + 1 + 1 + free) placeholderTokenId).set done.length
        (p.2 : ℤ) = done ++ [(p.2 : ℤ)] ++
          replicate (pairs.length + 1 + free) placeholderTokenId := by
      rw [show pairs.length + 1 + 1 + free = pairs.length + 1 + free + 1 by omega, replicate_succ]
      simp
    rw [hset]
    by_cases heq : p.1 = p.2
    · rw [if_neg (not_not.mpr heq), if_pos heq]
      obtain ⟨row, rejected, hrun, hrow⟩ := ih (done ++ [(p.2 : ℤ)]) fun j q hq => by
        have := hpairs (j + 1) q hq
        rw [length_append, length_singleton, add_assoc, Nat.add_comm 1 j]
        exact this
      rw [length_append, length_singleton] at hrun hrow
      refine ⟨row, rejected, hrun, ?_⟩
      have hle := length_written_le pairs bonus
      rw [show done.length + (pairs.length + 1) = done.length + 1 + pairs.length by omega, hrow]
      simp
      omega
    rw [if_pos heq, if_neg heq]
    refine ⟨_, true, rfl, ?_⟩
    rw [if_pos rfl]
    simp

variable (next : List ℕ → ℕ) (past spec : List ℕ)

lemma written_eq_verify :
    written ((range spec.length).map fun j => (spec.getD j 0, next (past ++ spec.take j)))
    (next (past ++ spec)) =
      verify next past spec := by
  induction spec generalizing past with
  | nil => simp [written, verify]
  | cons draft drafts ih =>
    have htail := ih (past ++ [draft])
    simp only [append_assoc, singleton_append] at htail
    rw [verify, ← htail, length_cons, range_succ_eq_map, map_cons, map_map, written]
    simp [Function.comp_def]

variable {vocabSize : ℕ}

lemma verify_lt {next : List ℕ → ℕ} (hnext : ∀ past, next past < vocabSize) (past spec : List ℕ) :
    ∀ token ∈ verify next past spec, token < vocabSize := by
  induction spec generalizing past with
  | nil => simpa [verify] using hnext past
  | cons draft drafts ih =>
    rw [verify]
    split_ifs
    · rw [forall_mem_cons]
      exact ⟨hnext past, ih _⟩
    · simpa using hnext past

lemma parse_row {tokens : List ℕ} (h : ∀ token ∈ tokens, token < vocabSize) (free : ℕ) :
    ((tokens.map (Nat.cast : ℕ → ℤ) ++ replicate free placeholderTokenId).filter
      fun token => token ≠ placeholderTokenId && token < vocabSize).map Int.toNat = tokens := by
  have hkeep : (tokens.map (Nat.cast : ℕ → ℤ)).filter
      (fun token => token ≠ placeholderTokenId && token < vocabSize) = tokens.map (Nat.cast : ℕ →
        ℤ) := by
    rw [filter_eq_self]
    intro token htoken
    obtain ⟨t, ht, rfl⟩ := mem_map.mp htoken
    have := h t ht
    simp [placeholderTokenId]
    omega
  rw [filter_append, hkeep, filter_eq_nil_iff.mpr (by simp), append_nil, map_map]
  simp [Function.comp_def]

variable {r : SpecRequest L ρ}

/-- The kernel writes the drafts up to the first mismatch, and then the target token. -/
lemma kernel_eq {reqs : List (SpecRequest L ρ)} {maxLen : ℕ} (next : SpecRequest L ρ → List ℕ → ℕ)
    {i : ℕ} (hi : reqs[i]? = some r) (hle : r.numDrafts ≤ maxLen) :
    rejectionGreedySampleKernel maxLen (cumsum 0 (reqs.map (·.numDrafts)))
        (ragged (·.numDrafts) (fun r j => r.specTokenIds.getD j 0) reqs)
        (ragged (·.numDrafts) (fun r j => next r (r.history j)) reqs)
        (reqs.map fun r => next r (r.outputTokenIds ++ r.specTokenIds)) i =
      .ok ((verify (next r) r.outputTokenIds r.specTokenIds).map (Nat.cast : ℕ → ℤ) ++
        replicate (maxLen + 1 - (verify (next r) r.outputTokenIds r.specTokenIds).length)
        placeholderTokenId) := by
  obtain ⟨off, hoff⟩ := getElem?_withOffset (n := numDrafts) 0 hi
  have hmem := mem_of_getElem? hoff
  obtain ⟨hzero, hpos⟩ := cumsum_pred hoff
  have hstart : startIndex (cumsum 0 (reqs.map (·.numDrafts))) i = .ok off := by
    unfold startIndex
    split_ifs with h
    · rw [hzero h]
    · exact getItem_eq (hpos (pos_of_ne_zero h))
  have hend : getItem (cumsum 0 (reqs.map (·.numDrafts))) i = .ok (off + r.numDrafts) := by
    apply getItem_eq
    rw [cumsum_map, getElem?_map, hoff]
    rfl
  have hbonus : getItem (reqs.map fun r => next r (r.outputTokenIds ++ r.specTokenIds)) i =
      .ok (next r (r.outputTokenIds ++ r.specTokenIds)) := by
    apply getItem_eq
    rw [getElem?_map, hi]
    rfl
  obtain ⟨row, rejected, hrun, hrow⟩ :=
    greedyRounds_eq (ragged (·.numDrafts) (fun r j => r.specTokenIds.getD j 0) reqs)
    (ragged (·.numDrafts) (fun r j => next r (r.history j)) reqs) off
    ((range r.numDrafts).map fun j => (r.specTokenIds.getD j 0, next r (r.history j)))
    (next r (r.outputTokenIds ++ r.specTokenIds)) [] (maxLen - r.numDrafts) (by
      intro j p hp
      have hj : j < r.numDrafts := by simpa using lt_of_getElem? hp
      rw [getElem?_map, getElem?_range hj] at hp
      cases hp
      rw [length_nil, zero_add]
      exact ⟨getElem?_ragged [] rfl hmem hj, getElem?_ragged [] rfl hmem hj⟩)
  have hwritten :
    written ((range r.numDrafts).map fun j => (r.specTokenIds.getD j 0, next r (r.history j)))
      (next r (r.outputTokenIds ++ r.specTokenIds)) =
        verify (next r) r.outputTokenIds r.specTokenIds :=
    written_eq_verify (next r) r.outputTokenIds r.specTokenIds
  rw [length_map, length_range, length_nil, nil_append] at hrun
  rw [length_map, length_range, length_nil, nil_append, zero_add, hwritten] at hrow
  have hfree : r.numDrafts + 1 + (maxLen - r.numDrafts) = maxLen + 1 := by omega
  rw [hfree] at hrun hrow
  rw [rejectionGreedySampleKernel, hstart, ok_bind, hend, ok_bind, Nat.add_sub_cancel_left]
  dsimp only
  rw [hrun, ok_bind, ← hrow]
  cases rejected with
  | true => rfl
  | false =>
    rw [if_neg (by simp), hbonus, ok_bind]
    rfl

section step

variable [LinearOrder L] [OrderBot L] {applyPenalties : ρ → List ℕ → List ℕ → (ℕ → L) → ℕ → L}
  {vocabSize : ℕ}
  {reqs : List (SpecRequest L ρ)} {m : SamplingMetadata ρ}

def nextToken (applyPenalties : ρ → List ℕ → List ℕ → (ℕ → L) → ℕ → L) (vocabSize : ℕ)
    (noPenalties : Bool) (r : SpecRequest L ρ) (past : List ℕ) : ℕ :=
  argmax vocabSize
    (samplerRow applyPenalties noPenalties r past (r.logits (r.promptTokenIds ++ past)))

/-- A step emits for each request the accepted drafts and one more token. -/
lemma specStep_eq (hpen : CommutesWithMasks applyPenalties) (hvocab : 0 < vocabSize)
    (hne : reqs ≠ [])
    (hm : Describes m reqs) (houts : m.outputTokenIds = reqs.map (·.outputTokenIds))
    (hspec : m.specTokenIds = some (reqs.map (·.specTokenIds)))
    (hlen : ∀ r ∈ reqs, r.specTokenIds.length ≤ maxSpecLen) :
    specStep applyPenalties vocabSize reqs m = .ok (reqs.map fun r =>
      verify (nextToken applyPenalties vocabSize m.noPenalties r) r.outputTokenIds
      r.specTokenIds) := by
  set next := nextToken applyPenalties vocabSize m.noPenalties
  obtain ⟨maxLen, hmeta, ⟨r0, hr0, hmax⟩, hle⟩ := calcSpecDecodeMetadata_eq hne
  have hmaxLen : maxLen ≤ maxSpecLen := hmax ▸ hlen r0 hr0
  -- the tokens behind the draft tokens
  have hbonusTokens : Sampler.forward applyPenalties vocabSize
      (reqs.map fun r => r.logits (r.promptTokenIds ++ (r.outputTokenIds ++ r.specTokenIds))) m
        true =
      .ok (reqs.map fun r => next r (r.outputTokenIds ++ r.specTokenIds)) := by
    refine hm.samplerForward vocabSize _ (fun r => r.outputTokenIds ++ r.specTokenIds) ?_
    by_cases hany : (!m.badWordsTokenIds.entries.isEmpty || !m.noPenalties) = true
    · refine .inl ?_
      rw [Bool.true_and, if_pos hany, houts, hspec, combine_outputs]
    · refine .inr ?_
      simpa using hany
  have hargmax :
    (ragged (·.numDrafts) (fun r j => draftRow applyPenalties m.noPenalties r (r.history j)
      (r.logits (r.promptTokenIds ++ r.history j))) reqs).map (argmax vocabSize) =
      ragged (·.numDrafts) (fun r j => next r (r.history j)) reqs := by
    rw [map_ragged]
    exact ragged_congr fun r _ j _ => by rw [draftRow_eq_samplerRow hpen]; rfl
  have hrows : (range reqs.length).mapM (rejectionGreedySampleKernel maxLen
      (cumsum 0 (reqs.map (·.numDrafts)))
        (ragged (·.numDrafts) (fun r j => r.specTokenIds.getD j 0) reqs)
      (ragged (·.numDrafts) (fun r j => next r (r.history j)) reqs)
      (reqs.map fun r => next r (r.outputTokenIds ++ r.specTokenIds))) =
      .ok (reqs.zipIdx.map fun p =>
        (verify (next p.1) p.1.outputTokenIds p.1.specTokenIds).map (Nat.cast : ℕ → ℤ) ++
        replicate (maxLen + 1 - (verify (next p.1) p.1.outputTokenIds p.1.specTokenIds).length)
          placeholderTokenId) := by
    rw [range_eq_range', ← zipIdx_map_snd 0 reqs]
    refine mapM_map_of_ok fun p hp => ?_
    have hi := mem_zipIdx_iff_getElem?.mp hp
    exact kernel_eq next hi (hle p.1 (mem_of_getElem? hi))
  have hassert : decide ((stepMetadata reqs maxLen).maxSpecLen ≤ maxSpecLen) = true := by
    simpa [stepMetadata] using hmaxLen
  have hnum : (stepMetadata reqs maxLen).numDraftTokens = reqs.map numDrafts := rfl
  rw [specStep, hmeta, ok_bind, gather_logits, ok_bind, forward, pyAssert_of hassert, ok_bind,
    gather_bonusLogits, ok_bind, hbonusTokens, ok_bind, gather_targetLogits, ok_bind, hnum,
      hm.draftRows houts hspec,
    ok_bind, rejectionSample, pyAssert_of (by simp [stepMetadata]), ok_bind, hargmax, hnum,
    length_map]
  refine (congrArg (· >>= _) hrows).trans ?_
  refine congrArg Except.ok ?_
  rw [parseOutput, map_map]
  refine Eq.trans ?_ (congrArg (map _) (zipIdx_map_fst 0 reqs))
  rw [map_map]
  refine map_congr_left fun p _ => ?_
  exact parse_row (verify_lt (fun past => argmax_lt hvocab _) _ _) _

/-! ### Steps without draft tokens -/

def greedyFrom (next : List ℕ → ℕ) : List ℕ → ℕ → List ℕ
  | _, 0 => []
  | past, k + 1 => next past :: greedyFrom next (past ++ [next past]) k

lemma length_greedyFrom (past : List ℕ) (k : ℕ) : (greedyFrom next past k).length = k := by
  induction k generalizing past with
  | zero => rfl
  | succ k ih => rw [greedyFrom, length_cons, ih]

/-- The check of the drafts stops where the tokens chosen one after the other leave them. -/
lemma verify_eq_upToMismatch {k : ℕ} (hk : spec.length < k) :
    verify next past spec = upToMismatch spec (greedyFrom next past k) := by
  induction spec generalizing past k with
  | nil =>
    obtain ⟨k, rfl⟩ := Nat.exists_eq_add_of_lt hk
    rw [length_nil, zero_add, greedyFrom, upToMismatch, verify]
  | cons draft drafts ih =>
    obtain ⟨k, rfl⟩ : ∃ j, k = j + 1 := ⟨k - 1, by omega⟩
    rw [greedyFrom, upToMismatch, verify]
    split_ifs with heq
    · rw [← heq, ih (past ++ [draft]) (by simpa using hk)]
    · rfl

lemma samplerStep_eq (hm : Describes m reqs) (past : SpecRequest L ρ → List ℕ) :
    samplerStep applyPenalties vocabSize reqs m (reqs.map past) =
      .ok (reqs.map fun r =>
        past r ++ [nextToken applyPenalties vocabSize m.noPenalties r (past r)]) := by
  have hm' : Describes { m with outputTokenIds := reqs.map past } reqs :=
    ⟨hm.promptTokenIds, hm.penalties, hm.mask, hm.badWords, hm.badWords_lt⟩
  have hrows :
    zipWith (fun (r : SpecRequest L ρ) out => r.logits (r.promptTokenIds ++ out)) reqs
    (reqs.map past) =
      reqs.map fun r => r.logits (r.promptTokenIds ++ past r) := by
    rw [zipWith_map_right, zipWith_self]
  rw [samplerStep, hrows, hm'.samplerForward vocabSize _ past (.inl rfl), ok_bind, zipWith_map,
    zipWith_self]
  rfl

lemma samplerSteps_eq (hm : Describes m reqs) (k : ℕ) (past : SpecRequest L ρ → List ℕ) :
    samplerSteps applyPenalties vocabSize reqs m k (reqs.map past) = .ok (reqs.map fun r =>
      past r ++ greedyFrom (nextToken applyPenalties vocabSize m.noPenalties r) (past r) k) := by
  induction k generalizing past with
  | zero => simp [samplerSteps, greedyFrom]
  | succ k ih =>
    rw [samplerSteps, samplerStep_eq hm, ok_bind, ih]
    simp [greedyFrom]

lemma verify_eq_greedyFrom : ∃ k, verify next past spec = greedyFrom next past (k + 1) := by
  induction spec generalizing past with
  | nil => exact ⟨0, rfl⟩
  | cons draft drafts ih =>
    rw [verify]
    split_ifs with heq
    · obtain ⟨k, hk⟩ := ih (past ++ [draft])
      exact ⟨k + 1, by rw [hk, heq]; rfl⟩
    · exact ⟨0, rfl⟩

lemma greedyFrom_add (j k : ℕ) :
    greedyFrom next past (j + k) = greedyFrom next past j ++
    greedyFrom next (past ++ greedyFrom next past j) k := by
  induction j generalizing past with
  | zero => simp [greedyFrom]
  | succ j ih => simp [Nat.succ_add, greedyFrom, ih]

/-- The request in a later step: `tokens` are appended, draft and scheduled tokens are new. -/
def Continues (r : SpecRequest L ρ) (tokens : List ℕ) (r' : SpecRequest L ρ) : Prop :=
  ∃ spec n h, r' = { r with
    outputTokenIds := r.outputTokenIds ++ tokens, specTokenIds := spec, numScheduledTokens :=
      n, scheduled := h }

omit [LinearOrder L] [OrderBot L] in
lemma Continues.trans {r' r'' : SpecRequest L ρ} {tokens tokens' : List ℕ}
    (h : Continues r tokens r')
    (h' : Continues r' tokens' r'') : Continues r (tokens ++ tokens') r'' := by
  obtain ⟨_, _, _, rfl⟩ := h
  obtain ⟨spec, n, hn, rfl⟩ := h'
  exact ⟨spec, n, by simpa using hn, by simp⟩

section

variable (applyPenalties vocabSize)

/-- `no_penalties` is set only if the penalties of every request change nothing. -/
def Neutral (m : SamplingMetadata ρ) (reqs : List (SpecRequest L ρ)) : Prop :=
  m.noPenalties = true → ∀ r ∈ reqs, ∀ prompt past row, applyPenalties r.penalties prompt past row =
    row

/-- `n` steps with any draft tokens. Between them requests may leave and the batch may be
reordered. -/
inductive Generation : ℕ → List (SpecRequest L ρ) → List (SpecRequest L ρ) → Prop
  | nil (reqs : List (SpecRequest L ρ)) : Generation 0 reqs reqs
  | cons {n : ℕ} {reqs reqs' last : List (SpecRequest L ρ)} {m : SamplingMetadata ρ}
    {emitted : List (List ℕ)}
      (hm : Describes m reqs) (hnone : Neutral applyPenalties m reqs)
      (houts : m.outputTokenIds = reqs.map (·.outputTokenIds))
      (hspec : m.specTokenIds = some (reqs.map (·.specTokenIds)))
      (hlen : ∀ r ∈ reqs, r.specTokenIds.length ≤ maxSpecLen)
      (hstep : specStep applyPenalties vocabSize reqs m = .ok emitted)
      (hnext : ∀ r' ∈ reqs', ∃ i : ℕ, ∃ r tokens, reqs[i]? = some r ∧ emitted[i]? = some tokens ∧
        Continues r tokens r')
      (rest : Generation n reqs' last) : Generation (n + 1) reqs last

/-- The request goes on from one of `reqs` with what steps of `Sampler` emit, at least `n` of
them. -/
def SampledAlone (m : SamplingMetadata ρ) (reqs : List (SpecRequest L ρ)) (n : ℕ)
    (r' : SpecRequest L ρ) : Prop :=
  ∃ i : ℕ, ∃ r tokens outputs, reqs[i]? = some r ∧ Continues r tokens r' ∧ n ≤ tokens.length ∧
    samplerSteps applyPenalties vocabSize reqs m tokens.length (reqs.map (·.outputTokenIds)) =
      .ok outputs ∧
    outputs[i]? = some r'.outputTokenIds

end

lemma Neutral.nextToken_eq (h : Neutral applyPenalties m reqs) (hr : r ∈ reqs) :
    nextToken applyPenalties vocabSize m.noPenalties r =
    nextToken applyPenalties vocabSize false r := by
  funext past
  cases hnone : m.noPenalties with
  | false => rfl
  | true => simp [nextToken, samplerRow, h hnone r hr]

section

variable {last : List (SpecRequest L ρ)} {n : ℕ} (hpen : CommutesWithMasks applyPenalties)
  (hvocab : 0 < vocabSize)
  (h : Generation applyPenalties vocabSize n reqs last)
include hpen hvocab h

lemma Generation.greedy : ∀ r' ∈ last, ∃ i : ℕ, ∃ r k, reqs[i]? = some r ∧ n ≤ k ∧
    Continues r (greedyFrom (nextToken applyPenalties vocabSize false r) r.outputTokenIds k)
    r' := by
  induction h with
  | nil reqs =>
    intro r hr
    obtain ⟨i, hi⟩ := mem_iff_getElem?.mp hr
    exact ⟨i, r, 0, hi, le_rfl, _, _, by simpa [greedyFrom] using r.scheduled, by simp [greedyFrom]⟩
  | cons hm hnone houts hspec hlen hstep hnext _ ih =>
    intro r'' hr''
    obtain ⟨j, r', k, hj, hk, hlast⟩ := ih r'' hr''
    obtain ⟨i, r, tokens, hi, htokens, hcont⟩ := hnext r' (mem_of_getElem? hj)
    have hr := mem_of_getElem? hi
    rw [specStep_eq hpen hvocab (ne_nil_of_mem hr) hm houts hspec hlen] at hstep
    obtain rfl := Except.ok.inj hstep
    rw [getElem?_map, hi, Option.map_some, hnone.nextToken_eq hr, Option.some_inj] at htokens
    obtain ⟨l, hl⟩ :=
      verify_eq_greedyFrom (nextToken applyPenalties vocabSize false r) r.outputTokenIds
        r.specTokenIds
    rw [hl] at htokens
    have hall := hcont.trans hlast
    -- the later request chooses its tokens as this one does
    obtain ⟨_, _, _, rfl⟩ := hcont
    subst htokens
    refine ⟨i, r, l + 1 + k, hi, by omega, ?_⟩
    rw [greedyFrom_add]
    exact hall

end

lemma specStep_of_long (hr : r ∈ reqs) (hlong : maxSpecLen < r.specTokenIds.length) :
    specStep applyPenalties vocabSize reqs m =
    .error (.assertionError "metadata.max_spec_len <= MAX_SPEC_LEN") := by
  obtain ⟨maxLen, hmeta, _, hle⟩ := calcSpecDecodeMetadata_eq (ne_nil_of_mem hr)
  have hassert : decide ((stepMetadata reqs maxLen).maxSpecLen ≤ maxSpecLen) = false := by
    apply decide_eq_false
    exact not_le.mpr (hlong.trans_le (hle r hr))
  rw [specStep, hmeta, ok_bind, gather_logits, ok_bind, forward, hassert]
  rfl

end step

section examples

def fixedRequest {L ρ : Type} (outputTokenIds specTokenIds : List ℕ) (badWords : List BadWord)
    (masked : ℕ → Bool) (penalties : ρ) (logits : ℕ → L) : SpecRequest L ρ where
  promptTokenIds := [0]
  outputTokenIds
  specTokenIds
  badWords
  masked
  penalties
  numScheduledTokens := specTokenIds.length + 1
  logits := fun _ => logits
  scheduled := by simp

/-- One with two draft tokens, a bad word and penalties, one without draft tokens but with a
mask. -/
def mixedRequests : List (SpecRequest (WithBot ℚ) PenaltyParams) :=
  [fixedRequest [1] [2, 3] [⟨[2, 3], by simp⟩] (fun _ => false) ⟨1, 0, 2⟩ fun v =>
    ((4 - v : ℚ) : WithBot ℚ),
    fixedRequest [] [] [] (fun v => v = 0) ⟨0, 0, 1⟩ fun v => ((4 - v : ℚ) : WithBot ℚ)]

def mixedMetadata : SamplingMetadata PenaltyParams where
  noPenalties := false
  promptTokenIds := [[0], [0]]
  penalties := [⟨1, 0, 2⟩, ⟨0, 0, 1⟩]
  outputTokenIds := [[1], []]
  specTokenIds := some [[2, 3], []]
  allowedTokenIdsMask := some [fun _ => false, fun v => v = 0]
  badWordsTokenIds := OrderedDict.empty.set 0 [⟨[2, 3], by simp⟩]

/-- Penalties that keep masked tokens masked but raise the logit of token 2 unless token 0 is
masked. -/
def raiseUnlessMasked (_ : Unit) (_ _ : List ℕ) (row : ℕ → WithBot ℤ) : ℕ → WithBot ℤ := fun v =>
  if row v = ⊥ then ⊥ else if v = 2 ∧ row 0 ≠ ⊥ then 10 else row v

def draftedRequest (specTokenIds : List ℕ) : SpecRequest (WithBot ℤ) Unit :=
  fixedRequest [] specTokenIds [] (fun v => v = 0) () fun v => if v = 0 then 5 else if v = 1 then
    2 else 1

def draftedMetadata (noPenalties : Bool) (specTokenIds : List ℕ) : SamplingMetadata Unit where
  noPenalties
  promptTokenIds := [[0]]
  penalties := [()]
  outputTokenIds := [[]]
  specTokenIds := some [specTokenIds]
  allowedTokenIdsMask := some [fun v => v = 0]
  badWordsTokenIds := OrderedDict.empty

def generatedRequest (outputTokenIds specTokenIds : List ℕ) : SpecRequest (WithBot ℤ) Unit :=
  fixedRequest outputTokenIds specTokenIds [] (fun v => v = 0) () ((draftedRequest []).logits [])

def metadataOf (reqs : List (SpecRequest (WithBot ℤ) Unit)) : SamplingMetadata Unit where
  noPenalties := true
  promptTokenIds := reqs.map (·.promptTokenIds)
  penalties := reqs.map (·.penalties)
  outputTokenIds := reqs.map (·.outputTokenIds)
  specTokenIds := some (reqs.map (·.specTokenIds))
  allowedTokenIdsMask := some (reqs.map (·.masked))
  badWordsTokenIds := OrderedDict.empty

lemma describes_metadataOf {reqs : List (SpecRequest (WithBot ℤ) Unit)}
    (h : ∀ r ∈ reqs, r.badWords = []) : Describes (metadataOf reqs) reqs where
  promptTokenIds := rfl
  penalties := rfl
  mask := rfl
  badWords i r hi := (h r (mem_of_getElem? hi)).symm
  badWords_lt e he := by cases he

lemma continues_generatedRequest (out tokens spec spec' : List ℕ) :
    Continues (generatedRequest out spec) tokens (generatedRequest (out ++ tokens) spec') :=
  ⟨spec', _, (generatedRequest (out ++ tokens) spec').scheduled, rfl⟩

end examples

end Vllm.Sample
