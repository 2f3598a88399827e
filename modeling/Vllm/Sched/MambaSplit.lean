import Vllm.Basic

/-!
# Block-aligned prefill of Mamba models

`_mamba_block_aligned_split` of `vllm/v1/core/sched/scheduler.py` rounds the length of a chunk and
not its end.
-/

namespace Vllm

/-- What `_mamba_block_aligned_split` reads of a request and the configuration. -/
structure MambaPrefill where
  blockSize : ℕ
  useEagle : Bool
  numPromptTokens : ℕ
  numTokens : ℕ
  blockSize_pos : 0 < blockSize
  prompt_le : numPromptTokens ≤ numTokens

/-- What the budgets allow in a step, and `num_uncached_common_prefix_tokens`. -/
structure MambaOffer where
  budget : ℕ
  hint : ℕ := 0

namespace MambaPrefill

variable (r : MambaPrefill)

/-- Where the prefill of the request ends. -/
def prefillEnd : ℕ := max r.numPromptTokens (r.numTokens - 1)

/-- The last position whose state can be cached. -/
def lastCachePosition : ℕ :=
  let last := r.numTokens - r.numTokens % r.blockSize
  if r.useEagle then last - r.blockSize else last

/-- `_mamba_block_aligned_split`; local and external hits are computed tokens. -/
def mambaBlockAlignedSplit (numComputedTokens numNewTokens numUncachedCommonPrefixTokens : ℕ) : ℕ :=
  if numComputedTokens < r.prefillEnd then
    let numNewTokens :=
      if numComputedTokens + numNewTokens < r.lastCachePosition then numNewTokens / r.blockSize *
        r.blockSize
      else if numComputedTokens < r.lastCachePosition ∧
        r.lastCachePosition < numComputedTokens + numNewTokens then
        r.lastCachePosition - numComputedTokens
      else numNewTokens
    if r.blockSize ≤ numUncachedCommonPrefixTokens ∧
      numUncachedCommonPrefixTokens < numNewTokens then
      numUncachedCommonPrefixTokens / r.blockSize * r.blockSize
    else numNewTokens
  else numNewTokens

variable (c : ℕ) (o : MambaOffer)

def offered : ℕ := min o.budget (r.numTokens - c)

/-- The tokens that are scheduled of those offered. -/
def chunk : ℕ := r.mambaBlockAlignedSplit c (r.offered c o) o.hint

/-- The computed tokens after the offered steps. -/
def positionAfter (start : ℕ) (offers : List MambaOffer) :
    ℕ := offers.foldl (fun c o => c + r.chunk c o) start

def Bounded : Prop :=
  r.chunk c o ≤ r.offered c o ∧ ¬ (c < r.lastCachePosition ∧ r.lastCachePosition < c + r.chunk c o)

/-- A chunk that ends before the last cache position ends on a block boundary. -/
def Aligned :
    Prop := 0 < r.chunk c o → c + r.chunk c o < r.lastCachePosition → r.blockSize ∣ c + r.chunk c o

/-- The chunk starts on a block boundary or behind the last cache position, the offer rounds to
nothing, or nothing ends it before that position. -/
def Alignable : Prop := r.blockSize ∣ c ∨ r.lastCachePosition ≤ c ∨
  (c + r.offered c o < r.lastCachePosition ∧ r.offered c o < r.blockSize) ∨
  (r.lastCachePosition ≤ c + r.offered c o ∧
    (o.hint < r.blockSize ∨ r.lastCachePosition - c ≤ o.hint))

variable {r c o} {s : ℕ} {l : List MambaOffer}

lemma lastCachePosition_le : r.lastCachePosition ≤ r.numTokens := by
  unfold lastCachePosition
  dsimp only
  split <;> omega

lemma rounded (hb : 0 < r.blockSize) (n : ℕ) : n / r.blockSize * r.blockSize ≤ n ∧
    (n < r.blockSize → n / r.blockSize * r.blockSize = 0) ∧
    (r.blockSize ≤ n → 0 < n / r.blockSize * r.blockSize) := by
  refine ⟨Nat.div_mul_le_self n _, fun hlt => ?_, fun hle => ?_⟩
  · rw [Nat.div_eq_of_lt hlt, zero_mul]
  · exact Nat.mul_pos (Nat.div_pos hle hb) hb

lemma chunk_spec (hc : c < r.prefillEnd) : r.Bounded c o ∧
    (c + r.chunk c o < r.lastCachePosition → r.blockSize ∣ r.chunk c o) ∧
    (c < r.lastCachePosition →
      (r.chunk c o = 0 ↔ c + r.offered c o < r.lastCachePosition ∧ r.offered c o < r.blockSize) ∧
      (r.lastCachePosition ≤ c + r.chunk c o ↔
        r.lastCachePosition ≤ c + r.offered c o ∧
        (o.hint < r.blockSize ∨ r.lastCachePosition - c ≤ o.hint))) ∧
    (r.lastCachePosition ≤ c → 0 < r.offered c o → 0 < r.chunk c o) := by
  have hb := r.blockSize_pos
  have hn := rounded hb (r.offered c o)
  have hu := rounded hb o.hint
  have hdn : r.blockSize ∣ r.offered c o / r.blockSize * r.blockSize := Nat.dvd_mul_left ..
  have hdu : r.blockSize ∣ o.hint / r.blockSize * r.blockSize := Nat.dvd_mul_left ..
  unfold Bounded chunk mambaBlockAlignedSplit
  generalize r.offered c o / r.blockSize * r.blockSize = n' at *
  generalize o.hint / r.blockSize * r.blockSize = u' at *
  split_ifs <;> grind

lemma aligned_iff (hc : c < r.prefillEnd) : r.Aligned c o ↔ r.Alignable c o := by
  obtain ⟨-, hdvd, hlast, -⟩ := chunk_spec (o := o) hc
  have hadd : c + r.chunk c o < r.lastCachePosition →
    (r.blockSize ∣ c + r.chunk c o ↔ r.blockSize ∣ c) := fun hlt =>
    (Nat.dvd_add_left (hdvd hlt))
  unfold Aligned Alignable
  rcases le_or_gt r.lastCachePosition c with hle | hlt
  · exact iff_of_true (fun _ hend => by omega) (.inr (.inl hle))
  · obtain ⟨hzero, hreach⟩ := hlast hlt
    grind

lemma onBoundary_positionAfter (h : r.blockSize ∣ s ∨ r.lastCachePosition ≤ s ∨ r.prefillEnd ≤ s) :
    r.blockSize ∣ r.positionAfter s l ∨ r.lastCachePosition ≤ r.positionAfter s l ∨
      r.prefillEnd ≤ r.positionAfter s l := by
  induction l generalizing s with
  | nil => exact h
  | cons o l ih =>
    refine ih (s := s + r.chunk s o) ?_
    rcases le_or_gt r.prefillEnd s with hend | hlt
    · exact .inr (.inr (by omega))
    rcases le_or_gt r.lastCachePosition (s + r.chunk s o) with hlast | hbef
    · exact .inr (.inl hlast)
    have hdvd := (chunk_spec hlt).2.1 hbef
    rcases h with h | h | h
    · exact .inl (Nat.dvd_add h hdvd)
    all_goals omega

lemma chunk_pos (hc : c < r.prefillEnd) (ho : r.blockSize ≤ o.budget) : 0 < r.chunk c o := by
  obtain ⟨-, -, hlast, hbehind⟩ := chunk_spec (o := o) hc
  have hb := r.blockSize_pos
  have hle := lastCachePosition_le (r := r)
  have hprompt := r.prompt_le
  unfold prefillEnd at hc
  have hn : r.offered c o = min o.budget (r.numTokens - c) := rfl
  rcases le_or_gt r.lastCachePosition c with h | h
  · exact hbehind h (by omega)
  · have := (hlast h).1
    omega

lemma prefillEnd_le_positionAfter (ho : ∀ o ∈ l, r.blockSize ≤ o.budget)
    (h : r.prefillEnd ≤ s + l.length) : r.prefillEnd ≤ r.positionAfter s l := by
  induction l generalizing s with
  | nil => exact h
  | cons o l ih =>
    rw [List.forall_mem_cons] at ho
    rw [List.length_cons] at h
    refine ih (s := s + r.chunk s o) ho.2 ?_
    rcases le_or_gt r.prefillEnd s with hend | hlt
    · omega
    have := chunk_pos hlt ho.1
    omega

/-- In every prefill the chunks keep to their offers and to the last cache position, and one ends on
a block boundary just when its step allows it; offers of at least a block reach the end. -/
theorem prefill_chunks (r : MambaPrefill) (start : ℕ) (offers : List MambaOffer) :
    (∀ done o rest, offers = done ++ o :: rest → r.positionAfter start done < r.prefillEnd →
      r.Bounded (r.positionAfter start done) o ∧
      (r.Aligned (r.positionAfter start done) o ↔ r.Alignable (r.positionAfter start done) o) ∧
      (r.blockSize ∣ start ∨ r.lastCachePosition ≤ start →
        r.Alignable (r.positionAfter start done) o)) ∧
    ((∀ o ∈ offers, r.blockSize ≤ o.budget) → r.prefillEnd ≤ start + offers.length →
      r.prefillEnd ≤ r.positionAfter start offers) := by
  refine ⟨fun done o rest _ hc => ⟨(chunk_spec hc).1, aligned_iff hc, fun h => ?_⟩,
    prefillEnd_le_positionAfter⟩
  rcases onBoundary_positionAfter (l := done) (h.imp_right .inl) with hdvd | hlast | hend
  · exact .inl hdvd
  · exact .inr (.inl hlast)
  · omega

def tenTokens : MambaPrefill := ⟨4, false, 10, 10, Nat.succ_pos 3, le_rfl⟩

/-- A prompt of ten tokens under a budget of five, with blocks of four. -/
theorem tenTokens_chunks : tenTokens.Aligned 4 { budget := 5 } ∧
    10 ≤ tenTokens.positionAfter 0 (List.replicate 10 { budget := 5 }) := by
  obtain ⟨hchunk, hend⟩ := prefill_chunks tenTokens 0 (List.replicate 10 { budget := 5 })
  obtain ⟨-, haligned, halignable⟩ := hchunk [{ budget := 5 }] { budget := 5 }
    (List.replicate 8 { budget := 5 }) rfl (by decide)
  exact ⟨haligned.mpr (halignable (.inl (dvd_zero _))), hend (by decide) (by decide)⟩

/-- Two tokens were loaded; a chunk of one block then ends in the middle of a block. -/
theorem not_aligned_after_two :
    ¬ Aligned ⟨4, false, 16, 16, by decide, le_rfl⟩ 2 { budget := 5 } := by
  unfold Aligned
  decide

end MambaPrefill

end Vllm
