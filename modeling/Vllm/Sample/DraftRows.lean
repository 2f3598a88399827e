import Vllm.Sample.SamplerRows

/-!
# The rows of the draft tokens

Every flattened row is treated as that of its request after the tokens before it
(`Describes.draftRows`).
-/

namespace Vllm.Sample

open Ragged List RejectionSampler SpecRequest OrderedDict

variable {L ρ : Type} [LinearOrder L] [OrderBot L] (r : SpecRequest L ρ)

def SpecRequest.numDrafts : ℕ := r.specTokenIds.length

def SpecRequest.history (j : ℕ) : List ℕ := r.outputTokenIds ++ r.specTokenIds.take j

lemma histories_eq (out spec : List ℕ) :
    histories out spec = (range spec.length).map fun j => out ++ spec.take j := by
  induction spec generalizing out with
  | nil => rfl
  | cons token spec ih =>
    rw [histories, ih, length_cons, range_succ_eq_map, map_cons]
    simp

section gathering

variable {ι α β : Type} {xs : List ι} {g : α → Py β}

lemma mapM_map_of_ok {f : ι → α} {h : ι → β} (hg : ∀ x ∈ xs, g (f x) = .ok (h x)) :
    (xs.map f).mapM g = .ok (xs.map h) := by
  induction xs with
  | nil => rfl
  | cons x xs ih =>
    rw [forall_mem_cons] at hg
    rw [map_cons, mapM_cons, hg.1, ih hg.2]
    rfl

variable {f : ι → ℕ → α}

lemma mapM_ragged {n : ι → ℕ} {h : ι → ℕ → β} (hg : ∀ x ∈ xs, ∀ j < n x, g (f x j) = .ok (h x j)) :
    (ragged n f xs).mapM g = .ok (ragged n h xs) := by
  induction xs with
  | nil => rfl
  | cons x xs ih =>
    rw [forall_mem_cons] at hg
    rw [ragged_cons, mapM_append, mapM_map_of_ok fun j hj => hg.1 j (mem_range.mp hj), ih hg.2]
    rfl

lemma gather_ragged {n k : ι → ℕ} (idx : ι → ℕ → ℕ) (hidx : ∀ x ∈ xs, ∀ j < k x, idx x j < n x) :
    gather (ragged n f xs)
    (ragged (fun p => k p.1) (fun p j => p.2 + idx p.1 j) (withOffset n 0 xs)) =
      .ok (ragged k (fun x j => f x (idx x j)) xs) := by
  rw [ragged_of_map (n := k) (map_fst_withOffset (n := n) 0 xs)]
  refine mapM_ragged fun p hp j hj => getItem_eq ?_
  exact getElem?_ragged [] rfl hp (hidx p.1 (mem_of_withOffset hp) j hj)

lemma gather_npRepeat {n : ι → ℕ} (g : ι → α) (xs : List ι) :
    gather (xs.map g) (npRepeat (range xs.length) (xs.map n)) =
    .ok (ragged n (fun x _ => g x) xs) := by
  have hzip : npRepeat (range xs.length) (xs.map n) =
    ragged (fun p => n p.1) (fun p _ => p.2) xs.zipIdx := by
    rw [← npRepeat_map]
    congr 1
    · rw [zipIdx_map_snd, range_eq_range']
    · exact (congrArg (map n) (zipIdx_map_fst 0 xs)).symm.trans map_map
  rw [hzip, ragged_of_map (zipIdx_map_fst 0 xs)]
  refine mapM_ragged fun p hp j _ => getItem_eq ?_
  rw [getElem?_map, mem_zipIdx_iff_getElem?.mp hp]
  rfl

end gathering

variable {d : OrderedDict ℕ (List BadWord)} {f : SpecRequest L ρ → ℕ → ℕ → L}
  {hist : SpecRequest L ρ → ℕ → List ℕ} {reqs : List (SpecRequest L ρ)}

/-! ### Bad words -/

lemma foldlM_segment (badWords : List BadWord) (pre rows rest : List (ℕ → L))
    (pastPre pasts pastRest : List (List ℕ))
    (hpre : pastPre.length = pre.length) (hlen : pasts.length = rows.length) :
    (range' pre.length rows.length).foldlM (applyBadWordsAt (pastPre ++ pasts ++ pastRest) badWords)
        (pre ++ rows ++ rest) =
      .ok (pre ++ zipWith (fun row p => maskOut (banned badWords p) row) rows pasts ++ rest) := by
  induction rows generalizing pre pastPre pasts with
  | nil =>
    rfl
  | cons row rows ih =>
    obtain ⟨p, pasts, rfl⟩ := exists_cons_of_length_eq_add_one hlen
    have hrow : (pre ++ row :: rows ++ rest)[pre.length]? = some row := by simp
    have hpast : (pastPre ++ p :: pasts ++ pastRest)[pre.length]? = some p := by simp [← hpre]
    rw [length_cons, range'_succ, foldlM_cons, applyBadWordsAt_eq hrow hpast, ok_bind]
    have hnext :=
      ih (pre ++ [maskOut (banned badWords p) row]) (pastPre ++ [p]) pasts (by simp [hpre])
      (by simpa using hlen)
    simpa using hnext

variable (d)

def remainingFrom (i : ℕ) : ℕ := d.keys.countP (i ≤ ·)

lemma remainingFrom_zero :
    remainingFrom d 0 = d.length := by simp [remainingFrom, OrderedDict.keys, OrderedDict.length]

variable {d} {i : ℕ}

lemma remainingFrom_of_none (h : d.get? i = none) :
    remainingFrom d i = remainingFrom d (i + 1) := by
  rw [get?_eq_none_iff] at h
  refine countP_congr fun k hk => ?_
  have hne : k ≠ i := fun heq => h (heq ▸ hk)
  simp only [decide_eq_true_eq]
  omega

lemma remainingFrom_of_some {words : List BadWord} (h : d.get? i = some words) :
    remainingFrom d i = remainingFrom d (i + 1) + 1 := by
  have hmem : i ∈ d.keys := mem_keys_iff.mpr ⟨words, h⟩
  have hcnt : d.keys.count i = 1 := count_eq_one_of_mem d.nodup hmem
  have hsplit : ∀ keys : List ℕ, keys.countP (i ≤ ·) = keys.countP (i + 1 ≤ ·) + keys.count i := by
    intro keys
    induction keys with
    | nil => rfl
    | cons k keys ih =>
      simp only [countP_cons, count_cons, ih, decide_eq_true_eq, beq_iff_eq]
      split_ifs <;> omega
  rw [remainingFrom, hsplit, hcnt]
  rfl

lemma get?_of_remainingFrom {i k : ℕ} (h : remainingFrom d i = 0) (hk : i ≤ k) :
    d.get? k = none := by
  rw [get?_eq_none_iff]
  intro hmem
  have := countP_eq_zero.mp h k hmem
  exact this (by simpa using hk)

lemma ragged_maskOut_nil (h : ∀ r ∈ reqs, r.badWords = []) :
    ragged numDrafts (fun r j => maskOut (banned r.badWords (hist r j)) (f r j)) reqs =
    ragged numDrafts f reqs :=
  ragged_congr fun r hr j _ => by rw [h r hr, banned_nil, maskOut_none]

/-- The loop masks the rows of each request with its own bad words. -/
lemma badWordsLoop_eq (pre : List (ℕ → L)) (pastPre : List (List ℕ))
    (hpre : pastPre.length = pre.length)
    (hwords : ∀ k r, reqs[k]? = some r → (d.get? (i + k)).getD [] = r.badWords) :
    badWordsLoop d (pastPre ++ ragged numDrafts hist reqs) (reqs.map numDrafts) i pre.length
        (remainingFrom d i) (pre ++ ragged numDrafts f reqs) =
      .ok (pre ++ ragged numDrafts (fun r j => maskOut (banned r.badWords (hist r j)) (f r j))
        reqs) := by
  induction reqs generalizing i pre pastPre with
  | nil => rfl
  | cons r reqs ih =>
    have hr : (d.get? i).getD [] = r.badWords := hwords 0 r rfl
    have hrest : ∀ k r', reqs[k]? = some r' → (d.get? (i + 1 + k)).getD [] = r'.badWords := by
      intro k r' hk
      rw [Nat.add_assoc, Nat.add_comm 1 k]
      exact hwords (k + 1) r' hk
    -- the loop goes on behind the rows of this request
    have hnext : ∀ rows : List (ℕ → L), rows.length = r.numDrafts →
        badWordsLoop d (pastPre ++ (range r.numDrafts).map (hist r) ++ ragged numDrafts hist reqs)
          (reqs.map numDrafts) (i + 1) (pre.length + r.numDrafts) (remainingFrom d (i + 1))
          (pre ++ rows ++ ragged numDrafts f reqs) =
        .ok
          (pre ++ rows ++
          ragged numDrafts (fun r j => maskOut (banned r.badWords (hist r j)) (f r j)) reqs) := by
      intro rows hlen
      have :=
        ih (pre ++ rows) (pastPre ++ (range r.numDrafts).map (hist r)) (by simp [hpre, hlen]) hrest
      rwa [length_append, hlen] at this
    rw [map_cons, badWordsLoop, ragged_cons, ragged_cons, ragged_cons, ← append_assoc,
      ← append_assoc, ← append_assoc]
    cases hget : d.get? i with
    | none =>
      rw [hget] at hr
      rw [remainingFrom_of_none hget]
      refine (hnext ((range r.numDrafts).map (f r)) (by simp)).trans ?_
      simp only [← hr, Option.getD_none, banned_nil, maskOut_none]
    | some words =>
      rw [hget] at hr
      obtain rfl : words = r.badWords := hr
      have hseg := foldlM_segment r.badWords pre ((range r.numDrafts).map (f r))
        (ragged numDrafts f reqs) pastPre ((range r.numDrafts).map (hist r))
          (ragged numDrafts hist reqs) hpre (by simp)
      rw [length_map, length_range, zipWith_map, zipWith_self] at hseg
      dsimp only
      rw [hseg, remainingFrom_of_some hget, Nat.add_sub_cancel]
      split_ifs with hzero
      · rw [ragged_maskOut_nil]
        · rfl
        intro r' hr'
        obtain ⟨k, hk⟩ := mem_iff_getElem?.mp hr'
        rw [← hrest k r' hk, get?_of_remainingFrom hzero (by omega)]
        rfl
      · exact hnext _ (by simp)

omit [LinearOrder L] [OrderBot L] in
lemma combine_histories (reqs : List (SpecRequest L ρ)) :
    combineOutputsWithSpecTokens (reqs.map (·.outputTokenIds)) (some (reqs.map (·.specTokenIds))) =
      ragged numDrafts history reqs := by
  induction reqs with
  | nil => rfl
  | cons r reqs ih =>
    rw [ragged_cons, ← ih]
    exact congrArg (· ++ _) (histories_eq r.outputTokenIds r.specTokenIds)

section processors

variable {applyPenalties : ρ → List ℕ → List ℕ → (ℕ → L) → ℕ → L} {m : SamplingMetadata ρ}
  {reqs : List (SpecRequest L ρ)}

section

variable (h : Describes m reqs)
include h

variable (f : SpecRequest L ρ → ℕ → ℕ → L)

omit [LinearOrder L] [OrderBot L] in
lemma Describes.draftPenalties (hist : SpecRequest L ρ → ℕ → List ℕ) (hno : m.noPenalties = false) :
    applyPenaltiesOf applyPenalties (ragged numDrafts f reqs) m
        (npRepeat (range reqs.length) (reqs.map numDrafts)) (ragged numDrafts hist reqs) =
      .ok
      (ragged numDrafts (fun r j => applyPenalties r.penalties r.promptTokenIds (hist r j) (f r j))
      reqs) := by
  rw [applyPenaltiesOf, hno, if_neg (by simp), h.promptTokenIds, h.penalties, gather_npRepeat,
    ok_bind,
    gather_npRepeat, ok_bind, applyAllPenalties, if_pos (by simp), zip, zip, zipWith_ragged,
      zipWith_ragged,
    zipWith_ragged]

lemma Describes.draftMask :
    RejectionSampler.applyAllowedTokenIds (ragged SpecRequest.numDrafts f reqs)
        (npRepeat (range reqs.length) (reqs.map numDrafts)) m.allowedTokenIdsMask =
      .ok (ragged SpecRequest.numDrafts (fun r j => maskOut r.masked (f r j)) reqs) := by
  have hmask := h.mask
  split at hmask
  next mask heq =>
    rw [heq, RejectionSampler.applyAllowedTokenIds, hmask, gather_npRepeat, ok_bind, maskedFill,
      if_pos (by simp),
      zipWith_ragged]
  rename_i heq
  rw [heq]
  exact congrArg Except.ok (ragged_congr fun r hr j _ => by rw [hmask r hr, maskOut_none])

lemma Describes.draftBadWords
    (hist : SpecRequest L ρ → ℕ → List ℕ) :
    applyBadWordsWithDrafts (ragged numDrafts f reqs) m.badWordsTokenIds
        (ragged numDrafts hist reqs) (reqs.map numDrafts) =
      .ok (ragged numDrafts (fun r j => maskOut (banned r.badWords (hist r j)) (f r j)) reqs) := by
  unfold applyBadWordsWithDrafts
  split_ifs with hemp
  · rw [ragged_maskOut_nil fun r hr => h.badWords_of_empty hemp hr]
  rw [← remainingFrom_zero]
  refine badWordsLoop_eq [] [] rfl fun k r hk => ?_
  rw [Nat.zero_add]
  exact h.badWords k r hk

lemma Describes.draftRows (houts : m.outputTokenIds = reqs.map (·.outputTokenIds))
    (hspec : m.specTokenIds = some (reqs.map (·.specTokenIds))) (f : SpecRequest L ρ → ℕ → ℕ → L) :
    applyLogitsProcessors applyPenalties (ragged numDrafts f reqs) m (reqs.map numDrafts) =
      .ok (ragged SpecRequest.numDrafts
        (fun r j => draftRow applyPenalties m.noPenalties r (r.history j) (f r j)) reqs) := by
  rw [applyLogitsProcessors, length_map]
  by_cases hany : (!m.badWordsTokenIds.entries.isEmpty || !m.noPenalties) = true
  · rw [if_pos hany, houts, hspec, combine_histories]
    cases hno : m.noPenalties with
    | true =>
      rw [RejectionSampler.applyPenaltiesOf, if_pos hno, ok_bind, h.draftMask, ok_bind,
        h.draftBadWords]
      rfl
    | false =>
      rw [h.draftPenalties _ _ hno, ok_bind, h.draftMask, ok_bind, h.draftBadWords]
      rfl
  -- neither bad words nor penalties look at the past
  simp only [Bool.or_eq_true, Bool.not_eq_true', not_or, Bool.not_eq_false] at hany
  obtain ⟨hemp, hno⟩ := hany
  rw [RejectionSampler.applyPenaltiesOf, if_pos hno, ok_bind, h.draftMask, ok_bind,
    applyBadWordsWithDrafts, if_pos hemp, hno]
  refine congrArg Except.ok (ragged_congr fun r hr j _ => ?_)
  rw [draftRow, if_pos rfl, h.badWords_of_empty hemp hr, banned_nil, maskOut_none]

end

end processors

end Vllm.Sample
