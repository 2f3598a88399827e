import Vllm.Sample.RejectionSampler

/-! # The samplers row by row -/

namespace Vllm.Sample

open Ragged List Sampler

variable {L ρ : Type} [LinearOrder L] [OrderBot L] {entries : List (ℕ × List BadWord)} (row : ℕ → L)

@[simp] lemma maskOut_none : maskOut (fun _ => false) row = row := by
  funext v
  simp [maskOut]

lemma maskOut_maskOut (masked masked' : ℕ → Bool) (row : ℕ → L) :
    maskOut masked (maskOut masked' row) = maskOut (fun v => masked v || masked' v) row := by
  funext v
  simp only [maskOut, Bool.or_eq_true]
  split_ifs <;> simp_all

lemma update_bot_eq_maskOut (t : ℕ) : Function.update row t ⊥ = maskOut (fun v => v = t) row := by
  funext v
  rcases eq_or_ne v t with rfl | hne
  · simp [maskOut]
  · simp [maskOut, hne]

omit [OrderBot L] in
lemma argmax_lt {vocabSize : ℕ} (h : 0 < vocabSize) (row : ℕ → L) :
    argmax vocabSize row < vocabSize := by
  unfold argmax
  have hall : ∀ v ∈ range vocabSize, v < vocabSize := fun v hv => mem_range.mp hv
  generalize range vocabSize = vs at hall
  generalize 0 = best at h
  induction vs generalizing best with
  | nil => exact h
  | cons v vs ih =>
    rw [forall_mem_cons] at hall
    rw [foldl_cons]
    split_ifs
    · exact ih hall.2 _ hall.1
    · exact ih hall.2 _ h

def BadWord.completes (w : BadWord) (past : List ℕ) : Bool :=
  w.ids.length ≤ past.length + 1 ∧
    past.drop (past.length - (w.ids.length - 1)) = w.ids.take (w.ids.length - 1)

def banned (badWords : List BadWord) (past : List ℕ) (v : ℕ) : Bool :=
  badWords.any fun w => w.completes past && v = w.last

@[simp] lemma banned_nil (past : List ℕ) : banned [] past = fun _ => false := rfl

lemma applyBadWordsSingleBatch_eq (badWords : List BadWord) (past : List ℕ) :
    applyBadWordsSingleBatch row badWords past = .ok (maskOut (banned badWords past) row) := by
  unfold applyBadWordsSingleBatch
  induction badWords generalizing row with
  | nil => simp; rfl
  | cons w badWords ih =>
    rw [foldlM_cons]
    by_cases hlong : w.ids.length > past.length + 1
    · have hnot : w.completes past = false := by simp [BadWord.completes]; omega
      rw [if_pos hlong]
      refine (ih row).trans ?_
      congr 2
      funext v
      simp [banned, hnot]
    have hactual :
      (if w.ids.length - 1 > 0 then past.drop (past.length - (w.ids.length - 1)) else []) =
        past.drop (past.length - (w.ids.length - 1)) := by
      split_ifs with h
      · rfl
      · rw [drop_of_length_le (by omega)]
    dsimp only
    rw [hactual, pyAssert_of (by simp; omega)]
    split_ifs with heq
    · have hyes : w.completes past = true := by simp [BadWord.completes, heq]; omega
      refine (ih _).trans ?_
      rw [update_bot_eq_maskOut, maskOut_maskOut]
      congr 2
      funext v
      simp [banned, hyes, Bool.or_comm]
    have hnot : w.completes past = false := by simp [BadWord.completes, heq]
    refine (ih row).trans ?_
    congr 2
    funext v
    simp [banned, hnot]

variable {i : ℕ}

lemma getItem_eq {α : Type} {xs : List α} {x : α} (h : xs[i]? = some x) :
    getItem xs i = .ok x := by rw [getItem, h]

lemma applyBadWordsAt_eq {past : List (List ℕ)} {logits : List (ℕ → L)} {row : ℕ → L} {p : List ℕ}
    (hrow : logits[i]? = some row) (hpast : past[i]? = some p) (badWords : List BadWord) :
    applyBadWordsAt past badWords logits i =
    .ok (logits.set i (maskOut (banned badWords p) row)) := by
  rw [applyBadWordsAt, getItem_eq hrow, ok_bind, getItem_eq hpast, ok_bind,
    applyBadWordsSingleBatch_eq]
  rfl

def wordsAt (entries : List (ℕ × List BadWord)) (i : ℕ) : List BadWord :=
  ((entries.find? (·.1 = i)).map Prod.snd).getD []

lemma wordsAt_cons (e : ℕ × List BadWord) (entries : List (ℕ × List BadWord)) (i : ℕ) :
    wordsAt (e :: entries) i = if e.1 = i then e.2 else wordsAt entries i := by
  unfold wordsAt
  split_ifs with h
  · rw [find?_cons_of_pos (by simpa using h)]
    rfl
  · rw [find?_cons_of_neg (by simpa using h)]

lemma wordsAt_of_notMem (h : i ∉ entries.map Prod.fst) : wordsAt entries i = [] := by
  have hnone : entries.find? (·.1 = i) = none := by
    rw [find?_eq_none]
    intro e he heq
    exact h (mem_map.mpr ⟨e, he, by simpa using heq⟩)
  rw [wordsAt, hnone]
  rfl

lemma foldlM_applyBadWordsAt (past : List (List ℕ)) (logits : List (ℕ → L))
    (hkeys : ∀ e ∈ entries, e.1 < logits.length) (hpast : past.length = logits.length)
    (hnd : (entries.map Prod.fst).Nodup) :
    ∃ logits', entries.foldlM (fun logits e => applyBadWordsAt past e.2 logits e.1) logits =
    .ok logits' ∧
      logits'.length = logits.length ∧ ∀ i row p, logits[i]? = some row → past[i]? = some p →
        logits'[i]? = some (maskOut (banned (wordsAt entries i) p) row) := by
  induction entries generalizing logits with
  | nil => exact ⟨logits, rfl, rfl, fun i row p hrow _ => by simp [wordsAt, hrow]⟩
  | cons e entries ih =>
    rw [forall_mem_cons] at hkeys
    rw [map_cons, nodup_cons] at hnd
    obtain ⟨row0, hrow0⟩ : ∃ row, logits[e.1]? = some row := ⟨_, getElem?_eq_getElem hkeys.1⟩
    obtain ⟨p0, hp0⟩ : ∃ p, past[e.1]? = some p := ⟨_, getElem?_eq_getElem (hpast.symm ▸ hkeys.1)⟩
    rw [foldlM_cons, applyBadWordsAt_eq hrow0 hp0]
    obtain ⟨logits', hfold, hlen, hrows⟩ :=
      ih (logits.set e.1 (maskOut (banned e.2 p0) row0)) (by simpa using hkeys.2)
      (by simpa using hpast) hnd.2
    refine ⟨logits', hfold, by simpa using hlen, fun i row p hrow hp => ?_⟩
    rw [wordsAt_cons]
    split_ifs with hi
    · subst hi
      rw [hrow0] at hrow
      rw [hp0] at hp
      cases hrow
      cases hp
      have hset : (logits.set e.1 (maskOut (banned e.2 p0) row0))[e.1]? =
        some (maskOut (banned e.2 p0) row0) :=
        getElem?_set_self hkeys.1
      rw [hrows e.1 _ p0 hset hp0, wordsAt_of_notMem hnd.1, banned_nil, maskOut_none]
    · exact hrows i row p (by rw [getElem?_set_ne hi]; exact hrow) hp

/-- A request of the step: its tokens, its constraints, and its logits after given tokens. The last
tokens are scheduled: at least the drafts and the token before them. -/
structure SpecRequest (L ρ : Type) where
  promptTokenIds : List ℕ
  outputTokenIds : List ℕ
  specTokenIds : List ℕ
  badWords : List BadWord
  masked : ℕ → Bool
  penalties : ρ
  numScheduledTokens : ℕ
  logits : List ℕ → ℕ → L
  scheduled : specTokenIds.length + 1 ≤ numScheduledTokens ∧
    numScheduledTokens ≤ (promptTokenIds ++ outputTokenIds ++ specTokenIds).length

/-- The metadata of the requests; a dictionary entry with no words has no effect. -/
structure Describes (m : SamplingMetadata ρ) (reqs : List (SpecRequest L ρ)) : Prop where
  promptTokenIds : m.promptTokenIds = reqs.map (·.promptTokenIds)
  penalties : m.penalties = reqs.map (·.penalties)
  mask : match m.allowedTokenIdsMask with
    | some mask => mask = reqs.map (·.masked)
    | none => ∀ r ∈ reqs, r.masked = fun _ => false
  badWords : ∀ i r, reqs[i]? = some r → (m.badWordsTokenIds.get? i).getD [] = r.badWords
  badWords_lt : ∀ e ∈ m.badWordsTokenIds.entries, e.1 < reqs.length

section rows

variable (applyPenalties : ρ → List ℕ → List ℕ → (ℕ → L) → ℕ → L) (noPenalties : Bool)
  (r : SpecRequest L ρ)

/-- The row of a request as `Sampler` leaves it: masks, bad words, penalties. -/
def samplerRow (past : List ℕ) (row : ℕ → L) : ℕ → L :=
  let row := maskOut (banned r.badWords past) (maskOut r.masked row)
  if noPenalties then row else applyPenalties r.penalties r.promptTokenIds past row

/-- The row of a draft token as `RejectionSampler` leaves it: penalties, masks, bad words. -/
def draftRow (past : List ℕ) (row : ℕ → L) : ℕ → L :=
  let row := if noPenalties then row else applyPenalties r.penalties r.promptTokenIds past row
  maskOut (banned r.badWords past) (maskOut r.masked row)

variable {applyPenalties noPenalties}

/-- Penalties that leave masked tokens masked and the others to themselves commute with masks. -/
def CommutesWithMasks (applyPenalties : ρ → List ℕ → List ℕ → (ℕ → L) → ℕ → L) : Prop :=
  ∀ params prompt output masked row,
    applyPenalties params prompt output (maskOut masked row) =
      maskOut masked (applyPenalties params prompt output row)

lemma applyPenaltiesRow_commutes : CommutesWithMasks applyPenaltiesRow := by
  intro params prompt output masked row
  funext v
  unfold applyPenaltiesRow maskOut
  split_ifs <;> rfl

lemma draftRow_eq_samplerRow (hpen : CommutesWithMasks applyPenalties) (r : SpecRequest L ρ)
    (past : List ℕ) (row : ℕ → L) :
    draftRow applyPenalties noPenalties r past row =
    samplerRow applyPenalties noPenalties r past row := by
  unfold draftRow samplerRow
  cases noPenalties with
  | true => rfl
  | false => simp only [Bool.false_eq_true, if_false, hpen _ _ _ _ _]

variable {m : SamplingMetadata ρ} {reqs : List (SpecRequest L ρ)} (h : Describes m reqs)
include h

lemma Describes.applyAllowedTokenIds (f : SpecRequest L ρ → ℕ → L) :
    applyAllowedTokenIds (reqs.map f) m.allowedTokenIdsMask =
    .ok (reqs.map fun r => maskOut r.masked (f r)) := by
  have hmask := h.mask
  split at hmask
  next mask heq =>
    rw [heq, Sampler.applyAllowedTokenIds, maskedFill, if_pos (by simp [hmask]), hmask,
      List.zipWith_map, zipWith_self]
  rename_i heq
  rw [heq]
  refine congrArg Except.ok (map_congr_left fun r hr => ?_)
  rw [hmask r hr, maskOut_none]

lemma Describes.applyBadWords (f : SpecRequest L ρ → ℕ → L) (hist : SpecRequest L ρ → List ℕ) :
    Sample.applyBadWords (reqs.map f) m.badWordsTokenIds (reqs.map hist) =
      .ok (reqs.map fun r => maskOut (banned r.badWords (hist r)) (f r)) := by
  obtain ⟨logits', hfold, hlen, hrows⟩ := foldlM_applyBadWordsAt (reqs.map hist) (reqs.map f)
    (by simpa using h.badWords_lt) (by simp) m.badWordsTokenIds.nodup
  rw [Sample.applyBadWords, hfold]
  congr 1
  apply ext_getElem?
  intro i
  cases hi : reqs[i]? with
  | none =>
    have hge := List.getElem?_eq_none_iff.mp hi
    rw [getElem?_eq_none (by rw [hlen]; simpa using hge), getElem?_map, hi]
    rfl
  | some r =>
    have hwords : wordsAt m.badWordsTokenIds.entries i = r.badWords := h.badWords i r hi
    rw [hrows i (f r) (hist r) (by simp [hi]) (by simp [hi]), hwords, getElem?_map, hi]
    rfl

omit [LinearOrder L] [OrderBot L] in
lemma Describes.badWords_of_empty (hemp : m.badWordsTokenIds.entries.isEmpty = true)
    {r : SpecRequest L ρ} (hr : r ∈ reqs) : r.badWords = [] := by
  obtain ⟨i, hi⟩ := mem_iff_getElem?.mp hr
  rw [← h.badWords i r hi, OrderedDict.get?, List.isEmpty_iff.mp hemp]
  rfl

omit h

omit [LinearOrder L] [OrderBot L] in
lemma zipWith_map_penalties (f : SpecRequest L ρ → ℕ → L) (hist : SpecRequest L ρ → List ℕ) :
    zipWith (fun row (prompt, params, output) => applyPenalties params prompt output row)
    (reqs.map f)
      ((reqs.map (·.promptTokenIds)).zip ((reqs.map (·.penalties)).zip (reqs.map hist))) =
      reqs.map fun r => applyPenalties r.penalties r.promptTokenIds (hist r) (f r) := by
  induction reqs with
  | nil => rfl
  | cons r reqs ih => exact congrArg (_ :: ·) ih

include h in
lemma Describes.samplerForward (vocabSize : ℕ) (f : SpecRequest L ρ → ℕ → L)
    (hist : SpecRequest L ρ → List ℕ) {predictBonusToken : Bool}
    (hhist : (if predictBonusToken && (!m.badWordsTokenIds.entries.isEmpty || !m.noPenalties) then
        combineOutputsWithSpecTokens m.outputTokenIds m.specTokenIds else m.outputTokenIds) =
        reqs.map hist ∨
      m.badWordsTokenIds.entries.isEmpty = true ∧ m.noPenalties = true) :
    forward applyPenalties vocabSize (reqs.map f) m predictBonusToken =
      .ok (reqs.map fun r =>
        argmax vocabSize (samplerRow applyPenalties m.noPenalties r (hist r) (f r))) := by
  suffices hproc : applyLogitsProcessors applyPenalties (reqs.map f) m predictBonusToken =
      .ok (reqs.map fun r => samplerRow applyPenalties m.noPenalties r (hist r) (f r)) by
    rw [forward, hproc, ok_bind, map_map]
    rfl
  rw [applyLogitsProcessors, h.applyAllowedTokenIds, ok_bind]
  rcases hhist with heq | ⟨hemp, hno⟩
  · rw [heq, h.applyBadWords, ok_bind, applyPenaltiesOf]
    unfold samplerRow
    cases m.noPenalties with
    | true => rfl
    | false =>
      rw [if_neg (by simp), applyAllPenalties, h.promptTokenIds, h.penalties, if_pos (by simp),
        zipWith_map_penalties]
      rfl
  -- neither bad words nor penalties look at the past
  rw [Sample.applyBadWords, List.isEmpty_iff.mp hemp, foldlM_nil]
  show applyPenaltiesOf applyPenalties _ m _ = _
  rw [applyPenaltiesOf, if_pos hno]
  refine congrArg Except.ok (map_congr_left fun r hr => ?_)
  rw [samplerRow, if_pos hno, h.badWords_of_empty hemp hr, banned_nil, maskOut_none]

end rows

end Vllm.Sample
