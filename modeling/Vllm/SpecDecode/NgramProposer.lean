import Vllm.Basic
import Vllm.Lib.Text
import Mathlib.Order.Bounds.Basic

/-!
# Drafts from n-grams

`_find_longest_matched_ngram_and_propose_tokens` of `vllm/v1/spec_decode/ngram_proposer.py`: one
loop computes and searches the failure function of the reversed tokens.
-/

namespace Vllm.Ngram

open List Text

variable {τ : Type}

/-- The local variables of the loop; `lps` is an array of `max_ngram` entries. -/
structure Scan where
  lps : ℕ → ℕ := fun _ => 0
  longestNgram : ℕ := 0
  position : ℕ := 0
  prevLps : ℕ := 0
  i : ℕ := 1

section

variable [DecidableEq τ] (tokens : List τ) (maxNgram : ℕ)

def scanStep (s : Scan) : Scan :=
  if tokens[s.prevLps]? = tokens[s.i]? then
    let prevLps := s.prevLps + 1
    let lps := if s.i < maxNgram then Function.update s.lps s.i prevLps else s.lps
    { lps
      longestNgram := if s.longestNgram ≤ prevLps then prevLps else s.longestNgram
      position := if s.longestNgram ≤ prevLps then s.i else s.position
      prevLps := if prevLps = maxNgram then lps (maxNgram - 1) else prevLps
      i := s.i + 1 }
  else if s.prevLps ≠ 0 then { s with prevLps := s.lps (s.prevLps - 1) }
  else { s with i := s.i + 1 }

/-- The `while` loop; every round moves `i` or lowers `prev_lps`. -/
def scan : ℕ → Scan → Scan
  | 0, s => s
  | n + 1, s => if s.i < tokens.length then scan n (scanStep tokens maxNgram s) else s

def findLongestMatchedNgramAndProposeTokens (originTokens : List τ) (minNgram maxNgram : ℕ)
    (maxModelLen k : ℤ) :
    List τ :=
  let totalToken := originTokens.length
  if totalToken < minNgram then []
  else
    let k := min k (maxModelLen - totalToken)
    if k ≤ 0 then []
    else
      let s := scan originTokens.reverse maxNgram (2 * totalToken) {}
      if s.longestNgram < minNgram then []
      else
        let startPosition := totalToken - 1 - s.position + s.longestNgram
        let k := min k (totalToken - startPosition)
        slice originTokens startPosition (startPosition + k.toNat)

end

variable {t : List τ} {M w : ℕ} {s : Scan}

/-- `prev_lps` bounds the borders that the token at `i` can prolong, `lps` holds those of the short
prefixes, `position` is the last place of the longest. -/
structure Scanned (t : List τ) (M : ℕ) (s : Scan) : Prop where
  i_le : s.i ≤ t.length
  prev_lt : s.prevLps < M
  prev : Border t s.prevLps s.i
  next : ∀ w < M, Border t w s.i → t[w]? = t[s.i]? → w ≤ s.prevLps
  lps : ∀ j < s.i, j < M → IsGreatest {v | Border t v (j + 1)} (s.lps j)
  rest : ∀ j, s.i ≤ j → s.lps j = 0
  longest : 0 < s.longestNgram → s.longestNgram ≤ M ∧ s.position < s.i ∧
    Border t s.longestNgram (s.position + 1)
  best : ∀ v ≤ M, ∀ j < s.i, Border t v (j + 1) → v ≤ s.longestNgram ∧
    (v = s.longestNgram → 0 < v → j ≤ s.position)

lemma scanned_init (ht : 0 < t.length) (hM : 0 < M) : Scanned t M {} where
  i_le := ht
  prev_lt := hM
  prev := ⟨one_pos, nil_suffix⟩
  next w _ hw _ := Nat.le_of_lt_succ hw.1
  lps j hj _ := by
    obtain rfl := Nat.lt_one_iff.mp hj
    exact ⟨⟨one_pos, nil_suffix⟩, fun v hv => Nat.le_of_lt_succ hv.1⟩
  rest _ _ := rfl
  longest h := absurd h (lt_irrefl _)
  best v _ j hj hv := by
    have := Nat.lt_one_iff.mp hj
    have := hv.1
    exact ⟨by omega, by omega⟩

namespace Scanned

lemma fallback (h : Scanned t M s) (hne : t[s.prevLps]? ≠ t[s.i]?) (h0 : s.prevLps ≠ 0) :
    Scanned t M { s with prevLps := s.lps (s.prevLps - 1) } ∧
    s.lps (s.prevLps - 1) < s.prevLps := by
  have hp := h.prev
  have hlt := h.prev_lt
  have hlps := h.lps (s.prevLps - 1) (by have := hp.1; omega) (by omega)
  rw [Nat.sub_add_cancel (Nat.pos_of_ne_zero h0)] at hlps
  have hfall : s.lps (s.prevLps - 1) < s.prevLps := hlps.1.1
  refine ⟨{ h with
    prev_lt := hfall.trans hlt
    prev := hlps.1.trans hp
    next := fun w hw hb heq => ?_ }, hfall⟩
  -- a shorter border of the tokens before `i` is a border of the rejected one
  obtain hlt | rfl := (h.next w hw hb heq).lt_or_eq
  · exact hlps.2 (hb.of_le hp hlt)
  · exact absurd heq hne

lemma advance (h : Scanned t M s) (hi : s.i < t.length) (L p : ℕ) (lps : ℕ → ℕ)
    (hL : IsGreatest {v | v ≤ M ∧ Border t v (s.i + 1)} L)
    (hlps : ∀ j, lps j = if j = s.i ∧ j < M then L else s.lps j)
    (hp : IsGreatest {v | v < M ∧ Border t v (s.i + 1)} p) :
    Scanned t M ⟨lps, max s.longestNgram L, if s.longestNgram ≤ L ∧ 0 < L then s.i else s.position,
      p, s.i + 1⟩ := by
  refine ⟨hi, hp.1.1, hp.1.2, fun w hw hb _ => hp.2 ⟨hw, hb⟩, fun j hj hM => ?_, fun j hj => ?_,
    fun hpos => ?_,
    fun v hv j hj hb => ?_⟩
  · dsimp only at hj ⊢
    obtain hj | rfl := Nat.lt_succ_iff_lt_or_eq.mp hj
    · rw [hlps, if_neg (by omega)]
      exact h.lps j hj hM
    · rw [hlps, if_pos ⟨rfl, hM⟩]
      exact ⟨hL.1.2, fun v hv => hL.2 ⟨by have := hv.1; omega, hv⟩⟩
  · dsimp only at hj ⊢
    rw [hlps, if_neg (by omega)]
    exact h.rest j (Nat.le_of_succ_le hj)
  · split_ifs with hc
    · rw [max_eq_right hc.1]
      exact ⟨hL.1.1, Nat.lt_succ_self _, hL.1.2⟩
    rw [max_eq_left (by omega)] at hpos ⊢
    obtain ⟨hle, hlt, hb⟩ := h.longest hpos
    exact ⟨hle, Nat.lt_succ_of_lt hlt, hb⟩
  dsimp only at hj ⊢
  obtain hj | rfl := Nat.lt_succ_iff_lt_or_eq.mp hj
  · obtain ⟨hle, hpos⟩ := h.best v hv j hj hb
    refine ⟨hle.trans (le_max_left _ _), fun heq hv => ?_⟩
    split_ifs with hc
    · exact hj.le
    · exact hpos (by omega) hv
  have hle := hL.2 ⟨hv, hb⟩
  refine ⟨hle.trans (le_max_right _ _), fun heq hv => ?_⟩
  rw [if_pos (by omega)]

lemma le_of_border (h : Scanned t M s) (hi : s.i < t.length) (hw : w ≤ M)
    (hb : Border t w (s.i + 1)) :
    w ≤ s.prevLps + 1 ∧ (t[s.prevLps]? ≠ t[s.i]? → w ≤ s.prevLps) := by
  cases w with
  | zero => exact ⟨Nat.zero_le _, fun _ => Nat.zero_le _⟩
  | succ u =>
    obtain ⟨hu, heq⟩ := (border_succ hi).mp hb
    have hle := h.next u hw hu heq
    exact ⟨Nat.succ_le_succ hle, fun hne => hle.lt_of_ne fun he => hne (he ▸ heq)⟩

lemma mismatch (h : Scanned t M s) (hi : s.i < t.length) (hne : t[s.prevLps]? ≠ t[s.i]?)
    (h0 : s.prevLps = 0) :
    Scanned t M { s with i := s.i + 1 } := by
  have hnil : Border t s.prevLps (s.i + 1) := ⟨Nat.lt_succ_of_lt h.prev.1, h0 ▸ nil_suffix⟩
  have hzero : ∀ w ≤ M, Border t w (s.i + 1) → w ≤ s.prevLps :=
    fun w hw hb => (h.le_of_border hi hw hb).2 hne
  have :=
    h.advance hi s.prevLps s.prevLps s.lps ⟨⟨h.prev_lt.le, hnil⟩,
      fun w hw => hzero w hw.1 hw.2⟩ (fun j => ?_)
    ⟨⟨h.prev_lt, hnil⟩, fun w hw => hzero w hw.1.le hw.2⟩
  · rwa [if_neg (fun hc => hc.2.ne' h0), max_eq_left (h0.le.trans (Nat.zero_le _))] at this
  split_ifs with hj
  · rw [h0]
    exact h.rest j hj.1.ge
  · rfl

lemma matched (h : Scanned t M s) (hi : s.i < t.length) (heq : t[s.prevLps]? = t[s.i]?) :
    let p := if s.prevLps + 1 = M then s.lps (M - 1) else s.prevLps + 1
    p ≤ s.prevLps + 1 ∧
      Scanned t M ⟨if s.i < M then Function.update s.lps s.i (s.prevLps + 1) else s.lps,
      if s.longestNgram ≤ s.prevLps + 1 then s.prevLps + 1 else s.longestNgram,
      if s.longestNgram ≤ s.prevLps + 1 then s.i else s.position, p, s.i + 1⟩ := by
  intro p
  have hb := (border_succ hi).mpr ⟨h.prev, heq⟩
  have hmax : ∀ w ≤ M, Border t w (s.i + 1) → w ≤ s.prevLps + 1 :=
    fun w hw hb => (h.le_of_border hi hw hb).1
  have hlt := h.prev_lt
  have hprev := h.prev.1
  have hp : IsGreatest {v | v < M ∧ Border t v (s.i + 1)} p := by
    rcases eq_or_ne (s.prevLps + 1) M with hM | hM
    · have hlps := h.lps (M - 1) (by omega) (by omega)
      rw [Nat.sub_add_cancel (by omega)] at hlps
      rw [hM] at hb
      simp only [p, if_pos hM]
      exact ⟨⟨hlps.1.1, hlps.1.trans hb⟩, fun w hw => hlps.2 (hw.2.of_le hb hw.1)⟩
    · simp only [p, if_neg hM]
      exact ⟨⟨by omega, hb⟩, fun w hw => hmax w hw.1.le hw.2⟩
  have := h.advance hi _ _ (if s.i < M then Function.update s.lps s.i (s.prevLps + 1) else s.lps)
    ⟨⟨hlt, hb⟩, fun w hw => hmax w hw.1 hw.2⟩ (fun j => ?_) hp
  · simp only [Nat.succ_pos, and_true, max_def] at this
    exact ⟨hmax _ hp.1.1.le hp.1.2, this⟩
  split_ifs with hM hc hc
  · rw [hc.1, Function.update_self]
  · rw [Function.update_of_ne (by omega)]
  · omega
  · rfl

variable [DecidableEq τ]

lemma step (h : Scanned t M s) (hi : s.i < t.length) : Scanned t M (scanStep t M s) ∧
    2 * (t.length - (scanStep t M s).i) + (scanStep t M s).prevLps < 2 * (t.length - s.i) +
    s.prevLps := by
  have hp := h.prev.1
  rw [scanStep]
  split_ifs with heq hM h0
  · obtain ⟨hle, hs⟩ := h.matched hi heq
    rw [if_pos hM] at hs
    have : s.prevLps + 1 ≠ M := by omega
    simp only [if_neg this] at hs ⊢
    exact ⟨hs, by omega⟩
  · obtain ⟨hle, hs⟩ := h.matched hi heq
    rw [if_neg hM] at hs
    exact ⟨hs, by dsimp only at hle ⊢; omega⟩
  · obtain ⟨hs, hlt⟩ := h.fallback heq h0
    exact ⟨hs, Nat.add_lt_add_left hlt _⟩
  · exact ⟨h.mismatch hi heq (not_not.mp h0), by dsimp only; omega⟩

lemma run {n : ℕ} (h : Scanned t M s) (hn : 2 * (t.length - s.i) + s.prevLps < n) :
    Scanned t M (scan t M n s) ∧ (scan t M n s).i = t.length := by
  induction n generalizing s with
  | zero => exact absurd hn (Nat.not_lt_zero _)
  | succ n ih =>
    rw [scan]
    split_ifs with hi
    · obtain ⟨hs, hlt⟩ := h.step hi
      exact ih hs (by omega)
    · exact ⟨h, h.i_le.antisymm (not_lt.mp hi)⟩

end Scanned

/-- The last `n` tokens also occur from `start` on, ending earlier. -/
def Occurs (o : List τ) (n start : ℕ) :
    Prop := start + n < o.length ∧ o.drop (o.length - n) <+: o.drop start

/-- The last `n` tokens occur before, for an allowed `n`. -/
def Matches (o : List τ) (minNgram maxNgram n : ℕ) :
    Prop := minNgram ≤ n ∧ n ≤ maxNgram ∧ ∃ start, Occurs o n start

lemma border_reverse {o : List τ} {n start : ℕ} (hs : start < o.length) :
    Border o.reverse n (o.length - start) ↔ Occurs o n start := by
  rw [Border, Occurs, take_reverse, take_reverse, reverse_suffix, Nat.sub_sub_self hs.le,
    Nat.lt_sub_iff_add_lt']

variable [DecidableEq τ]

lemma scan_reverse {o : List τ} (ho : 0 < o.length) (hM : 0 < M) :
    let s := scan o.reverse M (2 * o.length) {}
    IsGreatest {n | n ≤ M ∧ ∃ start, Occurs o n start} s.longestNgram ∧
      (0 < s.longestNgram →
        IsLeast {start | Occurs o s.longestNgram start} (o.length - 1 - s.position)) := by
  intro s
  obtain ⟨hs, hi⟩ :=
    (scanned_init (t := o.reverse) (by rwa [length_reverse]) hM).run (n := 2 * o.length)
    (by rw [length_reverse]; dsimp only; omega)
  change Scanned _ _ s at hs
  change s.i = _ at hi
  rw [length_reverse] at hi
  have hbest : ∀ n ≤ M, ∀ start, Occurs o n start →
      n ≤ s.longestNgram ∧ (n = s.longestNgram → 0 < n → o.length - 1 - start ≤ s.position) :=
        fun n hn start ho => by
    have hlt := ho.1
    refine hs.best n hn _ (by omega) ?_
    rwa [show o.length - 1 - start + 1 = o.length - start by omega, border_reverse (by omega)]
  have hfound : 0 < s.longestNgram → s.longestNgram ≤ M ∧
    Occurs o s.longestNgram (o.length - 1 - s.position) :=
    fun hpos => by
      obtain ⟨hle, hlt, hb⟩ := hs.longest hpos
      refine ⟨hle, (border_reverse (by omega)).mp ?_⟩
      rwa [show o.length - (o.length - 1 - s.position) = s.position + 1 by omega]
  refine ⟨⟨?_, fun n ⟨hn, start, ho⟩ => (hbest n hn start ho).1⟩,
    fun hpos => ⟨(hfound hpos).2, fun start ho => ?_⟩⟩
  · rcases Nat.eq_zero_or_pos s.longestNgram with h0 | hpos
    · exact ⟨by omega, 0, by rw [h0]; exact ⟨ho, by simp⟩⟩
    · exact (hfound hpos).imp_right fun h => ⟨_, h⟩
  have := (hbest _ (hfound hpos).1 start ho).2 rfl hpos
  have := ho.1
  omega

/-- A draft is proposed just if some n-gram of an allowed size occurs before; it follows the
earliest occurrence of the longest one. -/
theorem propose_longest_earliest (o : List τ) {minNgram maxNgram : ℕ} (hmin : 1 ≤ minNgram)
    (hle : minNgram ≤ maxNgram) (maxModelLen k : ℤ) {draft : List τ}
    (hdraft : findLongestMatchedNgramAndProposeTokens o minNgram maxNgram maxModelLen k = draft) :
    (draft ≠ [] ↔ 0 < k ∧ o.length < maxModelLen ∧ ∃ n, Matches o minNgram maxNgram n) ∧
      (draft ≠ [] → ∃ n start, IsGreatest {n | Matches o minNgram maxNgram n} n ∧
        IsLeast {start | Occurs o n start} start ∧ draft = (o.drop (start + n)).take
          (min (min k (maxModelLen - o.length)) (o.length - (start + n : ℕ))).toNat) := by
  subst hdraft
  have hnil : ∀ {P Q : Prop}, ¬P → (([] : List τ) ≠ [] ↔ P) ∧ (([] : List τ) ≠ [] → Q) := fun hP =>
    ⟨iff_of_false (fun h => h rfl) hP, fun h => absurd rfl h⟩
  simp only [findLongestMatchedNgramAndProposeTokens]
  rcases lt_or_ge o.length minNgram with hlen | hlen
  · rw [if_pos hlen]
    refine hnil fun ⟨_, _, n, hn, _, start, ho⟩ => ?_
    have := ho.1
    omega
  rw [if_neg hlen.not_gt]
  rcases le_or_gt (min k (maxModelLen - o.length)) 0 with hk | hk
  · rw [if_pos hk]
    exact hnil (by omega)
  rw [if_neg hk.not_ge]
  obtain ⟨⟨hfound, hgreatest⟩, hleast⟩ := scan_reverse (o := o) (by omega) (hmin.trans hle)
  generalize scan o.reverse maxNgram (2 * o.length) {} = s at *
  rcases lt_or_ge s.longestNgram minNgram with hn | hn
  · rw [if_pos hn]
    exact hnil fun ⟨_, _, n, hle, hn⟩ => absurd (hgreatest hn) (by omega)
  have hleast := hleast (by omega)
  have := hleast.1.1
  rw [if_neg hn.not_gt, slice, drop_take, Nat.add_sub_cancel_left]
  refine ⟨iff_of_true ?_ ⟨by omega, by omega, _, hn, hfound⟩,
    fun _ => ⟨_, _, ⟨⟨hn, hfound⟩, fun n hn => hgreatest hn.2⟩, hleast, rfl⟩⟩
  rw [← length_pos_iff, length_take, length_drop]
  omega

/-- The last two of the tokens `1 2 3 1 2` are followed by `3`. -/
theorem propose_after_bigram :
    findLongestMatchedNgramAndProposeTokens [1, 2, 3, 1, 2] 1 3 10 2 = [3, 1] ∧ ∃ n start,
      IsLeast {start | Occurs [1, 2, 3, 1, 2] n start} start ∧
      [3, 1] = ([1, 2, 3, 1, 2].drop (start + n)).take
      (min (min 2 (10 - 5)) (5 - (start + n : ℕ) : ℤ)).toNat := by
  have hdraft : findLongestMatchedNgramAndProposeTokens [1, 2, 3, 1, 2] 1 3 10 2 = [3, 1] := by
    decide
  obtain ⟨n, start, -, hl, hd⟩ :=
    (propose_longest_earliest [1, 2, 3, 1, 2] (by decide) (by decide) 10 2 hdraft).2
    (by decide)
  exact ⟨hdraft, n, start, hl, hd⟩

end Vllm.Ngram
