import Vllm.Basic
import Mathlib.Algebra.BigOperators.Group.Finset.Piecewise
import Mathlib.Algebra.Order.BigOperators.Group.Finset
import Mathlib.Algebra.Order.Field.Basic
import Mathlib.Algebra.Order.Field.Rat
import Mathlib.Data.List.MinMax

/-!
# Replicating experts

`replicate_experts` of `vllm/distributed/eplb/policy/default.py` with exact loads, row by row.
-/

namespace Vllm.Eplb

open List Function

variable {K : Type} [Field K] [LinearOrder K] {n : ℕ}

/-- One row of `phy2log` and `logcnt`. -/
structure Replicas (n : ℕ) where
  phy2log : List ℕ
  logcnt : Fin n → ℕ := fun _ => 1

def replicateRound (w : Fin n → K) (r : Replicas n) (i : ℕ) : Py (Replicas n) :=
  match argmax (fun e => w e / r.logcnt e) (finRange n) with
  | none => .error (.valueError "attempt to get argmax of an empty sequence")
  | some e => .ok ⟨r.phy2log.set i e, update r.logcnt e (r.logcnt e + 1)⟩

/-- `DefaultEplbPolicy.replicate_experts`, row by row. -/
def replicateExperts (weight : List (Fin n → K)) (numPhy : ℕ) : Py (List (Replicas n)) := do
  pyAssert (n ≤ numPhy) ""
  weight.mapM fun w => (range' n (numPhy - n)).foldlM (replicateRound w) { phy2log := range numPhy }

/-- Every expert has a replica, and there are `numPhy` replicas in all. -/
def Assignment (numPhy : ℕ) (d : Fin n → ℕ) : Prop := (∀ e, 1 ≤ d e) ∧ ∑ e, d e = numPhy

/-- `⊥` without experts. -/
def maxLoad (w : Fin n → K) (d : Fin n → ℕ) :
    WithBot K := Finset.univ.sup fun e => ((w e / d e : K) : WithBot K)

/-- Before round `i`. An expert got its last replica when its load was the largest. -/
structure Balanced (w : Fin n → K) (i : ℕ) (r : Replicas n) : Prop where
  assignment : Assignment i r.logcnt
  listed : ∀ e : Fin n, (r.phy2log.take i).count e.val = r.logcnt e
  last : ∀ e e', 1 < r.logcnt e' → w e / r.logcnt e ≤ w e' / (r.logcnt e' - 1 : ℕ)

variable {numPhy i : ℕ} {w : Fin n → K} {r : Replicas n}

lemma balanced_init (h : n ≤ numPhy) : Balanced w n { phy2log := range numPhy } where
  assignment := ⟨fun _ => le_rfl, by simp⟩
  listed e := by simp [take_range, Nat.min_eq_left h, count_range, e.isLt]
  last _ _ h := absurd h (lt_irrefl 1)

variable [IsStrictOrderedRing K] (hw : ∀ e, 0 ≤ w e)
include hw

lemma load_le {e : Fin n} {c d : ℕ} (hc : 1 ≤ c) (h : c ≤ d) : w e / d ≤ w e / c :=
  div_le_div_of_nonneg_left (hw e) (Nat.cast_pos.mpr hc) (Nat.cast_le.mpr h)

lemma replicateRound_balanced (hn : n ≠ 0) (hi : i < r.phy2log.length) (hb : Balanced w i r) :
    ∃ r', replicateRound w r i = .ok r' ∧ r'.phy2log.length = r.phy2log.length ∧
    Balanced w (i + 1) r' := by
  unfold replicateRound
  split
  · next h => simp [argmax_eq_none, hn] at h
  next e₀ h =>
  have hmax e : w e / r.logcnt e ≤ w e₀ / r.logcnt e₀ := le_of_mem_argmax (mem_finRange e) h
  have hle e : r.logcnt e ≤ update r.logcnt e₀ (r.logcnt e₀ + 1) e := by
    rcases eq_or_ne e e₀ with rfl | he
    · simp
    · rw [update_of_ne he]
  refine ⟨_, rfl, length_set, ⟨fun e => (hb.assignment.1 e).trans (hle e), ?_⟩, fun e => ?_,
    fun e e' he' => ?_⟩
  · rw [← hb.assignment.2,
      Finset.sum_eq_add_sum_sdiff_singleton_of_mem (Finset.mem_univ e₀) r.logcnt]
    exact (Finset.sum_update_of_mem (Finset.mem_univ e₀) _ _).trans (Nat.add_right_comm ..)
  · rw [take_add_one, take_set_of_le le_rfl, getElem?_set_self hi, count_append, hb.listed]
    rcases eq_or_ne e e₀ with rfl | he
    · simp
    · simp [he, Fin.val_inj, he.symm]
  refine (load_le hw (hb.assignment.1 e) (hle e)).trans ?_
  rcases eq_or_ne e' e₀ with rfl | hne
  · simpa using hmax e
  dsimp only at he' ⊢
  rw [update_of_ne hne] at he' ⊢
  exact hb.last e e' he'

lemma foldlM_balanced (hn : n ≠ 0) {k : ℕ} (hk : i + k = r.phy2log.length) (hb : Balanced w i r) :
    ∃ r', (range' i k).foldlM (replicateRound w) r = .ok r' ∧ r'.phy2log.length = r.phy2log.length ∧
      Balanced w r.phy2log.length r' := by
  induction k generalizing i r with
  | zero =>
    rw [← hk]
    exact ⟨r, rfl, hk.symm, hb⟩
  | succ k ih =>
    obtain ⟨r₁, hr, hl, hb₁⟩ := replicateRound_balanced hw hn (by omega) hb
    rw [range'_succ, foldlM_cons, hr, ok_bind, ← hl]
    exact ih (by omega) hb₁

lemma Balanced.exists_le {d : Fin n → ℕ} (hb : Balanced w numPhy r) (hd : Assignment numPhy d)
    (e : Fin n) :
    ∃ e', w e / r.logcnt e ≤ w e' / d e' := by
  rcases le_or_gt (d e) (r.logcnt e) with hle | hlt
  · exact ⟨e, load_le hw (hd.1 e) hle⟩
  obtain ⟨e', he'⟩ : ∃ e', d e' < r.logcnt e' := by
    by_contra! hall
    have := Finset.sum_lt_sum (fun j _ => hall j) ⟨e, Finset.mem_univ e, hlt⟩
    rw [hb.assignment.2, hd.2] at this
    exact this.false
  have := hd.1 e'
  exact ⟨e', (hb.last e e' (by omega)).trans (load_le hw this (by omega))⟩

lemma Balanced.isLeast (hb : Balanced w numPhy r) :
    IsLeast (maxLoad w '' {d | Assignment numPhy d}) (maxLoad w r.logcnt) := by
  refine ⟨⟨_, hb.assignment, rfl⟩, ?_⟩
  rintro _ ⟨d, hd, rfl⟩
  refine Finset.sup_le fun e _ => ?_
  obtain ⟨e', he'⟩ := hb.exists_le hw hd e
  exact (WithBot.coe_le_coe.mpr he').trans
    (Finset.le_sup (f := fun e => ((w e / d e : K) : WithBot K)) (Finset.mem_univ e'))

omit hw
/-- No assignment of the physical experts has a smaller maximal load than the one
`replicate_experts` returns, and each expert has as many replicas as it counts. -/
theorem replicateExperts_isLeast (weight : List (Fin n → K)) (hw : ∀ w ∈ weight, ∀ e, 0 ≤ w e)
    (h : n ≤ numPhy) (h0 : n = 0 → numPhy = 0) :
    ∃ out, replicateExperts weight numPhy = .ok out ∧
      Forall₂ (fun w r => IsLeast (maxLoad w '' {d | Assignment numPhy d}) (maxLoad w r.logcnt) ∧
        r.phy2log.length = numPhy ∧
        ∀ e : Fin n, r.phy2log.count e.val = r.logcnt e) weight out := by
  have hrow w : ∃ r, w ∈ weight →
    (range' n (numPhy - n)).foldlM (replicateRound w) { phy2log := range numPhy } = .ok r ∧
      r.phy2log.length = numPhy ∧ Balanced w numPhy r := by
    rcases eq_or_ne n 0 with rfl | hn
    · cases h0 rfl
      exact ⟨_, fun _ => ⟨rfl, rfl, balanced_init le_rfl⟩⟩
    by_cases hm : w ∈ weight
    · obtain ⟨r, hr, hl, hb⟩ := foldlM_balanced (hw w hm) hn
        ((Nat.add_sub_of_le h).trans length_range.symm) (balanced_init h)
      rw [length_range] at hl hb
      exact ⟨r, fun _ => ⟨hr, hl, hb⟩⟩
    · exact ⟨⟨[], fun _ => 0⟩, fun h => absurd h hm⟩
  choose g hg using hrow
  refine ⟨weight.map g, ?_, ?_⟩
  · rw [replicateExperts, pyAssert_pos h, ok_bind]
    exact mapM_of_ok fun w hm => (hg w hm).1
  rw [forall₂_map_right_iff, forall₂_same]
  intro w hm
  obtain ⟨-, hl, hb⟩ := hg w hm
  refine ⟨hb.isLeast (hw w hm), hl, fun e => ?_⟩
  rw [← hb.listed, ← hl, take_length]

/-- Two experts with weights 0 and 1 on three physical experts. -/
theorem replicateExperts_isLeast_three :
    ∃ r, replicateExperts [fun e : Fin 2 => (e.val : ℚ)] 3 = .ok [r] ∧
    IsLeast (maxLoad (fun e : Fin 2 => (e.val : ℚ)) '' {d | Assignment 3 d})
      (maxLoad (fun e : Fin 2 => (e.val : ℚ)) r.logcnt) ∧
    r.phy2log.length = 3 ∧ ∀ e : Fin 2, r.phy2log.count e.val = r.logcnt e := by
  obtain ⟨out, h, hrows⟩ := replicateExperts_isLeast [fun e : Fin 2 => (e.val : ℚ)]
    (by simp) (by decide : 2 ≤ 3) (by simp)
  obtain ⟨r, _, hr, hnil, rfl⟩ := forall₂_cons_left_iff.mp hrows
  rw [forall₂_nil_left_iff.mp hnil] at h
  exact ⟨r, h, hr⟩

end Vllm.Eplb
