import Mathlib.Data.List.Basic
import Mathlib.Tactic.Linarith

/-! # Intervals in a ring -/

namespace RingLayout

/-- The intervals (position and size) follow each other between the two ends. -/
def Laid : ℕ → List (ℕ × ℕ) → ℕ → Prop
  | lo, [], hi => lo ≤ hi
  | lo, x :: l, hi => lo ≤ x.1 ∧ Laid (x.1 + x.2) l hi

def Fits (N : ℕ) (x : ℕ × ℕ) : Prop := x.1 % N + x.2 ≤ N

variable {lo hi N : ℕ} {l : List (ℕ × ℕ)} {x y : ℕ × ℕ}

lemma Laid.append_singleton : Laid lo (l ++ [x]) hi ↔ Laid lo l x.1 ∧ x.1 + x.2 ≤ hi := by
  induction l generalizing lo with
  | nil => exact Iff.rfl
  | cons y l ih =>
    show lo ≤ y.1 ∧ Laid _ (l ++ [x]) hi ↔ (lo ≤ y.1 ∧ Laid _ l x.1) ∧ _
    rw [ih, and_assoc]

section

variable (h : Laid lo l hi)
include h

lemma Laid.mono {hi' : ℕ} (hle : hi ≤ hi') : Laid lo l hi' := by
  induction l generalizing lo with
  | nil => exact le_trans h hle
  | cons x l ih => exact ⟨h.1, ih h.2⟩

lemma Laid.le : lo ≤ hi := by
  induction l generalizing lo with
  | nil => exact h
  | cons x l ih => exact h.1.trans ((Nat.le_add_right _ _).trans (ih h.2))

lemma Laid.bounds (hx : x ∈ l) : lo ≤ x.1 ∧ x.1 + x.2 ≤ hi := by
  induction l generalizing lo with
  | nil => cases hx
  | cons y l ih =>
    rcases List.mem_cons.mp hx with rfl | hx
    · exact ⟨h.1, h.2.le⟩
    · have := ih h.2 hx
      exact ⟨h.1.trans ((Nat.le_add_right _ _).trans this.1), this.2⟩

lemma Laid.pairwise : l.Pairwise fun x y => x.1 + x.2 ≤ y.1 := by
  induction l generalizing lo with
  | nil => exact .nil
  | cons x l ih => exact .cons (fun y hy => (h.2.bounds hy).1) (ih h.2)

lemma Laid.shift (hN : N ≤ lo) : Laid (lo - N) (l.map fun x => (x.1 - N, x.2)) (hi - N) := by
  induction l generalizing lo with
  | nil => exact Nat.sub_le_sub_right h N
  | cons x l ih =>
    have hx : N ≤ x.1 := hN.trans h.1
    refine ⟨Nat.sub_le_sub_right h.1 N, ?_⟩
    have := ih h.2 (by omega)
    rwa [Nat.sub_add_comm hx] at this

end

lemma mod_disjoint (hN : 0 < N) (hxy : x.1 + x.2 ≤ y.1) (hspan : y.1 + y.2 ≤ x.1 + N) :
    x.1 % N + x.2 ≤ y.1 % N ∨ y.1 % N + y.2 ≤ x.1 % N := by
  have hx' := Nat.div_add_mod x.1 N
  have hy' := Nat.div_add_mod y.1 N
  -- the second interval is in the same turn or in the next one
  have hle : x.1 / N ≤ y.1 / N := Nat.div_le_div_right (by omega)
  have hturn : y.1 / N ≤ x.1 / N + 1 := by
    rw [← Nat.add_div_right _ hN]
    exact Nat.div_le_div_right (by omega)
  rcases lt_or_ge (x.1 / N) (y.1 / N) with hlt | hge
  · have hnext : y.1 / N = x.1 / N + 1 := by omega
    rw [hnext, mul_add] at hy'
    right
    omega
  have hsame : y.1 / N = x.1 / N := by omega
  rw [hsame] at hy'
  left
  omega

end RingLayout
