import Mathlib.Data.Nat.ModEq
import Mathlib.Logic.Function.Basic

/-! # A queue in a ring -/

namespace RingQueue

open List Function

variable {α : Type*} {n c : ℕ} {l : List α} {f : ℕ → Option α}

/-- The entries of `l` from index `c` on stand at their indices modulo `n`. -/
def Holds (n c : ℕ) (l : List α) (f : ℕ → Option α) : Prop :=
  l.length ≤ c + n ∧ ∀ k < n, f ((c + k) % n) = l[c + k]?

lemma mod_ne {k k' : ℕ} (hlt : k < k') (hk' : k' < n) : (c + k) % n ≠ (c + k') % n := fun heq => by
  have hdvd := (Nat.modEq_iff_dvd' (Nat.add_le_add_left hlt.le c)).mp heq
  have := Nat.le_of_dvd (by omega) hdvd
  omega

lemma Holds.push (h : Holds n c l f) (hn : 0 < n) (hc : c ≤ l.length)
    (hfree : f (l.length % n) = none) (x : α) :
    Holds n c (l ++ [x]) (update f (l.length % n) (some x)) := by
  have hlt : l.length < c + n := by
    refine h.1.lt_of_ne fun heq => ?_
    rw [heq, Nat.add_mod_right] at hfree
    have := getElem?_eq_none_iff.mp ((h.2 0 hn).symm.trans hfree)
    omega
  obtain ⟨d, hd⟩ := Nat.exists_eq_add_of_le hc
  refine ⟨by simpa using Nat.succ_le_of_lt hlt, fun k hk => ?_⟩
  rcases eq_or_ne k d with rfl | hne
  · rw [← hd, update_self, getElem?_concat_length]
  have hmod : (c + k) % n ≠ l.length % n := by
    rw [hd]
    rcases Nat.lt_or_gt_of_ne hne with hkd | hkd
    · exact mod_ne hkd (by omega)
    · exact (mod_ne hkd hk).symm
  rw [update_of_ne hmod, h.2 k hk]
  grind

lemma Holds.pop (h : Holds n c l f) (hn : 0 < n) :
    f (c % n) = l[c]? ∧ Holds n (c + 1) l (update f (c % n) none) := by
  refine ⟨h.2 0 hn, by have := h.1; omega, fun k hk => ?_⟩
  rw [Nat.add_assoc, Nat.add_comm 1]
  rcases Nat.lt_or_eq_of_le (Nat.succ_le_of_lt hk) with hlt | heq
  · have hmod : (c + (k + 1)) % n ≠ c % n := (mod_ne (c := c) (Nat.succ_pos k) hlt).symm
    rw [update_of_ne hmod]
    exact h.2 _ hlt
  · rw [← Nat.succ_eq_add_one, heq, Nat.add_mod_right, update_self, getElem?_eq_none h.1]

end RingQueue
