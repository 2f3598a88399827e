import Mathlib.Tactic.Ring

/-! # Positions dealt out in stripes -/

namespace Striping

variable {I W k x y : ℕ}

/-- The owners take turns of `I` positions. -/
def owner (I W x : ℕ) : ℕ := x / I % W

/-- An owner puts its positions one after the other. -/
def place (I W x : ℕ) : ℕ := x / (W * I) * I + x % I

lemma owner_lt (hW : 0 < W) (x : ℕ) : owner I W x < W := Nat.mod_lt _ hW

lemma eq_add (I W x : ℕ) : x = x / (W * I) * (W * I) + owner I W x * I + x % I := by
  have hrnd : x / (W * I) = x / I / W := by rw [mul_comm, Nat.div_div_eq_div_mul]
  calc x = x / I * I + x % I := (Nat.div_add_mod' x I).symm
    _ = (x / I / W * W + x / I % W) * I + x % I := by rw [Nat.div_add_mod' (x / I) W]
    _ = _ := by
      rw [hrnd, owner]
      ring

lemma quot_rem_eq {n q q' r r' : ℕ} (hr : r < n) (hr' : r' < n) (h : q * n + r = q' * n + r') :
    q = q' ∧ r = r' := by
  have hq := congrArg (· / n) h
  simp only [mul_comm _ n, Nat.mul_add_div (Nat.zero_lt_of_lt hr), Nat.div_eq_of_lt hr,
    Nat.div_eq_of_lt hr', add_zero] at hq
  subst hq
  exact ⟨rfl, add_left_cancel h⟩

lemma eq_of_place_eq (hI : 0 < I) (howner : owner I W x = owner I W y)
    (hplace : place I W x = place I W y) :
    x = y := by
  obtain ⟨hrnd, hturn⟩ := quot_rem_eq (Nat.mod_lt x hI) (Nat.mod_lt y hI) hplace
  rw [eq_add I W x, eq_add I W y, hrnd, howner, hturn]

lemma place_lt (hI : 0 < I) (h : W = 1 ∨ I ∣ k) (hx : x < k * W) : place I W x < k := by
  rcases h with rfl | ⟨n, rfl⟩
  · rwa [place, one_mul, Nat.div_add_mod', ← mul_one k]
  have hrnd : x / (W * I) < n := by
    apply Nat.div_lt_of_lt_mul
    calc x < I * n * W := hx
      _ = W * I * n := by ring
  calc place I W x < x / (W * I) * I + I := Nat.add_lt_add_left (Nat.mod_lt _ hI) _
    _ = (x / (W * I) + 1) * I := by ring
    _ ≤ n * I := Nat.mul_le_mul_right _ hrnd
    _ = I * n := mul_comm _ _

/-- If a turn is cut off, the first owner has more than `k` places. -/
lemma exists_place_eq (hI : 0 < I) (hW : 2 ≤ W) (h : ¬ I ∣ k) :
    ∃ x < k * W, owner I W x = 0 ∧ place I W x = k := by
  have hlt : k % I < I := Nat.mod_lt k hI
  have hk : k = k / I * I + k % I := (Nat.div_add_mod' k I).symm
  have hturn : k % I < W * I := hlt.trans_le (Nat.le_mul_of_pos_left _ (by omega))
  refine ⟨k % I + W * I * (k / I), ?_, ?_, ?_⟩
  · have h2 : k % I < W * (k % I) := by
      have := Nat.mul_le_mul_right (k % I) hW
      omega
    calc k % I + W * I * (k / I) < W * (k % I) + W * I * (k / I) := Nat.add_lt_add_right h2 _
      _ = (k / I * I + k % I) * W := by ring
      _ = k * W := by rw [← hk]
  · rw [owner, mul_comm W I, mul_assoc, Nat.add_mul_div_left _ _ hI, Nat.div_eq_of_lt hlt, zero_add,
      Nat.mul_mod_right]
  rw [place, Nat.add_mul_div_left _ _ (mul_pos (by omega) hI), Nat.div_eq_of_lt hturn, zero_add,
    mul_comm W I, mul_assoc, Nat.add_mul_mod_self_left, Nat.mod_mod]
  exact hk.symm

end Striping
