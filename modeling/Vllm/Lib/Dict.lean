import Mathlib.Algebra.GroupWithZero.Nat
import Mathlib.Data.List.AList
import Mathlib.Algebra.Order.BigOperators.Group.List
import Mathlib.Algebra.Order.Group.Nat

/-! # Dictionaries and totals over their values -/

abbrev Dict (κ ν : Type*) := AList fun _ : κ => ν

namespace Dict

open List AList

variable {κ ν : Type*} (f : ν → ℕ) {d : Dict κ ν}

/-- The sum of `f v` over the values. -/
def total (d : Dict κ ν) : ℕ := (d.entries.map fun e => f e.2).sum

variable [DecidableEq κ] (d)

def valueAt (k : κ) : ℕ := (d.lookup k).elim 0 f

lemma sum_kerase {k : κ} (l : List (Sigma fun _ : κ => ν)) :
    ((l.kerase k).map fun e => f e.2).sum + (l.dlookup k).elim 0 f =
    (l.map fun e => f e.2).sum := by
  induction l with
  | nil => rfl
  | cons e l ih =>
    obtain ⟨k', v⟩ := e
    rcases eq_or_ne k k' with rfl | h
    · simp [Nat.add_comm]
    have hne : k ≠ (Sigma.mk k' v : Sigma fun _ : κ => ν).1 := h
    rw [kerase_cons_ne hne, dlookup_cons_ne _ _ h, map_cons, map_cons, sum_cons, sum_cons,
      Nat.add_assoc, ih]

lemma total_erase_add (k : κ) :
    total f (d.erase k) + valueAt f d k = total f d := sum_kerase f d.entries

lemma total_insert_add (k : κ) (v : ν) :
    total f (d.insert k v) + valueAt f d k = f v + total f d := by
  have h := total_erase_add f d k
  have hi : total f (d.insert k v) = f v + total f (d.erase k) := by
    rfl
  omega

variable {d}

lemma le_total {k : κ} {v : ν} (h : d.lookup k = some v) : f v ≤ total f d := by
  have := total_erase_add f d k
  rw [valueAt, h] at this
  simp only [Option.elim_some] at this
  omega

lemma length_le_total (h : ∀ k v, d.lookup k = some v → 1 ≤ f v) :
    d.entries.length ≤ total f d := by
  have hsum := card_nsmul_le_sum (d.entries.map fun e => f e.2) 1 (by
    intro x hx
    obtain ⟨e, he, rfl⟩ := mem_map.mp hx
    exact h e.1 e.2 (mem_lookup_iff.mpr he))
  simpa [total] using hsum

/-- If each value counts at most one and they count as many as there are, each counts one. -/
lemma eq_one_of_total (h : ∀ k v, d.lookup k = some v → f v ≤ 1)
    (htotal : total f d = d.entries.length) {k : κ} {v : ν} (hv : d.lookup k = some v) :
    f v = 1 := by
  have hsum : total f d + total (fun v => 1 - f v) d = d.entries.length := by
    rw [total, total, ← sum_map_add, map_congr_left (g := fun _ => 1)]
    · simp
    intro e he
    have := h e.1 e.2 (mem_lookup_iff.mpr he)
    omega
  have hone := h k v hv
  have hzero := le_total (fun v => 1 - f v) hv
  omega

/-- The sum of `g k` over the keys. -/
def keyTotal (g : κ → ℕ) (d : Dict κ ν) : ℕ := (d.keys.map g).sum

variable (g : κ → ℕ) {d : Dict κ ν} {k : κ}

lemma keyTotal_insert_of_none (h : d.lookup k = none) (v : ν) :
    keyTotal g (d.insert k v) = g k + keyTotal g d := by
  have hnot : k ∉ d.keys := mem_keys.not.mp (lookup_eq_none.mp h)
  rw [keyTotal, keys_insert, erase_of_not_mem hnot, map_cons, sum_cons, keyTotal]

lemma keyTotal_erase_add (h : d.lookup k ≠ none) : keyTotal g (d.erase k) + g k = keyTotal g d := by
  have hmem : k ∈ d.keys := by
    by_contra hnot
    exact h (lookup_eq_none.mpr fun hk => hnot (mem_keys.mp hk))
  have hsum := sum_map_erase g hmem
  rw [keyTotal, keys_erase, keyTotal]
  omega

lemma keyTotal_insert_of_some (h : d.lookup k ≠ none) (v : ν) :
    keyTotal g (d.insert k v) = keyTotal g d := by
  have herase := keyTotal_erase_add g h
  have hinsert : keyTotal g (d.insert k v) = g k + keyTotal g (d.erase k) := by
    simp only [keyTotal, keys_insert, keys_erase, map_cons, sum_cons]
  omega

end Dict
