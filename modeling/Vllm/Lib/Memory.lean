import Mathlib.Data.List.GetD
import Mathlib.Tactic.Linarith
import Mathlib.Tactic.Positivity
import Mathlib.Tactic.Ring

/-! # Byte memory -/

abbrev Memory := ℕ → UInt8

namespace Memory

open List

def read (m : Memory) (pos n : ℕ) : List UInt8 := (List.range' pos n).map m

def write (m : Memory) (pos : ℕ) (bytes : List UInt8) : Memory := fun i =>
  if pos ≤ i then bytes.getD (i - pos) (m i) else m i

variable {m : Memory} {pos pos' n : ℕ} {bytes : List UInt8}

@[simp] lemma length_read : (m.read pos n).length = n := by simp [read]

lemma take_read {k : ℕ} (h : k ≤ n) : (m.read pos n).take k = m.read pos k := by
  obtain ⟨j, rfl⟩ := Nat.exists_eq_add_of_le h
  rw [read, ← range'_append_1, map_append, take_left' (by simp)]
  rfl

lemma write_of_lt {i : ℕ} (h : i < pos) : m.write pos bytes i = m i := if_neg (by omega)

lemma write_of_ge {i : ℕ} (h : pos + bytes.length ≤ i) : m.write pos bytes i = m i := by
  rw [write, if_pos (by omega), getD_eq_default _ _ (by omega)]

lemma read_congr {m' : Memory} (h : ∀ i, pos ≤ i → i < pos + n → m i = m' i) :
    m.read pos n = m'.read pos n := by
  refine map_congr_left fun i hi => ?_
  rw [mem_range'_1] at hi
  exact h i hi.1 hi.2

lemma read_write_of_disjoint (h : pos' + n ≤ pos ∨ pos + bytes.length ≤ pos') :
    (m.write pos bytes).read pos' n = m.read pos' n := by
  refine read_congr fun i hle hlt => ?_
  rcases h with h | h
  · exact write_of_lt (by omega)
  · exact write_of_ge (by omega)

lemma read_write_self : (m.write pos bytes).read pos bytes.length = bytes := by
  apply ext_getElem
  · simp
  intro i hi hi'
  simp only [read, getElem_map, getElem_range', write, Nat.one_mul]
  rw [if_pos (by omega), Nat.add_sub_cancel_left, getD_eq_getElem _ _ hi']

end Memory

/-- The little-endian digits of a number. -/
def leBytes : ℕ → ℕ → List UInt8
  | 0, _ => []
  | k + 1, n => UInt8.ofNat n :: leBytes k (n / 256)

/-- The number with the given digits. -/
def leValue : List UInt8 → ℕ
  | [] => 0
  | b :: bs => b.toNat + 256 * leValue bs

/-- The digits read in two's complement. -/
def leInt (bytes : List UInt8) : ℤ :=
  if 2 * leValue bytes < 256 ^ bytes.length then leValue bytes else leValue bytes -
    256 ^ bytes.length

@[simp] lemma length_leBytes (k n : ℕ) : (leBytes k n).length = k := by
  induction k generalizing n with
  | zero => rfl
  | succ k ih => rw [leBytes, List.length_cons, ih]

lemma leValue_leBytes (k n : ℕ) : leValue (leBytes k n) = n % 256 ^ k := by
  induction k generalizing n with
  | zero => simp [leBytes, leValue, Nat.mod_one]
  | succ k ih =>
    rw [leBytes, leValue, ih]
    show n % 256 + 256 * (n / 256 % 256 ^ k) = n % 256 ^ (k + 1)
    rw [Nat.pow_succ, Nat.mul_comm (256 ^ k), Nat.mod_mul]

lemma leInt_leBytes {k : ℕ} {x : ℤ} (hlo : -(256 ^ k : ℤ) ≤ 2 * x) (hhi : 2 * x < 256 ^ k) :
    leInt (leBytes k (x % 256 ^ k).toNat) = x := by
  have hpos : (0 : ℤ) < 256 ^ k := by positivity
  have hmod : ((x % 256 ^ k).toNat : ℤ) = x % 256 ^ k :=
    Int.toNat_of_nonneg (Int.emod_nonneg _ hpos.ne')
  have hlt : (x % 256 ^ k).toNat < 256 ^ k := by
    zify
    rw [hmod]
    exact Int.emod_lt_of_pos _ hpos
  unfold leInt
  rw [leValue_leBytes, length_leBytes, Nat.mod_eq_of_lt hlt]
  -- the remainder is the number itself or lies above the middle
  rcases lt_or_ge x 0 with hx | hx
  · have hrem : x % 256 ^ k = x + 256 ^ k := by
      rw [← Int.add_emod_right, Int.emod_eq_of_lt (by omega) (by omega)]
    rw [if_neg (by zify; rw [hmod, hrem]; omega), hmod, hrem]
    ring
  · have hrem : x % 256 ^ k = x := Int.emod_eq_of_lt hx (by omega)
    rw [if_pos (by zify; rw [hmod, hrem]; omega), hmod, hrem]
