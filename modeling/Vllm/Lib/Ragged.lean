import Mathlib.Algebra.GroupWithZero.Nat
import Mathlib.Data.List.Basic

/-! # Flattened rows -/

namespace Ragged

open List

variable {ι α β γ : Type*}

/-- The rows `f x 0, …, f x (n x - 1)` of all members, one after the other. -/
def ragged (n : ι → ℕ) (f : ι → ℕ → α) (xs : List ι) :
    List α := xs.flatMap fun x => (List.range (n x)).map (f x)

/-- Each member with the position of its first row. -/
def withOffset (n : ι → ℕ) : ℕ → List ι → List (ι × ℕ)
  | _, [] => []
  | start, x :: xs => (x, start) :: withOffset n (start + n x) xs

def cumsum : ℕ → List ℕ → List ℕ
  | _, [] => []
  | acc, k :: ks => (acc + k) :: cumsum (acc + k) ks

def npRepeat (xs : List α) (counts : List ℕ) :
    List α := (List.zipWith (fun x k => List.replicate k x) xs counts).flatten

def arange (counts : List ℕ) : List ℕ := counts.flatMap List.range

section rows

variable {n m : ι → ℕ} {f : ι → ℕ → α} {g : ι → ℕ → β}

@[simp] lemma ragged_cons (x : ι) (xs : List ι) :
    ragged n f (x :: xs) = (range (n x)).map (f x) ++ ragged n f xs := rfl

@[simp] lemma length_ragged (xs : List ι) : (ragged n f xs).length = (xs.map n).sum := by
  induction xs with
  | nil => rfl
  | cons x xs ih => simp [ih]

lemma map_ragged (h : α → γ) (xs : List ι) :
    (ragged n f xs).map h = ragged n (fun x j => h (f x j)) xs := by
  induction xs with
  | nil => rfl
  | cons x xs ih => simp [ih, Function.comp_def]

lemma ragged_congr {f' : ι → ℕ → α} {xs : List ι} (h : ∀ x ∈ xs, ∀ j < n x, f x j = f' x j) :
    ragged n f xs = ragged n f' xs := by
  induction xs with
  | nil => rfl
  | cons x xs ih =>
    rw [forall_mem_cons] at h
    rw [ragged_cons, ih h.2]
    congr 1
    exact map_congr_left fun j hj => h.1 j (mem_range.mp hj)

lemma zipWith_ragged (h : α → β → γ) (xs : List ι) :
    zipWith h (ragged n f xs) (ragged n g xs) = ragged n (fun x j => h (f x j) (g x j)) xs := by
  induction xs with
  | nil => rfl
  | cons x xs ih =>
    rw [ragged_cons, ragged_cons, zipWith_append (by simp), ih, zipWith_map]
    simp

lemma ragged_map (h : γ → ι) (xs : List γ) :
    ragged n f (xs.map h) = ragged (fun x => n (h x)) (fun x => f (h x)) xs := by
  induction xs with
  | nil => rfl
  | cons x xs ih => simp [ih]

lemma ragged_of_map {h : γ → ι} {ys : List γ} {xs : List ι} (hys : ys.map h = xs) :
    ragged n f xs = ragged (fun y => n (h y)) (fun y => f (h y)) ys := by
  rw [← hys, ragged_map]

lemma ragged_one (f : ι → ℕ → α) (xs : List ι) :
    ragged (fun _ => 1) f xs = xs.map fun x => f x 0 := by
  induction xs with
  | nil => rfl
  | cons x xs ih => simp [ih, range_succ]

end rows

section offsets

variable {n : ι → ℕ} {xs : List ι} (start : ℕ)

lemma map_fst_withOffset (xs : List ι) : (withOffset n start xs).map Prod.fst = xs := by
  induction xs generalizing start with
  | nil => rfl
  | cons x xs ih => simp [withOffset, ih]

lemma map_withOffset (c : ι → α) (start : ℕ) (xs : List ι) :
    (withOffset n start xs).map (fun p => c p.1) = xs.map c := by
  have h := congrArg (map c) (map_fst_withOffset (n := n) start xs)
  rwa [map_map] at h

lemma mem_of_withOffset {start : ℕ} {p : ι × ℕ} (h : p ∈ withOffset n start xs) : p.1 ∈ xs := by
  rw [← map_fst_withOffset (n := n) start xs]
  exact mem_map_of_mem h

lemma length_withOffset (xs : List ι) : (withOffset n start xs).length = xs.length := by
  rw [← length_map, map_fst_withOffset]

lemma cumsum_map (xs : List ι) :
    cumsum start (xs.map n) = (withOffset n start xs).map fun p => p.2 + n p.1 := by
  induction xs generalizing start with
  | nil => rfl
  | cons x xs ih => simp [cumsum, withOffset, ih]

lemma zipWith_cumsum {k : ι → ℕ} (f : ℕ → ℕ → α) (start : ℕ) (xs : List ι) :
    zipWith f (cumsum start (xs.map n)) (xs.map k) = (withOffset n start xs).map fun p =>
    f (p.2 + n p.1) (k p.1) := by
  induction xs generalizing start with
  | nil => rfl
  | cons x xs ih => simp [cumsum, withOffset, ih]

lemma cumsum_pred {start i off : ℕ} {x : ι} (h : (withOffset n start xs)[i]? = some (x, off)) :
    (i = 0 → off = start) ∧ (0 < i → (cumsum start (xs.map n))[i - 1]? = some off) := by
  induction xs generalizing start i with
  | nil => simp [withOffset] at h
  | cons y xs ih =>
    cases i with
    | zero =>
      simp only [withOffset, getElem?_cons_zero, Option.some.injEq, Prod.mk.injEq] at h
      exact ⟨fun _ => h.2.symm, fun hi => absurd hi (by simp)⟩
    | succ i =>
      obtain ⟨hzero, hpos⟩ := ih h
      refine ⟨fun hi => absurd hi (by simp), fun _ => ?_⟩
      rw [map_cons, cumsum, Nat.add_sub_cancel]
      cases i with
      | zero => rw [getElem?_cons_zero, hzero rfl]
      | succ i =>
        exact hpos (Nat.succ_pos i)

lemma npRepeat_map {m : ι → ℕ} (g : ι → α) (xs : List ι) :
    npRepeat (xs.map g) (xs.map m) = ragged m (fun x _ => g x) xs := by
  induction xs with
  | nil => rfl
  | cons x xs ih =>
    rw [ragged_cons, ← ih]
    simp [npRepeat]

lemma arange_map {m : ι → ℕ} (xs : List ι) : arange (xs.map m) = ragged m (fun _ j => j) xs := by
  induction xs with
  | nil => rfl
  | cons x xs ih => simp [arange, ← ih]

lemma positions_eq {k c : ι → ℕ} (hk : ∀ x ∈ xs, k x ≤ n x) :
    zipWith (· + ·) (npRepeat (zipWith (· - ·) (cumsum 0 (xs.map n)) (xs.map k)) (xs.map c))
    (arange (xs.map c)) =
      ragged (fun p => c p.1) (fun p j => p.2 + (n p.1 - k p.1 + j)) (withOffset n 0 xs) := by
  rw [zipWith_cumsum, ← map_withOffset (n := n) c 0 xs, npRepeat_map, arange_map, zipWith_ragged]
  refine ragged_congr fun p hp j _ => ?_
  have := hk p.1 (mem_of_withOffset hp)
  omega

lemma getElem?_ragged {f : ι → ℕ → α} (pre : List α) {start : ℕ} (hpre : pre.length = start)
    {p : ι × ℕ} (hp : p ∈ withOffset n start xs) {j : ℕ} (hj : j < n p.1) :
    (pre ++ ragged n f xs)[p.2 + j]? = some (f p.1 j) := by
  induction xs generalizing start pre with
  | nil => cases hp
  | cons x xs ih =>
    rw [withOffset, mem_cons] at hp
    rcases hp with rfl | hp
    · dsimp only at hj ⊢
      rw [getElem?_append_right (by omega), ragged_cons, getElem?_append_left (by simp; omega)]
      rw [show start + j - pre.length = j by omega]
      simp [hj]
    · rw [ragged_cons, ← append_assoc]
      exact ih _ (by simp [hpre]) hp

lemma getElem?_withOffset {i : ℕ} {x : ι} (h : xs[i]? = some x) :
    ∃ off, (withOffset n start xs)[i]? = some (x, off) := by
  have hi : i < (withOffset n start xs).length := by
    rw [length_withOffset]
    exact (List.getElem?_eq_some_iff.mp h).1
  refine ⟨((withOffset n start xs)[i]).2, ?_⟩
  have hx : ((withOffset n start xs).map Prod.fst)[i]? = some x := by rw [map_fst_withOffset, h]
  rw [getElem?_map, getElem?_eq_getElem hi] at hx
  rw [getElem?_eq_getElem hi]
  exact congrArg some (Prod.ext (Option.some.inj hx) rfl)

end offsets

end Ragged
