import Mathlib.Data.List.Basic
import Mathlib.Tactic.Linarith
import Mathlib.Tactic.Ring

/-!
# Python values and helpers

Raw bytes, slices `xs[a:b]`, exceptions, and `cdiv` of `vllm/utils/math_utils.py`.
-/

namespace Vllm

open List

abbrev Bytes := List UInt8

instance : LawfulBEq Bytes := inferInstanceAs (LawfulBEq (List UInt8))

/-- The Python exceptions that the modelled functions raise. -/
inductive PyError where
  | valueError (msg : String)
  | runtimeError (msg : String)
  | assertionError (msg : String)
  | indexError (msg : String)
  | keyError (msg : String)
  | notImplementedError (msg : String)
  | memoryError (msg : String)
  | overflowError (msg : String)
  deriving DecidableEq, Repr

abbrev Py := Except PyError

def pyAssert (cond : Bool) (msg : String) : Py Unit :=
  if cond then .ok () else .error (.assertionError msg)

/-- The slice `xs[a:b]` for non-negative bounds. -/
def slice {α : Type*} (xs : List α) (a b : ℕ) : List α := (xs.take b).drop a

/-- The position of a slice bound `i` in a list of length `n`; a negative one counts from the
end. -/
def sliceBound (n : ℕ) (i : ℤ) : ℕ := if i < 0 then (n + i).toNat else i.toNat

/-- Ceiling division, `-(a // -b)` in the source. -/
def cdiv (a : ℤ) (b : ℕ) : ℤ := -((-a) / b)

section slice

variable {α : Type*} (xs : List α)

@[simp] lemma length_slice (a b : ℕ) :
    (slice xs a b).length = min b xs.length - a := by simp [slice]

lemma slice_append_left {ys : List α} {a b : ℕ} (h : b ≤ xs.length) :
    slice (xs ++ ys) a b = slice xs a b := by
  rw [slice, take_append_of_le_length h, slice]

lemma slice_take {a b n : ℕ} (h : b ≤ n) : slice (xs.take n) a b = slice xs a b := by
  rw [slice, take_take, Nat.min_eq_left h, slice]

lemma slice_slice {a b c d : ℕ} (h : a + d ≤ b) :
    slice (slice xs a b) c d = slice xs (a + c) (a + d) := by
  simp only [slice, drop_take, take_take, drop_drop]
  congr 1
  omega

lemma drop_eq_slice_append {k i : ℕ} (h : k ≤ i) : xs.drop k = slice xs k i ++ xs.drop i := by
  have e := take_append_drop (i - k) (xs.drop k)
  rw [drop_drop, Nat.add_sub_cancel' h] at e
  rw [slice, drop_take, e]

lemma slice_add {k i : ℕ} (h : k ≤ i) (n : ℕ) :
    slice xs k (i + n) = slice xs k i ++ (xs.drop i).take n := by
  have e := drop_eq_slice_append (xs.take (i + n)) h
  rw [slice_take xs (Nat.le_add_right i n)] at e
  rw [slice, e, drop_take, Nat.add_sub_cancel_left]

end slice

variable {α β : Type} {g : α → Py β} {xs : List α} {ys : List β}

lemma cdiv_nonneg {a : ℤ} (h : 0 ≤ a) (b : ℕ) : 0 ≤ cdiv a b := by
  rcases Nat.eq_zero_or_pos b with rfl | hb
  · simp [cdiv]
  have : -a / (b : ℤ) ≤ 0 := Int.ediv_le_of_le_mul (by omega) (by omega)
  unfold cdiv
  omega

lemma cdiv_le_iff {a c : ℤ} {b : ℕ} (hb : 0 < b) : cdiv a b ≤ c ↔ a ≤ c * b := by
  have hb' : (0 : ℤ) < b := by exact_mod_cast hb
  unfold cdiv
  rw [neg_le, Int.le_ediv_iff_mul_le hb', neg_mul, neg_le_neg_iff]

lemma cdiv_mono {a a' : ℤ} {b : ℕ} (hb : 0 < b) (h : a ≤ a') : cdiv a b ≤ cdiv a' b := by
  rw [cdiv_le_iff hb]
  exact h.trans ((cdiv_le_iff hb).mp le_rfl)

lemma le_cdiv_of_mul_le {a c : ℤ} {b : ℕ} (hb : 0 < b) (h : c * b ≤ a) : c ≤ cdiv a b := by
  by_contra hlt
  have h1 := (cdiv_le_iff hb).mp (le_refl (cdiv a b))
  have hb' : (0 : ℤ) < b := by exact_mod_cast hb
  have h2 : cdiv a b + 1 ≤ c := by omega
  have h3 : (cdiv a b + 1) * b ≤ c * b := Int.mul_le_mul_of_nonneg_right h2 hb'.le
  rw [add_mul] at h3
  omega

lemma lt_of_getElem? {α : Type*} {l : List α} {i : ℕ} {x : α} (h : l[i]? = some x) : i < l.length :=
  (List.getElem?_eq_some_iff.mp h).1

lemma bind_eq_ok {x : Py α} {f : α → Py β} {b : β} :
    (x >>= f) = .ok b ↔ ∃ a, x = .ok a ∧ f a = .ok b := by
  cases x with
  | error e => simp [bind, Except.bind]
  | ok a => simp [bind, Except.bind]

lemma of_bind {x : Py α} {f : α → Py β} {b : β} (h : (x >>= f) = .ok b) :
    ∃ a, x = .ok a ∧ f a = .ok b :=
  bind_eq_ok.mp h

lemma pyAssert_of {cond : Bool} (h : cond = true) (msg : String) : pyAssert cond msg = .ok () := by
  rw [h]
  rfl

lemma ok_bind (a : α) (f : α → Py β) : ((Except.ok a : Py α) >>= f) = f a := rfl

lemma mapM_of_ok {f : α → Py β} {g : α → β} {l : List α} (h : ∀ x ∈ l, f x = .ok (g x)) :
    l.mapM f = .ok (l.map g) := by
  induction l with
  | nil => rfl
  | cons x l ih =>
    rw [forall_mem_cons] at h
    rw [mapM_cons, h.1, ih h.2]
    rfl

lemma mapM_eq_ok (h : xs.mapM g = .ok ys) : Forall₂ (fun x y => g x = .ok y) xs ys := by
  induction xs generalizing ys with
  | nil =>
    cases h
    exact .nil
  | cons x xs ih =>
    rw [mapM_cons] at h
    obtain ⟨y, hy, h⟩ := of_bind h
    obtain ⟨ys', hys, ⟨⟩⟩ := of_bind h
    exact .cons hy (ih hys)

lemma getElem?_of_mapM (h : xs.mapM g = .ok ys)
    {i : ℕ} {y : β} (hy : ys[i]? = some y) : ∃ x, xs[i]? = some x ∧ g x = .ok y := by
  have hall := mapM_eq_ok h
  clear h
  induction hall generalizing i with
  | nil => simp at hy
  | cons hx _ ih =>
    cases i with
    | zero =>
      cases hy
      exact ⟨_, rfl, hx⟩
    | succ i => exact ih hy

lemma ok_of_mapM (h : xs.mapM g = .ok ys) {x : α} (hx : x ∈ xs) : ∃ y, g x = .ok y := by
  have hall := mapM_eq_ok h
  clear h
  induction hall with
  | nil => cases hx
  | cons hy _ ih =>
    rcases mem_cons.mp hx with rfl | hx
    · exact ⟨_, hy⟩
    · exact ih hx

lemma eq_map_of_mapM {k : α → β} (hk : ∀ x y, g x = .ok y → y = k x) (h : xs.mapM g = .ok ys) :
    ys = xs.map k := by
  have hall := mapM_eq_ok h
  clear h
  induction hall with
  | nil => rfl
  | cons hx _ ih => rw [map_cons, hk _ _ hx, ih]

lemma pyAssert_eq_ok {cond : Bool} {msg : String} {u : Unit} :
    pyAssert cond msg = .ok u ↔ cond = true := by
  cases cond <;> simp [pyAssert]

lemma of_pyAssert {p : Prop} [Decidable p] {msg : String} {u : Unit} (h : pyAssert p msg = .ok u) :
    p :=
  of_decide_eq_true (pyAssert_eq_ok.mp h)

lemma pyAssert_pos {p : Prop} [Decidable p] (h : p) (msg : String) : pyAssert p msg = .ok () :=
  pyAssert_of (decide_eq_true h) msg

end Vllm
