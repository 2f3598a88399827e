import Mathlib.Data.List.Basic

/-! # Chained accumulators -/

namespace Chain

variable {σ α : Type*} {xs ys : List α}

/-- The accumulators of `List.foldl step s`. -/
def chain (step : σ → α → σ) (s : σ) : List α → List σ
  | [] => []
  | x :: xs => step s x :: chain step (step s x) xs

variable (step : σ → α → σ) (s : σ)

@[simp] lemma chain_nil : chain step s [] = [] := rfl

@[simp] lemma chain_cons (x : α) (xs : List α) :
    chain step s (x :: xs) = step s x :: chain step (step s x) xs := rfl

@[simp] lemma length_chain (xs : List α) : (chain step s xs).length = xs.length := by
  induction xs generalizing s with
  | nil => rfl
  | cons x xs ih => simp [ih]

lemma chain_append (xs ys : List α) :
    chain step s (xs ++ ys) = chain step s xs ++ chain step (xs.foldl step s) ys := by
  induction xs generalizing s with
  | nil => rfl
  | cons x xs ih => simp [ih]

lemma getElem?_chain (xs : List α) (i : ℕ) (hi : i < xs.length) :
    (chain step s xs)[i]? = some ((xs.take (i + 1)).foldl step s) := by
  induction xs generalizing s i with
  | nil => simp at hi
  | cons x xs ih =>
    cases i with
    | zero => simp
    | succ i => simpa using ih (step s x) i (by simpa using hi)

lemma getLastD_chain (xs : List α) : (chain step s xs).getLastD s = xs.foldl step s := by
  induction xs generalizing s with
  | nil => rfl
  | cons x xs ih =>
    simp only [chain_cons, List.getLastD_cons, List.foldl_cons]
    exact ih _

/-- Steps from accumulators in `good` stay there, and equal results come from equal accumulators and
elements. -/
structure NoCollision (good : σ → Prop) : Prop where
  step_good : ∀ s x, good s → good (step s x)
  inj : ∀ ⦃s t x y⦄, good s → good t → step s x = step t y → s = t ∧ x = y

variable {step} {good : σ → Prop} (h : NoCollision step good)
include h

lemma NoCollision.foldl_inj {s t : σ} (hs : good s) (ht : good t) (hlen : xs.length = ys.length)
    (e : xs.foldl step s = ys.foldl step t) : s = t ∧ xs = ys := by
  induction xs generalizing s t ys with
  | nil =>
    obtain rfl := List.length_eq_zero_iff.1 hlen.symm
    exact ⟨e, rfl⟩
  | cons x xs ih =>
    cases ys with
    | nil => simp at hlen
    | cons y ys =>
      have e' : xs.foldl step (step s x) = ys.foldl step (step t y) := e
      obtain ⟨hst, rfl⟩ := ih (h.step_good _ _ hs) (h.step_good _ _ ht) (by simpa using hlen) e'
      obtain ⟨rfl, rfl⟩ := h.inj hs ht hst
      exact ⟨rfl, rfl⟩

lemma NoCollision.getElem?_eq_iff {s : σ} (hs : good s)
    {i : ℕ} (hx : i < xs.length) (hy : i < ys.length) :
    (chain step s xs)[i]? = (chain step s ys)[i]? ↔ xs.take (i + 1) = ys.take (i + 1) := by
  rw [getElem?_chain step s xs i hx, getElem?_chain step s ys i hy, Option.some.injEq]
  constructor
  · intro e
    refine (h.foldl_inj hs hs ?_ e).2
    simp only [List.length_take]
    omega
  · intro e
    rw [e]

lemma NoCollision.chain_eq_iff {s : σ} (hs : good s)
    : chain step s xs = chain step s ys ↔ xs = ys := by
  refine ⟨fun e => ?_, fun e => by rw [e]⟩
  have hlen : xs.length = ys.length := by simpa using congrArg List.length e
  refine (h.foldl_inj hs hs hlen ?_).2
  rw [← getLastD_chain, ← getLastD_chain, e]

end Chain
