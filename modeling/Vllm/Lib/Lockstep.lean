import Vllm.Lib.Run

/-! # Two computations in lockstep -/

/-- Both return related results or both raise the same error. -/
def Lockstep {ε α β : Type*} (R : α → β → Prop) : Except ε α → Except ε β → Prop
  | .ok a, .ok b => R a b
  | .error e, .error e' => e = e'
  | _, _ => False

namespace Lockstep

variable {ε : Type*} {α β γ δ : Type} {R : α → β → Prop} {x : Except ε α} {y : Except ε β}

lemma of_ok_left {a : α} (h : Lockstep R x y) (hx : x = .ok a) : ∃ b, y = .ok b ∧ R a b := by
  subst hx
  cases y with
  | ok b => exact ⟨b, rfl, h⟩
  | error e => exact h.elim

lemma of_ok_right {b : β} (h : Lockstep R x y) (hy : y = .ok b) : ∃ a, x = .ok a ∧ R a b := by
  subst hy
  cases x with
  | ok a => exact ⟨a, rfl, h⟩
  | error e => exact h.elim

lemma bind {Q : γ → δ → Prop} {f : α → Except ε γ} {g : β → Except ε δ} (h : Lockstep R x y)
    (hfg : ∀ a b, R a b → Lockstep Q (f a) (g b)) : Lockstep Q (x >>= f) (y >>= g) := by
  cases x with
  | error e =>
    cases y with
    | error e' => exact h
    | ok b => exact h.elim
  | ok a =>
    cases y with
    | error e' => exact h.elim
    | ok b => exact hfg a b h

lemma mono {Q : α → β → Prop} (h : Lockstep R x y) (hRQ : ∀ a b, y = .ok b → R a b → Q a b) :
    Lockstep Q x y := by
  cases x with
  | error e =>
    cases y with
    | error e' => exact h
    | ok b => exact h.elim
  | ok a =>
    cases y with
    | error e' => exact h.elim
    | ok b => exact hRQ a b rfl h

/-- Two loops whose steps are in lockstep as long as the second takes steps at which `ok` holds. -/
lemma foldlM {ι : Type*} {f : α → ι → Except ε α} {g : β → ι → Except ε β} {ok : β → ι → Prop}
    {a : α} {b : β} {ls : List ι} (hstep : ∀ a b l, R a b → ok b l → Lockstep R (f a l) (g b l))
    (hok : Machine.Along g ok b ls) (h : R a b) : Lockstep R (ls.foldlM f a) (ls.foldlM g b) := by
  induction ls generalizing a b with
  | nil => exact h
  | cons l ls ih =>
    rw [List.foldlM_cons, List.foldlM_cons]
    have hl :=
      (hstep a b l h hok.1).mono (Q := fun a b' => R a b' ∧ g b l = .ok b') fun _ _ hb hR =>
        ⟨hR, hb⟩
    exact hl.bind fun a' b' hb => ih (hok.2 b' hb.2) hb.1

lemma same (x : Except ε α) : Lockstep Eq x x := by cases x <;> rfl

end Lockstep
