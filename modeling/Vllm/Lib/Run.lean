import Mathlib.Tactic.Common

/-! # Runs of a state machine -/

namespace Machine

open List

variable {σ ι ε : Type*} {ls : List ι} {s t : σ} {P : List ι → σ → Prop}

/-- The labels `ls` lead from `s` to `t` by steps at which `ok` holds. -/
inductive Run (step : σ → ι → Except ε σ) (ok : σ → ι → Prop) : σ → List ι → σ → Prop
  | nil (s : σ) : Run step ok s [] s
  | cons {s t u : σ} {l : ι} {ls : List ι} (hok : ok s l) (hstep : step s l = .ok t)
      (rest : Run step ok t ls u) : Run step ok s (l :: ls) u

variable {step : σ → ι → Except ε σ} {ok : σ → ι → Prop}

lemma Run.invariant {P : σ → Prop} (hstep : ∀ s l t, P s → ok s l → step s l = .ok t → P t)
    (h : Run step ok s ls t) (hs : P s) : P t := by
  induction h with
  | nil s => exact hs
  | cons hok he _ ih => exact ih (hstep _ _ _ hs hok he)

lemma Run.mono {ok' : σ → ι → Prop} (hok : ∀ s l, ok s l → ok' s l) (h : Run step ok s ls t) :
    Run step ok' s ls t := by
  induction h with
  | nil s => exact .nil s
  | cons hs he _ ih => exact .cons (hok _ _ hs) he ih

lemma Run.append {s t u : σ} {ls ls' : List ι} (h : Run step ok s ls t) (h' : Run step ok t ls' u) :
    Run step ok s (ls ++ ls') u := by
  induction h with
  | nil s => exact h'
  | cons hs he _ ih => exact .cons hs he (ih h')

lemma Run.labelled (h : Run step ok s ls t) : Run step (fun s l => ok s l ∧ l ∈ ls) s ls t := by
  suffices hall : ∀ all, (∀ l ∈ ls, l ∈ all) → Run step (fun s l => ok s l ∧ l ∈ all) s ls t from
    hall ls fun _ hl => hl
  intro all hsub
  induction h with
  | nil s => exact .nil s
  | cons hok he _ ih =>
    exact .cons ⟨hok, hsub _ mem_cons_self⟩ he (ih (forall_mem_cons.mp hsub).2)

/-- Every step of a loop over `ls` from `s` is taken at a state and a label that satisfy `ok`. -/
def Along (step : σ → ι → Except ε σ) (ok : σ → ι → Prop) : σ → List ι → Prop
  | _, [] => True
  | s, l :: ls => ok s l ∧ ∀ t, step s l = .ok t → Along step ok t ls

lemma Run.along (h : Run step ok s ls t) : Along step ok s ls := by
  induction h with
  | nil => trivial
  | cons hok he _ ih =>
    refine ⟨hok, fun t ht => ?_⟩
    rw [he] at ht
    cases ht
    exact ih

/-- A loop whose steps satisfy `ok`. The invariant may speak about the labels to come. -/
lemma Along.invariant (hstep : ∀ s l ls t, P (l :: ls) s → ok s l → step s l = .ok t → P ls t)
    (hok : Along step ok s ls) (h : ls.foldlM step s = .ok t) (hs : P ls s) : P [] t := by
  induction ls generalizing s with
  | nil =>
    cases h
    exact hs
  | cons l ls ih =>
    rw [foldlM_cons] at h
    cases hu : step s l with
    | error e =>
      rw [hu] at h
      cases h
    | ok u =>
      rw [hu] at h
      exact ih (hok.2 u hu) h (hstep _ _ _ _ hs hok.1 hu)

lemma Along.exists_ok (hstep : ∀ s l ls, P (l :: ls) s → ok s l → ∃ t, step s l = .ok t ∧ P ls t)
    {s : σ} (hok : Along step ok s ls) (hs : P ls s) : ∃ t, ls.foldlM step s = .ok t := by
  induction ls generalizing s with
  | nil => exact ⟨s, rfl⟩
  | cons l ls ih =>
    obtain ⟨t, ht, hp⟩ := hstep s l ls hs hok.1
    obtain ⟨u, hu⟩ := ih (hok.2 t ht) hp
    refine ⟨u, ?_⟩
    rw [foldlM_cons, ht]
    exact hu

lemma Along.exists_invariant {P : σ → Prop}
    (hstep : ∀ s l, P s → ok s l → ∃ t, step s l = .ok t ∧ P t) {s : σ}
    (hok : Along step ok s ls) (hs : P s) : ∃ t, ls.foldlM step s = .ok t ∧ P t := by
  obtain ⟨t, ht⟩ := hok.exists_ok (fun s l _ hp hl => hstep s l hp hl) hs
  refine ⟨t, ht, ?_⟩
  refine hok.invariant (P := fun _ => P) (fun s l _ u hp hl hu => ?_) ht hs
  obtain ⟨u', hu', hpu⟩ := hstep s l hp hl
  rw [hu] at hu'
  cases hu'
  exact hpu

lemma along_of_forall (h : ∀ l ∈ ls, ∀ s, ok s l) (s : σ) : Along step ok s ls := by
  induction ls generalizing s with
  | nil => trivial
  | cons l ls ih =>
    exact ⟨h l mem_cons_self s, fun t _ => ih (forall_mem_cons.mp h).2 t⟩

lemma foldlM_invariant (hstep : ∀ s l ls t, P (l :: ls) s → step s l = .ok t → P ls t)
    (h : ls.foldlM step s = .ok t) (hs : P ls s) : P [] t := by
  have hok : Along step (fun _ _ => True) s ls := along_of_forall (fun _ _ _ => trivial) s
  exact hok.invariant (fun s l ls t hp _ he => hstep s l ls t hp he) h hs

end Machine
