import Vllm.Worker.RunnerSteps

/-!
# Replaying the updates of a step

A consumer of updates keeps a table, from which additions and moves lead to the values of the rows
(`Tracks`).
-/

namespace Vllm.Worker

open Compaction InputBatch List Function Finset MinPLogitsProcessor OrderedDict

variable {ε γ β τ : Type}

section replay

variable (d : β) (g : SamplingParams → Option (List ℤ) → List ℤ → β) {table : ℕ → β} {rows : List ℕ}

def applyAdded (table : ℕ → β) (a : AddedRequest) : ℕ → β :=
  Function.update table a.index (g a.params a.promptTokIds a.outputTokIds)

def applyMove (table : ℕ → β) (mv : MovedRequest) : ℕ → β :=
  match mv.direct with
  | .unidirectional => slide (fun _ x => x) (fun _ => d) table (mv.i1, mv.i2)
  | .swap => exchange table mv.i1 mv.i2

def clear (rows : List ℕ) (table : ℕ → β) : ℕ → β := fun i => if i ∈ rows then d else table i

/-- What the recorded changes make of a table. -/
def pending (builder : BatchUpdateBuilder) (table : ℕ → β) : ℕ → β :=
  builder.moved.foldl (applyMove d) (builder.added.foldl (applyAdded g) table)

/-- A processor's table after the additions, removals and moves of an update. -/
def replay (update : BatchUpdate) (table : ℕ → β) : ℕ → β :=
  update.moved.foldl (applyMove d)
    (clear d update.removed (update.added.foldl (applyAdded g) table))

variable {d g} {mv : MovedRequest}

lemma applyMove_of_ne {i : ℕ} (h1 : i ≠ mv.i1) (h2 : i ≠ mv.i2) :
    applyMove d table mv i = table i := by
  rcases mv with ⟨i1, i2, _ | _⟩
  · exact (update_of_ne h1 _ _).trans (update_of_ne h2 _ _)
  · exact exchange_of_ne h1 h2

lemma applyMove_clear (h1 : mv.i1 ∉ rows) (h2 : mv.i2 ∉ rows) :
    applyMove d (clear d rows table) mv = clear d rows (applyMove d table mv) := by
  have hi1 : clear d rows table mv.i1 = table mv.i1 := if_neg h1
  have hi2 : clear d rows table mv.i2 = table mv.i2 := if_neg h2
  funext i
  by_cases hi : i ∈ rows
  · rw [applyMove_of_ne (ne_of_mem_of_not_mem hi h1) (ne_of_mem_of_not_mem hi h2), clear, clear,
      if_pos hi, if_pos hi]
  have hclear : clear d rows (applyMove d table mv) i = applyMove d table mv i := if_neg hi
  have htab : clear d rows table i = table i := if_neg hi
  rw [hclear]
  rcases mv with ⟨i1, i2, _ | _⟩
  · simp only [applyMove, slide, update_apply, hi1, htab]
  · simp only [applyMove, exchange, update_apply, hi1, hi2, htab]

lemma foldl_applyMove_clear {moves : List MovedRequest}
    (h : ∀ mv ∈ moves, mv.i1 ∉ rows ∧ mv.i2 ∉ rows) :
    moves.foldl (applyMove d) (clear d rows table) =
    clear d rows (moves.foldl (applyMove d) table) := by
  induction moves generalizing table with
  | nil => rfl
  | cons mv moves ih =>
    obtain ⟨h1, h2⟩ := h mv mem_cons_self
    rw [foldl_cons, foldl_cons, applyMove_clear h1 h2, ih (forall_mem_cons.mp h).2]

lemma foldl_applyAdded_clear {added : List AddedRequest} (h : ∀ a ∈ added, a.index ∉ rows) :
    added.foldl (applyAdded g) (clear d rows table) =
    clear d rows (added.foldl (applyAdded g) table) := by
  induction added generalizing table with
  | nil => rfl
  | cons a added ih =>
    have hone : applyAdded g (clear d rows table) a = clear d rows (applyAdded g table a) := by
      funext i
      simp only [applyAdded, clear, update_apply]
      split_ifs with hi hmem
      · exact absurd (hi ▸ hmem) (h a mem_cons_self)
      · rfl
      · rfl
      · rfl
    rw [foldl_cons, foldl_cons, hone, ih (forall_mem_cons.mp h).2]

lemma foldl_update_eq_clear (rows : List ℕ) (table : ℕ → β) :
    rows.foldl (fun t i => update t i d) table = clear d rows table := by
  induction rows generalizing table with
  | nil => rfl
  | cons r rows ih =>
    rw [foldl_cons, ih]
    funext i
    simp only [clear, update_apply, List.mem_cons]
    by_cases hi : i = r
    · simp [hi]
    · simp [hi]

lemma replay_eq_clear {update : BatchUpdate}
    (h : ∀ mv ∈ update.moved, mv.i1 ∉ update.removed ∧ mv.i2 ∉ update.removed) :
    replay d g update table =
      clear d update.removed
      (update.moved.foldl (applyMove d) (update.added.foldl (applyAdded g) table)) :=
  foldl_applyMove_clear h

lemma foldl_applyMove_const (moves : List MovedRequest) :
    moves.foldl (applyMove d) (fun _ => d) = fun _ => d := by
  induction moves with
  | nil => rfl
  | cons mv moves ih =>
    have hone : applyMove d (fun _ => d) mv = fun _ => d := by
      funext i
      rcases mv with ⟨i1, i2, _ | _⟩
      · simp [applyMove, slide, update_apply]
      · simp [applyMove, exchange, update_apply]
    rw [foldl_cons, hone, ih]

end replay

/-! ## Consumers -/

/-- A one-way move leads to another row. -/
def MovedRequest.Proper (mv : MovedRequest) : Prop := mv.direct = .unidirectional → mv.i1 ≠ mv.i2

section processDictUpdates

variable {newState : SamplingParams → Option (List ℤ) → List ℤ → Option τ} (s : DictState τ)

lemma get?_addEntry (a : AddedRequest) :
    (addEntry newState s a).1.get? = applyAdded newState s.1.get? a := by
  funext i
  rw [applyAdded, update_apply]
  unfold addEntry
  split
  next state hstate => rw [get?_set, hstate]
  next hstate => rw [popEntry, get?_erase, hstate]

lemma get?_popEntry (i : ℕ) : (popEntry s i).1.get? = update s.1.get? i none := by
  funext j
  rw [popEntry, get?_erase, update_apply]

lemma get?_moveEntry {mv : MovedRequest} (hproper : mv.Proper) :
    (moveEntry s mv).1.get? = applyMove none s.1.get? mv := by
  funext i
  unfold moveEntry applyMove
  dsimp only
  rw [get?_erase]
  cases hd : mv.direct with
  | unidirectional =>
    have hne := hproper hd
    rw [if_neg hne.symm]
    dsimp only
    rw [slide, update_apply]
    cases ha : s.1.get? mv.i1 <;> cases hb : s.1.get? mv.i2 <;> dsimp only <;>
      simp only [get?_set, get?_erase] <;> split_ifs <;> simp_all
  | swap =>
    dsimp only
    rw [exchange, update_apply, update_apply]
    rcases eq_or_ne mv.i2 mv.i1 with heq | hne
    · rw [if_pos heq, heq]
      cases ha : s.1.get? mv.i1 with
      | none => simp only [get?_erase]
      | some e =>
        simp only [get?_set, get?_erase]
        split_ifs <;> simp_all
    rw [if_neg hne]
    cases ha : s.1.get? mv.i1 <;> cases hb : s.1.get? mv.i2 <;> dsimp only <;>
      simp only [get?_set, get?_erase] <;> split_ifs <;> simp_all

lemma get?_foldl {ι : Type} {f : DictState τ → ι → DictState τ}
    {F : (ℕ → Option τ) → ι → ℕ → Option τ} {l : List ι}
    (h : ∀ x ∈ l, ∀ s, (f s x).1.get? = F s.1.get? x) (s : DictState τ) :
    (l.foldl f s).1.get? = l.foldl F s.1.get? := by
  induction l generalizing s with
  | nil => rfl
  | cons x l ih =>
    rw [foldl_cons, foldl_cons, ih (forall_mem_cons.mp h).2, h x mem_cons_self]

lemma get?_processDictUpdates {entries : OrderedDict ℕ τ} {update : BatchUpdate}
    (hproper : ∀ mv ∈ update.moved, mv.Proper) :
    (processDictUpdates newState entries (some update)).1.get? =
    replay none newState update entries.get? := by
  have hadded : (update.added.foldl (addEntry newState) (entries, false)).1.get? =
      update.added.foldl (applyAdded newState) entries.get? :=
        get?_foldl (fun a _ s => get?_addEntry s a) _
  rw [processDictUpdates, replay]
  split_ifs with hemp
  · -- without entries there is nothing to remove or to move
    have hnone : (update.added.foldl (addEntry newState) (entries, false)).1.get? = fun _ =>
      none := by
      funext i
      rw [get?_eq_none_iff, OrderedDict.keys, eq_nil_of_length_eq_zero hemp]
      simp
    have hclear : clear none update.removed (fun _ : ℕ => (none : Option τ)) = fun _ => none := by
      funext i
      exact ite_self _
    rw [← hadded, hnone, hclear, foldl_applyMove_const]
  rw [get?_foldl (fun mv hmv s => get?_moveEntry s (hproper mv hmv)),
    get?_foldl (F := fun t i => Function.update t i none) (fun i _ s => get?_popEntry s i),
    foldl_update_eq_clear, hadded]

end processDictUpdates

section minP

def nonzeroRows (n : ℕ) (table : ℕ → ℚ) : ℤ := ((Finset.range n).filter fun i => table i ≠ 0).card

lemma nonzeroRows_update {n i : ℕ} (hi : i < n) (table : ℕ → ℚ) (v : ℚ) :
    nonzeroRows n (update table i v) =
      nonzeroRows n table - (if table i = 0 then 0 else 1) + (if v = 0 then 0 else 1) := by
  have hsplit : ∀ f : ℕ → ℚ, nonzeroRows n f =
      (((Finset.range n).erase i).filter fun j => f j ≠ 0).card + (if f i = 0 then 0 else 1) := by
    intro f
    have hmem : i ∈ Finset.range n := Finset.mem_range.mpr hi
    conv_lhs => rw [nonzeroRows, ← insert_erase hmem, filter_insert]
    by_cases h0 : f i = 0
    · rw [if_neg (not_not.mpr h0), if_pos h0, add_zero]
    rw [if_pos h0, if_neg h0, card_insert_of_notMem (by simp)]
    push_cast
    rfl
  have hsame : (((Finset.range n).erase i).filter fun j => update table i v j ≠ 0) =
      ((Finset.range n).erase i).filter fun j => table j ≠ 0 := by
    refine filter_congr fun j hj => ?_
    rw [update_of_ne (mem_erase.mp hj).1]
  rw [hsplit, hsplit table, hsame, update_self]
  ring

/-- The count is the number of rows with a min-p, and these are rows of the batch. -/
structure Counted (n : ℕ) (numpy : NumpyFloat32) (m : MinPLogitsProcessor) : Prop where
  numpy : m.numpy = numpy
  count : m.minPCount = nonzeroRows n m.minPCpu
  bound : ∀ i, n ≤ i → m.minPCpu i = 0

variable {n : ℕ} {np : NumpyFloat32} {m : MinPLogitsProcessor}

lemma Counted.eq_zero (h : Counted n np m) (hcnt : m.minPCount = 0) : m.minPCpu = fun _ => 0 := by
  funext i
  by_contra hne
  have hlt : i < n := by
    by_contra hge
    exact hne (h.bound i (by omega))
  have hmem : i ∈ (Finset.range n).filter fun i => m.minPCpu i ≠ 0 :=
    mem_filter.mpr ⟨Finset.mem_range.mpr hlt, hne⟩
  have hzero := h.count
  rw [hcnt, nonzeroRows] at hzero
  have hemp : ((Finset.range n).filter fun i => m.minPCpu i ≠ 0) = ∅ := card_eq_zero.mp (by omega)
  rw [hemp] at hmem
  exact absurd hmem (notMem_empty i)

lemma bound_update {table : ℕ → ℚ} {i : ℕ} (h : ∀ j, n ≤ j → table j = 0) (hi : i < n) (v : ℚ) :
    ∀ j, n ≤ j → update table i v j = 0 := by
  intro j hj
  rw [update_of_ne (by omega)]
  exact h j hj

lemma minPCpu_addRow (m : MinPLogitsProcessor) (a : AddedRequest) :
    (m.addRow a).minPCpu = update m.minPCpu a.index (m.numpy.kept a.params.minP) := by
  unfold MinPLogitsProcessor.addRow
  dsimp only
  split_ifs with heq
  · rw [← m.numpy.eq_spec _ _ heq, update_eq_self]
  · rfl
  · rfl
  · rfl

lemma Counted.addRow (h : Counted n np m) {a : AddedRequest} (ha : a.index < n)
    (hkeep : np.kept a.params.minP = 0 → a.params.minP = 0) : Counted n np (m.addRow a) := by
  have hnp := h.numpy
  subst hnp
  have hzero : m.numpy.kept a.params.minP = 0 ↔ a.params.minP = 0 :=
    ⟨hkeep, fun h => by rw [h, m.numpy.kept_zero]⟩
  refine ⟨?_, ?_, by rw [minPCpu_addRow]; exact bound_update h.bound ha _⟩
  · unfold MinPLogitsProcessor.addRow setMinP
    dsimp only
    split_ifs <;> rfl
  rw [minPCpu_addRow, nonzeroRows_update ha, ← h.count]
  simp only [hzero]
  have hsame := m.numpy.eq_spec (m.minPCpu a.index) a.params.minP
  unfold MinPLogitsProcessor.addRow setMinP
  dsimp only
  split_ifs <;> simp_all

lemma minPCpu_removeRow (m : MinPLogitsProcessor) (i : ℕ) :
    (m.removeRow i).minPCpu = update m.minPCpu i 0 := by
  unfold MinPLogitsProcessor.removeRow
  split_ifs with h0
  · rw [← h0, update_eq_self]
  · rfl

lemma Counted.removeRow (h : Counted n np m) (i : ℕ) : Counted n np (m.removeRow i) := by
  by_cases h0 : m.minPCpu i = 0
  · have hsame : m.removeRow i = m := if_pos h0
    rw [hsame]
    exact h
  have hi : i < n := by
    by_contra hge
    exact h0 (h.bound i (by omega))
  refine ⟨?_, ?_, by rw [minPCpu_removeRow]; exact bound_update h.bound hi _⟩
  · rw [← h.numpy, MinPLogitsProcessor.removeRow, if_neg h0]
    rfl
  rw [minPCpu_removeRow, nonzeroRows_update hi, ← h.count, if_neg h0, if_pos rfl]
  unfold MinPLogitsProcessor.removeRow
  rw [if_neg h0]
  simp

lemma minPCpu_moveRow (m : MinPLogitsProcessor) {mv : MovedRequest} (hproper : mv.Proper) :
    (m.moveRow mv).minPCpu = applyMove 0 m.minPCpu mv := by
  rcases mv with ⟨i1, i2, _ | _⟩
  · have hne : i1 ≠ i2 := hproper rfl
    have hset :
      (if m.minPCpu i1 = m.minPCpu i2 then m.minPCpu else update m.minPCpu i2 (m.minPCpu i1)) =
        update m.minPCpu i2 (m.minPCpu i1) := by
      split_ifs with heq
      · rw [heq, update_eq_self]
      · rfl
    simp only [moveRow, applyMove, slide, setMinP, reduceCtorEq, if_false, if_true,
      apply_ite minPCpu, hset, ite_self]
    split_ifs with h0
    · refine (update_eq_self_iff.mpr ?_).symm
      rw [update_of_ne hne, h0]
    · rfl
  simp only [moveRow, applyMove, exchange, setMinP, reduceCtorEq, if_false, if_true,
    apply_ite minPCpu]
  split_ifs with heq
  · rw [← heq, update_eq_self, heq, update_eq_self]
  · have hne : i1 ≠ i2 := fun h => heq (by rw [h])
    exact update_comm hne.symm _ _ _

lemma Counted.moveRow (h : Counted n np m) {mv : MovedRequest} (hproper : mv.Proper)
    (h1 : mv.i1 < n) (h2 : mv.i2 < n) : Counted n np (m.moveRow mv) := by
  have hcpu := minPCpu_moveRow m hproper
  have hnp : (m.moveRow mv).numpy = np := by
    rw [← h.numpy]
    unfold MinPLogitsProcessor.moveRow setMinP
    dsimp only
    split_ifs <;> rfl
  rcases mv with ⟨i1, i2, _ | _⟩
  · have hne : i1 ≠ i2 := hproper rfl
    have htab : (m.moveRow ⟨i1, i2, .unidirectional⟩).minPCpu =
        Function.update (Function.update m.minPCpu i2 (m.minPCpu i1)) i1 0 := hcpu
    refine ⟨hnp, ?_, ?_⟩
    · rw [htab, nonzeroRows_update h1, nonzeroRows_update h2, ← h.count, update_of_ne hne]
      simp only [MinPLogitsProcessor.moveRow, MinPLogitsProcessor.setMinP]
      split_ifs <;> simp_all
    · rw [htab]
      exact bound_update (bound_update h.bound h2 _) h1 _
  have htab : (m.moveRow ⟨i1, i2, .swap⟩).minPCpu =
      Function.update (Function.update m.minPCpu i1 (m.minPCpu i2)) i2 (m.minPCpu i1) := hcpu
  refine ⟨hnp, ?_, ?_⟩
  · rw [htab, nonzeroRows_update h2, nonzeroRows_update h1, ← h.count, update_apply]
    simp only [MinPLogitsProcessor.moveRow, MinPLogitsProcessor.setMinP]
    split_ifs <;> simp_all
  · rw [htab]
    exact bound_update (bound_update h.bound h1 _) h2 _

lemma Counted.foldl {ι : Type} {f : MinPLogitsProcessor → ι → MinPLogitsProcessor}
    {F : (ℕ → ℚ) → ι → ℕ → ℚ} {l : List ι}
    (hcpu : ∀ x ∈ l, ∀ m, m.numpy = np → (f m x).minPCpu = F m.minPCpu x)
    (hcnt : ∀ x ∈ l, ∀ m, Counted n np m → Counted n np (f m x)) (h : Counted n np m) :
    (l.foldl f m).minPCpu = l.foldl F m.minPCpu ∧ Counted n np (l.foldl f m) := by
  induction l generalizing m with
  | nil => exact ⟨rfl, h⟩
  | cons x l ih =>
    rw [foldl_cons, foldl_cons, ← hcpu x mem_cons_self m h.numpy]
    exact ih (forall_mem_cons.mp hcpu).2 (forall_mem_cons.mp hcnt).2
      (hcnt x mem_cons_self m h)

lemma Counted.updateState (h : Counted n np m) {update : BatchUpdate}
    (hadded : ∀ a ∈ update.added, a.index < n ∧ (np.kept a.params.minP = 0 → a.params.minP = 0))
    (hmoved : ∀ mv ∈ update.moved, mv.Proper ∧ mv.i1 < n ∧ mv.i2 < n) :
    (m.updateState (some update)).minPCpu =
        replay 0 (fun p _ _ => np.kept p.minP) update m.minPCpu ∧
      Counted n np (m.updateState (some update)) := by
  obtain ⟨hcpu, hcnt⟩ := Counted.foldl (F := applyAdded fun p _ _ => np.kept p.minP)
    (fun a _ m hm => by rw [minPCpu_addRow, hm]; rfl)
    (fun a ha m hm => hm.addRow (hadded a ha).1 (hadded a ha).2) h
  rw [MinPLogitsProcessor.updateState, replay]
  split_ifs with hzero
  · have hall := hcnt.eq_zero hzero
    refine ⟨?_, hcnt⟩
    have hadd : update.added.foldl (applyAdded fun p _ _ => np.kept p.minP) m.minPCpu = fun _ =>
      0 := by
      rw [← hall, hcpu]
    have hclear : clear 0 update.removed (fun _ : ℕ => (0 : ℚ)) = fun _ => 0 := by
      funext i
      exact ite_self _
    rw [hall, hadd, hclear, foldl_applyMove_const]
  obtain ⟨hcpu', hcnt'⟩ :=
    Counted.foldl (F := fun t i => Function.update t i 0) (fun i (_ : i ∈ update.removed) m _ =>
      minPCpu_removeRow m i)
      (fun i _ m hm => hm.removeRow i) hcnt
  obtain ⟨hcpu'', hcnt''⟩ := Counted.foldl (fun mv hmv m _ => minPCpu_moveRow m (hmoved mv hmv).1)
    (fun mv hmv m hm => hm.moveRow (hmoved mv hmv).1 (hmoved mv hmv).2.1 (hmoved mv hmv).2.2) hcnt'
  refine ⟨?_, hcnt''⟩
  rw [hcpu'', hcpu', foldl_update_eq_clear, hcpu]

end minP

end Vllm.Worker
