import Vllm.KVCache.CacheHitRows

/-! # Spec groups -/

namespace Vllm.CacheHit

open List

variable {groups : List KVCacheGroupSpec} {eagle : Bool} {cp sbs hbs : ℕ} {c : HybridCoordinator}
  {l : List (KVCacheGroupSpec × ℕ)}

def InSpecGroup (gs : List SpecGroup) (spec : KVCacheSpec) (i : ℕ) : Prop :=
  ∃ g ∈ gs, g.spec = spec ∧ i ∈ g.groupIds

variable {gs : List SpecGroup} {spec : KVCacheSpec} {i : ℕ}

lemma inSpecGroup_cons {g : SpecGroup} :
    InSpecGroup (g :: gs) spec i ↔ (g.spec = spec ∧ i ∈ g.groupIds) ∨ InSpecGroup gs spec i := by
  simp [InSpecGroup]

lemma inSpecGroup_addToSpecGroup {spec spec' : KVCacheSpec} {i j : ℕ}
    {useEagle : Bool} : InSpecGroup (addToSpecGroup spec i useEagle gs) spec' j ↔
      (spec = spec' ∧ j = i) ∨ InSpecGroup gs spec' j := by
  induction gs with
  | nil => simp [addToSpecGroup, InSpecGroup]
  | cons g gs ih =>
    unfold addToSpecGroup
    split
    · rename_i hspec
      rw [inSpecGroup_cons, inSpecGroup_cons, ← hspec]
      simp only [mem_append, mem_singleton]
      tauto
    · rw [inSpecGroup_cons, inSpecGroup_cons]
      tauto

variable (flag : ℕ → Bool)

lemma inSpecGroup_foldl :
    InSpecGroup (l.foldl (fun gs g => addToSpecGroup g.1.kvCacheSpec g.2 (flag g.2) gs) gs) spec i ↔
      (∃ x, (x, i) ∈ l ∧ x.kvCacheSpec = spec) ∨ InSpecGroup gs spec i := by
  induction l generalizing gs with
  | nil => simp
  | cons g l ih =>
    rw [foldl_cons, ih, inSpecGroup_addToSpecGroup]
    constructor
    · rintro (⟨x, hx, hspec⟩ | ⟨hspec, rfl⟩ | hgs)
      · exact Or.inl ⟨x, mem_cons_of_mem _ hx, hspec⟩
      · exact Or.inl ⟨g.1, mem_cons_self, hspec⟩
      · exact Or.inr hgs
    rintro (⟨x, hx, hspec⟩ | hgs)
    · rcases mem_cons.mp hx with rfl | hx
      · exact Or.inr (Or.inl ⟨hspec, rfl⟩)
      · exact Or.inl ⟨x, hx, hspec⟩
    · exact Or.inr (Or.inr hgs)

lemma inSpecGroup_specGroups (useEagle : Bool)
    : InSpecGroup (specGroups groups useEagle) spec i ↔ ∃ x, groups[i]? = some x ∧
    x.kvCacheSpec = spec := by
  unfold specGroups
  rw [inSpecGroup_foldl fun i => decide (i ∈ eagleGroupIds groups useEagle)]
  simp [InSpecGroup, mem_zipIdx_iff_getElem?]

variable (h : HybridCoordinator.init groups eagle cp sbs hbs = .ok c)
include h

lemma hybridInit_eq_ok :
    (∀ g ∈ groups, g.kvCacheSpec.blockSize ∣ sbs) ∧ (∀ g ∈ groups, hbs ∣ g.kvCacheSpec.blockSize) ∧
      c = ⟨groups.length, sbs, hbs, (specGroups groups eagle).filter (·.spec.isFull) ++
        (specGroups groups eagle).filter (!·.spec.isFull)⟩ := by
  obtain ⟨_, hsched, h⟩ := of_bind h
  obtain ⟨_, hhash, h⟩ := of_bind h
  obtain ⟨_, -, h⟩ := of_bind h
  obtain ⟨_, -, h⟩ := of_bind h
  have hsched := (of_pyAssert hsched).2
  have hhash := of_pyAssert hhash
  exact ⟨fun g hg => Nat.dvd_of_mod_eq_zero (hsched g hg),
    fun g hg => Nat.dvd_of_mod_eq_zero (hhash g hg), (Except.ok.inj h).symm⟩

lemma mem_attentionGroups {g : SpecGroup} :
    g ∈ c.attentionGroups ↔ g ∈ specGroups groups eagle := by
  obtain ⟨-, -, rfl⟩ := hybridInit_eq_ok h
  rw [mem_append, mem_filter, mem_filter]
  cases g.spec.isFull <;> simp

lemma inSpecGroup_hybridInit
    : InSpecGroup c.attentionGroups spec i ↔ ∃ x, groups[i]? = some x ∧ x.kvCacheSpec = spec := by
  rw [← inSpecGroup_specGroups eagle]
  unfold InSpecGroup
  simp only [mem_attentionGroups h]

omit h

lemma attentionGroups_ne_nil {groups : List KVCacheGroupSpec} {eagle : Bool} {cp sbs hbs : ℕ}
    {c : HybridCoordinator} (h : HybridCoordinator.init groups eagle cp sbs hbs = .ok c) :
    c.attentionGroups ≠ [] := by
  have hmem := @mem_attentionGroups _ _ _ _ _ _ h
  obtain ⟨_, -, h⟩ := of_bind h
  obtain ⟨_, -, h⟩ := of_bind h
  obtain ⟨_, -, h⟩ := of_bind h
  obtain ⟨_, hlen, -⟩ := of_bind h
  have hlen := of_pyAssert hlen
  obtain ⟨g, hg⟩ := exists_mem_of_length_pos (Nat.zero_lt_of_lt hlen)
  exact ne_nil_of_mem (hmem.mpr hg)

lemma groupIds_foldl (hgs : ∀ g ∈ gs, g.groupIds ≠ []) :
    ∀ g ∈ l.foldl (fun gs g => addToSpecGroup g.1.kvCacheSpec g.2 (flag g.2) gs) gs,
    g.groupIds ≠ [] := by
  have hadd : ∀ {gs : List SpecGroup} {spec : KVCacheSpec} {i : ℕ} {e : Bool},
      (∀ g ∈ gs, g.groupIds ≠ []) → ∀ g ∈ addToSpecGroup spec i e gs, g.groupIds ≠ [] := by
    intro gs spec i e hgs
    induction gs with
    | nil => simp [addToSpecGroup]
    | cons g gs ih =>
      rw [forall_mem_cons] at hgs
      unfold addToSpecGroup
      split
      · exact forall_mem_cons.mpr ⟨by simp, hgs.2⟩
      · exact forall_mem_cons.mpr ⟨hgs.1, ih hgs.2⟩
  induction l generalizing gs with
  | nil => exact hgs
  | cons x l ih => exact ih (hadd hgs)

include h in
lemma groupIds_ne_nil : ∀ g ∈ c.attentionGroups, g.groupIds ≠ [] := by
  intro g hg
  have hnil : ∀ g ∈ ([] : List SpecGroup), g.groupIds ≠ [] := fun _ hg => absurd hg not_mem_nil
  exact groupIds_foldl (fun i => decide (i ∈ eagleGroupIds groups eagle)) hnil g
    ((mem_attentionGroups h).mp hg)

lemma useEagle_foldl {flag : ℕ → Bool} (hflag : ∀ i, flag i = false)
    (hgs : ∀ g ∈ gs, g.useEagle = false) :
    ∀ g ∈ l.foldl (fun gs g => addToSpecGroup g.1.kvCacheSpec g.2 (flag g.2) gs) gs,
    g.useEagle = false := by
  have hadd : ∀ {gs : List SpecGroup} {spec : KVCacheSpec} {i : ℕ},
      (∀ g ∈ gs, g.useEagle = false) →
        ∀ g ∈ addToSpecGroup spec i false gs, g.useEagle = false := by
    intro gs spec i hgs
    induction gs with
    | nil => simp [addToSpecGroup]
    | cons g gs ih =>
      rw [forall_mem_cons] at hgs
      unfold addToSpecGroup
      split
      · exact forall_mem_cons.mpr ⟨by simp [hgs.1], hgs.2⟩
      · exact forall_mem_cons.mpr ⟨hgs.1, ih hgs.2⟩
  induction l generalizing gs with
  | nil => exact hgs
  | cons x l ih =>
    refine ih ?_
    simp only [hflag]
    exact hadd hgs

lemma useEagle_eq_false (h : ∀ g ∈ groups, g.isEagleGroup = false)
    {g : SpecGroup} (hg : g ∈ specGroups groups false) : g.useEagle = false := by
  have hflag : ∀ i, decide (i ∈ eagleGroupIds groups false) = false := by
    intro i
    simp only [eagleGroupIds, Bool.false_eq_true, false_and, if_false, decide_eq_false_iff_not,
      mem_filter, not_and]
    intro _ hi
    cases hx : groups[i]? with
    | none => simp [hx] at hi
    | some x =>
      have := h x (mem_of_getElem? hx)
      simp [hx, this] at hi
  exact useEagle_foldl hflag (fun _ hg => absurd hg not_mem_nil) g hg

lemma finalBlocks_cases (c : HybridCoordinator) (hitLength : ℕ) (st : HitState) (gid : ℕ) :
    (finalBlocks c hitLength st gid = [] ∧ ∀ g ∈ c.attentionGroups, gid ∉ g.groupIds) ∨
    ∃ g idx, c.attentionGroups[idx]? = some g ∧ gid ∈ g.groupIds ∧ finalBlocks c hitLength st gid =
        (finalRows hitLength st g idx).map fun row => row.getD (g.groupIds.idxOf gid) 0 := by
  unfold finalBlocks
  split
  · rename_i hfind
    refine Or.inl ⟨rfl, fun g hg hgid => ?_⟩
    obtain ⟨i, hi⟩ := mem_iff_getElem?.mp hg
    have := find?_eq_none.mp hfind (g, i) (mem_zipIdx_iff_getElem?.mpr hi)
    simp [hgid] at this
  · rename_i g idx hfind
    exact Or.inr ⟨g, idx, mem_zipIdx_iff_getElem?.mp (mem_of_find?_eq_some hfind),
      by simpa using find?_some hfind, rfl⟩

end Vllm.CacheHit
