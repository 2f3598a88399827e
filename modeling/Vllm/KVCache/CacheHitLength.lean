import Vllm.KVCache.CacheHitGroups
import Vllm.KVCache.CacheHitValid

/-!
# The length of a hybrid cache hit

No visit raises the current length, and only the first full-attention group outlives a round.
-/

namespace Vllm.CacheHit

open List

variable {p : BlockPool} {hashes : BlockHashList} {gids : List ℕ} {rows : List Row}
variable {out : ℕ × HitState} {spec : KVCacheSpec} {maxLength align : ℕ} {rounds : ℕ}

lemma findLongestCacheHit_le {drop : Bool}
    (h : findLongestCacheHit p hashes gids spec 1 maxLength drop align = .ok rows) :
    rows.length * spec.blockSize ≤ maxLength := by
  have hlen := (hitRows_findLongestCacheHit h).length_le
  rw [mul_one] at hlen
  exact (Nat.mul_le_mul_right _ hlen).trans (Nat.div_mul_le_self _ _)

lemma findLongestCacheHit_aligned
    (h : findLongestCacheHit p hashes gids spec 1 maxLength false align = .ok rows) :
    align ∣ rows.length * spec.blockSize := by
  unfold findLongestCacheHit at h
  split at h
  · cases h
    rw [mul_one]
    exact length_popUnaligned _ _ _ ▸ dvd_alignDown _ _ _
  · exact (findSlidingWindow_greatest h).1.2.1
  · obtain ⟨_, -, h⟩ := of_bind h
    obtain ⟨_, -, h⟩ := of_bind h
    obtain ⟨_, halign, -⟩ := of_bind h
    obtain rfl := of_pyAssert halign
    exact dvd_mul_left _ _
  · exact (mambaLoop_greatest h).1.2.1
  · cases h

variable {c : HybridCoordinator} {blockHashes : List Bytes} {maxHit : ℕ} {st st' : HitState}
  {g : SpecGroup} {idx : ℕ}

/-- The block sizes divide the alignment, as the constructor ensures. -/
structure HybridCoordinator.WellFormed (c : HybridCoordinator) : Prop where
  size_pos : ∀ g ∈ c.attentionGroups, 0 < g.spec.blockSize
  size_dvd : ∀ g ∈ c.attentionGroups, g.spec.blockSize ∣ c.schedulerBlockSize
  align_pos : 0 < c.schedulerBlockSize
  nonempty : c.attentionGroups ≠ []
  fullFirst : c.attentionGroups.Pairwise fun g g' => g'.spec.isFull = true → g.spec.isFull = true

variable (c maxHit) in
def AlignedOrFresh (st : HitState) : Prop :=
  (st.currHitLength = maxHit ∧ ∀ idx, st.hitRows idx = none) ∨
    c.schedulerBlockSize ∣ st.currHitLength

variable (hc : c.WellFormed)
include hc

lemma div_mul_eq_of_aligned (hg : g ∈ c.attentionGroups)
    (hst : AlignedOrFresh c maxHit st) (hsome : (st.hitRows idx).isSome = true) :
    st.currHitLength / g.spec.blockSize * g.spec.blockSize = st.currHitLength := by
  rcases hst with ⟨-, hnone⟩ | hdvd
  · rw [hnone idx] at hsome
    cases hsome
  · exact Nat.div_mul_cancel ((hc.size_dvd g hg).trans hdvd)

section

variable (heagle : g.useEagle = false)
include heagle

lemma visitGroup_aligned (hg : c.attentionGroups[idx]? = some g)
    (hst : AlignedOrFresh c maxHit st) (h : visitGroup p c blockHashes maxHit st g idx = .ok st') :
    c.schedulerBlockSize ∣ st'.currHitLength := by
  obtain ⟨-, hsome, rfl⟩ | ⟨drop, maxLength, hashes, rows, -, hdrop, -, -, hfind, rfl⟩ :=
    visitGroup_cases h
  · have heq := div_mul_eq_of_aligned hc (mem_of_getElem? hg) hst hsome
    rcases hst with ⟨-, hnone⟩ | hdvd
    · rw [hnone idx] at hsome
      cases hsome
    · exact heq.symm ▸ hdvd
  · obtain rfl : drop = false := by simpa [heagle] using hdrop
    exact findLongestCacheHit_aligned hfind

omit hc in
lemma visitGroup_le (h : visitGroup p c blockHashes maxHit st g idx = .ok st') :
    st'.currHitLength ≤ st.currHitLength := by
  obtain ⟨-, -, rfl⟩ | ⟨drop, maxLength, hashes, rows, -, hdrop, hmax, -, hfind, rfl⟩ :=
    visitGroup_cases h
  · exact Nat.div_mul_le_self _ _
  · obtain rfl : drop = false := by simpa [heagle] using hdrop
    exact (findLongestCacheHit_le hfind).trans_eq hmax

end

omit hc

lemma hitRows_visitGroup (h : visitGroup p c blockHashes maxHit st g idx = .ok st') :
    (∃ rows, st'.hitRows idx = some rows ∧
      (g.spec.isFull = false ∨ st.hitRows idx = none →
        st'.currHitLength = rows.length * g.spec.blockSize)) ∧
    (∀ j ≠ idx, st'.hitRows j = st.hitRows j) := by
  obtain ⟨hfull, hsome, rfl⟩ | ⟨drop, maxLength, hashes, rows, -, -, -, -, -, rfl⟩ :=
    visitGroup_cases h
  · obtain ⟨rows, hrows⟩ := Option.isSome_iff_exists.mp hsome
    refine ⟨⟨rows, hrows, ?_⟩, fun _ _ => rfl⟩
    rintro (hnot | hnone)
    · rw [hfull] at hnot
      cases hnot
    · rw [hrows] at hnone
      cases hnone
  · exact ⟨⟨rows, Function.update_self _ _ _, fun _ => rfl⟩,
      fun j hj => Function.update_of_ne hj _ _⟩

variable (c maxHit) in
/-- The invariant of the rounds for the length of the hit. -/
structure LengthInv (st : HitState) : Prop where
  aligned : AlignedOrFresh c maxHit st
  full : ∀ {idx g rows}, c.attentionGroups[idx]? = some g → g.spec.isFull = true →
    st.hitRows idx = some rows → st.currHitLength ≤ rows.length * g.spec.blockSize

include hc

lemma LengthInv.visitGroup (heagle : g.useEagle = false)
    (hg : c.attentionGroups[idx]? = some g) (hst : LengthInv c maxHit st)
    (h : visitGroup p c blockHashes maxHit st g idx = .ok st') : LengthInv c maxHit st' where
  aligned := Or.inr (visitGroup_aligned hc heagle hg hst.aligned h)
  full {j g' rows'} hg' hfull hrows' := by
    have hle := visitGroup_le heagle h
    obtain ⟨⟨rows, hrows, hlen⟩, hoth⟩ := hitRows_visitGroup h
    rcases eq_or_ne j idx with rfl | hj
    · obtain rfl : g = g' := Option.some.inj (hg.symm.trans hg')
      obtain rfl : rows = rows' := Option.some.inj (hrows.symm.trans hrows')
      cases hbef : st.hitRows j with
      | none => exact (hlen (Or.inr hbef)).le
      | some rows0 =>
        -- Full attention is not looked up again.
        have hkeep : st'.hitRows j = st.hitRows j := by
          obtain ⟨-, -, rfl⟩ | ⟨_, _, _, _, hnot, -⟩ := visitGroup_cases h
          · rfl
          · exact absurd ⟨hfull, by simp [hbef]⟩ hnot
        exact hle.trans (hst.full hg hfull (hkeep.symm.trans hrows))
    · rw [hoth j hj] at hrows'
      exact hle.trans (hst.full hg' hfull hrows')

omit hc

lemma exists_groups_of_simple (h : isSimpleHybrid c = true) :
    ∃ g0 g1, c.attentionGroups = [g0, g1] ∧
    c.attentionGroups[0]? = some g0 ∧ c.attentionGroups[1]? = some g1 ∧ g0.spec.isFull = true := by
  obtain ⟨hlen, hhead⟩ := of_decide_eq_true h
  obtain ⟨g0, g1, hgs⟩ := length_eq_two.mp hlen
  rw [hgs] at hhead ⊢
  exact ⟨g0, g1, rfl, rfl, rfl, by simpa using hhead⟩

/-! ## The result -/

lemma wellFormed_init {groups : List KVCacheGroupSpec} {eagle : Bool} {cp sbs hbs : ℕ}
    (hpos : ∀ g ∈ groups, 0 < g.kvCacheSpec.blockSize) (hsbs : 0 < sbs)
    (h : HybridCoordinator.init groups eagle cp sbs hbs = .ok c) : c.WellFormed := by
  have hspec : ∀ g ∈ c.attentionGroups, g.groupIds ≠ [] → ∃ x ∈ groups, x.kvCacheSpec = g.spec := by
    intro g hg hne
    obtain ⟨i, hi⟩ := exists_mem_of_ne_nil _ hne
    obtain ⟨x, hx, hspec⟩ := (inSpecGroup_hybridInit h).mp ⟨g, hg, rfl, hi⟩
    exact ⟨x, mem_of_getElem? hx, hspec⟩
  have hids := groupIds_ne_nil h
  obtain ⟨hdvd, -, hc⟩ := hybridInit_eq_ok h
  refine ⟨fun g hg => ?_, fun g hg => ?_, ?_, attentionGroups_ne_nil h, ?_⟩
  · obtain ⟨x, hx, hspec⟩ := hspec g hg (hids g hg)
    exact hspec ▸ hpos x hx
  · obtain ⟨x, hx, hspec⟩ := hspec g hg (hids g hg)
    rw [← hspec, hc]
    exact hdvd x hx
  · rw [hc]
    exact hsbs
  rw [hc]
  refine pairwise_append.mpr ⟨?_, ?_, fun g hg _ _ _ => (mem_filter.mp hg).2⟩
  · refine pairwise_of_forall_mem_list fun g hg _ _ _ => (mem_filter.mp hg).2
  refine pairwise_of_forall_mem_list fun _ _ g hg hfull => ?_
  have := (mem_filter.mp hg).2
  simp [hfull] at this

include hc

lemma round_aligned (hno : ∀ g ∈ c.attentionGroups, g.useEagle = false)
    (hst : AlignedOrFresh c maxHit st)
    (h : visitGroups p c blockHashes maxHit c.attentionGroups 0 st = .ok st') :
    c.schedulerBlockSize ∣ st'.currHitLength := by
  obtain ⟨g, gs, hgs⟩ := exists_cons_of_ne_nil hc.nonempty
  rw [hgs] at h
  obtain ⟨st1, hvisit, h⟩ := of_bind h
  have hg : c.attentionGroups[0]? = some g := by rw [hgs]; rfl
  have hfst := visitGroup_aligned hc (hno g (mem_of_getElem? hg)) hg hst hvisit
  refine visitGroups_invariant (P := fun st => c.schedulerBlockSize ∣ st.currHitLength)
    (fun hst hg hv => visitGroup_aligned hc (hno _ (mem_of_getElem? hg)) hg (Or.inr hst) hv) ?_ hfst
      h
  rw [hgs]
  rfl

omit hc

/-- A pool that has cached a block under each of the keys. -/
def poolWith (keys : List Bytes) : BlockPool :=
  { BlockPool.init 8 true 1 false false with
    cachedBlockHashToBlock := fun key => if key ∈ keys then [1] else [] }

def windowGroups :
    List KVCacheGroupSpec := [⟨⟨.full, 1, 0⟩, false⟩, ⟨⟨.slidingWindow 2, 1, 0⟩, false⟩]

def windowCoordinator : HybridCoordinator :=
  ⟨2, 1, 1, [⟨⟨.full, 1, 0⟩, [0], false⟩, ⟨⟨.slidingWindow 2, 1, 0⟩, [1], false⟩]⟩

lemma init_windowGroups :
    HybridCoordinator.init windowGroups false 1 1 1 = .ok windowCoordinator := rfl

def windowPool : BlockPool := poolWith [[5, 0, 0, 0, 0], [6, 0, 0, 0, 0], [5, 0, 0, 0, 1]]

end Vllm.CacheHit
