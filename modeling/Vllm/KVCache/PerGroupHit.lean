import Vllm.KVCache.SlidingWindowHit

/-! # Hits per group -/

namespace Vllm.CacheHit

open List

section

variable (p : BlockPool) (c : HybridCoordinator) (blockHashes : List Bytes) (maxHit : ℕ)
  (g f : SpecGroup)

abbrev getBlockHashes :
    Py BlockHashList := BlockPool.blockHashesAt c.hashBlockSize g.spec.blockSize blockHashes

abbrev findRows (hashes : BlockHashList) : Py (List Row) :=
  findLongestCacheHit p hashes g.groupIds g.spec 1 maxHit g.useEagle c.schedulerBlockSize

def lookupGroup : Py (SpecGroup × List Row) := do
  let rows ← findRows p c maxHit g (← getBlockHashes c blockHashes g)
  .ok (g, rows)

def hitOf (found : List (SpecGroup × List Row)) (gid : ℕ) : List ℕ × ℕ :=
  match found.find? (gid ∈ ·.1.groupIds) with
  | none => ([], 0)
  | some (g, rows) =>
    (rows.map fun row => row.getD (g.groupIds.idxOf gid) 0, rows.length * g.spec.blockSize)

/-- `find_longest_cache_hit_per_group`. -/
def findLongestCacheHitPerGroup : Py (List (List ℕ × ℕ)) := do
  let found ← c.attentionGroups.mapM (lookupGroup p c blockHashes maxHit)
  .ok ((range c.numGroups).map (hitOf found))

def numNewLocalComputedTokens (hits : List (List ℕ × ℕ)) : ℕ := (hits.map (·.2)).max?.getD 0

def groupOf (gid : ℕ) : Option SpecGroup := c.attentionGroups.find? (gid ∈ ·.groupIds)

/-- The blocks of each full-attention group reach as far as tokens count as computed. -/
def FullCovered (hits : List (List ℕ × ℕ)) : Prop :=
  ∀ i < c.numGroups, ∀ f ∈ groupOf c i, f.spec.isFull →
    numNewLocalComputedTokens hits ≤ (hits.getD i ([], 0)).1.length * f.spec.blockSize

/-- A short hit of a sliding window is cut to the alignment once more after the pop. -/
def windowHit (size align need : ℕ) (drop : Bool) (m : ℕ) : ℕ :=
  if drop ∧ size ≠ align ∧ m < need then m - align / size else m

/-- Where a hit may end: full attention needs all blocks before, with EAGLE one more, and Mamba the
last; a sliding window those of the window, and chunked local attention those of the last chunk. -/
def hitEnds (hashes : BlockHashList) : Set ℕ :=
  let n := maxHit / g.spec.blockSize
  match g.spec.attention with
  | .full =>
    alignedBelow g.spec.blockSize c.schedulerBlockSize
      (min n hashes.length - g.useEagle.toNat) fun m =>
      ∀ j < m + g.useEagle.toNat, m ≠ 0 → CachedAt p hashes g.groupIds j
  | .mamba _ _ =>
    alignedBelow g.spec.blockSize c.schedulerBlockSize n (WindowCached p hashes g.groupIds 1)
  | .slidingWindow w =>
    let need := windowBlocks w g.spec.blockSize
    {e | e = 0 ∨
      ∃ m, Admissible p hashes g.groupIds g.spec.blockSize c.schedulerBlockSize n g.useEagle
          need m ∧
        e = windowHit g.spec.blockSize c.schedulerBlockSize need g.useEagle m}
  | .chunkedLocal chunk =>
    let start := maxHit / chunk * chunk / g.spec.blockSize
    {e | start ≤ e ∧ e ≤ n ∧ ∀ j < e, start ≤ j → CachedAt p hashes g.groupIds j}
  | .crossAttention => ∅

/-- The windows have at least two tokens, and their block sizes divide the alignment. -/
def WindowsFit : Prop :=
  ∀ g ∈ c.attentionGroups, ∀ w, g.spec.attention = .slidingWindow w →
    2 ≤ w ∧ 0 < g.spec.blockSize ∧ g.spec.blockSize ∣ c.schedulerBlockSize

def Within : Prop :=
  ∀ hg hf, getBlockHashes c blockHashes g = .ok hg → getBlockHashes c blockHashes f = .ok hf →
    ∀ m ∈ hitEnds p c maxHit g hg, ∃ m' ∈ hitEnds p c maxHit f hf,
      m * g.spec.blockSize ≤ m' * f.spec.blockSize

/-- No hit of another group may end behind all hits of a full-attention group. -/
def FullLongest : Prop :=
  ∀ i < c.numGroups, ∀ f ∈ groupOf c i, f.spec.isFull → ∀ j < c.numGroups, ∀ g ∈ groupOf c j,
    Within p c blockHashes maxHit g f

end

variable {p : BlockPool} {c : HybridCoordinator} {blockHashes : List Bytes} {maxHit i : ℕ}
  {f g : SpecGroup}
  {hits : List (List ℕ × ℕ)} {found : List (SpecGroup × List Row)}

lemma windowHit_mono {size align need m m' : ℕ} {drop : Bool} (h : m ≤ m') :
    windowHit size align need drop m ≤ windowHit size align need drop m' := by
  unfold windowHit
  generalize align / size = r
  split_ifs with hm hm' hm'
  · omega
  · omega
  · exact absurd ⟨hm'.1, hm'.2.1, by omega⟩ hm
  · exact h

lemma windowHit_greatest {size align need n m : ℕ} {drop : Bool} {hashes : BlockHashList}
    {gids : List ℕ} (h : IsGreatest {m | Admissible p hashes gids size align n drop need m} m ∨
      (∀ m, ¬ Admissible p hashes gids size align n drop need m) ∧ m = 0) :
    IsGreatest {e | e = 0 ∨ ∃ m, Admissible p hashes gids size align n drop need m ∧
      e = windowHit size align need drop m} (windowHit size align need drop m) := by
  rcases h with h | ⟨hnone, rfl⟩
  · refine ⟨.inr ⟨m, h.1, rfl⟩, ?_⟩
    rintro _ (rfl | ⟨m', hm', rfl⟩)
    · exact Nat.zero_le _
    · exact windowHit_mono (h.2 hm')
  refine ⟨.inl (by simp [windowHit]), ?_⟩
  rintro _ (rfl | ⟨m', hm', rfl⟩)
  · exact Nat.zero_le _
  · exact absurd hm' (hnone m')

/-- The lookup of a sliding window ends at the longest admissible hit, cut again where it is
short. -/
lemma findSlidingWindow_ends {hashes : BlockHashList} {gids : List ℕ} {rows : List Row}
    {w size maxLength align : ℕ} {drop : Bool} (hw : 2 ≤ w) (hsize : 0 < size) (hdvd : size ∣ align)
    (h : findSlidingWindow p hashes gids w size maxLength drop align = .ok rows) :
    let Ends := Admissible p hashes gids size align (maxLength / size) drop (windowBlocks w size)
    ∃ m, (IsGreatest {m | Ends m} m ∨ (∀ m, ¬ Ends m) ∧ m = 0) ∧
      rows.length = windowHit size align (windowBlocks w size) drop m := by
  have hcdiv : ¬ cdiv ((w : ℤ) - 1) size ≤ 0 := by
    rw [cdiv_le_iff hsize]
    omega
  have hneed : (windowBlocks w size : ℤ) = cdiv ((w : ℤ) - 1) size := by
    unfold windowBlocks
    omega
  have hpos := need_pos hw hsize hneed
  obtain ⟨rows', i, k, hrun, ⟨hend, rfl⟩ | ⟨rfl, hne, rfl, hk, hshort, -, hlen⟩⟩ :=
    findSlidingWindow_cases hw hsize hdvd hneed h
  · refine ⟨_, (hrun.longestHit hpos (hend.imp_right fun h => ⟨h.1, h.2.1⟩)).longest.imp_right
      (And.imp_right fun h => congrArg length h), ?_⟩
    have hge := hrun.length_ge
    rw [length_take, min_eq_left (by omega), windowHit]
    split_ifs with hcut
    · obtain ⟨rfl, hne, hlt⟩ := hcut
      simp only [Bool.toNat_true, hne, Bool.true_eq_false, false_or] at hend hlt ⊢
      generalize align / size = r
      omega
    · rfl
  have hgreatest := hrun.isGreatest (.inr rfl)
  rw [zero_add, ← Nat.sub_add_cancel hk.le] at hgreatest
  refine ⟨k - 1, .inl ⟨admissible_iff.mpr hgreatest.1, fun m hm => ?_⟩, ?_⟩
  · have := hgreatest.2 (admissible_iff.mp hm)
    rw [Bool.toNat_true] at this
    omega
  · rw [hlen, windowHit, if_pos ⟨rfl, hne, by omega⟩]

lemma hitEnds_greatest {hashes : BlockHashList} {rows : List Row}
    (hwindow : ∀ w, g.spec.attention = .slidingWindow w →
      2 ≤ w ∧ 0 < g.spec.blockSize ∧ g.spec.blockSize ∣ c.schedulerBlockSize)
    (h : findRows p c maxHit g hashes = .ok rows) :
    IsGreatest (hitEnds p c maxHit g hashes) rows.length := by
  cases hatt : g.spec.attention with
  | full =>
    simp only [findRows, findLongestCacheHit, hatt, mul_one] at h
    cases h
    simp only [hitEnds, hatt]
    exact findFull_greatest
  | slidingWindow w =>
    simp only [findRows, findLongestCacheHit, hatt] at h
    obtain ⟨_, -, h⟩ := of_bind h
    obtain ⟨hw, hsize, hdvd⟩ := hwindow w hatt
    obtain ⟨m, hm, hlen⟩ := findSlidingWindow_ends hw hsize hdvd h
    simp only [hitEnds, hatt]
    rw [hlen]
    exact windowHit_greatest hm
  | chunkedLocal chunk =>
    simp only [findRows, findLongestCacheHit, hatt] at h
    simp only [hitEnds, hatt]
    exact (findChunkedLocal_ends h).2
  | mamba mode numSpec =>
    simp only [findRows, findLongestCacheHit, hatt] at h
    simp only [hitEnds, hatt]
    exact mambaLoop_greatest h
  | crossAttention => exact absurd hatt (not_cross_of_find h)

lemma within_iff {rows rows' : List Row} (hwindows : WindowsFit c) (hgm : g ∈ c.attentionGroups)
    (hfm : f ∈ c.attentionGroups) (hg : lookupGroup p c blockHashes maxHit g = .ok (g, rows))
    (hf : lookupGroup p c blockHashes maxHit f = .ok (f, rows')) :
    Within p c blockHashes maxHit g f ↔
    rows.length * g.spec.blockSize ≤ rows'.length * f.spec.blockSize := by
  obtain ⟨hashes, hhg, hg⟩ := of_bind hg
  obtain ⟨_, hg, ⟨⟩⟩ := of_bind hg
  obtain ⟨hashes', hhf, hf⟩ := of_bind hf
  obtain ⟨_, hf, ⟨⟩⟩ := of_bind hf
  have hg := hitEnds_greatest (hwindows g hgm) hg
  have hf := hitEnds_greatest (hwindows f hfm) hf
  constructor
  · intro h
    obtain ⟨m, hm, hle⟩ := h hashes hashes' hhg hhf _ hg.1
    exact hle.trans (Nat.mul_le_mul_right _ (hf.2 hm))
  intro hle _ _ h h' m hm
  cases hhg.symm.trans h
  cases hhf.symm.trans h'
  exact ⟨_, hf.1, (Nat.mul_le_mul_right _ (hg.2 hm)).trans hle⟩

lemma hitOf_cases (i : ℕ) {gs : List SpecGroup}
    (h : Forall₂ (fun g y => lookupGroup p c blockHashes maxHit g = .ok y) gs found) :
    gs.find? (i ∈ ·.groupIds) = none ∧ hitOf found i = ([], 0) ∨
    ∃ g rows, gs.find? (i ∈ ·.groupIds) = some g ∧
    lookupGroup p c blockHashes maxHit g = .ok (g, rows) ∧
      (hitOf found i).1.length = rows.length ∧
      (hitOf found i).2 = rows.length * g.spec.blockSize := by
  induction h with
  | nil => exact .inl ⟨rfl, rfl⟩
  | @cons g y _ _ hy _ ih =>
    unfold hitOf at ih ⊢
    obtain ⟨rows, rfl⟩ : ∃ rows, y = (g, rows) := by
      obtain ⟨_, -, h⟩ := of_bind hy
      obtain ⟨rows, -, ⟨⟩⟩ := of_bind h
      exact ⟨rows, rfl⟩
    by_cases hi : i ∈ g.groupIds
    · exact .inr ⟨g, rows, by simp [hi], hy, by simp [hi]⟩
    · simpa [hi] using ih

lemma numNewLocalComputedTokens_le {n b : ℕ} :
    numNewLocalComputedTokens ((range n).map (hitOf found)) ≤ b ↔
    ∀ j < n, (hitOf found j).2 ≤ b := by
  unfold numNewLocalComputedTokens
  cases hmax : (((range n).map (hitOf found)).map (·.2)).max? with
  | none =>
    obtain rfl : n = 0 := by simpa using hmax
    simp
  | some m =>
    rw [Option.getD_some, max?_le_iff hmax]
    simp

/-- The value covers no more than the blocks of each full-attention group just if these have the
longest hit. -/
theorem fullCovered_iff (hwindows : WindowsFit c)
    (h : findLongestCacheHitPerGroup p c blockHashes maxHit = .ok hits) :
    FullCovered c hits ↔ FullLongest p c blockHashes maxHit := by
  obtain ⟨found, hfound, ⟨⟩⟩ := of_bind h
  have hcases := fun i => hitOf_cases i (mapM_eq_ok hfound)
  refine forall₂_congr fun i hi => forall₃_congr fun f hf _ => ?_
  obtain ⟨hnone, -⟩ | ⟨_, rows, hsome, hlook, hblocks, -⟩ := hcases i
  · cases hf.symm.trans hnone
  cases hf.symm.trans hsome
  rw [numNewLocalComputedTokens_le, show List.getD _ i ([], 0) = hitOf found i by simp [hi],
    hblocks]
  refine forall₂_congr fun j _ => ?_
  unfold groupOf
  obtain ⟨hnone, hzero⟩ | ⟨g, rows', hg, hlook', -, hlen'⟩ := hcases j
  · simp [hnone, hzero]
  · simp [hg, hlen',
      within_iff hwindows (mem_of_find?_eq_some hg) (mem_of_find?_eq_some hf) hlook' hlook]

def mambaGroups : List KVCacheGroupSpec := [⟨⟨.full, 1, 0⟩, false⟩, ⟨⟨.mamba .all 0, 1, 0⟩, false⟩]

def mambaPool : BlockPool := poolWith [[5, 0, 0, 0, 0], [6, 0, 0, 0, 0], [6, 0, 0, 0, 1]]

/-- Both blocks of full attention are cached, so that no hit within two tokens goes further. -/
theorem fullCovered_mambaPool : ∃ c hits, HybridCoordinator.init mambaGroups false 1 1 1 = .ok c ∧
    findLongestCacheHitPerGroup mambaPool c [[5], [6], [7]] 2 = .ok hits ∧ FullCovered c hits := by
  refine ⟨_, _, rfl, rfl, (@fullCovered_iff mambaPool _ [[5], [6], [7]] 2 _ ?_ rfl).mpr ?_⟩
  · intro g hg w hw
    rcases mem_cons.mp hg with rfl | hg
    · cases hw
    · cases mem_singleton.mp hg
      cases hw
  have hfull : ∀ j < 2, CachedAt mambaPool (.plain [[5], [6], [7]]) [0] j
    | 0, _ | 1, _ => ⟨_, _, rfl, rfl⟩
  intro i hi f hf hisFull j hj g hg hgh hfh hgeq hfeq m hm
  obtain rfl | rfl : i = 0 ∨ i = 1 := by have : i < 2 := hi; omega
  · cases hf
    cases hfeq
    obtain rfl | rfl : j = 0 ∨ j = 1 := by have : j < 2 := hj; omega
    · cases hg
      cases hgeq
      refine ⟨2, ⟨by decide, one_dvd _, fun j hj _ => hfull j hj⟩, ?_⟩
      exact Nat.mul_le_mul_right _ hm.1
    · cases hg
      cases hgeq
      refine ⟨2, ⟨by decide, one_dvd _, fun j hj _ => hfull j hj⟩, ?_⟩
      exact Nat.mul_le_mul_right _ hm.1
  · cases hf
    cases hisFull

/-- A state behind an evicted block is still found, and EAGLE drops a block of full attention
only. -/
theorem not_fullCovered :
    (∃ c hits, HybridCoordinator.init mambaGroups false 1 1 1 = .ok c ∧ findLongestCacheHitPerGroup
      (poolWith [[6, 0, 0, 0, 1]]) c [[5], [6], [7]] 2 = .ok hits ∧ hits.map (·.2) = [0, 2] ∧
      ¬ FullCovered c hits) ∧
    ∃ c hits, HybridCoordinator.init mambaGroups true 1 1 1 = .ok c ∧
    findLongestCacheHitPerGroup mambaPool c
      [[5], [6], [7]] 2 = .ok hits ∧ hits.map (·.2) = [1, 2] ∧ ¬ FullCovered c hits :=
  ⟨⟨_, _, rfl, rfl, rfl, fun h => absurd (h 0 (by decide) _ rfl rfl) (by decide)⟩,
    ⟨_, _, rfl, rfl, rfl, fun h => absurd (h 0 (by decide) _ rfl rfl) (by decide)⟩⟩

end Vllm.CacheHit
