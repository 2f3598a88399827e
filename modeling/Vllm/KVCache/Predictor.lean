import Vllm.KVCache.PoolTrace

/-! # The allocation predictor -/

namespace Vllm

namespace SingleTypeKVCacheManager

open List BlockPool KVCacheManager

variable {m m' : SingleTypeKVCacheManager} {p q : BlockPool} {rid : String}
variable {bs : List ℕ} (m)

def slotTokens (numTokens numEncoderTokens : ℤ) : ℤ :=
  match m.spec.attention with
  | .crossAttention => numEncoderTokens
  | .mamba _ numSpec => numTokens + m.blockSize * numSpec
  | _ => numTokens

def remaining (rid : String) (numTokens numEncoderTokens : ℤ) : ℤ :=
  max (cdiv (m.slotTokens numTokens numEncoderTokens) m.blockSize - (m.blocksOf rid).length) 0

variable {m}

/-- The managers whose `get_num_blocks_to_allocate` is exact. -/
structure Exact (m : SingleTypeKVCacheManager) : Prop where
  size_pos : 0 < m.blockSize
  notAlign : ∀ numSpec, m.spec.attention ≠ .mamba .align numSpec
  noContextParallel : ∀ mode numSpec, m.spec.attention = .mamba mode numSpec →
    m.blockSize = m.spec.blockSize

lemma SameConfig.exact (h : SameConfig m m') (hm : Exact m) : Exact m' := by
  refine ⟨?_, ?_, ?_⟩
  · rw [h.blockSize]
    exact hm.size_pos
  · rw [h.spec]
    exact hm.notAlign
  · rw [h.spec, h.blockSize]
    exact hm.noContextParallel

lemma remaining_nonneg (m : SingleTypeKVCacheManager) (rid : String) (n enc : ℤ) :
    0 ≤ m.remaining rid n enc := le_max_right _ _

lemma allocateNewBlocks_eq (hm : Exact m) (p : BlockPool) (rid : String) (n enc main : ℤ) :
    m.allocateNewBlocks p rid (if m.spec.attention = .crossAttention then enc else n) main =
      m.baseAllocateNewBlocks p rid (m.slotTokens n enc) := by
  unfold allocateNewBlocks slotTokens
  cases h : m.spec.attention with
  | mamba mode numSpec =>
    cases mode with
    | align => exact absurd h (hm.notAlign numSpec)
    | all => simp
    | none => simp
  | crossAttention => simp
  | _ => simp

lemma allocateNewBlocks_ok {n enc : ℤ} (main : ℤ) (hp : p.PoolOk) (hm : Exact m)
    (hle : m.remaining rid n enc ≤ p.numFreeBlocks) :
    ∃ x m' q, m.allocateNewBlocks p rid (if m.spec.attention = .crossAttention then enc else n)
    main =
        .ok (x, m', q) ∧ q.PoolOk ∧ q.numGpuBlocks = p.numGpuBlocks ∧
      q.numFreeBlocks = p.numFreeBlocks - m.remaining rid n enc ∧ SameConfig m m' := by
  rw [allocateNewBlocks_eq hm]
  unfold baseAllocateNewBlocks remaining at *
  dsimp only
  split
  · refine ⟨[], _, p, rfl, hp, rfl, ?_, ⟨rfl, rfl, rfl, rfl⟩⟩
    omega
  obtain ⟨new, q, hnew⟩ := getNewBlocks_ok hp.free ((le_max_left _ _).trans hle)
  obtain ⟨-, hcnt, -⟩ := hp.free.getNewBlocks hp.map (by omega) hnew
  rw [hnew]
  refine ⟨new, _, q, rfl, hp.getNewBlocks (by omega) hnew, (sameSetup_getNewBlocks hnew).size,
    ?_, ⟨rfl, rfl, rfl, rfl⟩⟩
  omega

lemma numTokens_le_slotTokens {n enc : ℤ} (h : m.spec.attention ≠ .crossAttention) :
    n ≤ m.slotTokens n enc := by
  unfold slotTokens
  split
  · rename_i h'
    exact absurd h' h
  · rename_i numSpec _
    have : (0 : ℤ) ≤ m.blockSize * numSpec :=
      Int.mul_nonneg (Int.natCast_nonneg _) (Int.natCast_nonneg _)
    exact le_add_of_nonneg_right this
  · exact le_rfl

def AfterHits (m : SingleTypeKVCacheManager) (rid : String) (numHits : ℕ) (total : ℤ) : Prop :=
  m.spec.attention ≠ .crossAttention →
    ((m.blocksOf rid).length : ℤ) = max (max (m.numSkippedBlocks total) 0) numHits ∧
      (numHits : ℤ) * m.blockSize ≤ total

lemma allocateExternalComputedBlocks_ok {n enc nLocal nExternal : ℤ} {numHits : ℕ}
    (hp : p.PoolOk) (hm : Exact m) (hhits : m.AfterHits rid numHits (nLocal + nExternal))
    (hneed : nLocal + nExternal ≤ n) (hle : m.remaining rid n enc ≤ p.numFreeBlocks) :
    ∃ m' q, m.allocateExternalComputedBlocks p rid nLocal nExternal = .ok (m', q) ∧ q.PoolOk ∧
      q.numGpuBlocks = p.numGpuBlocks ∧
      q.numFreeBlocks - m'.remaining rid n enc = p.numFreeBlocks - m.remaining rid n enc ∧
      SameConfig m m' := by
  unfold allocateExternalComputedBlocks
  split
  · exact ⟨m, p, rfl, hp, rfl, rfl, SameConfig.refl m⟩
  rename_i hcr
  dsimp only
  set total := nLocal + nExternal with htotal
  set skipped := getNumSkippedTokens m.spec.attention total with hskipped
  generalize hext : (if skipped > 0 then min (total - skipped) nExternal else nExternal) = external
  split_ifs with hexternal
  · exact ⟨m, p, rfl, hp, rfl, rfl, SameConfig.refl m⟩
  obtain ⟨hlen, hcover⟩ := hhits hcr
  have hpos := hm.size_pos
  have hpos' : (0 : ℤ) < m.blockSize := by exact_mod_cast hpos
  have hnum := le_cdiv_of_mul_le hpos hcover
  have htotal0 : 0 ≤ total := (Int.mul_nonneg (Int.natCast_nonneg numHits) hpos'.le).trans hcover
  have hskip : ((m.numSkippedBlocks total).toNat : ℤ) ≤ cdiv total m.blockSize :=
    numSkippedBlocks_le_cdiv htotal0 (hext ▸ not_le.mp hexternal)
  have hge : ((m.blocksOf rid).length : ℤ) ≤ cdiv total m.blockSize := by
    have := cdiv_nonneg htotal0 m.blockSize
    omega
  have hreq : cdiv total m.blockSize ≤ cdiv (m.slotTokens n enc) m.blockSize :=
    cdiv_mono hpos (hneed.trans (numTokens_le_slotTokens hcr))
  have hle' : cdiv total m.blockSize - (m.blocksOf rid).length ≤ p.numFreeBlocks := by
    unfold remaining at hle
    omega
  obtain ⟨new, q, hnew⟩ := getNewBlocks_ok hp.free hle'
  obtain ⟨-, hcnt, hnewlen⟩ := hp.free.getNewBlocks hp.map (by omega) hnew
  rw [hnew]
  refine ⟨_, q, rfl, hp.getNewBlocks (by omega) hnew, (sameSetup_getNewBlocks hnew).size, ?_,
    ⟨rfl, rfl, rfl, rfl⟩⟩
  have hblk : (m.setBlocks rid (m.blocksOf rid ++ new)).blocksOf rid = m.blocksOf rid ++ new := by
    rw [blocksOf_insert (m := m) rfl, if_pos rfl]
  have hsl : (m.setBlocks rid (m.blocksOf rid ++ new)).slotTokens n enc = m.slotTokens n enc := rfl
  unfold remaining
  rw [hblk, hsl, length_append]
  change q.numFreeBlocks - max (cdiv _ m.blockSize - _) 0 = _
  omega

/-! ## Touching the hits -/

variable (m)

/-- What the predictor returns, unless Mamba defers the request. -/
def predicted (p : BlockPool) (rid : String) (hits : List ℕ) (total n enc : ℤ) : ℤ :=
  if m.spec.attention = .crossAttention ∨ m.isTracked rid = true then m.remaining rid n enc
  else
    max (cdiv (m.slotTokens n enc) m.blockSize -
      max (m.numSkippedBlocks total) (hits.length + (m.blocksOf rid).length)) 0 +
    p.numEvictable (hits.drop (max 0 (m.numSkippedBlocks total - (m.blocksOf rid).length)).toNat)

lemma predicted_nonneg (p : BlockPool) (rid : String) (hits : List ℕ)
    (total n enc : ℤ) : 0 ≤ m.predicted p rid hits total n enc := by
  unfold predicted
  split
  · exact remaining_nonneg m rid n enc
  · exact Int.add_nonneg (le_max_right _ _) (Int.natCast_nonneg _)

variable {m}

lemma predicted_running {total n enc : ℤ} (hcover : m.spec.attention ≠ .crossAttention →
    m.numSkippedBlocks total ≤ (m.blocksOf rid).length) : m.predicted p rid [] total n enc =
    m.remaining rid n enc := by
  unfold predicted
  split
  · rfl
  rename_i h
  have := hcover (not_or.mp h).1
  simp only [drop_nil, length_nil, numEvictable, countP_nil, remaining]
  omega

lemma numSkippedBlocks_cross (h : m.spec.attention = .crossAttention) (n : ℤ) :
    m.numSkippedBlocks n = 0 := by
  simp [numSkippedBlocks, getNumSkippedTokens, h]

lemma baseNumBlocksToAllocate_eq {hits : List ℕ} {t total x : ℤ}
    (h : m.baseNumBlocksToAllocate p rid t hits total false = .ok x) :
    x = if m.isTracked rid = true then max (cdiv t m.blockSize - (m.blocksOf rid).length) 0
      else
      max (cdiv t m.blockSize -
      max (m.numSkippedBlocks total) (hits.length + (m.blocksOf rid).length)) 0 +
        p.numEvictable
        (hits.drop (max 0 (m.numSkippedBlocks total - (m.blocksOf rid).length)).toNat) := by
  unfold baseNumBlocksToAllocate at h
  dsimp only at h
  split at h
  · rename_i htr
    obtain ⟨_, -, h⟩ := of_bind h
    rw [if_pos htr]
    exact (Except.ok.inj h).symm
  rename_i htr
  rw [if_neg htr]
  exact (Except.ok.inj h).symm

lemma managerNumBlocksToAllocate_eq {hits : List (List ℕ)} {n enc total main x : ℤ}
    (hm : Exact m) (hbs : m.spec.attention ≠ .crossAttention → hits[m.kvCacheGroupId]? = some bs)
    (h : managerNumBlocksToAllocate m p rid n hits enc total main false = .ok x) :
    x = p.numGpuBlocks + 1 ∨ x = m.predicted p rid bs total n enc := by
  unfold managerNumBlocksToAllocate at h
  split at h
  · rename_i hcr
    right
    have hsl : m.slotTokens n enc = enc := by simp [slotTokens, hcr]
    simp only [getNumBlocksToAllocate, hcr] at h
    have := baseNumBlocksToAllocate_eq h
    rw [numSkippedBlocks_cross hcr] at this
    unfold predicted
    rw [if_pos (Or.inl hcr), remaining, hsl, this]
    split
    · rfl
    simp only [drop_nil, length_nil, numEvictable, countP_nil]
    omega
  rename_i hcr
  obtain ⟨bs', hbs', h⟩ := of_bind h
  obtain rfl : bs' = bs := by
    have := hbs hcr
    unfold nthBlocks at hbs'
    rw [this] at hbs'
    exact (Except.ok.inj hbs').symm
  have hbase : x = p.numGpuBlocks + 1 ∨
      m.baseNumBlocksToAllocate p rid (m.slotTokens n enc) bs' total false = .ok x := by
    unfold getNumBlocksToAllocate at h
    unfold slotTokens
    split at h
    · rename_i mode numSpec hmamba
      have hsize := hm.noContextParallel mode numSpec hmamba
      unfold mambaNumBlocksToAllocate at h
      dsimp only at h
      split at h
      · exact Or.inl (Except.ok.inj h).symm
      split at h
      · rw [hmamba, hsize]
        exact Or.inr h
      rename_i halign
      have : mode = .align := not_not.mp halign
      exact absurd (this ▸ hmamba) (hm.notAlign numSpec)
    rename_i hnot
    right
    split
    · rename_i hc
      exact absurd hc hcr
    · rename_i hc
      exact absurd hc (hnot _ _)
    · exact h
  rcases hbase with hbase | hbase
  · exact Or.inl hbase
  right
  have := baseNumBlocksToAllocate_eq hbase
  unfold predicted
  by_cases htr : m.isTracked rid = true
  · rw [if_pos (Or.inr htr), remaining, this, if_pos htr]
  · rw [if_neg (not_or.mpr ⟨hcr, htr⟩), this, if_neg htr]

/-- The hits of a group are blocks of the pool, and none but the null block occurs twice. -/
structure HitsOk (m : SingleTypeKVCacheManager) (p : BlockPool) (bs : List ℕ) : Prop where
  once : ∀ b, b ≠ nullBlock → bs.count b ≤ 1
  bound : ∀ b ∈ bs, b ≠ nullBlock → b < p.numGpuBlocks
  caching : m.enableCaching = false → bs = []
  cross : m.spec.attention = .crossAttention → bs = []

lemma touchComputed_ok (hp : p.PoolOk) (hhits : HitsOk m p bs) (k : ℕ) :
    ∃ q, m.touchComputed p (bs.drop k) = .ok q ∧ touch (bs.drop k) p = .ok q ∧
      q.numFreeBlocks = p.numFreeBlocks - p.numEvictable (bs.drop k) := by
  obtain ⟨q, hq, hcnt⟩ := hp.touch_ok (fun b hb hnull => hhits.bound b (mem_of_mem_drop hb) hnull)
    (fun b hb => ((drop_sublist k bs).count_le b).trans (hhits.once b hb))
  refine ⟨q, ?_, hq, hcnt⟩
  unfold touchComputed
  split
  · exact hq
  rename_i hoff
  have hnil : bs.drop k = [] := by rw [hhits.caching (by simpa using hoff), drop_nil]
  rw [hnil] at hq ⊢
  exact hq

lemma addLocalComputedBlocks_ok (n enc : ℤ) {nLocal nExternal : ℤ} (hp : p.PoolOk)
    (hhits : HitsOk m p bs) (hemp : m.spec.attention ≠ .crossAttention → m.blocksOf rid = [])
    (htr : m.isTracked rid = false) (hcover : m.spec.attention ≠ .crossAttention →
      (bs.length : ℤ) * m.blockSize ≤ nLocal + nExternal) :
    ∃ m' q, m.addLocalComputedBlocks p rid bs nLocal nExternal = .ok (m', q) ∧ q.PoolOk ∧
      q.numGpuBlocks = p.numGpuBlocks ∧ q.numFreeBlocks - m'.remaining rid n enc =
        p.numFreeBlocks - m.predicted p rid bs (nLocal + nExternal) n enc ∧
      SameConfig m m' ∧ m'.AfterHits rid bs.length (nLocal + nExternal) ∧ ∀ b, b ∉ bs →
      q.refCnt b = p.refCnt b := by
  by_cases hcr : m.spec.attention = .crossAttention
  · have hnil := hhits.cross hcr
    refine ⟨m, p, ?_, hp, rfl, ?_, SameConfig.refl m, fun hc => absurd hcr hc, fun _ _ => rfl⟩
    · simp [SingleTypeKVCacheManager.addLocalComputedBlocks, hcr, hnil, pyAssert, bind, Except.bind]
    unfold predicted
    rw [if_pos (Or.inl hcr)]
  have hemp := hemp hcr
  set skipped := m.numSkippedBlocks (nLocal + nExternal) with hskipped
  obtain ⟨q, hq, htch, hqcount⟩ := touchComputed_ok hp hhits skipped.toNat
  obtain ⟨-, hrefs⟩ := touch_spec hp.map htch
  have hpool := hp.touch (fun b hb hnull => hhits.bound b (mem_of_mem_drop hb) hnull) htch
  have hadd : m.addLocalComputedBlocks p rid bs nLocal nExternal =
      .ok ({ m.setBlocks rid (replicate skipped.toNat nullBlock ++ bs.drop skipped.toNat) with
        numCachedBlock := m.numCachedBlock.insert rid
          (replicate skipped.toNat nullBlock ++ bs.drop skipped.toNat).length }, q) := by
    unfold addLocalComputedBlocks
    split
    · exact absurd (by assumption) hcr
    · simp [hemp, pyAssert, bind, Except.bind, ← hskipped, hq]
  refine ⟨_, q, hadd, hpool, (sameCached_touch htch).size, ?_, ⟨rfl, rfl, rfl, rfl⟩, fun _ => ?_,
    ?_⟩
  · have hblk : ∀ {m' : SingleTypeKVCacheManager} {l : List ℕ},
        m'.reqToBlocks = m.reqToBlocks.insert rid l → m'.blocksOf rid = l := by
      intro m' l hm'
      rw [blocksOf_insert hm', if_pos rfl]
    unfold predicted remaining
    rw [if_neg (not_or.mpr ⟨hcr, by simp [htr]⟩), hblk rfl, hemp]
    have hdrop : (max 0 (skipped - ([] : List ℕ).length)).toNat = skipped.toNat := by
      simp only [length_nil]
      omega
    rw [hqcount, ← hskipped, hdrop, length_append, length_replicate, length_drop]
    change _ - max (cdiv (m.slotTokens n enc) m.blockSize - _) 0 = _
    simp only [length_nil]
    omega
  · rw [blocksOf_insert (m := m) rfl, if_pos rfl]
    refine ⟨?_, hcover hcr⟩
    rw [length_append, length_replicate, length_drop]
    change _ = max (max skipped 0) _
    omega
  intro b hb
  have : b ∉ bs.drop skipped.toNat := fun hmem => hb (mem_of_mem_drop hmem)
  rw [hrefs, count_eq_zero_of_not_mem this]
  simp

end SingleTypeKVCacheManager

open List SingleTypeKVCacheManager

/-- With enough free blocks, `before` to get and then `after`, the loop does not raise and keeps the
free count minus what is to get. `Pre` may depend on the pool for pairwise `Apart` managers. -/
lemma forManagers_ok {β : Type}
    {f : SingleTypeKVCacheManager → BlockPool → Py (β × SingleTypeKVCacheManager × BlockPool)}
    {p : BlockPool} {ms : List SingleTypeKVCacheManager}
    (Apart : SingleTypeKVCacheManager → SingleTypeKVCacheManager → Prop)
    (Pre : BlockPool → SingleTypeKVCacheManager → Prop)
    (Post : SingleTypeKVCacheManager → SingleTypeKVCacheManager → Prop)
    (before after : SingleTypeKVCacheManager → ℤ)
    (hf : ∀ {p m}, p.PoolOk → Pre p m → before m ≤ p.numFreeBlocks →
      ∃ x m' q, f m p = .ok (x, m', q) ∧ q.PoolOk ∧ q.numGpuBlocks = p.numGpuBlocks ∧
        q.numFreeBlocks - after m' = p.numFreeBlocks - before m ∧ 0 ≤ after m' ∧ Post m m' ∧
        ∀ m2, Apart m m2 → Pre p m2 → Pre q m2)
    (hbef : ∀ m, 0 ≤ before m) (hapart : ms.Pairwise Apart) (hp : p.PoolOk)
    (hpre : ∀ m ∈ ms, Pre p m) (hle : (ms.map before).sum ≤ p.numFreeBlocks) :
    ∃ xs ms' q, KVCacheManager.forManagers f ms p = .ok (xs, ms', q) ∧ q.PoolOk ∧
    q.numGpuBlocks = p.numGpuBlocks ∧
      q.numFreeBlocks - (ms'.map after).sum = p.numFreeBlocks - (ms.map before).sum ∧
      List.Forall₂ Post ms ms' := by
  induction ms generalizing p with
  | nil => exact ⟨[], [], p, rfl, hp, rfl, rfl, .nil⟩
  | cons m ms ih =>
    simp only [map_cons, sum_cons] at hle ⊢
    have hsum : 0 ≤ (ms.map before).sum := sum_nonneg (by simpa using fun m _ => hbef m)
    obtain ⟨x, m', p', hm, hp', hsize, hbalance, hafter, hpost, hframe⟩ :=
      hf hp (hpre m mem_cons_self) (by omega)
    obtain ⟨hhead, htail⟩ := pairwise_cons.mp hapart
    obtain ⟨xs, ms', q, hms, hq, hqsize, hqbalance, hposts⟩ := ih htail hp'
      (fun m2 hm2 => hframe m2 (hhead m2 hm2) (hpre m2 (mem_cons_of_mem _ hm2))) (by omega)
    refine ⟨x :: xs, m' :: ms', q, ?_, hq, hqsize.trans hsize, ?_, .cons hpost hposts⟩
    · simp only [KVCacheManager.forManagers, hm, hms, bind, Except.bind]
    simp only [map_cons, sum_cons]
    omega

end Vllm
