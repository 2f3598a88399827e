import Vllm.KVCache.CacheHitRows

/-!
# What the managers find

Without EAGLE a manager returns the greatest aligned number of blocks for which the blocks read are
cached.
-/

namespace Vllm.CacheHit

open List

variable {p : BlockPool} {hashes : BlockHashList} {gids : List ℕ} {rows : List Row}
  {size align n : ℕ}

lemma alignDown_le (size align n : ℕ) : alignDown size align n ≤ n := by
  induction n with
  | zero => exact le_rfl
  | succ n ih =>
    unfold alignDown
    split
    · exact ih.trans (Nat.le_succ n)
    · exact le_rfl

lemma dvd_or_not (h : ¬ (size ≠ align ∧ n * size % align ≠ 0)) : align ∣ n * size := by
  by_cases hsize : size = align
  · rw [hsize]
    exact dvd_mul_left _ _
  · exact Nat.dvd_of_mod_eq_zero (not_not.mp fun hmod => h ⟨hsize, hmod⟩)

lemma dvd_alignDown (size align n : ℕ) : align ∣ alignDown size align n * size := by
  induction n with
  | zero => simp [alignDown]
  | succ n ih =>
    unfold alignDown
    split
    · exact ih
    · rename_i h
      exact dvd_or_not h

lemma le_alignDown {m : ℕ} (hm : m ≤ n) (hdvd : align ∣ m * size) : m ≤ alignDown size align n := by
  induction n with
  | zero => exact hm
  | succ n ih =>
    unfold alignDown
    split
    · rename_i hne
      refine ih (Nat.le_of_lt_succ (lt_of_le_of_ne hm fun heq => hne.2 ?_))
      obtain rfl : m = n + 1 := heq
      exact Nat.mod_eq_zero_of_dvd hdvd
    · exact hm

lemma alignDown_eq (h : align ∣ n * size) : alignDown size align n = n :=
  le_antisymm (alignDown_le _ _ _) (le_alignDown le_rfl h)

lemma length_popUnaligned (size align : ℕ) (rows : List Row) :
    (popUnaligned size align rows).length = alignDown size align rows.length := by
  rw [popUnaligned, length_take, min_eq_left (alignDown_le _ _ _)]

/-- The block with the `j`-th hash is cached in all the groups. -/
def CachedAt (p : BlockPool) (hashes : BlockHashList) (gids : List ℕ) (j : ℕ) : Prop :=
  ∃ x row, hashes.get j = .ok x ∧ p.getCachedBlock x gids = some row

variable {x : Bytes}

lemma not_cachedAt {j : ℕ} (hx : hashes.get j = .ok x)
    (hnone : p.getCachedBlock x gids = none) : ¬ CachedAt p hashes gids j := by
  rintro ⟨y, row, hy, hrow⟩
  obtain rfl := Except.ok.inj (hx.symm.trans hy)
  rw [hnone] at hrow
  cases hrow

def WindowCached (p : BlockPool) (hashes : BlockHashList) (gids : List ℕ) (need m : ℕ) : Prop :=
  ∀ j < m, m ≤ j + need → CachedAt p hashes gids j

def alignedBelow (size align n : ℕ) (V : ℕ → Prop) : Set ℕ :=
  {m | m ≤ n ∧ align ∣ m * size ∧ V m}

/-! ## The sliding window -/

def windowEnds (p : BlockPool) (hashes : BlockHashList) (gids : List ℕ) (size align n : ℕ)
    (drop : Bool) (need : ℕ) :
    Set ℕ :=
  {m | m ≤ n ∧ align ∣ (m - drop.toNat) * size ∧ WindowCached p hashes gids need m}

/-- At index `i`: `k` rows from there on hold cached blocks and end where a hit may, and every hit
ends there or before.
-/
structure WindowRun (p : BlockPool) (hashes : BlockHashList) (gids : List ℕ) (size align n : ℕ)
    (drop : Bool) (need : ℕ) (rows : List Row) (i k : ℕ) : Prop where
  length_ge : i + k ≤ rows.length
  length_le : rows.length ≤ n
  null : ∀ j < i, rows[j]? = some (nullRow gids)
  hit : ∀ j, i ≤ j → j < i + k → ∃ x row, hashes.get j = .ok x ∧
    p.getCachedBlock x gids = some row ∧
    rows[j]? = some row
  aligned : 0 < k → align ∣ (i + k - drop.toNat) * size
  last : ∀ m ∈ windowEnds p hashes gids size align n drop need, m ≤ i + k

variable {drop : Bool} {need i k : ℕ}

namespace WindowRun

lemma nulls (p : BlockPool) (hashes : BlockHashList) (gids : List ℕ) (size align n : ℕ)
    (drop : Bool) (need : ℕ) :
    WindowRun p hashes gids size align n drop need (replicate n (nullRow gids)) n 0 where
  length_ge := length_replicate.ge
  length_le := length_replicate.le
  null j hj := by rw [getElem?_replicate, if_pos hj]
  hit j h1 h2 := absurd h1 (by omega)
  aligned h := absurd h (lt_irrefl 0)
  last _ hm := hm.1

lemma cachedAt (h : WindowRun p hashes gids size align n drop need rows i k) {j : ℕ} (h1 : i ≤ j)
    (h2 : j < i + k) : CachedAt p hashes gids j := by
  obtain ⟨x, row, hx, hrow, -⟩ := h.hit j h1 h2
  exact ⟨x, row, hx, hrow⟩

lemma isGreatest (h : WindowRun p hashes gids size align n drop need rows i k)
    (hend : 0 < k ∧ need ≤ k ∨ i = 0) :
    IsGreatest (windowEnds p hashes gids size align n drop need) (i + k) := by
  refine ⟨⟨h.length_ge.trans h.length_le, ?_, fun j hj hnear => h.cachedAt (by omega) hj⟩, h.last⟩
  rcases eq_zero_or_pos k with rfl | hpos
  · obtain rfl : i = 0 := by omega
    simp
  · exact h.aligned hpos

section

variable (h : WindowRun p hashes gids size align n drop need rows (i + 1) k)
include h

lemma start (hlast : ∀ m ∈ windowEnds p hashes gids size align n drop need, m ≤ i) :
    WindowRun p hashes gids size align n drop need rows i 0 where
  length_ge := (by omega : i + 0 ≤ i + 1 + k).trans h.length_ge
  length_le := h.length_le
  null j hj := h.null j (Nat.lt_succ_of_lt hj)
  hit j h1 h2 := absurd h1 (by omega)
  aligned h := absurd h (lt_irrefl 0)
  last := hlast

lemma extend {row : Row} (hx : hashes.get i = .ok x) (hrow : p.getCachedBlock x gids = some row)
    (halign : k = 0 → align ∣ (i + 1 - drop.toNat) * size) :
    WindowRun p hashes gids size align n drop need (rows.set i row) i (k + 1) where
  length_ge := by
    have := h.length_ge
    rw [length_set]
    omega
  length_le := by
    rw [length_set]
    exact h.length_le
  null j hj := by
    rw [getElem?_set_ne (by omega)]
    exact h.null j (by omega)
  hit j h1 h2 := by
    rcases eq_or_lt_of_le h1 with rfl | h1
    · have := h.length_ge
      exact ⟨x, row, hx, hrow, getElem?_set_self (by omega)⟩
    · rw [getElem?_set_ne (by omega)]
      exact h.hit j h1 (by omega)
  aligned _ := by
    rcases eq_zero_or_pos k with rfl | hpos
    · exact halign rfl
    · rw [← add_assoc, add_right_comm]
      exact h.aligned hpos
  last m hm := (h.last m hm).trans (by omega)

end

lemma take (h : WindowRun p hashes gids size align n drop need rows i k) :
    WindowRun p hashes gids size align n drop need (rows.take (i + k)) i k where
  __ := h
  length_ge := by rw [length_take, min_eq_left h.length_ge]
  length_le := (length_take_le' _ _).trans h.length_le
  null j hj := by rw [getElem?_take_of_lt (by omega), h.null j hj]
  hit j h1 h2 := by
    rw [getElem?_take_of_lt h2]
    exact h.hit j h1 h2

end WindowRun

lemma slidingWindowLoop_run {needed : ℤ} {out : List Row × ℕ × Bool}
    (hneed : ∀ k : ℕ, 0 < k → ((k : ℤ) ≥ needed ↔ need ≤ k))
    (hrun : WindowRun p hashes gids size align n drop need rows i k) (hk : k < need)
    (h : slidingWindowLoop p hashes gids size needed drop align i rows k = .ok out) :
    ∃ i', WindowRun p hashes gids size align n drop need out.1 i' out.2.1 ∧
      if out.2.2 then out.1.length = i' + out.2.1 ∧ out.2.1 = need else i' = 0 ∧
      out.2.1 < need := by
  induction i generalizing rows k with
  | zero =>
    cases h
    exact ⟨0, hrun, rfl, hk⟩
  | succ i ih =>
    obtain ⟨x, hx, h⟩ := of_bind h
    split at h
    · rename_i row hrow
      have hpost : (if drop = true then i else i + 1) = i + 1 - drop.toNat := by cases drop <;> rfl
      simp only [hpost] at h
      split at h
      · -- The run has not started and may not start here.
        rename_i hskip
        obtain ⟨rfl, hskip⟩ := hskip
        refine ih (hrun.start fun m hm => ?_) hk h
        refine Nat.le_of_lt_succ (lt_of_le_of_ne (hrun.last m hm) fun heq => hskip.2 ?_)
        obtain rfl : m = i + 1 := heq
        exact Nat.mod_eq_zero_of_dvd hm.2.1
      rename_i hskip
      have hrun' := hrun.extend hx hrow fun hk => dvd_or_not fun hne => hskip ⟨hk, hne⟩
      split at h
      · rename_i henough
        cases h
        have henough := (hneed (k + 1) (Nat.succ_pos k)).mp (by exact_mod_cast henough)
        have hlen : ((rows.set i row).take (i + (k + 1))).length = i + (k + 1) := by
          rw [length_take, min_eq_left hrun'.length_ge]
        exact ⟨i, hrun'.take, hlen, le_antisymm hk henough⟩
      rename_i henough
      have hfew : k + 1 < need := by
        by_contra hge
        exact henough (by exact_mod_cast (hneed (k + 1) (Nat.succ_pos k)).mpr (not_lt.mp hge))
      exact ih hrun' hfew h
    rename_i hnone
    have hgap := not_cachedAt hx hnone
    -- A candidate behind the gap would need the block at the gap.
    refine ih (hrun.start fun m hm => ?_) (by omega) h
    by_contra hlt
    exact hgap (hm.2.2 i (by omega) (by have := hrun.last m hm; omega))

def windowBlocks (w size : ℕ) : ℕ := max 1 (cdiv ((w : ℤ) - 1) size).toNat

lemma contiguousBlocksForHit_le {w : ℕ} (k : ℕ) (hk : 0 < k) :
    ((k : ℤ) ≥ contiguousBlocksForHit w size false ↔ windowBlocks w size ≤ k) := by
  unfold contiguousBlocksForHit windowBlocks
  simp only [Bool.false_eq_true, if_false, add_zero]
  omega

lemma findSlidingWindow_greatest {w maxLength : ℕ}
    (h : findSlidingWindow p hashes gids w size maxLength false align = .ok rows) :
    IsGreatest (alignedBelow size align (maxLength / size)
      (WindowCached p hashes gids (windowBlocks w size))) rows.length := by
  obtain ⟨⟨rows', k, found⟩, hloop, h⟩ := of_bind h
  obtain ⟨i, hrun, hend⟩ := slidingWindowLoop_run contiguousBlocksForHit_le
    (WindowRun.nulls p hashes gids size align _ false _) (by simp [windowBlocks]) hloop
  simp only [Bool.false_eq_true, false_and, if_false] at h
  cases h
  cases found with
  | true =>
    obtain ⟨hlen, rfl⟩ := hend
    rw [if_pos rfl, hlen]
    exact hrun.isGreatest (.inl ⟨by simp [windowBlocks], le_rfl⟩)
  | false =>
    obtain ⟨rfl, -⟩ := hend
    have hmax := hrun.isGreatest (.inr rfl)
    have hlen := hrun.length_ge
    rw [zero_add] at hmax hlen
    have hdvd : align ∣ k * size := hmax.1.2.1
    rw [if_neg Bool.false_ne_true, length_popUnaligned, length_take, min_eq_left hlen,
      alignDown_eq hdvd]
    exact hmax

lemma isGreatest_succ {V : ℕ → Prop} {m : ℕ} (h : IsGreatest (alignedBelow size align n V) m)
    (hnot : ¬ (align ∣ (n + 1) * size ∧ V (n + 1))) :
    IsGreatest (alignedBelow size align (n + 1) V) m := by
  refine ⟨⟨h.1.1.trans (Nat.le_succ n), h.1.2⟩, fun m' hm' => h.2 ⟨?_, hm'.2⟩⟩
  refine Nat.le_of_lt_succ (lt_of_le_of_ne hm'.1 fun heq => hnot ?_)
  obtain rfl : m' = n + 1 := heq
  exact hm'.2

lemma mambaLoop_greatest (h : mambaLoop p hashes gids size align n = .ok rows) :
    IsGreatest (alignedBelow size align n (WindowCached p hashes gids 1)) rows.length := by
  induction n with
  | zero =>
    cases h
    exact ⟨⟨le_rfl, by simp, fun j hj => absurd hj (Nat.not_lt_zero j)⟩, fun m hm => hm.1⟩
  | succ i ih =>
    unfold mambaLoop at h
    obtain ⟨x, hx, h⟩ := of_bind h
    split at h
    · rename_i row hrow
      split at h
      · rename_i hskip
        exact isGreatest_succ (ih h) fun hdvd => hskip.2 (Nat.mod_eq_zero_of_dvd hdvd.1)
      rename_i hskip
      cases h
      simp only [length_append, length_replicate, length_singleton]
      refine ⟨⟨le_rfl, dvd_or_not hskip, fun j hj hnear => ?_⟩, fun m hm => hm.1⟩
      obtain rfl : j = i := by omega
      exact ⟨x, row, hx, hrow⟩
    rename_i hnone
    refine isGreatest_succ (ih h) fun hvalid => not_cachedAt hx hnone ?_
    exact hvalid.2 i (Nat.lt_succ_self i) le_rfl

lemma cachedPrefix_stop {hs : List Bytes} (h : hs[(cachedPrefix p gids hs).length]? = some x) :
    p.getCachedBlock x gids = none := by
  induction hs with
  | nil => exact absurd h (by simp)
  | cons y hs ih =>
    unfold cachedPrefix at h
    split at h
    · exact ih (by simpa using h)
    · obtain rfl : y = x := by simpa using h
      assumption

lemma length_toList (hashes : BlockHashList) : hashes.toList.length = hashes.length := by
  cases hashes <;> simp [BlockHashList.toList, BlockHashList.length]

variable {maxLength : ℕ}

lemma findFull_greatest :
    IsGreatest (alignedBelow size align (min (maxLength / size) hashes.length - drop.toNat) fun m =>
      ∀ j < m + drop.toNat, m ≠ 0 →
      CachedAt p hashes gids j) (findFull p hashes gids size maxLength drop align).length := by
  simp only [findFull, length_popUnaligned]
  set hs := hashes.toList.take (maxLength / size) with hhs
  have hlen : hs.length = min (maxLength / size) hashes.length := by
    rw [hhs, length_take, length_toList]
  have hget : ∀ {j x}, hs[j]? = some x → hashes.get j = .ok x := by
    intro j x hj
    rw [hhs, getElem?_take] at hj
    split at hj
    · exact get_of_toList hj
    · cases hj
  set rows := cachedPrefix p gids hs with hrows
  have hdrop : (if drop then rows.dropLast else rows).length = rows.length - drop.toNat := by
    cases drop <;> simp
  have hdown := alignDown_le size align (rows.length - drop.toNat)
  have hle : rows.length ≤ hs.length := length_cachedPrefix_le hs
  rw [hdrop, ← hlen]
  refine ⟨⟨hdown.trans (Nat.sub_le_sub_right hle _), dvd_alignDown _ _ _, fun j hj hne => ?_⟩,
    fun m hm => ?_⟩
  · obtain ⟨x, hx, hrow⟩ := cachedPrefix_row (getElem?_eq_getElem (by omega : j < rows.length))
    exact ⟨x, _, hget hx, hrow⟩
  refine le_alignDown ?_ hm.2.1
  by_contra hlt
  -- The block after the cached prefix is not cached.
  have hstop : rows.length < hs.length := by
    have := hm.1
    omega
  have hx := getElem?_eq_getElem hstop
  exact not_cachedAt (hget hx) (cachedPrefix_stop hx) (hm.2.2 _ (by omega) (by omega))

lemma chunkedLoop_stop {i : ℕ} (h : chunkedLoop p hashes gids n i = .ok rows)
    (hlt : rows.length < n) :
    ¬ CachedAt p hashes gids (i + rows.length) := by
  induction n generalizing i rows with
  | zero => exact absurd hlt (Nat.not_lt_zero _)
  | succ n ih =>
    obtain ⟨x, hx, h⟩ := of_bind h
    split at h
    · obtain ⟨rest, hrest, ⟨⟩⟩ := of_bind h
      have := ih hrest (by simpa using hlt)
      rwa [length_cons, add_comm rest.length 1, ← add_assoc]
    rename_i hnone
    cases h
    exact not_cachedAt hx hnone

def ChunkCached (p : BlockPool) (hashes : BlockHashList) (gids : List ℕ) (chunk size m : ℕ) :
    Prop :=
  ∀ j < m, m * size / chunk * chunk < (j + 1) * size → CachedAt p hashes gids j

/-- The lookup goes on from the chunk of the maximal length while the blocks are cached. -/
lemma findChunkedLocal_ends {chunk cp maxLength : ℕ} {drop : Bool}
    (h : findChunkedLocal p hashes gids chunk size cp maxLength drop align = .ok rows) :
    size = align ∧ IsGreatest {e | maxLength / chunk * chunk / size ≤ e ∧ e ≤ maxLength / size ∧
      ∀ j < e, maxLength / chunk * chunk / size ≤ j → CachedAt p hashes gids j} rows.length := by
  unfold findChunkedLocal at h
  obtain ⟨_, -, h⟩ := of_bind h
  obtain ⟨_, -, h⟩ := of_bind h
  obtain ⟨_, halign, h⟩ := of_bind h
  obtain ⟨run, hloop, ⟨⟩⟩ := of_bind h
  have hstart : (if maxLength > 0 then maxLength / chunk * chunk else 0) = maxLength / chunk *
    chunk := by
    split
    · rfl
    rename_i hzero
    simp [Nat.eq_zero_of_not_pos hzero]
  simp only [hstart] at hloop ⊢
  set start := maxLength / chunk * chunk / size
  have hle : start ≤ maxLength / size := div_mul_div_le _ _ _
  obtain ⟨hlen, hrow⟩ := chunkedLoop_row hloop
  simp only [length_append, length_replicate]
  refine ⟨of_pyAssert halign, ⟨Nat.le_add_right _ _, by omega, fun j hj hge => ?_⟩, fun m hm => ?_⟩
  · obtain ⟨x, hx, hcached⟩ := hrow (getElem?_eq_getElem (by omega : j - start < run.length))
    rw [Nat.add_sub_cancel' hge] at hx
    exact ⟨x, _, hx, hcached⟩
  obtain ⟨-, hle', hcached⟩ := hm
  by_contra hlt
  exact chunkedLoop_stop hloop (by omega) (hcached _ (by omega) (Nat.le_add_right _ _))

lemma findChunkedLocal_greatest {chunk cp maxLength : ℕ} {drop : Bool} (hsize : 0 < size)
    (hchunk : size ∣ chunk)
    (h : findChunkedLocal p hashes gids chunk size cp maxLength drop align = .ok rows) :
    IsGreatest (alignedBelow size align (maxLength / size) (ChunkCached p hashes gids chunk size))
    rows.length := by
  obtain ⟨rfl, ⟨hge, hle, hcached⟩, hmax⟩ := findChunkedLocal_ends h
  set start := maxLength / chunk * chunk / size with hs
  have hex : start * size = maxLength / chunk * chunk := Nat.div_mul_cancel (hchunk.mul_left _)
  refine ⟨⟨hle, dvd_mul_left _ _, fun j hj hnear => hcached j hj ?_⟩, fun m hm => ?_⟩
  · -- The chunk of the result starts where the chunk of the maximal length does, or later.
    have hge' : maxLength / chunk * chunk ≤ rows.length * size / chunk * chunk := by
      refine Nat.mul_le_mul_right _ ?_
      rcases eq_zero_or_pos chunk with rfl | hpos
      · simp
      rw [Nat.le_div_iff_mul_le hpos, ← hex]
      exact Nat.mul_le_mul_right _ hge
    have hlt : start * size < (j + 1) * size := by omega
    exact Nat.le_of_lt_succ (Nat.lt_of_mul_lt_mul_right hlt)
  by_contra hlt
  refine hlt (hmax ⟨by omega, hm.1, fun j hj hjs => hm.2.2 j hj ?_⟩)
  calc m * size / chunk * chunk ≤ maxLength / chunk * chunk :=
        Nat.mul_le_mul_right _
          (Nat.div_le_div_right ((Nat.mul_le_mul_right _ hm.1).trans (Nat.div_mul_le_self _ _)))
    _ = start * size := hex.symm
    _ < (j + 1) * size := mul_lt_mul_of_pos_right (by omega) hsize

/-- The blocks read before that position are cached; a window of one token reads none, but its
manager looks for one. -/
def ValidHit (p : BlockPool) (hashes : BlockHashList) (gids : List ℕ) (spec : KVCacheSpec) (L : ℕ) :
    Prop :=
  match spec.attention with
  | .full => ∀ j < L / spec.blockSize, CachedAt p hashes gids j
  | .slidingWindow w => ∀ j < L / spec.blockSize, L < (j + 1) * spec.blockSize + max (w - 1) 1 →
      CachedAt p hashes gids j
  | .chunkedLocal c => ∀ j < L / spec.blockSize, L / c * c < (j + 1) * spec.blockSize →
      CachedAt p hashes gids j
  | .mamba _ _ => L = 0 ∨ CachedAt p hashes gids (L / spec.blockSize - 1)
  | .crossAttention => False

lemma isGreatest_tokens {V W : ℕ → Prop} {m maxLength : ℕ} (hsize : 0 < size) (hdvd : size ∣ align)
    (h : IsGreatest (alignedBelow size align (maxLength / size) V) m)
    (hV : ∀ m, V m ↔ W (m * size)) :
    IsGreatest {L | L ≤ maxLength ∧ align ∣ L ∧ W L} (m * size) := by
  refine ⟨⟨?_, h.1.2.1, (hV m).mp h.1.2.2⟩, fun L hL => ?_⟩
  · exact (Nat.mul_le_mul_right _ h.1.1).trans (Nat.div_mul_le_self _ _)
  obtain ⟨m', rfl⟩ := hdvd.trans hL.2.1
  rw [mul_comm] at hL ⊢
  exact Nat.mul_le_mul_right _ (h.2 ⟨(Nat.le_div_iff_mul_le hsize).mpr hL.1, hL.2.1,
    (hV m').mpr hL.2.2⟩)

lemma lt_windowBlocks_iff {w t : ℕ} (hsize : 0 < size) :
    t < windowBlocks w size ↔ t * size < max (w - 1) 1 := by
  have hcdiv : (cdiv ((w : ℤ) - 1) size).toNat ≤ t ↔ (w : ℤ) - 1 ≤ t * size := by
    rw [Int.toNat_le, cdiv_le_iff hsize]
  unfold windowBlocks
  rcases eq_zero_or_pos t with rfl | ht
  · simp
  have hpos : 1 ≤ t * size := mul_pos ht hsize
  have hcast : ((t * size : ℕ) : ℤ) = (t : ℤ) * size := by push_cast; rfl
  omega

/-- Without EAGLE the hit of one group is its longest valid one. -/
lemma findLongestCacheHit_greatest {spec : KVCacheSpec} (hsize : 0 < spec.blockSize)
    (hdvd : spec.blockSize ∣ align) (hcover : maxLength / spec.blockSize ≤ hashes.length)
    (hchunk : ∀ c, spec.attention = .chunkedLocal c → spec.blockSize ∣ c)
    (h : findLongestCacheHit p hashes gids spec 1 maxLength false align = .ok rows) :
    IsGreatest {L | L ≤ maxLength ∧ align ∣ L ∧
      ValidHit p hashes gids spec L} (rows.length * spec.blockSize) := by
  cases hatt : spec.attention with
  | full =>
    simp only [findLongestCacheHit, hatt] at h
    cases h
    rw [Nat.mul_one]
    have hmax : IsGreatest _ (findFull p hashes gids spec.blockSize maxLength false align).length :=
      findFull_greatest
    rw [min_eq_left hcover] at hmax
    refine isGreatest_tokens hsize hdvd hmax fun m => ?_
    simp only [ValidHit, hatt, Nat.mul_div_cancel _ hsize]
    exact forall₂_congr fun j hj => forall_prop_of_true (Nat.ne_zero_of_lt hj)
  | slidingWindow w =>
    simp only [findLongestCacheHit, hatt] at h
    obtain ⟨_, -, h⟩ := of_bind h
    refine isGreatest_tokens hsize hdvd (findSlidingWindow_greatest h) fun m => ?_
    simp only [ValidHit, hatt, Nat.mul_div_cancel _ hsize]
    refine forall₂_congr fun j hj => imp_congr_left ?_
    have hsub : (m - (j + 1)) * spec.blockSize = m * spec.blockSize - (j + 1) * spec.blockSize :=
      Nat.sub_mul _ _ _
    have hle : (j + 1) * spec.blockSize ≤ m * spec.blockSize := Nat.mul_le_mul_right _ hj
    have hblk : m - (j + 1) < windowBlocks w spec.blockSize ↔
        (m - (j + 1)) * spec.blockSize < max (w - 1) 1 := lt_windowBlocks_iff hsize
    rw [hsub] at hblk
    omega
  | chunkedLocal c =>
    simp only [findLongestCacheHit, hatt] at h
    refine isGreatest_tokens hsize hdvd (findChunkedLocal_greatest hsize (hchunk c hatt) h) fun m =>
      ?_
    simp only [ValidHit, hatt, Nat.mul_div_cancel _ hsize]
    rfl
  | mamba mode numSpec =>
    simp only [findLongestCacheHit, hatt] at h
    obtain ⟨_, -, h⟩ := of_bind h
    refine isGreatest_tokens hsize hdvd (mambaLoop_greatest h) fun m => ?_
    simp only [ValidHit, hatt, Nat.mul_div_cancel _ hsize]
    rw [Nat.mul_eq_zero, or_iff_left hsize.ne']
    constructor
    · intro hwindow
      rcases Nat.eq_zero_or_pos m with rfl | hpos
      · exact Or.inl rfl
      · exact Or.inr (hwindow (m - 1) (by omega) (by omega))
    rintro (rfl | hlast) j hj hnear
    · exact absurd hj (Nat.not_lt_zero j)
    obtain rfl : j = m - 1 := by omega
    exact hlast
  | crossAttention => exact absurd hatt (not_cross_of_find h)

end Vllm.CacheHit
