import Vllm.KVCache.BlockPoolProof

/-! # Which blocks are cached after a call on the pool -/

namespace Vllm.BlockPool

open List

variable {p q : BlockPool} {key : Bytes} {bs : List ℕ}

lemma getBlockHash_make (h : Bytes) (gid : ℕ) :
    getBlockHash (makeBlockHashWithGroupId h gid) = h := by
  simp [getBlockHash, makeBlockHashWithGroupId, groupIdBytes]

lemma getGroupId_make (h : Bytes) {gid : ℕ} (hgid : gid < 2 ^ 32) :
    getGroupId (makeBlockHashWithGroupId h gid) = gid := by
  have hdrop : (makeBlockHashWithGroupId h gid).drop ((makeBlockHashWithGroupId h gid).length - 4) =
      groupIdBytes gid := by
    simp [makeBlockHashWithGroupId, groupIdBytes]
  rw [getGroupId, hdrop]
  simp only [intOfBytes, groupIdBytes, foldl_cons, foldl_nil, UInt8.toNat_ofNat']
  omega

lemma mem_cached_maybeEvict (h : MapOk p) {b c : ℕ} :
    c ∈ (p.maybeEvictCachedBlock b).cachedBlockHashToBlock key ↔
      c ∈ p.cachedBlockHashToBlock key ∧ c ≠ b := by
  -- If the map does not hold `b` under its own hash, it does not hold it at all.
  have hkept : (∀ key', p.blockHash b = some key' → b ∉ p.cachedBlockHashToBlock key') →
      (c ∈ p.cachedBlockHashToBlock key ↔ c ∈ p.cachedBlockHashToBlock key ∧ c ≠ b) := by
    intro hnot
    refine ⟨fun hc => ⟨hc, ?_⟩, And.left⟩
    rintro rfl
    exact hnot key (h.keyed hc) hc
  unfold maybeEvictCachedBlock
  split
  next hnone =>
    apply hkept
    intro key' hkey'
    rw [hnone] at hkey'
    cases hkey'
  rename_i key0 hkey0
  split
  next hmem =>
    rw [cached_emit]
    rcases eq_or_ne key key0 with rfl | hk
    · simp only [setHash, popCached, Function.update_self]
      rw [(h.nodup key).mem_erase_iff]
      exact and_comm
    simp only [setHash, popCached, Function.update_of_ne hk]
    refine ⟨fun hc => ⟨hc, ?_⟩, And.left⟩
    rintro rfl
    exact hk (Option.some.inj ((h.keyed hc).symm.trans hkey0))
  rename_i hmem
  apply hkept
  intro key' hkey'
  rwa [← Option.some.inj (hkey0.symm.trans hkey')]

lemma mem_cached_takeBlocks (h : MapOk p) (hcach : p.enableCaching = true)
    (hq : takeBlocks bs p = .ok q) {c : ℕ} :
    c ∈ q.cachedBlockHashToBlock key ↔ c ∈ p.cachedBlockHashToBlock key ∧ c ∉ bs := by
  induction bs generalizing p with
  | nil =>
    cases hq
    simp
  | cons b bs ih =>
    unfold takeBlocks at hq
    dsimp only at hq
    rw [if_pos hcach] at hq
    split at hq
    · have hmap : MapOk ((p.maybeEvictCachedBlock b).addRef b 1) := (h.maybeEvict b).addRef b 1
      have hon : ((p.maybeEvictCachedBlock b).addRef b 1).enableCaching = true :=
        (sameQueue_maybeEvict p b).caching.trans hcach
      rw [ih hmap hon hq]
      have hsame : ((p.maybeEvictCachedBlock b).addRef b 1).cachedBlockHashToBlock key =
          (p.maybeEvictCachedBlock b).cachedBlockHashToBlock key := rfl
      rw [hsame, mem_cached_maybeEvict h, mem_cons, not_or, and_assoc]
    · cases hq

lemma mem_cached_getNewBlocks {n : ℤ} (h : MapOk p) (hcach : p.enableCaching = true)
    (hq : p.getNewBlocks n = .ok (bs, q)) {c : ℕ} :
    c ∈ q.cachedBlockHashToBlock key ↔ c ∈ p.cachedBlockHashToBlock key ∧ c ∉ bs := by
  have hmap : MapOk (p.dropFree n) := h.congr rfl fun _ => rfl
  exact mem_cached_takeBlocks hmap hcach (getNewBlocks_eq hq).2.2

lemma cached_maybeEvict_subset (p : BlockPool) (b : ℕ) (key : Bytes) :
    (p.maybeEvictCachedBlock b).cachedBlockHashToBlock key ⊆ p.cachedBlockHashToBlock key := by
  unfold maybeEvictCachedBlock
  split
  · exact List.Subset.refl _
  rename_i key' _
  split
  · rcases eq_or_ne key key' with rfl | hk
    · simpa [setHash, popCached] using erase_subset
    · simp [setHash, popCached, hk]
  · exact List.Subset.refl _

lemma cached_getNewBlocks_subset {n : ℤ} (hq : p.getNewBlocks n = .ok (bs, q))
    (key : Bytes) : q.cachedBlockHashToBlock key ⊆ p.cachedBlockHashToBlock key :=
  getNewBlocks_rule (P := fun q => q.cachedBlockHashToBlock key ⊆ p.cachedBlockHashToBlock key)
    (fun p' b h => List.Subset.trans (cached_maybeEvict_subset p' b key) h) (fun _ _ h => h) hq
    (List.Subset.refl _)

lemma cached_evictBlocks_subset {ids : List ℕ} (hq : evictBlocks ids p = .ok q) (key : Bytes) :
    q.cachedBlockHashToBlock key ⊆ p.cachedBlockHashToBlock key :=
  evictBlocks_rule (P := fun q => q.cachedBlockHashToBlock key ⊆ p.cachedBlockHashToBlock key)
    (fun p' b h => List.Subset.trans (cached_maybeEvict_subset p' b key) h) hq (List.Subset.refl _)

lemma cached_reset_subset (p : BlockPool) (key : Bytes) :
    p.resetPrefixCache.2.cachedBlockHashToBlock key ⊆ p.cachedBlockHashToBlock key := by
  unfold resetPrefixCache
  split
  · exact List.Subset.refl _
  · rw [emit_eq]
    exact nil_subset _

lemma mem_insertCached {b c : ℕ} {key key' : Bytes} :
    c ∈ ((p.setHash b (some key)).insertCached key b).cachedBlockHashToBlock key' ↔
      c ∈ p.cachedBlockHashToBlock key' ∨ (c = b ∧ key' = key) := by
  rcases eq_or_ne key' key with rfl | hk
  · by_cases hb : b ∈ p.cachedBlockHashToBlock key'
    · simp only [insertCached, setHash, hb, if_true, Function.update_self, and_true]
      refine ⟨Or.inl, ?_⟩
      rintro (hc | rfl)
      · exact hc
      · exact hb
    · simp [insertCached, setHash, hb]
  · simp [insertCached, setHash, hk]

/-- What is cached after `cache_full_blocks`: what was, and the blocks that the mask lets through.
-/
lemma mem_cached_cacheLoop {gid : ℕ} {hashes : List Bytes} {mask : List Bool}
    {stored : List ExternalBlockHash} (hq : cacheLoop gid bs hashes mask p = .ok (q, stored))
    {c : ℕ} :
    c ∈ q.cachedBlockHashToBlock key ↔ c ∈ p.cachedBlockHashToBlock key ∨
      ∃ (j : ℕ) (x : Bytes), bs[j]? = some c ∧ hashes[j]? = some x ∧ mask[j]?.getD true = true ∧
      c ≠ nullBlock ∧
        key = makeBlockHashWithGroupId x gid := by
  induction bs generalizing p hashes mask stored with
  | nil =>
    cases hq
    simp
  | cons b bs ih =>
    have hnext : (∃ (j : ℕ) (x : Bytes), bs[j]? = some c ∧ hashes.tail[j]? = some x ∧
      mask.tail[j]?.getD true = true ∧
          c ≠ nullBlock ∧ key = makeBlockHashWithGroupId x gid) ↔
        ∃ (j : ℕ) (x : Bytes), j ≠ 0 ∧ (b :: bs)[j]? = some c ∧ hashes[j]? = some x ∧
          mask[j]?.getD true = true ∧
          c ≠ nullBlock ∧ key = makeBlockHashWithGroupId x gid := by
      constructor
      · rintro ⟨j, x, hj⟩
        exact ⟨j + 1, x, Nat.succ_ne_zero j, by simpa using hj⟩
      rintro ⟨j, x, hne, hj⟩
      obtain ⟨i, rfl⟩ := Nat.exists_eq_succ_of_ne_zero hne
      exact ⟨i, x, by simpa using hj⟩
    unfold cacheLoop at hq
    split at hq
    next hskip =>
      rw [ih hq, hnext]
      refine or_congr_right ⟨?_, ?_⟩
      · rintro ⟨j, x, -, hj⟩
        exact ⟨j, x, hj⟩
      rintro ⟨j, x, hc, hx, hmask, hnull, hkey⟩
      refine ⟨j, x, ?_, hc, hx, hmask, hnull, hkey⟩
      -- The first block is not stored.
      rintro rfl
      obtain rfl : b = c := by simpa using hc
      rcases hskip with hb | hb
      · exact hnull hb
      · rw [headD_eq_head?_getD, head?_eq_getElem?, hmask] at hb
        cases hb
    rename_i hkeep
    split at hq
    · cases hq
    split at hq
    · cases hq
    rename_i x hx
    obtain ⟨⟨p', stored'⟩, hloop, ⟨⟩⟩ := of_bind hq
    rw [head?_eq_getElem?] at hx
    have hmask : mask[0]?.getD true = true := by
      rw [← head?_eq_getElem?, ← headD_eq_head?_getD]
      exact eq_true_of_ne_false fun hm => hkeep (.inr hm)
    rw [ih hloop, mem_insertCached, hnext, or_assoc]
    refine or_congr_right ⟨?_, ?_⟩
    · rintro (⟨rfl, rfl⟩ | ⟨j, y, -, hj⟩)
      · exact ⟨0, x, rfl, hx, hmask, fun hb => hkeep (.inl hb), rfl⟩
      · exact ⟨j, y, hj⟩
    rintro ⟨j, y, hc, hy, hrest⟩
    rcases Nat.eq_zero_or_pos j with rfl | hpos
    · obtain rfl : b = c := by simpa using hc
      obtain rfl := Option.some.inj (hx.symm.trans hy)
      exact .inl ⟨rfl, hrest.2.2⟩
    · exact .inr ⟨j, y, hpos.ne', hc, hy, hrest⟩

lemma mem_cached_cacheFullBlocks {env : HashEnv} {r : Request} {blocks : List ℕ}
    {first last size gid : ℕ} {mask : Option (List Bool)} (hlt : first < last)
    (hq : p.cacheFullBlocks env r blocks first last size gid mask = .ok q) :
    ∃ hashes, blockHashesAt p.hashBlockSize size r.blockHashes = .ok hashes ∧
    ∀ {c : ℕ} {key : Bytes},
      c ∈ q.cachedBlockHashToBlock key ↔ c ∈ p.cachedBlockHashToBlock key ∨
        ∃ (i : ℕ) (x : Bytes), first ≤ i ∧ i < last ∧ blocks[i]? = some c ∧
        hashes.toList[i]? = some x ∧
          (mask.getD [])[i - first]?.getD true = true ∧ c ≠ nullBlock ∧
          key = makeBlockHashWithGroupId x gid := by
  obtain ⟨hge, -⟩ | ⟨-, hashes, p', stored, hhs, hloop, hq⟩ := cacheFullBlocks_eq hq
  · omega
  refine ⟨hashes, hhs, fun {c key} => ?_⟩
  have hsame : q.cachedBlockHashToBlock = p'.cachedBlockHashToBlock := by
    obtain ⟨-, rfl⟩ | ⟨-, e, -, rfl⟩ := hq
    · rfl
    · exact cached_emit p' e
  rw [hsame, mem_cached_cacheLoop hloop]
  refine or_congr_right ⟨?_, ?_⟩
  · rintro ⟨j, x, hc, hx, hrest⟩
    rw [slice, getElem?_drop, getElem?_take] at hc
    split at hc
    next hj =>
      rw [getElem?_drop] at hx
      exact ⟨first + j, x, Nat.le_add_right _ _, hj, hc, hx, by simpa using hrest⟩
    · cases hc
  rintro ⟨i, x, hfst, hlast, hc, hx, hrest⟩
  refine ⟨i - first, x, ?_, ?_, hrest⟩
  · rw [slice, getElem?_drop, Nat.add_sub_cancel' hfst, getElem?_take, if_pos hlast, hc]
  · rw [getElem?_drop, Nat.add_sub_cancel' hfst, hx]

end Vllm.BlockPool
