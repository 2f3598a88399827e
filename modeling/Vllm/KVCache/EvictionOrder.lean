import Vllm.KVCache.FreeQueue

/-! # Hashes of blocks and the order of the free queue -/

namespace Vllm

open List

namespace BlockPool

variable {p q : BlockPool} {bs : List ℕ}

/-! ## Hashes -/

def HashesCached (p : BlockPool) : Prop :=
  ∀ (b : ℕ) (key : Bytes), p.blockHash b = some key → b ∈ p.cachedBlockHashToBlock key

lemma HashesCached.congr (h : HashesCached p)
    (hcached : q.cachedBlockHashToBlock = p.cachedBlockHashToBlock)
    (hhash : ∀ b, q.blockHash b = p.blockHash b) : HashesCached q := by
  intro b key hb
  rw [hcached]
  rw [hhash] at hb
  exact h b key hb

lemma hashesCached_init (n : ℕ) (caching : Bool) (size : ℕ) (events ints : Bool) :
    HashesCached (init n caching size events ints) := by
  intro b key hb
  cases hb

section

variable (h : HashesCached p)
include h

lemma HashesCached.blockHash_maybeEvict (b c : ℕ) :
    (p.maybeEvictCachedBlock b).blockHash c = if c = b then none else p.blockHash c := by
  unfold maybeEvictCachedBlock
  split
  next hnone =>
    split
    next hc => rw [hc, hnone]
    · rfl
  rename_i key hkey
  rw [if_pos (h b key hkey), blockHash_emit, blockHash_setHash]
  rfl

lemma HashesCached.maybeEvict (hmap : MapOk p) (b : ℕ) :
    HashesCached (p.maybeEvictCachedBlock b) := by
  intro c key hc
  rw [h.blockHash_maybeEvict] at hc
  split at hc
  · cases hc
  next hne => exact (mem_cached_maybeEvict hmap).mpr ⟨h c key hc, hne⟩

lemma HashesCached.getNewBlocks {n : ℤ} (hmap : MapOk p) (hq : p.getNewBlocks n = .ok (bs, q)) :
    HashesCached q := by
  have hboth : MapOk q ∧ HashesCached q :=
    getNewBlocks_rule (P := fun q => MapOk q ∧ HashesCached q)
    (fun _ b h => ⟨h.1.maybeEvict b, h.2.maybeEvict h.1 b⟩)
    (fun p' b h => ⟨h.1.addRef b 1, h.2.congr rfl (blockHash_addRef p' b 1)⟩) hq
    ⟨hmap.congr rfl fun _ => rfl, h.congr rfl fun _ => rfl⟩
  exact hboth.2

lemma HashesCached.blockHash_takeBlocks (hmap : MapOk p)
    (hcach : p.enableCaching = true) (hq : takeBlocks bs p = .ok q) (c : ℕ) :
    q.blockHash c = if c ∈ bs then none else p.blockHash c := by
  induction bs generalizing p with
  | nil =>
    cases hq
    simp
  | cons b bs ih =>
    unfold BlockPool.takeBlocks at hq
    dsimp only at hq
    rw [if_pos hcach] at hq
    split at hq
    · have hevict : HashesCached ((p.maybeEvictCachedBlock b).addRef b 1) :=
        (h.maybeEvict hmap b).congr rfl (blockHash_addRef _ b 1)
      have hon : ((p.maybeEvictCachedBlock b).addRef b 1).enableCaching = true :=
        (sameQueue_maybeEvict p b).caching.trans hcach
      rw [ih hevict ((hmap.maybeEvict b).addRef b 1) hon hq, blockHash_addRef,
        h.blockHash_maybeEvict]
      by_cases hcb : c = b <;> simp [hcb]
    · cases hq

lemma HashesCached.blockHash_getNewBlocks {n : ℤ} (hmap : MapOk p)
    (hcach : p.enableCaching = true) (hq : p.getNewBlocks n = .ok (bs, q)) (c : ℕ) :
    q.blockHash c = if c ∈ bs then none else p.blockHash c := by
  have hhs : HashesCached (p.dropFree n) := h.congr rfl fun _ => rfl
  exact hhs.blockHash_takeBlocks (hmap.congr rfl fun _ => rfl) hcach (getNewBlocks_eq hq).2.2 c

lemma HashesCached.insert (b : ℕ) (key : Bytes) :
    HashesCached ((p.setHash b (some key)).insertCached key b) := by
  intro c key' hc
  have hset : ((p.setHash b (some key)).insertCached key b).blockHash c =
      if c = b then some key else p.blockHash c := blockHash_setHash p b (some key) c
  rw [hset] at hc
  rw [mem_insertCached]
  split at hc
  next hcb => exact .inr ⟨hcb, (Option.some.inj hc).symm⟩
  · exact .inl (h c key' hc)

lemma HashesCached.cacheFullBlocks {env : HashEnv} {r : Request} {blocks : List ℕ}
    {first last size gid : ℕ} {mask : Option (List Bool)}
    (hq : p.cacheFullBlocks env r blocks first last size gid mask = .ok q) : HashesCached q :=
  cacheFullBlocks_rule (fun _ b key _ h => h.insert b key)
    (fun p' e h => h.congr (cached_emit p' e) (blockHash_emit p' e)) hq h

end

lemma blockHash_cacheLoop {gid : ℕ} {hashes : List Bytes} {mask : List Bool}
    {stored : List ExternalBlockHash} (hq : cacheLoop gid bs hashes mask p = .ok (q, stored))
    {c : ℕ} (hc : c ∉ bs) : q.blockHash c = p.blockHash c := by
  induction bs generalizing p hashes mask stored with
  | nil =>
    cases hq
    rfl
  | cons b bs ih =>
    obtain ⟨hcb, hcs⟩ := not_or.mp (mem_cons.not.mp hc)
    unfold BlockPool.cacheLoop at hq
    split at hq
    · exact ih hq hcs
    split at hq
    · cases hq
    split at hq
    · cases hq
    obtain ⟨⟨p', stored'⟩, hloop, ⟨⟩⟩ := of_bind hq
    rw [ih hloop hcs]
    exact (blockHash_setHash p b _ c).trans (if_neg hcb)

lemma blockHash_cacheFullBlocks {env : HashEnv} {r : Request} {blocks : List ℕ}
    {first last size gid : ℕ} {mask : Option (List Bool)}
    (hq : p.cacheFullBlocks env r blocks first last size gid mask = .ok q) {c : ℕ}
    (hc : c ∉ slice blocks first last) : q.blockHash c = p.blockHash c := by
  obtain ⟨-, rfl⟩ | ⟨-, hashes, p', stored, -, hloop, ⟨-, rfl⟩ | ⟨-, e, -, rfl⟩⟩ :=
    cacheFullBlocks_eq hq
  · rfl
  · exact blockHash_cacheLoop hloop hc
  · rw [blockHash_emit, blockHash_cacheLoop hloop hc]

lemma HashesCached.reset (h : HashesCached p) : HashesCached p.resetPrefixCache.2 := by
  unfold resetPrefixCache
  split
  · exact h
  intro b key hb
  rw [blockHash_emit] at hb
  cases hb

lemma sublist_touch {bs l : List ℕ} (hq : touch bs p = .ok q) (hl : l.Sublist p.freeBlockQueue)
    (hnot : ∀ b ∈ l, b ∉ bs) : l.Sublist q.freeBlockQueue := by
  induction bs generalizing p with
  | nil =>
    cases hq
    exact hl
  | cons b bs ih =>
    have hrest : ∀ c ∈ l, c ∉ bs := fun c hc hmem => hnot c hc (mem_cons_of_mem b hmem)
    obtain ⟨p', hrun, ⟨-, -, -, rfl⟩ | ⟨-, rfl⟩⟩ := touch_cons hq
    · refine ih hrun ?_ hrest
      have hb : b ∉ l := fun hb => hnot b hb mem_cons_self
      rw [← erase_of_not_mem hb]
      exact hl.erase b
    · exact ih hrun hl hrest

lemma releaseBlocks_withHash (hnd : bs.Nodup) : (releaseBlocks bs p).2.2 =
      bs.filter fun b => p.refCnt b = 1 ∧ b ≠ nullBlock ∧ p.blockHash b ≠ none := by
  induction bs generalizing p with
  | nil => rfl
  | cons b bs ih =>
    obtain ⟨hb, hnd⟩ := nodup_cons.mp hnd
    have hrest : (releaseBlocks bs (p.addRef b (-1))).2.2 =
        bs.filter fun c => p.refCnt c = 1 ∧ c ≠ nullBlock ∧ p.blockHash c ≠ none := by
      rw [ih hnd]
      refine filter_congr fun c hc => ?_
      have hcb : c ≠ b := fun hcb => hb (hcb ▸ hc)
      rw [refCnt_addRef, if_neg hcb, add_zero, blockHash_addRef]
    have hlast : (p.addRef b (-1)).refCnt b = 0 ↔ p.refCnt b = 1 := by
      rw [refCnt_addRef]
      omega
    simp only [releaseBlocks, hlast]
    split_ifs with hfree
    · rw [blockHash_addRef]
      cases hhash : p.blockHash b with
      | none => rw [hrest, filter_cons_of_neg (by simp [hhash])]
      | some key => rw [hrest, filter_cons_of_pos (by simp [hhash, hfree])]
    rw [hrest, filter_cons_of_neg]
    intro h
    obtain ⟨hone, hnull, -⟩ := of_decide_eq_true h
    exact hfree ⟨hone, hnull⟩

lemma releaseBlocks_withoutHash {b : ℕ} (hb : b ∈ (releaseBlocks bs p).2.1) :
    p.blockHash b = none := by
  induction bs generalizing p with
  | nil => cases hb
  | cons c bs ih =>
    simp only [releaseBlocks] at hb
    split at hb
    · split at hb
      next hnone =>
        rcases mem_cons.mp hb with rfl | hb
        · rwa [blockHash_addRef] at hnone
        · rw [← blockHash_addRef p c (-1), ih hb]
      · rw [← blockHash_addRef p c (-1), ih hb]
    · rw [← blockHash_addRef p c (-1), ih hb]

end BlockPool

end Vllm
