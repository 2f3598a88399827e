import Vllm.KVCache.EvictionOrder
import Vllm.KVCache.LinkedPoolProof
import Vllm.Lib.Lockstep

/-!
# The linked pool refines the pool over lists

Both return related pools or raise the same exception, unless `free_blocks` puts a block into the
free list twice.
-/

namespace Vllm.LinkedPool

open BlockPool LinkedPool

variable {lp : LinkedPool} {p : BlockPool}

/-- The linked pool holds what the pool over lists holds. -/
structure Refines (lp : LinkedPool) (p : BlockPool) : Prop where
  size : lp.numGpuBlocks = p.numGpuBlocks
  caching : lp.enableCaching = p.enableCaching
  hashSize : lp.hashBlockSize = p.hashBlockSize
  events : lp.enableKvCacheEvents = p.enableKvCacheEvents
  ints : lp.useIntBlockHashes = p.useIntBlockHashes
  blocks : lp.blocks = p.blocks
  queue : lp.freeBlockQueue.Holds p.freeBlockQueue
  count : lp.freeBlockQueue.numFreeBlocks = p.numFreeBlocks
  map : lp.cachedBlockHashToBlock.Holds p.cachedBlockHashToBlock
  log : lp.kvEventQueue = p.kvEventQueue

section

variable (h : lp.Refines p)
include h

variable (b : ℕ)

lemma Refines.addRef (d : ℤ) : (lp.addRef b d).Refines (p.addRef b d) :=
  { h with blocks := by simp only [LinkedPool.addRef, BlockPool.addRef, h.blocks] }

lemma Refines.setHash (key : Option Bytes) : (lp.setHash b key).Refines (p.setHash b key) :=
  { h with blocks := by simp only [LinkedPool.setHash, BlockPool.setHash, h.blocks] }

lemma Refines.emit (e : KVCacheEvent) : (lp.emit e).Refines (p.emit e) := by
  unfold LinkedPool.emit BlockPool.emit
  by_cases hon : p.enableKvCacheEvents = true
  · rw [if_pos (h.events.trans hon), if_pos hon]
    exact { h with log := by rw [h.log] }
  · rw [if_neg (h.events ▸ hon), if_neg hon]
    exact h

lemma Refines.refCnt : (lp.blocks b).refCnt = p.refCnt b := by
  rw [h.blocks]
  rfl

lemma Refines.blockHash : (lp.blocks b).blockHash = p.blockHash b := by
  rw [h.blocks]
  rfl

lemma Refines.maybeEvict : (lp.maybeEvictCachedBlock b).Refines (p.maybeEvictCachedBlock b) := by
  unfold LinkedPool.maybeEvictCachedBlock BlockPool.maybeEvictCachedBlock
  rw [h.blockHash]
  cases p.blockHash b with
  | none => exact h
  | some key =>
    obtain ⟨hpopped, hmap⟩ := h.map.pop key b
    have hpool :
      { lp with cachedBlockHashToBlock := (lp.cachedBlockHashToBlock.pop key b).2 }.Refines
        (p.popCached key b) := { h with map := hmap }
    dsimp only
    by_cases hb : b ∈ p.cachedBlockHashToBlock key
    · rw [hpopped, if_pos hb, if_pos hb, ← h.ints]
      exact (hpool.setHash b none).emit _
    rw [hpopped, if_neg hb, if_neg hb]
    have hsame : p.popCached key b = p := by
      simp only [popCached, List.erase_of_not_mem hb, Function.update_eq_self]
    rw [hsame] at hpool
    exact hpool

variable (bs : List ℕ)

lemma Refines.takeBlocks : Lockstep Refines (takeBlocks bs lp) (BlockPool.takeBlocks bs p) := by
  induction bs generalizing lp p with
  | nil => exact h
  | cons b bs ih =>
    unfold takeBlocks BlockPool.takeBlocks
    dsimp only
    have hevict : (if lp.enableCaching then lp.maybeEvictCachedBlock b else lp).Refines
        (if p.enableCaching then p.maybeEvictCachedBlock b else p) := by
      rw [h.caching]
      split
      · exact h.maybeEvict b
      · exact h
    generalize (if lp.enableCaching then lp.maybeEvictCachedBlock b else lp) = lp' at hevict ⊢
    generalize (if p.enableCaching then p.maybeEvictCachedBlock b else p) = p' at hevict ⊢
    rw [hevict.refCnt]
    split
    · exact ih (hevict.addRef b 1)
    · rfl

lemma Refines.getNewBlocks (n : ℤ) :
    Lockstep (fun x y => x.1 = y.1 ∧ x.2.Refines y.2) (lp.getNewBlocks n) (p.getNewBlocks n) := by
  unfold LinkedPool.getNewBlocks BlockPool.getNewBlocks
  rw [h.count]
  split
  · rfl
  rename_i hle
  have hle : n ≤ p.numFreeBlocks := not_lt.mp hle
  have hpop : Lockstep (fun x y => x.1 = y.1 ∧ { lp with freeBlockQueue := x.2 }.Refines y.2)
      (lp.freeBlockQueue.popleftN n) (p.popleftN n) := by
    unfold popleftN
    by_cases hn : n = 0
    · rw [if_pos hn, FreeKVCacheBlockQueue.popleftN, if_pos hn]
      exact ⟨rfl, h⟩
    rw [if_neg hn, if_neg (not_lt.mpr hle)]
    have hqueue := h.queue.popleftN hn (h.count ▸ hle)
    split at hqueue
    next hlt =>
      rw [hqueue, if_pos hlt]
      rfl
    rename_i hlt
    obtain ⟨q', hq, hholds, hcnt⟩ := hqueue
    rw [hq, if_neg hlt]
    exact ⟨rfl, { h with queue := hholds, count := by rw [hcnt, h.count] }⟩
  refine hpop.bind fun x y hxy => ?_
  obtain ⟨ret, queue⟩ := x
  obtain ⟨ret', p'⟩ := y
  obtain ⟨rfl, hpool⟩ : ret = ret' ∧ _ := hxy
  exact (hpool.takeBlocks ret).bind fun _ _ hq => ⟨rfl, hq⟩

lemma Refines.touch : Lockstep Refines (touch bs lp) (BlockPool.touch bs p) := by
  induction bs generalizing lp p with
  | nil => exact h
  | cons b bs ih =>
    unfold touch BlockPool.touch
    rw [h.refCnt]
    split
    · have hremove : Lockstep (fun q p' => { lp with freeBlockQueue := q }.Refines p')
          (lp.freeBlockQueue.remove b) (p.removeFree b) := by
        have hqueue := h.queue.remove b
        unfold BlockPool.removeFree
        split at hqueue
        next hb =>
          obtain ⟨q', hq, hholds, hcnt⟩ := hqueue
          rw [hq, if_pos hb]
          exact { h with queue := hholds, count := by rw [hcnt, h.count] }
        rename_i hb
        rw [hqueue, if_neg hb]
        rfl
      exact hremove.bind fun q p' hq => ih (hq.addRef b 1)
    · exact ih (h.addRef b 1)

lemma Refines.releaseBlocks : (releaseBlocks bs lp).1.Refines (BlockPool.releaseBlocks bs p).1 ∧
      (releaseBlocks bs lp).2 = (BlockPool.releaseBlocks bs p).2 := by
  induction bs generalizing lp p with
  | nil => exact ⟨h, rfl⟩
  | cons b bs ih =>
    have hb := h.addRef b (-1)
    obtain ⟨hrest, hlists⟩ := ih hb
    simp only [releaseBlocks, BlockPool.releaseBlocks, hb.refCnt, hb.blockHash]
    split
    · cases (p.addRef b (-1)).blockHash b with
      | none => exact ⟨hrest, by rw [hlists]⟩
      | some key => exact ⟨hrest, by rw [hlists]⟩
    · exact ⟨hrest, hlists⟩

lemma Refines.freeBlocks (hnd : (p.freeBlocks bs).freeBlockQueue.Nodup) :
    ∃ lp', lp.freeBlocks bs = .ok lp' ∧ lp'.Refines (p.freeBlocks bs) := by
  obtain ⟨hpool, hlists⟩ := h.releaseBlocks bs
  have hqueue := hpool.queue
  rw [(sameQueue_releaseBlocks bs p).queue] at hqueue
  rw [queue_freeBlocks] at hnd
  unfold LinkedPool.freeBlocks
  generalize LinkedPool.releaseBlocks bs lp = out at hpool hqueue hlists ⊢
  obtain ⟨lp1, withoutHash, withHash⟩ := out
  obtain ⟨rfl, rfl⟩ := Prod.mk.inj hlists
  obtain ⟨hfront, hback, hdisj⟩ := List.nodup_append.mp hnd
  obtain ⟨hfront', -, hdisj'⟩ := List.nodup_append.mp hfront
  obtain ⟨q1, hq1, hholds1, hcount1⟩ :=
    hqueue.prependN hfront' fun b hb hmem => hdisj' b hb b hmem rfl
  obtain ⟨q2, hq2, hholds2, hcount2⟩ := hholds1.appendN hback fun b hb hmem => hdisj b hmem b hb rfl
  dsimp only at hpool ⊢
  rw [hq1, ok_bind, hq2, ok_bind]
  refine ⟨_, rfl, { hpool with queue := ?_, count := ?_ }⟩
  · rw [queue_freeBlocks]
    exact hholds2
  · show q2.numFreeBlocks = (BlockPool.releaseBlocks bs p).1.numFreeBlocks + _ + _
    rw [hcount2, hcount1, hpool.count]

lemma Refines.evictBlocks (ids : List ℕ) :
    Lockstep Refines (evictBlocks ids lp) (BlockPool.evictBlocks ids p) := by
  induction ids generalizing lp p with
  | nil => exact h
  | cons b bs ih =>
    unfold evictBlocks BlockPool.evictBlocks
    rw [h.size]
    split
    · exact ih (h.maybeEvict b)
    · rfl

lemma Refines.reset : lp.resetPrefixCache.2.Refines p.resetPrefixCache.2 := by
  have hcond : ((lp.numGpuBlocks : ℤ) - lp.freeBlockQueue.numFreeBlocks ≠ 1) ↔
      ((p.numGpuBlocks : ℤ) - p.numFreeBlocks ≠ 1) := by rw [h.size, h.count]
  unfold LinkedPool.resetPrefixCache BlockPool.resetPrefixCache
  by_cases hused : (p.numGpuBlocks : ℤ) - p.numFreeBlocks ≠ 1
  · rw [if_pos (hcond.mpr hused), if_pos hused]
    exact h
  rw [if_neg (hcond.not.mpr hused), if_neg hused]
  have hclear : Refines
      { lp with
        cachedBlockHashToBlock := {}
        blocks := fun b => { lp.blocks b with blockHash := none } }
      { p with
        cachedBlockHashToBlock := fun _ => []
        blocks := fun b => { p.blocks b with blockHash := none } } :=
    { h with
      blocks := by rw [h.blocks]
      map := ⟨fun _ => rfl, fun _ => by simp⟩ }
  exact hclear.emit _

lemma Refines.cacheLoop (gid : ℕ) (bs : List ℕ) (hashes : List Bytes)
    (mask : List Bool) : Lockstep (fun x y => x.1.Refines y.1 ∧ x.2 = y.2)
      (cacheLoop gid bs hashes mask lp) (BlockPool.cacheLoop gid bs hashes mask p) := by
  induction bs generalizing lp p hashes mask with
  | nil => exact ⟨h, rfl⟩
  | cons b bs ih =>
    unfold LinkedPool.cacheLoop BlockPool.cacheLoop
    rw [h.blockHash, h.ints]
    split
    · exact ih h hashes.tail mask.tail
    split
    · rfl
    cases hashes.head? with
    | none => rfl
    | some x =>
      let key := makeBlockHashWithGroupId x gid
      have hset := h.setHash b (some key)
      have hinsert : LinkedPool.Refines
          { lp.setHash b (some key) with
            cachedBlockHashToBlock :=
              (lp.setHash b (some key)).cachedBlockHashToBlock.insert key b }
          ((p.setHash b (some key)).insertCached key b) :=
        { hset with map := hset.map.insert key b }
      refine (ih hinsert hashes.tail mask.tail).bind fun y z hyz => ?_
      exact ⟨hyz.1, congrArg _ hyz.2⟩

lemma Refines.cacheFullBlocks (env : HashEnv) (r : Request) (blocks : List ℕ)
    (numCached numFull size gid : ℕ) (mask : Option (List Bool)) : Lockstep Refines
      (lp.cacheFullBlocks env r blocks numCached numFull size gid mask)
      (p.cacheFullBlocks env r blocks numCached numFull size gid mask) := by
  unfold LinkedPool.cacheFullBlocks BlockPool.cacheFullBlocks
  split
  · exact h
  rw [h.hashSize]
  refine (Lockstep.same _).bind fun _ _ _ => (Lockstep.same _).bind fun _ _ _ =>
    (Lockstep.same _).bind fun hashes hashes' hhs => ?_
  subst hhs
  refine (h.cacheLoop gid _ _ _).bind fun x y hxy => ?_
  obtain ⟨hpool, hsto⟩ := hxy
  dsimp only
  rw [hpool.events, hpool.ints, hsto]
  split
  · refine (Lockstep.same _).bind fun e e' he => ?_
    subst he
    exact hpool.emit e
  · exact hpool

end

end Vllm.LinkedPool
