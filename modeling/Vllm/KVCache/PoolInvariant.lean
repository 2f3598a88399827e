import Vllm.KVCache.LinkedPool
import Vllm.KVCache.EvictionOrder

/-! # What every call on the pool keeps -/

namespace Vllm

open List

/-- Callers pass blocks of the pool, free only references that they hold, and ask for no negative
number. -/
def PoolCall.Allowed (numGpuBlocks : ℕ) (refCnt : ℕ → ℤ) : PoolCall → Prop
  | .getNewBlocks n => 0 ≤ n
  | .touch blocks => ∀ b ∈ blocks, b ≠ nullBlock → b < numGpuBlocks
  | .freeBlocks blocks => ∀ b, b ≠ nullBlock → (blocks.count b : ℤ) ≤ refCnt b
  | .cacheFullBlocks _ _ blocks _ _ _ _ _ => ∀ b ∈ blocks, b ≠ nullBlock → b < numGpuBlocks
  | _ => True

namespace BlockPool

variable {p q : BlockPool} {bs : List ℕ}

/-- The invariants of the pool over lists. -/
structure PoolOk (p : BlockPool) : Prop where
  free : FreeOk p
  map : MapOk p
  hashes : HashesCached p
  nonneg : ∀ b, b ≠ nullBlock → 0 ≤ p.refCnt b

lemma poolOk_init (n : ℕ) (caching : Bool) (size : ℕ) (events ints : Bool) (hn : 0 < n) :
    PoolOk (init n caching size events ints) where
  free := freeOk_init n caching size events ints hn
  map := mapOk_init n caching size events ints
  hashes := hashesCached_init n caching size events ints
  nonneg _ _ := le_refl (0 : ℤ)

section

variable (h : PoolOk p)
include h

lemma PoolOk.mem_cached_iff {b : ℕ} {key : Bytes} :
    b ∈ p.cachedBlockHashToBlock key ↔ p.blockHash b = some key :=
  ⟨fun hb => h.map.keyed hb, h.hashes b key⟩

lemma PoolOk.getNewBlocks {n : ℤ} (hn : 0 ≤ n) (hq : p.getNewBlocks n = .ok (bs, q)) :
    PoolOk q := by
  obtain ⟨hmap, -, -, hrefs⟩ := getNewBlocks_spec h.map hq
  refine ⟨(h.free.getNewBlocks h.map hn hq).1, hmap, h.hashes.getNewBlocks h.map hq, fun b hb => ?_⟩
  have := h.nonneg b hb
  rw [hrefs]
  omega

lemma PoolOk.touch_round {b : ℕ} (hb : b ≠ nullBlock → b < p.numGpuBlocks) :
    (p.refCnt b = 0 ∧ b ≠ nullBlock → b ∈ p.freeBlockQueue ∧ PoolOk ((p.eraseFree b).addRef b 1)) ∧
      (¬ (p.refCnt b = 0 ∧ b ≠ nullBlock) → PoolOk (p.addRef b 1)) := by
  have hnonneg : ∀ c, c ≠ nullBlock → 0 ≤ (p.addRef b 1).refCnt c := by
    intro c hc
    have := h.nonneg c hc
    rw [refCnt_addRef]
    split <;> omega
  refine ⟨fun hev => ?_, fun hev => ?_⟩
  · have hmem := h.free.all hev.2 (hb hev.2) hev.1
    exact ⟨hmem, h.free.eraseFree hmem, h.map.congr rfl (blockHash_addRef _ b 1),
      h.hashes.congr rfl (blockHash_addRef _ b 1), hnonneg⟩
  have hheld : b = nullBlock ∨ 0 < p.refCnt b := by
    by_contra hcon
    rw [not_or] at hcon
    have := h.nonneg b hcon.1
    exact hev ⟨by omega, hcon.1⟩
  exact ⟨h.free.addRef_one hheld, h.map.addRef b 1, h.hashes.congr rfl (blockHash_addRef p b 1),
    hnonneg⟩

variable (hbound : ∀ b ∈ bs, b ≠ nullBlock → b < p.numGpuBlocks)
include hbound

lemma PoolOk.touch (hq : touch bs p = .ok q) : PoolOk q := by
  induction bs generalizing p with
  | nil =>
    cases hq
    exact h
  | cons b bs ih =>
    obtain ⟨hb, hrest⟩ := forall_mem_cons.mp hbound
    obtain ⟨hev, hheld⟩ := h.touch_round hb
    obtain ⟨p', hrun, ⟨hzero, hnull, -, rfl⟩ | ⟨hnot, rfl⟩⟩ := touch_cons hq
    · exact ih (hev ⟨hzero, hnull⟩).2 hrest hrun
    · exact ih (hheld hnot) hrest hrun

lemma PoolOk.touch_ok (honce : ∀ b, b ≠ nullBlock → bs.count b ≤ 1) :
    ∃ q, BlockPool.touch bs p = .ok q ∧ q.numFreeBlocks = p.numFreeBlocks - p.numEvictable bs := by
  induction bs generalizing p with
  | nil => exact ⟨p, rfl, by simp [numEvictable]⟩
  | cons b bs ih =>
    have honce' : ∀ c, c ≠ nullBlock → bs.count c ≤ 1 := fun c hc =>
      (count_le_count_cons).trans (honce c hc)
    -- The rest does not list `b` again, so the reference added to `b` does not matter to it.
    have hrefs : ∀ c ∈ bs, c ≠ nullBlock → (p.addRef b 1).refCnt c = p.refCnt c := by
      intro c hc hnull
      have hne : c ≠ b := by
        rintro rfl
        have h1 := honce c hnull
        have h2 := count_pos_iff.mpr hc
        rw [count_cons_self] at h1
        omega
      rw [refCnt_addRef, if_neg hne, add_zero]
    obtain ⟨hb, hrest⟩ := forall_mem_cons.mp hbound
    obtain ⟨hev, hheld⟩ := h.touch_round hb
    have hcons := numEvictable_cons p b bs
    have hsame := numEvictable_congr hrefs
    unfold BlockPool.touch
    split
    next hcase =>
      obtain ⟨hmem, hp⟩ := hev hcase
      obtain ⟨q, hq, hcnt⟩ := ih hp hrest honce'
      refine ⟨q, ?_, ?_⟩
      · rw [removeFree, if_pos hmem]
        exact hq
      have hnum : ((p.eraseFree b).addRef b 1).numEvictable bs = (p.addRef b 1).numEvictable bs :=
        rfl
      have hfree : ((p.eraseFree b).addRef b 1).numFreeBlocks = p.numFreeBlocks - 1 := rfl
      rw [if_pos hcase] at hcons
      omega
    rename_i hcase
    obtain ⟨q, hq, hcnt⟩ := ih (hheld hcase) hrest honce'
    refine ⟨q, hq, ?_⟩
    rw [if_neg hcase] at hcons
    rw [hcnt, hsame, hcons]
    rfl

omit hbound

lemma PoolOk.freeBlocks (hle : ∀ b, b ≠ nullBlock → (bs.count b : ℤ) ≤ p.refCnt b) :
    PoolOk (p.freeBlocks bs) := by
  obtain ⟨hmap, hrefs⟩ := freeBlocks_spec bs h.map
  have hsame := sameCached_freeBlocks p bs
  refine ⟨h.free.freeBlocks h.map hle, hmap, h.hashes.congr hsame.cached hsame.hash, fun b hb => ?_⟩
  have := hle b hb
  rw [hrefs]
  omega

lemma PoolOk.maybeEvict (b : ℕ) : PoolOk (p.maybeEvictCachedBlock b) :=
  ⟨h.free.maybeEvict b, h.map.maybeEvict b, h.hashes.maybeEvict h.map b,
    fun c hc => (h.nonneg c hc).trans_eq (refCnt_maybeEvict p b c).symm⟩

lemma PoolOk.evictBlocks {ids : List ℕ} (hq : evictBlocks ids p = .ok q) : PoolOk q :=
  evictBlocks_rule (fun _ b h => h.maybeEvict b) hq h

lemma PoolOk.call {c : PoolCall} (hok : c.Allowed p.numGpuBlocks p.refCnt) (hq : p.call c = .ok q) :
    PoolOk q := by
  cases c with
  | getCachedBlock hash gids =>
    cases hq
    exact h
  | cacheFullBlocks env r blocks numCached numFull size gid mask =>
    obtain ⟨hmap, hrefs⟩ := cacheFullBlocks_spec h.map hq
    exact ⟨h.free.cacheFullBlocks h.map hok hq, hmap, h.hashes.cacheFullBlocks hq,
      fun b hb => (h.nonneg b hb).trans_eq (hrefs b).symm⟩
  | getNewBlocks n =>
    obtain ⟨⟨bs, q'⟩, hnew, ⟨⟩⟩ := of_bind hq
    exact h.getNewBlocks hok hnew
  | touch blocks => exact h.touch hok hq
  | freeBlocks blocks =>
    cases hq
    exact h.freeBlocks hok
  | evictBlocks ids => exact h.evictBlocks hq
  | resetPrefixCache =>
    cases hq
    exact ⟨h.free.reset, h.map.reset, h.hashes.reset,
      fun b hb => (h.nonneg b hb).trans_eq (refCnt_reset p b).symm⟩

end

/-- New blocks leave the queue at the front, touching keeps the others, freed blocks go to the front
without a hash and to the end with one. -/
def QueueChange (blockHash : ℕ → Option Bytes) (c : PoolCall) (l l' : List ℕ) : Prop :=
  match c with
  | .getNewBlocks n => l' = l.drop n.toNat
  | .touch blocks => l' = l.filter (· ∉ blocks)
  | .freeBlocks blocks => ∃ front back, l' = front ++ l ++ back ∧ front.Sublist blocks ∧
      back.Sublist blocks ∧ (∀ b ∈ front, blockHash b = none) ∧ ∀ b ∈ back, blockHash b ≠ none
  | _ => l' = l

lemma queue_touch (h : PoolOk p) (hbound : ∀ b ∈ bs, b ≠ nullBlock → b < p.numGpuBlocks)
    (hq : touch bs p = .ok q) : q.freeBlockQueue = p.freeBlockQueue.filter (· ∉ bs) := by
  induction bs generalizing p with
  | nil =>
    cases hq
    simp
  | cons b bs ih =>
    obtain ⟨hb, hrest⟩ := forall_mem_cons.mp hbound
    obtain ⟨hev, hheld⟩ := h.touch_round hb
    have hsplit : p.freeBlockQueue.filter (· ∉ b :: bs) =
      (p.freeBlockQueue.filter (· != b)).filter (· ∉ bs) := by
      rw [filter_filter]
      refine filter_congr fun c _ => ?_
      by_cases hcb : c = b <;> simp [hcb]
    obtain ⟨p', hrun, ⟨hzero, hnull, -, rfl⟩ | ⟨hnot, rfl⟩⟩ := touch_cons hq
    · rw [ih (hev ⟨hzero, hnull⟩).2 hrest hrun, hsplit, ← h.free.nodup.erase_eq_filter]
      rfl
    rw [ih (hheld hnot) hrest hrun, hsplit]
    congr 1
    -- A block that stays referenced is not in the queue.
    refine (filter_eq_self.mpr fun c hc => ?_).symm
    rw [bne_iff_ne]
    rintro rfl
    exact hnot ⟨(h.free.free c hc).2, (h.free.free c hc).1⟩

lemma releaseBlocks_lists (bs : List ℕ) (p : BlockPool) :
    (releaseBlocks bs p).2.1.Sublist bs ∧ (releaseBlocks bs p).2.2.Sublist bs ∧
      (∀ b ∈ (releaseBlocks bs p).2.1, p.blockHash b = none) ∧
      ∀ b ∈ (releaseBlocks bs p).2.2, p.blockHash b ≠ none := by
  induction bs generalizing p with
  | nil => exact ⟨.refl _, .refl _, by simp [releaseBlocks], by simp [releaseBlocks]⟩
  | cons b bs ih =>
    obtain ⟨h1, h2, h3, h4⟩ := ih (p.addRef b (-1))
    simp only [blockHash_addRef] at h3 h4
    simp only [releaseBlocks, blockHash_addRef]
    split
    · cases hb : p.blockHash b with
      | none =>
        refine ⟨h1.cons_cons b, h2.cons b, fun c hc => ?_, h4⟩
        rcases mem_cons.mp hc with rfl | hc
        · exact hb
        · exact h3 c hc
      | some key =>
        refine ⟨h1.cons b, h2.cons_cons b, h3, fun c hc => ?_⟩
        rcases mem_cons.mp hc with rfl | hc
        · rw [hb]
          exact Option.some_ne_none key
        · exact h4 c hc
    · exact ⟨h1.cons b, h2.cons b, h3, h4⟩

lemma queueChange_call {c : PoolCall} (h : PoolOk p) (hok : c.Allowed p.numGpuBlocks p.refCnt)
    (hq : p.call c = .ok q) : QueueChange p.blockHash c p.freeBlockQueue q.freeBlockQueue := by
  cases c with
  | getCachedBlock hash gids =>
    cases hq
    rfl
  | cacheFullBlocks env r blocks numCached numFull size gid mask =>
    exact (sameQueue_cacheFullBlocks hq).queue
  | getNewBlocks n =>
    obtain ⟨⟨bs, q'⟩, hnew, ⟨⟩⟩ := of_bind hq
    exact (getNewBlocks_queue hnew).2
  | touch blocks => exact queue_touch h hok hq
  | freeBlocks blocks =>
    cases hq
    obtain ⟨h1, h2, h3, h4⟩ := releaseBlocks_lists blocks p
    exact ⟨_, _, queue_freeBlocks p blocks, h1, h2, h3, h4⟩
  | evictBlocks ids =>
    exact (sameQueue_evictBlocks hq).queue
  | resetPrefixCache =>
    cases hq
    exact (sameQueue_reset p).queue

end BlockPool

end Vllm
