import Vllm.KVCache.FreeQueue
import Vllm.KVCache.Steps

/-! # The ledger of references along steps -/

namespace Vllm

open SingleTypeKVCacheManager Relation List BlockPool KVCacheManager

namespace SingleTypeKVCacheManager

variable {C : Prop} {m m' : SingleTypeKVCacheManager} {p q : BlockPool} {rid : String}
  {elsewhere : ℕ → ℕ} {env : HashEnv} {K : HashEnv → Request → Prop} {r : Request}

/-- A block's references are its occurrences in the tables of the manager and `elsewhere`. -/
structure Counted (p : BlockPool) (m : SingleTypeKVCacheManager) (elsewhere : ℕ → ℕ) : Prop where
  map : p.MapOk
  queue : p.QueueOk
  refs : ∀ b, b ≠ nullBlock → p.refCnt b = m.occurrences b + elsewhere b
  once : ∀ rid b, b ≠ nullBlock → (m.blocksOf rid).count b ≤ 1

section

variable (h : Counted p m elsewhere)
include h

lemma Counted.count_le {b : ℕ} (hb : b ≠ nullBlock) (rid : String) :
    ((m.blocksOf rid).count b : ℤ) ≤ p.refCnt b := by
  have h1 := h.refs b hb
  have h2 := count_le_occurrences m rid b
  omega

lemma Counted.replace {bs : List ℕ} (hmap : q.MapOk) (hqueue : q.QueueOk)
    (htab : m'.reqToBlocks = m.reqToBlocks.insert rid bs)
    (hrefs : ∀ b, b ≠ nullBlock → q.refCnt b + (m.blocksOf rid).count b = p.refCnt b + bs.count b)
    (honce : ∀ b, b ≠ nullBlock → bs.count b ≤ 1) : Counted q m' elsewhere where
  map := hmap
  queue := hqueue
  refs b hb := by
    have h1 := hrefs b hb
    have h2 := h.refs b hb
    have h3 := Dict.total_insert_add (count b) m.reqToBlocks rid bs
    rw [valueAt_count, ← htab] at h3
    unfold occurrences at h2 ⊢
    omega
  once rid' b hb := by
    rw [blocksOf_insert htab]
    split
    · exact honce b hb
    · exact h.once rid' b hb

lemma Counted.grow (hstep : GrowStep True C env r m p m' q) : Counted q m' elsewhere := by
  cases hstep with
  | touch k bs hconf hemp hfull honce hhits htch htab hcached =>
    obtain ⟨hmap, hrefs⟩ := touch_spec h.map htch
    refine h.replace hmap (h.queue.touch htch) htab (fun b hb => ?_) fun b hb => ?_
    · rw [hrefs, hemp, count_nulls_append hb]
      simp
    · rw [count_nulls_append hb]
      exact honce trivial b hb
  | take n new hconf hnew htab hcached =>
    obtain ⟨hmap, hnd, hzero, hrefs⟩ := getNewBlocks_spec h.map hnew
    refine h.replace hmap (h.queue.getNewBlocks h.map hnew).1 htab (fun b hb => ?_) fun b hb => ?_
    · rw [hrefs, count_append]
      push_cast
      ring
    rw [count_append]
    by_cases hmem : b ∈ new
    · -- A new block had no references, so it was in no list.
      have h1 := h.count_le hb r.requestId
      have h2 := hzero b hmem
      have h3 := nodup_iff_count_le_one.mp hnd b
      omega
    · rw [count_eq_zero_of_not_mem hmem]
      exact h.once r.requestId b hb
  | rearrange bs hconf hcnt hfull htab hcached =>
    refine h.replace h.map h.queue htab (fun b hb => by rw [hcnt trivial b hb]) fun b hb => ?_
    rw [hcnt trivial b hb]
    exact h.once r.requestId b hb
  | cache numFull mask hconf hcach hfull hlt hcache htab hcached =>
    obtain ⟨hmap, hrefs⟩ := cacheFullBlocks_spec h.map hcache
    exact h.replace hmap (h.queue.congr (sameQueue_cacheFullBlocks hcache).queue hrefs) htab
      (fun b _ => by rw [hrefs]) (h.once r.requestId)
  | other hconf htab hcached =>
    refine ⟨h.map, h.queue, fun b hb => ?_, fun rid' b hb => ?_⟩
    · rw [h.refs b hb, occurrences, occurrences, htab]
    · rw [blocksOf, htab]
      exact h.once rid' b hb

lemma Counted.recycle {skipped : ℕ → Prop} (hstep : RecycleStep skipped rid m p m' q) :
    Counted q m' elsewhere := by
  obtain ⟨freed, bs, hconf, hwindow, rfl, hlen, hcnt, hentry, htab, hcached⟩ := hstep
  obtain ⟨hmap, hrefs⟩ := freeBlocks_spec freed h.map
  refine h.replace hmap (h.queue.freeBlocks h.map fun b hb => ?_) htab (fun b hb => ?_) fun b hb =>
    ?_
  · have h1 := h.count_le hb rid
    have h2 := hcnt b hb
    omega
  · have := hcnt b hb
    rw [hrefs]
    omega
  have h1 := hcnt b hb
  have h2 := h.once rid b hb
  omega

lemma Counted.pop (rid : String) :
    Counted p (m.popBlocksForFree rid).2 fun b => elsewhere b + (m.blocksOf rid).count b where
  __ := h
  refs b hb := by
    have h1 := h.refs b hb
    have h2 := Dict.total_erase_add (count b) m.reqToBlocks rid
    rw [valueAt_count] at h2
    simp only [popBlocksForFree, occurrences] at h1 ⊢
    omega
  once rid' b hb := by
    rw [blocksOf_pop]
    split
    · exact Nat.zero_le _
    · exact h.once rid' b hb

end

lemma Counted.freeBlocks {bs : List ℕ} (h : Counted p m fun b => elsewhere b + bs.count b) :
    Counted (p.freeBlocks bs) m elsewhere := by
  obtain ⟨hmap, hrefs⟩ := freeBlocks_spec bs h.map
  refine ⟨hmap, h.queue.freeBlocks h.map fun b hb => ?_, fun b hb => ?_, h.once⟩
  · have := h.refs b hb
    omega
  have := h.refs b hb
  rw [hrefs]
  omega

lemma Counted.step (h : Counted p m elsewhere) (hstep : ManagerStep True C K rid m p m' q) :
    Counted q m' elsewhere := by
  cases hstep with
  | grow env r hr hrid hgrow => exact h.grow hgrow
  | recycle hrecycle => exact h.recycle hrecycle
  | free =>
    apply Counted.freeBlocks
    simpa only [count_reverse] using h.pop rid

end SingleTypeKVCacheManager

namespace KVState

variable {C : Prop} {s t : KVState} {K : HashEnv → Request → Prop}

/-- References are occurrences in tables and popped lists, and the free queue fits them. -/
structure Ledger (s : KVState) : Prop where
  map : s.kv.blockPool.MapOk
  queue : s.kv.blockPool.QueueOk
  refs : ∀ b, b ≠ nullBlock → s.kv.blockPool.refCnt b = heldBy s.kv.managers b + heldIn s.popped b
  once : ∀ m ∈ s.kv.managers, ∀ rid b, b ≠ nullBlock → (m.blocksOf rid).count b ≤ 1

section

variable (h : Ledger s)
include h

lemma Ledger.counted {l r : List SingleTypeKVCacheManager} {m : SingleTypeKVCacheManager}
    (hk : s.kv.managers = l ++ m :: r) :
    Counted s.kv.blockPool m fun b => heldBy l b + heldBy r b + heldIn s.popped b where
  __ := h
  refs b hb := by
    rw [h.refs b hb, hk, heldBy_split]
    push_cast
    ring
  once := h.once m (by simp [hk])

lemma Ledger.manager {rid : String} {k : KVCacheManager}
    (hstep : OneManager (ManagerStep True C K rid) s.kv k) : Ledger { s with kv := k } := by
  obtain ⟨l, r, m, m', q, hk, hstep⟩ := hstep
  have hm := (h.counted hk).step hstep
  refine ⟨hm.map, hm.queue, fun b hb => ?_, fun m1 hm1 => ?_⟩
  · rw [hm.refs b hb, heldBy_split]
    push_cast
    ring
  rcases mem_append.mp hm1 with hm1 | hm1
  · exact h.once m1 (by simp [hk, hm1])
  rcases mem_cons.mp hm1 with rfl | hm1
  · exact hm.once
  · exact h.once m1 (by simp [hk, hm1])

lemma Ledger.pop (rid : String) : Ledger
    { kv := { s.kv with managers := s.kv.managers.map fun m => (m.popBlocksForFree rid).2 }
      popped := (s.kv.managers.map fun m => m.blocksOf rid).flatten :: s.popped } where
  __ := h
  refs b hb := by
    have h1 := h.refs b hb
    have h2 := heldBy_pop s.kv.managers rid b
    simp only [heldIn, map_cons, sum_cons] at h1 ⊢
    omega
  once m hm rid' b hb := by
    obtain ⟨m1, hm1, rfl⟩ := mem_map.mp hm
    rw [blocksOf_pop]
    split
    · exact Nat.zero_le _
    · exact h.once m1 hm1 rid' b hb

lemma Ledger.freePopped {i : ℕ} {bs : List ℕ} (hi : s.popped[i]? = some bs) : Ledger
    { kv := { s.kv with blockPool := s.kv.blockPool.freeBlocks bs.reverse }
      popped := s.popped.eraseIdx i } := by
  obtain ⟨hmap, hrefs⟩ := freeBlocks_spec bs.reverse h.map
  have hcnt : ∀ b, b ≠ nullBlock → s.kv.blockPool.refCnt b =
      heldBy s.kv.managers b + heldIn (s.popped.eraseIdx i) b + bs.reverse.count b := by
    intro b hb
    rw [h.refs b hb, heldIn_eraseIdx hi b, count_reverse]
    push_cast
    ring
  refine ⟨hmap, h.queue.freeBlocks h.map fun b hb => ?_, fun b hb => ?_, h.once⟩
  · have := hcnt b hb
    omega
  have := hcnt b hb
  rw [hrefs]
  dsimp only
  omega

lemma Ledger.step (hstep : KVStep True C K s t) : Ledger t := by
  cases hstep with
  | manager rid hstep => exact h.manager hstep
  | pop rid => exact h.pop rid
  | freePopped i bs hi => exact h.freePopped hi
  | evict ids hq =>
    obtain ⟨hmap, hrefs⟩ := evictBlocks_spec h.map hq
    exact ⟨hmap, h.queue.evictBlocks hq, fun b hb => (hrefs b).trans (h.refs b hb), h.once⟩
  | reset =>
    exact ⟨h.map.reset, h.queue.reset, fun b hb => (refCnt_reset _ b).trans (h.refs b hb), h.once⟩
  | newStep =>
    refine ⟨h.map, h.queue, fun b hb => ?_, fun m hm => ?_⟩
    · have := h.refs b hb
      simp only [heldBy, KVCacheManager.newStepStarts, List.map_map]
      exact this
    · obtain ⟨m', hm', rfl⟩ := mem_map.mp hm
      exact h.once m' hm'

lemma Ledger.unheld {b : ℕ} (hnull : b ≠ nullBlock) (hzero : s.kv.blockPool.refCnt b = 0) :
    (∀ m ∈ s.kv.managers, ∀ rid, b ∉ m.blocksOf rid) ∧ ∀ bs ∈ s.popped, b ∉ bs := by
  have hrefs := h.refs b hnull
  refine ⟨fun m hm rid hmem => ?_, fun bs hbs hmem => ?_⟩
  · have h1 := count_pos_iff.mpr hmem
    have h2 := count_le_occurrences m rid b
    have h3 : m.occurrences b ≤ heldBy s.kv.managers b :=
      single_le_sum (by simp) _ (mem_map_of_mem hm)
    omega
  have h1 := count_pos_iff.mpr hmem
  have h2 : bs.count b ≤ heldIn s.popped b := single_le_sum (by simp) _ (mem_map_of_mem hbs)
  omega

lemma Ledger.not_held {b : ℕ} (hb : b ∈ s.kv.blockPool.freeBlockQueue) :
    (∀ m ∈ s.kv.managers, ∀ rid, b ∉ m.blocksOf rid) ∧ ∀ bs ∈ s.popped, b ∉ bs :=
  h.unheld (h.queue.free b hb).1 (h.queue.free b hb).2

end

lemma Ledger.init {a : KVCacheManagerArgs} {k : KVCacheManager} (h : init a = .ok k) :
    Ledger { kv := k } := by
  obtain ⟨-, hpool, -⟩ := init_eq_ok h
  refine ⟨?_, ?_, fun b _ => ?_, fun m hm rid b _ => ?_⟩
  · rw [hpool]
    exact mapOk_init ..
  · rw [hpool]
    exact queueOk_init ..
  · have hheld : heldBy k.managers b = 0 := by
      refine sum_eq_zero fun x hx => ?_
      obtain ⟨m, hm, rfl⟩ := mem_map.mp hx
      obtain ⟨eagle, g, gid, -, rfl⟩ := mem_init h hm
      rfl
    dsimp only
    rw [hpool, hheld]
    rfl
  · obtain ⟨eagle, g, gid, -, rfl⟩ := mem_init h hm
    exact Nat.zero_le _

end KVState

end Vllm
