import Vllm.KVCache.LinkedPoolCalls
import Vllm.KVCache.PoolTrace

/-! # Runs of the linked pool -/

namespace Vllm.LinkedPool

open Machine List BlockPool LinkedPool

variable {lp lp' : LinkedPool} {p : BlockPool} {c : PoolCall} {calls : List PoolCall} {l : List ℕ}

/-- The calls that the managers make. -/
def Allowed (lp : LinkedPool) (c : PoolCall) : Prop :=
  c.Allowed lp.numGpuBlocks fun b => (lp.blocks b).refCnt

lemma Refines.allowed (h : lp.Refines p) (c : PoolCall) :
    lp.Allowed c ↔ c.Allowed p.numGpuBlocks p.refCnt := by
  unfold Allowed
  rw [h.size, h.blocks]
  rfl

lemma Refines.call (h : lp.Refines p) (hp : p.PoolOk)
    (hok : c.Allowed p.numGpuBlocks p.refCnt) : Lockstep Refines (lp.call c) (p.call c) := by
  cases c with
  | getCachedBlock hash gids => exact h
  | cacheFullBlocks env r blocks numCached numFull size gid mask =>
    exact h.cacheFullBlocks env r blocks numCached numFull size gid mask
  | getNewBlocks n => exact (h.getNewBlocks n).bind fun _ _ hxy => hxy.2
  | touch blocks => exact h.touch blocks
  | freeBlocks blocks =>
    obtain ⟨lp', hfree, hlp'⟩ := h.freeBlocks blocks (hp.freeBlocks hok).free.nodup
    show Lockstep Refines (lp.freeBlocks blocks) (.ok (p.freeBlocks blocks))
    rw [hfree]
    exact hlp'
  | evictBlocks ids => exact h.evictBlocks ids
  | resetPrefixCache => exact h.reset

lemma refines_init {n : ℕ} (hn : 0 < n) (caching : Bool) (size : ℕ) (events ints : Bool) :
    ∃ lp, init n caching size events ints = .ok lp ∧
    lp.Refines (BlockPool.init n caching size events ints) := by
  have hrange : range n = 0 :: range' 1 (n - 1) := by
    obtain ⟨m, rfl⟩ := Nat.exists_eq_succ_of_ne_zero (Nat.ne_of_gt hn)
    rw [range_eq_range']
    rfl
  have hinit := FreeKVCacheBlockQueue.holds_init (nodup_range (n := n))
  rw [hrange] at hinit
  obtain ⟨q, hpop, hholds, hcnt⟩ := hinit.popleft
  unfold init
  rw [pyAssert_pos hn, hrange, hpop, ok_bind]
  refine ⟨_, rfl, rfl, rfl, rfl, rfl, rfl, rfl, hholds, ?_, ⟨fun _ => rfl, fun _ => by simp⟩, rfl⟩
  have hlen : (FreeKVCacheBlockQueue.init (0 :: List.range' 1 (n - 1))).numFreeBlocks = n := by
    rw [← hrange]
    simp [FreeKVCacheBlockQueue.init]
  show q.numFreeBlocks = (n : ℤ) - 1
  rw [hcnt, hlen]

lemma Refines.follow {q : BlockPool} (h : lp.Refines p) (hp : p.PoolOk)
    (hrun : KVState.PoolRun p calls q) :
    ∃ lp', Run LinkedPool.call Allowed lp calls lp' ∧ lp'.Refines q := by
  induction hrun generalizing lp with
  | nil p => exact ⟨lp, .nil lp, h⟩
  | cons hok hcall _ ih =>
    obtain ⟨lp1, hlp1, hr⟩ := (h.call hp hok).of_ok_right hcall
    obtain ⟨lp2, hrun, hr'⟩ := ih hr (hp.call hok hcall)
    exact ⟨lp2, .cons ((h.allowed _).mpr hok) hlp1 hrun, hr'⟩

lemma exists_refined (h : lp.Refines p) (hp : p.PoolOk)
    (hrun : Run call Allowed lp calls lp') : ∃ q : BlockPool, q.PoolOk ∧ lp'.Refines q := by
  refine hrun.invariant (P := fun lp => ∃ q : BlockPool, q.PoolOk ∧ lp.Refines q)
    (fun lp1 c lp2 h1 hok hc => ?_) ⟨p, hp, h⟩
  obtain ⟨q, hq, hr⟩ := h1
  have hok := (hr.allowed c).mp hok
  obtain ⟨q', hq', hr'⟩ := (hr.call hq hok).of_ok_left hc
  exact ⟨q', hq.call hok hq', hr'⟩

/-- The free list links `l`, the unreferenced blocks but the null block, and the counter is their
number; a block is under a key iff it is its hash; the null block is nowhere. -/
structure WellFormed (lp : LinkedPool) (l : List ℕ) : Prop where
  linked : lp.freeBlockQueue.Holds l
  nodup : l.Nodup
  mem_iff : ∀ {b}, b ∈ l ↔ b ≠ nullBlock ∧ b < lp.numGpuBlocks ∧ (lp.blocks b).refCnt = 0
  count : lp.freeBlockQueue.numFreeBlocks = l.length
  keyed : ∀ {b key}, b ∈ lp.cachedBlockHashToBlock.blocksAt key ↔ (lp.blocks b).blockHash = some key
  uncached : ∀ key, nullBlock ∉ lp.cachedBlockHashToBlock.blocksAt key

lemma Refines.wellFormed (h : lp.Refines p) (hp : p.PoolOk) : lp.WellFormed p.freeBlockQueue where
  linked := h.queue
  nodup := hp.free.nodup
  mem_iff := by
    intro b
    rw [hp.free.mem_iff, h.size, h.refCnt]
  count := by rw [h.count, hp.free.count]
  keyed := by
    intro b key
    rw [h.map.blocks, h.blockHash]
    exact hp.mem_cached_iff
  uncached key hmem := by
    rw [h.map.blocks] at hmem
    exact (hp.free.cached hmem).1 rfl

lemma WellFormed.call (h : lp.WellFormed l) (hr : lp.Refines p) (hp : p.PoolOk)
    (hok : lp.Allowed c) (hc : lp.call c = .ok lp') : ∃ l', lp'.WellFormed l' ∧
      QueueChange (fun b => (lp.blocks b).blockHash) c l l' := by
  have hok := (hr.allowed c).mp hok
  obtain ⟨q, hq, hr'⟩ := (hr.call hp hok).of_ok_left hc
  obtain rfl := hr.queue.unique h.linked
  have hhash : (fun b => (lp.blocks b).blockHash) = p.blockHash := funext hr.blockHash
  refine ⟨_, hr'.wellFormed (hp.call hok hq), ?_⟩
  rw [hhash]
  exact queueChange_call hp hok hq

lemma WellFormed.getNewBlocks {l bs : List ℕ} {n : ℤ} (h : lp.WellFormed l) (hr : lp.Refines p)
    (hnew : lp.getNewBlocks n = .ok (bs, lp')) : bs = l.take n.toNat := by
  obtain ⟨⟨bs', q⟩, hq, heq, -⟩ := (hr.getNewBlocks n).of_ok_left hnew
  obtain rfl := hr.queue.unique h.linked
  obtain rfl : bs = bs' := heq
  exact (getNewBlocks_queue hq).1

/-! ## Order over runs -/

/-- While the call is made block `x` stays in the queue and block `y` is not touched. -/
structure Waits (x y : ℕ) (lp : LinkedPool) (c : PoolCall) : Prop where
  allowed : lp.Allowed c
  stays : ∀ lp' l', lp.call c = .ok lp' → lp'.freeBlockQueue.Holds l' → x ∈ l'
  untouched : ∀ bs, c = .touch bs → y ∉ bs

lemma sublist_drop {x y n : ℕ} (hnd : l.Nodup) (h : [x, y].Sublist l)
    (hx : x ∈ l.drop n) : [x, y].Sublist (l.drop n) := by
  rw [← take_append_drop n l] at hnd h
  obtain ⟨l1, l2, heq, h1, h2⟩ := sublist_append_iff.mp h
  cases l1 with
  | nil => exact heq ▸ h2
  | cons z l1 =>
    obtain ⟨rfl, -⟩ := cons_eq_cons.mp heq
    obtain ⟨-, -, hdisj⟩ := nodup_append.mp hnd
    exact absurd rfl (hdisj x (h1.subset mem_cons_self) x hx)

lemma queueChange_before {hash : ℕ → Option Bytes} {l l' : List ℕ} {x y : ℕ}
    (h : QueueChange hash c l l') (hnd : l.Nodup) (hxy : [x, y].Sublist l) (hx : x ∈ l')
    (hy : ∀ bs, c = .touch bs → y ∉ bs) : [x, y].Sublist l' := by
  cases c with
  | getNewBlocks n =>
    obtain rfl : l' = l.drop n.toNat := h
    exact sublist_drop hnd hxy hx
  | touch bs =>
    obtain rfl : l' = l.filter (· ∉ bs) := h
    have hx : x ∉ bs := by simpa using (mem_filter.mp hx).2
    have hkeep := hxy.filter (· ∉ bs)
    rwa [filter_eq_self.mpr (by simp [hx, hy])] at hkeep
  | freeBlocks bs =>
    obtain ⟨front, back, rfl, -⟩ := h
    exact (hxy.trans (sublist_append_right front l)).trans (sublist_append_left _ back)
  | getCachedBlock hash gids =>
    obtain rfl : l' = l := h
    exact hxy
  | cacheFullBlocks env r blocks numCached numFull size gid mask =>
    obtain rfl : l' = l := h
    exact hxy
  | evictBlocks ids =>
    obtain rfl : l' = l := h
    exact hxy
  | resetPrefixCache =>
    obtain rfl : l' = l := h
    exact hxy

/-- While the block in front stays and the one behind is not touched, their order stays. -/
lemma before_of_run {x y : ℕ} (hr : lp.Refines p) (hp : p.PoolOk)
    (hl : lp.WellFormed l) (hxy : [x, y].Sublist l) (hrun : Run call (Waits x y) lp calls lp') :
    ∃ l', lp'.WellFormed l' ∧ [x, y].Sublist l' := by
  have hall : ∃ q : BlockPool, q.PoolOk ∧ lp'.Refines q ∧ ∃ l', lp'.WellFormed l' ∧
    [x, y].Sublist l' := by
    refine hrun.invariant (P := fun lp => ∃ q : BlockPool, q.PoolOk ∧ lp.Refines q ∧
      ∃ l', lp.WellFormed l' ∧
        [x, y].Sublist l') (fun lp1 c lp2 h1 hok hc => ?_) ⟨p, hp, hr, l, hl, hxy⟩
    obtain ⟨q, hq, hr1, l1, hl1, hxy1⟩ := h1
    obtain ⟨l2, hl2, hchange⟩ := hl1.call hr1 hq hok.allowed hc
    have hallowed := (hr1.allowed c).mp hok.allowed
    obtain ⟨q', hq', hr'⟩ := (hr1.call hq hallowed).of_ok_left hc
    exact ⟨q', hq.call hallowed hq', hr', l2, hl2,
      queueChange_before hchange hl1.nodup hxy1 (hok.stays lp2 l2 hc hl2.linked) hok.untouched⟩
  obtain ⟨-, -, -, hl'⟩ := hall
  exact hl'

/-- In every run of the cache managers the free list is well formed and emptied from the front.
Freed blocks with a hash go to its end, those without to its front, and touching takes blocks out;
so of two blocks the one in front leaves first unless the other is touched. -/
theorem managers_keep_wellFormed (env : HashEnv) {a : KVCacheManagerArgs} {k : KVCacheManager}
    (hinit : KVCacheManager.init a = .ok k) : (∀ calls s, Run (KVState.call env)
        (fun s c => KVState.Admissible a.hashBlockSize s c ∧ KVState.Covered s c)
        { kv := k } calls s →
      ∃ lp₀ poolCalls lp, init a.numBlocks a.enableCaching a.hashBlockSize
          a.enableKvCacheEvents a.useIntBlockHashes = .ok lp₀ ∧
        Run call Allowed lp₀ poolCalls lp ∧ lp.Refines s.kv.blockPool) ∧
    ∀ lp₀ poolCalls lp, init a.numBlocks a.enableCaching a.hashBlockSize
        a.enableKvCacheEvents a.useIntBlockHashes = .ok lp₀ →
      Run call Allowed lp₀ poolCalls lp →
      ∃ l, lp.WellFormed l ∧ (∀ n bs lp', lp.getNewBlocks n = .ok (bs, lp') → bs = l.take n.toNat) ∧
        (∀ c lp', lp.Allowed c → lp.call c = .ok lp' → ∃ l', lp'.WellFormed l' ∧
          QueueChange (fun b => (lp.blocks b).blockHash) c l l') ∧
        ∀ x y calls lp', [x, y].Sublist l → Run call (Waits x y) lp calls lp' →
          ∃ l', lp'.WellFormed l' ∧ [x, y].Sublist l' := by
  obtain ⟨hpos, hpool, -⟩ := KVCacheManager.init_eq_ok hinit
  obtain ⟨lp₀, hlp0, hr0⟩ :=
    refines_init hpos a.enableCaching a.hashBlockSize a.enableKvCacheEvents a.useIntBlockHashes
  have hp0 := poolOk_init a.numBlocks a.enableCaching a.hashBlockSize a.enableKvCacheEvents
    a.useIntBlockHashes hpos
  refine ⟨fun calls s hrun => ?_, fun lp1 poolCalls lp hlp1 hrun => ?_⟩
  · obtain ⟨poolCalls, hcalls⟩ := KVState.poolRun_of_run hinit hrun
    rw [hpool] at hcalls
    obtain ⟨lp, hlp, hr⟩ := hr0.follow hp0 hcalls
    exact ⟨lp₀, poolCalls, lp, hlp0, hlp, hr⟩
  obtain rfl := Except.ok.inj (hlp0.symm.trans hlp1)
  obtain ⟨p, hp, hr⟩ := exists_refined hr0 hp0 hrun
  have hl := hr.wellFormed hp
  exact ⟨_, hl, fun n bs lp' hnew => hl.getNewBlocks hr hnew,
    fun c lp' hok hc => hl.call hr hp hok hc,
    fun x y calls lp' hxy hrun => before_of_run hr hp hl hxy hrun⟩

/-- Two blocks are taken, one of them is cached, both are freed and the cached one is found
again. -/
def smallPoolCalls : List PoolCall :=
  [.getNewBlocks 2, .cacheFullBlocks KVState.smallEnv KVState.smallRequest [1, 2] 0 1 2 0 none,
    .freeBlocks [2, 1], .touch [1], .evictBlocks [1]]

/-- Blocks are taken, cached, touched and freed; block 3 stays in the queue. -/
theorem small_pool_wellFormed : ∃ k lp₀ lp, KVCacheManager.init KVState.smallArgs = .ok k ∧
    init 4 true 2 false false = .ok lp₀ ∧ Run call Allowed lp₀ smallPoolCalls lp ∧
    ∃ l, lp.WellFormed l ∧ 3 ∈ l := by
  obtain ⟨lp₀, lp, hinit, hrun, hrefs⟩ : ∃ lp₀ lp, init 4 true 2 false false = .ok lp₀ ∧
      Run call Allowed lp₀ smallPoolCalls lp ∧ lp.numGpuBlocks = 4 ∧ (lp.blocks 3).refCnt = 0 := by
    have hcached : ∀ b ∈ [1, 2], b ≠ nullBlock → b < 4 := by decide
    have htouch : ∀ b ∈ [1], b ≠ nullBlock → b < 4 := by decide
    refine ⟨_, _, rfl, .cons (Int.natCast_nonneg 2) rfl (.cons hcached rfl (.cons ?_ rfl
      (.cons htouch rfl (.cons trivial rfl (.nil _))))), rfl, rfl⟩
    rintro (_ | _ | _ | b) hb
    · exact absurd rfl hb
    · exact le_of_eq rfl
    · exact le_of_eq rfl
    · exact le_of_eq rfl
  obtain ⟨k, hk⟩ : ∃ k, KVCacheManager.init KVState.smallArgs = .ok k := ⟨_, rfl⟩
  obtain ⟨l, hl, -⟩ := (managers_keep_wellFormed KVState.smallEnv hk).2 lp₀ _ lp hinit hrun
  exact ⟨k, lp₀, lp, hk, hinit, hrun, l, hl,
    hl.mem_iff.mpr ⟨by decide, by rw [hrefs.1]; decide, hrefs.2⟩⟩

/-- A block without a hash that is freed while another one waits is given out before it. -/
theorem hashless_block_overtakes : ∃ lp₀ lp₁ lp₂ lp₃, init 3 true 2 false false = .ok lp₀ ∧
    lp₀.call (.getNewBlocks 1) = .ok lp₁ ∧
    lp₁.freeBlockQueue.links.next .head = some (.block 2) ∧
    lp₁.freeBlockQueue.links.next (.block 1) = none ∧
    lp₁.call (.freeBlocks [1]) = .ok lp₂ ∧ lp₂.freeBlockQueue.links.next .head = some (.block 1) ∧
    lp₂.freeBlockQueue.links.next (.block 1) = some (.block 2) ∧
    lp₂.getNewBlocks 1 = .ok ([1], lp₃) := by
  refine ⟨_, _, _, _, rfl, rfl, rfl, rfl, rfl, rfl, rfl, rfl⟩

/-! ## Answers and errors -/

lemma Refines.getCachedBlock (h : lp.Refines p) (hash : Bytes) (gids : List ℕ) :
    lp.getCachedBlock hash gids = p.getCachedBlock hash gids := by
  have hone key : lp.cachedBlockHashToBlock.getOneBlock key = p.getOneBlock key := by
    rw [BlockPool.getOneBlock, ← h.map.blocks]
    unfold BlockHashToBlockMap.getOneBlock BlockHashToBlockMap.blocksAt
    split <;> simp_all
  simp only [LinkedPool.getCachedBlock, BlockPool.getCachedBlock, hone]

/-- Both have the same blocks and events, give out the same blocks or raise the same error, and find
the same blocks. -/
structure Agrees (lp : LinkedPool) (p : BlockPool) : Prop where
  refines : lp.Refines p
  getNewBlocks : ∀ n, Lockstep (fun x y => x.1 = y.1) (lp.getNewBlocks n) (p.getNewBlocks n)
  getCachedBlock : ∀ hash gids, lp.getCachedBlock hash gids = p.getCachedBlock hash gids

/-- Through every sequence of allowed calls the linked pool and the pool over lists agree, or both
raise the same error.
-/
theorem pools_in_lockstep {n : ℕ} (hn : 0 < n) (caching : Bool) (size : ℕ) (events ints : Bool)
    (hok : Along BlockPool.call (fun p c => c.Allowed p.numGpuBlocks p.refCnt)
      (BlockPool.init n caching size events ints) calls) :
    ∃ lp₀, init n caching size events ints = .ok lp₀ ∧ Lockstep Agrees (calls.foldlM call lp₀)
      (calls.foldlM BlockPool.call (BlockPool.init n caching size events ints)) := by
  obtain ⟨lp₀, hinit, hr⟩ := refines_init hn caching size events ints
  refine ⟨lp₀, hinit, ?_⟩
  have hruns := Lockstep.foldlM (R := fun lp p => Refines lp p ∧ p.PoolOk) (f := call)
    (fun lp p c h hok => (h.1.call h.2 hok).mono fun _ _ hq hr => ⟨hr, h.2.call hok hq⟩) hok
    ⟨hr, poolOk_init n caching size events ints hn⟩
  exact hruns.mono fun lp p _ h =>
    ⟨h.1, fun n => (h.1.getNewBlocks n).mono fun _ _ _ hxy => hxy.1, h.1.getCachedBlock⟩

/-- The second call asks for more blocks than are free, and both pools fail. -/
theorem small_pools_in_lockstep : ∃ lp₀, init 4 true 2 false false = .ok lp₀ ∧
    Lockstep Agrees ([.getNewBlocks 1, .getNewBlocks 3].foldlM call lp₀)
      ([.getNewBlocks 1, .getNewBlocks 3].foldlM BlockPool.call
        (BlockPool.init 4 true 2 false false)) :=
  pools_in_lockstep (by decide) true 2 false false
    ⟨Int.natCast_nonneg 1, fun _ _ => ⟨Int.natCast_nonneg 3, fun _ _ => trivial⟩⟩

end Vllm.LinkedPool
