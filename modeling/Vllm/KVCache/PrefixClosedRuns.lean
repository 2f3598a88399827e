import Vllm.KVCache.OwnershipRuns
import Vllm.KVCache.PrefixClosed
import Vllm.KVCache.CacheHitValid

/-! # The prefix cache is prefix-closed in every reachable state -/

namespace Vllm

open SingleTypeKVCacheManager List BlockPool CacheHit KVCacheManager Function

variable {x : Bytes}

lemma Rooted.index_unique {parent : Bytes → Option Bytes} {hs : List Bytes} (h : Rooted parent hs)
    {i j : ℕ} (hi : hs[i]? = some x) (hj : hs[j]? = some x) : i = j := by
  have hbef : ∀ (k : ℕ) (z : Bytes), hs[k + 1]? = some z → ∃ w, hs[k]? = some w ∧
    parent z = some w := by
    intro k z hz
    have hlt := lt_of_getElem? hz
    have hk : hs[k]? = some hs[k] := getElem?_eq_getElem (by omega)
    exact ⟨hs[k], hk, h.next k hs[k] z hk hz⟩
  induction i generalizing j x with
  | zero =>
    cases j with
    | zero => rfl
    | succ j =>
      obtain ⟨w, -, hw⟩ := hbef j x hj
      rw [h.first x hi] at hw
      cases hw
  | succ i ih =>
    obtain ⟨w, hw, hparent⟩ := hbef i x hi
    cases j with
    | zero =>
      rw [h.first x hj] at hparent
      cases hparent
    | succ j =>
      obtain ⟨w', hw', hparent'⟩ := hbef j x hj
      obtain rfl : w' = w := Option.some.inj (hparent'.symm.trans hparent)
      rw [ih hw hw']

namespace KVCacheManager

variable {rid : String} {bs : List ℕ} {r : Request}

/-- The manager has one group, of full attention, whose blocks have the size of a hash. -/
structure OneFull (k : KVCacheManager) (m : SingleTypeKVCacheManager) : Prop where
  managers : k.managers = [m]
  full : m.spec.attention = .full
  gid : m.kvCacheGroupId = 0
  size : m.blockSize = k.blockPool.hashBlockSize
  pos : 0 < m.blockSize
  caching : k.enableCaching = true
  pool : k.blockPool.enableCaching = true
  own : m.enableCaching = true
  coordinator : ∃ d, k.coordinator = .unitary d

variable {k k' : KVCacheManager} {m m' : SingleTypeKVCacheManager} {p q : BlockPool}
  {parent : Bytes → Option Bytes} {popped : List (List ℕ)} {hashes : String → List Bytes}

lemma OneFull.congr (h : OneFull k m) (hconf : SameConfig m m') (hset : k.blockPool.SameSetup q) :
    OneFull { k with managers := [m'], blockPool := q } m' where
  managers := rfl
  full := by rw [hconf.spec, h.full]
  gid := by rw [hconf.gid, h.gid]
  size := by rw [hconf.blockSize, h.size, hset.hashSize]
  pos := by rw [hconf.blockSize]; exact h.pos
  __ := h
  pool := hset.caching.trans h.pool
  own := hconf.caching.trans h.own

lemma OneFull.consistent (h : OneFull k m) : k.Consistent where
  ids hi := by
    rw [h.managers] at hi
    obtain ⟨hlt, rfl⟩ := List.getElem?_eq_some_iff.mp hi
    have hzero := Nat.lt_one_iff.mp hlt
    subst hzero
    exact h.gid
  unitary d _ := ⟨m, h.managers, h.size⟩
  hybrid c hc := by
    obtain ⟨d, hd⟩ := h.coordinator
    rw [hd] at hc
    cases hc
  caching := by rw [h.pool, h.caching]

lemma withManagers_single {β : Type} {f : SingleTypeKVCacheManager → BlockPool →
      Py (β × SingleTypeKVCacheManager × BlockPool)} {xs : List β} (hk : k.managers = [m])
    (h : k.withManagers f = .ok (xs, k')) : ∃ x m' q, f m k.blockPool = .ok (x, m', q) ∧
      k' = { k with managers := [m'], blockPool := q } := by
  unfold withManagers at h
  rw [hk] at h
  obtain ⟨⟨ys, ms, q⟩, hloop, ⟨⟩⟩ := of_bind h
  obtain ⟨⟨x, m', q'⟩, hm, hloop⟩ := of_bind hloop
  obtain ⟨-, hloop⟩ := Prod.mk.inj (Except.ok.inj hloop)
  obtain ⟨rfl, rfl⟩ := Prod.mk.inj hloop
  exact ⟨x, m', q', hm, rfl⟩

variable (hk : OneFull k m)

include hk in
open CacheHit in
lemma OneFull.getComputedBlocks {r : Request} {hits : List (List ℕ)} {n : ℕ}
    (h : k.getComputedBlocks r = .ok (hits, n)) : ∃ bs, hits = [bs] ∧ n = bs.length * m.blockSize ∧
      ∀ (i b : ℕ), bs[i]? = some b → ∃ x, r.blockHashes[i]? = some x ∧
        b ∈ k.blockPool.cachedBlockHashToBlock (groupKey x) := by
  obtain ⟨bs, rfl, rfl⟩ : ∃ bs, hits = [bs] ∧ n = bs.length * m.blockSize := by
    have hrun := h
    unfold KVCacheManager.getComputedBlocks at hrun
    obtain ⟨d, hd⟩ := hk.coordinator
    split at hrun
    · cases hrun
      exact ⟨[], by rw [hk.managers]; rfl, by simp⟩
    unfold findLongestCacheHit at hrun
    rw [hd, hk.managers] at hrun
    obtain ⟨rows, -, ⟨⟩⟩ := of_bind hrun
    exact ⟨_, rfl, by rw [length_map]⟩
  refine ⟨bs, rfl, rfl, fun i b hi => ?_⟩
  have hm : k.managers[0]? = some m := by rw [hk.managers]; rfl
  obtain ⟨hs, x, hhs, hx, hb⟩ := getComputedBlocks_hashedAt hk.consistent h hm rfl hi hk.full
  rw [blockHashesAt, if_pos hk.size] at hhs
  cases hhs
  rw [hk.gid] at hb
  exact ⟨x, hx, hb⟩

/-! ## Allocation -/

variable {nLocal nExternal : ℤ}

lemma addLocalComputedBlocks_full (hfull : m.spec.attention = .full)
    (h : m.addLocalComputedBlocks p rid bs nLocal nExternal = .ok (m', q)) :
    m.blocksOf rid = [] ∧ touch bs p = .ok q ∧ SameConfig m m' ∧
    m'.reqToBlocks = m.reqToBlocks.insert rid bs ∧
      m'.numCachedBlock = m.numCachedBlock.insert rid bs.length := by
  have hzero : (m.numSkippedBlocks (nLocal + nExternal)).toNat = 0 := by
    simp [numSkippedBlocks, getNumSkippedTokens, hfull]
  obtain ⟨hcr, -⟩ | ⟨hemp, htch, rfl⟩ := addLocalComputedBlocks_cases h
  · rw [hfull] at hcr
    cases hcr
  · rw [hzero] at htch ⊢
    exact ⟨hemp, htch, ⟨rfl, rfl, rfl, rfl⟩, rfl, rfl⟩

lemma allocateExternalComputedBlocks_full (hfull : m.spec.attention = .full)
    (h : m.allocateExternalComputedBlocks p rid nLocal nExternal = .ok (m', q)) :
    (m' = m ∧ q = p) ∨ ∃ new, p.getNewBlocks
    (cdiv (nLocal + nExternal) m.blockSize - (m.blocksOf rid).length) =
      .ok (new, q) ∧ m' = m.setBlocks rid (m.blocksOf rid ++ new) := by
  unfold allocateExternalComputedBlocks at h
  rw [hfull] at h
  dsimp only at h
  generalize (if _ > (0 : ℤ) then min _ nExternal else nExternal) = external at h
  split at h
  · cases h
    exact .inl ⟨rfl, rfl⟩
  · obtain ⟨⟨new, q'⟩, hnew, ⟨⟩⟩ := of_bind h
    exact .inr ⟨new, hnew, rfl⟩

include hk in
lemma addComputedBlocks_chained {a : AllocArgs} {nLocal : ℤ}
    (h : Chained parent k.blockPool m popped hashes) (hr : hashes r.requestId = r.blockHashes)
    (hhits : ∀ (i b : ℕ), bs[i]? = some b → ∃ x, r.blockHashes[i]? = some x ∧
      b ∈ k.blockPool.cachedBlockHashToBlock (groupKey x)) (hlocal : (bs.length * m.blockSize : ℕ) ≤
        nLocal)
    (hout : k.addComputedBlocks r a [bs] nLocal = .ok k') :
    ∃ m', OneFull k' m' ∧ Chained parent k'.blockPool m' popped hashes := by
  unfold addComputedBlocks at hout
  split at hout
  · unfold allocateNewComputedBlocks at hout
    split at hout
    · obtain ⟨_, -, ⟨⟩⟩ := of_bind hout
      exact ⟨m, hk, h⟩
    obtain ⟨⟨_, k1⟩, hrun, hout⟩ := of_bind hout
    obtain ⟨_, m1, p1, hm1, rfl⟩ := withManagers_single hk.managers hrun
    obtain ⟨bs', hbs', hm1⟩ := of_bind hm1
    rw [hk.gid] at hbs'
    obtain rfl : bs = bs' := Except.ok.inj hbs'
    obtain ⟨hemp, htch, hconf, htab, hcached⟩ :=
      addLocalComputedBlocks_full hk.full (silent_eq_ok hm1)
    -- A block is cached under one hash, and the hashes of a request are distinct.
    have hnd : bs.Nodup := by
      rw [nodup_iff_injective_getElem]
      rintro ⟨i, hi⟩ ⟨j, hj⟩ heq
      obtain ⟨x, hx, hbx⟩ := hhits i bs[i] (getElem?_eq_getElem hi)
      obtain ⟨y, hy, hby⟩ := hhits j bs[j] (getElem?_eq_getElem hj)
      have heq : bs[i] = bs[j] := heq
      rw [← heq] at hby
      have hkey := Option.some.inj ((h.counted.map.keyed hbx).symm.trans (h.counted.map.keyed hby))
      obtain rfl := groupKey_injective hkey
      exact Fin.ext ((hr ▸ h.rooted r.requestId).index_unique hx hy)
    have h1 := h.touch hemp hnd (hr.symm ▸ hhits) htch htab hcached
    have hk1 := hk.congr hconf (sameCached_touch htch).toSameSetup
    dsimp only at hout
    split at hout
    next hext =>
      obtain ⟨⟨_, k2⟩, hrun, ⟨⟩⟩ := of_bind hout
      obtain ⟨_, m2, p2, hm2, rfl⟩ := withManagers_single hk1.managers hrun
      rcases allocateExternalComputedBlocks_full hk1.full (silent_eq_ok hm2) with ⟨rfl, rfl⟩ |
        ⟨new, hnew, rfl⟩
      · exact ⟨_, hk1, h1⟩
      refine ⟨_, hk1.congr ⟨rfl, rfl, rfl, rfl⟩ (sameSetup_getNewBlocks hnew),
        h1.take ?_ hnew rfl rfl⟩
      have hlen : m1.blocksOf r.requestId = bs := by rw [blocksOf_insert htab, if_pos rfl]
      have hle : (bs.length : ℤ) ≤ cdiv (nLocal + a.numExternalComputedTokens) m1.blockSize := by
        apply le_cdiv_of_mul_le hk1.pos
        rw [hconf.blockSize]
        omega
      rw [hlen]
      omega
    · cases hout
      exact ⟨_, hk1, h1⟩
  · cases hout
    exact ⟨m, hk, h⟩

lemma blocksOf_setBlocks (m : SingleTypeKVCacheManager) (rid : String) (bs : List ℕ) :
    (m.setBlocks rid bs).blocksOf rid = bs := by
  rw [blocksOf_insert (m := m) rfl, if_pos rfl]

include hk

lemma allocateNewBlocks_chained {need main encoder : ℤ} {new : List (List ℕ)}
    (h : Chained parent k.blockPool m popped hashes)
    (hout : k.allocateNewBlocks rid need main encoder = .ok (new, k')) :
    ∃ m', OneFull k' m' ∧ Chained parent k'.blockPool m' popped hashes ∧
      cdiv need m'.blockSize ≤ (m'.blocksOf rid).length := by
  obtain ⟨new', m', q, hm, rfl⟩ := withManagers_single hk.managers hout
  have hcr : ¬ m.spec.attention = .crossAttention := by
    rw [hk.full]
    decide
  rw [if_neg hcr, SingleTypeKVCacheManager.allocateNewBlocks, hk.full] at hm
  unfold baseAllocateNewBlocks at hm
  dsimp only at hm
  split at hm
  next hle =>
    cases hm
    refine ⟨_, hk.congr ⟨rfl, rfl, rfl, rfl⟩ (.refl _), h.setSame rfl rfl, ?_⟩
    show cdiv need m.blockSize ≤ ((m.setBlocks rid (m.blocksOf rid)).blocksOf rid).length
    rw [blocksOf_setBlocks]
    omega
  rename_i hgt
  obtain ⟨⟨taken, q'⟩, hnew, ⟨⟩⟩ := of_bind hm
  have hlen := (h.free.getNewBlocks h.counted.map (not_le.mp hgt).le hnew).2.2
  refine ⟨_, hk.congr ⟨rfl, rfl, rfl, rfl⟩ (sameSetup_getNewBlocks hnew),
    h.take (not_le.mp hgt).le hnew rfl rfl, ?_⟩
  show cdiv need m.blockSize ≤ ((m.setBlocks rid (m.blocksOf rid ++ taken)).blocksOf rid).length
  rw [blocksOf_setBlocks, length_append]
  push_cast
  omega

lemma coordinatorCacheBlocks_chained {env : HashEnv} {n : ℤ}
    (h : Chained parent k.blockPool m popped hashes) (hr : hashes r.requestId = r.blockHashes)
    (hle : n / m.blockSize ≤ (m.blocksOf r.requestId).length)
    (hout : k.coordinatorCacheBlocks env r n = .ok k') :
    ∃ m', OneFull k' m' ∧ Chained parent k'.blockPool m' popped hashes := by
  obtain ⟨⟨_, k1⟩, hrun, ⟨⟩⟩ := of_bind hout
  obtain ⟨_, m', q, hm, rfl⟩ := withManagers_single hk.managers hrun
  have hm := silent_eq_ok hm
  obtain ⟨d, hd⟩ := hk.coordinator
  rw [numTokensToCache, hd, SingleTypeKVCacheManager.cacheBlocks, hk.full] at hm
  unfold baseCacheBlocks at hm
  dsimp only at hm
  split at hm
  · cases hm
    exact ⟨m, hk.congr (.refl m) (.refl _), h⟩
  rename_i hlt
  obtain ⟨mask, hmask, hm⟩ := of_bind hm
  obtain ⟨q', hcache, ⟨⟩⟩ := of_bind hm
  rw [reachableBlockMask, hk.full] at hmask
  cases hmask
  refine ⟨_, hk.congr ⟨rfl, rfl, rfl, rfl⟩ (sameQueue_cacheFullBlocks hcache).toSameSetup,
    h.cache hk.size hk.gid hr (not_le.mp hlt) ?_ hcache rfl rfl⟩
  omega

lemma removeSkippedBlocks_full {n : ℤ} (h : k.removeSkippedBlocks rid n = .ok k') : k' = k := by
  obtain ⟨⟨_, k1⟩, hrun, ⟨⟩⟩ := of_bind h
  obtain ⟨_, m', q, hm, rfl⟩ := withManagers_single hk.managers hrun
  have hm := silent_eq_ok hm
  rw [SingleTypeKVCacheManager.removeSkippedBlocks, hk.full] at hm
  have hzero : getNumSkippedTokens m.spec.attention n ≤ 0 := by
    rw [hk.full]
    exact le_rfl
  rw [baseRemoveSkippedBlocks, if_pos hzero] at hm
  cases hm
  rw [← hk.managers]

lemma allocateSlots_chained {env : HashEnv} {a : AllocArgs} {n : ℕ}
    {new : Option (List (List ℕ))} (h : Chained parent k.blockPool m popped hashes)
    (hr : hashes r.requestId = r.blockHashes) (hstart : 0 ≤ r.numComputedTokens)
    (hfits : r.numTokens ≤ k.maxModelLen)
    (hhits : ∀ (i b : ℕ), bs[i]? = some b → ∃ x, r.blockHashes[i]? = some x ∧
      b ∈ k.blockPool.cachedBlockHashToBlock (groupKey x)) (hn : n = bs.length * m.blockSize)
    (hout : k.allocateSlots env r a n [bs] = .ok (new, k')) :
    ∃ m', OneFull k' m' ∧ Chained parent k'.blockPool m' popped hashes := by
  obtain ⟨-, rfl⟩ | ⟨k1, num, hskip, -, ⟨-, -, rfl⟩ | ⟨-, new', hcommit, -⟩⟩ :=
    allocateSlots_cases hout
  · exact ⟨m, hk, h⟩
  · rw [removeSkippedBlocks_full hk hskip]
    exact ⟨m, hk, h⟩
  obtain rfl := removeSkippedBlocks_full hk hskip
  obtain ⟨k2, hcomp, hcommit⟩ := of_bind hcommit
  obtain ⟨⟨new3, k3⟩, hnew, hcommit⟩ := of_bind hcommit
  obtain ⟨m2, hk2, h2⟩ := addComputedBlocks_chained hk h hr hhits (by omega) hcomp
  obtain ⟨m3, hk3, h3, hcovers⟩ := allocateNewBlocks_chained hk2 h2 hnew
  dsimp only at hcommit
  split at hcommit
  · cases hcommit
    exact ⟨m3, hk3, h3⟩
  obtain ⟨k4, hcache, ⟨⟩⟩ := of_bind hcommit
  refine coordinatorCacheBlocks_chained hk3 h3 hr ?_ hcache
  -- The tokens to cache are among those that need a slot.
  refine le_trans ?_ hcovers
  refine le_trans ?_ (cdiv_mono hk3.pos (a := min (min (r.numComputedTokens + n +
    a.numExternalComputedTokens) k1.maxModelLen + a.numNewTokens) r.numTokens) (by omega))
  apply le_cdiv_of_mul_le hk3.pos
  exact Int.ediv_mul_le _ (by have := hk3.pos; omega)

end KVCacheManager

variable (env : HashEnv)

def chainHashes (blocks : List (List ℕ × Option (List ExtraKey))) : List Bytes :=
  Chain.chain (hashStep env) env.noneHash blocks

/-- Equal hashes come from equal chains of blocks. -/
def ChainsDistinct (chains : Set (List (List ℕ × Option (List ExtraKey)))) : Prop :=
  ∀ c ∈ chains, ∀ d ∈ chains, ∀ (i j : ℕ) (x : Bytes), (chainHashes env c)[i]? = some x →
    (chainHashes env d)[j]? = some x → c.take (i + 1) = d.take (j + 1)

section chains

variable {env : HashEnv} {chains : Set (List (List ℕ × Option (List ExtraKey)))}

lemma getElem?_chainHashes {blocks : List (List ℕ × Option (List ExtraKey))} {i : ℕ}
    (h : (chainHashes env blocks)[i]? = some x) :
    i < blocks.length ∧ x = (blocks.take (i + 1)).foldl (hashStep env) env.noneHash := by
  have hlt := lt_of_getElem? h
  rw [chainHashes, Chain.length_chain] at hlt
  rw [chainHashes, Chain.getElem?_chain _ _ _ i hlt] at h
  exact ⟨hlt, (Option.some.inj h).symm⟩

lemma ChainsDistinct.before (h : ChainsDistinct env chains)
    {c d : List (List ℕ × Option (List ExtraKey))}
    (hc : c ∈ chains) (hd : d ∈ chains) {i j : ℕ} (hi : (chainHashes env c)[i]? = some x)
    (hj : (chainHashes env d)[j]? = some x) :
    i = j ∧ ∀ k ≤ i, (chainHashes env c)[k]? = (chainHashes env d)[k]? := by
  have htake := h c hc d hd i j x hi hj
  obtain ⟨hic, -⟩ := getElem?_chainHashes hi
  obtain ⟨hjd, -⟩ := getElem?_chainHashes hj
  have hlen := congrArg length htake
  rw [length_take, length_take] at hlen
  obtain rfl : i = j := by omega
  refine ⟨rfl, fun k hk => ?_⟩
  have hprefix : c.take (k + 1) = d.take (k + 1) := by
    have := congrArg (take (k + 1)) htake
    rwa [take_take, take_take, Nat.min_eq_left (by omega)] at this
  rw [chainHashes, chainHashes, Chain.getElem?_chain _ _ _ k (by omega),
    Chain.getElem?_chain _ _ _ k (by omega), hprefix]

lemma ChainsDistinct.exists_parent (h : ChainsDistinct env chains) :
    ∃ parent, ∀ c ∈ chains, Rooted parent (chainHashes env c) := by
  classical
  let Before (x y : Bytes) : Prop := ∃ c ∈ chains, ∃ i : ℕ,
    (chainHashes env c)[i]? = some y ∧ (chainHashes env c)[i + 1]? = some x
  refine ⟨fun x => if hx : ∃ y, Before x y then some hx.choose else none,
    fun c hc => ⟨fun x hx => ?_,
    fun i x y hx hy => ?_⟩⟩
  · refine dif_neg ?_
    rintro ⟨y, d, hd, j, -, hj⟩
    have := (h.before hc hd hx hj).1
    omega
  have hex : ∃ z, Before y z := ⟨x, c, hc, i, hx, hy⟩
  obtain ⟨d, hd, j, hz, hj⟩ := hex.choose_spec
  obtain ⟨hij, hsame⟩ := h.before hc hd hy hj
  obtain rfl : i = j := by omega
  rw [dif_pos hex]
  rw [← hsame i (by omega), hx] at hz
  exact hz.symm

end chains

/-! ## Runs -/

/-- The manager with the hashes of each request as they were last seen. -/
structure ChainState extends KVState where
  hashes : String → List Bytes := fun _ => []

namespace ChainState

def passed (hashes : String → List Bytes) : KVCall → String → List Bytes
  | .allocateWithHits r _ | .allocate r _ | .cacheBlocks r _ =>
    update hashes r.requestId r.blockHashes
  | .free rid | .popBlocksForFree rid => update hashes rid []
  | _ => hashes

def call (s : ChainState) (c : KVCall) : Py ChainState := do
  let t ← s.toKVState.call env c
  .ok { t with hashes := passed s.hashes c }

def slots (s : ChainState) (rid : String) : ℕ :=
  (s.kv.managers.map fun m => (m.blocksOf rid).length * m.blockSize).sum

/-- Requests are hashed block by block and only gain hashes while they hold blocks, tokens with
slots are cached, none is evicted by id. -/
def Orderly (chains : Set (List (List ℕ × Option (List ExtraKey)))) (s : ChainState) (c : KVCall) :
    Prop :=
  (∀ r, c.request? = some r → (∃ blocks ∈ chains, r.blockHashes = chainHashes env blocks) ∧
    s.hashes r.requestId <+: r.blockHashes ∧ 0 ≤ r.numComputedTokens ∧
      r.numTokens ≤ s.kv.maxModelLen) ∧
  match c with
  | .cacheBlocks r n => n ≤ s.slots r.requestId
  | .evictBlocks _ => False
  | _ => True

variable {s t : ChainState} {env : HashEnv} {chains : Set (List (List ℕ × Option (List ExtraKey)))}
  {parent : Bytes → Option Bytes}

def Good (parent : Bytes → Option Bytes) (s : ChainState) : Prop :=
  ∃ m, s.kv.OneFull m ∧ Chained parent s.kv.blockPool m s.popped s.hashes

/-- Every orderly call keeps the invariant. -/
lemma Good.call {c : KVCall} (h : Good parent s)
    (hparent : ∀ b ∈ chains, Rooted parent (chainHashes env b))
    (hok : Orderly env chains s c) (hcall : s.call env c = .ok t) : Good parent t := by
  obtain ⟨m, hk, hm⟩ := h
  obtain ⟨hreq, hok⟩ := hok
  obtain ⟨u, hu, ⟨⟩⟩ := of_bind hcall
  -- The hashes of the request are recorded first.
  have hgrow : ∀ r, c.request? = some r →
      Chained parent s.kv.blockPool m s.popped (update s.hashes r.requestId r.blockHashes) := by
    intro r hr
    obtain ⟨⟨blocks, hblk, heq⟩, hle, -⟩ := hreq r hr
    exact hm.grow (heq ▸ hparent blocks hblk) hle
  cases c with
  | allocateWithHits r a =>
    obtain ⟨⟨hits, n⟩, hhits, hu⟩ := of_bind hu
    obtain ⟨⟨new, k⟩, hal, ⟨⟩⟩ := of_bind hu
    obtain ⟨bs, rfl, hn, hcached⟩ := hk.getComputedBlocks hhits
    obtain ⟨-, -, hstart, hfits⟩ := hreq r rfl
    exact allocateSlots_chained hk (hgrow r rfl) (update_self ..) hstart hfits hcached hn
      hal
  | allocate r a =>
    obtain ⟨⟨new, k⟩, hal, ⟨⟩⟩ := of_bind hu
    obtain ⟨-, -, hstart, hfits⟩ := hreq r rfl
    rw [hk.managers] at hal
    exact allocateSlots_chained hk (hgrow r rfl) (update_self ..) hstart hfits
      (fun i b hi => by simp at hi) (by simp) hal
  | removeSkippedBlocks rid n =>
    obtain ⟨k, hrun, ⟨⟩⟩ := of_bind hu
    rw [removeSkippedBlocks_full hk hrun]
    exact ⟨m, hk, hm⟩
  | cacheBlocks r n =>
    obtain ⟨k, hrun, ⟨⟩⟩ := of_bind hu
    rw [KVCacheManager.cacheBlocks, if_pos hk.caching] at hrun
    have hsl : n ≤ ((m.blocksOf r.requestId).length * m.blockSize : ℕ) := by
      have hok : n ≤ s.slots r.requestId := hok
      rw [slots, hk.managers] at hok
      simpa using hok
    refine coordinatorCacheBlocks_chained hk (hgrow r rfl) (update_self ..) ?_ hrun
    have hpos : (0 : ℤ) < m.blockSize := by
      have := hk.pos
      omega
    refine Int.ediv_le_of_le_mul hpos ?_
    push_cast at hsl
    exact hsl
  | free rid =>
    obtain ⟨k, hrun, ⟨⟩⟩ := of_bind hu
    obtain ⟨⟨_, k1⟩, hloop, ⟨⟩⟩ := of_bind hrun
    obtain ⟨_, m', q, hfreed, rfl⟩ := withManagers_single hk.managers hloop
    cases hfreed
    have hfree := (hm.pop rid).freePopped (i := 0) rfl
    exact ⟨_, hk.congr (popBlocksForFree_sameConfig m rid) (sameCached_freeBlocks _ _).toSameSetup,
      hfree⟩
  | popBlocksForFree rid =>
    obtain ⟨⟨blocks, k⟩, hpop, ⟨⟩⟩ := of_bind hu
    obtain ⟨rfl, rfl⟩ := popBlocksForFree_eq hpop
    have hpopped := hm.pop rid
    rw [hk.managers]
    refine ⟨_, hk.congr (popBlocksForFree_sameConfig m rid) (.refl _), ?_⟩
    simpa [passed] using hpopped
  | freePopped i =>
    simp only [KVState.call] at hu
    split at hu
    · cases hu
    rename_i bs hi
    cases hu
    have hset := (sameCached_freeBlocks s.kv.blockPool bs.reverse).toSameSetup
    have hk' := hk.congr (.refl m) hset
    rw [← hk.managers] at hk'
    exact ⟨m, hk', hm.freePopped hi⟩
  | evictBlocks ids => exact hok.elim
  | resetPrefixCache =>
    cases hu
    have hk' := hk.congr (.refl m) (sameQueue_reset s.kv.blockPool).toSameSetup
    rw [← hk.managers] at hk'
    exact ⟨m, hk', hm.reset⟩
  | newStepStarts =>
    cases hu
    have hconf : SameConfig m m.newStepStarts := ⟨rfl, rfl, rfl, rfl⟩
    refine ⟨m.newStepStarts, ?_, hm.congr rfl rfl⟩
    rw [KVCacheManager.newStepStarts, hk.managers]
    exact hk.congr hconf (.refl s.kv.blockPool)

lemma Good.init {a : KVCacheManagerArgs} {k : KVCacheManager} {g : KVCacheGroupSpec}
    (hinit : init a = .ok k) (hgs : a.groups = [g])
    (hfull : g.kvCacheSpec.attention = .full) (hcach : a.enableCaching = true)
    (hsize : 0 < g.kvCacheSpec.blockSize) (hcp : 0 < a.cp) : Good parent { kv := k } := by
  have hledger := KVState.Ledger.init hinit
  obtain ⟨_, -, hinit⟩ := of_bind hinit
  obtain ⟨_, hblk, hinit⟩ := of_bind hinit
  obtain ⟨_, -, hinit⟩ := of_bind hinit
  obtain ⟨⟨coordinator, eagle⟩, hcoord, ⟨⟩⟩ := of_bind hinit
  have hmanagers : (a.groups.mapIdx fun gid g => makeManager a (eagle gid) g gid) =
    [makeManager a (eagle 0) g 0] := by
    rw [hgs]
    rfl
  unfold makeCoordinator at hcoord
  rw [if_neg (not_not.mpr hcach), hgs] at hcoord
  obtain ⟨_, hhash, hcoord⟩ := of_bind hcoord
  obtain ⟨rfl, -⟩ := Prod.mk.inj (Except.ok.inj hcoord)
  refine ⟨makeManager a (eagle 0) g 0, ⟨hmanagers, hfull, rfl, ?_, Nat.mul_pos hsize hcp, hcach,
    hcach, hcach, ⟨_, rfl⟩⟩, ?_⟩
  · exact (of_pyAssert hhash).symm
  have hcounted := hledger.counted (l := []) (r := []) hmanagers
  exact
    { counted := by simpa [heldBy] using hcounted
      free := freeOk_init _ _ _ _ _ (of_pyAssert hblk)
      caching := hcach
      hashed := hashesCached_init _ _ _ _ _
      rooted := fun _ => rooted_nil parent
      tables := fun _ => .nil _ _
      lists := fun bs hbs => by cases hbs
      later := fun b _ x y _ hmem => by cases hmem }

/-- In every reachable state the cached hashes are prefix-closed, and the scan over a chain stops
only where no later block of the chain is cached. -/
theorem cached_prefixClosed (env : HashEnv) {a : KVCacheManagerArgs} {k : KVCacheManager}
    {g : KVCacheGroupSpec} (hinit : init a = .ok k) (hgroups : a.groups = [g])
    (hfull : g.kvCacheSpec.attention = .full) (hcaching : a.enableCaching = true)
    (hsize : 0 < g.kvCacheSpec.blockSize) (hcp : 0 < a.cp) (hdistinct : ChainsDistinct env chains)
    {calls : List KVCall} (hrun : Machine.Run (call env) (Orderly env chains) { kv := k } calls s)
    {blocks : List (List ℕ × Option (List ExtraKey))} (hblocks : blocks ∈ chains) :
    let p := s.kv.blockPool
    let hashes := chainHashes env blocks
    (∀ (i : ℕ) (x y : Bytes), hashes[i]? = some x → hashes[i + 1]? = some y →
      p.cachedBlockHashToBlock (makeBlockHashWithGroupId y 0) ≠ [] →
      p.cachedBlockHashToBlock (makeBlockHashWithGroupId x 0) ≠ []) ∧
    ∀ maxNumBlocks : ℕ, (cachedPrefix p [0] (hashes.take maxNumBlocks)).length < maxNumBlocks →
      ∀ (i : ℕ) (x : Bytes), (cachedPrefix p [0] (hashes.take maxNumBlocks)).length ≤ i →
        hashes[i]? = some x → p.cachedBlockHashToBlock (makeBlockHashWithGroupId x 0) = [] := by
  intro p hashes
  obtain ⟨parent, hparent⟩ := hdistinct.exists_parent
  obtain ⟨m, -, hm⟩ : Good parent s :=
    hrun.invariant (P := Good parent) (fun _ _ _ h hok hcall => h.call hparent hok hcall)
      (.init hinit hgroups hfull hcaching hsize hcp)
  have hclosed : ∀ (i : ℕ) (x y : Bytes), hashes[i]? = some x → hashes[i + 1]? = some y →
      p.cachedBlockHashToBlock (groupKey y) ≠ [] → p.cachedBlockHashToBlock (groupKey x) ≠ [] :=
    fun i x y hx hy => hm.closed ((hparent blocks hblocks).next i x y hx hy)
  refine ⟨hclosed, fun maxNumBlocks hlt i x hle hx => ?_⟩
  generalize hn : (cachedPrefix p [0] (hashes.take maxNumBlocks)).length = n at hlt hle
  -- Index `n` was looked up and not found; from there on nothing is cached.
  induction i, hle using Nat.le_induction generalizing x with
  | base =>
    have hstop :
      (hashes.take maxNumBlocks)[(cachedPrefix p [0] (hashes.take maxNumBlocks)).length]? =
      some x := by
      rw [hn, getElem?_take, if_pos hlt, hx]
    have hmiss := cachedPrefix_stop hstop
    have hnone : (p.cachedBlockHashToBlock (makeBlockHashWithGroupId x 0)).head? = none := by
      rw [Option.eq_none_iff_forall_ne_some]
      simpa [getCachedBlock, getOneBlock] using hmiss
    exact head?_eq_none_iff.mp hnone
  | succ i hle ih =>
    by_contra hcached
    have hlen : i < hashes.length := by
      have := lt_of_getElem? hx
      omega
    have hi : hashes[i]? = some hashes[i] := getElem?_eq_getElem hlen
    exact hclosed i _ x hi hx hcached (ih _ hi)

def prependEnv : HashEnv := ⟨fun t => 1 :: t.1, [0], id⟩

def twoBlocks : List (List ℕ × Option (List ExtraKey)) := [([7, 8], none), ([9, 10], none)]

def twoBlockRequest : Request where
  requestId := "r"
  promptTokenIds := some [7, 8, 9, 10]
  numPromptTokens := 4
  allTokenIds := [7, 8, 9, 10]
  blockHashes := [[1, 0], [1, 1, 0]]

lemma chainsDistinct_twoBlocks : ChainsDistinct prependEnv {twoBlocks} := by
  rintro c rfl d rfl i j x hi hj
  obtain ⟨hj', -⟩ := getElem?_chainHashes hj
  have hnd : (chainHashes prependEnv twoBlocks).Nodup := by decide
  have hlt := lt_of_getElem? hi
  rw [(getElem?_inj hlt hnd).mp (hi.trans hj.symm)]

/-- Freed after its second block was cached, the request leaves its first block cached too. -/
theorem twoBlocks_prefixClosed : ∃ k s, init KVState.smallArgs = .ok k ∧
    Machine.Run (call prependEnv) (Orderly prependEnv {twoBlocks}) { kv := k }
      [.allocateWithHits twoBlockRequest { numNewTokens := 4 }, .free "r"] s ∧
    s.kv.blockPool.cachedBlockHashToBlock (makeBlockHashWithGroupId [1, 1, 0] 0) = [2] ∧
    s.kv.blockPool.cachedBlockHashToBlock (makeBlockHashWithGroupId [1, 0] 0) ≠ [] := by
  refine Exists.imp (fun k => Exists.imp fun s (h : _ ∧ _ ∧ _ = [2]) => ⟨h.1, h.2.1, h.2.2, ?_⟩)
    ⟨_, _, rfl, .cons ⟨fun r hr => ?_, trivial⟩ rfl (.cons ⟨fun r hr => ?_, trivial⟩ rfl (.nil _)),
      rfl⟩
  · obtain ⟨hinit, hrun, hcached⟩ := h
    have hclosed := (cached_prefixClosed prependEnv hinit rfl rfl rfl (by decide) (by decide)
      chainsDistinct_twoBlocks hrun (Set.mem_singleton twoBlocks)).1
    exact hclosed 0 [1, 0] [1, 1, 0] rfl rfl (by rw [hcached]; decide)
  · cases hr
    exact ⟨⟨twoBlocks, rfl, rfl⟩, nil_prefix, by decide, by decide⟩
  · cases hr

end ChainState

end Vllm
