import Vllm.KVCache.Lookup

/-!
# What a call can do to the tables and the pool

A call is a sequence of small steps, each on one table with one call on the pool. What a step says
under `H` or `C` follows from the callers' promises.
-/

namespace Vllm

open SingleTypeKVCacheManager Relation List BlockPool

/-! ## Steps -/

/-- The configuration is kept, and so is the shape that speculative tokens need. -/
structure Kept (H : Prop) (m m' : SingleTypeKVCacheManager) : Prop extends SameConfig m m' where
  speculative : H → m.Speculative → m'.Speculative

variable {H : Prop}

lemma Kept.refl (m : SingleTypeKVCacheManager) : Kept H m m :=
  { SameConfig.refl m with speculative := fun _ h => h }

lemma Kept.trans {m1 m2 m3 : SingleTypeKVCacheManager} (h : Kept H m1 m2) (h' : Kept H m2 m3) :
    Kept H m1 m3 :=
  { h.toSameConfig.trans h'.toSameConfig with
    speculative := fun hH hspec => h'.speculative hH (h.speculative hH hspec) }

lemma kept_insert {m m' : SingleTypeKVCacheManager} {rid : String} {bs : List ℕ}
    (hconf : SameConfig m m') (htab : m'.reqToBlocks = m.reqToBlocks.insert rid bs)
    (hal : m'.allocatedBlockReqs = m.allocatedBlockReqs)
    (hlen : H → (m.blocksOf rid).length ≤ bs.length) : Kept H m m' := by
  refine { hconf with speculative := fun hH h => h.insert hconf.spec htab ?_ ?_ }
  · rw [hal]
    exact fun _ hrid _ => hrid
  · rw [hal]
    exact fun mode numSpec hm hrid => (h mode numSpec hm rid hrid).trans (hlen hH)

/-- What a manager does while a table grows. -/
inductive GrowStep (H C : Prop) (env : HashEnv) (r : Request) (m : SingleTypeKVCacheManager)
    (p : BlockPool) : SingleTypeKVCacheManager → BlockPool → Prop
  /-- Hits of the prefix cache become the table of a request without blocks, behind `k` nulls. -/
  | touch {m' : SingleTypeKVCacheManager} {q : BlockPool} (k : ℕ) (bs : List ℕ)
      (hconf : Kept H m m') (hempty : m.blocksOf r.requestId = [])
      (hfull : H → m.spec.attention = .full → k = 0 ∧ ∀ i b, bs[i]? = some b → HashedAt p m r i b)
      (honce : H → ∀ b, b ≠ nullBlock → bs.count b ≤ 1)
      (hhits : H → ∀ i b, bs[i]? = some b → b ≠ nullBlock → CachedAt p m r (k + i) b)
      (htouch : BlockPool.touch bs p = .ok q)
      (htable : m'.reqToBlocks =
        m.reqToBlocks.insert r.requestId (List.replicate k nullBlock ++ bs))
      (hcached : m'.numCachedBlock = m.numCachedBlock.insert r.requestId (k + bs.length)) :
      GrowStep H C env r m p m' q
  | take {m' : SingleTypeKVCacheManager} {q : BlockPool} (n : ℤ) (new : List ℕ)
      (hconf : Kept H m m') (hnew : p.getNewBlocks n = .ok (new, q))
      (htable : m'.reqToBlocks =
        m.reqToBlocks.insert r.requestId (m.blocksOf r.requestId ++ new))
      (hcached : m'.numCachedBlock = m.numCachedBlock) (hn : C → 0 ≤ n) :
        GrowStep H C env r m p m' q
  /-- Nulls are added and blocks move inside the table (Mamba only). -/
  | rearrange {m' : SingleTypeKVCacheManager} (bs : List ℕ) (hconf : Kept H m m')
      (hcount : H → ∀ b, b ≠ nullBlock → bs.count b = (m.blocksOf r.requestId).count b)
      (hfull : m.spec.attention = .full → bs = m.blocksOf r.requestId)
      (htable : m'.reqToBlocks = m.reqToBlocks.insert r.requestId bs)
      (hcached : m'.numCachedBlock = m.numCachedBlock) : GrowStep H C env r m p m' p
  | cache {m' : SingleTypeKVCacheManager} {q : BlockPool} (numFull : ℕ) (mask : Option (List Bool))
      (hconf : Kept H m m') (hcaching : H → p.enableCaching = true)
      (hfull : m.spec.attention = .full → mask = none)
      (hlt : (m.numCachedBlock.lookup r.requestId).getD 0 < numFull)
      (hcache : p.cacheFullBlocks env r (m.blocksOf r.requestId)
        ((m.numCachedBlock.lookup r.requestId).getD 0) numFull m.blockSize m.kvCacheGroupId mask =
          .ok q)
      (htable : m'.reqToBlocks = m.reqToBlocks.insert r.requestId (m.blocksOf r.requestId))
      (hcached : m'.numCachedBlock = m.numCachedBlock.insert r.requestId numFull) :
      GrowStep H C env r m p m' q
  | other {m' : SingleTypeKVCacheManager} (hconf : Kept H m m')
      (htable : m'.reqToBlocks = m.reqToBlocks) (hcached : m'.numCachedBlock = m.numCachedBlock) :
      GrowStep H C env r m p m' p

/-- A table's skipped blocks are nulled and freed. -/
inductive RecycleStep (skipped : ℕ → Prop) (rid : String) (m : SingleTypeKVCacheManager)
    (p : BlockPool) : SingleTypeKVCacheManager → BlockPool → Prop
  | mk {m' : SingleTypeKVCacheManager} {q : BlockPool} (freed bs : List ℕ) (hconf : Kept True m m')
      (hwindow : m.spec.attention ≠ .full) (hpool : q = p.freeBlocks freed) (hlen : bs.length =
        (m.blocksOf rid).length)
      (hcount : ∀ b, b ≠ nullBlock → freed.count b + bs.count b = (m.blocksOf rid).count b)
      (hentry : ∀ i b, (m.blocksOf rid)[i]? = some b → bs[i]? = some b ∨ skipped i)
      (htable : m'.reqToBlocks = m.reqToBlocks.insert rid bs)
      (hcached : m'.numCachedBlock = m.numCachedBlock) :
      RecycleStep skipped rid m p m' q

/-- What a call does to a table of `rid`; `K` holds of the hash functions and requests passed
along. -/
inductive ManagerStep (H C : Prop) (K : HashEnv → Request → Prop) (rid : String)
    (m : SingleTypeKVCacheManager) (p : BlockPool) : SingleTypeKVCacheManager → BlockPool → Prop
  | grow {m' : SingleTypeKVCacheManager} {q : BlockPool} (env : HashEnv) (r : Request)
    (hr : K env r)
      (hrid : r.requestId = rid) (h : GrowStep H C env r m p m' q) : ManagerStep H C K rid m p m' q
  | recycle {m' : SingleTypeKVCacheManager} {q : BlockPool} {skipped : ℕ → Prop}
      (h : RecycleStep skipped rid m p m' q) : ManagerStep H C K rid m p m' q
  | free :
      ManagerStep H C K rid m p (m.popBlocksForFree rid).2 (p.freeBlocks (m.blocksOf rid).reverse)

/-- One of the managers takes a step. -/
inductive OneManager (Step : SingleTypeKVCacheManager → BlockPool → SingleTypeKVCacheManager →
    BlockPool → Prop) (k : KVCacheManager) : KVCacheManager → Prop
  | mk (l r : List SingleTypeKVCacheManager) (m m' : SingleTypeKVCacheManager) (q : BlockPool)
      (hk : k.managers = l ++ m :: r) (h : Step m k.blockPool m' q) :
      OneManager Step k { k with managers := l ++ m' :: r, blockPool := q }

/-- The steps that every call of the manager is made of. -/
inductive KVStep (H C : Prop) (K : HashEnv → Request → Prop) (s : KVState) : KVState → Prop
  | manager (rid : String) {k : KVCacheManager} (h : OneManager (ManagerStep H C K rid) s.kv k) :
      KVStep H C K s { s with kv := k }
  | pop (rid : String) : KVStep H C K s
      { kv := { s.kv with managers := s.kv.managers.map fun m => (m.popBlocksForFree rid).2 }
        popped := (s.kv.managers.map fun m => m.blocksOf rid).flatten :: s.popped }
  | freePopped (i : ℕ) (bs : List ℕ) (hi : s.popped[i]? = some bs) : KVStep H C K s
      { kv := { s.kv with blockPool := s.kv.blockPool.freeBlocks bs.reverse }
        popped := s.popped.eraseIdx i }
  | evict (ids : List ℕ) {q : BlockPool} (hq : s.kv.blockPool.evictBlocks ids = .ok q) :
      KVStep H C K s { s with kv := { s.kv with blockPool := q } }
  | reset : KVStep H C K s
      { s with kv := { s.kv with blockPool := s.kv.blockPool.resetPrefixCache.2 } }
  | newStep : KVStep H C K s { s with kv := s.kv.newStepStarts }

section config

variable {H C : Prop} {m m' : SingleTypeKVCacheManager} {p q : BlockPool} {rid : String}
  {env : HashEnv}
  {K : HashEnv → Request → Prop} {r : Request}

lemma GrowStep.kept (h : GrowStep H C env r m p m' q) : Kept H m m' := by cases h <;> assumption

lemma ManagerStep.kept (h : ManagerStep H C K rid m p m' q) : Kept H m m' := by
  cases h with
  | grow env r hr hrid h => exact h.kept
  | recycle h =>
    obtain ⟨_, _, hconf⟩ := h
    exact { hconf.toSameConfig with speculative := fun _ => hconf.speculative trivial }
  | free => exact { popBlocksForFree_sameConfig m rid with speculative := fun _ h => h.pop rid }

lemma GrowStep.sameSetup (h : GrowStep H C env r m p m' q) : p.SameSetup q := by
  cases h with
  | touch k bs hconf hemp hfull honce hhits htch htab hcached =>
    exact (sameCached_touch htch).toSameSetup
  | take n new hconf hnew htab hcached => exact sameSetup_getNewBlocks hnew
  | rearrange bs hconf hcnt hfull htab hcached => exact .refl p
  | cache numFull mask hconf hcach hfull hlt hcache htab hcached =>
    exact (sameQueue_cacheFullBlocks hcache).toSameSetup
  | other hconf htab hcached => exact .refl p

lemma ManagerStep.sameSetup (h : ManagerStep H C K rid m p m' q) : p.SameSetup q := by
  cases h with
  | grow env r hr hrid h => exact h.sameSetup
  | recycle h =>
    obtain ⟨freed, _, -, -, rfl⟩ := h
    exact (sameCached_freeBlocks p freed).toSameSetup
  | free => exact (sameCached_freeBlocks p _).toSameSetup

lemma KVStep.kept {s t : KVState} (h : KVStep H C K s t) :
    Forall₂ (Kept H) s.kv.managers t.kv.managers := by
  have hrefl : ∀ ms, Forall₂ (Kept H) ms ms := fun ms => forall₂_same.mpr fun m _ => .refl m
  cases h with
  | manager rid h =>
    obtain ⟨l, r, m, m', q, hk, h⟩ := h
    rw [hk]
    exact rel_append (hrefl l) (.cons h.kept (hrefl r))
  | pop rid =>
    exact forall₂_map_right_iff.mpr (forall₂_same.mpr fun m _ =>
      { popBlocksForFree_sameConfig m rid with speculative := fun _ h => h.pop rid })
  | newStep =>
    exact forall₂_map_right_iff.mpr (forall₂_same.mpr fun m _ =>
      ⟨⟨rfl, rfl, rfl, rfl⟩, fun _ h => h⟩)
  | _ => exact hrefl _

lemma KVStep.sameConfig {s t : KVState} (h : KVStep H C K s t) :
    Forall₂ SameConfig s.kv.managers t.kv.managers ∧ t.kv.coordinator = s.kv.coordinator ∧
      t.kv.enableCaching = s.kv.enableCaching ∧ s.kv.blockPool.SameSetup t.kv.blockPool := by
  refine ⟨h.kept.imp fun _ _ h => h.toSameConfig, ?_⟩
  cases h with
  | manager rid h =>
    obtain ⟨l, r, m, m', q, hk, h⟩ := h
    exact ⟨rfl, rfl, h.sameSetup⟩
  | pop rid => exact ⟨rfl, rfl, .refl _⟩
  | freePopped i bs hi => exact ⟨rfl, rfl, (sameCached_freeBlocks _ _).toSameSetup⟩
  | evict ids hq => exact ⟨rfl, rfl, (sameQueue_evictBlocks hq).toSameSetup⟩
  | reset => exact ⟨rfl, rfl, (sameQueue_reset _).toSameSetup⟩
  | newStep => exact ⟨rfl, rfl, .refl _⟩

end config

/-! ## Methods of one manager -/

namespace SingleTypeKVCacheManager

variable {H C : Prop} {m m' : SingleTypeKVCacheManager} {p q : BlockPool} {rid : String}
  {env : HashEnv}
  {r : Request}
variable {nLocal nExternal : ℤ} {n : ℤ} {hits : List ℕ} {new : List ℕ} {skipped : ℕ → Prop}

abbrev Steps (Step : SingleTypeKVCacheManager → BlockPool → SingleTypeKVCacheManager → BlockPool →
      Prop)
    (a b : SingleTypeKVCacheManager × BlockPool) : Prop :=
  ReflTransGen (fun x y => Step x.1 x.2 y.1 y.2) a b

lemma setBlocks_self_grow (m : SingleTypeKVCacheManager) (p : BlockPool) :
    GrowStep H C env r m p (m.setBlocks r.requestId (m.blocksOf r.requestId)) p :=
  .rearrange (m.blocksOf r.requestId) (kept_insert ⟨rfl, rfl, rfl, rfl⟩ rfl rfl fun _ => le_rfl)
    (fun _ _ _ => rfl) (fun _ => rfl) rfl rfl

section

variable (h : m.addLocalComputedBlocks p rid hits nLocal nExternal = .ok (m', q))
include h

lemma addLocalComputedBlocks_cases : let k := (m.numSkippedBlocks (nLocal + nExternal)).toNat
    let bs := replicate k nullBlock ++ hits.drop k
    (m.spec.attention = .crossAttention ∧ m' = m ∧ q = p) ∨
      (m.blocksOf rid = [] ∧ touch (hits.drop k) p = .ok q ∧
        m' =
          { m.setBlocks rid bs with numCachedBlock := m.numCachedBlock.insert rid bs.length }) := by
  unfold addLocalComputedBlocks at h
  split at h
  next hm =>
    obtain ⟨_, -, ⟨⟩⟩ := of_bind h
    exact .inl ⟨hm, rfl, rfl⟩
  obtain ⟨_, hemp, h⟩ := of_bind h
  obtain ⟨q', hq, ⟨⟩⟩ := of_bind h
  refine .inr ⟨by simpa using pyAssert_eq_ok.mp hemp, ?_, rfl⟩
  unfold touchComputed at hq
  split at hq
  · exact hq
  obtain ⟨_, hnone, ⟨⟩⟩ := of_bind hq
  rw [of_pyAssert hnone]
  rfl

lemma addLocalComputedBlocks_sameCache : SameCache p q := by
  obtain ⟨-, -, rfl⟩ | ⟨-, htch, -⟩ := addLocalComputedBlocks_cases h
  · exact ⟨rfl, rfl⟩
  · exact sameCache_of_cached (sameCached_touch htch)

lemma length_addLocalComputedBlocks : SameConfig m m' ∧ (m.spec.attention ≠ .crossAttention →
      (m'.blocksOf rid).length = max
      (m.numSkippedBlocks (nLocal + nExternal)).toNat hits.length) := by
  obtain ⟨hcr, rfl, -⟩ | ⟨-, -, rfl⟩ := addLocalComputedBlocks_cases h
  · exact ⟨.refl _, fun h => absurd hcr h⟩
  refine ⟨⟨rfl, rfl, rfl, rfl⟩, fun _ => ?_⟩
  simp only [blocksOf, setBlocks, AList.lookup_insert, Option.getD_some, length_append,
    length_replicate, length_drop]
  omega

end

lemma addLocalComputedBlocks_steps (honce : H → ∀ b, b ≠ nullBlock → hits.count b ≤ 1)
    (hhits : H → ∀ i b, hits[i]? = some b → b ≠ nullBlock → CachedAt p m r i b)
    (hfull : H → m.spec.attention = .full → ∀ i b, hits[i]? = some b → HashedAt p m r i b)
    (hout : m.addLocalComputedBlocks p r.requestId hits nLocal nExternal = .ok (m', q)) :
    Steps (GrowStep H C env r) (m, p) (m', q) := by
  obtain ⟨-, rfl, rfl⟩ | ⟨hemp, htch, rfl⟩ := addLocalComputedBlocks_cases hout
  · exact .refl
  generalize hk : (m.numSkippedBlocks (nLocal + nExternal)).toNat = k at htch
  refine .single (.touch k (hits.drop k) (kept_insert ⟨rfl, rfl, rfl, rfl⟩ rfl rfl fun _ => ?_) hemp
    (fun hH hm => ?_) (fun hH b hb => ((drop_sublist _ hits).count_le b).trans (honce hH b hb))
    (fun hH i b hi hb => ?_) htch rfl ?_)
  · rw [hemp]
    exact Nat.zero_le _
  · have hm : m.spec.attention = .full := hm
    have hzero : m.numSkippedBlocks (nLocal + nExternal) = 0 := by
      simp [numSkippedBlocks, getNumSkippedTokens, hm]
    obtain rfl : k = 0 := by omega
    exact ⟨rfl, hfull hH hm⟩
  · rw [getElem?_drop] at hi
    exact hhits hH (k + i) b hi hb
  · simp

lemma numSkippedBlocks_le_cdiv {total nExternal : ℤ} (htotal : 0 ≤ total)
    (hpos : 0 < if getNumSkippedTokens m.spec.attention total > 0 then
      min (total - getNumSkippedTokens m.spec.attention total) nExternal else nExternal) :
    ((m.numSkippedBlocks total).toNat : ℤ) ≤ cdiv total m.blockSize := by
  have hle : getNumSkippedTokens m.spec.attention total ≤ total := by split at hpos <;> omega
  have hskipped : m.numSkippedBlocks total ≤ cdiv total m.blockSize := by
    unfold numSkippedBlocks
    rcases Nat.eq_zero_or_pos m.blockSize with hzero | hsize
    · rw [hzero]
      simp [cdiv]
    · have hmul :=
        Int.ediv_mul_le (getNumSkippedTokens m.spec.attention total) (show (m.blockSize : ℤ) ≠ 0 by
          omega)
      exact le_cdiv_of_mul_le hsize (hmul.trans hle)
  have hcdiv := cdiv_nonneg htotal m.blockSize
  omega

lemma allocateExternalComputedBlocks_steps
    (hend : C → m.spec.attention ≠ .crossAttention → 0 ≤ nLocal + nExternal ∧
      ((m.blocksOf r.requestId).length : ℤ) ≤ max
      ((m.numSkippedBlocks (nLocal + nExternal)).toNat : ℤ)
        (cdiv (nLocal + nExternal) m.blockSize))
    (hout : m.allocateExternalComputedBlocks p r.requestId nLocal nExternal = .ok (m', q)) :
    Steps (GrowStep H C env r) (m, p) (m', q) := by
  unfold allocateExternalComputedBlocks at hout
  split at hout
  · cases hout
    exact .refl
  rename_i hcr
  dsimp only at hout
  generalize hext : (if _ > (0 : ℤ) then min _ nExternal else nExternal) = external at hout
  split at hout
  · cases hout
    exact .refl
  rename_i hpos
  obtain ⟨⟨new, q'⟩, hnew, ⟨⟩⟩ := of_bind hout
  refine .single (.take _ new (kept_insert ⟨rfl, rfl, rfl, rfl⟩ rfl rfl fun _ => ?_) hnew rfl rfl
    fun hC => ?_)
  · simp
  obtain ⟨htotal, hlen⟩ := hend hC hcr
  have hskipped := numSkippedBlocks_le_cdiv htotal (hext ▸ not_le.mp hpos)
  omega

lemma baseAllocateNewBlocks_steps {numTokens : ℤ}
    (hout : m.baseAllocateNewBlocks p r.requestId numTokens = .ok (new, m', q)) :
    Steps (GrowStep H C env r) (m, p) (m', q) := by
  unfold baseAllocateNewBlocks at hout
  dsimp only at hout
  split at hout
  · cases hout
    exact .single (setBlocks_self_grow m p)
  rename_i hpos
  obtain ⟨⟨new', q'⟩, hnew, ⟨⟩⟩ := of_bind hout
  refine .single (.take _ new' (kept_insert ⟨rfl, rfl, rfl, rfl⟩ rfl rfl fun _ => ?_) hnew rfl rfl
    fun _ => ?_)
  · simp
  · omega

variable {mode : MambaCacheMode}

lemma alignAllocateNewBlocks_steps {numSpec : ℕ} {numTokensMainModel : ℤ}
    (h : H → m.Speculative ∧ 0 ≤ numTokensMainModel) (hm : m.spec.attention = .mamba mode numSpec)
    (hout : m.alignAllocateNewBlocks p r.requestId numSpec numTokensMainModel = .ok (new, m', q)) :
    Steps (GrowStep H C env r) (m, p) (m', q) := by
  unfold alignAllocateNewBlocks at hout
  dsimp only at hout
  split at hout
  · cases hout
    exact .single (setBlocks_self_grow m p)
  rename_i hreq
  obtain ⟨reused, hreused, hout⟩ := of_bind hout
  obtain ⟨_, -, hout⟩ := of_bind hout
  obtain ⟨⟨new', q'⟩, hnew, ⟨⟩⟩ := of_bind hout
  obtain ⟨hroom, hmv⟩ := reuseSpeculative_spec hm (not_le.mp hreq) hreused
  have hmove : Steps (GrowStep H C env r) (m, p) (m.setBlocks r.requestId reused, p) :=
    .single (.rearrange reused
      (kept_insert ⟨rfl, rfl, rfl, rfl⟩ rfl rfl fun hH => (hmv (h hH).1).1)
      (fun hH => (hmv (h hH).1).2) (fun hfull => by rw [hfull] at hm; cases hm) rfl rfl)
  have hreq : (m.setBlocks r.requestId reused).blocksOf r.requestId = reused := by
    rw [blocksOf_insert (m := m) rfl, if_pos rfl]
  have htab : (m.setBlocks r.requestId (reused ++ new')).reqToBlocks =
      (m.setBlocks r.requestId reused).reqToBlocks.insert r.requestId
        ((m.setBlocks r.requestId reused).blocksOf r.requestId ++ new') := by
    rw [hreq]
    exact (AList.insert_insert _).symm
  refine hmove.tail (.take _ new' ⟨⟨rfl, rfl, rfl, rfl⟩, fun hH hspec => ?_⟩ hnew htab rfl
    fun _ => by omega)
  refine hspec.insert rfl htab (fun rid hrid hne => ?_) fun mode' numSpec' hm' _ => ?_
  · exact (mem_insert_iff.mp hrid).resolve_left hne
  obtain ⟨rfl, rfl⟩ : mode = mode' ∧ numSpec = numSpec' := by
    simpa using hm.symm.trans hm'
  have hlen := (getNewBlocks_eq hnew).2.1
  have hcdiv := cdiv_nonneg (h hH).2 m.blockSize
  rw [hreq, length_append]
  omega

lemma allocateNewBlocks_steps {numTokens numTokensMainModel : ℤ}
    (h : H → m.Speculative ∧ 0 ≤ numTokensMainModel)
    (hout : m.allocateNewBlocks p r.requestId numTokens numTokensMainModel = .ok (new, m', q)) :
    Steps (GrowStep H C env r) (m, p) (m', q) := by
  unfold allocateNewBlocks at hout
  split at hout
  next hm => exact alignAllocateNewBlocks_steps h hm hout
  · exact baseAllocateNewBlocks_steps hout
  · exact baseAllocateNewBlocks_steps hout

variable {retention : Option ℕ}

lemma baseCacheBlocks_steps (hcach : H → p.enableCaching = true)
    (hout : m.baseCacheBlocks p env r n retention = .ok (m', q)) :
    Steps (GrowStep H C env r) (m, p) (m', q) := by
  unfold baseCacheBlocks at hout
  dsimp only at hout
  split at hout
  · cases hout
    exact .refl
  rename_i hlt
  obtain ⟨mask, hmask, hout⟩ := of_bind hout
  obtain ⟨q', hcache, ⟨⟩⟩ := of_bind hout
  refine .single (.cache _ mask (kept_insert ⟨rfl, rfl, rfl, rfl⟩ rfl rfl fun _ => le_rfl) hcach
    (fun hfull => ?_) (not_le.mp hlt) hcache rfl rfl)
  rw [reachableBlockMask, hfull] at hmask
  exact (Except.ok.inj hmask).symm

lemma cacheBlocks_steps (hcach : H → p.enableCaching = true)
    (hout : m.cacheBlocks p env r n retention = .ok (m', q)) :
    Steps (GrowStep H C env r) (m, p) (m', q) := by
  unfold cacheBlocks at hout
  split at hout
  · cases hout
  · obtain ⟨⟨m1, q1⟩, hbase, hout⟩ := of_bind hout
    obtain ⟨keys, -, ⟨⟩⟩ := of_bind hout
    exact (baseCacheBlocks_steps hcach hbase).tail
      (.other ⟨⟨rfl, rfl, rfl, rfl⟩, fun _ h => h⟩ rfl rfl)
  · exact baseCacheBlocks_steps hcach hout

/-- What `remove_skipped_blocks` may free: positions before the window and, for Mamba in align mode,
that of the last state. -/
def recyclesAt (m : SingleTypeKVCacheManager) (rid : String) (totalComputedTokens : ℤ) (i : ℕ) :
    Prop :=
  match m.spec.attention with
  | .mamba mode numSpec =>
    let numComputedTokens := max 0 (totalComputedTokens - numSpec)
    (i : ℤ) < m.numSkippedBlocks numComputedTokens ∨ (mode = .align ∧
      ∃ idx, m.lastStateBlockIdx.lookup rid = some idx ∧
        idx < cdiv numComputedTokens m.blockSize - 1 ∧ pyIndex (m.blocksOf rid).length idx = some i)
  | _ => (i : ℤ) < m.numSkippedBlocks totalComputedTokens

lemma baseRemoveSkippedBlocks_steps (p : BlockPool) (rid : String)
    (hskip : ∀ i : ℕ, (i : ℤ) < m.numSkippedBlocks n → skipped i) :
    Steps (RecycleStep skipped rid) (m, p) (m.baseRemoveSkippedBlocks p rid n) := by
  unfold baseRemoveSkippedBlocks
  split
  · exact .refl
  rename_i hskipped
  obtain ⟨hlen, hcnt⟩ :=
    count_skipLoop (min (m.numSkippedBlocks n) (m.blocksOf rid).length).toNat (m.blocksOf rid)
  refine .single (.mk _ _ (kept_insert ⟨rfl, rfl, rfl, rfl⟩ rfl rfl fun _ => hlen.ge)
    (fun hfull => hskipped ?_) rfl hlen hcnt
    (fun i b hi => ?_) rfl rfl)
  · rw [hfull]
    exact le_rfl
  obtain h | ⟨-, hlt⟩ := getElem?_skipLoop
    (min (m.numSkippedBlocks n) (m.blocksOf rid).length).toNat (m.blocksOf rid) i
  · exact .inl (h.trans hi)
  · exact .inr (hskip i (by omega))

lemma freeLastState_steps {numSpec : ℕ} (hm : m.spec.attention = .mamba mode numSpec)
    (hskip : ∀ idx i, m.lastStateBlockIdx.lookup rid = some idx → idx < cdiv n m.blockSize - 1 →
      pyIndex (m.blocksOf rid).length idx = some i →
      skipped i) (hout : m.freeLastState p rid n = .ok (m', q)) :
    Steps (RecycleStep skipped rid) (m, p) (m', q) := by
  have hwindow : m.spec.attention ≠ .full := fun hfull => by rw [hfull] at hm; cases hm
  unfold freeLastState at hout
  split at hout
  · cases hout
    exact .refl
  rename_i idx hidx
  split at hout
  next hlt =>
    dsimp only at hout
    split at hout
    · cases hout
    rename_i i hi
    split at hout
    · cases hout
      have hstep : RecycleStep skipped rid m p (m.setBlocks rid ((m.blocksOf rid).set i nullBlock))
          (p.freeBlocks [(m.blocksOf rid).getD i nullBlock]) := by
        refine .mk _ _ (kept_insert ⟨rfl, rfl, rfl, rfl⟩ rfl rfl fun _ => length_set.ge) hwindow rfl
          length_set (fun b hb => ?_) (fun j b hj => ?_) rfl rfl
        · have := count_set_null hb (m.blocksOf rid) i
          rw [count_singleton]
          simp only [beq_iff_eq]
          omega
        by_cases hij : i = j
        · exact .inr (hij ▸ hskip idx i hidx hlt hi)
        · exact .inl (by rwa [getElem?_set_ne hij])
      exact .single hstep
    · cases hout
      exact .refl
  · cases hout
    exact .refl

lemma baseRemoveSkippedBlocks_spec (m : SingleTypeKVCacheManager) (p : BlockPool) (rid : String)
    (n : ℤ) : let m' := (m.baseRemoveSkippedBlocks p rid n).1
    m'.spec = m.spec ∧ m'.blockSize = m.blockSize ∧ m'.lastStateBlockIdx = m.lastStateBlockIdx ∧
      (m'.blocksOf rid).length = (m.blocksOf rid).length := by
  unfold baseRemoveSkippedBlocks
  split
  · exact ⟨rfl, rfl, rfl, rfl⟩
  refine ⟨rfl, rfl, rfl, ?_⟩
  rw [blocksOf_insert (m := m) rfl, if_pos rfl]
  exact (count_skipLoop _ _).1

lemma removeSkippedBlocks_steps (hout : m.removeSkippedBlocks p rid n = .ok (m', q)) :
    Steps (RecycleStep (m.recyclesAt rid n) rid) (m, p) (m', q) := by
  unfold removeSkippedBlocks at hout
  split at hout
  next mode numSpec hm =>
    have hat : ∀ i, m.recyclesAt rid n i ↔ (i : ℤ) < m.numSkippedBlocks (max 0 (n - numSpec)) ∨
        (mode = .align ∧ ∃ idx, m.lastStateBlockIdx.lookup rid = some idx ∧
          idx < cdiv (max 0 (n - numSpec)) m.blockSize - 1 ∧
          pyIndex (m.blocksOf rid).length idx = some i) := by
      intro i
      simp only [recyclesAt, hm]
    dsimp only at hout
    have hbase : Steps (RecycleStep (m.recyclesAt rid n) rid) (m, p)
        (m.baseRemoveSkippedBlocks p rid (max 0 (n - numSpec))) :=
      baseRemoveSkippedBlocks_steps p rid fun i hi => (hat i).mpr (.inl hi)
    split at hout
    next hmode =>
      obtain ⟨hspec, hsize, hlast, hlen⟩ :=
        baseRemoveSkippedBlocks_spec m p rid (max 0 (n - numSpec))
      generalize m.baseRemoveSkippedBlocks p rid (max 0 (n - numSpec)) = out at *
      refine hbase.trans (freeLastState_steps (hspec ▸ hm) (fun idx i hidx hlt hi => ?_) hout)
      rw [hlast] at hidx
      rw [hsize] at hlt
      rw [hlen] at hi
      exact (hat i).mpr (.inr ⟨hmode, idx, hidx, hlt, hi⟩)
    · rw [← Except.ok.inj hout]
      exact hbase
  rename_i hm
  rw [← Except.ok.inj hout]
  refine baseRemoveSkippedBlocks_steps p rid fun i hi => ?_
  unfold recyclesAt
  split
  next mode numSpec hmamba => exact absurd hmamba (hm mode numSpec)
  · exact hi

lemma recycles_sameCache {a b : SingleTypeKVCacheManager × BlockPool}
    (h : Steps (RecycleStep skipped rid) a b) : SameConfig a.1 b.1 ∧ SameCache a.2 b.2 := by
  induction h with
  | refl => exact ⟨.refl _, rfl, rfl⟩
  | tail _ he ih =>
    obtain ⟨freed, bs, hconf, -, hpool, -, -, -, -, -⟩ := he
    exact ⟨ih.1.trans hconf.toSameConfig,
      ih.2.trans (hpool ▸ sameCache_of_cached (sameCached_freeBlocks _ freed))⟩

end SingleTypeKVCacheManager

end Vllm
