import Vllm.KVCache.OwnershipRuns
import Mathlib.Data.List.TakeWhile

/-!
# Common prefix blocks

`get_num_common_prefix_blocks` counts the leading blocks that are referenced as often as there are
tables. With full attention a block has the same index in every table (`Sits`).
-/

namespace Vllm

open SingleTypeKVCacheManager Relation List BlockPool KVCacheManager

/-- `FullAttentionManager.get_num_common_prefix_blocks`; the loop breaks at a block with another
number of references.
-/
def SingleTypeKVCacheManager.getNumCommonPrefixBlocks (m : SingleTypeKVCacheManager) (p : BlockPool)
    (runningRequestId : String) : ℕ :=
  ((m.blocksOf runningRequestId).takeWhile fun b =>
    p.refCnt b = m.reqToBlocks.entries.length).length

def Positioned (depth : ℕ → Bytes → ℕ) (hashBlockSize : ℕ) (r : Request) : Prop :=
  ∀ (size : ℕ) (hashes : BlockHashList) (i : ℕ) (x : Bytes),
    BlockPool.blockHashesAt hashBlockSize size r.blockHashes = .ok hashes →
    hashes.toList[i]? = some x → depth size x = i

/-! ## Where blocks stand -/

section placed

variable {C : Prop} {k k' : KVCacheManager} {m m' : SingleTypeKVCacheManager} {p q : BlockPool}
  {rid : String} {env : HashEnv} {depth : ℕ → Bytes → ℕ} {hashBlockSize : ℕ}
  {group index group' index' : ℕ → ℕ}

/-- A block in use has a group and, with full attention, an index, the depth of its hash; tables
hold blocks of their group at their index. -/
structure Sits (depth : ℕ → Bytes → ℕ) (group index : ℕ → ℕ) (p : BlockPool)
    (m : SingleTypeKVCacheManager) :
    Prop where
  noNull : m.spec.attention = .full → ∀ rid, nullBlock ∉ m.blocksOf rid
  entry : ∀ {rid : String} {i b : ℕ}, b ≠ nullBlock → (m.blocksOf rid)[i]? = some b →
    group b = m.kvCacheGroupId ∧ (m.spec.attention = .full → index b = i)
  cached : ∀ {key : Bytes} {b : ℕ}, b ∈ p.cachedBlockHashToBlock key →
    getGroupId key = m.kvCacheGroupId →
    b ≠ nullBlock ∧ group b = m.kvCacheGroupId ∧
      (m.spec.attention = .full → index b = depth m.blockSize (getBlockHash key))

section

variable (h : Sits depth group index p m)
include h

lemma Sits.group_eq {b : ℕ} (hb : b ≠ nullBlock) (hmem : b ∈ m.blocksOf rid) :
    group b = m.kvCacheGroupId := by
  obtain ⟨i, hi⟩ := mem_iff_getElem?.mp hmem
  exact (h.entry hb hi).1

lemma Sits.mono (hconf : SameConfig m m')
    (htab : ∀ rid, m'.blocksOf rid = m.blocksOf rid ∨ m'.blocksOf rid = [])
    (hheld : ∀ rid b, b ≠ nullBlock → b ∈ m.blocksOf rid → group' b = group b ∧ index' b = index b)
    (hcached : ∀ key b, getGroupId key = m.kvCacheGroupId → b ∈ q.cachedBlockHashToBlock key →
      b ∈ p.cachedBlockHashToBlock key ∧ group' b = group b ∧
      index' b = index b) : Sits depth group' index' q m' := by
  refine ⟨fun hfull rid hmem => ?_, fun {rid i b} hb hi => ?_, fun {key b} hb hgid => ?_⟩
  · rcases htab rid with heq | heq
    · exact h.noNull (hconf.spec ▸ hfull) rid (heq ▸ hmem)
    · exact not_mem_nil (heq ▸ hmem)
  · rcases htab rid with heq | heq
    · rw [heq] at hi
      obtain ⟨hgroup, hindex⟩ := hheld rid b hb (mem_of_getElem? hi)
      rw [hconf.gid, hconf.spec, hgroup, hindex]
      exact h.entry hb hi
    · rw [heq] at hi
      cases hi
  rw [hconf.gid] at hgid
  obtain ⟨hb, hgroup, hindex⟩ := hcached key b hgid hb
  rw [hconf.gid, hconf.spec, hconf.blockSize, hgroup, hindex]
  exact h.cached hb hgid

lemma Sits.insert {bs : List ℕ} (hconf : SameConfig m m')
    (htab : m'.reqToBlocks = m.reqToBlocks.insert rid bs)
    (hnull : m.spec.attention = .full → nullBlock ∉ bs)
    (hentry : ∀ i b, b ≠ nullBlock → bs[i]? = some b →
      group b = m.kvCacheGroupId ∧ (m.spec.attention = .full → index b = i))
    (hcached : ∀ key, q.cachedBlockHashToBlock key ⊆ p.cachedBlockHashToBlock key) :
    Sits depth group index q m' := by
  refine ⟨fun hfull rid' => ?_, fun {rid' i b} hb hi => ?_, fun {key b} hb hgid => ?_⟩
  · rw [hconf.spec] at hfull
    rw [blocksOf_insert htab]
    split
    · exact hnull hfull
    · exact h.noNull hfull rid'
  · rw [hconf.gid, hconf.spec]
    rw [blocksOf_insert htab] at hi
    split at hi
    · exact hentry i b hb hi
    · exact h.entry hb hi
  · rw [hconf.gid, hconf.spec, hconf.blockSize]
    exact h.cached (hcached key hb) (hconf.gid ▸ hgid)

end

def Fresh (p q : BlockPool) (b : ℕ) :
    Prop := p.refCnt b = 0 ∧ ∀ key, b ∉ q.cachedBlockHashToBlock key

lemma fresh_of_getNewBlocks {n : ℤ} {new : List ℕ} {b : ℕ} (hmap : p.MapOk)
    (hoff : p.enableCaching = false → ∀ key, p.cachedBlockHashToBlock key = [])
    (hq : p.getNewBlocks n = .ok (new, q)) (hb : b ∈ new) : Fresh p q b := by
  obtain ⟨-, -, hzero, -⟩ := getNewBlocks_spec hmap hq
  refine ⟨hzero b hb, fun key hkey => ?_⟩
  cases hcach : p.enableCaching with
  | false =>
    have := cached_getNewBlocks_subset hq key hkey
    rw [hoff hcach key] at this
    cases this
  | true => exact ((mem_cached_getNewBlocks hmap hcach hq).mp hkey).2 hb

/-- After a step only fresh blocks have another group and index, and only keys of the group came
into the cache. -/
structure Settled (depth : ℕ → Bytes → ℕ) (group index group' index' : ℕ → ℕ) (p : BlockPool)
    (m' : SingleTypeKVCacheManager) (q : BlockPool) : Prop where
  sits : Sits depth group' index' q m'
  same : ∀ b, Fresh p q b ∨ group' b = group b ∧ index' b = index b
  cached : ∀ key b, b ∈ q.cachedBlockHashToBlock key → b ∈ p.cachedBlockHashToBlock key ∨
    p.enableCaching = true ∧ getGroupId key = m'.kvCacheGroupId

lemma Settled.of_subset (h : Sits depth group index q m')
    (hcached : ∀ key, q.cachedBlockHashToBlock key ⊆ p.cachedBlockHashToBlock key) :
    Settled depth group index group index p m' q :=
  ⟨h, fun _ => .inr ⟨rfl, rfl⟩, fun key _ hb => .inl (hcached key hb)⟩

lemma Sits.take {n : ℤ} {new : List ℕ} (h : Sits depth group index p m) (hconf : SameConfig m m')
    (hmap : p.MapOk) (hqueue : p.QueueOk)
    (hoff : p.enableCaching = false → ∀ key, p.cachedBlockHashToBlock key = [])
    (hunheld : ∀ b, b ≠ nullBlock → p.refCnt b = 0 → ∀ rid, b ∉ m.blocksOf rid)
    (hnew : p.getNewBlocks n = .ok (new, q))
    (htab : m'.reqToBlocks = m.reqToBlocks.insert rid (m.blocksOf rid ++ new)) :
    ∃ group' index', Settled depth group index group' index' p m' q := by
  obtain ⟨-, hnd, -, -⟩ := getNewBlocks_spec hmap hnew
  have hsub := cached_getNewBlocks_subset hnew
  have hfresh : ∀ b ∈ new, Fresh p q b := fun b hb => fresh_of_getNewBlocks hmap hoff hnew hb
  -- The new blocks get the places where they are appended.
  let group' b := if b ∈ new then m.kvCacheGroupId else group b
  let index' b := if b ∈ new then (m.blocksOf rid).length + new.idxOf b else index b
  have hsame : ∀ b, b ∉ new → group' b = group b ∧ index' b = index b :=
    fun b hb => ⟨if_neg hb, if_neg hb⟩
  have hold : Sits depth group' index' q m := by
    refine h.mono (.refl m) (fun _ => .inl rfl) (fun rid' b hb hmem => hsame b fun hnew => ?_)
      fun key b _ hb => ⟨hsub key hb, hsame b fun hnew => (hfresh b hnew).2 key hb⟩
    exact hunheld b hb (hfresh b hnew).1 rid' hmem
  refine ⟨group', index', hold.insert hconf htab (fun hfull hmem => ?_) (fun i b hb hi => ?_)
    fun _ => List.Subset.refl _, fun b => ?_, fun key b hb => .inl (hsub key hb)⟩
  · rcases mem_append.mp hmem with hmem | hmem
    · exact h.noNull hfull rid hmem
    · exact (hqueue.getNewBlocks hmap hnew).2 _ hmem rfl
  · rw [getElem?_append] at hi
    split at hi
    · exact hold.entry hb hi
    have hmem := mem_of_getElem? hi
    obtain ⟨hlt, rfl⟩ := List.getElem?_eq_some_iff.mp hi
    refine ⟨if_pos hmem, fun _ => (if_pos hmem).trans ?_⟩
    rw [Nodup.idxOf_getElem hnd]
    omega
  by_cases hb : b ∈ new
  · exact .inl (hfresh b hb)
  · exact .inr (hsame b hb)

/-- A growing table keeps every block at its group and index. -/
lemma Sits.grow {r : Request} (h : Sits depth group index p m) (hgid : m.kvCacheGroupId < 2 ^ 32)
    (hmap : p.MapOk) (hqueue : p.QueueOk) (hsize : p.hashBlockSize = hashBlockSize)
    (hoff : p.enableCaching = false → ∀ key, p.cachedBlockHashToBlock key = [])
    (hunheld : ∀ b, b ≠ nullBlock → p.refCnt b = 0 → ∀ rid, b ∉ m.blocksOf rid)
    (hr : Positioned depth hashBlockSize r) (hstep : GrowStep True C env r m p m' q) :
    ∃ group' index', Settled depth group index group' index' p m' q := by
  have hconf := hstep.kept.toSameConfig
  cases hstep with
  | touch k bs _ hemp hfull honce hhits htch htab hcached =>
    have hsub : ∀ key, q.cachedBlockHashToBlock key ⊆ p.cachedBlockHashToBlock key := by
      rw [(sameCached_touch htch).cached]
      exact fun _ => List.Subset.refl _
    refine ⟨group, index,
      .of_subset (h.insert hconf htab (fun hm hmem => ?_) (fun i b hb hi => ?_) hsub) hsub⟩
    · obtain ⟨rfl, hprefix⟩ := hfull trivial hm
      obtain ⟨i, hi⟩ := mem_iff_getElem?.mp hmem
      obtain ⟨_, x, -, -, hx⟩ := hprefix i _ hi
      exact (h.cached hx (getGroupId_make x hgid)).1 rfl
    have hmem := (mem_append.mp (mem_of_getElem? hi)).resolve_left
      fun hnull => hb (eq_of_mem_replicate hnull)
    obtain ⟨j, hj⟩ := mem_iff_getElem?.mp hmem
    obtain ⟨_, x, -, -, hx⟩ := hhits trivial j b hj hb
    refine ⟨(h.cached hx (getGroupId_make x hgid)).2.1, fun hm => ?_⟩
    obtain ⟨rfl, hprefix⟩ := hfull trivial hm
    obtain ⟨hashes, x, hhs, hxi, hx⟩ := hprefix i b hi
    rw [(h.cached hx (getGroupId_make x hgid)).2.2 hm, getBlockHash_make]
    exact hr _ hashes i x (hsize ▸ hhs) hxi
  | take n new _ hnew htab hcached => exact h.take hconf hmap hqueue hoff hunheld hnew htab
  | rearrange bs _ hcnt hfull htab hcached =>
    refine ⟨group, index, .of_subset (h.insert hconf htab (fun hm => ?_) (fun i b hb hi => ?_)
      fun _ => List.Subset.refl _) fun _ => List.Subset.refl _⟩
    · rw [hfull hm]
      exact h.noNull hm _
    have hmem : b ∈ m.blocksOf r.requestId := by
      rw [← count_pos_iff, ← hcnt trivial b hb]
      exact count_pos_iff.mpr (mem_of_getElem? hi)
    exact ⟨h.group_eq hb hmem, fun hm => (h.entry hb (hfull hm ▸ hi)).2 hm⟩
  | cache numFull mask _ hcach hfull hlt hcache htab hcached =>
    obtain ⟨hashes, hhs, hmem⟩ := mem_cached_cacheFullBlocks hlt hcache
    have htables : ∀ rid', m'.blocksOf rid' = m.blocksOf rid' := by
      intro rid'
      rw [blocksOf_insert htab]
      split
      next heq => rw [heq]
      · rfl
    refine ⟨group, index,
      ⟨fun hm rid' => ?_, fun {rid' i b} hb hi => ?_, fun {key b} hb hkey => ?_⟩,
      fun _ => .inr ⟨rfl, rfl⟩, fun key b hb => (hmem.mp hb).imp_right ?_⟩
    · rw [htables]
      exact h.noNull (hconf.spec ▸ hm) rid'
    · rw [hconf.gid, hconf.spec]
      exact h.entry hb (htables rid' ▸ hi)
    · rw [hconf.gid, hconf.spec, hconf.blockSize]
      obtain hb | ⟨i, x, -, -, hi, hx, -, hnull, rfl⟩ := hmem.mp hb
      · exact h.cached hb (hconf.gid ▸ hkey)
      rw [getBlockHash_make, hr _ hashes i x (hsize ▸ hhs) hx]
      exact ⟨hnull, h.entry hnull hi⟩
    · rintro ⟨i, x, -, -, -, -, -, -, rfl⟩
      exact ⟨hcach trivial, (getGroupId_make x hgid).trans hconf.gid.symm⟩
  | other _ htab hcached =>
    refine ⟨group, index, .of_subset (h.mono hconf (fun rid' => .inl ?_) (fun _ _ _ _ => ⟨rfl, rfl⟩)
      fun _ _ _ hb => ⟨hb, rfl, rfl⟩) fun _ => List.Subset.refl _⟩
    rw [blocksOf, htab, blocksOf]

/-- A block stands in tables of one group, for which it is cached if it is. -/
structure Placed (depth : ℕ → Bytes → ℕ) (hashBlockSize : ℕ) (group index : ℕ → ℕ)
    (k : KVCacheManager) :
    Prop where
  hashSize : k.blockPool.hashBlockSize = hashBlockSize
  distinct : (k.managers.map (·.kvCacheGroupId)).Nodup
  few : ∀ m ∈ k.managers, m.kvCacheGroupId < 2 ^ 32
  off : k.blockPool.enableCaching = false → ∀ key, k.blockPool.cachedBlockHashToBlock key = []
  sits : ∀ m ∈ k.managers, Sits depth group index k.blockPool m

section

variable (h : Placed depth hashBlockSize group index k)
include h

lemma Placed.gid_ne {l r : List SingleTypeKVCacheManager}
    (hk : k.managers = l ++ m :: r) {x : SingleTypeKVCacheManager} (hx : x ∈ l ++ r) :
    x.kvCacheGroupId ≠ m.kvCacheGroupId := by
  have hnd := h.distinct
  rw [hk, map_append, map_cons, nodup_middle, nodup_cons, ← map_append] at hnd
  exact fun heq => hnd.1 (mem_map.mpr ⟨x, hx, heq⟩)

lemma Placed.config (hgs : Forall₂ SameConfig k.managers k'.managers)
    (hset : k.blockPool.SameSetup k'.blockPool)
    (hoff : k.blockPool.enableCaching = false → ∀ key, k'.blockPool.cachedBlockHashToBlock key = [])
    (hsits : ∀ m ∈ k'.managers, Sits depth group' index' k'.blockPool m) :
    Placed depth hashBlockSize group' index' k' := by
  refine ⟨hset.hashSize.trans h.hashSize, ?_, fun m' hm' => ?_,
    fun hcach => hoff (hset.caching ▸ hcach), hsits⟩
  · have hmap : k'.managers.map (·.kvCacheGroupId) = k.managers.map (·.kvCacheGroupId) := by
      refine forall₂_eq_eq_eq ▸ forall₂_map_left_iff.mpr (forall₂_map_right_iff.mpr ?_)
      exact (hgs.imp fun _ _ h => h.gid).flip
    rw [hmap]
    exact h.distinct
  obtain ⟨m, hm, hconf⟩ := forall₂_mem hgs hm'
  rw [hconf.gid]
  exact h.few m hm

lemma Placed.shrink (hgs : Forall₂ (fun m m' => SameConfig m m' ∧
      ∀ rid, m'.blocksOf rid = m.blocksOf rid ∨ m'.blocksOf rid = []) k.managers k'.managers)
    (hset : k.blockPool.SameSetup k'.blockPool)
    (hcached : ∀ key, k'.blockPool.cachedBlockHashToBlock key ⊆
      k.blockPool.cachedBlockHashToBlock key) :
    Placed depth hashBlockSize group index k' := by
  refine h.config (hgs.imp fun _ _ h => h.1) hset (fun hoff key => ?_) fun m' hm' => ?_
  · exact subset_nil.mp (h.off hoff key ▸ hcached key)
  obtain ⟨m, hm, hconf, htab⟩ := forall₂_mem hgs hm'
  exact (h.sits m hm).mono hconf htab (fun _ _ _ _ => ⟨rfl, rfl⟩) fun key _ _ hb =>
    ⟨hcached key hb, rfl, rfl⟩

end

lemma Placed.manager {s : KVState} (h : Placed depth hashBlockSize group index s.kv)
    (hledger : s.Ledger)
    (hstep : OneManager (ManagerStep True C (fun _ r => Positioned depth hashBlockSize r) rid) s.kv
      k)
    (hgs : Forall₂ SameConfig s.kv.managers k.managers)
    (hset : s.kv.blockPool.SameSetup k.blockPool) :
    ∃ group' index', Placed depth hashBlockSize group' index' k := by
  obtain ⟨l, r, m, m', q, hk, hstep⟩ := hstep
  have hm : m ∈ s.kv.managers := by simp [hk]
  have hunheld : ∀ b, b ≠ nullBlock → s.kv.blockPool.refCnt b = 0 → ∀ m ∈ s.kv.managers, ∀ rid,
      b ∉ m.blocksOf rid := fun b hb hzero => (hledger.unheld hb hzero).1
  have hgid := hstep.kept.gid
  obtain ⟨group', index', hsettled⟩ :
    ∃ group' index', Settled depth group index group' index' s.kv.blockPool m' q := by
    have hsits := h.sits m hm
    cases hstep with
    | grow env r hr hrid hstep =>
      exact hsits.grow (h.few m hm) hledger.map hledger.queue h.hashSize h.off
        (fun b hb hzero => hunheld b hb hzero m hm) hr hstep
    | recycle hstep =>
      obtain ⟨freed, bs, hconf, hwindow, rfl, hlen, hcnt, hentry, htab, hcached⟩ := hstep
      have hsame := (sameCached_freeBlocks s.kv.blockPool freed).cached
      refine ⟨group, index,
        .of_subset (hsits.insert hconf.toSameConfig htab (fun hm => absurd hm hwindow)
        (fun i b hb hi => ⟨?_, fun hm => absurd hm hwindow⟩)
        fun key => hsame ▸ List.Subset.refl _) fun key => hsame ▸ List.Subset.refl _⟩
      have h1 := hcnt b hb
      have h2 := count_pos_iff.mpr (mem_of_getElem? hi)
      exact hsits.group_eq hb (count_pos_iff.mp (show 0 < (m.blocksOf rid).count b by omega))
    | free =>
      have hsame := (sameCached_freeBlocks s.kv.blockPool (m.blocksOf rid).reverse).cached
      refine ⟨group, index,
        .of_subset (hsits.mono (popBlocksForFree_sameConfig m rid) (fun rid' => ?_)
        (fun _ _ _ _ => ⟨rfl, rfl⟩) fun key b _ hb => ⟨hsame ▸ hb, rfl, rfl⟩) fun key =>
          hsame ▸ List.Subset.refl _⟩
      rw [blocksOf_pop]
      split
      · exact .inr rfl
      · exact .inl rfl
  refine ⟨group', index', h.config hgs hset (fun hoff key => ?_) fun x hx => ?_⟩
  · rw [eq_nil_iff_forall_not_mem]
    intro b hb
    obtain hold | ⟨hon, -⟩ := hsettled.cached key b hb
    · rw [h.off hoff key] at hold
      cases hold
    · rw [hoff] at hon
      cases hon
  -- The other managers hold no fresh blocks, and their keys are the old ones.
  · have hx : x = m' ∨ x ∈ l ++ r := by
      rcases mem_append.mp hx with hx | hx
      · exact .inr (mem_append_left r hx)
      · exact (mem_cons.mp hx).imp_right (mem_append_right l)
    obtain rfl | hx := hx
    · exact hsettled.sits
    have hxs : x ∈ s.kv.managers := by
      rw [hk]
      exact mem_append.mpr ((mem_append.mp hx).imp_right (mem_cons_of_mem m))
    refine (h.sits x hxs).mono (.refl x) (fun _ => .inl rfl) (fun rid' b hb hmem =>
      ?_) fun key b hkey hb => ?_
    · exact (hsettled.same b).resolve_left fun hfresh => hunheld b hb hfresh.1 x hxs rid' hmem
    refine ⟨(hsettled.cached key b hb).resolve_right ?_,
      (hsettled.same b).resolve_left fun hfresh => hfresh.2 key hb⟩
    exact fun hnew => h.gid_ne hk hx (hkey.symm.trans (hnew.2.trans hgid))

lemma Placed.step {s t : KVState} (h : Placed depth hashBlockSize group index s.kv)
    (hledger : s.Ledger) (hstep : KVStep True C (fun _ r => Positioned depth hashBlockSize r) s t) :
    ∃ group' index', Placed depth hashBlockSize group' index' t.kv := by
  obtain ⟨hgs, -, -, hset⟩ := hstep.sameConfig
  have hself : Forall₂ (fun m m' => SameConfig m m' ∧
      ∀ rid, m'.blocksOf rid = m.blocksOf rid ∨ m'.blocksOf rid = []) s.kv.managers s.kv.managers :=
    forall₂_same.mpr fun m _ => ⟨.refl m, fun _ => .inl rfl⟩
  cases hstep with
  | manager rid hstep => exact h.manager hledger hstep hgs hset
  | pop rid =>
    refine ⟨group, index, h.shrink (forall₂_map_right_iff.mpr (forall₂_same.mpr fun m _ =>
      ⟨popBlocksForFree_sameConfig m rid, fun rid' => ?_⟩)) hset fun key => List.Subset.refl _⟩
    rw [blocksOf_pop]
    split
    · exact .inr rfl
    · exact .inl rfl
  | freePopped i bs hi =>
    refine ⟨group, index, h.shrink hself hset fun key => ?_⟩
    rw [(sameCached_freeBlocks _ _).cached]
    exact List.Subset.refl _
  | evict ids hq => exact ⟨group, index, h.shrink hself hset (cached_evictBlocks_subset hq)⟩
  | reset => exact ⟨group, index, h.shrink hself hset (cached_reset_subset _)⟩
  | newStep =>
    exact ⟨group, index, h.shrink (forall₂_map_right_iff.mpr (forall₂_same.mpr fun m _ =>
      ⟨⟨rfl, rfl, rfl, rfl⟩, fun _ => .inl rfl⟩)) hset fun key => List.Subset.refl _⟩

lemma Placed.steps {s t : KVState} (h : ∃ group index, Placed depth hashBlockSize group index s.kv)
    (hledger : s.Ledger)
    (hsteps : ReflTransGen (KVStep True C (fun _ r => Positioned depth hashBlockSize r)) s t) :
    ∃ group index, Placed depth hashBlockSize group index t.kv := by
  suffices hboth : t.Ledger ∧
    ∃ group index, Placed depth hashBlockSize group index t.kv from hboth.2
  induction hsteps with
  | refl => exact ⟨hledger, h⟩
  | tail _ hstep ih =>
    obtain ⟨hledger, group, index, h⟩ := ih
    exact ⟨hledger.step hstep, h.step hledger hstep⟩

lemma Placed.init {a : KVCacheManagerArgs} (h : init a = .ok k)
    (hfew : a.groups.length ≤ 2 ^ 32) : Placed depth a.hashBlockSize group index k := by
  obtain ⟨-, hpool, -, hlen, -⟩ := init_eq_ok h
  have hids {i m} (hi : k.managers[i]? = some m) := (Consistent.init h).ids hi
  have hemp : ∀ m ∈ k.managers, ∀ rid, m.blocksOf rid = [] := by
    intro m hm rid
    obtain ⟨eagle, g, gid, -, rfl⟩ := mem_init h hm
    rfl
  have hnone : ∀ key, k.blockPool.cachedBlockHashToBlock key = [] := by
    intro key
    rw [hpool]
    rfl
  refine ⟨by rw [hpool]; rfl, nodup_iff_injective_get.mpr fun i j hij => ?_, fun m hm => ?_,
    fun _ => hnone,
    fun m hm => ⟨fun _ rid hb => ?_, fun {rid i b} _ hi => ?_, fun {key b} hb => ?_⟩⟩
  · simp only [get_eq_getElem, getElem_map] at hij
    rw [hids (getElem?_eq_getElem _), hids (getElem?_eq_getElem _)] at hij
    exact Fin.ext hij
  · obtain ⟨i, hi⟩ := mem_iff_getElem?.mp hm
    have hlt := lt_of_getElem? hi
    rw [hids hi]
    omega
  · rw [hemp m hm] at hb
    cases hb
  · rw [hemp m hm] at hi
    cases hi
  · rw [hnone] at hb
    cases hb

end placed

/-! ## Runs -/

/-- Hashes have one length, and equal hashes stand at equal positions of their requests. -/
structure PositionsDistinct (R : Request → Prop) : Prop where
  digest : ∃ n, ∀ r, R r → ∀ x ∈ r.blockHashes, x.length = n
  position : ∀ {r r' : Request} {i j : ℕ} {x : Bytes}, R r → R r' → r.blockHashes[i]? = some x →
    r'.blockHashes[j]? = some x → i = j

variable {R : Request → Prop}

lemma PositionsDistinct.scaled (h : PositionsDistinct R) {r r' : Request}
    {hashBlockSize size i j : ℕ} {x : Bytes} {hashes hashes' : BlockHashList} (hr : R r)
    (hr' : R r') (hhs : blockHashesAt hashBlockSize size r.blockHashes = .ok hashes)
    (hhs' : blockHashesAt hashBlockSize size r'.blockHashes = .ok hashes')
    (hi : hashes.toList[i]? = some x) (hj : hashes'.toList[j]? = some x) : i = j := by
  unfold blockHashesAt at hhs hhs'
  split at hhs
  next hsize =>
    rw [if_pos hsize] at hhs'
    cases hhs
    cases hhs'
    exact h.position hr hr' hi hj
  rename_i hsize
  rw [if_neg hsize] at hhs'
  split at hhs
  next hmod =>
    rw [if_pos hmod] at hhs'
    cases hhs
    cases hhs'
    obtain ⟨n, hn⟩ := h.digest
    generalize size / hashBlockSize = scale at hi hj
    -- The first digest of a joined hash tells its position.
    have hfst : ∀ {r : Request} {i : ℕ}, R r →
      (BlockHashList.scaled r.blockHashes scale).toList[i]? = some x →
        0 < scale ∧ r.blockHashes[i * scale]? = some (x.take n) := by
      intro r i hr hi
      simp only [BlockHashList.toList, getElem?_map, Option.map_eq_some_iff] at hi
      obtain ⟨i', hi', rfl⟩ := hi
      obtain ⟨hlt, rfl⟩ := List.getElem?_eq_some_iff.mp hi'
      rw [length_range] at hlt
      rw [getElem_range]
      have hscale : 0 < scale := Nat.pos_of_ne_zero fun h0 => by simp [h0] at hlt
      refine ⟨hscale, CacheHit.take_joinAt (hn r hr) hscale ?_⟩
      have := (Nat.le_div_iff_mul_le hscale).mp hlt
      rw [Nat.succ_mul] at this
      omega
    obtain ⟨hscale, hxi⟩ := hfst hr hi
    obtain ⟨-, hxj⟩ := hfst hr' hj
    exact Nat.eq_of_mul_eq_mul_right hscale (h.position hr hr' hxi hxj)
  · cases hhs

lemma PositionsDistinct.exists_depth (h : PositionsDistinct R) (hashBlockSize : ℕ) :
    ∃ depth, ∀ r, R r → Positioned depth hashBlockSize r := by
  classical
  let At (size : ℕ) (x : Bytes) (i : ℕ) : Prop := ∃ r hashes, R r ∧
    blockHashesAt hashBlockSize size r.blockHashes = .ok hashes ∧ hashes.toList[i]? = some x
  refine ⟨fun size x => if hx : ∃ i, At size x i then hx.choose else 0, ?_⟩
  intro r hr size hashes i x hhs hi
  have hx : ∃ i, At size x i := ⟨i, r, hashes, hr, hhs, hi⟩
  change (if hx : ∃ i, At size x i then hx.choose else 0) = i
  rw [dif_pos hx]
  obtain ⟨r', hashes', hr', hhs', hi'⟩ := hx.choose_spec
  exact h.scaled hr' hr hhs' hhs hi' hi

namespace KVState

variable {s : KVState} {m : SingleTypeKVCacheManager} {depth : ℕ → Bytes → ℕ} {hashBlockSize : ℕ}
  {group index : ℕ → ℕ}

lemma occurrences_eq_zero {b : ℕ} (h : ∀ rid, b ∉ m.blocksOf rid) : m.occurrences b = 0 := by
  refine sum_eq_zero fun n hn => ?_
  obtain ⟨⟨rid, bs⟩, he, rfl⟩ := mem_map.mp hn
  have hbs : m.reqToBlocks.lookup rid = some bs := AList.mem_lookup_iff.mpr he
  have hb := h rid
  rw [blocksOf, hbs] at hb
  exact count_eq_zero.mpr hb

lemma occurrences_eq_refCnt (hledger : s.Ledger) (hpl : Placed depth hashBlockSize group index s.kv)
    (hm : m ∈ s.kv.managers) {rid : String} {b : ℕ} (hnull : b ≠ nullBlock)
    (hb : b ∈ m.blocksOf rid)
    (hpopped : ∀ bs ∈ s.popped, b ∉ bs) : s.kv.blockPool.refCnt b = m.occurrences b := by
  obtain ⟨l, r, hk⟩ := append_of_mem hm
  have hlists : heldIn s.popped b = 0 := by
    refine sum_eq_zero fun n hn => ?_
    obtain ⟨bs, hbs, rfl⟩ := mem_map.mp hn
    exact count_eq_zero.mpr (hpopped bs hbs)
  have hothers : ∀ ms : List SingleTypeKVCacheManager, (∀ x ∈ ms, x ∈ s.kv.managers ∧ x ∈ l ++ r) →
      heldBy ms b = 0 := by
    intro ms hms
    refine sum_eq_zero fun n hn => ?_
    obtain ⟨x, hx, rfl⟩ := mem_map.mp hn
    obtain ⟨hx, hxl⟩ := hms x hx
    refine occurrences_eq_zero fun rid' hb' => hpl.gid_ne hk hxl ?_
    exact ((hpl.sits x hx).group_eq hnull hb').symm.trans ((hpl.sits m hm).group_eq hnull hb)
  have hl := hothers l fun x hx => ⟨by simp [hk, hx], mem_append_left r hx⟩
  have hr := hothers r fun x hx => ⟨by simp [hk, hx], mem_append_right l hx⟩
  have hrefs := hledger.refs b hnull
  rw [hk, heldBy_split, hl, hr, hlists] at hrefs
  simpa using hrefs

lemma mem_takeWhile_iff {α : Type*} {q : α → Bool} {l : List α} {b : α} : b ∈ l.takeWhile q ↔
    ∃ i : ℕ, l[i]? = some b ∧ ∀ j ≤ i, ∀ c, l[j]? = some c → q c = true := by
  induction l with
  | nil => simp
  | cons x l ih =>
    rw [takeWhile_cons]
    constructor
    · intro h
      split at h
      next hx =>
        rcases mem_cons.mp h with rfl | h
        · refine ⟨0, rfl, fun j hj c hc => ?_⟩
          cases Nat.le_zero.mp hj
          cases hc
          exact hx
        obtain ⟨i, hi, hall⟩ := ih.mp h
        refine ⟨i + 1, hi, fun j hj c hc => ?_⟩
        cases j with
        | zero => cases hc; exact hx
        | succ j => exact hall j (Nat.le_of_succ_le_succ hj) c hc
      · cases h
    rintro ⟨i, hi, hall⟩
    rw [if_pos (hall 0 (Nat.zero_le _) x rfl)]
    cases i with
    | zero => cases hi; exact mem_cons_self
    | succ i =>
      refine mem_cons_of_mem _ (ih.mpr ⟨i, hi, fun j hj c hc => ?_⟩)
      exact hall (j + 1) (Nat.succ_le_succ hj) c hc

def sharedArgs : KVCacheManagerArgs := { smallArgs with numBlocks := 6 }

def twinRequest : Request := { smallRequest with requestId := "twin" }

def strangerRequest : Request where
  requestId := "stranger"
  promptTokenIds := some [5]
  numPromptTokens := 1
  allTokenIds := [5]

lemma positionsDistinct_small (h : ∀ r, R r → r.blockHashes = [[1]] ∨ r.blockHashes = []) :
    PositionsDistinct R where
  digest := ⟨1, fun r hr x hx => by
    rcases h r hr with heq | heq
    · rw [heq, mem_singleton] at hx
      rw [hx]
      rfl
    · rw [heq] at hx
      cases hx⟩
  position := by
    have hzero : ∀ {r : Request} {i : ℕ} {x : Bytes}, R r → r.blockHashes[i]? = some x → i = 0 := by
      intro r i x hr hi
      have hlt := lt_of_getElem? hi
      rcases h r hr with heq | heq
      · rw [heq, length_singleton] at hlt
        omega
      · rw [heq, length_nil] at hlt
        omega
    intro r r' i j x hr hr' hi hj
    rw [hzero hr hi, hzero hr' hj]

lemma admissible_small {r : Request} {s : KVState} {n : ℕ}
    (hhs : r.blockHashes = smallRequest.blockHashes)
    (htokens : r.numTokens = smallRequest.numTokens) (hcomp : r.numComputedTokens = 0) :
    Admissible 2 s (.allocateWithHits r { numNewTokens := n }) := by
  refine ⟨fun _ => ⟨?_, ?_, ?_⟩, by omega⟩
  · rw [hhs, htokens]
    exact wellHashed_smallRequest.covers
  · rw [hhs]
    exact wellHashed_smallRequest.digest
  · rw [hhs]
    exact wellHashed_smallRequest.nodup

lemma twin_run :
    ∃ k s m, init sharedArgs = .ok k ∧ Machine.Run (call smallEnv) (Admissible 2) { kv := k }
      [.allocateWithHits smallRequest { numNewTokens := 3 },
        .allocateWithHits twinRequest { numNewTokens := 1 }] s ∧
    s.kv.managers = [m] ∧ m.spec.attention = .full ∧ s.popped = [] ∧
    m.getNumCommonPrefixBlocks s.kv.blockPool "r" = 1 ∧ "twin" ∈ m.reqToBlocks := by
  exact ⟨_, _, _, rfl,
    .cons (admissible_small rfl rfl rfl) rfl (.cons (admissible_small rfl rfl rfl) rfl (.nil _)),
    rfl, rfl, rfl,
    rfl, by decide⟩

end KVState

end Vllm
