import Vllm.KVCache.BlockTables
import Vllm.KVCache.CacheHitGroups

/-! # The hits of a lookup -/

namespace Vllm

open SingleTypeKVCacheManager List

variable {p q : BlockPool} {m m' : SingleTypeKVCacheManager}

/-- Block `b` is cached under the request's `i`-th hash in the manager's group. -/
def CachedAt (p : BlockPool) (m : SingleTypeKVCacheManager) (r : Request) (i b : ℕ) : Prop :=
  ∃ hashes x, BlockPool.blockHashesAt p.hashBlockSize m.blockSize r.blockHashes = .ok hashes ∧
    hashes.get i = .ok x ∧
    b ∈ p.cachedBlockHashToBlock (makeBlockHashWithGroupId x m.kvCacheGroupId)

def HashedAt (p : BlockPool) (m : SingleTypeKVCacheManager) (r : Request) (i b : ℕ) : Prop :=
  ∃ hashes x, BlockPool.blockHashesAt p.hashBlockSize m.blockSize r.blockHashes = .ok hashes ∧
    hashes.toList[i]? = some x ∧
    b ∈ p.cachedBlockHashToBlock (makeBlockHashWithGroupId x m.kvCacheGroupId)

def SameCache (p q : BlockPool) : Prop :=
  q.cachedBlockHashToBlock = p.cachedBlockHashToBlock ∧ q.hashBlockSize = p.hashBlockSize

lemma SameCache.trans {p1 p2 p3 : BlockPool} (h : SameCache p1 p2) (h' : SameCache p2 p3) :
    SameCache p1 p3 := ⟨h'.1.trans h.1, h'.2.trans h.2⟩

lemma sameCache_of_cached (h : p.SameCached q) : SameCache p q := ⟨h.cached, h.hashSize⟩

lemma CachedAt.congr {r : Request} {i b : ℕ}
    (h : CachedAt p m r i b) (hm : SameConfig m m') (hp : SameCache p q) : CachedAt q m' r i b := by
  obtain ⟨hashes, x, hhs, hx, hb⟩ := h
  exact ⟨hashes, x, by rw [hp.2, hm.blockSize]; exact hhs, hx, by rw [hp.1, hm.gid]; exact hb⟩

lemma HashedAt.congr {r : Request} {i b : ℕ}
    (h : HashedAt p m r i b) (hm : SameConfig m m') (hp : SameCache p q) : HashedAt q m' r i b := by
  obtain ⟨hashes, x, hhs, hx, hb⟩ := h
  exact ⟨hashes, x, by rw [hp.2, hm.blockSize]; exact hhs, hx, by rw [hp.1, hm.gid]; exact hb⟩

namespace KVCacheManager

variable {k k' : KVCacheManager} {r : Request} {hits : List (List ℕ)}

/-- The coordinator fits the managers. -/
structure Consistent (k : KVCacheManager) : Prop where
  ids : ∀ {i : ℕ} {m : SingleTypeKVCacheManager}, k.managers[i]? = some m → m.kvCacheGroupId = i
  unitary : ∀ d, k.coordinator = .unitary d → ∃ m, k.managers = [m] ∧
    m.blockSize = k.blockPool.hashBlockSize
  hybrid : ∀ c, k.coordinator = .hybrid c → c.hashBlockSize = k.blockPool.hashBlockSize ∧
    ∀ {i : ℕ} {m : SingleTypeKVCacheManager}, k.managers[i]? = some m → ∀ g ∈ c.attentionGroups,
      i ∈ g.groupIds → m.blockSize = g.spec.blockSize ∧ m.spec = g.spec
  caching : k.blockPool.enableCaching = k.enableCaching

lemma Consistent.congr (h : k.Consistent) (hgs : Forall₂ SameConfig k.managers k'.managers)
    (hcoord : k'.coordinator = k.coordinator) (hcach : k'.enableCaching = k.enableCaching)
    (hset : k.blockPool.SameSetup k'.blockPool) : k'.Consistent where
  ids hi := by
    obtain ⟨m, hm, hcfg⟩ := forall₂_getElem? hgs hi
    rw [hcfg.gid, h.ids hm]
  unitary d hd := by
    obtain ⟨m, hm, hblock⟩ := h.unitary d (hcoord.symm.trans hd)
    rw [hm] at hgs
    obtain ⟨m', ms, hcfg, hnil, hms⟩ := forall₂_cons_left_iff.mp hgs
    obtain rfl := forall₂_nil_left_iff.mp hnil
    exact ⟨m', hms, by rw [hcfg.blockSize, hblock, hset.hashSize]⟩
  hybrid c hc := by
    obtain ⟨hhash, hgroup⟩ := h.hybrid c (hcoord.symm.trans hc)
    refine ⟨hhash.trans hset.hashSize.symm, fun hi g hg hgid => ?_⟩
    obtain ⟨m, hm, hcfg⟩ := forall₂_getElem? hgs hi
    rw [hcfg.blockSize, hcfg.spec]
    exact hgroup hm g hg hgid
  caching := by rw [hset.caching, hcach, h.caching]

lemma Consistent.init {a : KVCacheManagerArgs} (h : init a = .ok k) : k.Consistent := by
  obtain ⟨-, hpool, hcach, hlen, eagle, hcoord, hat⟩ := init_eq_ok h
  refine ⟨fun hi => ?_, fun d hd => ?_, fun c hc => ?_, by rw [hpool, hcach]; rfl⟩
  · obtain ⟨g, -, rfl⟩ := hat hi
    rfl
  · rw [hd] at hcoord
    unfold makeCoordinator at hcoord
    dsimp only at hcoord
    split at hcoord
    · cases hcoord
    split at hcoord
    next g hg =>
      obtain ⟨_, hsize, -⟩ := of_bind hcoord
      rw [hg] at hlen hat
      obtain ⟨m, hm⟩ := length_eq_one_iff.mp hlen
      obtain ⟨g', hg', rfl⟩ := hat (i := 0) (by rw [hm]; rfl)
      obtain rfl : g = g' := by simpa using hg'
      refine ⟨_, hm, ?_⟩
      rw [hpool]
      exact (of_pyAssert hsize).symm
    · obtain ⟨c, -, ⟨⟩⟩ := of_bind hcoord
  rw [hc] at hcoord
  obtain h | ⟨d', h, -⟩ | ⟨c', h, hinit⟩ := makeCoordinator_cases hcoord
  · cases h
  · cases h
  obtain rfl := Coordinator.hybrid.inj h
  have hcp : a.cp = 1 := by
    obtain ⟨_, -, h⟩ := of_bind hinit
    obtain ⟨_, -, h⟩ := of_bind h
    obtain ⟨_, hcp, -⟩ := of_bind h
    exact of_pyAssert hcp
  refine ⟨?_, fun {i m} hi g hg hgid => ?_⟩
  · obtain ⟨-, -, rfl⟩ := CacheHit.hybridInit_eq_ok hinit
    rw [hpool]
    rfl
  obtain ⟨x, hx, rfl⟩ := hat hi
  obtain ⟨y, hy, hspec⟩ := (CacheHit.inSpecGroup_hybridInit hinit).mp ⟨g, hg, rfl, hgid⟩
  obtain rfl := Option.some.inj (hx.symm.trans hy)
  exact ⟨by simp [makeManager, hcp, hspec], hspec⟩

/-! ## The blocks of one group -/

open CacheHit in
lemma finalBlocks_eq {p : BlockPool} {c : HybridCoordinator} {blockHashes : List Bytes}
    {maxHit rounds : ℕ} {simple : Bool} {out : ℕ × HitState}
    (hloop : hitLoop p c blockHashes maxHit simple rounds maxHit { currHitLength := maxHit } =
      .ok out)
    (gid : ℕ) :
    finalBlocks c out.1 out.2 gid = [] ∨ ∃ (g : SpecGroup) (hashes : BlockHashList)
      (rows : List Row), g ∈ c.attentionGroups ∧ gid ∈ g.groupIds ∧
      g.spec.attention ≠ .crossAttention ∧
      BlockPool.blockHashesAt c.hashBlockSize g.spec.blockSize blockHashes = .ok hashes ∧
      HitRows p hashes g.groupIds (maxHit / g.spec.blockSize) rows ∧
      (g.spec.attention = .full → AllCached p hashes g.groupIds rows) ∧
      finalBlocks c out.1 out.2 gid = rows.map fun row => row.getD (g.groupIds.idxOf gid) 0 := by
  obtain ⟨h, -⟩ | ⟨g, idx, hg, hgid, h⟩ := finalBlocks_cases c out.1 out.2 gid
  · exact .inl h
  cases hrows : out.2.hitRows idx with
  | none => exact .inl (by simp [h, finalRows, hrows])
  | some rows =>
    obtain ⟨g', hashes, hg', hcr, hhs, hhit⟩ := (hitInv_hitLoop hloop).rows hrows
    obtain rfl : g = g' := Option.some.inj (hg.symm.trans hg')
    have hall : g.spec.attention = .full → AllCached p hashes g.groupIds rows := by
      intro hfull
      obtain ⟨hashes', hhs', hall⟩ := allCached_hitLoop hloop hg hfull hrows
      obtain rfl := Except.ok.inj (hhs.symm.trans hhs')
      exact hall
    refine .inr ⟨g, hashes, finalRows out.1 out.2 g idx, mem_of_getElem? hg, hgid, hcr, hhs, ?_,
      fun hfull => ?_, h⟩
    all_goals
      simp only [finalRows, hrows, Option.getD_some]
      split
    · exact hhit.take _
    · exact hhit
    · exact (hall hfull).take _
    · exact hall hfull

variable {bs : List ℕ}

open CacheHit in
/-- Every hit of a group is a column of the rows found for its spec. -/
lemma getComputedBlocks_column {n i : ℕ} (hk : k.Consistent)
    (h : k.getComputedBlocks r = .ok (hits, n)) (hbs : hits[i]? = some bs) :
    bs = [] ∨ k.enableCaching = true ∧ ∃ (gids : List ℕ) (hashes : BlockHashList) (size num : ℕ)
      (rows : List Row), i ∈ gids ∧
      BlockPool.blockHashesAt k.blockPool.hashBlockSize size r.blockHashes = .ok hashes ∧
      HitRows k.blockPool hashes gids num rows ∧
      (r.WellHashed k.blockPool.hashBlockSize → Distinct hashes num) ∧
      bs = (rows.map fun row => row.getD (gids.idxOf i) 0) ∧
      ∀ m, k.managers[i]? = some m → m.blockSize = size ∧ m.spec.attention ≠ .crossAttention ∧
        (m.spec.attention = .full → AllCached k.blockPool hashes gids rows) := by
  have hnil : hits = (k.managers.map fun _ => []) → bs = [] := by
    rintro rfl
    obtain ⟨_, -, rfl⟩ := mem_map.mp (mem_of_getElem? hbs)
    rfl
  unfold getComputedBlocks at h
  split at h
  · exact .inl (hnil (Prod.mk.inj (Except.ok.inj h)).1.symm)
  rename_i hcach
  have hcach : k.enableCaching = true := by simpa using (not_or.mp hcach).1
  unfold findLongestCacheHit at h
  split at h
  · exact .inl (hnil (Prod.mk.inj (Except.ok.inj h)).1.symm)
  next d hcoord =>
    obtain ⟨m, hms, hsize⟩ := hk.unitary d hcoord
    rw [hms] at h
    obtain ⟨rows, hrows, ⟨⟩⟩ := of_bind h
    obtain ⟨hlt, rfl⟩ := List.getElem?_eq_some_iff.mp hbs
    obtain rfl : i = 0 := by simpa using hlt
    refine .inr ⟨hcach, [0], .plain r.blockHashes, m.blockSize, _, rows, mem_singleton.mpr rfl,
      by rw [BlockPool.blockHashesAt, if_pos hsize], hitRows_findLongestCacheHit hrows,
      fun hr => Distinct.plain hr.nodup _, by simp, fun m' hm' => ?_⟩
    obtain rfl : m = m' := by simpa [hms] using hm'
    refine ⟨rfl, not_cross_of_find hrows, fun hfull => ?_⟩
    simp only [CacheHit.findLongestCacheHit, hfull] at hrows
    rw [← Except.ok.inj hrows]
    exact allCached_findFull _ _ _ _
  rename_i c hcoord
  obtain ⟨hhash, hgroup⟩ := hk.hybrid c hcoord
  obtain ⟨out, hout, ⟨⟩⟩ := of_bind h
  obtain ⟨⟨hitLength, st⟩, hloop, ⟨⟩⟩ := of_bind hout
  rw [getElem?_map, Option.map_eq_some_iff] at hbs
  obtain ⟨i', hi', rfl⟩ := hbs
  obtain rfl : i = i' := by simpa using (List.getElem?_eq_some_iff.mp hi').2
  refine (finalBlocks_eq hloop i).imp_right ?_
  rintro ⟨g, hashes, rows, hg, hgid, hcr, hhs, hrows, hall, hbs⟩
  rw [hhash] at hhs
  refine ⟨hcach, g.groupIds, hashes, g.spec.blockSize, _, rows, hgid, hhs, hrows,
    fun hr => Distinct.of_wellHashed hr (Nat.sub_le _ _) hhs, hbs, fun m hm => ?_⟩
  obtain ⟨hsize, hspec⟩ := hgroup hm g hg hgid
  exact ⟨hsize, hspec ▸ hcr, hspec ▸ hall⟩

def HitsOnce (hits : List (List ℕ)) : Prop := ∀ bs ∈ hits, ∀ b, b ≠ nullBlock → bs.count b ≤ 1

variable {m : SingleTypeKVCacheManager}

open CacheHit in
lemma getComputedBlocks_cachedAt {n : ℕ} (hk : k.Consistent)
    (h : k.getComputedBlocks r = .ok (hits, n)) {i j b : ℕ}
    (hm : k.managers[i]? = some m) (hbs : hits[i]? = some bs) (hj : bs[j]? = some b)
    (hb : b ≠ nullBlock) : CachedAt k.blockPool m r j b := by
  obtain rfl | ⟨-, gids, hashes, size, num, rows, hgid, hhs, hrows, -, rfl, hgroup⟩ :=
    getComputedBlocks_column hk h hbs
  · simp at hj
  obtain ⟨rfl, -, -⟩ := hgroup m hm
  obtain ⟨x, gid, hget, hx, hcached⟩ := hrows.mem_cached hb hj
  have hlt := idxOf_lt_length_of_mem hgid
  rw [getElem?_eq_getElem hlt, getElem_idxOf] at hget
  cases hget
  exact ⟨hashes, x, hhs, hx, (hk.ids hm).symm ▸ hcached⟩

lemma getComputedBlocks_hashedAt {n : ℕ} (hk : k.Consistent)
    (h : k.getComputedBlocks r = .ok (hits, n)) {i j b : ℕ}
    (hm : k.managers[i]? = some m) (hbs : hits[i]? = some bs) (hj : bs[j]? = some b)
    (hfull : m.spec.attention = .full) : HashedAt k.blockPool m r j b := by
  obtain rfl | ⟨-, gids, hashes, size, num, rows, hgid, hhs, -, -, rfl, hgroup⟩ :=
    getComputedBlocks_column hk h hbs
  · simp at hj
  obtain ⟨rfl, -, hall⟩ := hgroup m hm
  obtain ⟨x, hx, hcached⟩ := (hall hfull).mem_cached hgid hj
  exact ⟨hashes, x, hhs, hx, (hk.ids hm).symm ▸ hcached⟩

/-- Hits of a lookup: listed once, and each cached at its index, without gaps for full attention. -/
structure HitsCached (k : KVCacheManager) (r : Request) (hits : List (List ℕ)) : Prop where
  once : HitsOnce hits
  cached : ∀ m ∈ k.managers, ∀ bs, nthBlocks hits m.kvCacheGroupId = .ok bs →
    ∀ j b, bs[j]? = some b →
    b ≠ nullBlock → CachedAt k.blockPool m r j b
  full : ∀ m ∈ k.managers, m.spec.attention = .full →
    ∀ bs, nthBlocks hits m.kvCacheGroupId = .ok bs →
    ∀ j b, bs[j]? = some b → HashedAt k.blockPool m r j b

lemma hitsCached_nil (k : KVCacheManager) (r : Request) :
    k.HitsCached r (k.managers.map fun _ => []) := by
  have hnil : ∀ bs ∈ k.managers.map fun _ => ([] : List ℕ), bs = [] := by simp
  refine ⟨fun bs hbs b _ => ?_, fun m _ bs hbs j b hj _ => ?_, fun m _ _ bs hbs j b hj => ?_⟩
  · rw [hnil bs hbs]
    exact Nat.zero_le _
  all_goals
    rw [hnil bs (mem_of_getElem? (nthBlocks_eq_ok.mp hbs))] at hj
    simp at hj

lemma hitsCached_getComputedBlocks {n : ℕ} (hk : k.Consistent) (hmap : k.blockPool.MapOk)
    (hr : k.enableCaching = true → r.WellHashed k.blockPool.hashBlockSize)
    (h : k.getComputedBlocks r = .ok (hits, n)) : k.HitsCached r hits where
  once bs hbs b hb := by
    obtain ⟨i, hi⟩ := mem_iff_getElem?.mp hbs
    obtain rfl | ⟨hon, gids, hashes, size, num, rows, -, -, hrows, hdis, rfl, -⟩ :=
      getComputedBlocks_column hk h hi
    · exact Nat.zero_le _
    · exact hrows.count_le_one hmap (hdis (hr hon)) hb
  cached m hm bs hbs j b hj hb := by
    obtain ⟨i, hi⟩ := mem_iff_getElem?.mp hm
    rw [hk.ids hi] at hbs
    exact getComputedBlocks_cachedAt hk h hi (nthBlocks_eq_ok.mp hbs) hj hb
  full m hm hfull bs hbs j b hj := by
    obtain ⟨i, hi⟩ := mem_iff_getElem?.mp hm
    rw [hk.ids hi] at hbs
    exact getComputedBlocks_hashedAt hk h hi (nthBlocks_eq_ok.mp hbs) hj hfull

lemma HitsCached.congr (h : k.HitsCached r hits)
    (hgs : Forall₂ SameConfig k.managers k'.managers) (hp : SameCache k.blockPool k'.blockPool) :
    k'.HitsCached r hits where
  once := h.once
  cached m' hm' bs hbs j b hj hb := by
    obtain ⟨m, hm, hcfg⟩ := forall₂_mem hgs hm'
    rw [hcfg.gid] at hbs
    exact (h.cached m hm bs hbs j b hj hb).congr hcfg hp
  full m' hm' hfull bs hbs j b hj := by
    obtain ⟨m, hm, hcfg⟩ := forall₂_mem hgs hm'
    rw [hcfg.gid] at hbs
    exact (h.full m hm (hcfg.spec ▸ hfull) bs hbs j b hj).congr hcfg hp

end KVCacheManager

end Vllm
