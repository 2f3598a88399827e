import Vllm.KVCache.AllocateSlots

/-! # Allocation over runs -/

namespace Vllm

open Relation List KVCacheManager

namespace SingleTypeKVCacheManager

variable {m m' : SingleTypeKVCacheManager} {p q : BlockPool} {rid : String}

lemma removeSkippedBlocks_eq (hm : Exact m) (p : BlockPool) (rid : String) (total : ℤ) :
    ∃ n, m.removeSkippedBlocks p rid total = .ok (m.baseRemoveSkippedBlocks p rid n) ∧
    n ≤ max 0 total := by
  unfold removeSkippedBlocks
  split
  · rename_i mode numSpec hmamba
    have : mode ≠ .align := fun halign => hm.notAlign numSpec (halign ▸ hmamba)
    rw [if_neg this]
    exact ⟨_, rfl, by omega⟩
  · exact ⟨total, rfl, le_max_right _ _⟩

/-- A call changed the manager only in the table of request `rid`, where it nulled blocks before the
attention window. -/
structure OnlySkippedNulled (rid : String) (total : ℤ) (m m' : SingleTypeKVCacheManager) :
    Prop where
  config : SameConfig m m'
  tracked : ∀ rid', m'.isTracked rid' = m.isTracked rid'
  others : ∀ rid', rid' ≠ rid → m'.blocksOf rid' = m.blocksOf rid'
  length : (m'.blocksOf rid).length = (m.blocksOf rid).length
  entries : ∀ i : ℕ, (m'.blocksOf rid)[i]? = (m.blocksOf rid)[i]? ∨
    ((m'.blocksOf rid)[i]? = some nullBlock ∧
      ((i : ℤ) + 1) * m.blockSize ≤ getNumSkippedTokens m.spec.attention total)

lemma OnlySkippedNulled.refl (rid : String) (total : ℤ) (m : SingleTypeKVCacheManager) :
    OnlySkippedNulled rid total m m :=
  ⟨SameConfig.refl m, fun _ => rfl, fun _ _ => rfl, rfl, fun _ => Or.inl rfl⟩

lemma getNumSkippedTokens_mono (attention : AttentionType) {n n' : ℤ} (h : n ≤ n') :
    getNumSkippedTokens attention n ≤ getNumSkippedTokens attention n' := by
  cases attention with
  | full => exact le_rfl
  | slidingWindow w => simp only [getNumSkippedTokens]; omega
  | chunkedLocal c =>
    rcases Nat.eq_zero_or_pos c with rfl | hc
    · simp [getNumSkippedTokens]
    have hc' : (0 : ℤ) < c := by exact_mod_cast hc
    exact Int.mul_le_mul_of_nonneg_right (Int.ediv_le_ediv hc' h) hc'.le
  | mamba _ _ => simp only [getNumSkippedTokens]; omega
  | crossAttention => exact le_rfl

lemma baseRemoveSkippedBlocks_entries (hpos : 0 < m.blockSize) (p : BlockPool) (rid : String)
    {n total : ℤ} (hn : n ≤ total) :
    OnlySkippedNulled rid total m (m.baseRemoveSkippedBlocks p rid n).1 := by
  unfold baseRemoveSkippedBlocks
  split
  · exact .refl rid total m
  refine ⟨⟨rfl, rfl, rfl, rfl⟩, fun _ => rfl, fun rid' hne => ?_, ?_, fun i => ?_⟩
  · rw [blocksOf_insert (m := m) rfl, if_neg hne]
  · rw [blocksOf_insert (m := m) rfl, if_pos rfl]
    exact (count_skipLoop _ _).1
  rw [blocksOf_insert (m := m) rfl, if_pos rfl]
  refine (getElem?_skipLoop _ _ i).imp_right fun ⟨hnull, hi⟩ => ⟨hnull, ?_⟩
  have hpos' : (0 : ℤ) < m.blockSize := by exact_mod_cast hpos
  have hi' : (i : ℤ) + 1 ≤ m.numSkippedBlocks n := by omega
  calc ((i : ℤ) + 1) * m.blockSize ≤ m.numSkippedBlocks n * m.blockSize :=
        Int.mul_le_mul_of_nonneg_right hi' hpos'.le
    _ ≤ getNumSkippedTokens m.spec.attention n := Int.ediv_mul_le _ hpos'.ne'
    _ ≤ getNumSkippedTokens m.spec.attention total := getNumSkippedTokens_mono _ hn

lemma removeSkippedBlocks_spec {total : ℤ} (hm : Exact m) (htotal : 0 ≤ total)
    (hout : m.removeSkippedBlocks p rid total = .ok (m', q)) :
    OnlySkippedNulled rid total m m' := by
  obtain ⟨n, heq, hn⟩ := removeSkippedBlocks_eq hm p rid total
  rw [max_eq_right htotal] at hn
  have hent := baseRemoveSkippedBlocks_entries hm.size_pos p rid hn
  rwa [Except.ok.inj (heq.symm.trans hout)] at hent

end SingleTypeKVCacheManager

open SingleTypeKVCacheManager

namespace KVCacheManager

variable {k k' : KVCacheManager} {rid : String} {hits : List (List ℕ)} {n : ℕ} {r : Request}
  {a : AllocArgs}

/-- What `init` fixes about the managers and the coordinator and the prediction relies on. -/
structure Config (k : KVCacheManager) : Prop where
  exact : ∀ m ∈ k.managers, Exact m
  few : k.managers.length ≤ 2 ^ 32
  caching : ∀ m ∈ k.managers, m.enableCaching = k.enableCaching
  hybrid : ∀ c, k.coordinator = .hybrid c → c.numGroups = k.managers.length

lemma Config.congr (h : k.Config) (hgs : Forall₂ SameConfig k.managers k'.managers)
    (hcoord : k'.coordinator = k.coordinator) (hcach : k'.enableCaching = k.enableCaching) :
    k'.Config where
  exact m' hm' := by
    obtain ⟨m, hm, hcfg⟩ := forall₂_mem hgs hm'
    exact hcfg.exact (h.exact m hm)
  few := by
    rw [← hgs.length_eq]
    exact h.few
  caching m' hm' := by
    obtain ⟨m, hm, hcfg⟩ := forall₂_mem hgs hm'
    rw [hcfg.caching, h.caching m hm, hcach]
  hybrid c hc := by
    rw [← hgs.length_eq]
    exact h.hybrid c (hcoord.symm.trans hc)

lemma removeSkippedBlocks_only {total : ℤ} (hex : ∀ m ∈ k.managers, Exact m) (htotal : 0 ≤ total)
    (h : k.removeSkippedBlocks rid total = .ok k') :
    Forall₂ (OnlySkippedNulled rid total) k.managers k'.managers := by
  obtain ⟨⟨xs, k1⟩, hrun, ⟨⟩⟩ := of_bind h
  obtain ⟨⟨ys, ms, q⟩, hloop, ⟨⟩⟩ := of_bind hrun
  exact (forManagers_forall₂ (Q := fun _ _ => True) (fun _ => trivial) (fun _ _ =>
    trivial) (fun m hm {p q m' x} hf =>
      ⟨removeSkippedBlocks_spec (hex m hm) htotal (silent_eq_ok hf), trivial⟩) hloop).1

lemma getComputedBlocks_length (hk : k.Consistent)
    (hconf : k.Config) (h : k.getComputedBlocks r = .ok (hits, n)) :
    hits.length = k.managers.length := by
  unfold getComputedBlocks at h
  split at h
  · cases h
    exact length_map _
  unfold findLongestCacheHit at h
  split at h
  · cases h
    exact length_map _
  next d hcoord =>
    obtain ⟨m, hms, -⟩ := hk.unitary d hcoord
    rw [hms] at h ⊢
    obtain ⟨rows, -, ⟨⟩⟩ := of_bind h
    rfl
  rename_i c hcoord
  obtain ⟨out, hout, ⟨⟩⟩ := of_bind h
  obtain ⟨⟨hitLength, st⟩, -, ⟨⟩⟩ := of_bind hout
  simp [hconf.hybrid c hcoord]

/-- The hits that `get_computed_blocks` returns can be added. -/
lemma hitsFor_getComputedBlocks (hk : k.Consistent) (hconf : k.Config) (hpool : k.blockPool.PoolOk)
    (hr : k.enableCaching = true → r.WellHashed k.blockPool.hashBlockSize)
    (h : k.getComputedBlocks r = .ok (hits, n)) : k.HitsFor hits := by
  have hlen := getComputedBlocks_length hk hconf h
  have hat : ∀ {i : ℕ} {m : SingleTypeKVCacheManager}, k.managers[i]? = some m →
      i < 2 ^ 32 ∧ hits[i]? = some (groupHits hits m) := by
    intro i m hm
    have hi := lt_of_getElem? hm
    refine ⟨hi.trans_le hconf.few, ?_⟩
    rw [groupHits, hk.ids hm, getElem?_eq_getElem (hlen ▸ hi), Option.getD_some]
  have hcached : ∀ {i : ℕ} {m : SingleTypeKVCacheManager}, k.managers[i]? = some m →
      ∀ b ∈ groupHits hits m, b ≠ nullBlock →
        ∃ x, b ∈ k.blockPool.cachedBlockHashToBlock (makeBlockHashWithGroupId x i) := by
    intro i m hm b hb hnull
    obtain ⟨j, hj⟩ := mem_iff_getElem?.mp hb
    obtain ⟨hashes, x, -, -, hx⟩ := getComputedBlocks_cachedAt hk h hm (hat hm).2 hj hnull
    exact ⟨x, hk.ids hm ▸ hx⟩
  refine ⟨fun m hm => ?_, fun m hm => ?_, ?_⟩
  · obtain ⟨i, hi⟩ := mem_iff_getElem?.mp hm
    rw [hk.ids hi]
    exact (hat hi).2
  · obtain ⟨i, hi⟩ := mem_iff_getElem?.mp hm
    have honce := (hitsCached_getComputedBlocks hk hpool.map hr h).once
    have hcolumn := getComputedBlocks_column hk h (hat hi).2
    refine ⟨honce _ (mem_of_getElem? (hat hi).2), fun b hb hnull => ?_, fun hoff => ?_,
      fun hcr => ?_⟩
    · obtain ⟨x, hx⟩ := hcached hi b hb hnull
      exact (hpool.free.cached hx).2
    · refine hcolumn.resolve_right fun hon => ?_
      rw [hconf.caching m hm, hon.1] at hoff
      cases hoff
    refine hcolumn.resolve_right ?_
    rintro ⟨-, gids, hashes, size, num, rows, -, -, -, -, -, hgroup⟩
    exact (hgroup m hi).2.1 hcr
  refine pairwise_iff_getElem.mpr fun i j hi hj hij b hnull hb hb' => ?_
  have hi' := getElem?_eq_getElem hi
  have hj' := getElem?_eq_getElem hj
  obtain ⟨x, hx⟩ := hcached hi' b hb hnull
  obtain ⟨y, hy⟩ := hcached hj' b hb' hnull
  -- The key of a block contains the group id.
  have hkey :=
    congrArg getGroupId (Option.some.inj ((hpool.map.keyed hx).symm.trans (hpool.map.keyed hy)))
  rw [BlockPool.getGroupId_make x (hat hi').1, BlockPool.getGroupId_make y (hat hj').1] at hkey
  exact hij.ne hkey

lemma hitsFor_nil (hk : k.Consistent) : k.HitsFor (k.managers.map fun _ => []) := by
  have hnil : ∀ m, groupHits (k.managers.map fun _ => []) m = [] := by
    intro m
    rw [groupHits, getElem?_map]
    cases k.managers[m.kvCacheGroupId]? <;> rfl
  refine ⟨fun m hm => ?_, fun m _ => ?_, pairwise_of_forall fun m m' b _ hb => ?_⟩
  · obtain ⟨i, hi⟩ := mem_iff_getElem?.mp hm
    rw [hnil, hk.ids hi, getElem?_map, hi]
    rfl
  · rw [hnil]
    exact ⟨fun _ _ => Nat.zero_le _, fun _ hb => absurd hb not_mem_nil, fun _ => rfl, fun _ => rfl⟩
  · rw [hnil] at hb
    exact absurd hb not_mem_nil

/-! ## One call -/

lemma groupHits_congr {m m' : SingleTypeKVCacheManager} (h : SameConfig m m') :
    groupHits hits m' = groupHits hits m := by
  rw [groupHits, groupHits, h.gid]

lemma HitsFor.congr (h : k.HitsFor hits) (hgs : Forall₂ SameConfig k.managers k'.managers)
    (hsize : k'.blockPool.numGpuBlocks = k.blockPool.numGpuBlocks) : k'.HitsFor hits where
  some m' hm' := by
    obtain ⟨m, hm, hcfg⟩ := forall₂_mem hgs hm'
    rw [groupHits_congr hcfg, hcfg.gid]
    exact h.some m hm
  ok m' hm' := by
    obtain ⟨m, hm, hcfg⟩ := forall₂_mem hgs hm'
    have hok := h.ok m hm
    rw [groupHits_congr hcfg]
    exact ⟨hok.once, fun b hb hnull => (hok.bound b hb hnull).trans_eq hsize.symm,
      fun hoff => hok.caching (hcfg.caching.symm.trans hoff),
      fun hcr => hok.cross (by rwa [hcfg.spec] at hcr)⟩
  apart := by
    refine pairwise_iff_getElem.mpr fun i j hi hj hij => ?_
    obtain ⟨m, hm, hcfg⟩ := forall₂_getElem? hgs (getElem?_eq_getElem hi)
    obtain ⟨m', hm', hcfg'⟩ := forall₂_getElem? hgs (getElem?_eq_getElem hj)
    obtain ⟨hi', rfl⟩ := List.getElem?_eq_some_iff.mp hm
    obtain ⟨hj', rfl⟩ := List.getElem?_eq_some_iff.mp hm'
    rw [groupHits_congr hcfg, groupHits_congr hcfg']
    exact pairwise_iff_getElem.mp h.apart i j hi' hj' hij

variable {total nExternal : ℤ}

lemma Running.congr {total' : ℤ} (h : k.Running rid hits total nExternal)
    (hgs : Forall₂ (OnlySkippedNulled rid total') k.managers k'.managers) :
    k'.Running rid hits total nExternal where
  noHits := h.noHits
  noExternal := h.noExternal.imp_right fun ⟨m, hm, htr⟩ => by
    obtain ⟨i, hi⟩ := mem_iff_getElem?.mp hm
    obtain ⟨m', hi', hnulled⟩ := forall₂_getElem? hgs.flip hi
    exact ⟨m', mem_of_getElem? hi', (hnulled.tracked rid).trans htr⟩
  covered m' hm' hcr := by
    obtain ⟨m, hm, hnulled⟩ := forall₂_mem hgs hm'
    rw [hnulled.config.spec] at hcr
    have := h.covered m hm hcr
    rwa [hnulled.length, numSkippedBlocks, hnulled.config.spec, hnulled.config.blockSize]

lemma FirstTime.congr {total' : ℤ} (h : k.FirstTime rid hits total nExternal)
    (hgs : Forall₂ (OnlySkippedNulled rid total') k.managers k'.managers) :
    k'.FirstTime rid hits total nExternal where
  untracked m' hm' := by
    obtain ⟨m, hm, hnulled⟩ := forall₂_mem hgs hm'
    rw [hnulled.tracked]
    exact h.untracked m hm
  empty m' hm' hcr := by
    obtain ⟨m, hm, hnulled⟩ := forall₂_mem hgs hm'
    rw [hnulled.config.spec] at hcr
    rw [← length_eq_zero_iff, hnulled.length, h.empty m hm hcr, length_nil]
  computed := h.computed
  covered m' hm' hcr := by
    obtain ⟨m, hm, hnulled⟩ := forall₂_mem hgs hm'
    rw [hnulled.config.spec] at hcr
    rw [groupHits_congr hnulled.config, hnulled.config.blockSize]
    exact h.covered m hm hcr

/-- The layout of blocks that `allocate_slots` documents. -/
structure Layout (k : KVCacheManager) (r : Request) (a : AllocArgs) (n : ℕ) (hits : List (List ℕ)) :
    Prop where
  start : 0 ≤ r.numComputedTokens
  fits : r.numComputedTokens + n + a.numExternalComputedTokens ≤ k.maxModelLen
  request : k.Running r.requestId hits (r.numComputedTokens + n + a.numExternalComputedTokens)
      a.numExternalComputedTokens ∨
    k.FirstTime r.requestId hits (r.numComputedTokens + n + a.numExternalComputedTokens)
      a.numExternalComputedTokens

lemma takes_predicted {k1 : KVCacheManager} {num : ℤ}
    (hconf : k.Config) (hhits : k.HitsFor hits) (hlayout : k.Layout r a n hits) :
    let nLocal := r.numComputedTokens + n
    let total := nLocal + a.numExternalComputedTokens
    let main := total + a.numNewTokens
    let need := min (main + a.numLookaheadTokens) k.maxModelLen
    Intact k k1 → k.removeSkippedBlocks r.requestId total = .ok k1 →
    k1.getNumBlocksToAllocate r.requestId need hits a.numEncoderTokens total main false = .ok num →
    num + k.watermarkFor r a ≤ k1.blockPool.numFreeBlocks - a.reservedBlocks →
    ∃ k2 new k3, k1.addComputedBlocks r a hits nLocal = .ok k2 ∧
      k2.allocateNewBlocks r.requestId need main a.numEncoderTokens = .ok (new, k3) ∧
      k3.blockPool.numFreeBlocks = k1.blockPool.numFreeBlocks - num := by
  intro nLocal total main need h1 hskip hnum hle
  have hstart := hlayout.start
  have hfits : total ≤ k.maxModelLen := hlayout.fits
  have hwater : 0 ≤ k.watermarkFor r a := by
    unfold watermarkFor
    split <;> omega
  have hnulled := removeSkippedBlocks_only hconf.exact (by omega) hskip
  obtain ⟨k2, new, k3, hadd, hnew, -, hcnt⟩ :=
    allocation_exact h1.pool (h1.exact hconf.exact) (hhits.congr h1.groups h1.size)
      (hlayout.request.imp (fun h => h.congr hnulled) fun h => h.congr hnulled)
      (by omega : total ≤ need) hnum (by omega)
  exact ⟨k2, new, k3, hadd, hnew, hcnt⟩

lemma allocateSlots_refused {env : HashEnv} (hex : ∀ m ∈ k.managers, Exact m)
    (hlayout : k.Layout r a n hits) (h : k.allocateSlots env r a n hits = .ok (none, k')) :
    Forall₂ (OnlySkippedNulled r.requestId (r.numComputedTokens + n + a.numExternalComputedTokens))
      k.managers k'.managers ∧
      k'.blockPool.cachedBlockHashToBlock = k.blockPool.cachedBlockHashToBlock := by
  have hcases := allocateSlots_cases h
  have hstart := hlayout.start
  dsimp only at hcases
  rw [min_eq_left hlayout.fits] at hcases
  obtain ⟨-, rfl⟩ | ⟨k1, num, hskip, -, ⟨-, -, rfl⟩ | ⟨-, new', -, hnone⟩⟩ := hcases
  · exact ⟨forall₂_same.mpr fun m _ => OnlySkippedNulled.refl _ _ m, rfl⟩
  · exact ⟨removeSkippedBlocks_only hex (by omega) hskip, (removeSkippedBlocks_sameCache hskip).2.1⟩
  · cases hnone

/-- Mamba groups are not in align mode and without context parallelism, and group ids fit the four
bytes of keys. -/
structure Exactable (a : KVCacheManagerArgs) : Prop where
  sizes : ∀ g ∈ a.groups, 0 < g.kvCacheSpec.blockSize
  cp : 0 < a.cp
  notAlign : ∀ g ∈ a.groups, ∀ numSpec, g.kvCacheSpec.attention ≠ .mamba .align numSpec
  mamba : ∀ g ∈ a.groups, ∀ mode numSpec, g.kvCacheSpec.attention = .mamba mode numSpec → a.cp = 1
  few : a.groups.length ≤ 2 ^ 32

lemma Config.init {a : KVCacheManagerArgs} (ha : Exactable a) (h : init a = .ok k) : k.Config := by
  obtain ⟨-, -, hcach, hlen, eagle, hcoord, -⟩ := init_eq_ok h
  refine ⟨fun m hm => ?_, hlen ▸ ha.few, fun m hm => ?_, fun c hc => ?_⟩
  · obtain ⟨eagle, g, gid, hg, rfl⟩ := mem_init h hm
    refine ⟨Nat.mul_pos (ha.sizes g hg) ha.cp, ha.notAlign g hg, fun mode numSpec hmamba => ?_⟩
    simp [makeManager, ha.mamba g hg mode numSpec hmamba]
  · obtain ⟨eagle, g, gid, -, rfl⟩ := mem_init h hm
    exact hcach.symm
  rw [hc] at hcoord
  obtain h | ⟨d', h, -⟩ | ⟨c', h, hinit⟩ := makeCoordinator_cases hcoord
  · cases h
  · cases h
  obtain rfl := Coordinator.hybrid.inj h
  obtain ⟨-, -, rfl⟩ := CacheHit.hybridInit_eq_ok hinit
  exact hlen.symm

lemma Layout.hitsEnd (h : k.Layout r a n hits) (hex : ∀ m ∈ k.managers, Exact m)
    (hhits : k.HitsFor hits) :
    k.HitsEnd hits (r.numComputedTokens + n + a.numExternalComputedTokens) := by
  intro m hm bs hbs
  have hstart := h.start
  obtain rfl : bs = groupHits hits m :=
    Option.some.inj ((nthBlocks_eq_ok.mp hbs).symm.trans (hhits.some m hm))
  have hnil : groupHits hits m = [] → ((groupHits hits m).length : ℤ) ≤
      cdiv (r.numComputedTokens + n + a.numExternalComputedTokens) m.blockSize := by
    intro hnil
    rw [hnil]
    exact cdiv_nonneg (by omega) m.blockSize
  obtain hrunning | hfst := h.request
  · exact hnil (hrunning.noHits _ (mem_of_getElem? (hhits.some m hm)))
  by_cases hcr : m.spec.attention = .crossAttention
  · exact hnil ((hhits.ok m hm).cross hcr)
  · exact le_cdiv_of_mul_le (hex m hm).size_pos (hfst.covered m hm hcr)

end KVCacheManager

/-! ## Runs -/

namespace KVState

open KVCacheManager

variable {s t : KVState} {hashBlockSize : ℕ} {env : HashEnv} {K : HashEnv → Request → Prop}

/-- The calls whose requests and hits have the block layout that `allocate_slots` documents. -/
def Promised (hashBlockSize : ℕ) (s : KVState) : KVCall → Prop
  | .allocateWithHits r a => (s.kv.enableCaching = true → r.WellHashed hashBlockSize) ∧
      ∀ hits n, s.kv.getComputedBlocks r = .ok (hits, n) → s.kv.Layout r a n hits
  | .allocate r a => s.kv.Layout r a 0 (s.kv.managers.map fun _ => [])
  | _ => True

/-- The invariant of the runs over which the prediction is exact. -/
structure Sound (hashBlockSize : ℕ) (s : KVState) : Prop extends Steady hashBlockSize s where
  pool : s.kv.blockPool.PoolOk
  config : s.kv.Config

variable (h : Sound hashBlockSize s)
include h

lemma Sound.steps (hsteps : ReflTransGen (KVStep True True K) s t) :
    Sound hashBlockSize t := by
  refine { h.toSteady.steps hsteps with
    pool := poolOk_of_steps hsteps h.ledger h.pool
    config := ?_ }
  induction hsteps with
  | refl => exact h.config
  | tail _ he ih =>
    obtain ⟨hgs, hcoord, hcach, -⟩ := he.sameConfig
    exact ih.congr hgs hcoord hcach

lemma Sound.hitsFor {r : Request} {hits : List (List ℕ)} {n : ℕ}
    (hr : s.kv.enableCaching = true → r.WellHashed hashBlockSize)
    (hhits : s.kv.getComputedBlocks r = .ok (hits, n)) : s.kv.HitsFor hits :=
  hitsFor_getComputedBlocks h.consistent h.config h.pool (h.hashSize.symm ▸ hr) hhits

omit h

lemma Promised.admissible {c : KVCall} (hok : Promised hashBlockSize s c)
    (h : Sound hashBlockSize s)
    (hcall : s.call env c = .ok t) : Admissible hashBlockSize s c ∧ Covered s c := by
  cases c with
  | allocateWithHits r a =>
    obtain ⟨⟨hits, n⟩, hhits, -⟩ := of_bind hcall
    have hstart := (hok.2 hits n hhits).start
    refine ⟨⟨hok.1, by omega⟩, fun _ => ⟨hstart, fun hits n hhits => ?_⟩⟩
    exact (hok.2 hits n hhits).hitsEnd h.config.exact (h.hitsFor hok.1 hhits)
  | allocate r a =>
    have hstart := Layout.start hok
    refine ⟨?_, fun _ => hstart⟩
    show 0 ≤ r.numComputedTokens + a.numNewTokens
    omega
  | _ => exact ⟨trivial, trivial⟩

include h in
lemma Sound.call {c : KVCall} (hok : Promised hashBlockSize s c)
    (hcall : s.call env c = .ok t) : Sound hashBlockSize t := by
  obtain ⟨hadm, hcov⟩ := hok.admissible h hcall
  exact h.steps (call_steps (K := fun _ _ => True) (fun _ => ⟨h.toSteady, hadm⟩) (fun _ => hcov)
    (fun _ _ => trivial) hcall)

lemma Sound.init {a : KVCacheManagerArgs} {k : KVCacheManager} (ha : Exactable a)
    (h : init a = .ok k) : Sound a.hashBlockSize { kv := k } :=
  { Steady.init h with pool := poolOk_init h, config := Config.init ha h }

def PassedHits (hashBlockSize : ℕ) (k : KVCacheManager) (r : Request) (n : ℕ)
    (hits : List (List ℕ)) : Prop :=
  (hits = (k.managers.map fun _ => []) ∧ n = 0) ∨
    ((k.enableCaching = true → r.WellHashed hashBlockSize) ∧ k.getComputedBlocks r = .ok (hits, n))

lemma layout_full {k : KVCacheManager} {r : Request} {args : AllocArgs}
    (hfull : ∀ m ∈ k.managers, m.spec.attention = .full) (hstart : 0 ≤ r.numComputedTokens)
    (hfits : r.numComputedTokens ≤ k.maxModelLen) (hext : args.numExternalComputedTokens = 0) :
    k.Layout r args 0 (k.managers.map fun _ => []) where
  start := hstart
  fits := by simpa [hext] using hfits
  request := by
    refine Or.inl ⟨fun bs hbs => ?_, Or.inl (by simp [hext]), fun m hm _ => ?_⟩
    · obtain ⟨_, -, rfl⟩ := mem_map.mp hbs
      rfl
    · simp [numSkippedBlocks, getNumSkippedTokens, hfull m hm]

lemma exactable_smallArgs : Exactable smallArgs where
  sizes := by simp [smallArgs]
  cp := by decide
  notAlign := by simp [smallArgs]
  mamba := by simp [smallArgs]
  few := by decide

def smallRunning : Request := { smallRequest with numComputedTokens := 3 }

lemma small_promised_run :
    ∃ (k : KVCacheManager) (s : KVState) (k1 : KVCacheManager), init smallArgs = .ok k ∧
    Machine.Run (call smallEnv) (Promised 2) { kv := k }
    [.allocate smallRequest { numNewTokens := 3 }] s ∧
    s.kv.Layout smallRunning { numNewTokens := 2 } 0 [[]] ∧
    PassedHits 2 s.kv smallRunning 0 [[]] ∧ s.kv.maxModelLen = 8 ∧
    s.kv.watermarkFor smallRunning { numNewTokens := 2 } = 0 ∧
    s.kv.removeSkippedBlocks "r" 3 = .ok k1 ∧
    k1.getNumBlocksToAllocate "r" 5 [[]] 0 3 5 false = .ok 1 ∧ k1.blockPool.numFreeBlocks = 1 := by
  have hfull : ∀ {k : KVCacheManager} {g : SingleTypeKVCacheManager}, k.managers = [g] →
      g.spec.attention = .full → ∀ m ∈ k.managers, m.spec.attention = .full := by
    intro k g hk hg m hm
    rw [hk] at hm
    rwa [mem_singleton.mp hm]
  refine ⟨_, _, _, rfl,
    .cons (layout_full (hfull rfl rfl) (by decide) (by decide) rfl) rfl (.nil _),
    layout_full (hfull rfl rfl) (by decide) (by decide) rfl, Or.inl ⟨rfl, rfl⟩, rfl, rfl, rfl, rfl,
      rfl⟩

/-- Two groups of full attention with different specs, and a sliding window. -/
def threeSpecs : KVCacheManagerArgs where
  groups := [⟨⟨.full, 1, 0⟩, false⟩, ⟨⟨.full, 1, 1⟩, false⟩, ⟨⟨.slidingWindow 2, 1, 0⟩, false⟩]
  numBlocks := 16
  maxModelLen := 8
  maxNumBatchedTokens := 8
  schedulerBlockSize := 1
  hashBlockSize := 1

def fourTokens (rid : String) : Request where
  requestId := rid
  promptTokenIds := some [1, 2, 3, 4]
  numPromptTokens := 4
  allTokenIds := [1, 2, 3, 4]
  blockHashes := [[5], [6], [7], [8]]

end KVState

end Vllm
