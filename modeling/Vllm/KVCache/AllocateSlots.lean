import Vllm.KVCache.Predictor

/-! # `allocate_slots` takes what was predicted -/

namespace Vllm

open SingleTypeKVCacheManager List

namespace KVCacheManager

variable {k k' : KVCacheManager} {rid : String} {hits : List (List ℕ)} {r : Request} {a : AllocArgs}

def groupHits (hits : List (List ℕ)) (m : SingleTypeKVCacheManager) : List ℕ :=
  (hits[m.kvCacheGroupId]?).getD []

/-- The hits can be added to the tables of all groups. -/
structure HitsFor (k : KVCacheManager) (hits : List (List ℕ)) : Prop where
  some : ∀ m ∈ k.managers, hits[m.kvCacheGroupId]? = some (groupHits hits m)
  ok : ∀ m ∈ k.managers, HitsOk m k.blockPool (groupHits hits m)
  apart : k.managers.Pairwise fun m m' =>
    ∀ b, b ≠ nullBlock → b ∈ groupHits hits m → b ∉ groupHits hits m'

/-- A request without new hits whose tables reach the attention windows. External tokens are given,
and ignored, only for a tracked request. -/
structure Running (k : KVCacheManager) (rid : String) (hits : List (List ℕ)) (total nExternal : ℤ) :
    Prop where
  noHits : ∀ bs ∈ hits, bs = []
  noExternal : nExternal = 0 ∨ ∃ m ∈ k.managers, m.isTracked rid = true
  covered : ∀ m ∈ k.managers, m.spec.attention ≠ .crossAttention →
    m.numSkippedBlocks total ≤ (m.blocksOf rid).length

/-- A request that is allocated for the first time, with hits or external tokens. Its hits lie
within the computed tokens. -/
structure FirstTime (k : KVCacheManager) (rid : String) (hits : List (List ℕ))
    (total nExternal : ℤ) :
    Prop where
  untracked : ∀ m ∈ k.managers, m.isTracked rid = false
  empty : ∀ m ∈ k.managers, m.spec.attention ≠ .crossAttention → m.blocksOf rid = []
  computed : (∃ bs ∈ hits, bs ≠ []) ∨ 0 < nExternal
  covered : ∀ m ∈ k.managers, m.spec.attention ≠ .crossAttention →
    ((groupHits hits m).length : ℤ) * m.blockSize ≤ total

lemma forall₂_sum_eq {α : Type} {g : α → ℤ} {xs : List α} {ys : List ℤ} (bound : ℤ)
    (h : Forall₂ (fun x y => bound ≤ y ∨ y = g x) xs ys) (hpos : ∀ x, 0 ≤ g x) (hbound : 0 ≤ bound)
    (hlt : ys.sum < bound) : ys.sum = (xs.map g).sum := by
  have hnonneg : ∀ {xs : List α} {ys : List ℤ}, Forall₂ (fun x y => bound ≤ y ∨ y = g x) xs ys →
    0 ≤ ys.sum := by
    intro xs ys h
    induction h with
    | nil => simp
    | cons hxy _ ih =>
      rename_i x y _ _ _
      have := hpos x
      rw [sum_cons]
      omega
  induction h with
  | nil => rfl
  | cons hxy hrest ih =>
    rename_i x y xs ys
    have hrest0 := hnonneg hrest
    rw [sum_cons] at hlt
    rw [sum_cons, map_cons, sum_cons]
    have := hpos x
    rcases hxy with hxy | rfl
    · omega
    · rw [ih (by omega)]

lemma numFreeBlocks_le (h : k.blockPool.FreeOk) :
    k.blockPool.numFreeBlocks ≤ k.blockPool.numGpuBlocks := by
  have hsub : k.blockPool.freeBlockQueue ⊆ range k.blockPool.numGpuBlocks := fun b hb =>
    mem_range.mpr (h.mem_iff.mp hb).2.1
  have hlen := (subperm_of_subset h.nodup hsub).length_le
  rw [length_range] at hlen
  rw [h.count]
  exact_mod_cast hlen

lemma getNumBlocksToAllocate_eq {n enc total main num : ℤ} (hex : ∀ m ∈ k.managers, Exact m)
    (hhits : ∀ m ∈ k.managers, hits[m.kvCacheGroupId]? = some (groupHits hits m))
    (hpool : k.blockPool.PoolOk)
    (h : k.getNumBlocksToAllocate rid n hits enc total main false = .ok num)
    (hle : num ≤ k.blockPool.numFreeBlocks) :
    num =
    (k.managers.map fun m => m.predicted k.blockPool rid (groupHits hits m) total n enc).sum := by
  obtain ⟨ns, hns, ⟨⟩⟩ := of_bind h
  have hall := mapM_eq_ok hns
  have hbound := numFreeBlocks_le hpool.free
  refine forall₂_sum_eq (k.blockPool.numGpuBlocks + 1) ?_
    (fun m => predicted_nonneg m k.blockPool rid _ total n enc) (by omega) (by omega)
  -- The prediction of each manager is the number of blocks or too large for any pool.
  refine forall₂_iff_get.mpr ⟨hall.length_eq, fun i h1 h2 => ?_⟩
  have hi := (forall₂_iff_get.mp hall).2 i h1 h2
  have hmem := get_mem k.managers ⟨i, h1⟩
  rcases managerNumBlocksToAllocate_eq (hex _ hmem) (fun _ => hhits _ hmem) hi with hx | hx
  · exact Or.inl hx.ge
  · exact Or.inr hx

/-! ## The phases -/

def remaining (k : KVCacheManager) (rid : String) (n enc : ℤ) : ℤ :=
  (k.managers.map fun m => m.remaining rid n enc).sum

/-- The pool is still sound, and the configuration has not changed. -/
structure Intact (k k' : KVCacheManager) : Prop where
  pool : k'.blockPool.PoolOk
  groups : List.Forall₂ SameConfig k.managers k'.managers
  size : k'.blockPool.numGpuBlocks = k.blockPool.numGpuBlocks

variable (hpool : k.blockPool.PoolOk)

include hpool in
lemma Intact.refl : Intact k k := ⟨hpool, forall₂_same.mpr fun m _ => .refl m, rfl⟩

lemma Intact.trans {k1 k2 k3 : KVCacheManager} (h : Intact k1 k2) (h' : Intact k2 k3) :
    Intact k1 k3 :=
  ⟨h'.pool, forall₂_trans (R := SameConfig) SameConfig.trans h.groups h'.groups,
    h'.size.trans h.size⟩

lemma Intact.exact (h : Intact k k') (hex : ∀ m ∈ k.managers, Exact m) :
    ∀ m ∈ k'.managers, Exact m := by
  intro m' hm'
  obtain ⟨m, hm, hcfg⟩ := forall₂_mem h.groups hm'
  exact hcfg.exact (hex m hm)

lemma allocateNewBlocks_exact {n enc : ℤ} (main : ℤ) (hpool : k.blockPool.PoolOk)
    (hex : ∀ m ∈ k.managers, Exact m) (hle : k.remaining rid n enc ≤ k.blockPool.numFreeBlocks) :
    ∃ new k', k.allocateNewBlocks rid n main enc = .ok (new, k') ∧ Intact k k' ∧
      k'.blockPool.numFreeBlocks = k.blockPool.numFreeBlocks - k.remaining rid n enc := by
  obtain ⟨xs, ms, q, hrun, hq, hsize, hbalance, hcfg⟩ :=
    forManagers_ok (fun _ _ => True) (fun _ m => Exact m) SameConfig
      (fun m => m.remaining rid n enc) (fun _ => 0)
      (f := fun m p =>
        m.allocateNewBlocks p rid (if m.spec.attention = .crossAttention then enc else n) main)
      (fun hp hm hle => by
        obtain ⟨x, m', q, h1, h2, h3, h4, h5⟩ := allocateNewBlocks_ok main hp hm hle
        exact ⟨x, m', q, h1, h2, h3, by rw [h4, sub_zero], le_rfl, h5, fun _ _ h => h⟩)
      (fun m => remaining_nonneg m rid n enc)
      (pairwise_of_forall fun _ _ => trivial) hpool hex hle
  refine ⟨xs, { k with managers := ms, blockPool := q }, ?_, ⟨hq, hcfg, hsize⟩, ?_⟩
  · unfold allocateNewBlocks withManagers
    rw [hrun]
    rfl
  · simpa [remaining] using hbalance

lemma allocateExternal_exact (enc : ℤ) {n nLocal nExternal : ℤ} (hpool : k.blockPool.PoolOk)
    (hpre : ∀ m ∈ k.managers, Exact m ∧ ∃ numHits, m.AfterHits rid numHits (nLocal + nExternal))
    (hneed : nLocal + nExternal ≤ n) (hle : k.remaining rid n enc ≤ k.blockPool.numFreeBlocks) :
    ∃ xs k', (k.withManagers fun m p =>
        silent (m.allocateExternalComputedBlocks p rid nLocal nExternal)) = .ok (xs, k') ∧
        Intact k k' ∧
      k'.blockPool.numFreeBlocks - k'.remaining rid n enc = k.blockPool.numFreeBlocks -
      k.remaining rid n enc := by
  obtain ⟨xs, ms, q, hrun, hq, hsize, hbalance, hcfg⟩ := forManagers_ok (fun _ _ => True)
      (fun _ m => Exact m ∧ ∃ numHits, m.AfterHits rid numHits (nLocal + nExternal)) SameConfig
      (fun m => m.remaining rid n enc) (fun m => m.remaining rid n enc)
      (f := fun m p => silent (m.allocateExternalComputedBlocks p rid nLocal nExternal))
      (fun hp hm hle => by
        obtain ⟨hex, numHits, hafter⟩ := hm
        obtain ⟨m', q, h1, h2, h3, h4, h5⟩ :=
          allocateExternalComputedBlocks_ok hp hex hafter hneed hle
        exact ⟨(), m', q, by rw [h1]; rfl, h2, h3, h4, remaining_nonneg m' rid n enc, h5,
          fun _ _ h => h⟩)
      (fun m => remaining_nonneg m rid n enc)
      (pairwise_of_forall fun _ _ => trivial) hpool hpre hle
  refine ⟨xs, { k with managers := ms, blockPool := q }, ?_, ⟨hq, hcfg, hsize⟩, hbalance⟩
  unfold withManagers
  rw [hrun]
  rfl

include hpool in
/-- The hits of all groups are added, and take from the pool what was predicted. -/
lemma addLocal_exact {n enc nLocal nExternal : ℤ} (hhits : k.HitsFor hits)
    (hfst : k.FirstTime rid hits (nLocal + nExternal) nExternal)
    (hle : (k.managers.map fun m => m.predicted k.blockPool rid (groupHits hits m)
      (nLocal + nExternal) n enc).sum ≤ k.blockPool.numFreeBlocks) :
      ∃ xs k', (k.withManagers fun m p => do
        let blocks ← nthBlocks hits m.kvCacheGroupId
        silent (m.addLocalComputedBlocks p rid blocks nLocal nExternal)) = .ok (xs, k') ∧
        Intact k k' ∧
      (∀ m ∈ k'.managers, ∃ numHits, m.AfterHits rid numHits (nLocal + nExternal)) ∧
      k'.blockPool.numFreeBlocks - k'.remaining rid n enc =
        k.blockPool.numFreeBlocks - (k.managers.map fun m => m.predicted k.blockPool rid
          (groupHits hits m) (nLocal + nExternal) n enc).sum := by
  set total := nLocal + nExternal with htotal
  -- The references to the hits of a manager do not change before its turn.
  let Pre (p : BlockPool) (m : SingleTypeKVCacheManager) : Prop :=
    m ∈ k.managers ∧ p.numGpuBlocks = k.blockPool.numGpuBlocks ∧
      ∀ b ∈ groupHits hits m, b ≠ nullBlock → p.refCnt b = k.blockPool.refCnt b
  have hpredicted : ∀ {p m}, Pre p m → m.predicted p rid (groupHits hits m) total n enc =
      m.predicted k.blockPool rid (groupHits hits m) total n enc := by
    intro p m hpre
    unfold SingleTypeKVCacheManager.predicted
    rw [BlockPool.numEvictable_congr fun b hb hnull => hpre.2.2 b (mem_of_mem_drop hb) hnull]
  have hnth : ∀ {m}, m ∈ k.managers → nthBlocks hits m.kvCacheGroupId = .ok (groupHits hits m) := by
    intro m hm
    unfold nthBlocks
    rw [hhits.some m hm]
  obtain ⟨xs, ms, q, hrun, hq, hsize, hbalance, hpost⟩ :=
    forManagers_ok (fun m m' => ∀ b, b ≠ nullBlock → b ∈ groupHits hits m →
      b ∉ groupHits hits m') Pre
      (fun m m' => SameConfig m m' ∧ ∃ numHits, m'.AfterHits rid numHits total)
      (fun m => m.predicted k.blockPool rid (groupHits hits m) total n enc)
      (fun m => m.remaining rid n enc)
      (f := fun m p => do
        let blocks ← nthBlocks hits m.kvCacheGroupId
        silent (m.addLocalComputedBlocks p rid blocks nLocal nExternal))
      (fun {p m} hp hpre _ => by
        have hm := hpre.1
        have hok : HitsOk m p (groupHits hits m) := { (hhits.ok m hm) with
            bound := fun b hb hnull => ((hhits.ok m hm).bound b hb hnull).trans_eq hpre.2.1.symm }
        obtain ⟨m', q, h1, h2, h3, h4, h5, h6, h7⟩ :=
          addLocalComputedBlocks_ok n enc hp hok (hfst.empty m hm)
            (hfst.untracked m hm) (hfst.covered m hm)
        refine ⟨(), m', q, ?_, h2, h3, ?_, remaining_nonneg m' rid n enc, ⟨h5, _, h6⟩, ?_⟩
        · rw [hnth hm]
          change silent (m.addLocalComputedBlocks p rid _ nLocal nExternal) = _
          rw [h1]
          rfl
        · rw [h4, ← htotal, hpredicted hpre]
        intro m2 hapart hpre2
        refine ⟨hpre2.1, h3.trans hpre2.2.1, fun b hb hnull => ?_⟩
        rw [h7 b fun hmem => hapart b hnull hmem hb]
        exact hpre2.2.2 b hb hnull)
      (fun m => predicted_nonneg m k.blockPool rid _ total n enc) hhits.apart hpool
      (fun m hm => ⟨hm, rfl, fun _ _ _ => rfl⟩) hle
  refine ⟨xs, { k with managers := ms, blockPool := q }, ?_,
    ⟨hq, hpost.imp fun _ _ h => h.1, hsize⟩, ?_, hbalance⟩
  · unfold withManagers
    rw [hrun]
    rfl
  intro m' hm'
  obtain ⟨m, -, hm⟩ := forall₂_mem hpost hm'
  exact hm.2

/-! ## The whole allocation -/

lemma addComputedBlocks_running {nLocal total : ℤ}
    (hrunning : k.Running r.requestId hits total a.numExternalComputedTokens) :
    k.addComputedBlocks r a hits nLocal = .ok k := by
  unfold addComputedBlocks
  split
  · rename_i hcall
    have hext : a.numExternalComputedTokens > 0 := by
      refine hcall.resolve_left fun hany => ?_
      obtain ⟨bs, hbs, hne⟩ := any_eq_true.mp hany
      exact absurd (hrunning.noHits bs hbs) (by simpa using hne)
    obtain ⟨m, hm, htr⟩ := hrunning.noExternal.resolve_left (by omega)
    unfold allocateNewComputedBlocks
    rw [if_pos (any_eq_true.mpr ⟨m, hm, htr⟩)]
    have hall : hits.all (·.length = 0) = true := by
      rw [all_eq_true]
      intro bs hbs
      rw [hrunning.noHits bs hbs]
      rfl
    have hassert : pyAssert (hits.all (·.length = 0)) "" = .ok () := if_pos hall
    rw [hassert]
    rfl
  · rfl

include hpool

lemma addComputedBlocks_firstTime {nLocal n enc : ℤ} (hex : ∀ m ∈ k.managers, Exact m)
    (hhits : k.HitsFor hits)
    (hfst : k.FirstTime r.requestId hits (nLocal + a.numExternalComputedTokens)
      a.numExternalComputedTokens) (hneed : nLocal + a.numExternalComputedTokens ≤ n)
    (hle : (k.managers.map fun m => m.predicted k.blockPool r.requestId (groupHits hits m)
      (nLocal + a.numExternalComputedTokens) n enc).sum ≤ k.blockPool.numFreeBlocks) :
    ∃ k', k.addComputedBlocks r a hits nLocal = .ok k' ∧ Intact k k' ∧
      k'.blockPool.numFreeBlocks - k'.remaining r.requestId n enc =
        k.blockPool.numFreeBlocks - (k.managers.map fun m => m.predicted k.blockPool r.requestId
          (groupHits hits m) (nLocal + a.numExternalComputedTokens) n enc).sum := by
  obtain ⟨xs, k1, hlocal, hintact, hafter, hbalance⟩ := addLocal_exact hpool hhits hfst hle
  have hcall : hits.any (· ≠ []) = true ∨ a.numExternalComputedTokens > 0 := by
    refine hfst.computed.imp (fun ⟨bs, hbs, hne⟩ => ?_) (fun h => by exact_mod_cast h)
    exact any_eq_true.mpr ⟨bs, hbs, by simpa using hne⟩
  have huntracked : ¬ k.managers.any (·.isTracked r.requestId) = true := by
    intro hany
    obtain ⟨m, hm, htr⟩ := any_eq_true.mp hany
    rw [hfst.untracked m hm] at htr
    cases htr
  unfold addComputedBlocks allocateNewComputedBlocks
  rw [if_pos hcall, if_neg huntracked, hlocal]
  by_cases hext : (a.numExternalComputedTokens : ℤ) > 0
  · have hpre : ∀ m ∈ k1.managers, Exact m ∧
        ∃ numHits, m.AfterHits r.requestId numHits (nLocal + a.numExternalComputedTokens) :=
      fun m hm => ⟨hintact.exact hex m hm, hafter m hm⟩
    obtain ⟨ys, k2, hext', hintact', hbalance'⟩ :=
      allocateExternal_exact enc hintact.pool hpre hneed (by omega)
    refine ⟨k2, ?_, hintact.trans hintact', by rw [hbalance', hbalance]⟩
    change (if (a.numExternalComputedTokens : ℤ) > 0 then _ else _) = _
    rw [if_pos hext, hext']
    rfl
  refine ⟨k1, ?_, hintact, hbalance⟩
  change (if (a.numExternalComputedTokens : ℤ) > 0 then _ else _) = _
  rw [if_neg hext]

/-- If the prediction fits, hits, external and new blocks are allocated and the free count falls by
it. -/
lemma allocation_exact {nLocal n main enc num : ℤ} (hex : ∀ m ∈ k.managers, Exact m)
    (hhits : k.HitsFor hits)
    (hlayout : k.Running r.requestId hits (nLocal + a.numExternalComputedTokens)
        a.numExternalComputedTokens ∨
      k.FirstTime r.requestId hits (nLocal + a.numExternalComputedTokens)
      a.numExternalComputedTokens)
    (hneed : nLocal + a.numExternalComputedTokens ≤ n)
    (hnum : k.getNumBlocksToAllocate r.requestId n hits enc (nLocal + a.numExternalComputedTokens)
      main false = .ok num)
    (hle : num ≤ k.blockPool.numFreeBlocks) :
    ∃ k2 new k3, k.addComputedBlocks r a hits nLocal = .ok k2 ∧
      k2.allocateNewBlocks r.requestId n main enc = .ok (new, k3) ∧ Intact k k3 ∧
      k3.blockPool.numFreeBlocks = k.blockPool.numFreeBlocks - num := by
  have hsum := getNumBlocksToAllocate_eq hex hhits.some hpool hnum hle
  obtain ⟨k2, hadd, hintact, hbalance⟩ : ∃ k2, k.addComputedBlocks r a hits nLocal = .ok k2 ∧
      Intact k k2 ∧
        k2.blockPool.numFreeBlocks - k2.remaining r.requestId n enc = k.blockPool.numFreeBlocks -
        num := by
    rcases hlayout with hrunning | hfst
    · refine ⟨k, addComputedBlocks_running hrunning, Intact.refl hpool, ?_⟩
      have : num = k.remaining r.requestId n enc := by
        rw [hsum, remaining]
        congr 1
        refine map_congr_left fun m hm => ?_
        have hnil : groupHits hits m = [] := hrunning.noHits _ (mem_of_getElem? (hhits.some m hm))
        rw [hnil]
        exact predicted_running (hrunning.covered m hm)
      rw [this]
    · obtain ⟨k2, hadd, hintact, hbalance⟩ :=
        addComputedBlocks_firstTime hpool hex hhits hfst hneed (hsum ▸ hle)
      exact ⟨k2, hadd, hintact, by rw [hbalance, hsum]⟩
  have hle2 : k2.remaining r.requestId n enc ≤ k2.blockPool.numFreeBlocks := by omega
  obtain ⟨new, k3, hnew, hintact', hcnt⟩ :=
    allocateNewBlocks_exact main hintact.pool (hintact.exact hex) hle2
  exact ⟨k2, new, k3, hadd, hnew, hintact.trans hintact', by omega⟩

end KVCacheManager

end Vllm
