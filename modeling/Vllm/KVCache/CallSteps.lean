import Vllm.KVCache.Ledger

/-! # Calls as sequences of steps -/

namespace Vllm

open SingleTypeKVCacheManager Relation List

/-! ## Calls of the coordinator -/

namespace KVCacheManager

variable {H C : Prop} {k k' : KVCacheManager} {rid : String} {env : HashEnv}
  {K : HashEnv → Request → Prop} {r : Request}
  {Step : SingleTypeKVCacheManager → BlockPool → SingleTypeKVCacheManager → BlockPool → Prop}
variable {hits : List (List ℕ)} {n : ℤ} {β : Type}
  {f : SingleTypeKVCacheManager → BlockPool →
    Py (β × SingleTypeKVCacheManager × BlockPool)} {xs : List β}

abbrev Steps (Step : SingleTypeKVCacheManager → BlockPool → SingleTypeKVCacheManager → BlockPool →
      Prop) :
    KVCacheManager → KVCacheManager → Prop := ReflTransGen (OneManager Step)

lemma steps_of_manager (k : KVCacheManager) (l r : List SingleTypeKVCacheManager)
    {a b : SingleTypeKVCacheManager × BlockPool} (h : SingleTypeKVCacheManager.Steps Step a b) :
    Steps Step { k with managers := l ++ a.1 :: r, blockPool := a.2 }
      { k with managers := l ++ b.1 :: r, blockPool := b.2 } := by
  induction h with
  | refl => exact .refl
  | tail _ he ih => exact ih.tail (.mk l r _ _ _ rfl he)

variable {I : BlockPool → Prop}

lemma forManagers_steps
    {ms ms' : List SingleTypeKVCacheManager} {p q : BlockPool} (k : KVCacheManager)
    (l : List SingleTypeKVCacheManager) (hf : ∀ m ∈ ms, ∀ {p q m' x}, I p → f m p = .ok (x, m', q) →
      I q ∧ SingleTypeKVCacheManager.Steps Step (m, p) (m', q))
    (hI : I p) (hrun : forManagers f ms p = .ok (xs, ms', q)) :
    Steps Step { k with managers := l ++ ms, blockPool := p }
      { k with managers := l ++ ms', blockPool := q } := by
  induction ms generalizing l p xs ms' with
  | nil =>
    cases hrun
    exact .refl
  | cons m ms ih =>
    obtain ⟨⟨x, m', p'⟩, hm, hrun⟩ := of_bind hrun
    obtain ⟨⟨xs', ms'', q'⟩, hms, ⟨⟩⟩ := of_bind hrun
    obtain ⟨hI', hsteps⟩ := hf m mem_cons_self hI hm
    have hfst := steps_of_manager k l ms hsteps
    have hrest := ih (l ++ [m']) (forall_mem_cons.mp hf).2 hI' hms
    simp only [append_assoc, singleton_append] at hrest
    exact hfst.trans hrest

lemma withManagers_steps (hf : ∀ m ∈ k.managers, ∀ {p q m' x}, I p → f m p = .ok (x, m', q) →
      I q ∧ SingleTypeKVCacheManager.Steps Step (m, p) (m', q))
    (hI : I k.blockPool) (hrun : k.withManagers f = .ok (xs, k')) : Steps Step k k' := by
  obtain ⟨⟨ys, ms, q⟩, hloop, ⟨⟩⟩ := of_bind hrun
  exact forManagers_steps k [] hf hI hloop

lemma withManagers_steps' (hf : ∀ m ∈ k.managers, ∀ {p q m' x}, f m p = .ok (x, m', q) →
      SingleTypeKVCacheManager.Steps Step (m, p) (m', q)) (hrun : k.withManagers f = .ok (xs, k')) :
      Steps Step k k' :=
  withManagers_steps (I := fun _ => True) (fun m hm {_ _ _ _} _ hf' => ⟨trivial, hf m hm hf'⟩)
    trivial hrun

lemma kept_of_steps (hstep : ∀ {m m' p q}, Step m p m' q → Kept H m m' ∧ p.SameSetup q)
    (h : Steps Step k k') : Forall₂ (Kept H) k.managers k'.managers ∧
      k'.enableCaching = k.enableCaching ∧ k.blockPool.SameSetup k'.blockPool := by
  have hrefl : ∀ ms, Forall₂ (Kept H) ms ms := fun ms => forall₂_same.mpr fun m _ => .refl m
  induction h with
  | refl => exact ⟨hrefl _, rfl, .refl _⟩
  | tail _ he ih =>
    obtain ⟨l, r, m, m', q, hk, he⟩ := he
    obtain ⟨hkept, hset⟩ := hstep he
    obtain ⟨hgs, hcach, hsets⟩ := ih
    rw [hk] at hgs
    exact ⟨forall₂_trans (R := Kept H) Kept.trans hgs
      (rel_append (hrefl l) (.cons hkept (hrefl r))), hcach, hsets.trans hset⟩

lemma kept_of_grow (h : Steps (GrowStep H C env r) k k') :
    Forall₂ (Kept H) k.managers k'.managers ∧ k'.enableCaching = k.enableCaching ∧
    k.blockPool.SameSetup k'.blockPool :=
  kept_of_steps (fun hstep => ⟨hstep.kept, hstep.sameSetup⟩) h

lemma steps_of_grow (hr : K env r) (h : Steps (GrowStep H C env r) k k') :
    Steps (ManagerStep H C K r.requestId) k k' := by
  refine ReflTransGen.mono (fun k1 k2 h => ?_) _ _ h
  obtain ⟨l, rest, m, m', q, hk, h⟩ := h
  exact .mk l rest m m' q hk (.grow env r hr rfl h)

lemma steps_removeSkippedBlocks (hout : k.removeSkippedBlocks rid n = .ok k') :
    Steps (ManagerStep H C K rid) k k' := by
  obtain ⟨⟨_, k1⟩, hrun, ⟨⟩⟩ := of_bind hout
  exact withManagers_steps' (fun m _ {_ _ _ _} hm => ReflTransGen.mono (fun _ _ => .recycle) _ _
    (removeSkippedBlocks_steps (silent_eq_ok hm))) hrun

lemma steps_free (hout : k.free rid = .ok k') : Steps (ManagerStep H C K rid) k k' := by
  obtain ⟨⟨_, k1⟩, hrun, ⟨⟩⟩ := of_bind hout
  refine withManagers_steps' (fun m _ {p q m' x} hm => ?_) hrun
  cases hm
  exact .single .free

lemma steps_coordinatorCacheBlocks (hcach : H → k.blockPool.enableCaching = true)
    (hout : k.coordinatorCacheBlocks env r n = .ok k') : Steps (GrowStep H C env r) k k' := by
  obtain ⟨⟨_, k1⟩, hrun, ⟨⟩⟩ := of_bind hout
  refine withManagers_steps (I := fun p => H → p.enableCaching = true) (fun m _ {p q m' x} hp hm =>
    ?_) hcach hrun
  have hsteps : SingleTypeKVCacheManager.Steps (GrowStep H C env r) (m, p) (m', q) :=
    cacheBlocks_steps hp (silent_eq_ok hm)
  have hset := (kept_of_grow (steps_of_manager k [] [] hsteps)).2.2
  exact ⟨fun hH => hset.caching.trans (hp hH), hsteps⟩

lemma steps_allocateNewBlocks {n main enc : ℤ} {new : List (List ℕ)}
    (h : H → (∀ m ∈ k.managers, m.Speculative) ∧ 0 ≤ main)
    (hout : k.allocateNewBlocks r.requestId n main enc = .ok (new, k')) :
    Steps (GrowStep H C env r) k k' :=
  withManagers_steps' (fun m hm {_ _ _ _} hf =>
    allocateNewBlocks_steps (fun hH => ⟨(h hH).1 m hm, (h hH).2⟩) hf) hout

lemma removeSkippedBlocks_sameCache (h : k.removeSkippedBlocks rid n = .ok k') :
    Forall₂ SameConfig k.managers k'.managers ∧ SameCache k.blockPool k'.blockPool := by
  obtain ⟨⟨xs, k1⟩, hrun, ⟨⟩⟩ := of_bind h
  obtain ⟨⟨ys, ms, q⟩, hloop, ⟨⟩⟩ := of_bind hrun
  exact forManagers_forall₂ (R := SameConfig) (Q := SameCache) (fun _ => ⟨rfl, rfl⟩) (fun h h' =>
    h.trans h')
    (fun m _ {p q m' x} hf => recycles_sameCache (removeSkippedBlocks_steps (silent_eq_ok hf)))
      hloop

def HitsEnd (k : KVCacheManager) (hits : List (List ℕ)) (total : ℤ) : Prop :=
  ∀ m ∈ k.managers, ∀ bs, nthBlocks hits m.kvCacheGroupId = .ok bs →
    (bs.length : ℤ) ≤ cdiv total m.blockSize

lemma HitsEnd.congr {total : ℤ} (h : k.HitsEnd hits total)
    (hgs : Forall₂ SameConfig k.managers k'.managers) : k'.HitsEnd hits total := by
  intro m' hm' bs hbs
  obtain ⟨m, hm, hconf⟩ := forall₂_mem hgs hm'
  rw [hconf.blockSize]
  exact h m hm bs (hconf.gid ▸ hbs)

variable {nLocal nExternal : ℤ}

lemma steps_addLocal {xs : List Unit} (hhits : H → k.HitsCached r hits)
    (hrun : (k.withManagers fun m p => do
      let blocks ← nthBlocks hits m.kvCacheGroupId
      silent (m.addLocalComputedBlocks p r.requestId blocks nLocal nExternal)) = .ok (xs, k')) :
    Steps (GrowStep H C env r) k k' := by
  refine withManagers_steps (I := SameCache k.blockPool) (fun m hm {p q m' x} hp hrun => ?_) ⟨rfl,
    rfl⟩ hrun
  obtain ⟨bs, hbs, hrun⟩ := of_bind hrun
  have hrun := silent_eq_ok hrun
  exact ⟨hp.trans (addLocalComputedBlocks_sameCache hrun), addLocalComputedBlocks_steps
    (fun hH => (hhits hH).once bs (mem_of_getElem? (nthBlocks_eq_ok.mp hbs)))
    (fun hH i b hi hb => ((hhits hH).cached m hm bs hbs i b hi hb).congr (.refl m) hp)
    (fun hH hfull i b hi => ((hhits hH).full m hm hfull bs hbs i b hi).congr (.refl m) hp) hrun⟩

lemma steps_allocateNewComputedBlocks (hhits : H → k.HitsCached r hits)
    (hend : C → 0 < nExternal → 0 ≤ nLocal + nExternal ∧ k.HitsEnd hits (nLocal + nExternal))
    (hout : k.allocateNewComputedBlocks r.requestId hits nLocal nExternal = .ok k') :
    Steps (GrowStep H C env r) k k' := by
  unfold allocateNewComputedBlocks at hout
  split at hout
  · obtain ⟨_, -, ⟨⟩⟩ := of_bind hout
    exact .refl
  obtain ⟨⟨_, k1⟩, hlocal, hout⟩ := of_bind hout
  have h1 : Steps (GrowStep H C env r) k k1 := steps_addLocal hhits hlocal
  dsimp only at hout
  split at hout
  next hpos =>
    obtain ⟨⟨_, k2⟩, hext, ⟨⟩⟩ := of_bind hout
    -- After the first loop the table of each group is as long as its hits or the skipped blocks.
    have htables : List.Forall₂ (fun m m' => SameConfig m m' ∧ (m.spec.attention ≠ .crossAttention →
        ∃ bs, nthBlocks hits m.kvCacheGroupId = .ok bs ∧ (m'.blocksOf r.requestId).length =
          max (m.numSkippedBlocks (nLocal + nExternal)).toNat bs.length)) k.managers
            k1.managers := by
      obtain ⟨⟨ys, ms, q⟩, hloop, ⟨⟩⟩ := of_bind hlocal
      refine (forManagers_forall₂ (Q := fun _ _ => True) (fun _ => trivial) (fun _ _ => trivial)
        (fun m _ {p q m' x} hm => ?_) hloop).1
      obtain ⟨bs, hbs, hm⟩ := of_bind hm
      obtain ⟨hconf, hlen⟩ := length_addLocalComputedBlocks (silent_eq_ok hm)
      exact ⟨⟨hconf, fun hcr => ⟨bs, hbs, hlen hcr⟩⟩, trivial⟩
    refine h1.trans (withManagers_steps' (fun m' hm' {p q m'' x} hm =>
      allocateExternalComputedBlocks_steps (fun hC hcr => ?_) (silent_eq_ok hm)) hext)
    obtain ⟨m, hmem, hconf, htab⟩ := forall₂_mem htables hm'
    obtain ⟨htotal, hend⟩ := hend hC hpos
    obtain ⟨bs, hbs, hlen⟩ := htab (hconf.spec ▸ hcr)
    have hbound := hend m hmem bs hbs
    have hskip : m'.numSkippedBlocks (nLocal + nExternal) =
      m.numSkippedBlocks (nLocal + nExternal) := by
      rw [numSkippedBlocks, numSkippedBlocks, hconf.spec, hconf.blockSize]
    rw [hconf.blockSize, hlen]
    omega
  · cases hout
    exact h1

/-- What `allocate_slots` needs of the manager and the hits. -/
structure Ready (k : KVCacheManager) (r : Request) (hits : List (List ℕ)) : Prop where
  speculative : ∀ m ∈ k.managers, m.Speculative
  caching : k.blockPool.enableCaching = k.enableCaching
  hits : k.HitsCached r hits

lemma speculative_of_kept (hkept : Forall₂ (Kept H) k.managers k'.managers) (hH : H)
    (h : ∀ m ∈ k.managers, m.Speculative) : ∀ m ∈ k'.managers, m.Speculative := by
  intro m' hm'
  obtain ⟨m, hm, hm'⟩ := forall₂_mem hkept hm'
  exact hm'.speculative hH (h m hm)

lemma steps_commitSlots {a : AllocArgs} {hits new : List (List ℕ)} {nLocal total need main : ℤ}
    (h : H → k.Ready r hits ∧ 0 ≤ main)
    (hend : C → 0 < a.numExternalComputedTokens → 0 ≤ nLocal + a.numExternalComputedTokens ∧
      k.HitsEnd hits (nLocal + a.numExternalComputedTokens))
    (hout : k.commitSlots env r a hits nLocal total need main = .ok (new, k')) :
    Steps (GrowStep H C env r) k k' := by
  obtain ⟨k1, hcomp, hout⟩ := of_bind hout
  obtain ⟨⟨new', k2⟩, hnew, hout⟩ := of_bind hout
  have h1 : Steps (GrowStep H C env r) k k1 := by
    unfold addComputedBlocks at hcomp
    split at hcomp
    · exact steps_allocateNewComputedBlocks (fun hH => (h hH).1.hits)
        (fun hC hpos => hend hC (by exact_mod_cast hpos)) hcomp
    · cases hcomp
      exact .refl
  have h2 := h1.trans (steps_allocateNewBlocks (fun hH =>
    ⟨speculative_of_kept (kept_of_grow h1).1 hH (h hH).1.speculative, (h hH).2⟩) hnew)
  dsimp only at hout
  split at hout
  · cases hout
    exact h2
  rename_i hcached
  obtain ⟨k3, hcache, ⟨⟩⟩ := of_bind hout
  obtain ⟨-, hsame, hset⟩ := kept_of_grow h2
  have hon : k2.enableCaching = true := by
    by_contra hoff
    exact hcached (.inl hoff)
  refine h2.trans (steps_coordinatorCacheBlocks (fun hH => ?_) hcache)
  rw [hset.caching, (h hH).1.caching, ← hsame, hon]

lemma Ready.removeSkipped {rid : String} (h : k.Ready r hits)
    (hskip : k.removeSkippedBlocks rid n = .ok k') : k'.Ready r hits := by
  obtain ⟨hgs, hcache⟩ := removeSkippedBlocks_sameCache hskip
  have hsteps : Steps (ManagerStep True False (fun _ _ => True) rid) k k' :=
    steps_removeSkippedBlocks hskip
  obtain ⟨hkept, hsame, hset⟩ := kept_of_steps (fun hstep => ⟨hstep.kept, hstep.sameSetup⟩) hsteps
  refine ⟨speculative_of_kept hkept trivial h.speculative, ?_, h.hits.congr hgs hcache⟩
  rw [hset.caching, h.caching, hsame]

lemma steps_allocateSlots {a : AllocArgs} {n : ℕ} {new : Option (List (List ℕ))}
    (hr : K env r) (h : H → k.Ready r hits ∧ 0 ≤ r.numComputedTokens + a.numNewTokens)
    (hend : C → 0 < a.numExternalComputedTokens → 0 ≤ r.numComputedTokens ∧
      k.HitsEnd hits (r.numComputedTokens + n + a.numExternalComputedTokens))
    (hout : k.allocateSlots env r a n hits = .ok (new, k')) :
    Steps (ManagerStep H C K r.requestId) k k' := by
  obtain ⟨-, rfl⟩ | ⟨k1, num, hskip, -, ⟨-, -, rfl⟩ | ⟨-, new', hcommit, -⟩⟩ :=
    allocateSlots_cases hout
  · exact .refl
  · exact steps_removeSkippedBlocks hskip
  have h1 : Steps (ManagerStep H C K r.requestId) k k1 := steps_removeSkippedBlocks hskip
  refine h1.trans (steps_of_grow hr (steps_commitSlots (fun hH => ?_) (fun hC hpos => ?_) hcommit))
  · obtain ⟨hready, hpos⟩ := h hH
    exact ⟨hready.removeSkipped hskip, by omega⟩
  · obtain ⟨hstart, hend⟩ := hend hC hpos
    exact ⟨by omega, hend.congr (removeSkippedBlocks_sameCache hskip).1⟩

end KVCacheManager

/-! ## Calls of a scheduler -/

def KVCall.request? : KVCall → Option Request
  | .allocateWithHits r _ | .allocate r _ | .cacheBlocks r _ => some r
  | _ => none

namespace KVState

variable {H C : Prop} {s t : KVState} {hashBlockSize : ℕ} {env : HashEnv}
  {K : HashEnv → Request → Prop}

open KVCacheManager

/-- Callers' promise: a request that is looked up is hashed, and the slots asked for do not end
before position 0. -/
def Admissible (hashBlockSize : ℕ) (s : KVState) : KVCall → Prop
  | .allocateWithHits r a => (s.kv.enableCaching = true → r.WellHashed hashBlockSize) ∧
      0 ≤ r.numComputedTokens + a.numNewTokens
  | .allocate r a => 0 ≤ r.numComputedTokens + a.numNewTokens
  | _ => True

/-- Callers' promise: hits passed along with external tokens end at or before the tokens computed
with them. -/
def Covered (s : KVState) : KVCall → Prop
  | .allocateWithHits r a => 0 < a.numExternalComputedTokens → 0 ≤ r.numComputedTokens ∧
      ∀ hits n, s.kv.getComputedBlocks r = .ok (hits, n) →
        s.kv.HitsEnd hits (r.numComputedTokens + n + a.numExternalComputedTokens)
  | .allocate r a => 0 < a.numExternalComputedTokens → 0 ≤ r.numComputedTokens
  | _ => True

/-- What holds between calls. -/
structure Steady (hashBlockSize : ℕ) (s : KVState) : Prop where
  ledger : Ledger s
  speculative : ∀ m ∈ s.kv.managers, m.Speculative
  consistent : s.kv.Consistent
  hashSize : s.kv.blockPool.hashBlockSize = hashBlockSize

variable {k : KVCacheManager}

lemma Steady.init {a : KVCacheManagerArgs} (h : KVCacheManager.init a = .ok k) :
    Steady a.hashBlockSize { kv := k } where
  ledger := .init h
  speculative m hm mode numSpec _ rid hrid := by
    obtain ⟨eagle, g, gid, -, rfl⟩ := mem_init h hm
    cases hrid
  consistent := .init h
  hashSize := by
    obtain ⟨-, hpool, -⟩ := init_eq_ok h
    dsimp only
    rw [hpool]
    rfl

variable (h : Steady hashBlockSize s)
include h

lemma Steady.step (hstep : KVStep True C K s t) : Steady hashBlockSize t := by
  obtain ⟨hgs, hcoord, hcach, hset⟩ := hstep.sameConfig
  exact ⟨h.ledger.step hstep, speculative_of_kept hstep.kept trivial h.speculative,
    h.consistent.congr hgs hcoord hcach hset, hset.hashSize.trans h.hashSize⟩

lemma Steady.steps (hsteps : ReflTransGen (KVStep True C K) s t) : Steady hashBlockSize t := by
  induction hsteps with
  | refl => exact h
  | tail _ he ih => exact ih.step he

lemma Steady.ready {r : Request} {hits : List (List ℕ)} (hhits : s.kv.HitsCached r hits) :
    s.kv.Ready r hits := ⟨h.speculative, h.consistent.caching, hhits⟩

omit h

lemma steps_of_managers {rid : String} (s : KVState)
    (h : KVCacheManager.Steps (ManagerStep H C K rid) s.kv k) :
    ReflTransGen (KVStep H C K) s { s with kv := k } := by
  induction h with
  | refl => exact .refl
  | tail _ he ih => exact ih.tail (.manager rid he)

/-- Each call of a scheduler is a sequence of steps. -/
lemma call_steps {c : KVCall} (h : H → Steady hashBlockSize s ∧ Admissible hashBlockSize s c)
    (hC : C → Covered s c) (hK : ∀ r ∈ c.request?, K env r) (hcall : s.call env c = .ok t) :
    ReflTransGen (KVStep H C K) s t := by
  cases c with
  | allocateWithHits r a =>
    obtain ⟨⟨hits, n⟩, hhits, hcall⟩ := of_bind hcall
    obtain ⟨⟨new, k⟩, hal, ⟨⟩⟩ := of_bind hcall
    refine steps_of_managers s (steps_allocateSlots (hK r rfl) (fun hH => ?_)
      (fun hc hpos => ⟨(hC hc hpos).1, (hC hc hpos).2 hits n hhits⟩) hal)
    obtain ⟨hs, hhashed, hpos⟩ := h hH
    rw [← hs.hashSize] at hhashed
    exact ⟨hs.ready (hitsCached_getComputedBlocks hs.consistent hs.ledger.map hhashed hhits), hpos⟩
  | allocate r a =>
    obtain ⟨⟨new, k⟩, hal, ⟨⟩⟩ := of_bind hcall
    refine steps_of_managers s (steps_allocateSlots (hK r rfl)
      (fun hH => ⟨(h hH).1.ready (hitsCached_nil s.kv r), (h hH).2⟩)
      (fun hc hpos => ⟨hC hc hpos, fun m _ bs hbs => ?_⟩) hal)
    obtain ⟨_, -, rfl⟩ := mem_map.mp (mem_of_getElem? (nthBlocks_eq_ok.mp hbs))
    have hstart := hC hc hpos
    exact cdiv_nonneg (by omega) m.blockSize
  | removeSkippedBlocks rid n =>
    obtain ⟨k, hrun, ⟨⟩⟩ := of_bind hcall
    exact steps_of_managers s (steps_removeSkippedBlocks hrun)
  | cacheBlocks r n =>
    obtain ⟨k, hrun, ⟨⟩⟩ := of_bind hcall
    unfold KVCacheManager.cacheBlocks at hrun
    split at hrun
    next hon =>
      exact steps_of_managers s (steps_of_grow (hK r rfl) (steps_coordinatorCacheBlocks
        (fun hH => (h hH).1.consistent.caching.trans hon) hrun))
    · cases hrun
      exact .refl
  | free rid =>
    obtain ⟨k, hrun, ⟨⟩⟩ := of_bind hcall
    exact steps_of_managers s (steps_free hrun)
  | popBlocksForFree rid =>
    obtain ⟨⟨blocks, k⟩, hpop, ⟨⟩⟩ := of_bind hcall
    obtain ⟨rfl, rfl⟩ := popBlocksForFree_eq hpop
    exact .single (.pop rid)
  | freePopped i =>
    simp only [KVState.call] at hcall
    split at hcall
    · cases hcall
    rename_i bs hi
    cases hcall
    exact .single (.freePopped i bs hi)
  | evictBlocks ids =>
    obtain ⟨q, hq, ⟨⟩⟩ := of_bind hcall
    exact .single (.evict ids hq)
  | resetPrefixCache =>
    cases hcall
    exact .single .reset
  | newStepStarts =>
    cases hcall
    exact .single .newStep

include h in
lemma Steady.call {c : KVCall}
    (hok : Admissible hashBlockSize s c) (hcall : s.call env c = .ok t) : Steady hashBlockSize t :=
  h.steps (call_steps (C := False) (K := fun _ _ => True) (fun _ => ⟨h, hok⟩) False.elim (fun _ _ =>
    trivial) hcall)

end KVState

end Vllm
