import Vllm.KVCache.OwnershipRuns
import Vllm.Sched.DeferredFree

/-!
# Blocks in flight are not free

The block of a write in flight is behind a fence not yet reached, or in a table. Recycling before an
attention window is not fenced.
-/

namespace Vllm

open SingleTypeKVCacheManager Relation List Option AList KVCacheManager KVState

/-! ## What calls leave in the tables -/

namespace KVCacheManager

variable {k k' : KVCacheManager} {rid : String} {C : Prop} {env : HashEnv} {r : Request}
variable {rid' : String} {b : ℕ} {m m' : SingleTypeKVCacheManager} (k)

def Holds (rid : String) (b : ℕ) : Prop := ∃ m ∈ k.managers, b ∈ m.blocksOf rid

def NoBlocks (rid : String) : Prop := ∀ m ∈ k.managers, m.blocksOf rid = []

variable {k} {p q : BlockPool}

lemma GrowStep.mem_blocksOf
    (h : GrowStep True C env r m p m' q) (hb : b ≠ nullBlock) (hmem : b ∈ m.blocksOf rid') :
    b ∈ m'.blocksOf rid' := by
  have hinsert : ∀ {bs : List ℕ}, m'.reqToBlocks = m.reqToBlocks.insert r.requestId bs →
      (b ∈ m.blocksOf r.requestId → b ∈ bs) → b ∈ m'.blocksOf rid' := by
    intro bs htab hbs
    rw [blocksOf_insert htab]
    split
    next heq => exact hbs (heq ▸ hmem)
    · exact hmem
  cases h with
  | touch k bs hconf hemp hfull honce hhits htch htab hcached =>
    exact hinsert htab fun h => by simp [hemp] at h
  | take n new hconf hnew htab hcached hn => exact hinsert htab (mem_append_left _)
  | rearrange bs hconf hcnt hfull htab hcached =>
    refine hinsert htab fun h => ?_
    rw [← count_pos_iff, hcnt trivial b hb]
    exact count_pos_iff.mpr h
  | cache numFull mask hconf hcach hfull hlt hcache htab hcached => exact hinsert htab id
  | other hconf htab hcached =>
    rw [blocksOf, htab]
    exact hmem

lemma GrowStep.blocksOf_ne
    (h : GrowStep True C env r m p m' q) (hne : rid' ≠ r.requestId) :
    m'.blocksOf rid' = m.blocksOf rid' := by
  have hinsert : ∀ {bs : List ℕ}, m'.reqToBlocks = m.reqToBlocks.insert r.requestId bs →
      m'.blocksOf rid' = m.blocksOf rid' := by
    intro bs htab
    rw [blocksOf_insert htab, if_neg hne]
  cases h with
  | touch k bs hconf hemp hfull honce hhits htch htab hcached => exact hinsert htab
  | take n new hconf hnew htab hcached hn => exact hinsert htab
  | rearrange bs hconf hcnt hfull htab hcached => exact hinsert htab
  | cache numFull mask hconf hcach hfull hlt hcache htab hcached => exact hinsert htab
  | other hconf htab hcached => rw [blocksOf, htab, blocksOf]

lemma Holds.grow (h : k.Holds rid' b) (hb : b ≠ nullBlock)
    (hsteps : Steps (GrowStep True C env r) k k') : k'.Holds rid' b := by
  induction hsteps with
  | refl => exact h
  | tail _ hstep ih =>
    obtain ⟨m1, hm1, hmem⟩ := ih
    obtain ⟨l, rest, m, m', q, hk, hstep⟩ := hstep
    rw [hk, mem_append, mem_cons] at hm1
    obtain hm1 | rfl | hm1 := hm1
    · exact ⟨m1, by simp [hm1], hmem⟩
    · exact ⟨m', by simp, GrowStep.mem_blocksOf hstep hb hmem⟩
    · exact ⟨m1, by simp [hm1], hmem⟩

lemma NoBlocks.grow (h : k.NoBlocks rid') (hne : rid' ≠ r.requestId)
    (hsteps : Steps (GrowStep True C env r) k k') : k'.NoBlocks rid' := by
  induction hsteps with
  | refl => exact h
  | tail _ hstep ih =>
    obtain ⟨l, rest, m, m', q, hk, hstep⟩ := hstep
    intro m1 hm1
    rw [mem_append, mem_cons] at hm1
    obtain hm1 | rfl | hm1 := hm1
    · exact ih m1 (by simp [hk, hm1])
    · rw [GrowStep.blocksOf_ne hstep hne]
      exact ih m (by simp [hk])
    · exact ih m1 (by simp [hk, hm1])

/-- Tables keep their length, and their entries except those of one request at `skipped`
positions. -/
def EntriesKept (rid : String) (skipped : ℕ → Prop) (m m' : SingleTypeKVCacheManager) : Prop :=
  ∀ rid', (m'.blocksOf rid').length = (m.blocksOf rid').length ∧
    ∀ i b, (m.blocksOf rid')[i]? = some b → (m'.blocksOf rid')[i]? = some b ∨
      (rid' = rid ∧ skipped i)

lemma entriesKept_of_recycles {skipped : ℕ → Prop} {a b : SingleTypeKVCacheManager × BlockPool}
    (h : SingleTypeKVCacheManager.Steps (RecycleStep skipped rid) a b) :
    EntriesKept rid skipped a.1 b.1 := by
  induction h with
  | refl => exact fun _ => ⟨rfl, fun _ _ h => .inl h⟩
  | tail _ hstep ih =>
    obtain ⟨freed, bs, hconf, hwindow, hpool, hlen, hcnt, hentry, htab, hcached⟩ := hstep
    intro rid'
    obtain ⟨hlen', hentry'⟩ := ih rid'
    rw [blocksOf_insert htab]
    split
    next heq =>
      subst heq
      refine ⟨hlen.trans hlen', fun i b hi => ?_⟩
      obtain hi | hskip := hentry' i b hi
      · exact (hentry i b hi).imp_right fun hskip => ⟨rfl, hskip⟩
      · exact .inr hskip
    · exact ⟨hlen', hentry'⟩

variable {n : ℤ}

lemma removeSkippedBlocks_entries (h : k.removeSkippedBlocks rid n = .ok k') :
    Forall₂ (fun m m' => EntriesKept rid (m.recyclesAt rid n) m m') k.managers k'.managers := by
  obtain ⟨⟨xs, k1⟩, hrun, ⟨⟩⟩ := of_bind h
  obtain ⟨⟨ys, ms, q⟩, hloop, ⟨⟩⟩ := of_bind hrun
  exact (forManagers_forall₂ (R := fun m m' => EntriesKept rid (m.recyclesAt rid n) m m')
    (Q := fun _ _ => True) (fun _ => trivial) (fun _ _ => trivial)
    (fun m _ {p q m' x} hf =>
      ⟨entriesKept_of_recycles (removeSkippedBlocks_steps (silent_eq_ok hf)), trivial⟩) hloop).1

lemma exists_forall₂_of_mem {α : Type} {R : α → α → Prop} {xs ys : List α} (h : Forall₂ R xs ys)
    {x : α} (hx : x ∈ xs) : ∃ y ∈ ys, R x y := by
  induction h with
  | nil => cases hx
  | cons hR _ ih =>
    rcases mem_cons.mp hx with rfl | hx
    · exact ⟨_, mem_cons_self, hR⟩
    obtain ⟨y, hy, hR⟩ := ih hx
    exact ⟨y, mem_cons_of_mem _ hy, hR⟩

lemma Holds.removeSkipped (h : k.Holds rid' b)
    (hidle : rid' = rid → ∀ m ∈ k.managers, ∀ i, m.recyclesAt rid n i →
      (m.blocksOf rid)[i]? ≠ some b)
    (hout : k.removeSkippedBlocks rid n = .ok k') : k'.Holds rid' b := by
  obtain ⟨m, hm, hmem⟩ := h
  obtain ⟨m', hm', hkept⟩ := exists_forall₂_of_mem (removeSkippedBlocks_entries hout) hm
  obtain ⟨i, hi⟩ := mem_iff_getElem?.mp hmem
  obtain hi' | ⟨rfl, hskip⟩ := (hkept rid').2 i b hi
  · exact ⟨m', hm', mem_of_getElem? hi'⟩
  · exact absurd hi (hidle rfl m hm i hskip)

lemma NoBlocks.removeSkipped (h : k.NoBlocks rid')
    (hout : k.removeSkippedBlocks rid n = .ok k') : k'.NoBlocks rid' := by
  intro m' hm'
  obtain ⟨m, hm, hkept⟩ := forall₂_mem (removeSkippedBlocks_entries hout) hm'
  rw [← length_eq_zero_iff, (hkept rid').1, h m hm, length_nil]

lemma allocateSlots_tables {a : AllocArgs} {n : ℕ}
    {hits : List (List ℕ)} {new : Option (List (List ℕ))} (h : k.Ready r hits)
    (hpos : 0 ≤ r.numComputedTokens + a.numNewTokens)
    (hout : k.allocateSlots env r a n hits = .ok (new, k')) :
    (∀ rid b, b ≠ nullBlock → k.Holds rid b → (rid = r.requestId → ∀ m ∈ k.managers, ∀ i,
        m.recyclesAt r.requestId
        (min (r.numComputedTokens + n + a.numExternalComputedTokens) k.maxModelLen)
          i → (m.blocksOf r.requestId)[i]? ≠ some b) → k'.Holds rid b) ∧
    (∀ rid, k.NoBlocks rid → (rid = r.requestId → new = none) → k'.NoBlocks rid) := by
  obtain ⟨-, rfl⟩ | ⟨k1, num, hskip, -, ⟨-, -, rfl⟩ | ⟨-, new', hcommit, rfl⟩⟩ :=
    allocateSlots_cases hout
  · exact ⟨fun _ _ _ h _ => h, fun _ h _ => h⟩
  · exact ⟨fun _ _ _ h hidle => h.removeSkipped hidle hskip, fun _ h _ => h.removeSkipped hskip⟩
  have hsteps : Steps (GrowStep True False env r) k1 k' :=
    steps_commitSlots (fun _ => ⟨h.removeSkipped hskip, by omega⟩) False.elim hcommit
  refine ⟨fun rid b hb h hidle => (h.removeSkipped hidle hskip).grow hb hsteps,
    fun rid h hnone => ?_⟩
  exact (h.removeSkipped hskip).grow (fun heq => by cases hnone heq) hsteps

lemma Holds.pop (h : k.Holds rid' b) (hne : rid' ≠ rid)
    (hk : k'.managers = k.managers.map fun m => (m.popBlocksForFree rid).2) : k'.Holds rid' b := by
  obtain ⟨m, hm, hmem⟩ := h
  refine ⟨(m.popBlocksForFree rid).2, ?_, by rwa [blocksOf_pop, if_neg hne]⟩
  rw [hk]
  exact mem_map_of_mem hm

lemma noBlocks_pop (h : rid' = rid ∨ k.NoBlocks rid')
    (hk : k'.managers = k.managers.map fun m => (m.popBlocksForFree rid).2) : k'.NoBlocks rid' := by
  intro m hm
  rw [hk] at hm
  obtain ⟨m1, hm1, rfl⟩ := mem_map.mp hm
  rw [blocksOf_pop]
  split
  · rfl
  next hne => exact h.resolve_left hne m1 hm1

lemma free_managers (h : k.free rid = .ok k') :
    k'.managers = k.managers.map fun m => (m.popBlocksForFree rid).2 := by
  have hloop : ∀ (ms : List SingleTypeKVCacheManager) (p : BlockPool) {xs ms' q},
      forManagers (fun m p => .ok ((), m.free p rid)) ms p = .ok (xs, ms', q) →
      ms' = ms.map fun m => (m.popBlocksForFree rid).2 := by
    intro ms
    induction ms with
    | nil =>
      intro p xs ms' q hrun
      obtain ⟨-, hrun⟩ := Prod.mk.inj (Except.ok.inj hrun)
      exact (Prod.mk.inj hrun).1.symm
    | cons m ms ih =>
      intro p xs ms' q hrun
      obtain ⟨⟨x, m', p'⟩, hm, hrun⟩ := of_bind hrun
      obtain ⟨⟨xs', ms'', q'⟩, hms, ⟨⟩⟩ := of_bind hrun
      cases hm
      rw [ih _ hms]
      rfl
  obtain ⟨⟨_, k1⟩, hrun, ⟨⟩⟩ := of_bind h
  obtain ⟨⟨ys, ms, q⟩, hrun', ⟨⟩⟩ := of_bind hrun
  exact hloop _ _ hrun'

end KVCacheManager

namespace FenceState

open KVCacheManager

variable {s t : FenceState} {hashBlockSize : ℕ} {rid : String} {env : HashEnv}
variable {kv : KVCacheManager} {fr : FencedRequest}

/-- The manager with the deferred lists as lists that were popped. -/
def toKVState (s : FenceState) : KVState := ⟨s.kv, s.deferredFrees.map Prod.snd⟩

/-- The block of a write in flight is behind a later fence, or in a table of a request scheduled in
that step or later.
-/
def Protected (s : FenceState) (w : BlockWrite) : Prop :=
  (∃ e ∈ s.deferredFrees, w.step ≤ e.1 ∧ w.block ∈ e.2) ∨
    ∃ fr, s.requests.lookup w.rid = some fr ∧ w.step ≤ fr.lastSchedSeq ∧
      fr.phase ∉ [BlockPhase.waiting, .loading] ∧ s.kv.Holds w.rid w.block

/-- The invariant: a block that a step in flight writes is held or waits in `deferred_frees`. -/
structure Fenced (hashBlockSize : ℕ) (s : FenceState) : Prop where
  steady : KVState.Steady hashBlockSize s.toKVState
  sorted : s.deferredFrees.Pairwise fun e e' => e.1 ≤ e'.1
  pending : ∀ e ∈ s.deferredFrees, s.processedStepSeq < e.1 ∧ e.1 ≤ s.schedStepSeq
  scheduled : ∀ rid fr, s.requests.lookup rid = some fr → fr.lastSchedSeq ≤ s.schedStepSeq
  /-- A request that is not there or waits without blocks has none. -/
  empty : ∀ rid, (∀ fr, s.requests.lookup rid = some fr → fr.phase = .waiting) → s.kv.NoBlocks rid
  protect : ∀ w ∈ s.writes, w.block ≠ nullBlock → s.processedStepSeq < w.step → s.Protected w

lemma steady_congr {k : KVState} {lists : List (List ℕ)}
    (h : Steady hashBlockSize k) (hheld : ∀ b, heldIn lists b = heldIn k.popped b) :
    Steady hashBlockSize ⟨k.kv, lists⟩ where
  __ := h
  ledger :=
    ⟨h.ledger.map, h.ledger.queue, fun b hb => by rw [hheld]; exact h.ledger.refs b hb,
      h.ledger.once⟩

section

variable (h : Fenced hashBlockSize s)
include h

lemma Fenced.of_kv (hsteady : Steady hashBlockSize ⟨kv, s.deferredFrees.map Prod.snd⟩)
    (hholds : ∀ (rid : String) (b step : ℕ) fr, b ≠ nullBlock → s.processedStepSeq < step →
      s.requests.lookup rid = some fr → step ≤ fr.lastSchedSeq →
      fr.phase ∉ [BlockPhase.waiting, .loading] → s.InFlight rid b → s.kv.Holds rid b →
      kv.Holds rid b)
    (hemp : ∀ rid, (∀ fr, s.requests.lookup rid = some fr → fr.phase = .waiting) →
      s.kv.NoBlocks rid → kv.NoBlocks rid) : Fenced hashBlockSize { s with kv := kv } where
  steady := hsteady
  __ := h
  empty rid hwaiting := hemp rid hwaiting (h.empty rid hwaiting)
  protect w hw hb hstep := by
    refine (h.protect w hw hb hstep).imp_right ?_
    rintro ⟨fr, hfr, hlast, hph, hheld⟩
    have hflight : s.InFlight w.rid w.block :=
      ⟨w, hw, hstep, hlast.trans (h.scheduled _ _ hfr), rfl, rfl⟩
    exact ⟨fr, hfr, hlast, hph, hholds _ _ _ fr hb hstep hfr hlast hph hflight hheld⟩

lemma Fenced.setRequest (hlast : fr.lastSchedSeq ≤ s.schedStepSeq)
    (hwaiting : fr.phase = .waiting → s.kv.NoBlocks rid)
    (hkeep : ∀ fr', s.requests.lookup rid = some fr' → fr'.phase ∉ [BlockPhase.waiting, .loading] →
      s.kv.NoBlocks rid ∨
        (fr'.lastSchedSeq ≤ fr.lastSchedSeq ∧ fr.phase ∉ [BlockPhase.waiting, .loading])) :
    Fenced hashBlockSize (s.setRequest rid fr) where
  __ := h
  scheduled rid' fr' hfr' := by
    rcases eq_or_ne rid' rid with rfl | hrid
    · rw [FenceState.setRequest, lookup_insert] at hfr'
      exact some.inj hfr' ▸ hlast
    · rw [FenceState.setRequest, AList.lookup_insert_ne hrid] at hfr'
      exact h.scheduled rid' fr' hfr'
  empty rid' hall := by
    rcases eq_or_ne rid' rid with rfl | hrid
    · exact hwaiting (hall fr (lookup_insert _))
    refine h.empty rid' fun fr' hfr' => hall fr' ?_
    rw [FenceState.setRequest, AList.lookup_insert_ne hrid]
    exact hfr'
  protect w hw hb hstep := by
    refine (h.protect w hw hb hstep).imp_right ?_
    rintro ⟨fr', hfr', hlast', hph, hheld⟩
    by_cases hrid : w.rid = rid
    · obtain hno | ⟨hle, hph'⟩ := hkeep fr' (hrid ▸ hfr') hph
      · obtain ⟨m, hm, hmem⟩ := hheld
        rw [hrid, hno m hm] at hmem
        cases hmem
      · exact ⟨fr, by rw [hrid]; exact lookup_insert _, hlast'.trans hle, hph', hheld⟩
    · exact ⟨fr', (lookup_insert_ne hrid).trans hfr', hlast', hph, hheld⟩

lemma Fenced.erase (hno : s.kv.NoBlocks rid) :
    Fenced hashBlockSize { s with requests := s.requests.erase rid } where
  __ := h
  scheduled rid' fr hfr := by
    rcases eq_or_ne rid' rid with rfl | hrid
    · rw [lookup_erase] at hfr
      cases hfr
    · rw [lookup_erase_ne hrid] at hfr
      exact h.scheduled rid' fr hfr
  empty rid' hall := by
    by_cases hrid : rid' = rid
    · exact hrid ▸ hno
    · exact h.empty rid' fun fr hfr => hall fr ((lookup_erase_ne hrid).trans hfr)
  protect w hw hb hstep := by
    refine (h.protect w hw hb hstep).imp_right ?_
    rintro ⟨fr, hfr, hlast, hph, hheld⟩
    have hrid : w.rid ≠ rid := by
      intro hrid
      obtain ⟨m, hm, hmem⟩ := hheld
      rw [hrid, hno m hm] at hmem
      cases hmem
    exact ⟨fr, (lookup_erase_ne hrid).trans hfr, hlast, hph, hheld⟩

/-! ## Calls on the manager -/

lemma Fenced.steady_of (hsteps : Steps (ManagerStep True False (fun _ _ => True) rid) s.kv kv) :
    Steady hashBlockSize ⟨kv, s.deferredFrees.map Prod.snd⟩ :=
  h.steady.steps (steps_of_managers s.toKVState hsteps)

lemma Fenced.grow {r : Request} (hsteps : Steps (GrowStep True False env r) s.kv kv)
    (hfr : s.requests.lookup r.requestId = some fr) (hph : fr.phase ≠ .waiting) :
    Fenced hashBlockSize { s with kv := kv } := by
  refine h.of_kv (h.steady_of (steps_of_grow trivial hsteps))
    (fun _ _ _ _ hb _ _ _ _ _ hheld => hheld.grow hb hsteps) fun rid' hall hno => ?_
  exact hno.grow (fun hrid => hph (hall fr (hrid ▸ hfr))) hsteps

lemma Fenced.removeSkipped {n : ℤ} (hidle : s.WindowIdle rid n)
    (hout : s.kv.removeSkippedBlocks rid n = .ok kv) :
    Fenced hashBlockSize { s with kv := kv } := by
  refine h.of_kv (h.steady_of (steps_removeSkippedBlocks hout))
    (fun rid' b _ _ _ _ _ _ _ hflight hheld => ?_)
    fun rid' _ hno => hno.removeSkipped hout
  refine hheld.removeSkipped (fun hrid m hm i hskip hi => ?_) hout
  exact hidle m hm i b hskip hi (hrid ▸ hflight)

lemma Fenced.allocateSlots {r : Request} {a : AllocArgs} {n : ℕ}
    {hits : List (List ℕ)} {new : Option (List (List ℕ))} (hhits : s.kv.HitsCached r hits)
    (hpos : 0 ≤ r.numComputedTokens + a.numNewTokens) (hidle : s.WindowIdle r.requestId
      (min (r.numComputedTokens + n + a.numExternalComputedTokens) s.kv.maxModelLen))
    (hph : new = none ∨ ∃ fr, s.requests.lookup r.requestId = some fr ∧ fr.phase ≠ .waiting)
    (hout : s.kv.allocateSlots env r a n hits = .ok (new, kv)) :
    Fenced hashBlockSize { s with kv := kv } := by
  have hready : s.kv.Ready r hits := h.steady.ready hhits
  have hsteady :=
    h.steady_of (steps_allocateSlots trivial (fun _ => ⟨hready, hpos⟩) False.elim hout)
  obtain ⟨hheld, hemp⟩ := allocateSlots_tables hready hpos hout
  refine h.of_kv hsteady (fun rid b _ _ hb _ _ _ _ hflight hk => ?_) fun rid hall hno => ?_
  · refine hheld rid b hb hk fun hrid m hm i hskip hi => ?_
    exact hidle m hm i b hskip hi (hrid ▸ hflight)
  refine hemp rid hno fun hrid => hph.resolve_right ?_
  rintro ⟨fr, hfr, hne⟩
  exact hne (hall fr (hrid ▸ hfr))

lemma Fenced.free
    (hunused : ∀ step fr, s.processedStepSeq < step → s.requests.lookup rid = some fr →
      step ≤ fr.lastSchedSeq →
      fr.phase ∈ [BlockPhase.waiting, .loading]) (hout : s.kv.free rid = .ok kv) :
    Fenced hashBlockSize { s with kv := kv } ∧ kv.NoBlocks rid := by
  have hsteady := h.steady_of (steps_free hout)
  have hmanagers := free_managers hout
  refine ⟨h.of_kv hsteady (fun rid' b step fr _ hstep hfr hlast hph _ hheld => ?_)
    fun rid' _ hno => noBlocks_pop (.inr hno) hmanagers, noBlocks_pop (.inl rfl) hmanagers⟩
  refine hheld.pop (fun hrid => hph ?_) hmanagers
  exact hunused step fr hstep (hrid ▸ hfr) hlast

lemma Fenced.freeRequestBlocks
    (hfr : s.requests.lookup rid = some fr)
    (hout : s.freeRequestBlocks rid fr.lastSchedSeq = .ok t) :
    Fenced hashBlockSize t ∧ t.kv.NoBlocks rid ∧ t.requests = s.requests ∧
    t.schedStepSeq = s.schedStepSeq := by
  unfold FenceState.freeRequestBlocks at hout
  split at hout
  next hdone =>
    obtain ⟨kv, hfree, ⟨⟩⟩ := of_bind hout
    obtain ⟨hfenced, hno⟩ := h.free (fun step fr' hstep hfr' hlast => by
      obtain rfl := some.inj (hfr.symm.trans hfr')
      omega) hfree
    exact ⟨hfenced, hno, rfl, rfl⟩
  rename_i hbusy
  obtain ⟨⟨blocks, kv⟩, hpop, hout⟩ := of_bind hout
  obtain ⟨hblk, hkv⟩ := popBlocksForFree_eq hpop
  have hsteady : Steady hashBlockSize ⟨kv, blocks :: s.deferredFrees.map Prod.snd⟩ := by
    refine h.steady.step (C := False) (K := fun _ _ => True) ?_
    rw [hblk, hkv]
    exact .pop rid
  have hmanagers : kv.managers = s.kv.managers.map fun m => (m.popBlocksForFree rid).2 := by
    rw [hkv]
  have hno : kv.NoBlocks rid := noBlocks_pop (.inl rfl) hmanagers
  have hlast := h.scheduled rid fr hfr
  dsimp only at hout
  split at hout
  next hnil =>
    cases hout
    refine ⟨h.of_kv (steady_congr hsteady fun b => ?_) (fun rid' b _ _ _ _ _ _ _ _ hheld => ?_)
      fun rid' _ hno' => noBlocks_pop (.inr hno') hmanagers, hno, rfl, rfl⟩
    · simp [heldIn, hnil]
    refine hheld.pop (fun hrid => ?_) hmanagers
    -- Nothing was popped, so no table of the request lists a block.
    obtain ⟨m, hm, hmem⟩ := hheld
    have : b ∈ blocks := by
      rw [hblk]
      exact mem_flatten.mpr ⟨_, mem_map_of_mem hm, hrid ▸ hmem⟩
    simp [hnil] at this
  cases hout
  refine ⟨⟨steady_congr hsteady fun b => ?_, ?_, ?_, h.scheduled, fun rid' hall => ?_,
    fun w hw hb hstep => ?_⟩, hno, rfl, rfl⟩
  · simp only [heldIn, map_append, map_cons, map_nil, sum_append, sum_cons, sum_nil]
    omega
  · refine pairwise_append.mpr ⟨h.sorted, pairwise_singleton _ _, ?_⟩
    intro e he e' he'
    obtain rfl := mem_singleton.mp he'
    exact (h.pending e he).2
  · intro e he
    rcases mem_append.mp he with he | he
    · exact h.pending e he
    obtain rfl := mem_singleton.mp he
    exact ⟨by dsimp only; omega, le_rfl⟩
  · exact noBlocks_pop (.inr (h.empty rid' hall)) hmanagers
  obtain ⟨e, he, hle, hmem⟩ | ⟨fr', hfr', hlast', hph, hheld⟩ := h.protect w hw hb hstep
  · exact .inl ⟨e, mem_append_left _ he, hle, hmem⟩
  by_cases hrid : w.rid = rid
  · refine .inl ⟨(s.schedStepSeq, blocks), mem_append_right _ mem_cons_self,
      hlast'.trans (h.scheduled _ _ hfr'), ?_⟩
    obtain ⟨m, hm, hmem⟩ := hheld
    rw [hblk]
    exact mem_flatten.mpr ⟨_, mem_map_of_mem hm, hrid ▸ hmem⟩
  · exact .inr ⟨fr', hfr', hlast', hph, hheld.pop hrid hmanagers⟩

lemma Fenced.freeBlocks
    (hfr : s.requests.lookup rid = some fr) (hout : s.freeBlocks rid fr = .ok t) :
    Fenced hashBlockSize t := by
  obtain ⟨s1, hfree, ⟨⟩⟩ := of_bind hout
  obtain ⟨h1, hno, -, -⟩ := h.freeRequestBlocks hfr hfree
  exact h1.erase hno

lemma Fenced.nextStep : Fenced hashBlockSize { s with schedStepSeq := s.schedStepSeq + 1 } :=
  { h with
    pending := fun e he => ⟨(h.pending e he).1, (h.pending e he).2.trans (Nat.le_succ _)⟩
    scheduled := fun rid fr hfr => (h.scheduled rid fr hfr).trans (Nat.le_succ _) }

end

lemma request_eq_ok : s.request rid = .ok fr ↔ s.requests.lookup rid = some fr := by
  unfold request
  cases s.requests.lookup rid <;> simp

lemma of_request_bind {α : Type} {k : FencedRequest → Py α} {x : α}
    (hfr : s.requests.lookup rid = some fr) (h : (s.request rid >>= k) = .ok x) : k fr = .ok x := by
  rwa [request_eq_ok.mpr hfr] at h

variable {positions : List (ℕ × ℕ)}

lemma Fenced.recordScheduled (h : Fenced hashBlockSize s)
    (hph : s.InPhase rid [.running]) (hout : s.recordScheduled rid positions = .ok t) :
    Fenced hashBlockSize t := by
  obtain ⟨fr, hfr, hrunning⟩ := hph
  have hrunning : fr.phase = .running := mem_singleton.mp hrunning
  replace hout := of_request_bind hfr hout
  cases hout
  have h1 : Fenced hashBlockSize (s.setRequest rid { fr with lastSchedSeq := s.schedStepSeq }) := by
    refine h.setRequest le_rfl (fun hw => by simp [hrunning] at hw) fun fr' hfr' _ => .inr ⟨?_, ?_⟩
    · exact h.scheduled rid fr' hfr'
    · simp [hrunning]
  refine { h1 with protect := fun w hw hb hstep => ?_ }
  rcases mem_append.mp hw with hw | hw
  · exact h1.protect w hw hb hstep
  obtain ⟨⟨g, i⟩, -, hpos⟩ := mem_filterMap.mp hw
  obtain ⟨m, hm, hpos⟩ := bind_eq_some_iff.mp hpos
  obtain ⟨b, hi, hpos⟩ := bind_eq_some_iff.mp hpos
  cases hpos
  exact .inr ⟨_, lookup_insert _, le_rfl, by simp [hrunning], m, mem_of_getElem? hm,
    mem_of_getElem? hi⟩

lemma inPhase_recordScheduled {rid' : String} {phases : List BlockPhase}
    (h : s.InPhase rid' phases) (hout : s.recordScheduled rid positions = .ok t) :
    t.InPhase rid' phases := by
  obtain ⟨fr, hfr, hph⟩ := h
  obtain ⟨fr', hfr', ⟨⟩⟩ := of_bind hout
  rcases eq_or_ne rid' rid with rfl | hrid
  · obtain rfl := some.inj (hfr.symm.trans (request_eq_ok.mp hfr'))
    exact ⟨_, lookup_insert _, hph⟩
  · exact ⟨fr, (lookup_insert_ne hrid).trans hfr, hph⟩

lemma Fenced.endSchedule {scheduled : List (String × List (ℕ × ℕ))} (h : Fenced hashBlockSize s)
    (hph : ∀ e ∈ scheduled, s.InPhase e.1 [.running])
    (hout : scheduled.foldlM (fun s e => s.recordScheduled e.1 e.2)
      { s with schedStepSeq := s.schedStepSeq + 1 } = .ok t) : Fenced hashBlockSize t := by
  let P : List (String × List (ℕ × ℕ)) → FenceState → Prop := fun l s =>
    Fenced hashBlockSize s ∧ ∀ e ∈ l, s.InPhase e.1 [.running]
  have hinv : P [] t := Machine.foldlM_invariant
    (fun s e l t hp he => ⟨hp.1.recordScheduled (hp.2 e mem_cons_self) he, fun e' he' =>
      inPhase_recordScheduled (hp.2 e' (mem_cons_of_mem _ he')) he⟩) hout ⟨h.nextStep, hph⟩
  exact hinv.1

lemma drain_suffix (n : ℕ) (l : List (ℕ × List ℕ)) (p : BlockPool) :
    (drain n l p).2 <:+ l ∧ ∀ e ∈ l, e ∈ (drain n l p).2 ∨ e.1 ≤ n := by
  induction l generalizing p with
  | nil => exact ⟨suffix_rfl, fun e he => .inl he⟩
  | cons e l ih =>
    obtain ⟨fence, blocks⟩ := e
    unfold drain
    split
    · exact ⟨suffix_rfl, fun e he => .inl he⟩
    rename_i hle
    obtain ⟨hsuffix, hmem⟩ := ih (p.freeBlocks blocks.reverse)
    refine ⟨hsuffix.trans (suffix_cons _ _), fun e he => ?_⟩
    rcases mem_cons.mp he with rfl | he
    · exact .inr (not_lt.mp hle)
    · exact hmem e he

variable {l : List (ℕ × List ℕ)}

lemma lt_of_mem_drain {n : ℕ} (hsorted : l.Pairwise fun e e' => e.1 ≤ e'.1)
    (p : BlockPool) : ∀ e ∈ (drain n l p).2, n < e.1 := by
  induction l generalizing p with
  | nil => exact fun e he => by cases he
  | cons e l ih =>
    obtain ⟨hfst, hrest⟩ := pairwise_cons.mp hsorted
    unfold drain
    split
    next hlt =>
      intro e he
      rcases mem_cons.mp he with rfl | he
      · exact hlt
      · exact Nat.lt_of_lt_of_le hlt (hfst e he)
    · exact ih hrest _

variable {k : KVCacheManager}

lemma steady_drain (n : ℕ) {p : BlockPool}
    (h : Steady hashBlockSize ⟨{ k with blockPool := p }, l.map Prod.snd⟩) :
    Steady hashBlockSize ⟨{ k with blockPool := (drain n l p).1 },
      (drain n l p).2.map Prod.snd⟩ := by
  induction l generalizing p with
  | nil => exact h
  | cons e l ih =>
    obtain ⟨fence, blocks⟩ := e
    unfold drain
    split
    · exact h
    refine ih ?_
    exact h.step (C := False) (K := fun _ _ => True) (.freePopped 0 blocks rfl)

section

variable (h : Fenced hashBlockSize s)
include h

lemma Fenced.updateFromOutput :
    Fenced hashBlockSize
    { s with processedStepSeq := s.processedStepSeq + 1 }.drainDeferredFrees := by
  obtain ⟨hsuffix, hmem⟩ := drain_suffix (s.processedStepSeq + 1) s.deferredFrees s.kv.blockPool
  refine ⟨steady_drain (k := s.kv) _ h.steady, h.sorted.sublist hsuffix.sublist, fun e he => ?_,
    h.scheduled, h.empty, fun w hw hb hstep => ?_⟩
  · exact ⟨lt_of_mem_drain h.sorted _ e he, (h.pending e (hsuffix.subset he)).2⟩
  have hstep : s.processedStepSeq + 1 < w.step := hstep
  refine (h.protect w hw hb (by omega)).imp_left ?_
  rintro ⟨e, he, hle, hblock⟩
  exact ⟨e, (hmem e he).resolve_right (by omega), hle, hblock⟩

/-! ## Runs -/

lemma Fenced.of_step
    (hstep : KVStep True False (fun _ _ => True) s.toKVState ⟨kv, s.deferredFrees.map Prod.snd⟩)
    (htables : Forall₂ (fun m m' => ∀ rid, m'.blocksOf rid = m.blocksOf rid) s.kv.managers
      kv.managers) : Fenced hashBlockSize { s with kv := kv } := by
  refine h.of_kv (h.steady.step hstep) (fun rid b _ _ _ _ _ _ _ _ hheld => ?_)
    fun rid _ hno m' hm' => ?_
  · obtain ⟨m, hm, hmem⟩ := hheld
    obtain ⟨m', hm', heq⟩ := exists_forall₂_of_mem htables hm
    exact ⟨m', hm', by rw [heq]; exact hmem⟩
  · obtain ⟨m, hm, heq⟩ := forall₂_mem htables hm'
    rw [heq, hno m hm]

lemma Fenced.setPhase {phase : BlockPhase} (hfr : s.requests.lookup rid = some fr)
    (hph : phase ≠ .waiting)
    (hkeep : fr.phase ∉ [BlockPhase.waiting, .loading] → phase ≠ .loading) :
    Fenced hashBlockSize (s.setRequest rid { fr with phase := phase }) := by
  refine h.setRequest (h.scheduled rid fr hfr) (fun hw => absurd hw hph) fun fr' hfr' hph' => ?_
  obtain rfl := some.inj (hfr.symm.trans hfr')
  refine .inr ⟨le_rfl, ?_⟩
  simpa using ⟨hph, hkeep hph'⟩

/-- Every allowed call keeps the fence. -/
lemma Fenced.call {c : FenceCall} (hok : s.Allowed c)
    (hidle : s.RecyclesIdle c) (hout : s.call env c = .ok t) : Fenced hashBlockSize t := by
  cases c with
  | addRequest rid =>
    simp only [FenceState.call] at hout
    split at hout
    · cases hout
      exact h
    rename_i hnone
    cases hout
    refine h.setRequest (Nat.zero_le _) (fun _ => h.empty rid fun fr hfr => ?_) fun fr hfr => ?_
    · rw [hnone] at hfr
      cases hfr
    · rw [hnone] at hfr
      cases hfr
  | allocate r a =>
    obtain ⟨⟨fr, hfr, hph⟩, hpos⟩ := hok
    replace hout := of_request_bind hfr hout
    obtain ⟨⟨new, kv⟩, hal, ⟨⟩⟩ := of_bind hout
    have hidle : s.WindowIdle r.requestId
        (min (r.numComputedTokens + (0 : ℕ) + a.numExternalComputedTokens) s.kv.maxModelLen) := by
      simpa [RecyclesIdle] using hidle
    have hhits := hitsCached_nil s.kv r
    split
    · -- The request runs first and gets its blocks then; the two changes commute.
      have h1 : Fenced hashBlockSize (s.setRequest r.requestId { fr with phase := .running }) :=
        h.setPhase hfr (by simp) (by simp)
      exact Fenced.allocateSlots h1 hhits hpos hidle (.inr ⟨_, lookup_insert _, by simp⟩) hal
    next hnone =>
      exact h.allocateSlots hhits hpos hidle (.inl (by simpa using hnone)) hal
  | allocateWithHits r a n hits load =>
    obtain ⟨⟨fr, hfr, hph⟩, hhits, hpos⟩ := hok
    have hph : fr.phase = .waiting := mem_singleton.mp hph
    replace hout := of_request_bind hfr hout
    obtain ⟨⟨new, kv⟩, hal, ⟨⟩⟩ := of_bind hout
    -- A waiting request has no entries that could be recycled.
    have hno : s.kv.NoBlocks r.requestId := h.empty _ fun fr' hfr' => by
      rw [← some.inj (hfr.symm.trans hfr'), hph]
    have hidle : ∀ n, s.WindowIdle r.requestId n := fun n m hm i b _ hi => by simp [hno m hm] at hi
    split
    · have h1 : Fenced hashBlockSize (s.setRequest r.requestId
          { fr with phase := if load = true then .loading else .running }) := by
        refine h.setPhase hfr (by split <;> simp) fun hne => ?_
        simp [hph] at hne
      refine Fenced.allocateSlots h1 hhits hpos (hidle _) (.inr ⟨_, lookup_insert _, ?_⟩) hal
      dsimp only
      split <;> simp
    next hnone =>
      exact h.allocateSlots hhits hpos (hidle _) (.inl (by simpa using hnone)) hal
  | loaded r failed =>
    obtain ⟨fr, hfr, hph⟩ := hok
    have hph : fr.phase = .loading := mem_singleton.mp hph
    replace hout := of_request_bind hfr hout
    split at hout
    · obtain ⟨kv, hfree, ⟨⟩⟩ := of_bind hout
      obtain ⟨h1, hno⟩ := h.free (fun _ fr' _ hfr' _ => by
        rw [← some.inj (hfr.symm.trans hfr'), hph]
        simp) hfree
      exact h1.setRequest (h.scheduled _ fr hfr) (fun _ => hno) fun _ _ _ => .inl hno
    obtain ⟨kv, hcache, ⟨⟩⟩ := of_bind hout
    have hsteps : Steps (GrowStep True False env r) s.kv kv := by
      unfold KVCacheManager.cacheBlocks at hcache
      split at hcache
      next hon =>
        exact steps_coordinatorCacheBlocks (fun _ => h.steady.consistent.caching.trans hon) hcache
      · cases hcache
        exact .refl
    have h1 := h.grow hsteps hfr (by simp [hph])
    exact h1.setPhase hfr (by simp) (by simp)
  | preempt rid =>
    obtain ⟨fr, hfr, -⟩ := hok
    replace hout := of_request_bind hfr hout
    obtain ⟨s1, hfree, ⟨⟩⟩ := of_bind hout
    obtain ⟨h1, hno, -, hseq⟩ := h.freeRequestBlocks hfr hfree
    exact h1.setRequest (hseq ▸ h.scheduled rid fr hfr) (fun _ => hno) fun _ _ _ => .inl hno
  | endSchedule scheduled => exact h.endSchedule hok hout
  | updateFromOutput =>
    cases hout
    exact h.updateFromOutput
  | park rid =>
    obtain ⟨fr, hfr, -⟩ := hok
    replace hout := of_request_bind hfr hout
    cases hout
    exact h.setPhase hfr (by simp) (by simp)
  | finish rid n delay =>
    obtain ⟨fr, hfr, -⟩ := hok
    replace hout := of_request_bind hfr hout
    obtain ⟨kv, hskip, hout⟩ := of_bind hout
    have h1 := h.removeSkipped hidle hskip
    split at hout
    · cases hout
      exact h1.setPhase hfr (by simp) (by simp)
    · exact h1.freeBlocks hfr hout
  | freeFinished rid =>
    obtain ⟨fr, hfr, hout⟩ := of_bind hout
    exact h.freeBlocks (request_eq_ok.mp hfr) hout
  | evictBlocks ids =>
    obtain ⟨q, hq, ⟨⟩⟩ := of_bind hout
    exact h.of_step (.evict ids hq) (forall₂_same.mpr fun _ _ _ => rfl)
  | resetPrefixCache =>
    cases hout
    exact h.of_step .reset (forall₂_same.mpr fun _ _ _ => rfl)
  | newStepStarts =>
    cases hout
    refine h.of_step .newStep ?_
    exact forall₂_map_right_iff.mpr (forall₂_same.mpr fun _ _ _ => rfl)

end

lemma Fenced.init {a : KVCacheManagerArgs} (h : init a = .ok k) :
    Fenced a.hashBlockSize { kv := k } where
  steady := .init h
  sorted := List.Pairwise.nil
  pending e he := by cases he
  scheduled rid fr hfr := by cases hfr
  empty rid _ m hm := by
    obtain ⟨eagle, g, gid, -, rfl⟩ := mem_init h hm
    rfl
  protect w hw := by cases hw

def tokenPositions (gid blockSize numComputedTokens numScheduledTokens : ℕ) : List (ℕ × ℕ) :=
  let first := numComputedTokens / blockSize
  let last := (numComputedTokens + numScheduledTokens - 1) / blockSize
  (List.range' first (last + 1 - first)).map fun i => (gid, i)

lemma windowIdle_full {s : FenceState} (hfull : ∀ m ∈ s.kv.managers, m.spec.attention = .full)
    (rid : String) (n : ℤ) : s.WindowIdle rid n := by
  intro m hm i b hskip
  simp only [recyclesAt, hfull m hm, numSkippedBlocks, getNumSkippedTokens, Int.zero_ediv] at hskip
  omega

/-- A request is preempted while its first step is in flight; its blocks stay behind the fence. -/
lemma preempted_run : ∃ k s, init smallArgs = .ok k ∧
    Machine.Run (call smallEnv) (fun s c => s.Allowed c ∧ s.RecyclesIdle c) { kv := k }
      [.addRequest "r", .allocate smallRequest { numNewTokens := 3 },
        .endSchedule [("r", tokenPositions 0 2 0 3)], .preempt "r"] s ∧
    s.InFlight "r" 1 ∧ s.deferredFrees = [(1, [1, 2])] := by
  have hfull : ∀ {s : FenceState} {m : SingleTypeKVCacheManager}, s.kv.managers = [m] →
      m.spec.attention = .full → ∀ m ∈ s.kv.managers, m.spec.attention = .full := by
    intro s m hs hm m' hm'
    rw [hs] at hm'
    rwa [mem_singleton.mp hm']
  refine ⟨_, _, rfl, .cons ⟨trivial, trivial⟩ rfl
    (.cons ⟨⟨⟨_, rfl, by decide⟩, by decide⟩, windowIdle_full (hfull rfl rfl) _ _⟩ rfl
    (.cons ⟨fun e he => ?_, trivial⟩ rfl (.cons ⟨⟨_, rfl, by decide⟩, trivial⟩ rfl (.nil _)))),
    ⟨⟨1, "r", 1⟩, by decide, by decide, by decide, rfl, rfl⟩, rfl⟩
  obtain rfl := mem_singleton.mp he
  exact ⟨_, rfl, by decide⟩

def windowArgs : KVCacheManagerArgs where
  groups := [⟨⟨.slidingWindow 4, 2, 0⟩, false⟩]
  numBlocks := 8
  maxModelLen := 16
  maxNumBatchedTokens := 16
  schedulerBlockSize := 2
  hashBlockSize := 2
  enableCaching := false

def windowRequest : Request where
  requestId := "r"
  promptTokenIds := some [1, 2, 3, 4, 5, 6, 7, 8]
  numPromptTokens := 8
  allTokenIds := [1, 2, 3, 4, 5, 6, 7, 8]

end FenceState

end Vllm
