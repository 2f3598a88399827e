import Vllm.KVCache.OwnershipRuns
import Vllm.KVCache.PoolInvariant

/-!
# The calls that the cache managers make on the pool

They are allowed unless hits end behind the external tokens passed along with them.
-/

namespace Vllm

open SingleTypeKVCacheManager Relation KVCacheManager

namespace KVState

variable {s t : KVState} {hashBlockSize : ℕ} {env : HashEnv} {K : HashEnv → Request → Prop}

def OneCall (p q : BlockPool) : Prop :=
  q = p ∨ ∃ c : PoolCall, c.Allowed p.numGpuBlocks p.refCnt ∧ p.call c = .ok q

variable {p q : BlockPool}

lemma oneCall_of_grow {m m' : SingleTypeKVCacheManager} {r : Request}
    {elsewhere : ℕ → ℕ} (hc : Counted p m elsewhere) (hp : p.PoolOk)
    (h : GrowStep True True env r m p m' q) : OneCall p q := by
  cases h with
  | touch k bs hconf hemp hfull honce hhits htch htab hcached =>
    refine .inr ⟨.touch bs, fun b hb hnull => ?_, htch⟩
    obtain ⟨i, hi⟩ := List.mem_iff_getElem?.mp hb
    obtain ⟨hashes, x, -, -, hcached⟩ := hhits trivial i b hi hnull
    exact (hp.free.cached hcached).2
  | take n new hconf hnew htab hcached hn =>
    refine .inr ⟨.getNewBlocks n, hn trivial, ?_⟩
    show (p.getNewBlocks n >>= _) = _
    rw [hnew]
    rfl
  | rearrange bs hconf hcnt hfull htab hcached => exact .inl rfl
  | cache numFull mask hconf hcach hfull hlt hcache htab hcached =>
    refine .inr ⟨.cacheFullBlocks _ _ _ _ _ _ _ _, fun b hb hnull => ?_, hcache⟩
    by_contra hge
    have hzero := hp.free.outside hnull (not_lt.mp hge)
    have hcnt := hc.count_le hnull r.requestId
    have hpos := List.count_pos_iff.mpr hb
    omega
  | other hconf htab hcached => exact .inl rfl

lemma oneCall_of_step (h : Ledger s) (hp : s.kv.blockPool.PoolOk) (hstep : KVStep True True K s t) :
    OneCall s.kv.blockPool t.kv.blockPool := by
  cases hstep with
  | manager rid hstep =>
    obtain ⟨l, r, m, m', q, hk, hstep⟩ := hstep
    have hc := h.counted hk
    cases hstep with
    | grow env r hr hrid hgrow => exact oneCall_of_grow hc hp hgrow
    | recycle hrecycle =>
      obtain ⟨freed, bs, -, -, rfl, -, hcnt, -, -, -⟩ := hrecycle
      refine .inr ⟨.freeBlocks freed, fun b hb => ?_, rfl⟩
      have h1 := hc.count_le hb rid
      have h2 := hcnt b hb
      omega
    | free =>
      refine .inr ⟨.freeBlocks _, fun b hb => ?_, rfl⟩
      rw [List.count_reverse]
      exact hc.count_le hb rid
  | pop rid => exact .inl rfl
  | freePopped i bs hi =>
    refine .inr ⟨.freeBlocks _, fun b hb => ?_, rfl⟩
    have h1 := h.refs b hb
    have h2 := heldIn_eraseIdx hi b
    rw [List.count_reverse]
    omega
  | evict ids hq => exact .inr ⟨.evictBlocks ids, trivial, hq⟩
  | reset => exact .inr ⟨.resetPrefixCache, trivial, rfl⟩
  | newStep => exact .inl rfl

abbrev PoolRun : BlockPool → List PoolCall → BlockPool → Prop :=
  Machine.Run BlockPool.call fun p c => c.Allowed p.numGpuBlocks p.refCnt

lemma poolOk_of_run {calls : List PoolCall} (h : PoolRun p calls q) (hp : p.PoolOk) : q.PoolOk :=
  h.invariant (fun _ _ _ hp hok hc => hp.call hok hc) hp

variable (hsteps : ReflTransGen (KVStep True True K) s t)
include hsteps

lemma steps_poolRun (h : Ledger s)
    (hp : s.kv.blockPool.PoolOk) : ∃ calls, PoolRun s.kv.blockPool calls t.kv.blockPool := by
  induction hsteps using ReflTransGen.head_induction_on with
  | refl => exact ⟨[], .nil _⟩
  | @head s u hstep hrest ih =>
    rcases oneCall_of_step h hp hstep with heq | ⟨c, hok, hcall⟩
    · rw [← heq] at hp ⊢
      exact ih (h.step hstep) hp
    · obtain ⟨calls, hrun⟩ := ih (h.step hstep) (hp.call hok hcall)
      exact ⟨c :: calls, .cons hok hcall hrun⟩

lemma poolOk_of_steps (h : Ledger s) (hp : s.kv.blockPool.PoolOk) : t.kv.blockPool.PoolOk := by
  obtain ⟨calls, hrun⟩ := steps_poolRun hsteps h hp
  exact poolOk_of_run hrun hp

omit hsteps

variable {a : KVCacheManagerArgs} {k : KVCacheManager}

lemma poolOk_init (h : init a = .ok k) : k.blockPool.PoolOk := by
  obtain ⟨hpos, hpool, -⟩ := init_eq_ok h
  rw [hpool]
  exact BlockPool.poolOk_init _ _ _ _ _ hpos

lemma poolRun_of_run (hinit : init a = .ok k) {calls : List KVCall}
    (hrun : Machine.Run (call env) (fun s c => Admissible a.hashBlockSize s c ∧
      Covered s c) { kv := k } calls s) :
    ∃ poolCalls, PoolRun k.blockPool poolCalls s.kv.blockPool := by
  have hall : Steady a.hashBlockSize s ∧
    ∃ poolCalls, PoolRun k.blockPool poolCalls s.kv.blockPool := by
    refine hrun.invariant (P := fun s => Steady a.hashBlockSize s ∧
      ∃ poolCalls, PoolRun k.blockPool poolCalls s.kv.blockPool) (fun s c t hs hok hc => ?_)
      ⟨Steady.init hinit, [], .nil _⟩
    obtain ⟨hsteady, calls, hcalls⟩ := hs
    have hsteps : ReflTransGen (KVStep True True fun _ _ => True) s t :=
      call_steps (fun _ => ⟨hsteady, hok.1⟩) (fun _ => hok.2) (fun _ _ => trivial) hc
    obtain ⟨calls', hcalls'⟩ :=
      steps_poolRun hsteps hsteady.ledger (poolOk_of_run hcalls (poolOk_init hinit))
    exact ⟨hsteady.call hok.1 hc, _, hcalls.append hcalls'⟩
  exact hall.2

end KVState

end Vllm
