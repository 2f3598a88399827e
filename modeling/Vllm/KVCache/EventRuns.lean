import Vllm.KVCache.Events
import Vllm.KVCache.OwnershipRuns

/-! # Events over whole runs -/

namespace Vllm

open Relation List KVCacheManager KVState

def KVCacheEvent.IsStored : KVCacheEvent → Prop
  | .blockStored .. => True
  | _ => False

namespace BlockPool

variable {p q : BlockPool} {env : HashEnv} {K : Request → Prop} {taken : List KVCacheEvent}
  {P : KVCacheEvent → Prop}

/-- What one step of a manager can do to the pool. -/
inductive PoolStep (env : HashEnv) (K : Request → Prop) (p : BlockPool) : BlockPool → Prop
  | touch {q : BlockPool} (bs : List ℕ) (h : touch bs p = .ok q) : PoolStep env K p q
  | take {q : BlockPool} (n : ℤ) (new : List ℕ) (h : p.getNewBlocks n = .ok (new, q)) :
      PoolStep env K p q
  | free (bs : List ℕ) : PoolStep env K p (p.freeBlocks bs)
  | cache {q : BlockPool} (r : Request) (hr : K r) (blocks : List ℕ) (first last size gid : ℕ)
      (hgid : gid < 2 ^ 32) (mask : Option (List Bool))
      (h : p.cacheFullBlocks env r blocks first last size gid mask = .ok q) : PoolStep env K p q
  | evict {q : BlockPool} (ids : List ℕ) (h : evictBlocks ids p = .ok q) : PoolStep env K p q
  | reset : PoolStep env K p p.resetPrefixCache.2

abbrev PoolSteps (env : HashEnv) (K : Request → Prop) : BlockPool → BlockPool → Prop :=
  ReflTransGen (PoolStep env K)

variable (h : PoolStep env K p q)
include h

lemma PoolStep.sameSetup : SameSetup p q := by
  cases h with
  | touch bs h => exact (sameCached_touch h).toSameSetup
  | take n new h => exact sameSetup_getNewBlocks h
  | free bs => exact (sameCached_freeBlocks p bs).toSameSetup
  | cache r hr blocks first
    last size gid hgid mask h => exact (sameQueue_cacheFullBlocks h).toSameSetup
  | evict ids h => exact (sameQueue_evictBlocks h).toSameSetup
  | reset => exact (sameQueue_reset p).toSameSetup

lemma PoolStep.mirrored (hp : Mirrored taken p) : Mirrored taken q := by
  cases h with
  | touch bs h => exact hp.touch h
  | take n new h => exact hp.getNewBlocks h
  | free bs => exact hp.freeBlocks bs
  | cache r hr blocks first last size gid hgid mask h => exact hp.cacheFullBlocks hgid h
  | evict ids h => exact hp.evictBlocks h
  | reset => exact hp.reset

lemma PoolStep.mapOk (hp : MapOk p) : MapOk q := by
  cases h with
  | touch bs h => exact (touch_spec hp h).1
  | take n new h => exact (getNewBlocks_spec hp h).1
  | free bs => exact (freeBlocks_spec bs hp).1
  | cache r hr blocks first last size gid hgid mask h => exact (cacheFullBlocks_spec hp h).1
  | evict ids h => exact (evictBlocks_spec hp h).1
  | reset => exact hp.reset

omit h

def takeEvents (p : BlockPool) : List KVCacheEvent × BlockPool :=
  if p.enableKvCacheEvents then (p.kvEventQueue, { p with kvEventQueue := [] }) else ([], p)

/-! ## Where events come from -/

def NewEvents (P : KVCacheEvent → Prop) (p q : BlockPool) : Prop :=
  ∀ e ∈ q.kvEventQueue, e ∈ p.kvEventQueue ∨ P e

lemma NewEvents.of_eq (h : q.kvEventQueue = p.kvEventQueue) :
    NewEvents P p q := fun _ he => .inl (h ▸ he)

lemma NewEvents.trans {p' : BlockPool} (h : NewEvents P p p')
    (h' : NewEvents P p' q) : NewEvents P p q := fun e he => (h' e he).elim (h e) .inr

variable {e : KVCacheEvent}

lemma newEvents_emit (he : P e) : NewEvents P p (p.emit e) := by
  intro x hx
  unfold emit at hx
  split at hx
  · rcases mem_append.mp hx with hx | hx
    · exact .inl hx
    · exact .inr (mem_singleton.mp hx ▸ he)
  · exact .inl hx

lemma newEvents_maybeEvict (p : BlockPool) (b : ℕ) :
    NewEvents (fun e => ¬ e.IsStored) p (p.maybeEvictCachedBlock b) := by
  unfold maybeEvictCachedBlock
  split
  · exact .of_eq rfl
  rename_i key _
  split
  · have hsame : NewEvents (fun e => ¬ e.IsStored) p ((p.popCached key b).setHash b none) :=
      .of_eq rfl
    exact hsame.trans (newEvents_emit id)
  · exact .of_eq rfl

lemma newEvents_evictBlocks {ids : List ℕ} (h : evictBlocks ids p = .ok q) :
    NewEvents (fun e => ¬ e.IsStored) p q :=
  evictBlocks_rule (fun p' b hp => hp.trans (newEvents_maybeEvict p' b)) h (.of_eq rfl)

lemma newEvents_getNewBlocks {n : ℤ} {bs : List ℕ} (h : p.getNewBlocks n = .ok (bs, q)) :
    NewEvents (fun e => ¬ e.IsStored) p q :=
  getNewBlocks_rule (fun p' b hp => hp.trans (newEvents_maybeEvict p' b))
    (fun _ _ hp => hp.trans (.of_eq rfl)) h (.of_eq rfl)

lemma newEvents_reset (p : BlockPool) :
    NewEvents (fun e => ¬ e.IsStored) p p.resetPrefixCache.2 := by
  unfold resetPrefixCache
  split
  · exact .of_eq rfl
  · exact .trans (.of_eq rfl) (newEvents_emit id)

/-- `cache_full_blocks` emitted the event for a request with `K` on a pool set up like `p`, block by
block if none is null or masked out. -/
def Explained (env : HashEnv) (K : Request → Prop) (p : BlockPool) (e : KVCacheEvent) : Prop :=
  e.IsStored → ∃ (p₁ p₂ : BlockPool) (r : Request) (blocks : List ℕ) (first last size gid : ℕ)
      (mask : Option (List Bool)) (hashes : BlockHashList),
    SameSetup p p₁ ∧ K r ∧ first < last ∧
    p₁.cacheFullBlocks env r blocks first last size gid mask = .ok p₂ ∧
    p₂.kvEventQueue = p₁.kvEventQueue ++ [e] ∧
    blockHashesAt p.hashBlockSize size r.blockHashes = .ok hashes ∧
    ((∀ b ∈ slice blocks first last, b ≠ nullBlock) → (∀ l ∈ mask, ∀ x ∈ l, x = true) →
      BlockByBlock env p.useIntBlockHashes hashes r first last size e)

lemma Explained.congr (h : Explained env K p e) (hset : SameSetup p q) : Explained env K q e := by
  intro he
  obtain ⟨p1, p2, r, blocks, first, last, size, gid, mask, hashes, hp, hr, hlt, hcache, hev, hhs,
    hblk⟩ := h he
  have hback : SameSetup q p := ⟨hset.size.symm, hset.caching.symm, hset.hashSize.symm,
    hset.events.symm, hset.ints.symm⟩
  exact ⟨p1, p2, r, blocks, first, last, size, gid, mask, hashes, hback.trans hp, hr, hlt, hcache,
    hev, hset.hashSize ▸ hhs, hset.ints ▸ hblk⟩

lemma newEvents_cacheFullBlocks {r : Request} {blocks : List ℕ} {first last size gid : ℕ}
    {mask : Option (List Bool)} (hr : K r)
    (h : p.cacheFullBlocks env r blocks first last size gid mask = .ok q) :
    NewEvents (Explained env K p) p q := by
  obtain ⟨-, rfl⟩ | ⟨hlt, hashes, p', stored, hhs, hloop, hq⟩ := cacheFullBlocks_eq h
  · exact .of_eq rfl
  have hev := events_cacheLoop hloop
  obtain ⟨-, rfl⟩ | ⟨hen, e, he, rfl⟩ := hq
  · exact .of_eq hev
  have hsame : NewEvents (Explained env K p) p p' := .of_eq hev
  refine hsame.trans (newEvents_emit fun _ => ?_)
  rw [(sameQueue_cacheLoop hloop).ints] at he
  refine ⟨p, _, r, blocks, first, last, size, gid, mask, hashes, .refl p, hr, hlt, h, ?_, hhs,
    fun hnull hmask => blockByBlock_of_stored hlt hloop he hnull hmask⟩
  rw [emit, if_pos hen]
  rw [hev]

include h in
lemma PoolStep.newEvents : NewEvents (Explained env K p) p q := by
  have hnot : NewEvents (fun e => ¬ e.IsStored) p q → NewEvents (Explained env K p) p q :=
    fun h e he => (h e he).imp_right fun hne hsto => absurd hsto hne
  cases h with
  | touch bs h => exact .of_eq (sameCached_touch h).pending
  | take n new h => exact hnot (newEvents_getNewBlocks h)
  | free bs => exact .of_eq (sameCached_freeBlocks p bs).pending
  | cache r hr blocks first last size gid hgid mask h => exact newEvents_cacheFullBlocks hr h
  | evict ids h => exact hnot (newEvents_evictBlocks h)
  | reset => exact hnot (newEvents_reset p)

/-- The events taken so far and those still queued account for the pool's map of cached blocks. -/
structure Recorded (env : HashEnv) (K : Request → Prop) (taken : List KVCacheEvent)
    (p : BlockPool) :
    Prop where
  map : MapOk p
  mirrored : Mirrored taken p
  explained : ∀ e ∈ taken ++ p.kvEventQueue, Explained env K p e

lemma Recorded.steps (h : Recorded env K taken p) (hsteps : PoolSteps env K p q) :
    Recorded env K taken q := by
  induction hsteps with
  | refl => exact h
  | @tail p' q _ hstep ih =>
    refine ⟨hstep.mapOk ih.map, hstep.mirrored ih.mirrored, fun e he => ?_⟩
    suffices he' : e ∈ taken ++ p'.kvEventQueue ∨ Explained env K p' e from
      (he'.elim (ih.explained e) id).congr hstep.sameSetup
    rcases mem_append.mp he with he | he
    · exact .inl (mem_append_left _ he)
    · exact (hstep.newEvents e he).imp_left (mem_append_right _)

lemma Recorded.takeEvents (h : Recorded env K taken p) :
    Recorded env K (taken ++ p.takeEvents.1) p.takeEvents.2 := by
  have henabled := h.mirrored.enabled
  rw [BlockPool.takeEvents, if_pos henabled]
  refine ⟨h.map.congr rfl fun _ => rfl, ⟨henabled, ?_⟩, fun e he => ?_⟩
  · simp only [append_nil]
    exact h.mirrored.cached
  simp only [append_nil] at he
  have hset : SameSetup p { p with kvEventQueue := [] } := ⟨rfl, rfl, rfl, rfl, rfl⟩
  exact (h.explained e he).congr hset

lemma MapOk.cachedPair_eq (h : MapOk p) (b : ℕ) (x : ExternalBlockHash × ℕ) :
    p.cachedPair b = some x ↔ ∃ key, b ∈ p.cachedBlockHashToBlock key ∧
      (maybeConvertBlockHash p.useIntBlockHashes (getBlockHash key), getGroupId key) = x := by
  constructor
  · intro hx
    obtain ⟨key, -, hx⟩ := Option.bind_eq_some_iff.mp hx
    split at hx
    next hb => exact ⟨key, hb, Option.some.inj hx⟩
    · cases hx
  · rintro ⟨key, hb, rfl⟩
    rw [cachedPair, h.keyed hb, Option.bind_some, if_pos hb]

end BlockPool

open BlockPool SingleTypeKVCacheManager

def KVCacheManager.ShortIds (k : KVCacheManager) :
    Prop := ∀ m ∈ k.managers, m.kvCacheGroupId < 2 ^ 32

section steps

variable {H C : Prop} {env : HashEnv} {K : Request → Prop}

lemma GrowStep.poolSteps {m m' : SingleTypeKVCacheManager} {p q : BlockPool} {r : Request}
    (hr : K r)
    (hgid : m.kvCacheGroupId < 2 ^ 32) (h : GrowStep H C env r m p m' q) : PoolSteps env K p q := by
  cases h with
  | touch k bs hconf hemp hfull honce hhits htch htab hcached => exact .single (.touch bs htch)
  | take n new hconf hnew htab hcached hn => exact .single (.take n new hnew)
  | rearrange bs hconf hcnt hfull htab hcached => exact .refl
  | cache numFull mask hconf hcach hfull hlt hcache htab hcached =>
    exact .single (.cache r hr _ _ _ _ _ hgid _ hcache)
  | other hconf htab hcached => exact .refl

lemma KVStep.poolSteps {s t : KVState} (hk : s.kv.ShortIds)
    (h : KVStep H C (fun e r => e = env ∧ K r) s t) :
    PoolSteps env K s.kv.blockPool t.kv.blockPool := by
  cases h with
  | manager rid h =>
    obtain ⟨l, r, m, m', q, hm, h⟩ := h
    cases h with
    | grow env' r hr hrid hgrow =>
      obtain ⟨rfl, hr⟩ := hr
      exact hgrow.poolSteps hr (hk m (by simp [hm]))
    | recycle h =>
      obtain ⟨freed, bs, -, -, rfl⟩ := h
      exact .single (.free freed)
    | free => exact .single (.free _)
  | pop rid => exact .refl
  | freePopped i bs hi => exact .single (.free _)
  | evict ids hq => exact .single (.evict ids hq)
  | reset => exact .single .reset
  | newStep => exact .refl

end steps

/-! ## Runs -/

/-- The calls of the KV cache manager, and `take_events`. -/
inductive KVOp where
  | call (c : KVCall)
  | allocateSlots (r : Request) (a : KVCacheManager.AllocArgs) (numNewComputedTokens : ℕ)
      (newComputedBlocks : List (List ℕ))
  | takeEvents

def KVOp.request? : KVOp → Option Request
  | .call c => c.request?
  | .allocateSlots r _ _ _ => some r
  | .takeEvents => none

/-- The manager with all events taken from it so far. -/
structure EventState extends KVState where
  taken : List KVCacheEvent := []

namespace EventState

/-- A call, or the events being taken. -/
def op (env : HashEnv) (s : EventState) : KVOp → Py EventState
  | .call c => do
    let t ← s.toKVState.call env c
    .ok { s with toKVState := t }
  | .allocateSlots r a n hits => do
    let (_, kv) ← s.kv.allocateSlots env r a n hits
    .ok { s with kv := kv }
  | .takeEvents =>
    let (events, p) := s.kv.blockPool.takeEvents
    .ok { s with kv := { s.kv with blockPool := p }, taken := s.taken ++ events }

/-- The events in the order in which they were made. -/
def emitted (s : EventState) : List KVCacheEvent := s.taken ++ s.kv.blockPool.kvEventQueue

variable {s t : EventState} {env : HashEnv} {K : Request → Prop}

/-- What every call keeps. -/
structure Inv (env : HashEnv) (K : Request → Prop) (s : EventState) : Prop where
  ids : s.kv.ShortIds
  recorded : s.kv.blockPool.Recorded env K s.taken

lemma Inv.steps {k : KVState}
    (hsteps : ReflTransGen (KVStep False False fun e r => e = env ∧ K r) s.toKVState k)
    (h : Inv env K s) :
    Inv env K { s with toKVState := k } := by
  induction hsteps with
  | refl => exact h
  | @tail u v _ hstep ih =>
    refine ⟨fun m' hm' => ?_, ih.recorded.steps (hstep.poolSteps ih.ids)⟩
    obtain ⟨m, hm, hconf⟩ := forall₂_mem hstep.sameConfig.1 hm'
    rw [hconf.gid]
    exact ih.ids m hm

lemma Inv.step {o : KVOp} (h : Inv env K s) (hK : ∀ r ∈ o.request?, K r)
    (hop : s.op env o = .ok t) : Inv env K t := by
  cases o with
  | call c =>
    obtain ⟨t', hcall, ⟨⟩⟩ := of_bind hop
    have hno : False → Steady 0 s.toKVState ∧ Admissible 0 s.toKVState c := False.elim
    exact h.steps (call_steps hno False.elim (fun r hr => ⟨rfl, hK r hr⟩) hcall)
  | allocateSlots r a n hits =>
    obtain ⟨⟨new, k⟩, hal, ⟨⟩⟩ := of_bind hop
    exact h.steps
      (steps_of_managers _ (steps_allocateSlots ⟨rfl, hK r rfl⟩ False.elim False.elim hal))
  | takeEvents =>
    cases hop
    exact ⟨h.ids, h.recorded.takeEvents⟩

lemma Inv.init {a : KVCacheManagerArgs} {k : KVCacheManager} (h : init a = .ok k)
    (hev : a.enableKvCacheEvents = true) (hfew : a.groups.length ≤ 2 ^ 32) :
    Inv env K { kv := k } := by
  have hids := Consistent.init h
  obtain ⟨-, hpool, -, hlen, -⟩ := init_eq_ok h
  refine ⟨fun m hm => ?_, ?_, ⟨?_, fun x => ?_⟩, ?_⟩
  · obtain ⟨i, hi⟩ := mem_iff_getElem?.mp hm
    have hlt : i < k.managers.length := lt_of_getElem? hi
    rw [hids.ids hi]
    omega
  all_goals dsimp only; rw [hpool]
  · exact mapOk_init ..
  · exact hev
  · simp [BlockPool.init, cachedPair, blockHash, replay]
  · simp [BlockPool.init]

/-- The events of a run replay to the cached hashes, and stored events describe their blocks. -/
theorem replay_emitted {a : KVCacheManagerArgs} {k : KVCacheManager} {ops : List KVOp}
    (hinit : init a = .ok k) (hevents : a.enableKvCacheEvents = true)
    (hfew : a.groups.length ≤ 2 ^ 32)
    (hrun : Machine.Run (op env) (fun _ _ => True) { kv := k } ops s) :
    let p := s.kv.blockPool
    (∀ x, {b | ∃ key, b ∈ p.cachedBlockHashToBlock key ∧
        (maybeConvertBlockHash p.useIntBlockHashes (getBlockHash key), getGroupId key) = x}.encard =
      (replay s.emitted).count x) ∧
    ∀ e ∈ s.emitted, p.Explained env (fun r => ∃ o ∈ ops, o.request? = some r) e := by
  intro p
  have hinv : Inv env (fun r => ∃ o ∈ ops, o.request? = some r) s :=
    hrun.labelled.invariant (fun s o t h ho hop => h.step (fun r hr => ⟨o, ho.2, hr⟩) hop)
      (Inv.init hinit hevents hfew)
  refine ⟨fun x => ?_, hinv.recorded.explained⟩
  have hset : {b | p.cachedPair b = some x} = {b | ∃ key, b ∈ p.cachedBlockHashToBlock key ∧
      (maybeConvertBlockHash p.useIntBlockHashes (getBlockHash key), getGroupId key) = x} :=
    Set.ext fun b => hinv.recorded.map.cachedPair_eq b x
  rw [← hset]
  exact hinv.recorded.mirrored.cached x

def eventArgs : KVCacheManagerArgs := { KVState.smallArgs with enableKvCacheEvents := true }

def firstStored : KVCacheEvent := .blockStored [.bytes [1]] none [7, 8] 2 none none (some [none]) 0

lemma stored_run :
    ∃ k s, init eventArgs = .ok k ∧ Machine.Run (op smallEnv) (fun _ _ => True) { kv := k }
      [.call (.allocateWithHits smallRequest { numNewTokens := 3 }), .takeEvents] s ∧
    s.emitted = [firstStored] ∧ s.kv.blockPool.useIntBlockHashes = false := by
  exact ⟨_, _, rfl, .cons trivial rfl (.cons trivial rfl (.nil _)), rfl, rfl⟩

/-- After one stored block the events say that its hash is cached once. -/
theorem stored_replayed :
    ∃ k s, init eventArgs = .ok k ∧ Machine.Run (op smallEnv) (fun _ _ => True) { kv := k }
      [.call (.allocateWithHits smallRequest { numNewTokens := 3 }), .takeEvents] s ∧
    {b | ∃ key, b ∈ s.kv.blockPool.cachedBlockHashToBlock key ∧
      (ExternalBlockHash.bytes (getBlockHash key), getGroupId key) = (.bytes [1], 0)}.encard = 1 ∧
    s.kv.blockPool.Explained smallEnv (fun r => r = smallRequest) firstStored := by
  obtain ⟨k, s, hinit, hrun, hemitted, hints⟩ := stored_run
  obtain ⟨hcount, hstored⟩ := replay_emitted hinit rfl (by decide) hrun
  refine ⟨k, s, hinit, hrun, ?_, fun he => ?_⟩
  · have h := hcount (.bytes [1], 0)
    rw [hemitted, hints] at h
    simpa [maybeConvertBlockHash, replay, applyEvent, firstStored] using h
  obtain ⟨p1, p2, r, blocks, first, last, size, gid, mask, hashes, hp, hr, hrest⟩ :=
    hstored firstStored (by simp [hemitted]) he
  refine ⟨p1, p2, r, blocks, first, last, size, gid, mask, hashes, hp, ?_, hrest⟩
  simpa [KVOp.request?, KVCall.request?, eq_comm] using hr

end EventState

end Vllm
