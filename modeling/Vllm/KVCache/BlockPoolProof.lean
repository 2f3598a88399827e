import Vllm.KVCache.BlockPool

/-! # What the block pool's operations do -/

namespace Vllm.BlockPool

open List

variable {p q : BlockPool} {b c : ℕ} {bs : List ℕ}

section

variable (p) (b : ℕ)

@[simp] lemma refCnt_addRef (d : ℤ) (c : ℕ) :
    (p.addRef b d).refCnt c = p.refCnt c + if c = b then d else 0 := by
  by_cases h : c = b
  · simp [refCnt, addRef, h]
  · simp [refCnt, addRef, h]

@[simp] lemma blockHash_addRef (d : ℤ) (c : ℕ) : (p.addRef b d).blockHash c = p.blockHash c := by
  by_cases h : c = b
  · simp [blockHash, addRef, h]
  · simp [blockHash, addRef, h]

@[simp] lemma refCnt_setHash (h : Option Bytes) (c : ℕ) :
    (p.setHash b h).refCnt c = p.refCnt c := by
  by_cases hc : c = b
  · simp [refCnt, setHash, hc]
  · simp [refCnt, setHash, hc]

@[simp] lemma blockHash_setHash (h : Option Bytes) (c : ℕ) :
    (p.setHash b h).blockHash c = if c = b then h else p.blockHash c := by
  by_cases hc : c = b
  · simp [blockHash, setHash, hc]
  · simp [blockHash, setHash, hc]

variable (e : KVCacheEvent)

lemma emit_eq : p.emit e = { p with kvEventQueue := (p.emit e).kvEventQueue } := by
  unfold emit
  split <;> rfl

@[simp] lemma blocks_emit : (p.emit e).blocks = p.blocks := by rw [emit_eq]

@[simp] lemma cached_emit :
    (p.emit e).cachedBlockHashToBlock = p.cachedBlockHashToBlock := by rw [emit_eq]

@[simp] lemma refCnt_emit (c : ℕ) : (p.emit e).refCnt c = p.refCnt c := by simp [refCnt]

@[simp] lemma blockHash_emit (c : ℕ) : (p.emit e).blockHash c = p.blockHash c := by simp [blockHash]

end

lemma count_cons_eq (b c : ℕ) (bs : List ℕ) :
    ((b :: bs).count c : ℤ) = bs.count c + if c = b then 1 else 0 := by
  by_cases h : c = b
  · simp [h]
  · simp [h, Ne.symm h]

/-- The map lists a block under its own hash only, and at most once. -/
structure MapOk (p : BlockPool) : Prop where
  keyed : ∀ {key b}, b ∈ p.cachedBlockHashToBlock key → p.blockHash b = some key
  nodup : ∀ key, (p.cachedBlockHashToBlock key).Nodup

lemma MapOk.congr (h : MapOk p) (hmap : q.cachedBlockHashToBlock = p.cachedBlockHashToBlock)
    (hhash : ∀ b, q.blockHash b = p.blockHash b) : MapOk q where
  keyed hb := by
    rw [hmap] at hb
    rw [hhash, h.keyed hb]
  nodup key := by
    rw [hmap]
    exact h.nodup key

lemma MapOk.addRef (h : MapOk p) (b : ℕ) (d : ℤ) : MapOk (p.addRef b d) := h.congr rfl (by simp)

lemma MapOk.emit (h : MapOk p) (e : KVCacheEvent) :
    MapOk (p.emit e) := h.congr (cached_emit p e) (blockHash_emit p e)

lemma mapOk_init (n : ℕ) (caching : Bool) (size : ℕ) (events ints : Bool) :
    MapOk (init n caching size events ints) where
  keyed hb := absurd hb not_mem_nil
  nodup _ := nodup_nil

/-! ## What the loops keep

Each rule reduces a property of the pool after a loop to what one round of it does. -/

def dropFree (p : BlockPool) (n : ℤ) : BlockPool :=
  { p with
    freeBlockQueue := p.freeBlockQueue.drop n.toNat
    numFreeBlocks := p.numFreeBlocks - n }

def eraseFree (p : BlockPool) (b : ℕ) : BlockPool :=
  { p with
    freeBlockQueue := p.freeBlockQueue.erase b
    numFreeBlocks := p.numFreeBlocks - 1 }

variable {n : ℤ}

lemma popleftN_spec (h : p.popleftN n = .ok (bs, q)) :
    bs = p.freeBlockQueue.take n.toNat ∧ (0 ≤ n → (bs.length : ℤ) = n) ∧ q = p.dropFree n := by
  unfold popleftN at h
  split at h
  next hn =>
    cases h
    subst hn
    simp [dropFree]
  split at h
  · cases h
  split at h
  · cases h
  cases h
  refine ⟨rfl, fun hpos => ?_, rfl⟩
  rw [length_take]
  omega

lemma getNewBlocks_eq (h : p.getNewBlocks n = .ok (bs, q)) :
    bs = p.freeBlockQueue.take n.toNat ∧ (0 ≤ n → (bs.length : ℤ) = n) ∧
    takeBlocks bs (p.dropFree n) = .ok q := by
  unfold getNewBlocks at h
  split at h
  · cases h
  obtain ⟨⟨ret, p'⟩, hpop, h⟩ := of_bind h
  obtain ⟨q', htake, ⟨⟩⟩ := of_bind h
  obtain ⟨hret, hlen, rfl⟩ := popleftN_spec hpop
  exact ⟨hret, hlen, htake⟩

lemma removeFree_eq (h : p.removeFree b = .ok q) : b ∈ p.freeBlockQueue ∧ q = p.eraseFree b := by
  unfold removeFree at h
  split at h
  next hb => exact ⟨hb, (Except.ok.inj h).symm⟩
  · cases h

lemma touch_cons (h : touch (b :: bs) p = .ok q) : ∃ p', touch bs (p'.addRef b 1) = .ok q ∧
    ((p.refCnt b = 0 ∧ b ≠ nullBlock ∧ b ∈ p.freeBlockQueue ∧ p' = p.eraseFree b) ∨
      (¬ (p.refCnt b = 0 ∧ b ≠ nullBlock) ∧ p' = p)) := by
  unfold touch at h
  split at h
  next hev =>
    obtain ⟨p', hrem, h⟩ := of_bind h
    exact ⟨p', h, .inl ⟨hev.1, hev.2, removeFree_eq hrem⟩⟩
  next hev => exact ⟨p, h, .inr ⟨hev, rfl⟩⟩

lemma releaseBlocks_cons (b : ℕ) (bs : List ℕ) (p : BlockPool) :
    (releaseBlocks (b :: bs) p).1 = (releaseBlocks bs (p.addRef b (-1))).1 := by
  simp only [releaseBlocks]
  split
  · split <;> rfl
  · rfl

section rules

variable {P : BlockPool → Prop} {bs : List ℕ}

section

variable (hevict : ∀ p b, P p → P (p.maybeEvictCachedBlock b))
include hevict

lemma evictBlocks_rule {ids : List ℕ} (h : evictBlocks ids p = .ok q) (hp : P p) : P q := by
  induction ids generalizing p with
  | nil =>
    cases h
    exact hp
  | cons b bs ih =>
    unfold evictBlocks at h
    split at h
    · exact ih h (hevict p b hp)
    · cases h

variable (href : ∀ p b, P p → P (p.addRef b 1))
include href

lemma takeBlocks_rule (h : takeBlocks bs p = .ok q) (hp : P p) : P q := by
  induction bs generalizing p with
  | nil =>
    cases h
    exact hp
  | cons b bs ih =>
    unfold takeBlocks at h
    dsimp only at h
    generalize hp' : (if p.enableCaching = true then p.maybeEvictCachedBlock b else p) = p' at h
    split at h
    · refine ih h (href p' b ?_)
      subst hp'
      split
      · exact hevict p b hp
      · exact hp
    · cases h

lemma getNewBlocks_rule
    (h : p.getNewBlocks n = .ok (bs, q)) (hp : P (p.dropFree n)) : P q :=
  takeBlocks_rule hevict href (getNewBlocks_eq h).2.2 hp

end

lemma touch_rule (herase : ∀ p b, b ∈ p.freeBlockQueue → P p → P (p.eraseFree b))
    (href : ∀ p b, P p → P (p.addRef b 1)) (h : touch bs p = .ok q) (hp : P p) : P q := by
  induction bs generalizing p with
  | nil =>
    cases h
    exact hp
  | cons b bs ih =>
    obtain ⟨p', hrest, ⟨-, -, hmem, rfl⟩ | ⟨-, rfl⟩⟩ := touch_cons h
    · exact ih hrest (href _ b (herase p b hmem hp))
    · exact ih hrest (href _ b hp)

lemma releaseBlocks_rule (bs : List ℕ) (href : ∀ p b, P p → P (p.addRef b (-1))) (hp : P p) :
    P (releaseBlocks bs p).1 := by
  induction bs generalizing p with
  | nil => exact hp
  | cons b bs ih =>
    rw [releaseBlocks_cons]
    exact ih (href p b hp)

variable
  (hinsert : ∀ p b key, p.blockHash b = none → P p →
  P ((p.setHash b (some key)).insertCached key b))

include hinsert in
lemma cacheLoop_rule {gid : ℕ} {hashes : List Bytes} {mask : List Bool}
    {stored : List ExternalBlockHash}
    (h : cacheLoop gid bs hashes mask p = .ok (q, stored)) (hp : P p) : P q := by
  induction bs generalizing p hashes mask stored with
  | nil =>
    cases h
    exact hp
  | cons b bs ih =>
    unfold cacheLoop at h
    split at h
    · exact ih h hp
    split at h
    · cases h
    rename_i hb
    split at h
    · cases h
    obtain ⟨⟨p', stored'⟩, hloop, ⟨⟩⟩ := of_bind h
    exact ih hloop (hinsert p b _ (not_not.mp hb) hp)

variable {first last size gid : ℕ} {mask : Option (List Bool)} {blocks : List ℕ}

lemma cacheFullBlocks_eq {env : HashEnv} {r : Request}
    (h : p.cacheFullBlocks env r blocks first last size gid mask = .ok q) :
    (last ≤ first ∧ q = p) ∨ (first < last ∧ ∃ hashes p' stored,
      blockHashesAt p.hashBlockSize size r.blockHashes = .ok hashes ∧
      cacheLoop gid (slice blocks first last) (hashes.toList.drop first) (mask.getD []) p =
      .ok (p', stored) ∧
      ((p'.enableKvCacheEvents = false ∧ q = p') ∨ (p'.enableKvCacheEvents = true ∧ ∃ e,
        storedEvent env p'.useIntBlockHashes r blocks hashes stored first last size gid mask =
        .ok e ∧
        q = p'.emit e))) := by
  unfold cacheFullBlocks at h
  split at h
  next hge =>
    cases h
    exact .inl ⟨hge, rfl⟩
  rename_i hlt
  obtain ⟨_, -, h⟩ := of_bind h
  obtain ⟨_, -, h⟩ := of_bind h
  obtain ⟨hashes, hhs, h⟩ := of_bind h
  obtain ⟨⟨p', stored⟩, hloop, h⟩ := of_bind h
  refine .inr ⟨not_le.mp hlt, hashes, p', stored, hhs, hloop, ?_⟩
  dsimp only at h
  split at h
  next hen =>
    obtain ⟨e, he, ⟨⟩⟩ := of_bind h
    exact .inr ⟨hen, e, he, rfl⟩
  rename_i hen
  cases h
  exact .inl ⟨by simpa using hen, rfl⟩

include hinsert in
lemma cacheFullBlocks_rule {env : HashEnv} {r : Request} (hemit : ∀ p e, P p → P (p.emit e))
    (h : p.cacheFullBlocks env r blocks first last size gid mask = .ok q) (hp : P p) : P q := by
  obtain ⟨-, rfl⟩ | ⟨-, hashes, p', stored, -, hloop, hq⟩ := cacheFullBlocks_eq h
  · exact hp
  have hp' := cacheLoop_rule hinsert hloop hp
  obtain ⟨-, rfl⟩ | ⟨-, e, -, rfl⟩ := hq
  · exact hp'
  · exact hemit p' e hp'

end rules

variable {bs : List ℕ} {p₁ p₂ p₃ : BlockPool} {numCached numFull size gid : ℕ}

/-- The pools have one configuration. -/
structure SameSetup (p q : BlockPool) : Prop where
  size : q.numGpuBlocks = p.numGpuBlocks
  caching : q.enableCaching = p.enableCaching
  hashSize : q.hashBlockSize = p.hashBlockSize
  events : q.enableKvCacheEvents = p.enableKvCacheEvents
  ints : q.useIntBlockHashes = p.useIntBlockHashes

lemma SameSetup.refl (p : BlockPool) : SameSetup p p := ⟨rfl, rfl, rfl, rfl, rfl⟩

lemma SameSetup.trans (h : SameSetup p₁ p₂) (h' : SameSetup p₂ p₃) : SameSetup p₁ p₃ :=
  ⟨h'.size.trans h.size, h'.caching.trans h.caching, h'.hashSize.trans h.hashSize,
    h'.events.trans h.events, h'.ints.trans h.ints⟩

lemma sameSetup_emit (p : BlockPool) (e : KVCacheEvent) : SameSetup p (p.emit e) := by
  rw [emit_eq]
  exact ⟨rfl, rfl, rfl, rfl, rfl⟩

/-- The call did not change the free queue. -/
structure SameQueue (p q : BlockPool) : Prop extends SameSetup p q where
  queue : q.freeBlockQueue = p.freeBlockQueue
  count : q.numFreeBlocks = p.numFreeBlocks

variable (p)

lemma SameQueue.refl : SameQueue p p := ⟨.refl p, rfl, rfl⟩

lemma SameQueue.trans (h : SameQueue p₁ p₂) (h' : SameQueue p₂ p₃) :
    SameQueue p₁ p₃ :=
    ⟨h.toSameSetup.trans h'.toSameSetup, h'.queue.trans h.queue, h'.count.trans h.count⟩

lemma sameQueue_emit (e : KVCacheEvent) : SameQueue p (p.emit e) := by
  refine ⟨sameSetup_emit p e, ?_, ?_⟩ <;> rw [emit_eq]

lemma sameQueue_maybeEvict (b : ℕ) : SameQueue p (p.maybeEvictCachedBlock b) := by
  unfold maybeEvictCachedBlock
  split
  · exact .refl p
  rename_i key _
  split
  · have hset : SameQueue p ((p.popCached key b).setHash b none) :=
      ⟨⟨rfl, rfl, rfl, rfl, rfl⟩, rfl, rfl⟩
    exact hset.trans (sameQueue_emit _ _)
  · exact .refl p

variable {p}

lemma sameQueue_evictBlocks {ids : List ℕ} (h : evictBlocks ids p = .ok q) : SameQueue p q :=
  evictBlocks_rule (fun p' b hp => hp.trans (sameQueue_maybeEvict p' b)) h (.refl p)

lemma sameQueue_takeBlocks (h : takeBlocks bs p = .ok q) : SameQueue p q :=
  takeBlocks_rule (fun p' b hp => hp.trans (sameQueue_maybeEvict p' b))
    (fun _ _ hp => hp.trans ⟨⟨rfl, rfl, rfl, rfl, rfl⟩, rfl, rfl⟩) h (.refl p)

lemma sameSetup_getNewBlocks (h : p.getNewBlocks n = .ok (bs, q)) : SameSetup p q := by
  have hdrop : SameSetup p (p.dropFree n) := ⟨rfl, rfl, rfl, rfl, rfl⟩
  exact hdrop.trans (sameQueue_takeBlocks (getNewBlocks_eq h).2.2).toSameSetup

lemma sameQueue_reset (p : BlockPool) : SameQueue p p.resetPrefixCache.2 := by
  unfold resetPrefixCache
  split
  · exact .refl p
  · refine .trans ?_ (sameQueue_emit _ _)
    exact ⟨⟨rfl, rfl, rfl, rfl, rfl⟩, rfl, rfl⟩

lemma sameQueue_cacheLoop {gid : ℕ} {hashes : List Bytes} {mask : List Bool}
    {stored : List ExternalBlockHash} (h : cacheLoop gid bs hashes mask p = .ok (q, stored)) :
    SameQueue p q :=
  cacheLoop_rule (fun _ _ _ _ hp => hp.trans ⟨⟨rfl, rfl, rfl, rfl, rfl⟩, rfl, rfl⟩) h (.refl p)

variable {mask : Option (List Bool)}

lemma sameQueue_cacheFullBlocks {env : HashEnv} {r : Request} {blocks : List ℕ}
    (h : p.cacheFullBlocks env r blocks numCached numFull size gid mask = .ok q) : SameQueue p q :=
  cacheFullBlocks_rule (fun _ _ _ _ hp => hp.trans ⟨⟨rfl, rfl, rfl, rfl, rfl⟩, rfl, rfl⟩)
    (fun p' e hp => hp.trans (sameQueue_emit p' e)) h (.refl p)

/-- The call did not change what is cached. -/
structure SameCached (p q : BlockPool) : Prop extends SameSetup p q where
  cached : q.cachedBlockHashToBlock = p.cachedBlockHashToBlock
  hash : ∀ b, q.blockHash b = p.blockHash b
  pending : q.kvEventQueue = p.kvEventQueue

lemma SameCached.refl (p : BlockPool) : SameCached p p := ⟨.refl p, rfl, fun _ => rfl, rfl⟩

lemma SameCached.trans (h : SameCached p₁ p₂) (h' : SameCached p₂ p₃) : SameCached p₁ p₃ :=
  ⟨h.toSameSetup.trans h'.toSameSetup, h'.cached.trans h.cached,
    fun b => (h'.hash b).trans (h.hash b),
    h'.pending.trans h.pending⟩

lemma sameCached_addRef (p : BlockPool) (b : ℕ) (d : ℤ) : SameCached p (p.addRef b d) :=
  ⟨⟨rfl, rfl, rfl, rfl, rfl⟩, rfl, blockHash_addRef p b d, rfl⟩

lemma sameCached_touch (h : touch bs p = .ok q) : SameCached p q :=
  touch_rule (fun _ _ _ hp => hp.trans ⟨⟨rfl, rfl, rfl, rfl, rfl⟩, rfl, fun _ => rfl, rfl⟩)
    (fun p' b hp => hp.trans (sameCached_addRef p' b 1)) h (.refl p)

lemma sameCached_freeBlocks (p : BlockPool) (bs : List ℕ) : SameCached p (p.freeBlocks bs) := by
  have hrelease : SameCached p (releaseBlocks bs p).1 :=
    releaseBlocks_rule bs (fun p' b hp => hp.trans (sameCached_addRef p' b (-1))) (.refl p)
  exact hrelease.trans ⟨⟨rfl, rfl, rfl, rfl, rfl⟩, rfl, fun _ => rfl, rfl⟩

lemma refCnt_maybeEvict (p : BlockPool) (b c : ℕ) :
    (p.maybeEvictCachedBlock b).refCnt c = p.refCnt c := by
  unfold maybeEvictCachedBlock
  split
  · rfl
  split
  · rw [refCnt_emit, refCnt_setHash]
    rfl
  · rfl

lemma MapOk.maybeEvict (h : MapOk p) (b : ℕ) : MapOk (p.maybeEvictCachedBlock b) := by
  unfold maybeEvictCachedBlock
  split
  · exact h
  rename_i key hkey
  split
  · apply MapOk.emit
    constructor
    · intro key' c hc
      rcases eq_or_ne key' key with rfl | hk
      · have hc' : c ∈ (p.cachedBlockHashToBlock key').erase b := by
          simpa [setHash, popCached] using hc
        -- The list has no duplicates, so erasing `b` once removes it.
        obtain ⟨hne, hmem⟩ := (h.nodup key').mem_erase_iff.mp hc'
        rw [blockHash_setHash, if_neg hne]
        exact h.keyed hmem
      have hc' : c ∈ p.cachedBlockHashToBlock key' := by simpa [setHash, popCached, hk] using hc
      have hne : c ≠ b := by
        rintro rfl
        have := h.keyed hc'
        rw [hkey] at this
        exact hk (Option.some.inj this).symm
      rw [blockHash_setHash, if_neg hne]
      exact h.keyed hc'
    intro key'
    rcases eq_or_ne key' key with rfl | hk
    · simpa [setHash, popCached] using (h.nodup key').erase b
    · simpa [setHash, popCached, hk] using h.nodup key'
  · exact h

lemma evictBlocks_spec {ids : List ℕ} (hp : MapOk p) (h : evictBlocks ids p = .ok q) :
    MapOk q ∧ ∀ c, q.refCnt c = p.refCnt c :=
  ⟨evictBlocks_rule (fun _ b hp => hp.maybeEvict b) h hp,
    evictBlocks_rule (P := fun q => ∀ c, q.refCnt c = p.refCnt c)
      (fun p' b hp c => (refCnt_maybeEvict p' b c).trans (hp c)) h fun _ => rfl⟩

lemma refCnt_reset (p : BlockPool) (c : ℕ) : p.resetPrefixCache.2.refCnt c = p.refCnt c := by
  unfold resetPrefixCache
  split
  · rfl
  rw [refCnt_emit]
  rfl

lemma MapOk.reset (h : MapOk p) : MapOk p.resetPrefixCache.2 := by
  unfold resetPrefixCache
  split
  · exact h
  apply MapOk.emit
  constructor
  · intro key b hb
    exact absurd hb not_mem_nil
  · intro key
    exact nodup_nil

lemma takeBlocks_spec (hp : MapOk p) (h : takeBlocks bs p = .ok q) :
    MapOk q ∧ bs.Nodup ∧ (∀ b ∈ bs, p.refCnt b = 0) ∧
      ∀ c, q.refCnt c = p.refCnt c + bs.count c := by
  induction bs generalizing p with
  | nil =>
    obtain rfl : p = q := by simpa [takeBlocks] using h
    exact ⟨hp, nodup_nil, by simp, by simp⟩
  | cons b bs ih =>
    unfold takeBlocks at h
    generalize hp' : (if p.enableCaching then p.maybeEvictCachedBlock b else p) = p' at h
    have hrefs : ∀ c, p'.refCnt c = p.refCnt c := by
      intro c
      subst hp'
      split
      · exact refCnt_maybeEvict p b c
      · rfl
    have hmap : MapOk p' := by
      subst hp'
      split
      · exact hp.maybeEvict b
      · exact hp
    simp only [hrefs] at h
    split at h
    · rename_i hzero
      obtain ⟨hq, hnd, hold, hnew⟩ := ih (hmap.addRef b 1) h
      have hb : b ∉ bs := by
        intro hmem
        have := hold b hmem
        simp [hrefs, hzero] at this
      refine ⟨hq, nodup_cons.mpr ⟨hb, hnd⟩, ?_, ?_⟩
      · intro c hc
        rcases mem_cons.mp hc with rfl | hc
        · exact hzero
        have hne : c ≠ b := fun hcb => hb (hcb ▸ hc)
        simpa [hrefs, hne] using hold c hc
      intro c
      rw [hnew, refCnt_addRef, hrefs, count_cons_eq]
      ring
    · cases h

lemma getNewBlocks_spec (hp : MapOk p) (h : p.getNewBlocks n = .ok (bs, q)) :
    MapOk q ∧ bs.Nodup ∧ (∀ b ∈ bs, p.refCnt b = 0) ∧
    ∀ c, q.refCnt c = p.refCnt c + bs.count c := by
  have hdrop : MapOk (p.dropFree n) := hp.congr rfl fun _ => rfl
  have hspec := takeBlocks_spec hdrop (getNewBlocks_eq h).2.2
  exact hspec

lemma touch_spec (hp : MapOk p) (h : touch bs p = .ok q) :
    MapOk q ∧ ∀ c, q.refCnt c = p.refCnt c + bs.count c := by
  have hsame := sameCached_touch h
  refine ⟨hp.congr hsame.cached hsame.hash, ?_⟩
  clear hp hsame
  induction bs generalizing p with
  | nil =>
    cases h
    simp
  | cons b bs ih =>
    intro c
    obtain ⟨p', h, hp'⟩ := touch_cons h
    have hrefs : p'.refCnt c = p.refCnt c := by obtain ⟨-, -, -, rfl⟩ | ⟨-, rfl⟩ := hp' <;> rfl
    rw [ih h, refCnt_addRef, hrefs, count_cons_eq]
    ring

lemma freeBlocks_spec (bs : List ℕ) (hp : MapOk p) :
    MapOk (p.freeBlocks bs) ∧ ∀ c, (p.freeBlocks bs).refCnt c = p.refCnt c - bs.count c := by
  have hsame := sameCached_freeBlocks p bs
  refine ⟨hp.congr hsame.cached hsame.hash, fun c => ?_⟩
  change (releaseBlocks bs p).1.refCnt c = _
  clear hp hsame
  induction bs generalizing p with
  | nil => simp [releaseBlocks]
  | cons b bs ih =>
    rw [releaseBlocks_cons, ih, refCnt_addRef, count_cons_eq]
    split_ifs <;> ring

lemma MapOk.insert (hp : MapOk p) {key : Bytes} (hb : p.blockHash b = none) :
    MapOk ((p.setHash b (some key)).insertCached key b) := by
  have hfresh : ∀ key', b ∉ p.cachedBlockHashToBlock key' := by
    intro key' hmem
    rw [hp.keyed hmem] at hb
    cases hb
  constructor
  · intro key' c hc
    have hhash : ((p.setHash b (some key)).insertCached key b).blockHash c =
        if c = b then some key else p.blockHash c := blockHash_setHash p b _ c
    rw [hhash]
    rcases eq_or_ne key' key with rfl | hk
    · have hc' : c ∈ p.cachedBlockHashToBlock key' ∨ c = b := by
        simpa [insertCached, setHash, hfresh key'] using hc
      rcases hc' with hc' | rfl
      · have hne : c ≠ b := fun h => hfresh key' (h ▸ hc')
        rw [if_neg hne]
        exact hp.keyed hc'
      · rw [if_pos rfl]
    have hc' : c ∈ p.cachedBlockHashToBlock key' := by
      simpa [insertCached, setHash, hk] using hc
    have hne : c ≠ b := fun h => hfresh key' (h ▸ hc')
    rw [if_neg hne]
    exact hp.keyed hc'
  intro key'
  rcases eq_or_ne key' key with rfl | hk
  · have hnd := (perm_append_singleton b (p.cachedBlockHashToBlock key')).nodup_iff.mpr
      (nodup_cons.mpr ⟨hfresh key', hp.nodup key'⟩)
    simpa [insertCached, setHash, hfresh key'] using hnd
  · simpa [insertCached, setHash, hk] using hp.nodup key'

lemma cacheFullBlocks_spec {env : HashEnv} {r : Request} {blocks : List ℕ} (hp : MapOk p)
    (h : p.cacheFullBlocks env r blocks numCached numFull size gid mask = .ok q) :
    MapOk q ∧ ∀ c, q.refCnt c = p.refCnt c :=
  ⟨cacheFullBlocks_rule (fun _ _ _ hb hp => hp.insert hb) (fun _ e hp => hp.emit e) h hp,
    cacheFullBlocks_rule (P := fun q => ∀ c, q.refCnt c = p.refCnt c)
      (fun p' b key _ hp c => (refCnt_setHash p' b (some key) c).trans (hp c))
      (fun p' e hp c => (refCnt_emit p' e c).trans (hp c)) h fun _ => rfl⟩

end Vllm.BlockPool
