import Vllm.KVCache.BlockHashProof
import Vllm.KVCache.CallSteps
import Mathlib.Data.Set.Card

/-! # KV-cache events -/

namespace Vllm

open Relation List

def applyEvent (held : Multiset (ExternalBlockHash × ℕ)) :
    KVCacheEvent → Multiset (ExternalBlockHash × ℕ)
  | .blockStored hashes _ _ _ _ _ _ gid => held + ↑(hashes.map fun h => (h, gid))
  | .blockRemoved hashes gid => held - ↑(hashes.map fun h => (h, gid))
  | .allBlocksCleared => 0

variable (events : List KVCacheEvent)

/-- What a router makes of the events of a pool: (block hash, group) pairs. -/
def replay : Multiset (ExternalBlockHash × ℕ) := events.foldl applyEvent 0

lemma applyEvent_removed (held : Multiset (ExternalBlockHash × ℕ)) (h : ExternalBlockHash)
    (gid : ℕ) :
    applyEvent held (.blockRemoved [h] gid) = held.erase (h, gid) := by
  simp [applyEvent]

lemma replay_append (e : KVCacheEvent) :
    replay (events ++ [e]) = applyEvent (replay events) e := by simp [replay]

namespace BlockPool

variable {p q : BlockPool} {held : Multiset (ExternalBlockHash × ℕ)}
variable {bs : List ℕ} {stored : List ExternalBlockHash} {env : HashEnv} {r : Request}
  {blocks : List ℕ}
  {e : KVCacheEvent} {gid : ℕ} {hashes : List Bytes} {mask : List Bool}

def cachedPair (p : BlockPool) (b : ℕ) : Option (ExternalBlockHash × ℕ) :=
  (p.blockHash b).bind fun key =>
    if b ∈ p.cachedBlockHashToBlock key then
      some (maybeConvertBlockHash p.useIntBlockHashes (getBlockHash key), getGroupId key)
    else none

def CachedHashes (p : BlockPool) (held : Multiset (ExternalBlockHash × ℕ)) : Prop :=
  ∀ x, {b | p.cachedPair b = some x}.encard = held.count x

lemma CachedHashes.congr (h : CachedHashes p held) (hpair : ∀ b, q.cachedPair b = p.cachedPair b) :
    CachedHashes q held := by
  intro x
  simp only [hpair]
  exact h x

variable {x : ExternalBlockHash × ℕ}

lemma cachedHashes_cons_iff {b : ℕ} (hoth : ∀ c, c ≠ b → q.cachedPair c = p.cachedPair c)
    (hold : p.cachedPair b = none) (hnew : q.cachedPair b = some x) :
    CachedHashes q (x ::ₘ held) ↔ CachedHashes p held := by
  refine forall_congr' fun y => ?_
  rcases eq_or_ne y x with rfl | hy
  · have hset : {c | q.cachedPair c = some y} = insert b {c | p.cachedPair c = some y} := by
      ext c
      by_cases hc : c = b
      · simp [hc, hnew]
      · simp [hc, hoth c hc]
    rw [hset, Set.encard_insert_of_notMem (by simp [hold]), Multiset.count_cons_self, Nat.cast_succ]
    exact WithTop.add_right_inj (ENat.natCast_ne_top 1)
  have hset : {c | q.cachedPair c = some y} = {c | p.cachedPair c = some y} := by
    ext c
    by_cases hc : c = b
    · simp [hc, hnew, hold, Ne.symm hy]
    · simp [hoth c hc]
  rw [hset, Multiset.count_cons_of_ne hy]

lemma CachedHashes.remove {b : ℕ} (h : CachedHashes p held)
    (hoth : ∀ c, c ≠ b → q.cachedPair c = p.cachedPair c) (hold : p.cachedPair b = some x)
    (hnew : q.cachedPair b = none) : CachedHashes q (held.erase x) := by
  refine (cachedHashes_cons_iff (fun c hc => (hoth c hc).symm) hnew hold).mp ?_
  have hmem : x ∈ held := by
    rw [← Multiset.count_pos, ← Nat.cast_pos (α := ℕ∞), ← h x]
    exact Set.encard_pos.mpr ⟨b, hold⟩
  rwa [Multiset.cons_erase hmem]

/-- The events taken from the queue so far and those still in it replay to the hashes in the
cache. -/
structure Mirrored (taken : List KVCacheEvent) (p : BlockPool) : Prop where
  enabled : p.enableKvCacheEvents = true
  cached : p.CachedHashes (replay (taken ++ p.kvEventQueue))

variable {taken : List KVCacheEvent}

lemma Mirrored.congr (h : Mirrored taken p) (hsame : p.SameCached q) : Mirrored taken q where
  enabled := hsame.events.trans h.enabled
  cached := by
    rw [hsame.pending]
    refine h.cached.congr fun b => ?_
    rw [cachedPair, hsame.hash, hsame.cached, hsame.ints, cachedPair]

lemma mirrored_emit (henabled : p.enableKvCacheEvents = true)
    (h : p.CachedHashes (applyEvent (replay (taken ++ p.kvEventQueue)) e)) :
    Mirrored taken (p.emit e) := by
  rw [emit, if_pos henabled]
  refine ⟨henabled, ?_⟩
  rw [← append_assoc, replay_append]
  exact h

section

variable (h : Mirrored taken p)
include h

lemma Mirrored.maybeEvict (b : ℕ) : Mirrored taken (p.maybeEvictCachedBlock b) := by
  unfold maybeEvictCachedBlock
  split
  · exact h
  rename_i key hkey
  split
  next hmem =>
    refine mirrored_emit h.enabled ?_
    rw [applyEvent_removed]
    have hself : p.cachedPair b = some
        (maybeConvertBlockHash p.useIntBlockHashes (getBlockHash key), getGroupId key) := by
      simp [cachedPair, hkey, hmem]
    refine h.cached.remove (fun c hc => ?_) hself ?_
    · have hhash : ((p.popCached key b).setHash b none).blockHash c = p.blockHash c := by
        rw [blockHash_setHash, if_neg hc]
        rfl
      change (((p.popCached key b).setHash b none).blockHash c).bind _ = _
      rw [hhash]
      refine Option.bind_congr fun key' _ => ?_
      have hmem' : c ∈ ((p.popCached key b).setHash b none).cachedBlockHashToBlock key' ↔
          c ∈ p.cachedBlockHashToBlock key' := by
        rcases eq_or_ne key' key with rfl | hk
        · simp [setHash, popCached, mem_erase_of_ne hc]
        · simp [setHash, popCached, hk]
      exact if_congr hmem' rfl rfl
    change (((p.popCached key b).setHash b none).blockHash b).bind _ = none
    rw [blockHash_setHash, if_pos rfl]
    rfl
  · exact h

lemma Mirrored.evictBlocks {ids : List ℕ} (hq : evictBlocks ids p = .ok q) : Mirrored taken q :=
  evictBlocks_rule (fun _ b h => h.maybeEvict b) hq h

lemma Mirrored.reset : Mirrored taken p.resetPrefixCache.2 := by
  unfold resetPrefixCache
  split
  · exact h
  refine mirrored_emit h.enabled fun x => ?_
  simp [applyEvent, cachedPair, blockHash]

lemma Mirrored.getNewBlocks {n : ℤ} (hq : p.getNewBlocks n = .ok (bs, q)) : Mirrored taken q :=
  getNewBlocks_rule (fun _ b h => h.maybeEvict b) (fun p' b h => h.congr (sameCached_addRef p' b 1))
    hq
    ⟨h.enabled, h.cached⟩

lemma Mirrored.touch (hq : touch bs p = .ok q) : Mirrored taken q :=
  h.congr (sameCached_touch hq)

lemma Mirrored.freeBlocks (bs : List ℕ) : Mirrored taken (p.freeBlocks bs) :=
  h.congr (sameCached_freeBlocks p bs)

end

lemma CachedHashes.insert {b gid : ℕ} {x : Bytes} (h : CachedHashes p held) (hgid : gid < 2 ^ 32)
    (hb : p.blockHash b = none) :
    CachedHashes ((p.setHash b (some (makeBlockHashWithGroupId x gid))).insertCached
      (makeBlockHashWithGroupId x gid) b)
      ((maybeConvertBlockHash p.useIntBlockHashes x, gid) ::ₘ held) := by
  set key := makeBlockHashWithGroupId x gid with hkey
  have hhash : ∀ c, ((p.setHash b (some key)).insertCached key b).blockHash c =
      if c = b then some key else p.blockHash c := fun c => blockHash_setHash p b _ c
  refine (cachedHashes_cons_iff (b := b) (fun c hc => ?_) (by simp [cachedPair, hb]) ?_).mpr h
  · rw [cachedPair, hhash, if_neg hc]
    refine Option.bind_congr fun key' _ => if_congr ?_ rfl rfl
    rw [mem_insertCached]
    simp [hc]
  have hmem : b ∈ ((p.setHash b (some key)).insertCached key b).cachedBlockHashToBlock key :=
    mem_insertCached.mpr (.inr ⟨rfl, rfl⟩)
  rw [cachedPair, hhash, if_pos rfl, Option.bind_some, if_pos hmem, getBlockHash_make,
    getGroupId_make x hgid]
  rfl

lemma events_cacheLoop (hq : cacheLoop gid bs hashes mask p = .ok (q, stored)) :
    q.kvEventQueue = p.kvEventQueue :=
  cacheLoop_rule (P := fun q => q.kvEventQueue = p.kvEventQueue) (fun _ _ _ _ h => h) hq rfl

lemma CachedHashes.cacheLoop (h : CachedHashes p held) (hgid : gid < 2 ^ 32)
    (hq : cacheLoop gid bs hashes mask p = .ok (q, stored)) :
    CachedHashes q (held + ↑(stored.map fun x => (x, gid))) := by
  induction bs generalizing p held hashes mask stored with
  | nil =>
    cases hq
    simpa using h
  | cons b bs ih =>
    unfold BlockPool.cacheLoop at hq
    split at hq
    · exact ih h hq
    split at hq
    · cases hq
    rename_i hnone
    split at hq
    · cases hq
    rename_i x _
    obtain ⟨⟨p', stored'⟩, hloop, ⟨⟩⟩ := of_bind hq
    have hq := ih (h.insert (x := x) hgid (not_not.mp hnone)) hloop
    rw [map_cons, ← Multiset.cons_coe, Multiset.add_cons]
    rwa [Multiset.cons_add] at hq

variable {first last size gid : ℕ}

lemma storedEvent_eq_ok {useInt : Bool} {hashes : BlockHashList} {mask : Option (List Bool)}
    (h : storedEvent env useInt r blocks hashes stored first last size gid mask = .ok e) :
    ∃ parent keys, storedExtraKeys env r size blocks
        (fun i => mask.all fun m => m.getD (i - first) true)
        (range' first (last - first)) 0 = .ok keys ∧
      e = .blockStored stored parent (slice r.allTokenIds (first * size) (last * size)) size
        (r.loraRequest.map LoRARequest.loraIntId) r.loraName
        (if keys = [] then none else some keys) gid := by
  unfold storedEvent at h
  split at h
  · rw [ok_bind] at h
    obtain ⟨keys, hkeys, h⟩ := of_bind h
    exact ⟨none, keys, hkeys, (Except.ok.inj h).symm⟩
  obtain ⟨x, -, h⟩ := of_bind h
  rw [ok_bind] at h
  obtain ⟨keys, hkeys, h⟩ := of_bind h
  exact ⟨_, keys, hkeys, (Except.ok.inj h).symm⟩

lemma Mirrored.cacheFullBlocks {mask : Option (List Bool)} (h : Mirrored taken p)
    (hgid : gid < 2 ^ 32)
    (hq : p.cacheFullBlocks env r blocks first last size gid mask = .ok q) : Mirrored taken q := by
  obtain ⟨-, rfl⟩ | ⟨-, hashes, p', stored, -, hloop, hq⟩ := cacheFullBlocks_eq hq
  · exact h
  have hon := (sameQueue_cacheLoop hloop).events.trans h.enabled
  obtain ⟨hoff, -⟩ | ⟨-, e, he, rfl⟩ := hq
  · rw [hon] at hoff
    cases hoff
  have hcached := h.cached.cacheLoop hgid hloop
  refine mirrored_emit hon ?_
  obtain ⟨parent, keys, -, rfl⟩ := storedEvent_eq_ok he
  rw [events_cacheLoop hloop]
  exact hcached

/-! ## What a stored event says about each block -/

/-- Entry `j` of hashes, keys and tokens is that of block `first + j`, with the keys of every
feature that overlaps it.
-/
def BlockByBlock (env : HashEnv) (useInt : Bool) (hashes : BlockHashList) (r : Request)
    (first last size : ℕ) : KVCacheEvent → Prop
  | .blockStored stored _ tokens _ _ _ keys _ =>
    stored.length = last - first ∧ (keys.getD []).length = last - first ∧
    tokens = slice r.allTokenIds (first * size) (last * size) ∧ ∀ j < last - first,
      (∃ h, hashes.get (first + j) = .ok h ∧ stored[j]? = some (maybeConvertBlockHash useInt h)) ∧
      (∃ idx, (keys.getD [])[j]? = some (generateBlockHashExtraKeys env r ((first + j) * size)
        ((first + j) * size + size) idx).1) ∧
      (ItemsSorted r.mmFeatures →
        (keys.getD [])[j]? = some (blockContent env size r r.mmFeatures (first + j)).2) ∧
      slice tokens (j * size) ((j + 1) * size) =
        slice r.allTokenIds ((first + j) * size) ((first + j + 1) * size)
  | _ => False

lemma cacheLoop_stored (hnull : ∀ b ∈ bs, b ≠ nullBlock) (hmask : ∀ x ∈ mask, x = true)
    (h : cacheLoop gid bs hashes mask p = .ok (q, stored)) : bs.length ≤ hashes.length ∧
      stored = (hashes.take bs.length).map (maybeConvertBlockHash p.useIntBlockHashes) := by
  induction bs generalizing p hashes mask stored with
  | nil =>
    cases h
    simp
  | cons b bs ih =>
    have hkept : ¬ (b = nullBlock ∨ mask.headD true = false) := by
      rintro (hb | hb)
      · exact hnull b mem_cons_self hb
      cases mask with
      | nil => cases hb
      | cons x xs => simp [hmask x mem_cons_self] at hb
    unfold cacheLoop at h
    rw [if_neg hkept] at h
    split at h
    · cases h
    split at h
    · cases h
    rename_i x hx
    obtain ⟨⟨p', stored'⟩, hloop, ⟨⟩⟩ := of_bind h
    cases hashes with
    | nil => simp at hx
    | cons y hashes =>
      obtain rfl : y = x := by simpa using hx
      obtain ⟨hlen, hsto⟩ := ih (forall_mem_cons.mp hnull).2
        (fun x hx => hmask x (mem_of_mem_tail hx)) hloop
      refine ⟨by simpa using hlen, ?_⟩
      rw [hsto]
      rfl

lemma storedExtraKeys_range {size : ℕ} {mask : ℕ → Bool} {first n : ℕ} {idx : ℤ}
    {keys : List (Option (List ExtraKey))}
    (hnull : ∀ i b, first ≤ i → i < first + n → blocks[i]? = some b → b ≠ nullBlock)
    (hmask : ∀ i, first ≤ i → i < first + n → mask i = true)
    (h : storedExtraKeys env r size blocks mask (range' first n) idx = .ok keys) : keys.length = n ∧
      (∀ j < n, first + j < blocks.length ∧ ∃ idx, keys[j]? = some (generateBlockHashExtraKeys env r
        ((first + j) * size) ((first + j) * size + size) idx).1) ∧
      (ItemsSorted r.mmFeatures → IndexFrom r.mmFeatures 0 (first * size) idx →
        keys = (range' first n).map fun i => (blockContent env size r r.mmFeatures i).2) := by
  induction n generalizing first idx keys with
  | zero =>
    cases h
    simp
  | succ n ih =>
    rw [range'_succ] at h ⊢
    unfold storedExtraKeys at h
    split at h
    · cases h
    rename_i b hb
    rw [if_neg (by simp [hnull first b le_rfl (by omega) hb, hmask first le_rfl (by omega)])] at h
    obtain ⟨rest, hrest, ⟨⟩⟩ := of_bind h
    obtain ⟨hlen, heach, hkeys⟩ := ih (fun i b h1 h2 => hnull i b (by omega) (by omega))
      (fun i h1 h2 => hmask i (by omega) (by omega)) hrest
    have hstop : first * size + size = (first + 1) * size := by ring
    refine ⟨by simp [hlen], fun j hj => ?_, fun hsorted hidx => ?_⟩
    · cases j with
      | zero => exact ⟨lt_of_getElem? hb, idx, rfl⟩
      | succ j =>
        have := heach j (by omega)
        rwa [show first + 1 + j = first + (j + 1) by omega] at this
    obtain ⟨hmm, hidx'⟩ := genMm_spec r hsorted hidx (Nat.le_add_right (first * size) size)
    rw [hstop] at hmm hidx' hkeys ⊢
    rw [map_cons, hkeys hsorted hidx', generateBlockHashExtraKeys, hmm]
    rfl

lemma blockByBlock_of_stored {mask : Option (List Bool)} {hashes : BlockHashList}
    (hlt : first < last)
    (hloop : cacheLoop gid (slice blocks first last) (hashes.toList.drop first) (mask.getD []) p =
      .ok (q, stored))
    (he : storedEvent env p.useIntBlockHashes r blocks hashes stored first last size gid mask =
      .ok e)
    (hnull : ∀ b ∈ slice blocks first last, b ≠ nullBlock) (hmask : ∀ l ∈ mask, ∀ x ∈ l, x = true) :
    BlockByBlock env p.useIntBlockHashes hashes r first last size e := by
  obtain ⟨parent, keys, hkeys, rfl⟩ := storedEvent_eq_ok he
  have hmask' : ∀ x ∈ mask.getD [], x = true := by
    cases mask with
    | none => simp
    | some l => exact hmask l rfl
  obtain ⟨hlen, hsto⟩ := cacheLoop_stored hnull hmask' hloop
  obtain ⟨hkeysLen, heach, hsortedKeys⟩ := storedExtraKeys_range
    (fun i b h1 h2 hb => hnull b (mem_iff_getElem?.mpr ⟨i - first, by
      rw [slice, getElem?_drop, Nat.add_sub_cancel' h1, getElem?_take, if_pos (by omega), hb]⟩))
    (fun i h1 h2 => by
      cases mask with
      | none => rfl
      | some l =>
        rw [Option.all_some, getD_eq_getElem?_getD]
        cases hx : l[i - first]? with
        | none => rfl
        | some x => exact hmask l rfl x (mem_of_getElem? hx)) hkeys
  have hsome : (if keys = [] then none else some keys).getD [] = keys := by
    split
    next h => exact h.symm
    · rfl
  have hblk : (slice blocks first last).length = last - first := by
    have := (heach (last - first - 1) (by omega)).1
    rw [length_slice]
    omega
  rw [hblk] at hlen hsto
  rw [BlockByBlock, hsome]
  refine ⟨by rw [hsto]; simpa using hlen, hkeysLen, rfl, fun j hj => ⟨?_, (heach j hj).2, ?_, ?_⟩⟩
  · obtain ⟨h, hh⟩ : ∃ h, (hashes.toList.drop first)[j]? = some h :=
      ⟨_, getElem?_eq_getElem (by omega)⟩
    refine ⟨h, CacheHit.get_of_toList (getElem?_drop ▸ hh), ?_⟩
    rw [hsto, getElem?_map, getElem?_take, if_pos hj, hh]
    rfl
  · intro hsorted
    rw [hsortedKeys hsorted (indexFrom_zero _ _), getElem?_map, getElem?_range' hj, one_mul]
    rfl
  have hle : first * size + (j + 1) * size ≤ last * size := by
    rw [← Nat.add_mul]
    exact Nat.mul_le_mul_right size (by omega)
  rw [slice_slice _ hle, ← Nat.add_mul, ← Nat.add_mul]
  rfl

end BlockPool

end Vllm
