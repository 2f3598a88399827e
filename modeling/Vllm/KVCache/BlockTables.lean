import Vllm.KVCache.KVCacheManager

/-! # Block tables -/

namespace Vllm

namespace SingleTypeKVCacheManager

open List

variable {m m' : SingleTypeKVCacheManager} {rid : String}

def occurrences (m : SingleTypeKVCacheManager) (b : ℕ) :
    ℕ := Dict.total (List.count b) m.reqToBlocks

lemma blocksOf_insert {bs : List ℕ} (h : m'.reqToBlocks = m.reqToBlocks.insert rid bs)
    (rid' : String) : m'.blocksOf rid' = if rid' = rid then bs else m.blocksOf rid' := by
  unfold blocksOf
  rw [h]
  split
  · rename_i heq
    rw [heq, AList.lookup_insert]
    rfl
  · rename_i hne
    rw [AList.lookup_insert_ne hne]

variable (m)

lemma valueAt_count (rid : String) (b : ℕ) :
    Dict.valueAt (List.count b) m.reqToBlocks rid = (m.blocksOf rid).count b := by
  unfold Dict.valueAt blocksOf
  cases m.reqToBlocks.lookup rid <;> rfl

lemma count_le_occurrences (rid : String) (b : ℕ) :
    (m.blocksOf rid).count b ≤ m.occurrences b := by
  have h := Dict.total_erase_add (List.count b) m.reqToBlocks rid
  rw [valueAt_count] at h
  unfold occurrences
  omega

lemma blocksOf_pop (rid rid' : String) :
    (m.popBlocksForFree rid).2.blocksOf rid' = if rid' = rid then [] else m.blocksOf rid' := by
  unfold popBlocksForFree blocksOf
  split
  next heq =>
    subst heq
    rw [AList.lookup_erase]
    rfl
  next hne => rw [AList.lookup_erase_ne hne]

variable {m}

/-- Nothing that the constructor fixed has changed. -/
structure SameConfig (m m' : SingleTypeKVCacheManager) : Prop where
  spec : m'.spec = m.spec
  blockSize : m'.blockSize = m.blockSize
  gid : m'.kvCacheGroupId = m.kvCacheGroupId
  caching : m'.enableCaching = m.enableCaching

variable (m)

lemma SameConfig.refl : SameConfig m m := ⟨rfl, rfl, rfl, rfl⟩

lemma SameConfig.trans {m1 m2 m3 : SingleTypeKVCacheManager} (h : SameConfig m1 m2)
    (h' : SameConfig m2 m3) : SameConfig m1 m3 :=
  ⟨h'.spec.trans h.spec, h'.blockSize.trans h.blockSize, h'.gid.trans h.gid,
    h'.caching.trans h.caching⟩

lemma popBlocksForFree_sameConfig (rid : String) :
    SameConfig m (m.popBlocksForFree rid).2 := ⟨rfl, rfl, rfl, rfl⟩

/-- A request that Mamba has allocated in align mode holds its speculative blocks. -/
def Speculative : Prop :=
  ∀ mode numSpec, m.spec.attention = .mamba mode numSpec →
    ∀ rid ∈ m.allocatedBlockReqs, numSpec ≤ (m.blocksOf rid).length

variable {m}

lemma Speculative.insert {bs : List ℕ} (h : m.Speculative) (hspec : m'.spec = m.spec)
    (htab : m'.reqToBlocks = m.reqToBlocks.insert rid bs)
    (hothers : ∀ rid' ∈ m'.allocatedBlockReqs, rid' ≠ rid → rid' ∈ m.allocatedBlockReqs)
    (hself : ∀ mode numSpec, m.spec.attention = .mamba mode numSpec →
      rid ∈ m'.allocatedBlockReqs → numSpec ≤ bs.length) : m'.Speculative := by
  intro mode numSpec hm rid' hrid
  rw [hspec] at hm
  rw [blocksOf_insert htab]
  split
  next heq => exact hself mode numSpec hm (heq ▸ hrid)
  next hne => exact h mode numSpec hm rid' (hothers rid' hrid hne)

lemma Speculative.pop (h : m.Speculative) (rid : String) :
    (m.popBlocksForFree rid).2.Speculative := by
  intro mode numSpec hm rid' hrid
  simp only [popBlocksForFree, mem_filter, decide_eq_true_eq] at hrid
  rw [blocksOf_pop, if_neg hrid.2]
  exact h mode numSpec hm rid' hrid.1

/-! ## Loops over one table -/

lemma count_nulls_append {b n : ℕ} (hb : b ≠ nullBlock) (bs : List ℕ) :
    (replicate n nullBlock ++ bs).count b = bs.count b := by
  have : nullBlock ≠ b := Ne.symm hb
  simp [count_replicate, this]

lemma count_append_nulls {b n : ℕ} (hb : b ≠ nullBlock) (bs : List ℕ) :
    (bs ++ replicate n nullBlock).count b = bs.count b := by
  have : nullBlock ≠ b := Ne.symm hb
  simp [count_replicate, this]

lemma count_set_null {b : ℕ} (hb : b ≠ nullBlock) (bs : List ℕ) (i : ℕ) :
    (bs.set i nullBlock).count b + (if bs.getD i nullBlock = b then 1 else 0) = bs.count b := by
  have hnull : nullBlock ≠ b := Ne.symm hb
  induction bs generalizing i with
  | nil => simp [hnull]
  | cons x bs ih =>
    cases i with
    | zero => simp [count_cons, hnull]
    | succ i =>
      have := ih i
      simp only [set_cons_succ, getD_cons_succ, count_cons]
      omega

variable {numSkipped idx : ℤ} {bs out : List ℕ}

lemma count_reuseLoop {n : ℕ} (hidx : 0 ≤ idx) (h : reuseLoop numSkipped n idx bs = .ok out) :
    bs.length ≤ out.length ∧ ∀ b, b ≠ nullBlock → out.count b = bs.count b := by
  induction n generalizing idx bs with
  | zero =>
    cases h
    exact ⟨le_rfl, fun _ _ => rfl⟩
  | succ n ih =>
    unfold reuseLoop at h
    split at h
    · split at h
      · cases h
      rename_i i hi
      dsimp only at h
      split at h
      · cases h
      rename_i j hj
      -- The index is not negative, so it stands for the same entry in the longer list.
      simp only [pyIndex, hidx, if_true] at hi hj
      split at hi
      · cases hi
        rw [if_pos (by simp; omega)] at hj
        cases hj
        obtain ⟨hlen, hcnt⟩ := ih (by omega) h
        rw [length_set, length_append] at hlen
        refine ⟨by omega, fun b hb => ?_⟩
        have hset := count_set_null hb (bs ++ [bs.getD idx.toNat nullBlock]) idx.toNat
        have hget : (bs ++ [bs.getD idx.toNat nullBlock]).getD idx.toNat nullBlock =
          bs.getD idx.toNat nullBlock := by
          rw [getD_eq_getElem?_getD, getElem?_append_left (by omega), getD_eq_getElem?_getD]
        rw [hget, count_append, count_singleton] at hset
        simp only [beq_iff_eq] at hset
        rw [hcnt b hb]
        omega
      · cases hi
    · cases h
      exact ⟨le_rfl, fun _ _ => rfl⟩

lemma length_reuseLoop {n : ℕ} (h : reuseLoop numSkipped n idx bs = .ok out) :
    out.length ≤ bs.length + n ∧ (out.length : ℤ) ≤ bs.length + max 0 (numSkipped - idx) := by
  induction n generalizing idx bs with
  | zero =>
    cases h
    omega
  | succ n ih =>
    unfold reuseLoop at h
    split at h
    · split at h
      · cases h
      dsimp only at h
      split at h
      · cases h
      have hrest := ih h
      rw [length_set, length_append, length_singleton] at hrest
      omega
    · cases h
      omega

lemma reuseSpeculative_spec {mode : MambaCacheMode} {numSpec : ℕ} {required : ℤ} {out : List ℕ}
    (hm : m.spec.attention = .mamba mode numSpec) (hreq : ((m.blocksOf rid).length : ℤ) < required)
    (h : m.reuseSpeculative rid numSpec (required - numSpec - 1) = .ok out) :
    (out.length : ℤ) < required ∧ (m.Speculative → (m.blocksOf rid).length ≤ out.length ∧
      ∀ b, b ≠ nullBlock → out.count b = (m.blocksOf rid).count b) := by
  unfold reuseSpeculative at h
  split at h
  next hal =>
    have hlen := length_reuseLoop h
    rw [length_append, length_replicate] at hlen
    refine ⟨by omega, fun hspec => ?_⟩
    have hge := hspec mode numSpec hm rid hal
    obtain ⟨hle, hcnt⟩ := count_reuseLoop (by omega) h
    rw [length_append] at hle
    exact ⟨by omega, fun b hb => (hcnt b hb).trans (count_append_nulls hb _)⟩
  cases h
  rw [length_append, length_replicate]
  exact ⟨by omega, fun _ => ⟨by omega, fun b hb => count_append_nulls hb _⟩⟩

lemma count_skipLoop (n : ℕ) (bs : List ℕ) :
    (skipLoop n bs).2.length = bs.length ∧ ∀ b, b ≠ nullBlock →
      (skipLoop n bs).1.count b + (skipLoop n bs).2.count b = bs.count b := by
  induction n generalizing bs with
  | zero => exact ⟨rfl, fun b _ => by simp [skipLoop]⟩
  | succ n ih =>
    unfold skipLoop
    dsimp only
    split
    · exact ⟨rfl, fun b _ => by simp⟩
    obtain ⟨hlen, hcnt⟩ := ih (bs.set n nullBlock)
    refine ⟨by simpa using hlen, fun b hb => ?_⟩
    have h1 := hcnt b hb
    have h2 := count_set_null hb bs n
    simp only [count_cons, beq_iff_eq]
    omega

lemma getElem?_skipLoop (n : ℕ) (bs : List ℕ) (i : ℕ) :
    (skipLoop n bs).2[i]? = bs[i]? ∨ ((skipLoop n bs).2[i]? = some nullBlock ∧ i < n) := by
  induction n generalizing bs with
  | zero => exact Or.inl rfl
  | succ n ih =>
    unfold skipLoop
    dsimp only
    split
    · exact Or.inl rfl
    rcases ih (bs.set n nullBlock) with h | ⟨h, hi⟩
    · rw [h, getElem?_set]
      rcases eq_or_ne n i with rfl | hni
      · by_cases hlt : n < bs.length
        · exact Or.inr ⟨by simp [hlt], Nat.lt_succ_self n⟩
        · left
          rw [if_pos rfl, if_neg hlt, getElem?_eq_none (not_lt.mp hlt)]
      · exact Or.inl (if_neg hni)
    · exact Or.inr ⟨h, Nat.lt_succ_of_lt hi⟩

end SingleTypeKVCacheManager

open List SingleTypeKVCacheManager

variable {α : Type} {R : α → α → Prop}

/-! ## All tables -/

variable (ms : List SingleTypeKVCacheManager)

def heldBy (b : ℕ) : ℕ := (ms.map (·.occurrences b)).sum

def heldIn (lists : List (List ℕ)) (b : ℕ) : ℕ := (lists.map (List.count b)).sum

lemma heldBy_split (l r : List SingleTypeKVCacheManager) (m : SingleTypeKVCacheManager) (b : ℕ) :
    heldBy (l ++ m :: r) b = m.occurrences b + (heldBy l b + heldBy r b) := by
  simp only [heldBy, map_append, map_cons, sum_append, sum_cons]
  omega

lemma heldBy_pop (rid : String) (b : ℕ) : heldBy (ms.map fun m => (m.popBlocksForFree rid).2) b +
      (ms.map fun m => m.blocksOf rid).flatten.count b = heldBy ms b := by
  induction ms with
  | nil => rfl
  | cons m ms ih =>
    have hm := Dict.total_erase_add (List.count b) m.reqToBlocks rid
    rw [valueAt_count] at hm
    simp only [heldBy, map_cons, sum_cons, flatten_cons, count_append] at ih ⊢
    simp only [occurrences, popBlocksForFree] at ih ⊢
    omega

lemma heldIn_eraseIdx {lists : List (List ℕ)} {i : ℕ} {bs : List ℕ} (h : lists[i]? = some bs)
    (b : ℕ) :
    heldIn lists b = heldIn (lists.eraseIdx i) b + bs.count b := by
  induction lists generalizing i with
  | nil => cases h
  | cons l lists ih =>
    cases i with
    | zero =>
      obtain rfl : l = bs := by simpa using h
      simp [heldIn, Nat.add_comm]
    | succ i =>
      have := ih (by simpa using h : lists[i]? = some bs)
      simp only [heldIn, eraseIdx_cons_succ, map_cons, sum_cons] at this ⊢
      omega

variable {xs ys : List α}

lemma forall₂_mem (h : List.Forall₂ R xs ys) {y : α} (hy : y ∈ ys) : ∃ x ∈ xs, R x y := by
  induction h with
  | nil => cases hy
  | cons hxy _ ih =>
    rcases mem_cons.mp hy with rfl | hy
    · exact ⟨_, mem_cons_self, hxy⟩
    · obtain ⟨x, hx, hR⟩ := ih hy
      exact ⟨x, mem_cons_of_mem _ hx, hR⟩

lemma forall₂_getElem? (h : List.Forall₂ R xs ys) {i : ℕ}
    {y : α} (hy : ys[i]? = some y) : ∃ x, xs[i]? = some x ∧ R x y := by
  induction h generalizing i with
  | nil => cases hy
  | cons hxy _ ih =>
    cases i with
    | zero =>
      cases hy
      exact ⟨_, rfl, hxy⟩
    | succ i => exact ih (by simpa using hy)

lemma forall₂_trans (htrans : ∀ {x y z}, R x y → R y z → R x z)
    {xs ys zs : List α} (h : List.Forall₂ R xs ys) (h' : List.Forall₂ R ys zs) :
    List.Forall₂ R xs zs := by
  induction h generalizing zs with
  | nil => exact h'
  | cons hm _ ih =>
    cases h' with
    | cons hm' hms' => exact .cons (htrans hm hm') (ih hms')

namespace KVCacheManager

variable {k k' : KVCacheManager} {rid : String} {a : KVCacheManagerArgs}

lemma forManagers_forall₂ {β : Type} {f : SingleTypeKVCacheManager → BlockPool →
      Py (β × SingleTypeKVCacheManager × BlockPool)} {R : SingleTypeKVCacheManager →
      SingleTypeKVCacheManager → Prop} {Q : BlockPool → BlockPool → Prop} (hrefl : ∀ p, Q p p)
    (htrans : ∀ {p1 p2 p3}, Q p1 p2 → Q p2 p3 → Q p1 p3)
    {ms ms' : List SingleTypeKVCacheManager} {p q : BlockPool} {xs : List β}
    (hf : ∀ m ∈ ms, ∀ {p q m' x}, f m p = .ok (x, m', q) → R m m' ∧ Q p q)
    (hrun : forManagers f ms p = .ok (xs, ms', q)) : List.Forall₂ R ms ms' ∧ Q p q := by
  induction ms generalizing p xs ms' with
  | nil =>
    cases hrun
    exact ⟨.nil, hrefl _⟩
  | cons m ms ih =>
    unfold forManagers at hrun
    obtain ⟨⟨x, m', p'⟩, hm, hrun⟩ := of_bind hrun
    obtain ⟨⟨xs', ms'', q'⟩, hms, ⟨⟩⟩ := of_bind hrun
    obtain ⟨hR, hQ⟩ := hf m mem_cons_self hm
    obtain ⟨hRs, hQs⟩ := ih (fun m1 hm1 => hf m1 (mem_cons_of_mem _ hm1)) hms
    exact ⟨.cons hR hRs, htrans hQ hQs⟩

variable {m : SingleTypeKVCacheManager}

lemma silent_eq_ok {x : Py (SingleTypeKVCacheManager × BlockPool)}
    {u : Unit} {p : BlockPool} (h : silent x = .ok (u, m, p)) : x = .ok (m, p) := by
  obtain ⟨⟨m', p'⟩, hx, ⟨⟩⟩ := of_bind h
  exact hx

variable {hits : List (List ℕ)}

lemma nthBlocks_eq_ok {gid : ℕ} {bs : List ℕ} :
    nthBlocks hits gid = .ok bs ↔ hits[gid]? = some bs := by
  unfold nthBlocks
  split
  next h => simp [h]
  next h => simp [h]

lemma allocateSlots_cases {env : HashEnv} {r : Request} {a : AllocArgs} {n : ℕ}
    {new : Option (List (List ℕ))} (h : k.allocateSlots env r a n hits = .ok (new, k')) :
    let nLocal := r.numComputedTokens + n
    let total := min (nLocal + a.numExternalComputedTokens) k.maxModelLen
    let main := total + a.numNewTokens
    let need := min (main + a.numLookaheadTokens) k.maxModelLen
    (new = none ∧ k' = k) ∨
    ∃ k1 num, k.removeSkippedBlocks r.requestId total = .ok k1 ∧
      k1.getNumBlocksToAllocate r.requestId need hits a.numEncoderTokens
        (nLocal + a.numExternalComputedTokens) main false = .ok num ∧
      ((num + k.watermarkFor r a > k1.blockPool.numFreeBlocks - a.reservedBlocks ∧ new = none ∧
        k' = k1) ∨
        (num + k.watermarkFor r a ≤ k1.blockPool.numFreeBlocks - a.reservedBlocks ∧
          ∃ new', k1.commitSlots env r a hits nLocal total need main = .ok (new', k') ∧
            new = some new')) := by
  intro nLocal total main need
  unfold allocateSlots at h
  split at h
  · cases h
  obtain ⟨fits, -, h⟩ := of_bind h
  split at h
  · cases h
    exact Or.inl ⟨rfl, rfl⟩
  obtain ⟨k1, hskip, h⟩ := of_bind h
  obtain ⟨num, hnum, h⟩ := of_bind h
  refine Or.inr ⟨k1, num, hskip, hnum, ?_⟩
  split at h
  · rename_i hfull
    cases h
    exact Or.inl ⟨hfull, rfl, rfl⟩
  rename_i hfits
  obtain ⟨⟨new', k2⟩, hcommit, ⟨⟩⟩ := of_bind h
  exact Or.inr ⟨not_lt.mp hfits, new', hcommit, rfl⟩

lemma init_eq_ok (h : init a = .ok k) : 0 < a.numBlocks ∧
    k.blockPool = BlockPool.init a.numBlocks a.enableCaching a.hashBlockSize a.enableKvCacheEvents
    a.useIntBlockHashes ∧
    k.enableCaching = a.enableCaching ∧ k.managers.length = a.groups.length ∧
    ∃ eagle, makeCoordinator a = .ok (k.coordinator, eagle) ∧
    ∀ {i : ℕ} {m}, k.managers[i]? = some m →
      ∃ g, a.groups[i]? = some g ∧ m = makeManager a (eagle i) g i := by
  obtain ⟨_, -, h⟩ := of_bind h
  obtain ⟨_, hpos, h⟩ := of_bind h
  obtain ⟨_, -, h⟩ := of_bind h
  obtain ⟨⟨coordinator, eagle⟩, hcoord, ⟨⟩⟩ := of_bind h
  refine ⟨of_pyAssert hpos, rfl, rfl, length_mapIdx, eagle, hcoord, fun {i m} hm => ?_⟩
  rw [getElem?_mapIdx, Option.map_eq_some_iff] at hm
  obtain ⟨g, hg, rfl⟩ := hm
  exact ⟨g, hg, rfl⟩

lemma mem_init (h : init a = .ok k)
    (hm : m ∈ k.managers) : ∃ eagle g gid, g ∈ a.groups ∧ m = makeManager a eagle g gid := by
  obtain ⟨-, -, -, -, eagle, -, hat⟩ := init_eq_ok h
  obtain ⟨i, hi⟩ := mem_iff_getElem?.mp hm
  obtain ⟨g, hg, rfl⟩ := hat hi
  exact ⟨_, g, i, mem_of_getElem? hg, rfl⟩

lemma makeCoordinator_cases {coordinator : Coordinator} {eagle : ℕ → Bool}
    (h : makeCoordinator a = .ok (coordinator, eagle)) :
    coordinator = .noPrefixCache ∨ (∃ d, coordinator = .unitary d ∧ a.groups.length = 1) ∨
      ∃ c, coordinator = .hybrid c ∧ CacheHit.HybridCoordinator.init a.groups a.useEagle a.cp
        a.schedulerBlockSize a.hashBlockSize = .ok c := by
  unfold makeCoordinator at h
  dsimp only at h
  split at h
  · exact Or.inl (Prod.mk.inj (Except.ok.inj h)).1.symm
  split at h
  · rename_i g hg
    obtain ⟨_, -, h⟩ := of_bind h
    exact Or.inr (Or.inl ⟨_, (Prod.mk.inj (Except.ok.inj h)).1.symm, by simp [hg]⟩)
  · obtain ⟨c, hc, h⟩ := of_bind h
    exact Or.inr (Or.inr ⟨c, (Prod.mk.inj (Except.ok.inj h)).1.symm, hc⟩)

lemma popBlocksForFree_eq {blocks : List ℕ} (h : k.popBlocksForFree rid = .ok (blocks, k')) :
    blocks = (k.managers.map fun m => m.blocksOf rid).flatten ∧
      k' = { k with managers := k.managers.map fun m => (m.popBlocksForFree rid).2 } := by
  have hloop : ∀ (ms : List SingleTypeKVCacheManager) (p : BlockPool),
      forManagers (fun m p => .ok ((m.popBlocksForFree rid).1, (m.popBlocksForFree rid).2, p))
        ms p = .ok (ms.map fun m => m.blocksOf rid, ms.map fun m => (m.popBlocksForFree rid).2,
          p) := by
    intro ms p
    induction ms with
    | nil => rfl
    | cons m ms ih =>
      unfold forManagers
      rw [ok_bind]
      dsimp only
      rw [ih]
      rfl
  unfold popBlocksForFree withManagers at h
  rw [hloop] at h
  cases h
  exact ⟨rfl, rfl⟩

end KVCacheManager

end Vllm
