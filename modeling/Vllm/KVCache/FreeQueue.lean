import Vllm.KVCache.CachedBlocks

/-! # The free queue -/

namespace Vllm.BlockPool

open List

variable {p q : BlockPool} {b c : ℕ} {bs : List ℕ} {n : ℤ} {numCached numFull size gid : ℕ}

/-- The queue has no block twice, and its blocks have no references. -/
structure QueueOk (p : BlockPool) : Prop where
  nodup : p.freeBlockQueue.Nodup
  free : ∀ b ∈ p.freeBlockQueue, b ≠ nullBlock ∧ p.refCnt b = 0

/-- The free queue lists each unreferenced block but the null block once, its counter is its
length. -/
structure FreeOk (p : BlockPool) : Prop extends QueueOk p where
  count : p.numFreeBlocks = p.freeBlockQueue.length
  bound : ∀ b ∈ p.freeBlockQueue, b < p.numGpuBlocks
  all : ∀ {b}, b ≠ nullBlock → b < p.numGpuBlocks → p.refCnt b = 0 → b ∈ p.freeBlockQueue
  outside : ∀ {b}, b ≠ nullBlock → p.numGpuBlocks ≤ b → p.refCnt b = 0
  cached : ∀ {key b}, b ∈ p.cachedBlockHashToBlock key → b ≠ nullBlock ∧ b < p.numGpuBlocks

lemma FreeOk.mem_iff (h : FreeOk p) :
    b ∈ p.freeBlockQueue ↔ b ≠ nullBlock ∧ b < p.numGpuBlocks ∧ p.refCnt b = 0 :=
  ⟨fun hb => ⟨(h.free b hb).1, h.bound b hb, (h.free b hb).2⟩, fun hb => h.all hb.1 hb.2.1 hb.2.2⟩

lemma QueueOk.congr (h : QueueOk p) (hqueue : q.freeBlockQueue = p.freeBlockQueue)
    (hrefs : ∀ b, q.refCnt b = p.refCnt b) : QueueOk q where
  nodup := by rw [hqueue]; exact h.nodup
  free b hb := by
    rw [hqueue] at hb
    rw [hrefs]
    exact h.free b hb

lemma FreeOk.congr (h : FreeOk p) (hq : SameQueue p q) (hrefs : ∀ b, q.refCnt b = p.refCnt b)
    (hcached : ∀ {key b}, b ∈ q.cachedBlockHashToBlock key → b ≠ nullBlock ∧ b < p.numGpuBlocks) :
    FreeOk q where
  toQueueOk := h.toQueueOk.congr hq.queue hrefs
  count := by rw [hq.count, hq.queue, h.count]
  bound b hb := by
    rw [hq.queue] at hb
    rw [hq.size]
    exact h.bound b hb
  all hb hlt hzero := by
    rw [hq.queue]
    exact h.all hb (hq.size ▸ hlt) ((hrefs _).symm.trans hzero)
  outside hb hle := by
    rw [hq.size] at hle
    rw [hrefs, h.outside hb hle]
  cached hb := by
    rw [hq.size]
    exact hcached hb

lemma queueOk_init (n : ℕ) (caching : Bool) (size : ℕ) (events ints : Bool) :
    QueueOk (init n caching size events ints) where
  nodup := nodup_range'
  free b hb := by
    have hb : b ∈ range' 1 (n - 1) := hb
    rw [mem_range'_1] at hb
    exact ⟨by unfold nullBlock; omega, rfl⟩

lemma freeOk_init (n : ℕ) (caching : Bool) (size : ℕ) (events ints : Bool) (hn : 0 < n) :
    FreeOk (init n caching size events ints) where
  toQueueOk := queueOk_init n caching size events ints
  count := by
    simp only [init, length_range']
    omega
  bound b hb := by
    have hb : b ∈ range' 1 (n - 1) := hb
    rw [mem_range'_1] at hb
    show b < n
    omega
  all {b} hb hlt _ := by
    have hlt : b < n := hlt
    show b ∈ range' 1 (n - 1)
    rw [mem_range'_1]
    unfold nullBlock at hb
    omega
  outside _ _ := rfl
  cached hb := absurd hb not_mem_nil

lemma FreeOk.maybeEvict (h : FreeOk p) (b : ℕ) : FreeOk (p.maybeEvictCachedBlock b) :=
  h.congr (sameQueue_maybeEvict p b) (refCnt_maybeEvict p b) fun hb =>
    h.cached (cached_maybeEvict_subset p b _ hb)

lemma FreeOk.reset (h : FreeOk p) : FreeOk p.resetPrefixCache.2 :=
  h.congr (sameQueue_reset p) (refCnt_reset p) fun hb => h.cached (cached_reset_subset p _ hb)

lemma QueueOk.evictBlocks {ids : List ℕ} (h : QueueOk p) (hq : evictBlocks ids p = .ok q) :
    QueueOk q :=
  evictBlocks_rule (fun p' b h =>
    h.congr (sameQueue_maybeEvict p' b).queue (refCnt_maybeEvict p' b)) hq h

lemma QueueOk.reset (h : QueueOk p) : QueueOk p.resetPrefixCache.2 :=
  h.congr (sameQueue_reset p).queue (refCnt_reset p)

lemma takeBlocks_ok (hnd : bs.Nodup) (hzero : ∀ b ∈ bs, p.refCnt b = 0) :
    ∃ q, takeBlocks bs p = .ok q := by
  induction bs generalizing p with
  | nil => exact ⟨p, rfl⟩
  | cons b bs ih =>
    obtain ⟨hb, hbs⟩ := nodup_cons.mp hnd
    unfold takeBlocks
    generalize hp' : (if p.enableCaching = true then p.maybeEvictCachedBlock b else p) = p'
    have hrefs : ∀ c, p'.refCnt c = p.refCnt c := by
      intro c
      subst hp'
      split
      · exact refCnt_maybeEvict p b c
      · rfl
    rw [if_pos ((hrefs b).trans (hzero b mem_cons_self))]
    apply ih hbs
    intro c hc
    have hne : c ≠ b := fun h => hb (h ▸ hc)
    rw [refCnt_addRef, if_neg hne, add_zero, hrefs]
    exact hzero c (mem_cons_of_mem _ hc)

lemma getNewBlocks_ok (h : FreeOk p) (hle : n ≤ p.numFreeBlocks) :
    ∃ bs q, p.getNewBlocks n = .ok (bs, q) := by
  have hlen : n ≤ p.freeBlockQueue.length := by
    rw [← h.count]
    exact hle
  unfold getNewBlocks popleftN
  rw [if_neg (not_lt.mpr hle)]
  by_cases hzero : n = 0
  · rw [if_pos hzero]
    exact ⟨[], p, rfl⟩
  rw [if_neg hzero, if_neg (not_lt.mpr hle), if_neg (not_lt.mpr hlen)]
  obtain ⟨q, hq⟩ : ∃ q, takeBlocks (p.freeBlockQueue.take n.toNat) (p.dropFree n) = .ok q :=
    takeBlocks_ok (h.nodup.sublist (take_sublist _ _))
      fun b hb => (h.free b (mem_of_mem_take hb)).2
  unfold dropFree at hq
  exact ⟨p.freeBlockQueue.take n.toNat, q, by simp only [bind, Except.bind, hq]⟩

lemma getNewBlocks_queue (hq : p.getNewBlocks n = .ok (bs, q)) :
    bs = p.freeBlockQueue.take n.toNat ∧ q.freeBlockQueue = p.freeBlockQueue.drop n.toNat :=
  ⟨(getNewBlocks_eq hq).1, (sameQueue_takeBlocks (getNewBlocks_eq hq).2.2).queue⟩

lemma QueueOk.mem_getNewBlocks (h : QueueOk p) (hq : p.getNewBlocks n = .ok (bs, q)) :
    b ∈ q.freeBlockQueue ↔ b ∈ p.freeBlockQueue ∧ b ∉ bs := by
  obtain ⟨hbs, hqueue⟩ := getNewBlocks_queue hq
  have hsplit := take_append_drop n.toNat p.freeBlockQueue
  have hnd := h.nodup
  rw [← hsplit, nodup_append] at hnd
  rw [hqueue, hbs]
  constructor
  · intro hb
    exact ⟨mem_of_mem_drop hb, fun hb' => hnd.2.2 b hb' b hb rfl⟩
  rintro ⟨hb, hnot⟩
  rw [← hsplit] at hb
  exact (mem_append.mp hb).resolve_left hnot

lemma QueueOk.getNewBlocks (h : QueueOk p) (hmap : MapOk p)
    (hq : p.getNewBlocks n = .ok (bs, q)) : QueueOk q ∧ ∀ b ∈ bs, b ≠ nullBlock := by
  obtain ⟨-, -, -, hrefs⟩ := getNewBlocks_spec hmap hq
  obtain ⟨hbs, hqueue⟩ := getNewBlocks_queue hq
  refine ⟨⟨?_, fun b hb => ?_⟩, fun b hb => ?_⟩
  · rw [hqueue]
    exact h.nodup.sublist (drop_sublist _ _)
  · obtain ⟨hb, hnot⟩ := (h.mem_getNewBlocks hq).mp hb
    obtain ⟨hnull, hzero⟩ := h.free b hb
    exact ⟨hnull, by rw [hrefs, hzero, count_eq_zero_of_not_mem hnot]; rfl⟩
  · exact (h.free b (mem_of_mem_take (hbs ▸ hb))).1

lemma FreeOk.getNewBlocks (h : FreeOk p) (hmap : MapOk p) (hn : 0 ≤ n)
    (hq : p.getNewBlocks n = .ok (bs, q)) :
    FreeOk q ∧ q.numFreeBlocks = p.numFreeBlocks - n ∧ (bs.length : ℤ) = n := by
  obtain ⟨-, -, hzero, hrefs⟩ := getNewBlocks_spec hmap hq
  obtain ⟨hbs, hlen, htake⟩ := getNewBlocks_eq hq
  have hsame := sameQueue_takeBlocks htake
  have hlen := hlen hn
  have hinside : ∀ b ∈ bs, b < p.numGpuBlocks := fun b hb =>
    h.bound b (mem_of_mem_take (hbs ▸ hb))
  refine ⟨⟨(h.toQueueOk.getNewBlocks hmap hq).1, ?_, fun b hb => ?_, fun {b} hb hlt hzero' => ?_,
    fun {b} hb hle => ?_, fun {key b} hb => ?_⟩, hsame.count, hlen⟩
  · rw [hbs, length_take] at hlen
    rw [hsame.count, hsame.queue]
    show p.numFreeBlocks - n = ((p.freeBlockQueue.drop n.toNat).length : ℤ)
    rw [h.count, length_drop]
    omega
  · rw [hsame.size]
    exact h.bound b ((h.mem_getNewBlocks hq).mp hb).1
  · rw [hsame.size] at hlt
    rw [hrefs] at hzero'
    have hnot : b ∉ bs := by
      intro hb
      have h1 := hzero b hb
      have h2 := count_pos_iff.mpr hb
      omega
    rw [count_eq_zero_of_not_mem hnot] at hzero'
    exact (h.mem_getNewBlocks hq).mpr ⟨h.all hb hlt (by simpa using hzero'), hnot⟩
  · rw [hsame.size] at hle
    have hnot : b ∉ bs := fun hmem => absurd (hinside b hmem) (not_lt.mpr hle)
    rw [hrefs, count_eq_zero_of_not_mem hnot, h.outside hb hle]
    rfl
  · rw [hsame.size]
    exact h.cached (cached_getNewBlocks_subset hq key hb)

def numEvictable (p : BlockPool) (bs : List ℕ) : ℕ :=
  bs.countP fun b => p.refCnt b = 0 ∧ b ≠ nullBlock

lemma numEvictable_cons (p : BlockPool) (b : ℕ) (bs : List ℕ) : p.numEvictable (b :: bs) =
      p.numEvictable bs + if p.refCnt b = 0 ∧ b ≠ nullBlock then 1 else 0 := by
  simp [numEvictable, countP_cons]

lemma numEvictable_congr (h : ∀ b ∈ bs, b ≠ nullBlock → q.refCnt b = p.refCnt b) :
    q.numEvictable bs = p.numEvictable bs := by
  refine countP_congr fun b hb => ?_
  by_cases hnull : b = nullBlock
  · simp [hnull]
  · simp [h b hb hnull]

lemma FreeOk.addRef_one (h : FreeOk p) (hb : b = nullBlock ∨ 0 < p.refCnt b) :
    FreeOk (p.addRef b 1) := by
  have hoth : ∀ c, c ≠ nullBlock → ((p.addRef b 1).refCnt c = 0 ↔ p.refCnt c = 0) := by
    intro c hc
    rw [refCnt_addRef]
    rcases eq_or_ne c b with rfl | hcb
    · have := hb.resolve_left hc
      simp only [if_true]
      omega
    · simp [hcb]
  exact ⟨⟨h.nodup, fun c hc => ⟨(h.free c hc).1, (hoth c (h.free c hc).1).mpr (h.free c hc).2⟩⟩,
    h.count,
    h.bound, fun hc hlt hzero => h.all hc hlt ((hoth _ hc).mp hzero),
    fun hc hle => (hoth _ hc).mpr (h.outside hc hle), h.cached⟩

lemma FreeOk.eraseFree (h : FreeOk p) (hb : b ∈ p.freeBlockQueue) :
    FreeOk ((p.eraseFree b).addRef b 1) := by
  have hmem : ∀ {c}, c ∈ (p.eraseFree b).freeBlockQueue ↔ c ≠ b ∧ c ∈ p.freeBlockQueue :=
    h.nodup.mem_erase_iff
  have hrefs : ∀ {c}, c ≠ b → ((p.eraseFree b).addRef b 1).refCnt c = p.refCnt c := by
    intro c hc
    rw [refCnt_addRef, if_neg hc, add_zero]
    rfl
  refine ⟨⟨h.nodup.erase b, fun c hc => ?_⟩, ?_, fun c hc => h.bound c (hmem.mp hc).2,
    fun {c} hc hlt hzero => ?_, fun {c} hc hle => ?_, h.cached⟩
  · obtain ⟨hne, hc⟩ := hmem.mp hc
    rw [hrefs hne]
    exact h.free c hc
  · have hpos := length_pos_of_mem hb
    have hcnt := h.count
    have hlen := length_erase_of_mem hb
    change p.numFreeBlocks - 1 = ((p.freeBlockQueue.erase b).length : ℤ)
    omega
  · have hne : c ≠ b := by
      rintro rfl
      have hone : p.refCnt c + 1 = 0 := by simpa [refCnt, BlockPool.eraseFree, addRef] using hzero
      have := (h.free c hb).2
      omega
    exact hmem.mpr ⟨hne, h.all hc hlt (hrefs hne ▸ hzero)⟩
  have hne : c ≠ b := by
    rintro rfl
    exact absurd (h.bound c hb) (not_lt.mpr hle)
  rw [hrefs hne]
  exact h.outside hc hle

lemma QueueOk.touch (h : QueueOk p) (hq : touch bs p = .ok q) : QueueOk q := by
  induction bs generalizing p with
  | nil =>
    cases hq
    exact h
  | cons b bs ih =>
    obtain ⟨p', hrest, ⟨-, -, -, rfl⟩ | ⟨hheld, rfl⟩⟩ := touch_cons hq
    · refine ih ⟨h.nodup.erase b, fun c hc => ?_⟩ hrest
      obtain ⟨hne, hc⟩ := h.nodup.mem_erase_iff.mp hc
      rw [refCnt_addRef, if_neg hne, add_zero]
      exact h.free c hc
    refine ih (p := p'.addRef b 1) ⟨h.nodup, fun c hc => ?_⟩ hrest
    obtain ⟨hnull, hzero⟩ := h.free c hc
    -- A block in the queue is unreferenced and not null, so `b` is another one.
    have hne : c ≠ b := fun hcb => hheld ⟨hcb ▸ hzero, hcb ▸ hnull⟩
    exact ⟨hnull, by rw [refCnt_addRef, if_neg hne, add_zero, hzero]⟩

/-! ## Freeing -/

/-- The blocks to free are those whose last references are given up, each once. -/
lemma releaseBlocks_freed (hle : ∀ b, b ≠ nullBlock → (bs.count b : ℤ) ≤ p.refCnt b) :
    let out := releaseBlocks bs p
    (out.2.1 ++ out.2.2).Nodup ∧ ∀ {b}, b ∈ out.2.1 ++ out.2.2 ↔ b ≠ nullBlock ∧ b ∈ bs ∧
      p.refCnt b = bs.count b := by
  induction bs generalizing p with
  | nil => simp [releaseBlocks]
  | cons b bs ih =>
    have hle' : ∀ c, c ≠ nullBlock → (bs.count c : ℤ) ≤ (p.addRef b (-1)).refCnt c := by
      intro c hc
      have := hle c hc
      rw [count_cons_eq] at this
      rw [refCnt_addRef]
      split_ifs at this ⊢ <;> omega
    obtain ⟨hnd, hmem⟩ := ih hle'
    generalize hrest : releaseBlocks bs (p.addRef b (-1)) = rest at hnd hmem
    have hrefb : (p.addRef b (-1)).refCnt b = p.refCnt b - 1 := by
      rw [refCnt_addRef, if_pos rfl]
      ring
    -- Membership for a block other than `b`.
    have hoth : ∀ {c}, c ≠ b → (c ∈ rest.2.1 ++ rest.2.2 ↔
        c ≠ nullBlock ∧ c ∈ b :: bs ∧ p.refCnt c = (b :: bs).count c) := by
      intro c hc
      rw [hmem, refCnt_addRef, if_neg hc, add_zero, mem_cons, count_cons_of_ne (Ne.symm hc)]
      simp [hc]
    by_cases hfree : (p.addRef b (-1)).refCnt b = 0 ∧ b ≠ nullBlock
    · -- The last reference to `b` is freed here, so `b` does not occur again.
      have hnot : b ∉ bs := by
        intro hb
        have h1 := hle' b hfree.2
        have h2 := count_pos_iff.mpr hb
        omega
      have hnew : b ∉ rest.2.1 ++ rest.2.2 := fun hb => hnot (hmem.mp hb).2.1
      have hself : b ≠ nullBlock ∧ b ∈ b :: bs ∧ p.refCnt b = (b :: bs).count b := by
        refine ⟨hfree.2, mem_cons_self, ?_⟩
        rw [count_cons_eq, if_pos rfl, count_eq_zero_of_not_mem hnot]
        have := hfree.1
        rw [hrefb] at this
        push_cast
        omega
      have hperm : ∃ out, releaseBlocks (b :: bs) p = out ∧
          (out.2.1 ++ out.2.2).Perm (b :: (rest.2.1 ++ rest.2.2)) := by
        simp only [releaseBlocks, hrest, if_pos hfree]
        split
        · exact ⟨_, rfl, Perm.refl _⟩
        · exact ⟨_, rfl, perm_middle⟩
      obtain ⟨out, hout, hperm⟩ := hperm
      rw [hout]
      refine ⟨hperm.nodup_iff.mpr (nodup_cons.mpr ⟨hnew, hnd⟩), fun {c} => ?_⟩
      rw [hperm.mem_iff, mem_cons]
      rcases eq_or_ne c b with rfl | hcb
      · simp [hself]
      rw [or_iff_right hcb]
      exact hoth hcb
    have hout : releaseBlocks (b :: bs) p = rest := by
      simp only [releaseBlocks, hrest, if_neg hfree]
    rw [hout]
    refine ⟨hnd, fun {c} => ?_⟩
    rcases eq_or_ne c b with rfl | hcb
    · rw [hmem, hrefb, count_cons_eq, if_pos rfl]
      constructor
      · rintro ⟨h1, h2, h3⟩
        exact ⟨h1, mem_cons_self, by omega⟩
      rintro ⟨h1, -, h3⟩
      refine ⟨h1, ?_, by omega⟩
      by_contra hnot
      rw [count_eq_zero_of_not_mem hnot] at h3
      exact hfree ⟨by rw [hrefb, h3]; norm_num, h1⟩
    · exact hoth hcb

lemma sameQueue_releaseBlocks (bs : List ℕ) (p : BlockPool) : SameQueue p (releaseBlocks bs p).1 :=
  releaseBlocks_rule bs (fun _ _ h => h.trans ⟨⟨rfl, rfl, rfl, rfl, rfl⟩, rfl, rfl⟩) (.refl p)

lemma queue_freeBlocks (p : BlockPool) (bs : List ℕ) : (p.freeBlocks bs).freeBlockQueue =
    (releaseBlocks bs p).2.1 ++ p.freeBlockQueue ++ (releaseBlocks bs p).2.2 := by
  show (releaseBlocks bs p).2.1 ++ (releaseBlocks bs p).1.freeBlockQueue ++
    (releaseBlocks bs p).2.2 = _
  rw [(sameQueue_releaseBlocks bs p).queue]

lemma queue_freeBlocks_perm (p : BlockPool) (bs : List ℕ) : (p.freeBlocks bs).freeBlockQueue.Perm
    (p.freeBlockQueue ++ ((releaseBlocks bs p).2.1 ++ (releaseBlocks bs p).2.2)) := by
  rw [queue_freeBlocks, ← append_assoc]
  exact perm_append_comm.append_right _

lemma QueueOk.freeBlocks (h : QueueOk p) (hmap : MapOk p)
    (hle : ∀ b, b ≠ nullBlock → (bs.count b : ℤ) ≤ p.refCnt b) : QueueOk (p.freeBlocks bs) := by
  obtain ⟨-, hrefs⟩ := freeBlocks_spec bs hmap
  obtain ⟨hnd, hmem⟩ := releaseBlocks_freed hle
  have hq := queue_freeBlocks_perm p bs
  have hold : ∀ {b}, b ∈ p.freeBlockQueue → b ≠ nullBlock ∧ p.refCnt b = 0 ∧ bs.count b = 0 := by
    intro b hb
    obtain ⟨hnull, hzero⟩ := h.free b hb
    have := hle b hnull
    exact ⟨hnull, hzero, by omega⟩
  refine ⟨hq.nodup_iff.mpr (nodup_append.mpr ⟨h.nodup, hnd, ?_⟩), fun b hb => ?_⟩
  · rintro b hb c hc rfl
    exact count_eq_zero.mp (hold hb).2.2 (hmem.mp hc).2.1
  rw [hrefs]
  rcases mem_append.mp (hq.mem_iff.mp hb) with hb | hb
  · obtain ⟨hnull, hzero, hcnt⟩ := hold hb
    exact ⟨hnull, by omega⟩
  · obtain ⟨hnull, -, hcnt⟩ := hmem.mp hb
    exact ⟨hnull, by omega⟩

lemma FreeOk.freeBlocks (h : FreeOk p) (hmap : MapOk p)
    (hle : ∀ b, b ≠ nullBlock → (bs.count b : ℤ) ≤ p.refCnt b) : FreeOk (p.freeBlocks bs) := by
  obtain ⟨-, hrefs⟩ := freeBlocks_spec bs hmap
  obtain ⟨-, hmem⟩ := releaseBlocks_freed hle
  have hq := queue_freeBlocks_perm p bs
  have hsame := sameCached_freeBlocks p bs
  have hbound : ∀ {b}, b ≠ nullBlock → b ∈ bs → b < p.numGpuBlocks := by
    intro b hb hbs
    by_contra hlt
    have h1 := h.outside hb (not_lt.mp hlt)
    have h2 := count_pos_iff.mpr hbs
    have h3 := hle b hb
    omega
  refine ⟨h.toQueueOk.freeBlocks hmap hle, ?_, fun b hb => ?_, fun {b} hb hlt hzero => ?_,
    fun {b} hb hge => ?_, fun {key b} hb => ?_⟩
  · have hnum : (p.freeBlocks bs).numFreeBlocks = (releaseBlocks bs p).1.numFreeBlocks +
        (releaseBlocks bs p).2.1.length + (releaseBlocks bs p).2.2.length := rfl
    rw [hq.length_eq, hnum, (sameQueue_releaseBlocks bs p).count, h.count]
    simp only [length_append]
    push_cast
    ring
  · rw [hsame.size]
    rcases mem_append.mp (hq.mem_iff.mp hb) with hb | hb
    · exact h.bound b hb
    · exact hbound (hmem.mp hb).1 (hmem.mp hb).2.1
  · rw [hsame.size] at hlt
    rw [hrefs] at hzero
    rw [hq.mem_iff, mem_append, hmem]
    by_cases hbs : b ∈ bs
    · exact .inr ⟨hb, hbs, by omega⟩
    rw [count_eq_zero_of_not_mem hbs] at hzero
    exact .inl (h.all hb hlt (by simpa using hzero))
  · rw [hsame.size] at hge
    have h1 := h.outside hb hge
    have h2 := hle b hb
    rw [hrefs]
    omega
  rw [hsame.cached] at hb
  rw [hsame.size]
  exact h.cached hb

variable {mask : Option (List Bool)} {blocks : List ℕ}

lemma cached_cacheFullBlocks {env : HashEnv} {r : Request} {key : Bytes}
    (h : p.cacheFullBlocks env r blocks numCached numFull size gid mask = .ok q)
    (hb : b ∈ q.cachedBlockHashToBlock key) :
    b ∈ p.cachedBlockHashToBlock key ∨ (b ∈ blocks ∧ b ≠ nullBlock) := by
  obtain ⟨-, rfl⟩ | ⟨hlt, -⟩ := cacheFullBlocks_eq h
  · exact .inl hb
  obtain ⟨hashes, -, hmem⟩ := mem_cached_cacheFullBlocks hlt h
  refine (hmem.mp hb).imp_right ?_
  rintro ⟨i, x, -, -, hi, -, -, hnull, -⟩
  exact ⟨mem_of_getElem? hi, hnull⟩

lemma FreeOk.cacheFullBlocks {env : HashEnv} {r : Request} (h : FreeOk p) (hmap : MapOk p)
    (hblk : ∀ b ∈ blocks, b ≠ nullBlock → b < p.numGpuBlocks)
    (hq : p.cacheFullBlocks env r blocks numCached numFull size gid mask = .ok q) : FreeOk q := by
  refine h.congr (sameQueue_cacheFullBlocks hq) (cacheFullBlocks_spec hmap hq).2 fun {key b} hb =>
    ?_
  rcases cached_cacheFullBlocks hq hb with hb | ⟨hb, hnull⟩
  · exact h.cached hb
  · exact ⟨hnull, hblk b hb hnull⟩

end Vllm.BlockPool
