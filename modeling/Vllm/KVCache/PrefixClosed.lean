import Vllm.KVCache.Ledger
import Vllm.KVCache.PoolInvariant

/-!
# Eviction keeps the cached hashes prefix-closed

Tables and popped lists begin with blocks cached under one chain (`Linked`). They are freed from
their end, so a free block is taken before the one that caches its parent.
-/

namespace Vllm

open SingleTypeKVCacheManager List Function BlockPool

/-- `parent` gives for each hash of the list the one before it, and nothing for the first. -/
structure Rooted (parent : Bytes → Option Bytes) (hs : List Bytes) : Prop where
  first : ∀ x, hs[0]? = some x → parent x = none
  next : ∀ (i : ℕ) (x y : Bytes), hs[i]? = some x → hs[i + 1]? = some y → parent y = some x

lemma rooted_nil (parent : Bytes → Option Bytes) : Rooted parent [] where
  first x hx := by cases hx
  next i x y hx _ := by cases hx

def groupKey (x : Bytes) : Bytes := makeBlockHashWithGroupId x 0

lemma groupKey_injective : Injective groupKey := by
  intro x y h
  rw [← getBlockHash_make x 0, ← getBlockHash_make y 0]
  exact congrArg getBlockHash h

/-- The first `n` blocks are cached under the hashes; the others are held by this list only and have
no hash. -/
structure Linked (p : BlockPool) (hs : List Bytes) (bs : List ℕ) (n : ℕ) : Prop where
  nodup : bs.Nodup
  null : nullBlock ∉ bs
  le : n ≤ bs.length
  cached : ∀ (i b : ℕ), i < n → bs[i]? = some b →
    ∃ x, hs[i]? = some x ∧ b ∈ p.cachedBlockHashToBlock (groupKey x)
  fresh : ∀ (i b : ℕ), n ≤ i → bs[i]? = some b → p.blockHash b = none ∧ p.refCnt b = 1

namespace Linked

variable {p q : BlockPool} {hs hs' : List Bytes} {bs : List ℕ} {n : ℕ}
  {parent : Bytes → Option Bytes}

lemma nil (p : BlockPool) (hs : List Bytes) : Linked p hs [] 0 where
  nodup := nodup_nil
  null := not_mem_nil
  le := le_rfl
  cached i b _ hb := by cases hb
  fresh i b _ hb := by cases hb

lemma congr (h : Linked p hs bs n)
    (hcached : ∀ b ∈ bs, ∀ key, b ∈ p.cachedBlockHashToBlock key → b ∈ q.cachedBlockHashToBlock key)
    (hfresh : ∀ b ∈ bs, p.blockHash b = none → p.refCnt b = 1 → q.blockHash b = none ∧
      q.refCnt b = 1) :
    Linked q hs bs n where
  __ := h
  cached i b hi hb := by
    obtain ⟨x, hx, hmem⟩ := h.cached i b hi hb
    exact ⟨x, hx, hcached b (mem_of_getElem? hb) _ hmem⟩
  fresh i b hi hb := by
    obtain ⟨hhash, href⟩ := h.fresh i b hi hb
    exact hfresh b (mem_of_getElem? hb) hhash href

lemma mono (h : Linked p hs bs n) (hle : hs <+: hs') : Linked p hs' bs n where
  __ := h
  cached i b hi hb := by
    obtain ⟨x, hx, hmem⟩ := h.cached i b hi hb
    obtain ⟨more, rfl⟩ := hle
    refine ⟨x, ?_, hmem⟩
    rw [getElem?_append_left (lt_of_getElem? hx), hx]

lemma before (h : Linked p hs bs n) (hmap : p.MapOk) (hr : Rooted parent hs) {i b : ℕ} {x y : Bytes}
    (hi : bs[i]? = some b) (hb : b ∈ p.cachedBlockHashToBlock (groupKey x))
    (hx : parent x = some y) :
    ∃ j c, i = j + 1 ∧ bs[j]? = some c ∧ c ∈ p.cachedBlockHashToBlock (groupKey y) := by
  have hhash := hmap.keyed hb
  have hlt : i < n := by
    by_contra hle
    rw [(h.fresh i b (not_lt.mp hle) hi).1] at hhash
    cases hhash
  obtain ⟨x', hx', hb'⟩ := h.cached i b hlt hi
  obtain rfl : x' = x := groupKey_injective (Option.some.inj ((hmap.keyed hb').symm.trans hhash))
  cases i with
  | zero =>
    rw [hr.first x' hx'] at hx
    cases hx
  | succ j =>
    have hj : j < bs.length := by
      have := h.le
      omega
    have hget : bs[j]? = some bs[j] := getElem?_eq_getElem hj
    obtain ⟨z, hz, hc⟩ := h.cached j bs[j] (by omega) hget
    obtain rfl : z = y := Option.some.inj ((hr.next j z x' hz hx').symm.trans hx)
    exact ⟨j, bs[j], rfl, hget, hc⟩

end Linked

def SingleTypeKVCacheManager.numCachedOf (m : SingleTypeKVCacheManager) (rid : String) : ℕ :=
  (m.numCachedBlock.lookup rid).getD 0

/-- Tables and popped lists are linked, and a free block is taken before one that caches its parent;
`hashes` are those of the holders. -/
structure Chained (parent : Bytes → Option Bytes) (p : BlockPool) (m : SingleTypeKVCacheManager)
    (popped : List (List ℕ)) (hashes : String → List Bytes) : Prop where
  counted : Counted p m (heldIn popped)
  free : p.FreeOk
  caching : p.enableCaching = true
  hashed : p.HashesCached
  rooted : ∀ rid, Rooted parent (hashes rid)
  tables : ∀ rid, Linked p (hashes rid) (m.blocksOf rid) (m.numCachedOf rid)
  lists : ∀ bs ∈ popped, ∃ hs n, Rooted parent hs ∧ Linked p hs bs n
  later : ∀ b ∈ p.freeBlockQueue, ∀ x y, parent x = some y →
    b ∈ p.cachedBlockHashToBlock (groupKey x) →
    ∃ c ∈ p.cachedBlockHashToBlock (groupKey y), 0 < p.refCnt c ∨ [b, c].Sublist p.freeBlockQueue

namespace Chained

variable {parent : Bytes → Option Bytes} {p q : BlockPool} {m m' : SingleTypeKVCacheManager}
  {popped : List (List ℕ)} {hashes : String → List Bytes} {rid : String}
variable {b : ℕ} {bs : List ℕ}

section

variable (h : Chained parent p m popped hashes)
include h

lemma refCnt_nonneg (hb : b ≠ nullBlock) : 0 ≤ p.refCnt b := by
  rw [h.counted.refs b hb]
  omega

lemma pool : p.PoolOk :=
  ⟨h.free, h.counted.map, h.hashed, fun _ hb => h.refCnt_nonneg hb⟩

lemma held_of_table (hb : b ∈ m.blocksOf rid) : 0 < p.refCnt b := by
  have hnull : b ≠ nullBlock := fun hb' => (h.tables rid).null (hb' ▸ hb)
  have h1 := h.counted.refs b hnull
  have h2 := count_le_occurrences m rid b
  have h3 := count_pos_iff.mpr hb
  omega

lemma held_of_list (hbs : bs ∈ popped) (hb : b ∈ bs) : 0 < p.refCnt b := by
  obtain ⟨hs, n, -, hlink⟩ := h.lists bs hbs
  have hnull : b ≠ nullBlock := fun hb' => hlink.null (hb' ▸ hb)
  have h1 := h.counted.refs b hnull
  have h2 : bs.count b ≤ heldIn popped b := single_le_sum (by simp) _ (mem_map_of_mem hbs)
  have h3 := count_pos_iff.mpr hb
  omega

lemma exists_holder (hnull : b ≠ nullBlock)
    (hb : 0 < p.refCnt b) : ∃ bs hs n, b ∈ bs ∧ Rooted parent hs ∧ Linked p hs bs n := by
  by_contra hnone
  have htables : m.occurrences b = 0 := by
    refine sum_eq_zero fun k hk => ?_
    obtain ⟨⟨rid, bs⟩, he, rfl⟩ := mem_map.mp hk
    refine count_eq_zero.mpr fun hmem => hnone ⟨_, _, _, ?_, h.rooted rid, h.tables rid⟩
    rw [blocksOf, AList.mem_lookup_iff.mpr he]
    exact hmem
  have hlists : heldIn popped b = 0 := by
    refine sum_eq_zero fun k hk => ?_
    obtain ⟨bs, hbs, rfl⟩ := mem_map.mp hk
    obtain ⟨hs, n, hr, hlink⟩ := h.lists bs hbs
    exact count_eq_zero.mpr fun hmem => hnone ⟨bs, hs, n, hmem, hr, hlink⟩
  have := h.counted.refs b hnull
  omega

lemma closed {x y : Bytes} (hx : parent x = some y)
    (hcached : p.cachedBlockHashToBlock (groupKey x) ≠ []) :
    p.cachedBlockHashToBlock (groupKey y) ≠ [] := by
  obtain ⟨b, hb⟩ := exists_mem_of_ne_nil _ hcached
  obtain ⟨hnull, hlt⟩ := h.free.cached hb
  suffices hc : ∃ c, c ∈ p.cachedBlockHashToBlock (groupKey y) by
    obtain ⟨c, hc⟩ := hc
    exact ne_nil_of_mem hc
  rcases (h.refCnt_nonneg hnull).eq_or_lt with hzero | hpos
  · have hqueue : b ∈ p.freeBlockQueue := h.free.mem_iff.mpr ⟨hnull, hlt, hzero.symm⟩
    obtain ⟨c, hc, -⟩ := h.later b hqueue x y hx hb
    exact ⟨c, hc⟩
  obtain ⟨bs, hs, n, hmem, hr, hlink⟩ := h.exists_holder hnull hpos
  obtain ⟨i, hi⟩ := mem_iff_getElem?.mp hmem
  obtain ⟨-, c, -, -, hc⟩ := hlink.before h.counted.map hr hi hb hx
  exact ⟨c, hc⟩

lemma grow {hs : List Bytes} (hr : Rooted parent hs)
    (hle : hashes rid <+: hs) : Chained parent p m popped (update hashes rid hs) where
  __ := h
  rooted rid' := by
    by_cases hrid : rid' = rid
    · rw [hrid, update_self]
      exact hr
    · rw [update_of_ne hrid]
      exact h.rooted rid'
  tables rid' := by
    by_cases hrid : rid' = rid
    · rw [hrid, update_self]
      exact (h.tables rid).mono hle
    · rw [update_of_ne hrid]
      exact h.tables rid'

lemma congr (htab : m'.reqToBlocks = m.reqToBlocks)
    (hcached : m'.numCachedBlock = m.numCachedBlock) : Chained parent p m' popped hashes where
  counted := ⟨h.counted.map, h.counted.queue, fun b hb => by
      rw [h.counted.refs b hb, occurrences, occurrences, htab],
    fun rid b hb => by
      rw [blocksOf, htab]
      exact h.counted.once rid b hb⟩
  __ := h
  tables rid := by
    rw [blocksOf, numCachedOf, htab, hcached]
    exact h.tables rid

end

/-! ## What the calls on the pool do -/

lemma tables_insert {n : ℕ}
    (hoth : ∀ rid' ≠ rid, Linked q (hashes rid') (m.blocksOf rid') (m.numCachedOf rid'))
    (hrid : Linked q (hashes rid) bs n) (htab : m'.reqToBlocks = m.reqToBlocks.insert rid bs)
    (hcached : ∀ rid', m'.numCachedOf rid' = if rid' = rid then n else m.numCachedOf rid')
    (rid' : String) :
    Linked q (hashes rid') (m'.blocksOf rid') (m'.numCachedOf rid') := by
  rw [blocksOf_insert htab, hcached]
  split
  next heq =>
    rw [heq]
    exact hrid
  next hne => exact hoth rid' hne

lemma numCachedOf_insert {n : ℕ} (hcached : m'.numCachedBlock = m.numCachedBlock.insert rid n)
    (rid' : String) : m'.numCachedOf rid' = if rid' = rid then n else m.numCachedOf rid' := by
  unfold numCachedOf
  rw [hcached]
  split
  next heq =>
    rw [heq, AList.lookup_insert]
    rfl
  next hne => rw [AList.lookup_insert_ne hne]

variable (h : Chained parent p m popped hashes)
include h

lemma touch (hemp : m.blocksOf rid = []) (hnd : bs.Nodup) (hhits : ∀ (i b : ℕ), bs[i]? = some b →
      ∃ x, (hashes rid)[i]? = some x ∧ b ∈ p.cachedBlockHashToBlock (groupKey x))
    (htch : touch bs p = .ok q) (htab : m'.reqToBlocks = m.reqToBlocks.insert rid bs)
    (hcached : m'.numCachedBlock = m.numCachedBlock.insert rid bs.length) :
    Chained parent q m' popped hashes := by
  have hmem : ∀ b ∈ bs, ∃ key, b ∈ p.cachedBlockHashToBlock key := by
    intro b hb
    obtain ⟨i, hi⟩ := mem_iff_getElem?.mp hb
    obtain ⟨x, -, hx⟩ := hhits i b hi
    exact ⟨_, hx⟩
  have hnull : nullBlock ∉ bs := by
    intro hb
    obtain ⟨key, hkey⟩ := hmem nullBlock hb
    exact (h.free.cached hkey).1 rfl
  have honce : ∀ b, b ≠ nullBlock → bs.count b ≤ 1 := fun b _ => nodup_iff_count_le_one.mp hnd b
  obtain ⟨hmap, hrefs⟩ := touch_spec h.counted.map htch
  obtain ⟨hset, hsame, hhash, -⟩ := sameCached_touch htch
  have hpool := h.pool.touch (fun b hb _ => by
    obtain ⟨key, hkey⟩ := hmem b hb
    exact (h.free.cached hkey).2) htch
  have hstay : ∀ b key, b ∈ p.cachedBlockHashToBlock key → b ∈ q.cachedBlockHashToBlock key := by
    intro b key hb
    rwa [hsame]
  -- A block without a hash is no hit.
  have hfresh : ∀ b, p.blockHash b = none → p.refCnt b = 1 → q.blockHash b = none ∧
    q.refCnt b = 1 := by
    intro b hnone hone
    have hb : b ∉ bs := by
      intro hb
      obtain ⟨key, hkey⟩ := hmem b hb
      rw [h.counted.map.keyed hkey] at hnone
      cases hnone
    rw [hhash, hrefs, count_eq_zero_of_not_mem hb]
    exact ⟨hnone, by omega⟩
  have hlink : Linked q (hashes rid) bs bs.length :=
    { nodup := hnd
      null := hnull
      le := le_rfl
      cached := fun i b _ hb => by
        obtain ⟨x, hx, hmem⟩ := hhits i b hb
        exact ⟨x, hx, hstay b _ hmem⟩
      fresh := fun i b hi hb => by
        have := lt_of_getElem? hb
        omega }
  exact
    { counted := h.counted.replace hmap (h.counted.queue.touch htch) htab
        (fun b _ => by rw [hrefs, hemp]; simp) honce
      free := hpool.free
      caching := hset.caching.trans h.caching
      hashed := h.hashed.congr hsame hhash
      rooted := h.rooted
      tables :=
        tables_insert (fun rid' _ => (h.tables rid').congr (fun b _ => hstay b) fun b _ => hfresh b)
        hlink htab (numCachedOf_insert hcached)
      lists := fun bs' hbs' => by
        obtain ⟨hs, n, hr, hlink⟩ := h.lists bs' hbs'
        exact ⟨hs, n, hr, hlink.congr (fun b _ => hstay b) fun b _ => hfresh b⟩
      later := fun b hb x y hx hcached => by
        -- What is still free was not touched.
        have hnot : ∀ c, c ≠ nullBlock → q.refCnt c = 0 → c ∉ bs ∧ p.refCnt c = 0 := by
          intro c hc hzero
          have h1 := h.refCnt_nonneg hc
          rw [hrefs] at hzero
          exact ⟨count_eq_zero.mp (by omega), by omega⟩
        obtain ⟨hbnull, hblt, hbzero⟩ := hpool.free.mem_iff.mp hb
        obtain ⟨hbnot, hbzero⟩ := hnot b hbnull hbzero
        rw [hsame] at hcached
        obtain ⟨c, hc, hlater⟩ :=
          h.later b (h.free.mem_iff.mpr ⟨hbnull, hset.size ▸ hblt, hbzero⟩) x y hx hcached
        refine ⟨c, hstay c _ hc, ?_⟩
        obtain ⟨hcnull, -⟩ := h.free.cached hc
        have hnonneg := h.refCnt_nonneg hcnull
        by_cases hheld : 0 < q.refCnt c
        · exact .inl hheld
        have hczero : q.refCnt c = 0 := by
          have := hrefs c
          omega
        obtain ⟨hcnot, hczero⟩ := hnot c hcnull hczero
        refine .inr (sublist_touch htch (hlater.resolve_left (by omega)) fun d hd => ?_)
        rcases mem_pair.mp hd with rfl | rfl
        · exact hbnot
        · exact hcnot }

lemma take {n : ℤ} {new : List ℕ} (hn : 0 ≤ n) (hnew : p.getNewBlocks n = .ok (new, q))
    (htab : m'.reqToBlocks = m.reqToBlocks.insert rid (m.blocksOf rid ++ new))
    (hcached : m'.numCachedBlock = m.numCachedBlock) : Chained parent q m' popped hashes := by
  obtain ⟨hmap, hnd, hzero, hrefs⟩ := getNewBlocks_spec h.counted.map hnew
  have hpool := h.pool.getNewBlocks hn hnew
  have hnull := (h.counted.queue.getNewBlocks h.counted.map hnew).2
  have hhash := h.hashed.blockHash_getNewBlocks h.counted.map h.caching hnew
  obtain ⟨htake, hqueue⟩ := getNewBlocks_queue hnew
  have hset := sameSetup_getNewBlocks hnew
  -- Blocks that are held are not taken.
  have hheld : ∀ b, 0 < p.refCnt b → b ∉ new := by
    intro b hb hmem
    have := hzero b hmem
    omega
  have hcnt : ∀ b, b ∉ new → q.refCnt b = p.refCnt b := by
    intro b hb
    rw [hrefs, count_eq_zero_of_not_mem hb]
    omega
  have hstay : ∀ b, 0 < p.refCnt b → ∀ key, b ∈ p.cachedBlockHashToBlock key →
      b ∈ q.cachedBlockHashToBlock key := fun b hb key hmem =>
    (mem_cached_getNewBlocks h.counted.map h.caching hnew).mpr ⟨hmem, hheld b hb⟩
  have hfresh : ∀ b, p.blockHash b = none → p.refCnt b = 1 → q.blockHash b = none ∧
    q.refCnt b = 1 := by
    intro b hnone hone
    have hb := hheld b (by omega)
    rw [hhash, if_neg hb, hcnt b hb]
    exact ⟨hnone, hone⟩
  have hold : ∀ rid', Linked q (hashes rid') (m.blocksOf rid') (m.numCachedOf rid') := fun rid' =>
    (h.tables rid').congr (fun b hb => hstay b (h.held_of_table hb)) fun b _ => hfresh b
  have hlink : Linked q (hashes rid) (m.blocksOf rid ++ new) (m.numCachedOf rid) :=
    { nodup := (h.tables rid).nodup.append hnd fun b hb hmem => hheld b (h.held_of_table hb) hmem
      null := by
        rw [mem_append, not_or]
        exact ⟨(h.tables rid).null, fun hmem => hnull nullBlock hmem rfl⟩
      le := by
        have := (h.tables rid).le
        rw [length_append]
        omega
      cached := fun i b hi hb => by
        rw [getElem?_append_left (hi.trans_le (h.tables rid).le)] at hb
        exact (hold rid).cached i b hi hb
      fresh := fun i b hi hb => by
        by_cases hlt : i < (m.blocksOf rid).length
        · rw [getElem?_append_left hlt] at hb
          exact (hold rid).fresh i b hi hb
        rw [getElem?_append_right (not_lt.mp hlt)] at hb
        have hmem := mem_of_getElem? hb
        rw [hhash, if_pos hmem, hrefs, hzero b hmem, count_eq_one_of_mem hnd hmem]
        exact ⟨rfl, rfl⟩ }
  exact
    { counted := by
        refine h.counted.replace hmap (h.counted.queue.getNewBlocks h.counted.map hnew).1 htab
          (fun b _ => ?_) fun b _ => nodup_iff_count_le_one.mp hlink.nodup b
        rw [hrefs, count_append]
        push_cast
        ring
      free := hpool.free
      caching := hset.caching.trans h.caching
      hashed := hpool.hashes
      rooted := h.rooted
      tables := tables_insert (fun rid' _ => hold rid') hlink htab fun rid' => by
        rw [numCachedOf, hcached]
        split
        next heq => rw [heq]; rfl
        · rfl
      lists := fun bs hbs => by
        obtain ⟨hs, k, hr, hlist⟩ := h.lists bs hbs
        exact ⟨hs, k, hr, hlist.congr (fun b hb => hstay b (h.held_of_list hbs hb)) fun b _ =>
          hfresh b⟩
      later := fun b hb x y hx hmem => by
        obtain ⟨hmem, hbnew⟩ := (mem_cached_getNewBlocks h.counted.map h.caching hnew).mp hmem
        rw [hqueue] at hb ⊢
        obtain ⟨c, hc, hlater⟩ := h.later b (mem_of_mem_drop hb) x y hx hmem
        rcases hlater with hpos | hsub
        · refine ⟨c, hstay c hpos _ hc, .inl ?_⟩
          rw [hcnt c (hheld c hpos)]
          exact hpos
        -- The queue loses its front, and `b` is not there.
        have hdrop : [b, c].Sublist (p.freeBlockQueue.drop n.toNat) := by
          rw [← take_append_drop n.toNat p.freeBlockQueue] at hsub
          obtain ⟨l1, l2, heq, hl1, hl2⟩ := sublist_append_iff.mp hsub
          cases l1 with
          | nil =>
            rw [nil_append] at heq
            rwa [heq]
          | cons d l1 =>
            obtain rfl : b = d := (cons.inj heq).1
            rw [htake] at hbnew
            exact absurd (hl1.subset mem_cons_self) hbnew
        have hcnew : c ∉ new := by
          have hparts := h.free.nodup
          rw [← take_append_drop n.toNat p.freeBlockQueue, nodup_append, ← htake] at hparts
          intro hmem'
          exact hparts.2.2 c hmem' c (hdrop.subset (by simp)) rfl
        exact ⟨c, (mem_cached_getNewBlocks h.counted.map h.caching hnew).mpr ⟨hc, hcnew⟩,
          .inr hdrop⟩ }

omit h

lemma count_add_count_le (m : SingleTypeKVCacheManager) {rid rid' : String} (hne : rid' ≠ rid)
    (b : ℕ) :
    (m.blocksOf rid).count b + (m.blocksOf rid').count b ≤ m.occurrences b := by
  have h1 := Dict.total_erase_add (count b) m.reqToBlocks rid
  have h2 := count_le_occurrences (m.popBlocksForFree rid).2 rid' b
  rw [valueAt_count] at h1
  rw [blocksOf_pop, if_neg hne] at h2
  simp only [occurrences, popBlocksForFree] at h2 ⊢
  omega

section

variable (h : Chained parent p m popped hashes)
include h

lemma alone (hone : p.refCnt b = 1) (hb : b ∈ m.blocksOf rid) :
    (∀ rid' ≠ rid, b ∉ m.blocksOf rid') ∧ ∀ bs ∈ popped, b ∉ bs := by
  have hnull : b ≠ nullBlock := fun hb' => (h.tables rid).null (hb' ▸ hb)
  have hrefs := h.counted.refs b hnull
  have h1 := count_pos_iff.mpr hb
  refine ⟨fun rid' hne hb' => ?_, fun bs hbs hb' => ?_⟩
  · have h2 := count_pos_iff.mpr hb'
    have h3 := count_add_count_le m hne b
    omega
  have h2 := count_pos_iff.mpr hb'
  have h3 := count_le_occurrences m rid b
  have h4 : bs.count b ≤ heldIn popped b := single_le_sum (by simp) _ (mem_map_of_mem hbs)
  omega

lemma cache {env : HashEnv} {r : Request} {numFull : ℕ}
    (hsize : m.blockSize = p.hashBlockSize) (hgid : m.kvCacheGroupId = 0)
    (hr : hashes r.requestId = r.blockHashes) (hlt : m.numCachedOf r.requestId < numFull)
    (hle : numFull ≤ (m.blocksOf r.requestId).length)
    (hcache : p.cacheFullBlocks env r (m.blocksOf r.requestId) (m.numCachedOf r.requestId) numFull
      m.blockSize m.kvCacheGroupId none = .ok q)
    (htab : m'.reqToBlocks = m.reqToBlocks.insert r.requestId (m.blocksOf r.requestId))
    (hcached : m'.numCachedBlock = m.numCachedBlock.insert r.requestId numFull) :
    Chained parent q m' popped hashes := by
  obtain ⟨hmap, hrefs⟩ := cacheFullBlocks_spec h.counted.map hcache
  have hhash : ∀ b, _ → q.blockHash b = p.blockHash b := fun b => blockHash_cacheFullBlocks hcache
  obtain ⟨hs, hhs, hiff⟩ := mem_cached_cacheFullBlocks hlt hcache
  rw [blockHashesAt, if_pos hsize] at hhs
  cases hhs
  have hset := sameQueue_cacheFullBlocks hcache
  have hqueue := hset.queue
  have hcovered : numFull ≤ r.blockHashes.length := by
    unfold cacheFullBlocks at hcache
    rw [if_neg (not_le.mpr hlt)] at hcache
    obtain ⟨_, hlen, -⟩ := of_bind hcache
    exact of_pyAssert hlen
  have hstay : ∀ b key, b ∈ p.cachedBlockHashToBlock key → b ∈ q.cachedBlockHashToBlock key :=
    fun b key hb => hiff.mpr (.inl hb)
  have hslice : ∀ b, b ∈ slice (m.blocksOf r.requestId) (m.numCachedOf r.requestId) numFull →
      b ∈ m.blocksOf r.requestId ∧ p.refCnt b = 1 := by
    intro b hb
    obtain ⟨i, hi⟩ := mem_iff_getElem?.mp hb
    rw [slice, getElem?_drop, getElem?_take] at hi
    split at hi
    · exact ⟨mem_of_getElem? hi, ((h.tables r.requestId).fresh _ b (Nat.le_add_right _ _) hi).2⟩
    · cases hi
  have hfresh : ∀ b, b ∉ slice (m.blocksOf r.requestId) (m.numCachedOf r.requestId) numFull →
      p.blockHash b = none → p.refCnt b = 1 → q.blockHash b = none ∧ q.refCnt b = 1 := by
    intro b hb hnone hone
    rw [hhash b hb, hrefs]
    exact ⟨hnone, hone⟩
  have hlink : Linked q (hashes r.requestId) (m.blocksOf r.requestId) numFull :=
    { nodup := (h.tables r.requestId).nodup
      null := (h.tables r.requestId).null
      le := hle
      cached := fun i b hi hb => by
        by_cases hold : i < m.numCachedOf r.requestId
        · obtain ⟨x, hx, hmem⟩ := (h.tables r.requestId).cached i b hold hb
          exact ⟨x, hx, hstay b _ hmem⟩
        have hget : r.blockHashes[i]? = some r.blockHashes[i] := getElem?_eq_getElem (by omega)
        refine ⟨r.blockHashes[i], by rw [hr, hget], hiff.mpr (.inr ?_)⟩
        refine ⟨i, _, not_lt.mp hold, hi, hb, hget, rfl, fun hnull => ?_, by rw [hgid]; rfl⟩
        exact (h.tables r.requestId).null (hnull ▸ mem_of_getElem? hb)
      fresh := fun i b hi hb => by
        obtain ⟨hnone, hone⟩ := (h.tables r.requestId).fresh i b (by omega) hb
        refine hfresh b (fun hmem => ?_) hnone hone
        -- The table lists `b` once, and here it is at `i`.
        obtain ⟨j, hj⟩ := mem_iff_getElem?.mp hmem
        rw [slice, getElem?_drop, getElem?_take] at hj
        split at hj
        next hjlt =>
          have := (getElem?_inj (lt_of_getElem? hb) (h.tables r.requestId).nodup).mp
            (hb.trans hj.symm)
          omega
        · cases hj }
  exact
    { counted := h.counted.replace hmap (h.counted.queue.congr hqueue hrefs) htab
        (fun b _ => by rw [hrefs]) (h.counted.once r.requestId)
      free := by
        refine h.free.cacheFullBlocks h.counted.map (fun b hb hnull => ?_) hcache
        by_contra hge
        have := h.free.outside hnull (not_lt.mp hge)
        have := h.held_of_table hb
        omega
      caching := hset.caching.trans h.caching
      hashed := h.hashed.cacheFullBlocks hcache
      rooted := h.rooted
      tables := by
        refine tables_insert (fun rid' hne => ?_) hlink htab (numCachedOf_insert hcached)
        refine (h.tables rid').congr (fun b _ => hstay b) fun b hb hnone hone => ?_
        refine hfresh b (fun hmem => ?_) hnone hone
        exact (h.alone hone (hslice b hmem).1).1 rid' hne hb
      lists := fun bs hbs => by
        obtain ⟨hs, k, hroot, hlist⟩ := h.lists bs hbs
        refine ⟨hs, k, hroot, hlist.congr (fun b _ => hstay b) fun b hb hnone hone => ?_⟩
        refine hfresh b (fun hmem => ?_) hnone hone
        exact (h.alone hone (hslice b hmem).1).2 bs hbs hb
      later := fun b hb x y hx hmem => by
        rw [hqueue] at hb ⊢
        have hold : b ∈ p.cachedBlockHashToBlock (groupKey x) := by
          rcases hiff.mp hmem with hold | ⟨i, _, -, -, hi, -⟩
          · exact hold
          -- A block of a table is not free.
          have h1 := h.held_of_table (mem_of_getElem? hi)
          have h2 := (h.counted.queue.free b hb).2
          omega
        obtain ⟨c, hc, hlater⟩ := h.later b hb x y hx hold
        exact ⟨c, hstay c _ hc, by rw [hrefs]; exact hlater⟩ }

lemma pop (rid : String) :
    Chained parent p (m.popBlocksForFree rid).2 (m.blocksOf rid :: popped) (update hashes rid [])
    where
  counted := by
    have hpop := h.counted.pop rid
    have heq : (fun b => heldIn popped b + (m.blocksOf rid).count b) =
      heldIn (m.blocksOf rid :: popped) := by
      funext b
      simp only [heldIn, map_cons, sum_cons]
      omega
    rwa [heq] at hpop
  __ := h
  rooted rid' := by
    by_cases hrid : rid' = rid
    · rw [hrid, update_self]
      exact rooted_nil parent
    · rw [update_of_ne hrid]
      exact h.rooted rid'
  tables rid' := by
    rw [blocksOf_pop]
    by_cases hrid : rid' = rid
    · have hcnt : (m.popBlocksForFree rid).2.numCachedOf rid' = 0 := by
        rw [hrid, numCachedOf, popBlocksForFree, AList.lookup_erase]
        rfl
      rw [if_pos hrid, hcnt]
      exact .nil p _
    have hcnt : (m.popBlocksForFree rid).2.numCachedOf rid' = m.numCachedOf rid' := by
      rw [numCachedOf, popBlocksForFree, AList.lookup_erase_ne hrid]
      rfl
    rw [if_neg hrid, hcnt, update_of_ne hrid]
    exact h.tables rid'
  lists bs hbs := by
    rcases mem_cons.mp hbs with rfl | hbs
    · exact ⟨hashes rid, m.numCachedOf rid, h.rooted rid, h.tables rid⟩
    · exact h.lists bs hbs

end

lemma pair_sublist {l : List ℕ} {j b c : ℕ} (hc : l[j]? = some c) (hb : l[j + 1]? = some b) :
    [c, b].Sublist l := by
  induction l generalizing j with
  | nil => cases hc
  | cons d l ih =>
    cases j with
    | zero =>
      obtain rfl : d = c := by simpa using hc
      have hb : l[0]? = some b := hb
      exact (singleton_sublist.mpr (mem_of_getElem? hb)).cons_cons d
    | succ j => exact (ih hc hb).cons d

include h

lemma freePopped {i : ℕ} (hi : popped[i]? = some bs) :
    Chained parent (p.freeBlocks bs.reverse) m (popped.eraseIdx i) hashes := by
  have hbs := mem_of_getElem? hi
  obtain ⟨hs, n, hroot, hlist⟩ := h.lists bs hbs
  obtain ⟨hset, hsame, hhash, -⟩ := sameCached_freeBlocks p bs.reverse
  obtain ⟨hmap, hrefs⟩ := freeBlocks_spec bs.reverse h.counted.map
  have hcounted : Counted p m fun b => heldIn (popped.eraseIdx i) b + bs.reverse.count b := by
    have heq : heldIn popped = fun b => heldIn (popped.eraseIdx i) b + bs.reverse.count b := by
      funext b
      rw [heldIn_eraseIdx hi, count_reverse]
    rw [← heq]
    exact h.counted
  have hstay : ∀ b key, b ∈ p.cachedBlockHashToBlock key →
      b ∈ (p.freeBlocks bs.reverse).cachedBlockHashToBlock key := by
    intro b key hb
    rwa [hsame]
  -- A block with one reference is in no second list.
  have hkeep : ∀ b, b ≠ nullBlock → 0 < m.occurrences b + heldIn (popped.eraseIdx i) b →
      p.blockHash b = none → p.refCnt b = 1 →
      (p.freeBlocks bs.reverse).blockHash b = none ∧ (p.freeBlocks bs.reverse).refCnt b = 1 := by
    intro b hnull hpos hnone hone
    have := hcounted.refs b hnull
    rw [hhash, hrefs]
    exact ⟨hnone, by omega⟩
  have hwith := releaseBlocks_withHash (p := p) (nodup_reverse.mpr hlist.nodup)
  have hqueue := queue_freeBlocks p bs.reverse
  exact
    { counted := hcounted.freeBlocks
      free := by
        refine h.free.freeBlocks h.counted.map fun b hb => ?_
        have := hcounted.refs b hb
        omega
      caching := hset.caching.trans h.caching
      hashed := h.hashed.congr hsame hhash
      rooted := h.rooted
      tables := fun rid => (h.tables rid).congr (fun b _ => hstay b) fun b hb => by
        apply hkeep b fun hnull => (h.tables rid).null (hnull ▸ hb)
        have h1 := count_pos_iff.mpr hb
        have h2 := count_le_occurrences m rid b
        omega
      lists := fun bs' hbs' => by
        obtain ⟨hs', n', hroot', hlist'⟩ := h.lists bs' (mem_of_mem_eraseIdx hbs')
        refine ⟨hs', n', hroot', hlist'.congr (fun b _ => hstay b) fun b hb => ?_⟩
        apply hkeep b fun hnull => hlist'.null (hnull ▸ hb)
        have h1 := count_pos_iff.mpr hb
        have h2 : bs'.count b ≤ heldIn (popped.eraseIdx i) b :=
          single_le_sum (by simp) _ (mem_map_of_mem hbs')
        omega
      later := fun b hb x y hx hmem => by
        rw [hsame] at hmem ⊢
        have hbhash := h.counted.map.keyed hmem
        -- A cached block is free afterwards if it has one reference and is in the list.
        have hreleased : ∀ c ∈ p.cachedBlockHashToBlock (groupKey y),
            (p.freeBlocks bs.reverse).refCnt c ≤ 0 → 0 < p.refCnt c →
            c ∈ bs ∧ p.refCnt c = 1 ∧ c ∈ (releaseBlocks bs.reverse p).2.2 := by
          intro c hc hzero hpos
          have hnull := (h.free.cached hc).1
          have hcnt := nodup_iff_count_le_one.mp hlist.nodup c
          rw [hrefs, count_reverse] at hzero
          have hc1 : bs.count c = 1 := by omega
          have hmem : c ∈ bs := count_pos_iff.mp (by omega)
          refine ⟨hmem, by omega, ?_⟩
          rw [hwith, mem_filter]
          refine ⟨mem_reverse.mpr hmem, decide_eq_true ⟨by omega, hnull, ?_⟩⟩
          rw [h.counted.map.keyed hc]
          simp
        rw [hqueue] at hb
        rcases mem_append.mp hb with hb | hb
        · rcases mem_append.mp hb with hb | hb
          · rw [releaseBlocks_withoutHash hb] at hbhash
            cases hbhash
          obtain ⟨c, hc, hlater⟩ := h.later b hb x y hx hmem
          refine ⟨c, hc, ?_⟩
          rw [hqueue, append_assoc]
          by_cases hheld : 0 < (p.freeBlocks bs.reverse).refCnt c
          · exact .inl hheld
          refine .inr (Sublist.trans ?_ (sublist_append_right _ _))
          rcases hlater with hpos | hsub
          · obtain ⟨-, -, hnew⟩ := hreleased c hc (not_lt.mp hheld) hpos
            exact (singleton_sublist.mpr hb).append (singleton_sublist.mpr hnew)
          · exact hsub.trans (sublist_append_left _ _)
        -- The block before it in the list is freed after it.
        have hb' := hb
        rw [hwith, mem_filter, mem_reverse] at hb'
        obtain ⟨hbmem, hbfree⟩ := hb'
        obtain ⟨k, hk⟩ := mem_iff_getElem?.mp hbmem
        obtain ⟨j, c, rfl, hj, hc⟩ := hlist.before h.counted.map hroot hk hmem hx
        refine ⟨c, hc, ?_⟩
        by_cases hheld : 0 < (p.freeBlocks bs.reverse).refCnt c
        · exact .inl hheld
        have hpos := h.held_of_list hbs (mem_of_getElem? hj)
        obtain ⟨-, hone, hnew⟩ := hreleased c hc (not_lt.mp hheld) hpos
        have hpair : [b, c].Sublist bs.reverse := by
          rw [← reverse_sublist, reverse_reverse]
          exact pair_sublist hj hk
        have hfilter := hpair.filter fun d => p.refCnt d = 1 ∧ d ≠ nullBlock ∧ p.blockHash d ≠ none
        rw [← hwith, filter_eq_self.mpr] at hfilter
        · rw [hqueue]
          exact .inr (hfilter.trans (sublist_append_right _ _))
        intro d hd
        rw [hwith, mem_filter] at hnew
        rcases mem_pair.mp hd with rfl | rfl
        · exact hbfree
        · exact hnew.2 }

lemma setSame (htab : m'.reqToBlocks = m.reqToBlocks.insert rid (m.blocksOf rid))
    (hcached : m'.numCachedBlock = m.numCachedBlock) : Chained parent p m' popped hashes where
  counted :=
    h.counted.replace h.counted.map h.counted.queue htab (fun _ _ => rfl) (h.counted.once rid)
  __ := h
  tables := tables_insert (fun rid' _ => h.tables rid') (h.tables rid) htab fun rid' => by
    rw [numCachedOf, hcached]
    split
    next heq => rw [heq]; rfl
    · rfl

omit h

lemma refCnt_eq_zero_of_unused (hfree : p.FreeOk)
    (hfew : (p.numGpuBlocks : ℤ) - p.numFreeBlocks = 1) (hb : b ≠ nullBlock) : p.refCnt b = 0 := by
  by_contra hheld
  have hlt : b < p.numGpuBlocks := by
    by_contra hge
    exact hheld (hfree.outside hb (not_lt.mp hge))
  have hnull : nullBlock ∉ p.freeBlockQueue := fun hmem => (hfree.mem_iff.mp hmem).1 rfl
  have hnot : b ∉ p.freeBlockQueue := fun hmem => hheld (hfree.mem_iff.mp hmem).2.2
  have hall : (nullBlock :: b :: p.freeBlockQueue).Nodup :=
    nodup_cons.mpr ⟨by simp [hnull, hb.symm], nodup_cons.mpr ⟨hnot, hfree.nodup⟩⟩
  have hsub : (nullBlock :: b :: p.freeBlockQueue) ⊆ range p.numGpuBlocks := by
    intro c hc
    rw [mem_range]
    rcases mem_cons.mp hc with rfl | hc
    · exact Nat.zero_lt_of_lt hlt
    rcases mem_cons.mp hc with rfl | hc
    · exact hlt
    · exact (hfree.mem_iff.mp hc).2.1
  have hlen := (subperm_of_subset hall hsub).length_le
  have hcnt := hfree.count
  simp only [length_cons, length_range] at hlen
  omega

include h in
lemma reset : Chained parent p.resetPrefixCache.2 m popped hashes := by
  by_cases hfew : (p.numGpuBlocks : ℤ) - p.numFreeBlocks = 1
  · have hzero : ∀ b, b ≠ nullBlock → p.refCnt b = 0 :=
      fun b hb => refCnt_eq_zero_of_unused h.free hfew hb
    have htables : ∀ rid, m.blocksOf rid = [] := by
      intro rid
      refine eq_nil_iff_forall_not_mem.mpr fun b hb => ?_
      have h1 := h.held_of_table hb
      have h2 := hzero b fun hnull => (h.tables rid).null (hnull ▸ hb)
      omega
    have hlists : ∀ bs ∈ popped, bs = [] := by
      intro bs hbs
      obtain ⟨hs, n, -, hlist⟩ := h.lists bs hbs
      refine eq_nil_iff_forall_not_mem.mpr fun b hb => ?_
      have h1 := h.held_of_list hbs hb
      have h2 := hzero b fun hnull => hlist.null (hnull ▸ hb)
      omega
    have hcached : ∀ key, p.resetPrefixCache.2.cachedBlockHashToBlock key = [] := by
      intro key
      rw [resetPrefixCache, if_neg (not_not.mpr hfew)]
      exact congrFun (cached_emit _ _) key
    have hrefs := refCnt_reset p
    exact
      { counted := ⟨h.counted.map.reset, h.counted.queue.reset,
          fun b hb => (hrefs b).trans (h.counted.refs b hb), h.counted.once⟩
        free := h.free.reset
        caching := (sameQueue_reset p).caching.trans h.caching
        hashed := h.hashed.reset
        rooted := h.rooted
        tables := fun rid => by
          have hle := (h.tables rid).le
          rw [htables rid] at hle ⊢
          rw [Nat.le_zero.mp hle]
          exact .nil _ _
        lists := fun bs hbs => by
          rw [hlists bs hbs]
          exact ⟨[], 0, rooted_nil parent, .nil _ _⟩
        later := fun b _ x y _ hmem => by
          rw [hcached] at hmem
          cases hmem }
  · rw [resetPrefixCache, if_pos hfew]
    exact h

end Chained

end Vllm
