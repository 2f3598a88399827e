import Vllm.Offload.PolicyProof
import Mathlib.Data.List.Count

/-! # Slots and reference counts of the CPU offloading manager -/

namespace Vllm.Offload

open List Function CPUManager CachePolicy

variable {κ : Type} [DecidableEq κ]

lemma cInt32_of_natCast {n : ℕ} (h : n < 2 ^ 31) :
    cInt32 n = n := by rw [cInt32, Int.bmod_eq_of_le] <;> omega

variable {k : κ}

lemma mem_erase_of_cons {ks l : List κ} (hnot : k ∉ ks) (h : ∀ k' ∈ k :: ks, k' ∈ l) :
    ∀ k' ∈ ks, k' ∈ l.erase k := by
  intro k' hk'
  have hne : k' ≠ k := fun heq => hnot (heq ▸ hk')
  exact (mem_erase_of_ne hne).mpr (h k' (mem_cons_of_mem k hk'))

lemma map_eq_map_iff_zip {α β γ : Type*} {l : List α} {l' : List β} {g : α → γ} {g' : β → γ} :
    l.map g = l'.map g' ↔ l.length = l'.length ∧ ∀ {a b}, (a, b) ∈ l.zip l' → g a = g' b := by
  rw [← forall₂_eq_eq_eq, forall₂_map_left_iff, forall₂_map_right_iff, forall₂_iff_zip]

/-- The block that holds the key. -/
def CPUManager.slotOf (m : CPUManager κ) (k : κ) : Option ℕ := (m.policy.get k).map (·.blockId)

variable {f : BlockStatus → BlockStatus}

/-- The call neither told an event nor changed where a key is stored. -/
structure CPUManager.Keeps (m m' : CPUManager κ) : Prop where
  events : m'.events = m.events
  slots : ∀ k, m'.slotOf k = m.slotOf k

lemma CPUManager.Keeps.trans {m1 m2 m3 : CPUManager κ} (h : Keeps m1 m2) (h' : Keeps m2 m3) :
    Keeps m1 m3 :=
  ⟨h'.events.trans h.events, fun k => (h'.slots k).trans (h.slots k)⟩

lemma CPUManager.keeps_modify {m m' : CPUManager κ} (hevents : m'.events = m.events)
    (hpol : m'.policy = m.policy.modify k f) (hf : ∀ b, (f b).blockId = b.blockId) :
    Keeps m m' := by
  refine ⟨hevents, fun k' => ?_⟩
  rw [slotOf, hpol, get_modify, Option.map_map]
  congr 1
  funext b
  split
  · exact hf b
  · rfl

lemma CPUManager.mem_of_slotOf {m : CPUManager κ} {i : ℕ} (hv : m.policy.Valid)
    (h : m.slotOf k = some i) : k ∈ m.policy.blocks.map Prod.fst := by
  obtain ⟨b, hget, -⟩ := Option.map_eq_some_iff.mp h
  exact mem_map_of_mem ((get_eq_some_iff hv).mp hget)

lemma CPUManager.slotOf_of_append {m : CPUManager κ} {p : CachePolicy κ}
    {l : List (κ × BlockStatus)}
    (hv : m.policy.Valid) (hperm : m.policy.blocks.Perm (l ++ p.blocks)) (k : κ) :
    (p.get k).map (·.blockId) = if k ∈ l.map Prod.fst then none else m.slotOf k := by
  have hv' := (hperm.map Prod.fst).nodup_iff.mp hv
  rw [map_append, nodup_append] at hv'
  split_ifs with hk
  · rw [(get_eq_none_iff hv'.2.1).mpr fun hk' => hv'.2.2 k hk k hk' rfl]
    rfl
  · exact congrArg _ (get_of_append hv hperm hk)

/-! ## The invariant -/

def countOf (storing loads : List κ) (k : κ) : ℤ := if k ∈ storing then -1 else (loads.count k : ℤ)

/-- The entries have the slots up to `allocated` that are not in `free`, and the reference counts
`c`. -/
structure Books (es : List (κ × BlockStatus)) (free : List ℕ) (allocated : ℕ) (evictable : ℤ)
    (c : κ → ℤ) : Prop where
  nodup : (es.map Prod.fst).Nodup
  ids : (es.map (·.2.blockId) ++ free).Perm (List.range allocated)
  evictable : evictable = es.countP (·.2.refCnt = 0)
  refs : ∀ e ∈ es, e.2.refCnt = c e.1
  resident : ∀ k, c k ≠ 0 → k ∈ es.map Prod.fst

section books

variable {es es' new : List (κ × BlockStatus)} {free free' : List ℕ} {a : ℕ} {n : ℤ} {c : κ → ℤ}
  {k : κ} {b : BlockStatus}
variable {storing storing' loads loads' : List κ}

lemma countOf_eq_update (hstoring : ∀ k', k' ≠ k → (k' ∈ storing' ↔ k' ∈ storing))
    (hloads : ∀ k', k' ≠ k → loads'.count k' = loads.count k') :
    countOf storing' loads' = update (countOf storing loads) k (countOf storing' loads' k) := by
  funext k'
  rcases eq_or_ne k' k with rfl | hne
  · rw [update_self]
  rw [update_of_ne hne, countOf, countOf, hloads k' hne]
  simp only [hstoring k' hne]

omit [DecidableEq κ] in
lemma Books.perm (h : Books es free a n c) (hes : es'.Perm es) (hfree : free'.Perm free) :
    Books es' free' a n c where
  nodup := (hes.map Prod.fst).nodup_iff.mpr h.nodup
  ids := ((hes.map _).append hfree).trans h.ids
  evictable := by rw [h.evictable, hes.countP_eq]
  refs e he := h.refs e (hes.mem_iff.mp he)
  resident k hk := (hes.map Prod.fst).mem_iff.mpr (h.resident k hk)

lemma Books.remove (h : Books ((k, b) :: es) free a n c) :
    Books es (free ++ [b.blockId]) a (n - if b.refCnt = 0 then 1 else 0) (update c k 0) := by
  obtain ⟨hk, hnd⟩ := nodup_cons.mp h.nodup
  refine ⟨hnd, ?_, ?_, fun e he => ?_, fun k' hk' => ?_⟩
  · rw [← append_assoc]
    exact (perm_append_singleton _ _).trans h.ids
  · rw [h.evictable, countP_cons]
    simp
  · have hne : e.1 ≠ k := fun heq => hk (mem_map.mpr ⟨e, he, heq⟩)
    rw [update_of_ne hne]
    exact h.refs e (mem_cons_of_mem _ he)
  have hne : k' ≠ k := fun heq => hk' (by rw [heq, update_self])
  rw [update_of_ne hne] at hk'
  exact (mem_cons.mp (h.resident k' hk')).resolve_left hne

lemma Books.insert (h : Books es (b.blockId :: free) a n c) (hk : k ∉ es.map Prod.fst) :
    Books ((k, b) :: es) free a (n + if b.refCnt = 0 then 1 else 0) (update c k b.refCnt) := by
  refine ⟨nodup_cons.mpr ⟨hk, h.nodup⟩, perm_middle.symm.trans h.ids, ?_, fun e he => ?_,
    fun k' hk' => ?_⟩
  · rw [h.evictable, countP_cons]
    simp
  · rcases mem_cons.mp he with rfl | he
    · rw [update_self]
    have hne : e.1 ≠ k := fun heq => hk (mem_map.mpr ⟨e, he, heq⟩)
    rw [update_of_ne hne]
    exact h.refs e he
  rcases eq_or_ne k' k with rfl | hne
  · exact mem_cons_self
  rw [update_of_ne hne] at hk'
  exact mem_cons_of_mem _ (h.resident k' hk')

lemma Books.removeAll {evicted : List (κ × BlockStatus)} (h : Books (evicted ++ es) free a n c)
    (hzero : ∀ e ∈ evicted, e.2.refCnt = 0) :
    Books es (free ++ evicted.map (·.2.blockId)) a (n - evicted.length) c := by
  induction evicted generalizing free n with
  | nil => simpa using h
  | cons e evicted ih =>
    have hc : c e.1 = 0 := (h.refs e mem_cons_self).symm.trans (hzero e mem_cons_self)
    have hrest := Books.remove h
    rw [if_pos (hzero e mem_cons_self), update_eq_self_iff.mpr hc.symm] at hrest
    have h' := ih hrest (forall_mem_cons.mp hzero).2
    rwa [append_assoc, sub_sub, ← Nat.cast_one, ← Nat.cast_add, Nat.add_comm] at h'

lemma Books.insertAll (h : Books es (new.map (·.2.blockId) ++ free) a n (countOf storing loads))
    (hnd : (new.map Prod.fst).Nodup) (hnew : ∀ e ∈ new, e.1 ∉ es.map Prod.fst)
    (hrefs : ∀ e ∈ new, e.2.refCnt = -1) :
    Books (new ++ es) free a n (countOf (new.map Prod.fst ++ storing) loads) := by
  induction new generalizing free with
  | nil => exact h
  | cons e new ih =>
    obtain ⟨hk, hnd⟩ := nodup_cons.mp hnd
    have hrest := ih (h.perm (.refl _) perm_middle) hnd (forall_mem_cons.mp hnew).2
      (forall_mem_cons.mp hrefs).2
    have hk' : e.1 ∉ (new ++ es).map Prod.fst := by
      rw [map_append, mem_append, not_or]
      exact ⟨hk, hnew e mem_cons_self⟩
    have h' := hrest.insert hk'
    have href : e.2.refCnt = countOf (e.1 :: (new.map Prod.fst ++ storing)) loads e.1 := by
      rw [hrefs e mem_cons_self, countOf, if_pos mem_cons_self]
    rw [if_neg (by rw [hrefs e mem_cons_self]; decide), add_zero, href,
      ← countOf_eq_update (fun k' hne => by simp [hne]) fun _ _ => rfl] at h'
    exact h'

end books

/-- The keys `storing` are being stored and `loads` lists the outstanding loads. -/
structure Accounted (m : CPUManager κ) (storing loads : List κ) : Prop where
  books :
    Books m.policy.blocks m.freeList m.numAllocatedBlocks m.numEvictableCacheBlocks
    (countOf storing loads)
  allocated : m.numAllocatedBlocks ≤ m.numBlocks
  storing_nodup : storing.Nodup
  apart : ∀ k ∈ loads, k ∉ storing
  few : ∀ k, loads.count k < 2 ^ 31

namespace Accounted

variable {m m' : CPUManager κ} {storing loads : List κ} {k : κ}
variable {ks : List κ} {p : CachePolicy κ} {evicted : List (κ × BlockStatus)}
  (h : Accounted m storing loads)

include h in
lemma valid : m.policy.Valid := h.books.nodup

lemma countOf_ne_zero (hk : k ∈ storing ∨ k ∈ loads) : countOf storing loads k ≠ 0 := by
  unfold countOf
  split_ifs with hs
  · decide
  have := count_pos_iff.mpr (hk.resolve_left hs)
  omega

section

variable (h : Accounted m storing loads)
include h

lemma resident (hk : k ∈ storing ∨ k ∈ loads) : k ∈ m.policy.blocks.map Prod.fst :=
  h.books.resident k (countOf_ne_zero hk)

variable (hk : k ∈ m.policy.blocks.map Prod.fst)

include hk in
lemma get_of_resident :
    ∃ b, m.policy.get k = some b ∧ b.refCnt = if k ∈ storing then -1 else (loads.count k : ℤ) := by
  obtain ⟨⟨k, b⟩, he, rfl⟩ := mem_map.mp hk
  exact ⟨b, (get_eq_some_iff h.valid).mpr he, h.books.refs (k, b) he⟩

lemma change {b : BlockStatus} {n evictable : ℤ} {storing' loads' : List κ}
    (hget : m.policy.get k = some b) (hf : f b = { b with refCnt := n })
    (hevictable : evictable = m.numEvictableCacheBlocks - (if b.refCnt = 0 then 1 else 0) + if n =
      0 then 1 else 0)
    (hn : n = if k ∈ storing' then -1 else (loads'.count k : ℤ))
    (hstoring : ∀ k', k' ≠ k → (k' ∈ storing' ↔ k' ∈ storing))
    (hloads : ∀ k', k' ≠ k → loads'.count k' = loads.count k')
    (hnd : storing'.Nodup) (hnot : k ∈ loads' → k ∉ storing') (hfew : loads'.count k < 2 ^ 31) :
    Accounted { m with policy := m.policy.modify k f, numEvictableCacheBlocks := evictable }
      storing' loads' := by
  obtain rfl : n = countOf storing' loads' k := hn
  obtain ⟨rest, hperm, hmodify, -⟩ := exists_rest h.valid hget
  have hbooks := h.books.perm hperm.symm (.refl _)
  have hk : k ∉ rest.map Prod.fst := (nodup_cons.mp hbooks.nodup).1
  have hnew := (hbooks.remove.perm (.refl _) (perm_append_singleton _ _).symm).insert
    (b := { b with refCnt := countOf storing' loads' k }) hk
  rw [update_idem, ← countOf_eq_update hstoring hloads] at hnew
  refine ⟨?_, h.allocated, hnd, fun k' hk' => ?_, fun k' => ?_⟩
  · rw [hevictable]
    refine hnew.perm ((hmodify f).trans ?_) (.refl _)
    rw [hf]
  · rcases eq_or_ne k' k with rfl | hne
    · exact hnot hk'
    rw [hstoring k' hne]
    exact h.apart k' (count_pos_iff.mp (by rw [← hloads k' hne]; exact count_pos_iff.mpr hk'))
  rcases eq_or_ne k' k with rfl | hne
  · exact hfew
  rw [hloads k' hne]
  exact h.few k'

/-! ## Loads -/

include hk in
lemma prepareLoadKey (hnot : k ∉ storing) (hfew : loads.count k + 1 < 2 ^ 31) :
    ∃ b m', m.prepareLoadKey k = .ok (b, m') ∧ Accounted m' storing (k :: loads) ∧
      m'.policy.blocks.map Prod.fst = m.policy.blocks.map Prod.fst ∧
      m.slotOf k = some b.blockId ∧ Keeps m m' := by
  obtain ⟨b, hget, hrefs⟩ := h.get_of_resident hk
  rw [if_neg hnot] at hrefs
  have hready : b.isReady = true := decide_eq_true (by omega)
  have hpos : b.refCnt = 0 → 0 < m.numEvictableCacheBlocks := by
    intro hzero
    have hcnt : 0 < m.policy.blocks.countP (·.2.refCnt = 0) :=
      countP_pos_iff.mpr ⟨(k, b), (get_eq_some_iff h.valid).mp hget, decide_eq_true hzero⟩
    rw [h.books.evictable]
    exact_mod_cast hcnt
  have hassert : decide (b.refCnt ≠ 0 ∨ (if b.refCnt = 0 then m.numEvictableCacheBlocks - 1
      else m.numEvictableCacheBlocks) ≥ 0) = true := by
    refine decide_eq_true ?_
    by_cases hzero : b.refCnt = 0
    · exact .inr (by have := hpos hzero; omega)
    · exact .inl hzero
  have hwrap : cInt32 (b.refCnt + 1) = ((k :: loads).count k : ℤ) := by
    rw [hrefs, count_cons_self]
    exact cInt32_of_natCast hfew
  refine ⟨b, { m with
    numEvictableCacheBlocks :=
      if b.refCnt = 0 then m.numEvictableCacheBlocks - 1 else m.numEvictableCacheBlocks
    policy := m.policy.modify k fun c => c.setRefCnt (c.refCnt + 1) }, ?_, ?_, keys_modify _ _ _,
    by rw [slotOf, hget]; rfl, keeps_modify rfl rfl fun _ => rfl⟩
  · rw [CPUManager.prepareLoadKey, hget]
    dsimp only
    rw [pyAssert_of hready, ok_bind, pyAssert_of hassert, ok_bind]
  refine h.change hget rfl ?_ ?_ (fun _ _ => .rfl) (fun k' hne => ?_) h.storing_nodup (fun _ =>
    hnot) ?_
  · have hne : cInt32 (b.refCnt + 1) ≠ 0 := by
      rw [hwrap, count_cons_self]
      omega
    split <;> omega
  · rw [if_neg hnot]
    exact hwrap
  · exact count_cons_of_ne (Ne.symm hne)
  · rw [count_cons_self]
    exact hfew

lemma prepareLoad_cases (hnd : ks.Nodup) (hfew : ∀ k ∈ ks, loads.count k + 1 < 2 ^ 31) :
    (∃ spec m', prepareLoad ks m = .ok (spec, m') ∧ Accounted m' storing (ks.reverse ++ loads) ∧
      m'.policy.blocks.map Prod.fst = m.policy.blocks.map Prod.fst ∧
      ks.map m.slotOf = spec.map some ∧ Keeps m m') ∨
    (∃ k ∈ ks, k ∈ m.policy.blocks.map Prod.fst → k ∈ storing) ∧
      (prepareLoad ks m = .error (.assertionError "Block not found in cache") ∨
        prepareLoad ks m = .error (.assertionError "Block is not ready for reading")) := by
  induction ks generalizing m loads with
  | nil => exact .inl ⟨[], m, rfl, h, rfl, rfl, rfl, fun _ => rfl⟩
  | cons k ks ih =>
    rw [nodup_cons] at hnd
    by_cases hk : k ∈ m.policy.blocks.map Prod.fst
    · by_cases hnot : k ∈ storing
      · obtain ⟨b, hget, hrefs⟩ := h.get_of_resident hk
        rw [if_pos hnot] at hrefs
        have hready : b.isReady = false := decide_eq_false (by omega)
        refine .inr ⟨⟨k, mem_cons_self, fun _ => hnot⟩, .inr ?_⟩
        rw [CPUManager.prepareLoad, CPUManager.prepareLoadKey, hget]
        dsimp only
        rw [hready]
        rfl
      obtain ⟨b, m1, hrun, h1, hkeys, hslot, hkeeps⟩ :=
        h.prepareLoadKey hk hnot (hfew k mem_cons_self)
      rw [prepareLoad, hrun, ok_bind]
      dsimp only
      rcases ih h1 hnd.2 fun k' hk' => by
        have hne : k ≠ k' := fun heq => hnd.1 (heq ▸ hk')
        rw [count_cons_of_ne hne]
        exact hfew k' (mem_cons_of_mem k hk') with
        ⟨spec, m', hrest, h', hkeys', hspec, hkeeps'⟩ | ⟨⟨k', hk', hbad⟩, herr⟩
      · refine .inl ⟨b.blockId :: spec, m', by rw [hrest, ok_bind], ?_, hkeys'.trans hkeys, ?_,
          hkeeps.trans hkeeps'⟩
        · rw [reverse_cons, append_assoc]
          exact h'
        · rw [map_cons, map_cons, hslot, ← hspec, funext hkeeps.slots]
      · refine .inr ⟨⟨k', mem_cons_of_mem _ hk', hkeys ▸ hbad⟩, herr.imp ?_ ?_⟩ <;>
          exact fun herr => by rw [herr]; rfl
    refine .inr ⟨⟨k, mem_cons_self, fun hk' => absurd hk' hk⟩, .inl ?_⟩
    rw [CPUManager.prepareLoad, CPUManager.prepareLoadKey,
      (CachePolicy.get_eq_none_iff h.valid).mpr hk]
    rfl

end

include h in
lemma prepareLoad (hnd : ks.Nodup)
    (hks : ∀ k ∈ ks, k ∈ m.policy.blocks.map Prod.fst ∧ k ∉ storing ∧ loads.count k + 1 < 2 ^ 31) :
    ∃ spec m', prepareLoad ks m = .ok (spec, m') ∧ Accounted m' storing (ks.reverse ++ loads) ∧
      m'.policy.blocks.map Prod.fst = m.policy.blocks.map Prod.fst ∧
      ks.map m.slotOf = spec.map some ∧ Keeps m m' := by
  rcases h.prepareLoad_cases hnd fun k hk => (hks k hk).2.2 with hok | ⟨⟨k, hk, hbad⟩, _⟩
  · exact hok
  · exact absurd (hbad (hks k hk).1) (hks k hk).2.1

section

variable (h : Accounted m storing loads)
include h

lemma completeLoadKey (hk : k ∈ loads) :
    ∃ m', m.completeLoadKey k = .ok m' ∧ Accounted m' storing (loads.erase k) ∧ Keeps m m' := by
  have hnot := h.apart k hk
  obtain ⟨b, hget, hrefs⟩ := h.get_of_resident (h.resident (.inr hk))
  rw [if_neg hnot] at hrefs
  have hpos : 0 < loads.count k := count_pos_iff.mpr hk
  have hfew := h.few k
  have hwrap : cInt32 (b.refCnt - 1) = ((loads.erase k).count k : ℤ) := by
    rw [hrefs, count_erase_self, ← Nat.cast_pred hpos]
    exact cInt32_of_natCast (by omega)
  refine ⟨_, by rw [CPUManager.completeLoadKey, hget]; dsimp only; rw [pyAssert_pos (by omega),
    ok_bind],
    ?_, keeps_modify (k := k) (f := fun c => c.setRefCnt (c.refCnt - 1)) (by rfl) (by rfl) fun _ =>
      rfl⟩
  refine h.change hget rfl ?_ ?_ (fun _ _ => .rfl) (fun k' hne => ?_) h.storing_nodup (fun _ =>
    hnot) ?_
  · have hne : b.refCnt ≠ 0 := by omega
    rw [if_neg hne, sub_zero]
    show (if cInt32 (b.refCnt - 1) = 0 then m.numEvictableCacheBlocks + 1 else
      m.numEvictableCacheBlocks) = _
    split <;> simp
  · rw [if_neg hnot]
    exact hwrap
  · exact count_erase_of_ne hne
  · rw [count_erase_self]
    omega

lemma completeLoad (hnd : ks.Nodup) (hks : ∀ k ∈ ks, k ∈ loads) :
    ∃ m', m.completeLoad ks = .ok m' ∧ Accounted m' storing (loads.diff ks) ∧ Keeps m m' := by
  unfold CPUManager.completeLoad
  induction ks generalizing m loads with
  | nil => exact ⟨m, rfl, h, rfl, fun _ => rfl⟩
  | cons k ks ih =>
    rw [nodup_cons] at hnd
    obtain ⟨m1, hrun, h1, hkeeps⟩ := h.completeLoadKey (hks k mem_cons_self)
    obtain ⟨m', hrun', h', hkeeps'⟩ := ih h1 hnd.2 (mem_erase_of_cons hnd.1 hks)
    refine ⟨m', ?_, ?_, hkeeps.trans hkeeps'⟩
    · rw [foldlM_cons, hrun, ok_bind, hrun']
    rw [diff_cons]
    exact h'

lemma storedKey (hk : k ∈ storing) :
    ∃ m', m.storedKey k = (true, m') ∧ Accounted m' (storing.erase k) loads ∧ Keeps m m' := by
  obtain ⟨b, hget, hrefs⟩ := h.get_of_resident (h.resident (.inl hk))
  rw [if_pos hk] at hrefs
  have hnotLoaded : k ∉ loads := fun hl => h.apart k hl hk
  have hgone : k ∉ storing.erase k := h.storing_nodup.not_mem_erase
  have hcnt : loads.count k = 0 := count_eq_zero.mpr hnotLoaded
  have hready : b.isReady = false := decide_eq_false (by omega)
  refine ⟨{ m with
    policy := m.policy.modify k fun c => c.setRefCnt 0
    numEvictableCacheBlocks := m.numEvictableCacheBlocks + 1 }, ?_, ?_,
      keeps_modify rfl rfl fun _ => rfl⟩
  · rw [CPUManager.storedKey, hget]
    dsimp only
    rw [hready]
    rfl
  refine h.change (n := 0) hget rfl ?_ ?_ (fun k' hne => mem_erase_of_ne hne)
    (fun _ _ => rfl) (h.storing_nodup.erase k) (fun hl => absurd hl hnotLoaded) ?_
  · simp [hrefs]
  · rw [if_neg hgone, hcnt]
    rfl
  · rw [hcnt]
    norm_num

end

include h

lemma storedLoop (hnd : ks.Nodup) (hks : ∀ k ∈ ks, k ∈ storing) :
    ∃ m', storedLoop ks m = (ks, m') ∧ Accounted m' (storing.diff ks) loads ∧ Keeps m m' := by
  induction ks generalizing m storing with
  | nil => exact ⟨m, rfl, h, rfl, fun _ => rfl⟩
  | cons k ks ih =>
    rw [nodup_cons] at hnd
    obtain ⟨m1, hrun, h1, hkeeps⟩ := h.storedKey (hks k mem_cons_self)
    obtain ⟨m', hrun', h', hkeeps'⟩ := ih h1 hnd.2 (mem_erase_of_cons hnd.1 hks)
    refine ⟨m', ?_, ?_, hkeeps.trans hkeeps'⟩
    · rw [storedLoop, hrun]
      dsimp only
      rw [hrun']
      rfl
    · rw [diff_cons]
      exact h'

lemma dropKey (hk : k ∈ storing) :
    ∃ m', m.dropKey k = .ok m' ∧ Accounted m' (storing.erase k) loads ∧ m'.events = m.events ∧
      ∀ k', m'.slotOf k' = if k' = k then none else m.slotOf k' := by
  obtain ⟨b, hget, hrefs⟩ := h.get_of_resident (h.resident (.inl hk))
  rw [if_pos hk] at hrefs
  have hready : b.isReady = false := decide_eq_false (by omega)
  have hnotLoaded : k ∉ loads := fun hl => h.apart k hl hk
  obtain ⟨rest, hperm, -, p, hremove, rfl⟩ := exists_rest h.valid hget
  have hbooks := (h.books.perm hperm.symm (.refl _)).remove
  have hzero : countOf (storing.erase k) loads k = 0 := by
    rw [countOf, if_neg h.storing_nodup.not_mem_erase, count_eq_zero.mpr hnotLoaded]
    rfl
  rw [if_neg (by omega), sub_zero, ← hzero,
    ← countOf_eq_update (fun k' hne => mem_erase_of_ne hne) fun _ _ => rfl] at hbooks
  refine ⟨{ m with policy := p }.freeBlock b, ?_,
    ⟨hbooks, h.allocated, h.storing_nodup.erase k, ?_, h.few⟩, rfl, ?_⟩
  · rw [CPUManager.dropKey, hget]
    dsimp only
    rw [hready, if_neg Bool.false_ne_true, hremove, ok_bind]
  · exact fun k' hk' hs => h.apart k' hk' (mem_of_mem_erase hs)
  intro k'
  have hslot := slotOf_of_append (l := [(k, b)]) h.valid hperm k'
  simp only [map_singleton, mem_singleton] at hslot
  exact hslot

lemma addEvent (ks : List κ) (removed : Bool) :
    Accounted (m.addEvent ks removed) storing loads := by
  unfold CPUManager.addEvent
  split
  · exact h
  · exact ⟨h.books, h.allocated, h.storing_nodup, h.apart, h.few⟩

omit h

omit [DecidableEq κ] in
lemma addEvent_policy (m : CPUManager κ) (ks : List κ) (removed : Bool) :
    (m.addEvent ks removed).policy = m.policy ∧
      (m.addEvent ks removed).getNumFreeBlocks = m.getNumFreeBlocks := by
  unfold CPUManager.addEvent
  split <;> exact ⟨rfl, rfl⟩

include h in
lemma completeStore (hnd : ks.Nodup) (hks : ∀ k ∈ ks, k ∈ storing) (success : Bool) :
    ∃ m', m.completeStore ks success = .ok m' ∧ Accounted m' (storing.diff ks) loads ∧
      m'.events = (if success then m.addEvent ks false else m).events ∧
      ∀ k, m'.slotOf k = if k ∈ ks ∧ success = false then none else m.slotOf k := by
  cases success with
  | true =>
    obtain ⟨m', hloop, h', hkeeps⟩ := h.storedLoop hnd hks
    refine ⟨m'.addEvent ks false, by rw [CPUManager.completeStore, if_pos rfl, hloop],
      h'.addEvent ks false, ?_,
      fun k => ?_⟩
    · simp only [CPUManager.addEvent]
      split <;> simp [hkeeps.events]
    · rw [if_neg (by simp), ← hkeeps.slots k, slotOf, (addEvent_policy m' ks false).1]
      rfl
  | false =>
    rw [CPUManager.completeStore, if_neg Bool.false_ne_true]
    induction ks generalizing m storing with
    | nil => exact ⟨m, rfl, h, rfl, fun _ => rfl⟩
    | cons k ks ih =>
      rw [nodup_cons] at hnd
      obtain ⟨m1, hrun, h1, hevents, hsl⟩ := h.dropKey (hks k mem_cons_self)
      obtain ⟨m', hrun', h', hevents', hsl'⟩ := ih h1 hnd.2 (mem_erase_of_cons hnd.1 hks)
      refine ⟨m', ?_, ?_, hevents'.trans hevents, fun k' => ?_⟩
      · rw [foldlM_cons, hrun, ok_bind, hrun']
      · rw [diff_cons]
        exact h'
      · simp only [hsl', hsl, mem_cons]
        grind

/-! ## New stores -/

include h in
lemma notMem_evicted {excluded : List κ} (hperm : m.policy.blocks.Perm (evicted ++ p.blocks))
    (hall : ∀ e ∈ evicted, Offload.evictable excluded e)
    (huse : k ∈ storing ∨ k ∈ loads) : k ∉ evicted.map Prod.fst := by
  intro hev
  obtain ⟨e, he, rfl⟩ := mem_map.mp hev
  have hzero : e.2.refCnt = 0 := (of_decide_eq_true (hall e he)).1
  exact countOf_ne_zero huse
    ((h.books.refs e (hperm.mem_iff.mpr (mem_append_left _ he))).symm.trans hzero)

omit [DecidableEq κ] in
lemma foldl_freeBlock (bs : List BlockStatus) (m : CPUManager κ) :
    bs.foldl freeBlock m = { m with freeList := m.freeList ++ bs.map (·.blockId) } := by
  induction bs generalizing m with
  | nil => simp
  | cons b bs ih =>
    rw [foldl_cons, ih, freeBlock, map_cons, append_assoc, singleton_append]

include h

lemma makeRoom (n : ℤ) (excluded : List κ) :
    m.makeRoom n excluded = .ok none ∨ ∃ keys m', m.makeRoom n excluded = .ok (some (keys, m')) ∧
      Accounted m' storing loads ∧ m.getNumFreeBlocks + n ≤ m'.getNumFreeBlocks ∧
      m'.events = m.events ∧
      (∀ k, k ∈ storing ∨ k ∈ loads → k ∉ keys) ∧
      ∀ k, m'.slotOf k = if k ∈ keys then none else m.slotOf k := by
  unfold CPUManager.makeRoom
  split
  next hn => exact .inr ⟨[], m, rfl, h, by omega, rfl, fun _ _ => not_mem_nil, fun _ => rfl⟩
  rename_i hn
  split
  · exact .inl rfl
  rename_i hle
  split
  · exact .inl rfl
  rename_i evicted p hevict
  obtain ⟨hperm, hlen, hall⟩ := perm_evict h.valid hevict
  have hbooks :=
    (h.books.perm hperm.symm (.refl _)).removeAll fun e he => (of_decide_eq_true (hall e he)).1
  have hnonneg : (0 : ℤ) ≤ m.numEvictableCacheBlocks - evicted.length := by omega
  refine .inr ⟨evicted.map Prod.fst, { m with
    policy := p
    numEvictableCacheBlocks := m.numEvictableCacheBlocks - evicted.length
    freeList := m.freeList ++ evicted.map (·.2.blockId) }, ?_,
    ⟨hbooks, h.allocated, h.storing_nodup, h.apart, h.few⟩, ?_, rfl,
      fun k => h.notMem_evicted hperm hall,
    slotOf_of_append h.valid hperm⟩
  · dsimp only
    rw [pyAssert_pos hnonneg, ok_bind, foldl_freeBlock, map_map]
    rfl
  show (m.freeList.length : ℤ) + m.numBlocks - m.numAllocatedBlocks + n ≤
    ((m.freeList ++ evicted.map fun e => e.2.blockId).length : ℤ) + m.numBlocks -
      m.numAllocatedBlocks
  rw [length_append, length_map, hlen]
  push_cast
  omega

lemma allocateBlocks (hroom : (ks.length : ℤ) ≤ m.getNumFreeBlocks) :
    ∃ blocks m', m.allocateBlocks ks = .ok (blocks, m') ∧ blocks.length = ks.length ∧
    (∀ b ∈ blocks, b.refCnt = -1) ∧
      m' = { m with numAllocatedBlocks := m'.numAllocatedBlocks, freeList := m'.freeList } ∧
      m'.numAllocatedBlocks ≤ m.numBlocks ∧
      Books m.policy.blocks (blocks.map (·.blockId) ++ m'.freeList) m'.numAllocatedBlocks
        m.numEvictableCacheBlocks
        (countOf storing loads) := by
  have hal := h.allocated
  obtain ⟨fresh, hfresh⟩ : ∃ n : ℕ, min (ks.length : ℤ) (m.numBlocks - m.numAllocatedBlocks) = n :=
    Int.eq_ofNat_of_zero_le (by omega)
  obtain ⟨reused, hreused⟩ : ∃ n : ℕ, (ks.length : ℤ) - fresh = n :=
    Int.eq_ofNat_of_zero_le (by omega)
  unfold getNumFreeBlocks at hroom
  have hassert : (m.freeList.length : ℤ) ≥ reused := by omega
  refine ⟨((range fresh).map fun i => ({ blockId := m.numAllocatedBlocks + i } : BlockStatus)) ++
      (m.freeList.reverse.take reused).map fun i => ({ blockId := i } : BlockStatus),
    { m with
      numAllocatedBlocks := m.numAllocatedBlocks + fresh
      freeList := m.freeList.take (m.freeList.length - reused) }, ?_, ?_, ?_, rfl, ?_, ?_⟩
  · unfold CPUManager.allocateBlocks
    dsimp only
    rw [hfresh, hreused, pyAssert_pos hassert, ok_bind, Int.toNat_natCast, Int.toNat_natCast]
  · rw [length_append, length_map, length_range, length_map, length_take, length_reverse]
    omega
  · intro b hb
    rcases mem_append.mp hb with hb | hb
    · obtain ⟨i, -, rfl⟩ := mem_map.mp hb
      rfl
    · obtain ⟨i, -, rfl⟩ := mem_map.mp hb
      rfl
  · show m.numAllocatedBlocks + fresh ≤ m.numBlocks
    omega
  -- The fresh slots are the next numbers, the reused ones are the end of the free list.
  have hids :
    ((((range fresh).map fun i => ({ blockId := m.numAllocatedBlocks + i } : BlockStatus)) ++
      (m.freeList.reverse.take reused).map fun i =>
        ({ blockId := i } : BlockStatus)).map (·.blockId)) =
      (range fresh).map (m.numAllocatedBlocks + ·) ++ m.freeList.reverse.take reused := by
    rw [map_append, map_map, map_map]
    exact congrArg _ (map_id _)
  have hfree :
    (m.freeList.reverse.take reused ++ m.freeList.take (m.freeList.length - reused)).Perm
    m.freeList := by
    rw [take_reverse]
    refine (perm_append_comm.trans ((reverse_perm _).append_left _)).trans ?_
    rw [take_append_drop]
  refine { h.books with ids := ?_ }
  rw [hids, range_add, append_assoc]
  refine (((hfree.append_left _).trans perm_append_comm).append_left _).trans ?_
  rw [← append_assoc]
  exact h.books.ids.append_right _

omit h

lemma perm_foldl_insert {es : List (κ × BlockStatus)} (hv : p.Valid)
    (hnd : (es.map Prod.fst).Nodup) (hnew : ∀ e ∈ es, p.get e.1 = none) :
    (es.foldl (fun p e => p.insert e.1 e.2) p).blocks.Perm (es ++ p.blocks) ∧
      (es.foldl (fun p e => p.insert e.1 e.2) p).Valid := by
  induction es generalizing p with
  | nil => exact ⟨.refl _, hv⟩
  | cons e es ih =>
    rw [map_cons, nodup_cons] at hnd
    have hget := hnew e mem_cons_self
    have hperm : (p.insert e.1 e.2).blocks.Perm (e :: p.blocks) := perm_insert hv hget
    have hv' : (p.insert e.1 e.2).Valid := by
      refine (hperm.map Prod.fst).nodup_iff.mpr ?_
      rw [map_cons, nodup_cons]
      exact ⟨(get_eq_none_iff hv).mp hget, hv⟩
    have hnew' : ∀ e' ∈ es, (p.insert e.1 e.2).get e'.1 = none := by
      intro e' he'
      rw [get_eq_none_iff hv', (hperm.map Prod.fst).mem_iff, map_cons, mem_cons, not_or]
      exact ⟨fun heq => hnd.1 (mem_map.mpr ⟨e', he', heq⟩),
        (get_eq_none_iff hv).mp (hnew e' (mem_cons_of_mem e he'))⟩
    obtain ⟨hrest, hvalid⟩ := ih hv' hnd.2 hnew'
    exact ⟨hrest.trans ((hperm.append_left es).trans perm_middle), hvalid⟩

include h in
lemma store (hnd : ks.Nodup) (hnew : ∀ k ∈ ks, m.policy.get k = none)
    (hroom : (ks.length : ℤ) ≤ m.getNumFreeBlocks) :
    ∃ blocks m', m.allocateBlocks ks = .ok (blocks, m') ∧ blocks.length = ks.length ∧
      Accounted { m' with policy := (ks.zip blocks).foldl (fun p e => p.insert e.1 e.2) m'.policy }
        (ks ++ storing) loads ∧
      (∀ e ∈ ks.zip blocks, ((ks.zip blocks).foldl (fun p e => p.insert e.1 e.2) m'.policy).get
        e.1 = some e.2) ∧
      m'.events = m.events ∧
      ∀ k ∉ ks, ((ks.zip blocks).foldl (fun p e => p.insert e.1 e.2) m'.policy).get k =
        m.policy.get k := by
  obtain ⟨blocks, m', hrun, hlen, hrefs, hm', hal, hbooks⟩ := h.allocateBlocks hroom
  refine ⟨blocks, m', hrun, hlen, ?_⟩
  have hfst : (ks.zip blocks).map Prod.fst = ks := map_fst_zip (by omega)
  have hsnd : (ks.zip blocks).map (fun e => e.2.blockId) = blocks.map (·.blockId) := by
    conv_rhs => rw [← map_snd_zip hlen.le, map_map]
    rfl
  have hzip : ∀ e ∈ ks.zip blocks, e.1 ∈ ks ∧ e.2.refCnt = -1 := fun e he =>
    ⟨(of_mem_zip he).1, hrefs e.2 (of_mem_zip he).2⟩
  have hnew' : ∀ k ∈ ks, k ∉ m.policy.blocks.map Prod.fst := fun k hk =>
    (get_eq_none_iff h.valid).mp (hnew k hk)
  obtain ⟨hperm, hvalid⟩ :=
    perm_foldl_insert h.valid (hfst.symm ▸ hnd) fun e he => hnew e.1 (hzip e he).1
  have hall :=
    Books.insertAll (hsnd ▸ hbooks) (hfst.symm ▸ hnd) (fun e he => hnew' e.1 (hzip e he).1)
    fun e he => (hzip e he).2
  rw [hfst] at hall
  rw [hm']
  refine ⟨⟨hall.perm hperm (.refl _), hal, ?_, ?_, h.few⟩, fun e he => ?_, rfl, fun k hk => ?_⟩
  · exact nodup_append.mpr ⟨hnd, h.storing_nodup, fun k hk k' hk' heq =>
      hnew' k hk (heq ▸ h.resident (.inl hk'))⟩
  · intro k hk
    rw [mem_append, not_or]
    exact ⟨fun hks => hnew' k hks (h.resident (.inr hk)), h.apart k hk⟩
  · exact (get_eq_some_iff hvalid).mpr (hperm.mem_iff.mpr (mem_append_left _ he))
  · exact (get_of_append hvalid hperm (hfst.symm ▸ hk)).symm

lemma thresholdKeys_spec (m : CPUManager κ) (ks : List κ) : (m.thresholdKeys ks).1.Sublist ks ∧
    ∃ n, (m.thresholdKeys ks).2 = { m with storesSkippedInCurrentBatch := n } := by
  unfold thresholdKeys
  split
  · exact ⟨.refl _, _, rfl⟩
  · exact ⟨filter_sublist, _, rfl⟩

section

variable (h : Accounted m storing loads)
include h

lemma prepareStore (hnd : ks.Nodup) :
    (∃ n, m.prepareStore ks = .ok (none, { m with storesSkippedInCurrentBatch := n })) ∨
      ∃ out m', m.prepareStore ks = .ok (some out, m') ∧
        Accounted m' (out.keysToStore ++ storing) loads ∧
        out.keysToStore.Sublist ks ∧ out.keysToStore.map m'.slotOf = out.storeSpec.map some ∧
        (∀ k, k ∈ storing ∨ k ∈ loads → m'.slotOf k = m.slotOf k) ∧
        m'.events = (m.addEvent out.evictedKeys true).events ∧
          (∀ k ∈ out.keysToStore, m.slotOf k = none) ∧
        ∀ k ∉ out.keysToStore, m'.slotOf k = if k ∈ out.evictedKeys then none else m.slotOf k := by
  rcases hthr : m.thresholdKeys ks with ⟨kept, m1⟩
  have hspec := thresholdKeys_spec m ks
  rw [hthr] at hspec
  obtain ⟨hsub, n, rfl⟩ := hspec
  unfold CPUManager.prepareStore
  rw [hthr]
  dsimp only
  have h1 : Accounted { m with storesSkippedInCurrentBatch := n } storing loads :=
    ⟨h.books, h.allocated, h.storing_nodup, h.apart, h.few⟩
  split
  · exact .inr ⟨_, _, rfl, h1, nil_sublist _, rfl, fun _ _ => rfl, rfl,
      fun _ hk => (not_mem_nil hk).elim, fun _ _ => rfl⟩
  have hnew : ∀ k ∈ kept.filter fun k => (m.policy.get k).isNone, m.policy.get k = none :=
    fun k hk => Option.isNone_iff_eq_none.mp (mem_filter.mp hk).2
  have hsub' : (kept.filter fun k => (m.policy.get k).isNone).Sublist ks :=
    filter_sublist.trans hsub
  generalize kept.filter (fun k => (m.policy.get k).isNone) = toStore at hnew hsub' ⊢
  rcases h1.makeRoom (toStore.length - getNumFreeBlocks { m with storesSkippedInCurrentBatch := n })
      kept with hnone | ⟨evicted, m2, hroom, h2, hfree, hevents, huse, hslots2⟩
  · refine .inl ⟨n, ?_⟩
    rw [hnone, ok_bind]
  rw [hroom, ok_bind]
  dsimp only
  obtain ⟨hpol, hfree'⟩ := addEvent_policy m2 evicted true
  have hsl : ∀ k, m2.slotOf k = if k ∈ evicted then none else m.slotOf k := hslots2
  have hslot : ∀ k ∈ toStore, m.slotOf k = none := fun k hk => by rw [slotOf, hnew k hk]; rfl
  have habsent : ∀ k ∈ toStore, (m2.addEvent evicted true).policy.get k = none := fun k hk => by
    exact hpol ▸ Option.map_eq_none_iff.mp ((hsl k).trans (by rw [hslot k hk, ite_self]))
  obtain ⟨blocks, m3, hrun, hlen, h3, hnewGet, hevents3, holdGet⟩ :=
    (h2.addEvent evicted true).store (hnd.sublist hsub') habsent (by
    rw [hfree']
    omega)
  have hkept : ∀ k ∉ toStore, slotOf { m3 with policy := _ } k = if k ∈ evicted then none else
    m.slotOf k :=
    fun k hk => (congrArg _ (holdGet k hk)).trans (hpol ▸ hsl k)
  refine .inr
    ⟨{ keysToStore := toStore, storeSpec := blocks.map (·.blockId), evictedKeys := evicted }, _, ?_,
    h3, hsub', ?_, fun k hk => ?_, ?_, hslot, hkept⟩
  · rw [hrun, ok_bind]
    dsimp only
    rw [pyAssert_pos hlen, ok_bind]
  · dsimp only
    rw [map_map]
    refine map_eq_map_iff_zip.mpr ⟨hlen.symm, fun he => ?_⟩
    rw [slotOf, hnewGet _ he]
    rfl
  · rw [hkept k fun hks => ?_, if_neg (huse k hk)]
    exact (get_eq_none_iff h.valid).mp (hnew k hks) (h.resident hk)
  rw [hevents3]
  simp only [CPUManager.addEvent]
  split <;> simp [hevents]

lemma countLookup :
    (∃ m', m.countLookup k = .ok m' ∧ Accounted m' storing loads ∧ m'.policy = m.policy ∧
      m'.events = m.events) ∨ m.countLookup k = .error (.keyError "dictionary is empty") := by
  unfold CPUManager.countLookup
  split
  · exact .inl ⟨_, rfl, h, rfl, rfl⟩
  split
  · exact .inl ⟨_, rfl, ⟨h.books, h.allocated, h.storing_nodup, h.apart, h.few⟩, rfl, rfl⟩
  split
  · exact .inl ⟨_, rfl, ⟨h.books, h.allocated, h.storing_nodup, h.apart, h.few⟩, rfl, rfl⟩
  split
  · exact .inr rfl
  · exact .inl ⟨_, rfl, ⟨h.books, h.allocated, h.storing_nodup, h.apart, h.few⟩, rfl, rfl⟩

lemma lookup :
    (∃ r m', m.lookup k = .ok (r, m') ∧ Accounted m' storing loads ∧ m'.policy = m.policy ∧
      m'.events = m.events ∧ (r = some true ↔ k ∈ m.policy.blocks.map Prod.fst ∧ k ∉ storing)) ∨
      m.lookup k = .error (.keyError "dictionary is empty") := by
  unfold CPUManager.lookup
  rcases h.countLookup (k := k) with ⟨m', hrun, h', hpol, hevents⟩ | herr
  · left
    rw [hrun, ok_bind, hpol]
    cases hget : m.policy.get k with
    | none =>
      have hnot := (get_eq_none_iff h.valid).mp hget
      exact ⟨_, m', rfl, h', hpol, hevents, by simp [hnot]⟩
    | some b =>
      have hmem := (get_eq_some_iff h.valid).mp hget
      have hres : k ∈ m.policy.blocks.map Prod.fst := mem_map_of_mem hmem
      have hrefs : b.refCnt = if k ∈ storing then -1 else (loads.count k : ℤ) := h.books.refs _ hmem
      dsimp only
      by_cases hs : k ∈ storing
      · rw [if_pos hs] at hrefs
        have hready : b.isReady = false := decide_eq_false (by omega)
        rw [hready]
        exact ⟨none, m', rfl, h', hpol, hevents, by simp [hs]⟩
      rw [if_neg hs] at hrefs
      have hready : b.isReady = true := decide_eq_true (by omega)
      rw [hready]
      exact ⟨some true, m', rfl, h', hpol, hevents, by simp [hs, hres]⟩
  right
  rw [herr]
  rfl

lemma touch (ks : List κ) : Accounted (m.touch ks) storing loads :=
  ⟨h.books.perm (perm_touch h.valid ks) (.refl _), h.allocated, h.storing_nodup, h.apart, h.few⟩

lemma slotOf_touch (ks : List κ) (k : κ) : (m.touch ks).slotOf k = m.slotOf k := by
  have hk : k ∉ ([] : List (κ × BlockStatus)).map Prod.fst := not_mem_nil
  exact congrArg _ (get_of_append h.valid (perm_touch h.valid ks).symm hk)

end

lemma of_empty (hblk : m.policy.blocks = []) (hfree : m.freeList = [])
    (hal : m.numAllocatedBlocks = 0)
    (hevictable : m.numEvictableCacheBlocks = 0) : Accounted m [] [] where
  books := by
    rw [hblk, hfree, hal, hevictable]
    exact ⟨nodup_nil, .refl _, rfl, nofun, fun k hk => absurd rfl hk⟩
  allocated := by rw [hal]; exact Nat.zero_le _
  storing_nodup := nodup_nil
  apart := nofun
  few k := by rw [count_nil]; norm_num

lemma init (numBlocks : ℕ) (policy : Name) (events : Bool) (threshold tracker : ℕ) :
    Accounted (init numBlocks policy events threshold tracker : CPUManager κ) [] [] :=
  of_empty (blocks_init policy numBlocks) rfl rfl rfl

lemma resetCache (m : CPUManager κ) :
    Accounted m.resetCache [] [] := of_empty (blocks_clear m.policy) rfl rfl rfl

include h in
lemma perm {storing' loads' : List κ} (hs : storing'.Perm storing)
    (hl : loads'.Perm loads) : Accounted m storing' loads' where
  books := by
    have hcnt : countOf storing' loads' = countOf storing loads := by
      funext k
      simp only [countOf, hs.mem_iff, hl.count_eq]
    exact hcnt ▸ h.books
  allocated := h.allocated
  storing_nodup := hs.nodup_iff.mpr h.storing_nodup
  apart k hk hk' := h.apart k (hl.mem_iff.mp hk) (hs.mem_iff.mp hk')
  few k := by
    rw [hl.count_eq]
    exact h.few k

lemma append_diff_self (ks l : List κ) : (ks ++ l).diff ks = l := by
  induction ks generalizing l with
  | nil => rfl
  | cons k ks ih => rw [cons_append, diff_cons, erase_cons_head, ih]

include h in
lemma eq_of_slotOf_eq {k k' : κ} {i : ℕ} (hk : m.slotOf k = some i) (hk' : m.slotOf k' = some i) :
    k = k' := by
  obtain ⟨b, hget, hb⟩ := Option.map_eq_some_iff.mp hk
  obtain ⟨b', hget', hb'⟩ := Option.map_eq_some_iff.mp hk'
  have hnd : (m.policy.blocks.map (·.2.blockId)).Nodup :=
    ((h.books.ids.nodup_iff.mpr nodup_range).sublist (sublist_append_left _ _))
  have heq := inj_on_of_nodup_map hnd ((get_eq_some_iff h.valid).mp hget)
    ((get_eq_some_iff h.valid).mp hget') (hb.trans hb'.symm)
  exact congrArg Prod.fst heq

end Accounted

end Vllm.Offload
