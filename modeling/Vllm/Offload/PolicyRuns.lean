import Vllm.Offload.PolicyProof

/-!
# Eviction in the reachable states of a cache policy

ARC searches `t1` only while its virtual size is at least `int(target_t1_size)`, and does not go
back to it when `t2` has no more.
-/

namespace Vllm.Offload

open OrderedDict List Option

variable {κ : Type} [DecidableEq κ]

def idle (excluded : List κ) (d : OrderedDict κ BlockStatus) :
    ℕ := d.entries.countP (evictable excluded)

section idle

variable {d : OrderedDict κ BlockStatus} {k : κ} {b : BlockStatus} {excluded : List κ}

lemma idle_cons_of_notMem (h : k ∉ d.keys) : idle (k :: excluded) d = idle excluded d := by
  refine countP_congr fun e he => ?_
  rw [ARC.evictable_cons, and_iff_left]
  intro heq
  exact h (List.mem_map.mpr ⟨e, he, heq⟩)

lemma idle_cons_of_find (h : d.entries.find? (evictable excluded) = some (k, b)) :
    idle excluded d = idle (k :: excluded) d + 1 := by
  have hperm := perm_erase (get?_eq_some_iff.mpr (mem_of_find?_eq_some h))
  have hrest : idle (k :: excluded) (d.erase k) = idle excluded (d.erase k) :=
    idle_cons_of_notMem (not_mem_keys_erase d k)
  unfold idle at hrest ⊢
  rw [hperm.countP_eq, hperm.countP_eq, countP_cons_of_pos (find?_some h), countP_cons_of_neg,
    hrest]
  exact fun he => (ARC.evictable_cons.mp he).2 rfl

lemma idle_of_find_none (h : d.entries.find? (evictable excluded) = none) :
    idle excluded d = 0 := by
  rw [idle, countP_eq_zero]
  exact find?_eq_none.mp h

end idle

namespace ARC

variable {a : ARC κ} {excluded : List κ} {k : κ} {b : BlockStatus} {n : ℕ}

def within (a : ARC κ) (excluded : List κ) (virtualT1Size : ℤ) : ℕ := idle excluded a.t2 +
  min (idle excluded a.t1) (virtualT1Size + 1 - a.targetT1Size.num.tdiv a.targetT1Size.den).toNat

lemma select_isSome_iff (hdis : a.Disjoint) {v : ℤ} :
    (a.select excluded n v).isSome ↔ n ≤ a.within excluded v := by
  induction n generalizing excluded v with
  | zero => simp [select]
  | succ n ih =>
    -- A block from either list leaves one less to be reached.
    have step : ∀ {k : κ} {b : BlockStatus} {v' : ℤ} (flag : Bool),
        a.within excluded v = a.within (k :: excluded) v' + 1 →
        ((do let rest ← a.select (k :: excluded) n v'; some ((k, b, flag) :: rest)).isSome ↔
          n + 1 ≤ a.within excluded v) := by
      intro k b v' flag hwithin
      rw [hwithin, Nat.add_le_add_iff_right, ← ih]
      cases a.select (k :: excluded) n v' <;> rfl
    rw [select]
    unfold within at step ⊢
    split
    next k b hfind =>
      split at hfind
      · have h1 := idle_cons_of_find hfind
        have h2 : idle (k :: excluded) a.t2 = idle excluded a.t2 :=
          idle_cons_of_notMem (hdis k (mem_map_of_mem (mem_of_find?_eq_some hfind)))
        exact step true (by omega)
      · cases hfind
    rename_i hfind
    have hnone :
      min (idle excluded a.t1) (v + 1 - a.targetT1Size.num.tdiv a.targetT1Size.den).toNat = 0 := by
      split at hfind
      · simp [idle_of_find_none hfind]
      · omega
    split
    next k b hfind2 =>
      have h2 := idle_cons_of_find hfind2
      have h1 : idle (k :: excluded) a.t1 = idle excluded a.t1 := idle_cons_of_notMem fun hk =>
        hdis k hk (mem_map_of_mem (mem_of_find?_eq_some hfind2))
      exact step false (by omega)
    next hfind2 => simp [idle_of_find_none hfind2, hnone]

def Apart (a : ARC κ) : Prop := [a.t1.keys, a.t2.keys, a.b1.keys, a.b2.keys].Pairwise List.Disjoint

/-- The four lists of ARC are apart, and neither ghost list exceeds the capacity. -/
structure Separate (a : ARC κ) : Prop where
  apart : a.Apart
  b1_le : a.b1.length ≤ a.cacheCapacity
  b2_le : a.b2.length ≤ a.cacheCapacity

omit [DecidableEq κ] in
lemma apart_iff : a.Apart ↔ ∀ x, (x ∈ a.t1.keys → x ∉ a.t2.keys ∧ x ∉ a.b1.keys ∧ x ∉ a.b2.keys) ∧
    (x ∈ a.t2.keys → x ∉ a.b1.keys ∧ x ∉ a.b2.keys) ∧ (x ∈ a.b1.keys → x ∉ a.b2.keys) := by
  simp only [Apart, List.pairwise_cons, List.Disjoint, mem_cons, not_mem_nil, or_false,
    forall_eq_or_imp, forall_eq]
  grind

lemma Separate.insert (h : a.Separate) (hk : k ∉ a.t2.keys) : (a.insert k b).Separate := by
  have hx := apart_iff.mp h.apart
  refine ⟨apart_iff.mpr fun x => ?_, (length_filter_le _ _).trans h.b1_le,
    (length_filter_le _ _).trans h.b2_le⟩
  simp only [ARC.insert, mem_keys_set, mem_keys_erase]
  grind

lemma Separate.remove (h : a.Separate) (k : κ) : (a.remove k).Separate := by
  have hx := apart_iff.mp h.apart
  unfold ARC.remove
  split <;> refine ⟨apart_iff.mpr fun x => ?_, h.b1_le, h.b2_le⟩ <;> simp only [mem_keys_erase] <;>
    grind

lemma Separate.touchKey (h : a.Separate) (k : κ) : (a.touchKey k).Separate := by
  have hx := apart_iff.mp h.apart
  have hlen {d : OrderedDict κ Unit} : (d.moveToEnd k).length = d.length :=
    (perm_moveToEnd d k).length_eq
  have hmem {α : Type} {d : OrderedDict κ α} {x : κ} : x ∈ (d.moveToEnd k).keys ↔ x ∈ d.keys :=
    ((perm_moveToEnd d k).map Prod.fst).mem_iff
  unfold ARC.touchKey
  split
  next b hb =>
    have hk := mem_keys_iff.mpr ⟨b, hb⟩
    split <;> refine ⟨apart_iff.mpr fun x => ?_, h.b1_le, h.b2_le⟩ <;>
      simp only [mem_keys_set, mem_keys_erase] <;>
      grind
  split_ifs
  · exact ⟨apart_iff.mpr (by simpa only [hmem] using hx), h.b1_le, h.b2_le⟩
  · exact ⟨apart_iff.mpr (by simpa only [hmem] using hx), hlen.trans_le h.b1_le, h.b2_le⟩
  · exact ⟨apart_iff.mpr (by simpa only [hmem] using hx), h.b1_le, hlen.trans_le h.b2_le⟩
  · exact h

lemma Apart.evict {cs : List (κ × BlockStatus × Bool)} (hnd : (cs.map Prod.fst).Nodup)
    (hall : ∀ c ∈ cs, (c.1, c.2.1) ∈ (a.source c.2.2).entries) (h : a.Apart) :
    (cs.foldl applyEviction a).Apart := by
  induction cs generalizing a with
  | nil => exact h
  | cons c cs ih =>
    rw [map_cons, nodup_cons] at hnd
    rw [forall_mem_cons] at hall
    refine ih hnd.2 (fun e he => mem_source_applyEviction (hall.2 e he) fun heq =>
      hnd.1 (List.mem_map.mpr ⟨e, he, heq⟩)) (apart_iff.mpr fun x => ?_)
    have hx := apart_iff.mp h
    obtain ⟨k, b, flag⟩ := c
    have hk : k ∈ (a.source flag).keys := mem_map_of_mem hall.1
    cases flag <;> simp [applyEviction, source, mem_keys_set, mem_keys_erase] at hk ⊢ <;> grind

omit [DecidableEq κ] in
lemma Apart.trim (h : a.Apart) : a.trim.Separate := by
  have hmem {d : OrderedDict κ Unit} {n : ℕ} {x : κ} (hx : x ∈ (d.dropFirst n).keys) : x ∈ d.keys :=
    ((drop_sublist n _).map Prod.fst).mem hx
  have hlen {d : OrderedDict κ Unit} {n : ℕ} : (d.dropFirst (d.length - n)).length ≤ n := by
    rw [OrderedDict.length, dropFirst, length_drop, OrderedDict.length]
    omega
  refine ⟨apart_iff.mpr fun x => ?_, hlen, hlen⟩
  have hx := apart_iff.mp h x
  simp only [ARC.trim]
  grind

lemma Separate.evict (h : a.Separate) {r : List (κ × BlockStatus) × ARC κ}
    (he : a.evict n excluded = some r) :
    r.2.Separate := by
  unfold ARC.evict at he
  split at he
  · cases he
    exact h
  obtain ⟨cs, hcs, hr⟩ := bind_eq_some_iff.mp he
  cases hr
  obtain ⟨-, hnd, hall⟩ := select_spec hcs
  exact (h.apart.evict hnd fun c hc => (hall c hc).2).trim

end ARC

/-! ## Reachable states -/

namespace CachePolicy

/-- The states of the interface. Only keys that are not resident are inserted, `touch` goes key by
key, the holder of a block may change it. -/
inductive Reachable (name : Name) (size : ℕ) : CachePolicy κ → Prop
  | init : Reachable name size (init name size)
  | insert {p k} (b : BlockStatus) (h : Reachable name size p) (hk : p.get k = none) :
      Reachable name size (p.insert k b)
  | remove {p p' k} (h : Reachable name size p) (hr : p.remove k = .ok p') : Reachable name size p'
  | modify {p} (k f) (h : Reachable name size p) : Reachable name size (p.modify k f)
  | touchKey {p} (k) (h : Reachable name size p) : Reachable name size (p.touchKey k)
  | evict {p p' n protectedKeys evicted} (h : Reachable name size p)
      (he : p.evict n protectedKeys = some (evicted, p')) : Reachable name size p'
  | clear {p} (h : Reachable name size p) : Reachable name size p.clear

variable {p : CachePolicy κ} {name : Name} {size n : ℕ} {protectedKeys : List κ}

def Separate : CachePolicy κ → Prop
  | .lru _ => True
  | .arc a => a.Separate

variable (p)

/-- `evict` removes and returns `n` idle unprotected blocks if there are that many, and fails
otherwise. -/
def EvictsExactly (n : ℕ) (protectedKeys : List κ) : Prop :=
  if n ≤ p.blocks.countP (evictable protectedKeys) then
    ∃ evicted p', p.evict n protectedKeys = some (evicted, p') ∧ evicted.length = n ∧
      (evicted.map Prod.fst).Nodup ∧ (∀ e ∈ evicted, evictable protectedKeys e) ∧
        p.blocks.Perm (evicted ++ p'.blocks)
  else p.evict n protectedKeys = none

/-- There are fewer idle blocks than asked for, or the selection of ARC reaches as many. -/
def Reaches (n : ℕ) (protectedKeys : List κ) : Prop :=
  match p with
  | .lru _ => True
  | .arc a => p.blocks.countP (evictable protectedKeys) < n ∨ n ≤ a.within protectedKeys a.t1.length

variable {p}

lemma Reachable.separate (h : Reachable name size p) : p.Separate := by
  have hemp (n : ℕ) : ({ cacheCapacity := n } : ARC κ).Separate :=
    ⟨by simp [ARC.Apart, OrderedDict.keys, OrderedDict.empty], Nat.zero_le _, Nat.zero_le _⟩
  induction h with
  | init => cases name with
    | lru => trivial
    | arc => exact hemp _
  | @insert p _ _ _ hk ih => cases p with
    | lru => trivial
    | arc a => exact ARC.Separate.insert ih (get?_eq_none_iff.mp (or_eq_none_iff.mp hk).2)
  | @remove p _ k _ hr ih => cases p with
    | lru =>
      dsimp only [CachePolicy.remove] at hr
      split at hr <;> cases hr
      trivial
    | arc a =>
      cases hr
      exact ARC.Separate.remove ih k
  | @modify p k f _ ih => cases p with
    | lru => trivial
    | arc a =>
      have hkeys (d : OrderedDict κ BlockStatus) : (d.modify k f).keys = d.keys := List.map_map
      refine ⟨?_, ih.b1_le, ih.b2_le⟩
      rw [ARC.Apart, hkeys, hkeys]
      exact ih.apart
  | @touchKey p k _ ih => cases p with
    | lru => trivial
    | arc a => exact ARC.Separate.touchKey ih k
  | @evict p _ _ _ _ _ he ih => cases p with
    | lru =>
      dsimp only [CachePolicy.evict] at he
      split at he <;> cases he
      trivial
    | arc a =>
      obtain ⟨r, hr, heq⟩ := map_eq_some_iff.mp he
      cases heq
      exact ARC.Separate.evict ih hr
  | @clear p => cases p with
    | lru => trivial
    | arc a => exact hemp _

omit [DecidableEq κ] in
lemma Separate.valid (h : p.Separate) : p.Valid := by
  cases p with
  | lru d => exact d.nodup
  | arc a => exact ARC.disjoint_iff.mp fun k hk => ((ARC.apart_iff.mp h.apart k).1 hk).1

lemma evict_isSome_iff (h : p.Separate) : (p.evict n protectedKeys).isSome ↔
    n ≤ p.blocks.countP (evictable protectedKeys) ∧ p.Reaches n protectedKeys := by
  cases p with
  | lru d =>
    dsimp only [CachePolicy.evict, Reaches, blocks]
    rw [countP_eq_length_filter, length_take]
    split <;> simp <;> omega
  | arc a =>
    have hevict : (a.evict n protectedKeys).isSome ↔ n ≤ a.within protectedKeys a.t1.length := by
      rw [← ARC.select_isSome_iff (ARC.disjoint_iff.mpr h.valid), ARC.evict]
      split
      next hn => simp [hn, ARC.select]
      · cases a.select protectedKeys n a.t1.length <;> rfl
    dsimp only [CachePolicy.evict, Reaches, blocks]
    rw [isSome_map, hevict, countP_append]
    unfold ARC.within idle
    omega

/-- In every reachable state the lists of ARC are separate, and `evict` is exact just when the
selection reaches enough idle blocks. -/
theorem evicts_exactly_iff_reaches (h : Reachable name size p) (n : ℕ) (protectedKeys : List κ) :
    p.Separate ∧ (p.EvictsExactly n protectedKeys ↔ p.Reaches n protectedKeys) := by
  have hp := h.separate
  have hsome : (p.evict n protectedKeys).isSome ↔ _ := evict_isSome_iff hp
  refine ⟨hp, ?_⟩
  unfold EvictsExactly
  split
  next hle =>
    rw [← (and_iff_right hle : _ ↔ p.Reaches n protectedKeys), ← hsome, isSome_iff_exists,
      Prod.exists]
    refine exists₂_congr fun evicted p' => ⟨And.left, fun he => ⟨he, ?_⟩⟩
    obtain ⟨hperm, hlen, hall⟩ := perm_evict hp.valid he
    have hnodup := (hperm.map Prod.fst).nodup_iff.mp hp.valid
    rw [map_append] at hnodup
    exact ⟨hlen, hnodup.of_append_left, hall, hperm⟩
  rename_i hlt
  refine iff_of_true (not_isSome_iff_eq_none.mp fun h => hlt (hsome.mp h).1) ?_
  cases p with
  | lru d => trivial
  | arc a => exact .inl (not_le.mp hlt)

/-- ARC with the blocks 1 and 2, the first of which is evicted for 3 and then touched twice. -/
def afterTouches : CachePolicy ℕ :=
  (((((((init .arc 2).insert 1 ⟨0, 0⟩).insert 2 ⟨0, 1⟩).evict 1 []).map Prod.snd).getD
    (init .arc 2)).insert 3 ⟨0, 0⟩)
    |>.touchKey 1 |>.touchKey 1

lemma reachable_afterTouches : Reachable .arc 2 afterTouches := by
  have hfull : Reachable .arc 2 (((init .arc 2).insert 1 ⟨0, 0⟩).insert 2 ⟨0, 1⟩) :=
    .insert _ (.insert _ .init rfl) rfl
  exact .touchKey 1
    (.touchKey 1 (.insert _ (hfull.evict (show evict _ 1 [] = some (_, _) from rfl)) rfl))

/-- Both blocks of `t1` are idle, but the second is not searched for. -/
theorem not_evictsExactly_afterTouches :
    Reachable .arc 2 afterTouches ∧ ¬ afterTouches.EvictsExactly 2 [] := by
  refine ⟨reachable_afterTouches, ?_⟩
  have hnone : (afterTouches.evict 2 []).isNone := by decide +kernel
  rw [EvictsExactly, if_pos (by decide +kernel)]
  rintro ⟨evicted, p', he, -⟩
  rw [he] at hnone
  cases hnone

/-- After these touches one block can be evicted. -/
theorem evicts_one_afterTouches : afterTouches.EvictsExactly 1 [] :=
  (evicts_exactly_iff_reaches reachable_afterTouches 1 []).2.mpr (.inr (by decide +kernel))

end CachePolicy

end Vllm.Offload
