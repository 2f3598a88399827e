import Vllm.Offload.CPUManager

/-! # What the cache policies do to the resident blocks -/

namespace Vllm.Offload

open OrderedDict List Option

variable {κ : Type}

def CachePolicy.blocks : CachePolicy κ → List (κ × BlockStatus)
  | .lru blocks => blocks.entries
  | .arc a => a.t1.entries ++ a.t2.entries

def CachePolicy.Valid (p : CachePolicy κ) : Prop := (p.blocks.map Prod.fst).Nodup

variable [DecidableEq κ]

namespace ARC

variable {a : ARC κ} {k : κ} {b : BlockStatus} {excluded : List κ}
  {cs : List (κ × BlockStatus × Bool)}

def Disjoint (a : ARC κ) : Prop := ∀ k ∈ a.t1.keys, k ∉ a.t2.keys

omit [DecidableEq κ] in
lemma disjoint_iff : a.Disjoint ↔ (CachePolicy.arc a).Valid := by
  show _ ↔ ((a.t1.entries ++ a.t2.entries).map Prod.fst).Nodup
  rw [map_append, nodup_append]
  constructor
  · intro h
    refine ⟨a.t1.nodup, a.t2.nodup, fun x hx y hy heq => h x hx ?_⟩
    rw [heq]
    exact hy
  · intro h k hk hk'
    exact h.2.2 k hk k hk' rfl

lemma get_of_t1 (h : a.t1.get? k = some b) : a.get k = some b := by
  rw [get, h]
  rfl

lemma get_of_not_t1 (h : a.t1.get? k = none) : a.get k = a.t2.get? k := by
  rw [get, h]
  rfl

lemma perm_touchKey (hdis : a.Disjoint) (k : κ) :
    ((a.touchKey k).t1.entries ++ (a.touchKey k).t2.entries).Perm
    (a.t1.entries ++ a.t2.entries) := by
  unfold touchKey
  split
  next b hb =>
    have hnot : k ∉ a.t2.keys := hdis k (mem_map_of_mem (get?_eq_some_iff.mp hb))
    have hperm :
      (a.t1.entries ++ a.t2.entries).Perm ((k, b) :: ((a.t1.erase k).entries ++ a.t2.entries)) :=
      (perm_erase hb).append_right _
    split
    · rw [entries_set hnot, ← append_assoc]
      exact (perm_append_singleton _ _).trans hperm.symm
    · rw [entries_set (not_mem_keys_erase a.t1 k)]
      exact ((perm_append_singleton _ _).append_right _).trans hperm.symm
  split
  · exact (perm_moveToEnd a.t2 k).append_left _
  split
  · exact .refl _
  · split <;> exact .refl _

/-! ### Eviction -/

def source (a : ARC κ) (fromT1 : Bool) : OrderedDict κ BlockStatus := if fromT1 then a.t1 else a.t2

lemma evictable_cons {e : κ × BlockStatus} :
    evictable (k :: excluded) e ↔ evictable excluded e ∧ e.1 ≠ k := by
  simp only [evictable, mem_cons, not_or, decide_eq_true_eq]
  tauto

lemma select_spec {n : ℕ} {v : ℤ} (h : a.select excluded n v = some cs) :
    cs.length = n ∧ (cs.map Prod.fst).Nodup ∧
      ∀ c ∈ cs, evictable excluded (c.1, c.2.1) ∧ (c.1, c.2.1) ∈ (a.source c.2.2).entries := by
  induction n generalizing excluded v cs with
  | zero =>
    cases h
    exact ⟨rfl, nodup_nil, fun c hc => absurd hc not_mem_nil⟩
  | succ n ih =>
    -- A candidate from either list, followed by candidates with other keys.
    have step :
      ∀ (flag : Bool) {k : κ} {b : BlockStatus} {v' : ℤ} {rest : List (κ × BlockStatus × Bool)},
        (a.source flag).entries.find? (evictable excluded) = some (k, b) →
        a.select (k :: excluded) n v' = some rest → cs = (k, b, flag) :: rest →
        cs.length = n + 1 ∧ (cs.map Prod.fst).Nodup ∧
        ∀ c ∈ cs, evictable excluded (c.1, c.2.1) ∧ (c.1, c.2.1) ∈ (a.source c.2.2).entries := by
      intro flag k b v' rest hfind hrest hcs
      subst hcs
      obtain ⟨hlen, hnd, hall⟩ := ih hrest
      refine ⟨by rw [length_cons, hlen], ?_, fun c hc => ?_⟩
      · rw [map_cons, nodup_cons]
        refine ⟨fun hmem => ?_, hnd⟩
        obtain ⟨c, hc, heq⟩ := List.mem_map.mp hmem
        exact (evictable_cons.mp (hall c hc).1).2 heq
      rcases mem_cons.mp hc with rfl | hc
      · exact ⟨find?_some hfind, mem_of_find?_eq_some hfind⟩
      · exact ⟨(evictable_cons.mp (hall c hc).1).1, (hall c hc).2⟩
    rw [select] at h
    split at h
    next k b hfind =>
      obtain ⟨rest, hrest, hcs⟩ := bind_eq_some_iff.mp h
      split at hfind
      · exact step true hfind hrest (some.inj hcs).symm
      · cases hfind
    split at h
    next k b hfind =>
      obtain ⟨rest, hrest, hcs⟩ := bind_eq_some_iff.mp h
      exact step false hfind hrest (some.inj hcs).symm
    · cases h

lemma perm_applyEviction {c : κ × BlockStatus × Bool}
    (hc : (c.1, c.2.1) ∈ (a.source c.2.2).entries) :
    (a.t1.entries ++ a.t2.entries).Perm
      ((c.1, c.2.1) :: ((a.applyEviction c).t1.entries ++ (a.applyEviction c).t2.entries)) := by
  obtain ⟨k, b, flag⟩ := c
  cases flag with
  | true => exact (perm_erase (get?_eq_some_iff.mpr hc)).append_right _
  | false => exact ((perm_erase (get?_eq_some_iff.mpr hc)).append_left _).trans perm_middle

lemma mem_source_applyEviction {c e : κ × BlockStatus × Bool}
    (he : (e.1, e.2.1) ∈ (a.source e.2.2).entries)
    (hne : e.1 ≠ c.1) : (e.1, e.2.1) ∈ ((a.applyEviction c).source e.2.2).entries := by
  obtain ⟨k, b, flag⟩ := c
  obtain ⟨k', b', flag'⟩ := e
  cases flag <;> cases flag' <;> first | exact mem_erase he hne | exact he

lemma perm_foldl_applyEviction (hnd : (cs.map Prod.fst).Nodup)
    (hall : ∀ c ∈ cs, (c.1, c.2.1) ∈ (a.source c.2.2).entries) :
    (a.t1.entries ++ a.t2.entries).Perm ((cs.map fun c => (c.1, c.2.1)) ++
      ((cs.foldl applyEviction a).t1.entries ++ (cs.foldl applyEviction a).t2.entries)) := by
  induction cs generalizing a with
  | nil => exact .refl _
  | cons c cs ih =>
    rw [map_cons, nodup_cons] at hnd
    have hrest : ∀ e ∈ cs, (e.1, e.2.1) ∈ ((a.applyEviction c).source e.2.2).entries := fun e he =>
      mem_source_applyEviction (hall e (mem_cons_of_mem c he)) fun heq =>
        hnd.1 (List.mem_map.mpr ⟨e, he, heq⟩)
    exact (perm_applyEviction (hall c mem_cons_self)).trans ((ih hnd.2 hrest).cons _)

lemma perm_evict {n : ℕ} {r : List (κ × BlockStatus) × ARC κ} (h : a.evict n excluded = some r) :
    (a.t1.entries ++ a.t2.entries).Perm (r.1 ++ (r.2.t1.entries ++ r.2.t2.entries)) ∧
    r.1.length = n ∧
      ∀ e ∈ r.1, evictable excluded e := by
  unfold evict at h
  split at h
  next hn =>
    cases h
    exact ⟨.refl _, hn.symm, fun e he => absurd he not_mem_nil⟩
  obtain ⟨cs, hcs, hr⟩ := bind_eq_some_iff.mp h
  cases hr
  obtain ⟨hlen, hnd, hall⟩ := select_spec hcs
  refine ⟨perm_foldl_applyEviction hnd fun c hc => (hall c hc).2, by rw [length_map, hlen],
    fun e he => ?_⟩
  obtain ⟨c, hc, rfl⟩ := List.mem_map.mp he
  exact (hall c hc).1

end ARC

namespace CachePolicy

variable {p p' : CachePolicy κ} {k : κ} {b : BlockStatus}

lemma get_eq_some_iff (hv : p.Valid) : p.get k = some b ↔ (k, b) ∈ p.blocks := by
  cases p with
  | lru d => exact get?_eq_some_iff
  | arc a =>
    show a.get k = some b ↔ (k, b) ∈ a.t1.entries ++ a.t2.entries
    rw [mem_append]
    cases h : a.t1.get? k with
    | none =>
      have hnot : (k, b) ∉ a.t1.entries := fun hmem => get?_eq_none_iff.mp h (mem_map_of_mem hmem)
      rw [ARC.get_of_not_t1 h, get?_eq_some_iff]
      exact (or_iff_right hnot).symm
    | some c =>
      have hmem := get?_eq_some_iff.mp h
      have hnot : (k, b) ∉ a.t2.entries := fun hmem' =>
        ARC.disjoint_iff.mpr hv k (mem_map_of_mem hmem) (mem_map_of_mem hmem')
      rw [ARC.get_of_t1 h, ← h, get?_eq_some_iff]
      exact (or_iff_left hnot).symm

lemma get_eq_none_iff (hv : p.Valid) : p.get k = none ↔ k ∉ p.blocks.map Prod.fst := by
  rw [Option.eq_none_iff_forall_ne_some, List.mem_map]
  constructor
  · rintro h ⟨e, he, rfl⟩
    exact h e.2 ((get_eq_some_iff hv).mpr he)
  · intro h c hc
    exact h ⟨(k, c), (get_eq_some_iff hv).mp hc, rfl⟩

omit [DecidableEq κ] in
lemma Valid.perm (hv : p.Valid) (h : p'.blocks.Perm p.blocks) :
    p'.Valid := (h.map Prod.fst).nodup_iff.mpr hv

lemma get_modify (p : CachePolicy κ) (k k' : κ) (f : BlockStatus → BlockStatus) :
    (p.modify k f).get k' = (p.get k').map fun b => if k' = k then f b else b := by
  cases p with
  | lru d => exact get?_modify k' f
  | arc a =>
    show ((a.t1.modify k f).get? k').or ((a.t2.modify k f).get? k') = (a.get k').map _
    rw [get?_modify, get?_modify, ARC.get]
    cases a.t1.get? k' <;> rfl

lemma get_of_append {es : List (κ × BlockStatus)} (hv : p.Valid)
    (hperm : p.blocks.Perm (es ++ p'.blocks)) (hk : k ∉ es.map Prod.fst) : p'.get k = p.get k := by
  have hv' : ((es ++ p'.blocks).map Prod.fst).Nodup := (hperm.map Prod.fst).nodup_iff.mp hv
  rw [map_append] at hv'
  refine ext fun b => ?_
  rw [get_eq_some_iff (hv'.sublist (sublist_append_right _ _)), get_eq_some_iff hv, hperm.mem_iff,
    mem_append]
  exact (or_iff_right fun hmem => hk (mem_map_of_mem hmem)).symm

lemma keys_modify (p : CachePolicy κ) (k : κ) (f : BlockStatus → BlockStatus) :
    (p.modify k f).blocks.map Prod.fst = p.blocks.map Prod.fst := by
  cases p with
  | lru d =>
    show (d.mapValues _).entries.map Prod.fst = d.entries.map Prod.fst
    rw [mapValues, List.map_map]
    rfl
  | arc a =>
    show ((a.t1.mapValues _).entries ++ (a.t2.mapValues _).entries).map Prod.fst = _
    rw [map_append, mapValues, mapValues, List.map_map, List.map_map]
    exact map_append.symm

lemma exists_rest (hv : p.Valid) (h : p.get k = some b) : ∃ rest, p.blocks.Perm ((k, b) :: rest) ∧
    (∀ f, (p.modify k f).blocks.Perm ((k, f b) :: rest)) ∧ ∃ p', p.remove k = .ok p' ∧
    p'.blocks = rest := by
  cases p with
  | lru d =>
    refine ⟨(d.erase k).entries, perm_erase h, perm_modify h, .lru (d.erase k), ?_, rfl⟩
    have hmem : k ∈ d.keys := mem_map_of_mem (get?_eq_some_iff.mp h)
    exact if_pos hmem
  | arc a =>
    have hdis := ARC.disjoint_iff.mpr hv
    have same : ∀ (d : OrderedDict κ BlockStatus), k ∉ d.keys →
      ∀ f, (d.modify k f).entries = d.entries := by
      intro d hk f
      refine (map_congr_left fun e he => ?_).trans (map_id _)
      have hne : e.1 ≠ k := fun heq => hk (List.mem_map.mpr ⟨e, he, heq⟩)
      show (e.1, if e.1 = k then f e.2 else e.2) = e
      rw [if_neg hne]
    cases h1 : a.t1.get? k with
    | some c =>
      have hcb : c = b := some.inj ((ARC.get_of_t1 h1).symm.trans h)
      subst hcb
      have hnot : k ∉ a.t2.keys := hdis k (mem_map_of_mem (get?_eq_some_iff.mp h1))
      refine ⟨(a.t1.erase k).entries ++ a.t2.entries, (perm_erase h1).append_right _, fun f => ?_,
        .arc { a with t1 := a.t1.erase k }, ?_, rfl⟩
      · show ((a.t1.modify k f).entries ++ (a.t2.modify k f).entries).Perm _
        rw [same a.t2 hnot]
        exact (perm_modify h1 f).append_right _
      · show Except.ok (CachePolicy.arc (a.remove k)) = _
        rw [ARC.remove, h1]
    | none =>
      have h2 : a.t2.get? k = some b := (ARC.get_of_not_t1 h1).symm.trans h
      refine ⟨a.t1.entries ++ (a.t2.erase k).entries, ?_, fun f => ?_,
        .arc { a with t2 := a.t2.erase k }, ?_, rfl⟩
      · exact ((perm_erase h2).append_left _).trans perm_middle
      · show ((a.t1.modify k f).entries ++ (a.t2.modify k f).entries).Perm _
        rw [same a.t1 (get?_eq_none_iff.mp h1)]
        exact ((perm_modify h2 f).append_left _).trans perm_middle
      · show Except.ok (CachePolicy.arc (a.remove k)) = _
        rw [ARC.remove, h1]

lemma perm_insert (hv : p.Valid) (h : p.get k = none) :
    (p.insert k b).blocks.Perm ((k, b) :: p.blocks) := by
  have hnot := (get_eq_none_iff hv).mp h
  cases p with
  | lru d =>
    show (d.set k b).entries.Perm _
    rw [entries_set hnot]
    exact perm_append_singleton _ _
  | arc a =>
    have hnot1 : k ∉ a.t1.keys := fun hk => hnot (by
      show k ∈ (a.t1.entries ++ a.t2.entries).map Prod.fst
      rw [map_append]
      exact mem_append_left _ hk)
    show ((a.t1.set k b).entries ++ a.t2.entries).Perm _
    rw [entries_set hnot1]
    exact (perm_append_singleton _ _).append_right _

lemma perm_touchKey (hv : p.Valid) (k : κ) : (p.touchKey k).blocks.Perm p.blocks := by
  cases p with
  | lru d => exact perm_moveToEnd d k
  | arc a => exact ARC.perm_touchKey (ARC.disjoint_iff.mpr hv) k

lemma perm_touch (hv : p.Valid) (ks : List κ) : (p.touch ks).blocks.Perm p.blocks := by
  unfold touch
  induction ks.reverse generalizing p with
  | nil => exact .refl _
  | cons k ks ih =>
    have hk := perm_touchKey hv k
    exact (ih (hv.perm hk)).trans hk

lemma perm_evict {n : ℕ} {excluded : List κ} {evicted : List (κ × BlockStatus)} (hv : p.Valid)
    (h : p.evict n excluded = some (evicted, p')) :
    p.blocks.Perm (evicted ++ p'.blocks) ∧ evicted.length = n ∧
      ∀ e ∈ evicted, evictable excluded e := by
  cases p with
  | lru d =>
    dsimp only [evict] at h
    split at h
    · cases h
    rename_i hlen
    cases h
    have hsub : ((d.entries.filter (evictable excluded)).take n).Sublist d.entries :=
      (take_sublist _ _).trans filter_sublist
    refine ⟨perm_foldl_erase (fun c hc => hsub.mem hc) (d.nodup.sublist (hsub.map _)), ?_,
      fun e he => ?_⟩
    · have := length_take_le n (d.entries.filter (evictable excluded))
      omega
    · exact (mem_filter.mp (mem_of_mem_take he)).2
  | arc a =>
    obtain ⟨r, hr, hp⟩ := map_eq_some_iff.mp h
    cases hp
    exact ARC.perm_evict hr

omit [DecidableEq κ] in
lemma blocks_clear (p : CachePolicy κ) : p.clear.blocks = [] := by cases p <;> rfl

omit [DecidableEq κ] in
lemma blocks_init (name : Name) (n : ℕ) :
    (init name n : CachePolicy κ).blocks = [] := by cases name <;> rfl

end CachePolicy

end Vllm.Offload
