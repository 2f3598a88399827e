import Vllm.KVCache.LinkedPool

/-! # The linked free list and the prefix-cache map hold lists -/

namespace Vllm

open List Function Links

/-! ## The free list -/

namespace FreeKVCacheBlockQueue

variable {q : FreeKVCacheBlockQueue} {l : List ℕ} {b : ℕ}

def nodes (l : List ℕ) : List FreeNode := .head :: (l.map .block ++ [.tail])

def Holds (q : FreeKVCacheBlockQueue) (l : List ℕ) : Prop := q.links.IsList (nodes l)

lemma nodup_nodes : (nodes l).Nodup ↔ l.Nodup := by
  have hinj : (l.map FreeNode.block).Nodup ↔ l.Nodup :=
    nodup_map_iff fun _ _ h => FreeNode.block.inj h
  simp [nodes, nodup_append, hinj]

lemma Holds.nodup (h : q.Holds l) : l.Nodup := nodup_nodes.mp (IsList.nodup h)

lemma Holds.unique {l' : List ℕ} (h : q.Holds l) (h' : q.Holds l') : l = l' := by
  have hmap := h.path.unique h'.path h.last h'.last
  exact (List.map_inj_right fun _ _ hb => FreeNode.block.inj hb).mp (append_cancel_right hmap)

lemma mem_nodes : FreeNode.block b ∈ nodes l ↔ b ∈ l := by simp [nodes]

lemma nodes_around (l1 l2 : List ℕ) : ∃ xs x y ys, ∀ m : List ℕ,
    nodes (l1 ++ (m ++ l2)) = xs ++ x :: (m.map .block ++ y :: ys) := by
  obtain ⟨xs, x, hx⟩ : ∃ xs x, FreeNode.head :: l1.map .block = xs ++ [x] :=
    ⟨_, _, (dropLast_append_getLast (by simp)).symm⟩
  obtain ⟨y, ys, hy⟩ : ∃ y ys, l2.map FreeNode.block ++ [FreeNode.tail] = y :: ys :=
    exists_cons_of_ne_nil (by simp)
  refine ⟨xs, x, y, ys, fun m => ?_⟩
  rw [nodes, map_append, map_append, append_assoc, append_assoc, hy, ← cons_append, hx,
    append_assoc, singleton_append]

lemma initLoop_eq (a : FreeNode) (x : FreeNode) (xs : List FreeNode) (s : Links FreeNode) :
    initLoop (some a) (x :: xs) (s.setNext a (some x)) = (s.linkAll a (x :: xs)).1 := by
  induction xs generalizing a x s with
  | nil => rfl
  | cons y ys ih => exact ih x y (s.link a x)

lemma holds_init (h : l.Nodup) : (init l).Holds l := by
  suffices hlinks :
    (init l).links = ({} : Links FreeNode).insertBetween .head (l.map .block) .tail by
    have hnodes : (nodes l).Nodup := nodup_nodes.mpr h
    unfold Holds
    rw [hlinks]
    exact isList_insertBetween hnodes
  cases l with
  | nil => rfl
  | cons x xs =>
    have hloop : initLoop none ((x :: xs).map .block) {} =
        (({} : Links FreeNode).linkAll (.block x) (xs.map .block)).1 := by
      cases xs with
      | nil => rfl
      | cons y ys => exact initLoop_eq (.block x) (.block y) (ys.map .block) {}
    have hx : FreeNode.block x ∉ xs.map .block := by simpa using (nodup_cons.mp h).1
    have hlast : ((x :: xs).map FreeNode.block).getLast? =
        some (({} : Links FreeNode).linkAll (.block x) (xs.map .block)).2 := by
      rw [linkAll_snd]
      exact getLast?_eq_some_getLast _
    have hswap :=
      linkAll_link ({} : Links FreeNode) (xs.map .block) (a := .block x) (h := .head) (by simp) hx
    have hinsert : ({} : Links FreeNode).insertBetween .head ((x :: xs).map .block) .tail =
        let out := (({} : Links FreeNode).link .head (.block x)).linkAll (.block x) (xs.map .block)
        out.1.link out.2 .tail := rfl
    rw [hinsert, hswap]
    simp only [init, hloop, hlast]
    rfl

lemma Holds.popleft (h : q.Holds (b :: l)) :
    ∃ q', q.popleft = .ok (.block b, q') ∧ q'.Holds l ∧ q'.numFreeBlocks = q.numFreeBlocks - 1 := by
  obtain ⟨second, rest, hrest⟩ : ∃ y r, l.map FreeNode.block ++ [.tail] = y :: r :=
    exists_cons_of_ne_nil (by simp)
  have hlist : q.links.IsList ([] ++ .head :: .block b :: second :: rest) := by
    rw [← hrest]
    exact h
  have hfst : q.links.next .head = some (.block b) := hlist.next_eq
  have hsecond : q.links.next (.block b) = some second := by
    have hlist' : q.links.IsList ([.head] ++ .block b :: second :: rest) := hlist
    exact hlist'.next_eq
  refine ⟨_, by simp only [FreeKVCacheBlockQueue.popleft, hfst, hsecond]; rfl, ?_, rfl⟩
  have hout := hlist.unlink
  rw [← hrest] at hout
  exact hout

variable {s : Links FreeNode}

lemma popLoop_spec {m : List ℕ} {y : FreeNode} {r : List FreeNode}
    (hnd : (m.map FreeNode.block ++ y :: r).Nodup) (hpath : s.Path (m.map .block ++ y :: r)) :
    popLoop m.length (m.map FreeNode.block ++ y :: r).head? s =
    .ok (m, some y, s.clearAll (m.map .block)) := by
  induction m generalizing s with
  | nil => rfl
  | cons b m ih =>
    have hpath : s.Path (.block b :: (m.map .block ++ y :: r)) := hpath
    obtain ⟨hb, hrest⟩ := nodup_cons.mp hnd
    show (popLoop m.length (s.next (.block b)) (s.clear (.block b)) >>= _) = _
    rw [hpath.next_head (by simp), ih hrest (hpath.clear_head hb)]
    rfl

lemma popLoop_error {n : ℕ} (hlt : l.length < n)
    (hnd : (l.map FreeNode.block ++ [FreeNode.tail]).Nodup)
    (hpath : s.Path (l.map .block ++ [.tail])) :
    popLoop n (l.map FreeNode.block ++ [FreeNode.tail]).head? s = .error (.assertionError "") := by
  induction l generalizing n s with
  | nil =>
    obtain ⟨n, rfl⟩ := Nat.exists_eq_succ_of_ne_zero (Nat.ne_of_gt hlt)
    rfl
  | cons b l ih =>
    obtain ⟨n, rfl⟩ := Nat.exists_eq_succ_of_ne_zero (Nat.ne_of_gt (Nat.zero_lt_of_lt hlt))
    have hpath : s.Path (.block b :: (l.map .block ++ [.tail])) := hpath
    obtain ⟨hb, hrest⟩ := nodup_cons.mp hnd
    show (popLoop n (s.next (.block b)) (s.clear (.block b)) >>= _) = _
    rw [hpath.next_head (by simp), ih (by simpa using hlt) hrest (hpath.clear_head hb)]
    rfl

section

variable (h : q.Holds l)
include h

lemma Holds.next_head : q.links.next .head = (l.map FreeNode.block ++ [FreeNode.tail]).head? :=
  h.path.next_head (by simp)

lemma Holds.popleftN {n : ℤ} (hn : n ≠ 0) (hle : n ≤ q.numFreeBlocks) :
    if (l.length : ℤ) < n then q.popleftN n = .error (.assertionError "")
    else ∃ q', q.popleftN n = .ok (l.take n.toNat, q') ∧ q'.Holds (l.drop n.toNat) ∧
      q'.numFreeBlocks = q.numFreeBlocks - n := by
  have hpath : q.links.Path (l.map .block ++ [.tail]) := (isChain_cons.mp h.path).2
  have hnd : (l.map FreeNode.block ++ [FreeNode.tail]).Nodup := (nodup_cons.mp (IsList.nodup h)).2
  unfold FreeKVCacheBlockQueue.popleftN
  rw [if_neg hn, pyAssert_pos hle, ok_bind, h.next_head]
  split
  next hlt =>
    rw [popLoop_error (by omega) hnd hpath]
    rfl
  rename_i hlt
  -- The list is the popped blocks, the block or fake tail behind them, and the rest.
  obtain ⟨y, r, hr⟩ : ∃ y r, (l.drop n.toNat).map FreeNode.block ++ [FreeNode.tail] = y :: r :=
    exists_cons_of_ne_nil (by simp)
  have hsplit : l.map FreeNode.block ++ [.tail] = (l.take n.toNat).map .block ++ y :: r := by
    rw [← hr, ← append_assoc, ← map_append, take_append_drop]
  have hlen : (l.take n.toNat).length = n.toNat := by
    rw [length_take]
    omega
  rw [hsplit] at hpath hnd ⊢
  have hpop := popLoop_spec hnd hpath
  rw [hlen] at hpop
  rw [hpop]
  refine ⟨_, rfl, ?_, rfl⟩
  have hlist : q.links.IsList ([] ++ .head :: ((l.take n.toNat).map .block ++ y :: r)) := by
    rw [← hsplit]
    exact h
  have hout := hlist.dropMiddle
  rw [← hr] at hout
  exact hout

lemma Holds.remove (b : ℕ) : if b ∈ l then ∃ q', q.remove b = .ok q' ∧ q'.Holds (l.erase b) ∧
      q'.numFreeBlocks = q.numFreeBlocks - 1
    else q.remove b = .error (.runtimeError "remove() called on an invalid block") := by
  split
  next hb =>
    obtain ⟨l1, l2, rfl⟩ := append_of_mem hb
    obtain ⟨xs, x, y, ys, hnodes⟩ := nodes_around l1 l2
    have hlist : q.links.IsList (xs ++ x :: .block b :: y :: ys) := by
      have hh : q.links.IsList (nodes (l1 ++ ([b] ++ l2))) := h
      rw [hnodes] at hh
      exact hh
    have hnext : q.links.next (.block b) = some y := by
      have hlist' : q.links.IsList ((xs ++ [x]) ++ .block b :: y :: ys) := by simpa using hlist
      exact hlist'.next_eq
    refine ⟨{ links := q.links.unlink x (.block b) y, numFreeBlocks := q.numFreeBlocks - 1 }, ?_,
      ?_, rfl⟩
    · simp only [FreeKVCacheBlockQueue.remove, hlist.prev_eq, hnext]
    have hb1 : b ∉ l1 := by
      intro hmem
      obtain ⟨-, -, hdisj⟩ := nodup_append.mp h.nodup
      exact hdisj b hmem b mem_cons_self rfl
    have herase : (l1 ++ b :: l2).erase b = l1 ++ ([] ++ l2) := by
      rw [erase_append_right _ hb1, erase_cons_head, nil_append]
    show IsList _ (nodes _)
    rw [herase, hnodes]
    exact hlist.unlink
  rename_i hb
  obtain ⟨hprev, -⟩ := IsList.out h (.block b) (mem_nodes.not.mpr hb)
  simp only [FreeKVCacheBlockQueue.remove, hprev]

lemma Holds.prependN {bs : List ℕ} (hbs : bs.Nodup) (hnew : ∀ b ∈ bs, b ∉ l) :
    ∃ q', q.prependN bs = .ok q' ∧ q'.Holds (bs ++ l) ∧
    q'.numFreeBlocks = q.numFreeBlocks + bs.length := by
  unfold FreeKVCacheBlockQueue.prependN
  split
  next hnil =>
    obtain rfl := eq_nil_of_length_eq_zero hnil
    exact ⟨q, rfl, h, by simp⟩
  obtain ⟨y, ys, hy⟩ : ∃ y ys, l.map FreeNode.block ++ [FreeNode.tail] = y :: ys :=
    exists_cons_of_ne_nil (by simp)
  have hlist : q.links.IsList ([] ++ .head :: y :: ys) := by
    rw [← hy]
    exact h
  rw [h.next_head, hy]
  refine ⟨_, rfl, ?_, rfl⟩
  have hout := hlist.insertBetween (bs.map .block)
    ((nodup_map_iff fun _ _ h => FreeNode.block.inj h).mpr hbs) fun c hc => ?_
  · rw [← hy] at hout
    show IsList _ (nodes (bs ++ l))
    simpa [nodes] using hout
  obtain ⟨b, hb, rfl⟩ := mem_map.mp hc
  rw [← hy]
  exact mem_nodes.not.mpr (hnew b hb)

lemma Holds.appendN {bs : List ℕ} (hbs : bs.Nodup) (hnew : ∀ b ∈ bs, b ∉ l) :
    ∃ q', q.appendN bs = .ok q' ∧ q'.Holds (l ++ bs) ∧
    q'.numFreeBlocks = q.numFreeBlocks + bs.length := by
  unfold FreeKVCacheBlockQueue.appendN
  split
  next hnil =>
    obtain rfl := eq_nil_of_length_eq_zero hnil
    exact ⟨q, rfl, by simpa using h, by simp⟩
  obtain ⟨x, xs, hx⟩ : ∃ x xs, FreeNode.head :: l.map .block = xs ++ [x] :=
    ⟨_, _, (dropLast_append_getLast (by simp)).symm⟩
  have hnodes : nodes l = xs ++ x :: [.tail] := by
    rw [nodes, ← cons_append, hx, append_assoc, singleton_append]
  have hlist : q.links.IsList (xs ++ x :: .tail :: []) := by
    rw [← hnodes]
    exact h
  rw [hlist.prev_eq]
  refine ⟨_, rfl, ?_, rfl⟩
  have hout := hlist.insertBetween (bs.map .block)
    ((nodup_map_iff fun _ _ h => FreeNode.block.inj h).mpr hbs) fun c hc => ?_
  · have hnodes' : nodes (l ++ bs) = xs ++ x :: (bs.map .block ++ [.tail]) := by
      rw [nodes, map_append, append_assoc, ← cons_append, hx, append_assoc, singleton_append]
    show IsList _ (nodes (l ++ bs))
    rw [hnodes']
    exact hout
  obtain ⟨b, hb, rfl⟩ := mem_map.mp hc
  rw [← hnodes]
  exact mem_nodes.not.mpr (hnew b hb)

end

end FreeKVCacheBlockQueue

namespace BlockHashToBlockMap

variable {m : BlockHashToBlockMap} {f : Bytes → List ℕ}

def blocksAt (m : BlockHashToBlockMap) (key : Bytes) : List ℕ :=
  match m.cache key with
  | none => []
  | some (.single b) => [b]
  | some (.dict bs) => bs

/-- The blocks under each key are those of `f`, and no dict is empty. -/
structure Holds (m : BlockHashToBlockMap) (f : Bytes → List ℕ) : Prop where
  blocks : ∀ key, m.blocksAt key = f key
  nonempty : ∀ key, m.cache key ≠ some (.dict [])

lemma blocksAt_set (m : BlockHashToBlockMap) (key key' : Bytes) (v : Option KVCacheBlocks) :
    (m.set key v).blocksAt key' = if key' = key then (match v with
        | none => []
        | some (.single b) => [b]
        | some (.dict bs) => bs)
      else m.blocksAt key' := by
  unfold blocksAt set
  rcases eq_or_ne key' key with rfl | hk
  · simp
  · simp [hk]

lemma Holds.set (h : m.Holds f) (key : Bytes) (v : Option KVCacheBlocks) {bs : List ℕ}
    (hv : (m.set key v).blocksAt key = bs) (hne : v ≠ some (.dict [])) :
    (m.set key v).Holds (update f key bs) where
  blocks key' := by
    rcases eq_or_ne key' key with rfl | hk
    · rw [update_self, hv]
    · rw [update_of_ne hk, blocksAt_set, if_neg hk, h.blocks]
  nonempty key' := by
    rcases eq_or_ne key' key with rfl | hk
    · simpa [BlockHashToBlockMap.set] using hne
    · simpa [BlockHashToBlockMap.set, Function.update_of_ne hk] using h.nonempty key'

lemma Holds.insert (h : m.Holds f) (key : Bytes) (b : ℕ) : (m.insert key b).Holds
    (update f key (if b ∈ f key then f key else f key ++ [b])) := by
  have hkey := h.blocks key
  unfold BlockHashToBlockMap.insert
  unfold blocksAt at hkey
  split
  next hc =>
    rw [hc] at hkey
    exact h.set key _ (by rw [blocksAt_set, if_pos rfl, ← hkey]; rfl) (by simp)
  next a hc =>
    rw [hc] at hkey
    refine h.set key _ ?_ (by split <;> simp)
    rw [blocksAt_set, if_pos rfl, ← hkey]
    by_cases hba : b = a <;> simp [hba]
  rename_i bs hc
  rw [hc] at hkey
  have hkey : bs = f key := hkey
  have hne : bs ≠ [] := fun hnil => h.nonempty key (hnil ▸ hc)
  refine h.set key _ (by rw [blocksAt_set, if_pos rfl, hkey]) ?_
  split <;> simp [hne]

lemma Holds.pop (h : m.Holds f) (key : Bytes) (b : ℕ) :
    (m.pop key b).1 = (if b ∈ f key then some b else none) ∧
      (m.pop key b).2.Holds (update f key ((f key).erase b)) := by
  have hkey := h.blocks key
  have hkept : b ∉ f key → m.Holds (update f key ((f key).erase b)) := by
    intro hb
    rw [erase_of_not_mem hb, update_eq_self]
    exact h
  unfold BlockHashToBlockMap.pop
  unfold blocksAt at hkey
  split
  next hc =>
    rw [hc] at hkey
    have hb : b ∉ f key := by simp [← hkey]
    exact ⟨(if_neg hb).symm, hkept hb⟩
  next a hc =>
    rw [hc] at hkey
    have hkey : [a] = f key := hkey
    split
    next hab =>
      subst hab
      refine ⟨by simp [← hkey], h.set key none ?_ (by simp)⟩
      simp [blocksAt_set, ← hkey]
    rename_i hab
    have hb : b ∉ f key := by simpa [← hkey] using Ne.symm hab
    exact ⟨(if_neg hb).symm, hkept hb⟩
  rename_i bs hc
  rw [hc] at hkey
  obtain rfl : bs = f key := hkey
  refine ⟨rfl, h.set key _ ?_ ?_⟩
  · rw [blocksAt_set, if_pos rfl]
    by_cases hpos : ((f key).erase b).length > 0
    · simp [hpos]
    rw [if_neg hpos]
    exact (eq_nil_of_length_eq_zero (by omega)).symm
  split
  next hpos =>
    intro heq
    rw [KVCacheBlocks.dict.inj (Option.some.inj heq)] at hpos
    simp at hpos
  · simp

end BlockHashToBlockMap

end Vllm
