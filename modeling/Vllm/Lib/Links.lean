import Mathlib.Data.List.Chain
import Mathlib.Data.List.Nodup

/-!
# Doubly linked lists

`IsList s L`: the links `s` hold the nodes `L` in this order. Insertion and removal replace what is
between two nodes (`IsList.splice`).
-/

/-- The pointers of a doubly linked list. -/
structure Links (α : Type*) where
  prev : α → Option α := fun _ => none
  next : α → Option α := fun _ => none

namespace Links

open List Function

variable {α : Type*} {s t : Links α} {a b c : α} {l m r L bs : List α}

def Path (s : Links α) (L : List α) : Prop :=
  L.IsChain fun a b => s.next a = some b ∧ s.prev b = some a

/-- The nodes of `L` are linked in this order and no other node is linked. -/
structure IsList (s : Links α) (L : List α) : Prop where
  nodup : L.Nodup
  path : s.Path L
  first : ∀ a ∈ L.head?, s.prev a = none
  last : ∀ a ∈ L.getLast?, s.next a = none
  out : ∀ a ∉ L, s.prev a = none ∧ s.next a = none

lemma Path.congr (h : s.Path L) (hnext : ∀ a ∈ L.dropLast, t.next a = s.next a)
    (hprev : ∀ a ∈ L.tail, t.prev a = s.prev a) : t.Path L := by
  induction L with
  | nil => exact .nil
  | cons a L ih =>
    cases L with
    | nil => exact .singleton a
    | cons b L =>
      obtain ⟨⟨hab, hba⟩, hrest⟩ := isChain_cons_cons.mp h
      refine isChain_cons_cons.mpr ⟨⟨?_, ?_⟩, ih hrest (fun c hc => ?_) fun c hc => ?_⟩
      · rw [hnext a mem_cons_self, hab]
      · rw [hprev b mem_cons_self, hba]
      · exact hnext c (mem_cons_of_mem a hc)
      · exact hprev c (mem_cons_of_mem b hc)

lemma path_three : s.Path (l ++ a :: (m ++ b :: r)) ↔
    s.Path (l ++ [a]) ∧ s.Path (a :: (m ++ [b])) ∧ s.Path (b :: r) := by
  have hsplit : s.Path (a :: m ++ b :: r) ↔ s.Path (a :: m ++ [b]) ∧ s.Path (b :: r) :=
    isChain_split
  exact isChain_split.trans (and_congr_right fun _ => hsplit)

lemma Path.next_head (h : s.Path (a :: L)) (hL : L ≠ []) : s.next a = L.head? := by
  obtain ⟨b, r, rfl⟩ := exists_cons_of_ne_nil hL
  exact (isChain_cons_cons.mp h).1.1

lemma IsList.next_eq (h : s.IsList (l ++ a :: b :: r)) : s.next a = some b :=
  (isChain_append_cons_cons.mp h.path).2.1.1

lemma IsList.prev_eq (h : s.IsList (l ++ a :: b :: r)) : s.prev b = some a :=
  (isChain_append_cons_cons.mp h.path).2.1.2

lemma Path.unique {L' : List α} (h : s.Path (a :: L)) (h' : s.Path (a :: L'))
    (hlast : ∀ c ∈ (a :: L).getLast?, s.next c = none)
    (hlast' : ∀ c ∈ (a :: L').getLast?, s.next c = none) :
    L = L' := by
  induction L generalizing a L' with
  | nil =>
    cases L' with
    | nil => rfl
    | cons b L' =>
      have hnone := hlast a rfl
      rw [h'.next_head (cons_ne_nil b L')] at hnone
      cases hnone
  | cons b L ih =>
    cases L' with
    | nil =>
      have hnone := hlast' a rfl
      rw [h.next_head (cons_ne_nil b L)] at hnone
      cases hnone
    | cons b' L' =>
      have hnext := h.next_head (cons_ne_nil b L)
      rw [h'.next_head (cons_ne_nil b' L')] at hnext
      obtain rfl : b' = b := Option.some.inj hnext
      obtain ⟨-, hrest⟩ := isChain_cons_cons.mp h
      obtain ⟨-, hrest'⟩ := isChain_cons_cons.mp h'
      rw [ih hrest hrest' (fun c hc => hlast c (by simpa using hc)) fun c hc =>
        hlast' c (by simpa using hc)]

/-- Replacing the nodes `m` between `a` and `b` by `m'`: other links stay, `m'` is linked to `a` and
`b`, and what leaves is cleared. -/
lemma IsList.splice (m' : List α) (h : s.IsList (l ++ a :: (m ++ b :: r)))
    (hnd : (l ++ a :: (m' ++ b :: r)).Nodup) (hpath : t.Path (a :: (m' ++ [b])))
    (hnext : ∀ c, c ≠ a → c ∉ m → c ∉ m' → t.next c = s.next c)
    (hprev : ∀ c, c ≠ b → c ∉ m → c ∉ m' → t.prev c = s.prev c)
    (hclear : ∀ c ∈ m, c ∉ m' → t.prev c = none ∧ t.next c = none) :
    t.IsList (l ++ a :: (m' ++ b :: r)) := by
  have hold := h.nodup
  obtain ⟨hleft, -, hright⟩ := path_three.mp h.path
  -- Nodes before `a` and behind `b` are in neither of the two middle parts.
  have hoff : ∀ c ∈ l ++ b :: r, c ≠ a ∧ c ∉ m ∧ c ∉ m' := by
    intro c hc
    grind
  have hoff' : ∀ c ∈ l ++ a :: r, c ≠ b ∧ c ∉ m ∧ c ∉ m' := by
    intro c hc
    grind
  have hn : ∀ c ∈ l ++ b :: r, t.next c = s.next c := fun c hc =>
    hnext c (hoff c hc).1 (hoff c hc).2.1 (hoff c hc).2.2
  have hp : ∀ c ∈ l ++ a :: r, t.prev c = s.prev c := fun c hc =>
    hprev c (hoff' c hc).1 (hoff' c hc).2.1 (hoff' c hc).2.2
  refine ⟨hnd, path_three.mpr ⟨hleft.congr ?_ ?_, hpath, hright.congr ?_ ?_⟩, ?_, ?_, ?_⟩
  · intro c hc
    rw [dropLast_concat] at hc
    exact hn c (mem_append_left _ hc)
  · intro c hc
    have hc := mem_of_mem_tail hc
    exact hp c (by grind)
  · intro c hc
    exact hn c (mem_append_right _ (dropLast_subset _ hc))
  · intro c hc
    exact hp c (by grind)
  · intro c hc
    have hhead : c ∈ (l ++ a :: (m ++ b :: r)).head? := by cases l <;> simpa using hc
    rw [hp c, h.first c hhead]
    cases l <;> simp_all
  · intro c hc
    have hlast : c ∈ (l ++ a :: (m ++ b :: r)).getLast? := by
      simpa [getLast?_append, getLast?_cons] using hc
    rw [hn c, h.last c hlast]
    have hr : c ∈ (b :: r).getLast? := by simpa [getLast?_append, getLast?_cons] using hc
    exact mem_append_right _ (mem_of_mem_getLast? hr)
  intro c hc
  by_cases hm : c ∈ m
  · exact hclear c hm (by grind)
  obtain ⟨h1, h2⟩ := h.out c (by grind)
  rw [hprev c (by grind) hm (by grind), hnext c (by grind) hm (by grind)]
  exact ⟨h1, h2⟩

/-! ## Changing links -/

variable [DecidableEq α]

def setPrev (s : Links α) (a : α) (v : Option α) :
    Links α := { s with prev := Function.update s.prev a v }

def setNext (s : Links α) (a : α) (v : Option α) :
    Links α := { s with next := Function.update s.next a v }

def link (s : Links α) (a b : α) : Links α := (s.setNext a (some b)).setPrev b (some a)

def clear (s : Links α) (a : α) : Links α := (s.setPrev a none).setNext a none

@[simp] lemma next_link (s : Links α) (a b c : α) :
    (s.link a b).next c = if c = a then some b else s.next c := by
  simp [link, setNext, setPrev, update_apply]

@[simp] lemma prev_link (s : Links α) (a b c : α) :
    (s.link a b).prev c = if c = b then some a else s.prev c := by
  simp [link, setNext, setPrev, update_apply]

@[simp] lemma next_clear (s : Links α) (a c : α) :
    (s.clear a).next c = if c = a then none else s.next c := by
  simp [clear, setNext, setPrev, update_apply]

@[simp] lemma prev_clear (s : Links α) (a c : α) :
    (s.clear a).prev c = if c = a then none else s.prev c := by
  simp [clear, setNext, setPrev, update_apply]

lemma Path.clear_head (h : s.Path (a :: L)) (ha : a ∉ L) : (s.clear a).Path L := by
  refine Path.congr (isChain_cons.mp h).2 (fun c hc => ?_) fun c hc => ?_
  · have hca : c ≠ a := fun heq => ha (heq ▸ dropLast_subset L hc)
    rw [next_clear, if_neg hca]
  · have hca : c ≠ a := fun heq => ha (heq ▸ mem_of_mem_tail hc)
    rw [prev_clear, if_neg hca]

def linkAll (s : Links α) (a : α) : List α → Links α × α
  | [] => (s, a)
  | b :: bs => (s.link a b).linkAll b bs

lemma next_linkAll (hc : c ∉ a :: bs) : (s.linkAll a bs).1.next c = s.next c := by
  induction bs generalizing s a with
  | nil => rfl
  | cons b bs ih =>
    obtain ⟨hca, hcb⟩ := ne_and_not_mem_of_not_mem_cons hc
    show ((s.link a b).linkAll b bs).1.next c = _
    rw [ih hcb, next_link, if_neg hca]

lemma prev_linkAll (hc : c ∉ bs) : (s.linkAll a bs).1.prev c = s.prev c := by
  induction bs generalizing s a with
  | nil => rfl
  | cons b bs ih =>
    obtain ⟨hcb, hcbs⟩ := ne_and_not_mem_of_not_mem_cons hc
    show ((s.link a b).linkAll b bs).1.prev c = _
    rw [ih hcbs, prev_link, if_neg hcb]

lemma linkAll_last (s : Links α) (a : α) (bs : List α) : (s.linkAll a bs).2 ∈ a :: bs := by
  induction bs generalizing s a with
  | nil => exact mem_cons_self
  | cons b bs ih => exact mem_cons_of_mem a (ih (s.link a b) b)

lemma path_linkAll (s : Links α) (h : (a :: bs).Nodup) : (s.linkAll a bs).1.Path (a :: bs) := by
  induction bs generalizing s a with
  | nil => exact .singleton a
  | cons b bs ih =>
    obtain ⟨ha, hbs⟩ := nodup_cons.mp h
    refine isChain_cons_cons.mpr ⟨⟨?_, ?_⟩, ih (s.link a b) hbs⟩
    · show ((s.link a b).linkAll b bs).1.next a = _
      rw [next_linkAll ha, next_link, if_pos rfl]
    · show ((s.link a b).linkAll b bs).1.prev b = _
      rw [prev_linkAll (nodup_cons.mp hbs).1, prev_link, if_pos rfl]

def insertBetween (s : Links α) (a : α) (bs : List α) (b : α) : Links α :=
  let out := s.linkAll a bs
  out.1.link out.2 b

lemma insertBetween_eq (s : Links α) (a : α) (bs : List α) (b : α) :
    s.insertBetween a bs b = (s.linkAll a (bs ++ [b])).1 := by
  induction bs generalizing s a with
  | nil => rfl
  | cons c bs ih => exact ih (s.link a c) c

lemma next_insertBetween (hc : c ∉ a :: bs) : (s.insertBetween a bs b).next c = s.next c := by
  have hlast : c ≠ (s.linkAll a bs).2 := fun heq => hc (heq ▸ linkAll_last s a bs)
  show ((s.linkAll a bs).1.link _ b).next c = _
  rw [next_link, if_neg hlast, next_linkAll hc]

lemma prev_insertBetween (hb : c ≠ b) (hc : c ∉ bs) :
    (s.insertBetween a bs b).prev c = s.prev c := by
  rw [insertBetween_eq]
  exact prev_linkAll (by simp [hc, hb])

lemma path_insertBetween (s : Links α) (h : (a :: (bs ++ [b])).Nodup) :
    (s.insertBetween a bs b).Path (a :: (bs ++ [b])) := by
  rw [insertBetween_eq]
  exact path_linkAll s h

lemma IsList.insertBetween (bs : List α) (h : s.IsList (l ++ a :: b :: r)) (hbs : bs.Nodup)
    (hnew : ∀ c ∈ bs, c ∉ l ++ a :: b :: r) :
    (s.insertBetween a bs b).IsList (l ++ a :: (bs ++ b :: r)) := by
  have hold := h.nodup
  have hnd : (l ++ a :: (bs ++ b :: r)).Nodup := by
    grind
  have hmid : (a :: (bs ++ [b])).Nodup := by
    refine hnd.sublist (Sublist.trans ?_ (sublist_append_right _ _))
    exact (((Sublist.refl [b]).trans (singleton_sublist.mpr mem_cons_self)).append_left
      bs).cons_cons a
  refine IsList.splice (m := []) bs h hnd (path_insertBetween s hmid) (fun c hca _ hcb => ?_)
    (fun c hcb _ hc => prev_insertBetween hcb hc) (by simp)
  exact next_insertBetween (by simp [hca, hcb])

lemma isList_insertBetween (h : (a :: (bs ++ [b])).Nodup) :
    (({} : Links α).insertBetween a bs b).IsList (a :: (bs ++ [b])) := by
  have hb : b ∉ a :: bs := by
    rw [← cons_append, nodup_append] at h
    intro hmem
    exact h.2.2 b hmem b (mem_singleton.mpr rfl) rfl
  refine ⟨h, path_insertBetween _ h, fun c hc => ?_, fun c hc => ?_, fun c hc => ⟨?_, ?_⟩⟩
  · exact prev_insertBetween (by grind) (by grind)
  · rw [← cons_append, getLast?_concat] at hc
    obtain rfl : b = c := Option.some.inj hc
    exact next_insertBetween hb
  · exact prev_insertBetween (by grind) (by grind)
  · exact next_insertBetween (by grind)

lemma linkAll_link (s : Links α) (bs : List α) {a h x : α} (hh : h ∉ a :: bs) (hx : x ∉ bs) :
    (s.link h x).linkAll a bs = ((s.linkAll a bs).1.link h x, (s.linkAll a bs).2) := by
  induction bs generalizing s a with
  | nil => rfl
  | cons b bs ih =>
    obtain ⟨hha, hhb⟩ := ne_and_not_mem_of_not_mem_cons hh
    obtain ⟨hxb, hxbs⟩ := ne_and_not_mem_of_not_mem_cons hx
    have hcomm : (s.link h x).link a b = (s.link a b).link h x := by
      simp only [link, setNext, setPrev, Links.mk.injEq]
      exact ⟨update_comm hxb _ _ _, update_comm hha _ _ _⟩
    show ((s.link h x).link a b).linkAll b bs = _
    rw [hcomm, ih (s.link a b) hhb hxbs]
    rfl

lemma linkAll_snd (s : Links α) (a : α) (bs : List α) :
    (s.linkAll a bs).2 = (a :: bs).getLast (cons_ne_nil a bs) := by
  induction bs generalizing s a with
  | nil => rfl
  | cons b bs ih =>
    exact ih (s.link a b) b

def clearAll (s : Links α) (L : List α) : Links α := L.foldl clear s

lemma next_clearAll (s : Links α) (L : List α) (c : α) :
    (s.clearAll L).next c = if c ∈ L then none else s.next c := by
  induction L generalizing s with
  | nil => simp [clearAll]
  | cons a L ih =>
    show ((s.clear a).clearAll L).next c = _
    rw [ih, next_clear]
    by_cases hca : c = a <;> simp [hca]

lemma prev_clearAll (s : Links α) (L : List α) (c : α) :
    (s.clearAll L).prev c = if c ∈ L then none else s.prev c := by
  induction L generalizing s with
  | nil => simp [clearAll]
  | cons a L ih =>
    show ((s.clear a).clearAll L).prev c = _
    rw [ih, prev_clear]
    by_cases hca : c = a <;> simp [hca]

lemma IsList.dropMiddle (h : s.IsList (l ++ a :: (m ++ b :: r))) :
    ((s.clearAll m).link a b).IsList (l ++ a :: b :: r) := by
  have hold := h.nodup
  refine IsList.splice [] h (hold.sublist ?_) ?_ ?_ ?_ ?_
  · exact ((sublist_append_right m (b :: r)).cons_cons a).append_left l
  · exact isChain_cons_cons.mpr ⟨by simp, .singleton b⟩
  · intro c hca hcm _
    simp [next_clearAll, hca, hcm]
  · intro c hcb hcm _
    simp [prev_clearAll, hcb, hcm]
  intro c hc _
  have hca : c ≠ a ∧ c ≠ b := by
    simp only [nodup_append, nodup_cons, mem_append, mem_cons] at hold
    grind
  simp [prev_clearAll, next_clearAll, hc, hca]

def unlink (s : Links α) (a c b : α) : Links α := (s.link a b).clear c

lemma IsList.unlink (h : s.IsList (l ++ a :: c :: b :: r)) :
    (s.unlink a c b).IsList (l ++ a :: b :: r) := by
  have hold := h.nodup
  have hne : c ≠ a ∧ c ≠ b := by
    simp only [nodup_append, nodup_cons, mem_cons] at hold
    grind
  refine IsList.splice (m := [c]) [] h (hold.sublist ?_) ?_ ?_ ?_ ?_
  · exact (((sublist_cons_self c _).cons_cons a).append_left l)
  · refine isChain_cons_cons.mpr ⟨⟨?_, ?_⟩, .singleton b⟩
    · simp [Links.unlink, hne.1.symm]
    · simp [Links.unlink, hne.2.symm]
  · intro d hda hdc _
    simp_all [Links.unlink]
  · intro d hdb hdc _
    simp_all [Links.unlink]
  · intro d hd _
    simp_all [Links.unlink]

end Links
