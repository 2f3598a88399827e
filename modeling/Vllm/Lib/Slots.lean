import Mathlib.Data.List.Nodup
import Mathlib.Data.List.TakeDrop
import Mathlib.Tactic.Ring

/-! # Slots of blocks, and masks without holes -/

namespace Slots

open List

variable {α : Type*} {bs : List α} (f : ℕ)

/-- The `f` slots of each of the blocks. -/
def slots (bs : List α) : List (α × ℕ) := bs.flatMap fun b => (List.range f).map (b, ·)

@[simp] lemma length_slots (bs : List α) : (slots f bs).length = bs.length * f := by
  induction bs with
  | nil => simp [slots]
  | cons b bs ih =>
    have hcons : slots f (b :: bs) = (range f).map (b, ·) ++ slots f bs := rfl
    rw [hcons, length_append, ih, length_map, length_range, length_cons]
    ring

lemma slots_one (bs : List α) : slots 1 bs = bs.map fun b => (b, 0) := by
  rw [map_eq_flatMap]
  rfl

lemma slots_append (bs cs : List α) :
    slots f (bs ++ cs) = slots f bs ++ slots f cs := flatMap_append

lemma nodup_slots (h : bs.Nodup) : (slots f bs).Nodup := by
  apply nodup_flatMap.mpr
  constructor
  · intro b _
    exact nodup_range.map fun i j hij => (Prod.mk.inj hij).2
  refine h.imp fun {b c} hne x hx hx' => hne ?_
  obtain ⟨i, _, rfl⟩ := mem_map.mp hx
  obtain ⟨j, _, hj⟩ := mem_map.mp hx'
  exact (Prod.mk.inj hj).1.symm

lemma snd_lt_of_mem_slots {f : ℕ} {x : α × ℕ} (h : x ∈ slots f bs) : x.2 < f := by
  obtain ⟨b, _, hx⟩ := mem_flatMap.mp h
  obtain ⟨i, hi, rfl⟩ := mem_map.mp hx
  exact mem_range.mp hi

lemma take_drop_slots_append {f k n : ℕ} (h : k + n ≤ bs.length * f) (cs : List α) :
    ((slots f (bs ++ cs)).drop k).take n = ((slots f bs).drop k).take n := by
  have hlen := length_slots f bs
  rw [slots_append, drop_append_of_le_length (by omega),
    take_append_of_le_length (by rw [length_drop]; omega)]

variable {p : α → Bool}

/-- A mask selects the part of a list from `k` on iff it leaves out nothing behind `k`. -/
lemma filter_eq_take_drop_iff {l : List α} (hnd : l.Nodup) {k : ℕ}
    (hk : ∀ x ∈ l.take k, p x = false) (hlast : ∀ x ∈ l.getLast?, p x = true) :
    l.filter p = (l.drop k).take (l.filter p).length ↔ ∀ x ∈ l.drop k, p x = true := by
  have hnil : (l.take k).filter p = [] := filter_eq_nil_iff.mpr fun x hx => by simp [hk x hx]
  have hdrop : l.filter p = (l.drop k).filter p := by
    conv_lhs => rw [← take_append_drop k l, filter_append, hnil, nil_append]
  rw [hdrop]
  constructor
  · intro heq
    apply length_filter_eq_length_iff.mp
    by_contra hne
    have hlt : ((l.drop k).filter p).length < (l.drop k).length :=
      lt_of_le_of_ne (length_filter_le _ _) hne
    -- the last element is selected, but it is behind the part that was taken
    have hne' : l.drop k ≠ [] := fun hnil => by simp [hnil] at hlt
    obtain ⟨x, hx⟩ : ∃ x, (l.drop k).getLast? = some x := ⟨_, getLast?_eq_getLast_of_ne_nil hne'⟩
    have hmem : x ∈ l.drop k := mem_of_getLast? hx
    have hp : p x = true := by
      apply hlast x
      rw [getLast?_drop] at hx
      split at hx
      · cases hx
      · exact hx
    have htake : x ∈ (l.drop k).take ((l.drop k).filter p).length := by
      rw [← heq]
      exact mem_filter.mpr ⟨hmem, hp⟩
    have hbehind : x ∈ (l.drop k).drop ((l.drop k).filter p).length := by
      apply mem_of_getLast?
      rw [getLast?_drop, if_neg (by omega)]
      exact hx
    exact disjoint_take_drop (hnd.sublist (drop_sublist _ _)) le_rfl htake hbehind
  · intro hall
    rw [filter_eq_self.mpr hall, take_length]

lemma map_inj_of_nodup {β : Type*} {g : α → β} {l : List α} (hnd : (l.map g).Nodup) {xs ys : List α}
    (hxs : ∀ x ∈ xs, x ∈ l) (hys : ∀ y ∈ ys, y ∈ l) (h : xs.map g = ys.map g) : xs = ys := by
  induction xs generalizing ys with
  | nil => exact (map_eq_nil_iff.mp h.symm).symm
  | cons x xs ih =>
    cases ys with
    | nil => cases h
    | cons y ys =>
      rw [map_cons, map_cons, cons.injEq] at h
      rw [forall_mem_cons] at hxs hys
      rw [inj_on_of_nodup_map hnd hxs.1 hys.1 h.1, ih hxs.2 hys.2 h.2]

lemma filterMap_sublist_map {β : Type*} {g : α → Option β} {m : α → β}
    (h : ∀ x y, g x = some y → y = m x) (l : List α) : (l.filterMap g).Sublist (l.map m) := by
  induction l with
  | nil => exact .slnil
  | cons x l ih =>
    rw [filterMap_cons]
    split
    · exact ih.cons _
    next y hy => exact h x y hy ▸ ih.cons_cons _

lemma filter_mem_of_sublist {l L : List α} (h : l.Sublist L) (hnd : L.Nodup)
    (hp : ∀ x ∈ L, p x = true ↔ x ∈ l) : L.filter p = l := by
  induction h with
  | slnil => rfl
  | cons a hsub ih =>
    rw [nodup_cons] at hnd
    rw [forall_mem_cons] at hp
    rw [filter_cons_of_neg fun ha => hnd.1 (hsub.subset (hp.1.mp ha))]
    exact ih hnd.2 hp.2
  | cons_cons a hsub ih =>
    rw [nodup_cons] at hnd
    rw [forall_mem_cons] at hp
    rw [filter_cons_of_pos (hp.1.mpr mem_cons_self), ih hnd.2]
    intro x hx
    have hne : x ≠ a := fun heq => hnd.1 (heq ▸ hx)
    rw [hp.2 x hx, mem_cons, or_iff_right hne]

end Slots
