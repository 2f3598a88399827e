import Mathlib.Order.Interval.Finset.Nat

/-! # Closing the holes of a table -/

namespace Compaction

open List Function Finset

variable {holes : List ℕ}

/-- The largest index up to `last` that is not a hole. -/
def lastFilled (holes : List ℕ) : ℕ → ℕ
  | 0 => 0
  | last + 1 => if last + 1 ∈ holes then lastFilled holes last else last + 1

/-- The highest filled row goes into the lowest hole until no filled row is above a hole. -/
def slides (holes : List ℕ) : ℕ → ℕ → List (ℕ × ℕ)
  | 0, _ => []
  | rounds + 1, last =>
    match holes.getLast? with
    | none => []
    | some hole =>
      if lastFilled holes last ≤ hole then []
      else (lastFilled holes last, hole) :: slides holes.dropLast rounds (lastFilled holes last - 1)

lemma lastFilled_le (holes : List ℕ) (last : ℕ) : lastFilled holes last ≤ last := by
  fun_induction lastFilled holes last with
  | case1 => exact le_rfl
  | case2 last _ ih => omega
  | case3 last _ => exact le_rfl

lemma mem_of_lastFilled_lt {last i : ℕ} (hlt : lastFilled holes last < i) (hle : i ≤ last) :
    i ∈ holes := by
  fun_induction lastFilled holes last with
  | case1 => omega
  | case2 last hmem ih =>
    rcases Nat.lt_or_ge last i with h | h
    · rwa [show i = last + 1 by omega]
    · exact ih hlt h
  | case3 last _ => omega

lemma lastFilled_notMem {last i : ℕ} (hi : i ∉ holes) (hle : i ≤ last) :
    lastFilled holes last ∉ holes := by
  fun_induction lastFilled holes last with
  | case1 => rwa [show i = 0 by omega] at hi
  | case2 last hmem ih =>
    apply ih
    have hne : i ≠ last + 1 := fun h => hi (h ▸ hmem)
    omega
  | case3 last hmem => exact hmem

lemma lastFilled_notMem_of_pos {last : ℕ} (h : 0 < lastFilled holes last) :
    lastFilled holes last ∉ holes := by
  fun_induction lastFilled holes last with
  | case1 => omega
  | case2 last _ ih => exact ih h
  | case3 last hmem => exact hmem

def holesUpTo (holes : List ℕ) (last : ℕ) : ℕ := (holes.filter (· ≤ last)).length

section holesUpTo

variable {holes : List ℕ}

section

variable (hnd : holes.Nodup)
include hnd

lemma holesUpTo_eq_card (last : ℕ) :
    holesUpTo holes last = ((Finset.range (last + 1)).filter (· ∈ holes)).card := by
  rw [holesUpTo, ← List.toFinset_card_of_nodup (hnd.filter _)]
  congr 1
  ext i
  simp only [mem_toFinset, List.mem_filter, decide_eq_true_eq, Finset.mem_filter, Finset.mem_range]
  rw [and_comm, Nat.lt_succ_iff]

lemma exists_filled {last : ℕ} (h : holesUpTo holes last < last + 1) :
    ∃ i, i ≤ last ∧ i ∉ holes := by
  by_contra hall
  push Not at hall
  have hfull : (Finset.range (last + 1)).filter (· ∈ holes) = Finset.range (last + 1) := by
    refine filter_true_of_mem fun i hi => ?_
    exact hall i (by have := Finset.mem_range.mp hi; omega)
  rw [holesUpTo_eq_card hnd, hfull, card_range] at h
  exact lt_irrefl _ h

lemma holesUpTo_lastFilled (last : ℕ) :
    holesUpTo holes last = holesUpTo holes (lastFilled holes last) +
    (last - lastFilled holes last) := by
  have hle := lastFilled_le holes last
  have hsplit : (Finset.range (last + 1)).filter (· ∈ holes) =
      (Finset.range (lastFilled holes last + 1)).filter (· ∈ holes) ∪
        Ico (lastFilled holes last + 1) (last + 1) := by
    ext i
    simp only [Finset.mem_filter, Finset.mem_range, mem_union, mem_Ico]
    constructor
    · rintro ⟨hi, hmem⟩
      rcases Nat.lt_or_ge (lastFilled holes last) i with h | h
      · exact .inr ⟨h, hi⟩
      · exact .inl ⟨by omega, hmem⟩
    rintro (⟨hi, hmem⟩ | ⟨hlo, hhi⟩)
    · exact ⟨by omega, hmem⟩
    · exact ⟨hhi, mem_of_lastFilled_lt (Nat.lt_of_succ_le hlo) (by omega)⟩
  rw [holesUpTo_eq_card hnd, holesUpTo_eq_card hnd, hsplit, card_union_of_disjoint, Nat.card_Ico]
  · omega
  rw [Finset.disjoint_left]
  intro i hi hi'
  have h1 := Finset.mem_range.mp (Finset.mem_filter.mp hi).1
  have h2 := (mem_Ico.mp hi').1
  omega

lemma holesUpTo_le_of_lowest {hole last : ℕ} (hlow : ∀ i ∈ holes, hole ≤ i)
    (hlast : last ∉ holes) : holesUpTo holes last ≤ last - hole := by
  have hsub : (Finset.range (last + 1)).filter (· ∈ holes) ⊆ Ico hole last := by
    intro i hi
    obtain ⟨hrange, hmem⟩ := Finset.mem_filter.mp hi
    have hne : i ≠ last := fun h => hlast (h ▸ hmem)
    have := Finset.mem_range.mp hrange
    rw [mem_Ico]
    exact ⟨hlow i hmem, by omega⟩
  rw [holesUpTo_eq_card hnd, ← Nat.card_Ico]
  exact card_le_card hsub

end

lemma holesUpTo_dropLast {init : List ℕ} {hole last : ℕ} (hlast : last ∉ init ++ [hole])
    (hlt : hole < last) :
    holesUpTo (init ++ [hole]) last = holesUpTo init (last - 1) + 1 := by
  have hcongr : init.filter (· ≤ last) = init.filter (· ≤ last - 1) := by
    refine filter_congr fun i hi => ?_
    have hne : i ≠ last := fun h => hlast (mem_append_left _ (h ▸ hi))
    rw [decide_eq_decide]
    omega
  simp [holesUpTo, hcongr, hlt.le]

end holesUpTo

/-- `m` rows up to `last` are filled, and the moves take the filled rows from `m` on into the holes
below `m`. -/
structure Slides (holes : List ℕ) (last m : ℕ) (moves : List (ℕ × ℕ)) : Prop where
  move : ∀ mv ∈ moves, mv.1 ∉ holes ∧ m ≤ mv.1 ∧ mv.1 ≤ last ∧ mv.2 ∈ holes ∧ mv.2 < m
  nodup_from : (moves.map Prod.fst).Nodup
  nodup_to : (moves.map Prod.snd).Nodup
  holes_filled : ∀ i ∈ holes, i < m → i ∈ moves.map Prod.snd
  rows_moved : ∀ i ∉ holes, m ≤ i → i ≤ last → i ∈ moves.map Prod.fst

variable {holes : List ℕ}

lemma Slides.nil {last m : ℕ} (hholes : ∀ i ∈ holes, m ≤ i)
    (hrows : ∀ i ∉ holes, i ≤ last → i < m) : Slides holes last m [] where
  move := by simp
  nodup_from := by simp
  nodup_to := by simp
  holes_filled i hi hlt := absurd (hholes i hi) (by omega)
  rows_moved i hi hle hlast := absurd (hrows i hi hlast) (by omega)

lemma Slides.cons {init : List ℕ} {hole last top m : ℕ} {moves : List (ℕ × ℕ)}
    (h : Slides init (top - 1) m moves) (hnd : (init ++ [hole]).Nodup) (htop : top ∉ init ++ [hole])
    (hpass : ∀ i, top < i → i ≤ last → i ∈ init ++ [hole]) (hle : top ≤ last) (hhole : hole < m)
    (hm : m ≤ top) :
    Slides (init ++ [hole]) last m ((top, hole) :: moves) where
  move := by
    intro mv hmv
    rcases List.mem_cons.mp hmv with rfl | hmv
    · exact ⟨htop, hm, hle, by simp, hhole⟩
    obtain ⟨hfrom, hge, hlast, hto, hlt⟩ := h.move mv hmv
    refine ⟨?_, hge, by omega, mem_append_left _ hto, hlt⟩
    intro hmem
    rcases mem_append.mp hmem with hmem | hmem
    · exact hfrom hmem
    · rw [List.mem_singleton] at hmem
      omega
  nodup_from := by
    rw [List.map_cons, nodup_cons]
    refine ⟨?_, h.nodup_from⟩
    intro hmem
    obtain ⟨mv, hmv, heq⟩ := List.mem_map.mp hmem
    obtain ⟨_, hge, hlast, _⟩ := h.move mv hmv
    omega
  nodup_to := by
    rw [List.map_cons, nodup_cons]
    refine ⟨?_, h.nodup_to⟩
    intro hmem
    obtain ⟨mv, hmv, heq⟩ := mem_map.mp hmem
    have hto := (h.move mv hmv).2.2.2.1
    rw [heq] at hto
    exact (List.nodup_append.mp hnd).2.2 _ hto _ (List.mem_singleton_self _) rfl
  holes_filled := by
    intro i hi hlt
    rw [List.map_cons, List.mem_cons]
    rcases List.mem_append.mp hi with hi | hi
    · exact .inr (h.holes_filled i hi hlt)
    · exact .inl (List.mem_singleton.mp hi)
  rows_moved := by
    intro i hi hge hlast
    rw [List.map_cons, List.mem_cons]
    have htop' : i ≤ top := by
      by_contra hgt
      exact hi (hpass i (by omega) hlast)
    rcases Nat.eq_or_lt_of_le htop' with heq | hlt
    · exact .inl heq
    · exact .inr (h.rows_moved i (fun hmem => hi (mem_append_left _ hmem)) hge (by omega))

/-- Filling the holes from the end leaves the first `m` places full. -/
lemma slides_spec {rounds last m : ℕ} (hsorted : holes.Pairwise (· > ·))
    (hrounds : holes.length ≤ rounds) (hcnt : m + holesUpTo holes last = last + 1) (hpos : 0 < m) :
    Slides holes last m (slides holes rounds last) := by
  induction rounds generalizing holes last with
  | zero =>
    obtain rfl : holes = [] := length_eq_zero_iff.mp (by omega)
    simp only [holesUpTo, filter_nil, length_nil] at hcnt
    exact Slides.nil (by simp) (fun i _ hi => by omega)
  | succ rounds ih =>
    have hnd : holes.Nodup := hsorted.imp fun h => Nat.ne_of_gt h
    rcases eq_nil_or_concat holes with rfl | ⟨init, hole, rfl⟩
    · simp only [holesUpTo, filter_nil, length_nil] at hcnt
      exact Slides.nil (by simp) (fun i _ hi => by omega)
    rw [concat_eq_append] at *
    have hsome : holesUpTo (init ++ [hole]) last < last + 1 := by omega
    obtain ⟨i, hile, hi⟩ := exists_filled hnd hsome
    have htop := lastFilled_notMem hi hile
    have hskip := holesUpTo_lastFilled hnd last
    have hle := lastFilled_le (init ++ [hole]) last
    have hlow : ∀ j ∈ init ++ [hole], hole ≤ j := by
      intro j hj
      rcases mem_append.mp hj with hj | hj
      · exact le_of_lt ((pairwise_append.mp hsorted).2.2 j hj hole (List.mem_singleton_self _))
      · exact (List.mem_singleton.mp hj).ge
    rw [slides, getLast?_concat, dropLast_concat]
    simp only
    generalize htopdef : lastFilled (init ++ [hole]) last = top at *
    split_ifs with hcmp
    · -- every hole is above the last filled row
      have hzero : holesUpTo (init ++ [hole]) top = 0 := by
        rw [holesUpTo, length_eq_zero_iff, filter_eq_nil_iff]
        intro j hj hjle
        rw [decide_eq_true_eq] at hjle
        have := hlow j hj
        exact htop (by rwa [show top = j by omega])
      refine Slides.nil ?_ ?_
      · intro j hj
        have := hlow j hj
        have hne : j ≠ top := fun h => htop (h ▸ hj)
        omega
      intro j hj hjlast
      by_contra hge
      exact hj (mem_of_lastFilled_lt (by omega) hjlast)
    have hlt : hole < top := by omega
    have hdrop := holesUpTo_dropLast htop hlt
    have hbound := holesUpTo_le_of_lowest hnd hlow htop
    refine Slides.cons ?_ hnd htop ?_ hle (by omega) (by omega)
    · apply ih (pairwise_append.mp hsorted).1
      · simp only [length_append, length_singleton] at hrounds
        omega
      · omega
    · intro j hj hjlast
      exact mem_of_lastFilled_lt (by omega) hjlast

section cells

variable {α : Type*} (xs : List (Option α)) {i : ℕ}

def cells (i : ℕ) : Option α := (xs[i]?).join

variable {xs}

lemma cells_eq_some {a : α} :
    cells xs i = some a ↔ xs[i]? = some (some a) := Option.join_eq_some_iff

lemma cells_of_ge (h : xs.length ≤ i) : cells xs i = none := by
  rw [cells, getElem?_eq_none h]
  rfl

lemma lt_of_cells {a : α} (h : cells xs i = some a) : i < xs.length := by
  by_contra hge
  rw [cells_of_ge (by omega)] at h
  cases h

lemma cells_set (h : i < xs.length) (v : Option α) :
    cells (xs.set i v) = update (cells xs) i v := by
  funext j
  rcases eq_or_ne j i with rfl | hne
  · rw [update_self, cells, getElem?_set_self h]
    rfl
  · rw [update_of_ne hne, cells, getElem?_set_ne hne.symm]
    rfl

lemma cells_append (v : Option α) : cells (xs ++ [v]) = update (cells xs) xs.length v := by
  funext j
  rcases lt_trichotomy j xs.length with h | rfl | h
  · rw [update_of_ne h.ne, cells, getElem?_append_left h]
    rfl
  · rw [update_self, cells, getElem?_concat_length]
    rfl
  · rw [update_of_ne h.ne', cells_of_ge (by simp; omega), cells_of_ge h.le]

lemma cells_take (n i : ℕ) : cells (xs.take n) i = if i < n then cells xs i else none := by
  rw [cells, getElem?_take]
  split_ifs <;> rfl

end cells

section inverse

variable {α β : Type*} [DecidableEq α] {f : α → Option β} {g : β → Option α} {a x : α} {b y : β}

lemma update_none_eq_some : update f a none x = some y ↔ x ≠ a ∧ f x = some y := by
  rcases eq_or_ne x a with rfl | hne
  · simp
  · simp [hne]

lemma update_some_eq_some :
    update f a (some b) x = some y ↔ x = a ∧ y = b ∨ x ≠ a ∧ f x = some y := by
  rcases eq_or_ne x a with rfl | hne
  · simp [eq_comm]
  · simp [hne]

lemma update_some_eq_none : update f a (some b) x = none ↔ x ≠ a ∧ f x = none := by
  rcases eq_or_ne x a with rfl | hne
  · simp
  · simp [hne]

def Inverse (f : α → Option β) (g : β → Option α) : Prop := ∀ a b, f a = some b ↔ g b = some a

namespace Inverse

variable {a' : α} {b' : β}

omit [DecidableEq α] in
lemma eq_iff (h : Inverse f g) (hb : g b = some a) (hy : g y = some x) : x = a ↔ y = b := by
  constructor
  · rintro rfl
    exact Option.some.inj (((h x y).mpr hy).symm.trans ((h x b).mpr hb))
  · rintro rfl
    exact Option.some.inj (hy.symm.trans hb)

variable [DecidableEq β]

lemma erase (h : Inverse f g) (hb : g b = some a) :
    Inverse (update f a none) (update g b none) := by
  intro x y
  rw [update_none_eq_some, update_none_eq_some, h x y]
  exact and_congr_left fun hy => not_congr (h.eq_iff hb hy)

lemma insert (h : Inverse f g) (ha : f a = none) (hb : g b = none) :
    Inverse (update f a (some b)) (update g b (some a)) := by
  intro x y
  rw [update_some_eq_some, update_some_eq_some, h x y]
  refine or_congr and_comm (and_congr_left fun hy => iff_of_true ?_ ?_)
  · rintro rfl
    simp [(h x y).mpr hy] at ha
  · rintro rfl
    simp [hy] at hb

lemma move (h : Inverse f g) (hb : g b = some a) (hb' : g b' = none) :
    Inverse (update f a (some b')) (update (update g b' (g b)) b none) := by
  have hne : b' ≠ b := by
    rintro rfl
    simp [hb'] at hb
  have := (h.erase hb).insert (update_self ..) ((update_of_ne hne ..).trans hb')
  rwa [update_idem, update_comm hne.symm, ← hb] at this

lemma exchange (h : Inverse f g) (hb : g b = some a) (hb' : g b' = some a') :
    Inverse (update (update f a (some b')) a' (some b))
    (update (update g b (some a')) b' (some a)) := by
  intro x y
  simp only [update_some_eq_some, h x y]
  have hy := fun hy : g y = some x => And.intro (h.eq_iff hb hy) (h.eq_iff hb' hy)
  grind

end Inverse

end inverse

section slide

variable {β : Type*} (f : β → β → β) (g : β → β) {mv : ℕ × ℕ}

/-- Move a row into a hole: `f` merges the hole with the row, `g` stays behind. -/
def slide (table : ℕ → β) (mv : ℕ × ℕ) : ℕ → β :=
  update (update table mv.2 (f (table mv.2) (table mv.1))) mv.1 (g (table mv.1))

variable {f g} {table : ℕ → β} {moves : List (ℕ × ℕ)}

lemma foldl_slide_of_notMem {i : ℕ} (hfrom : i ∉ moves.map Prod.fst)
    (hto : i ∉ moves.map Prod.snd) :
    moves.foldl (slide f g) table i = table i := by
  induction moves generalizing table with
  | nil => rfl
  | cons mv moves ih =>
    rw [List.map_cons, List.mem_cons, not_or] at hfrom hto
    rw [foldl_cons, ih hfrom.2 hto.2, slide, update_of_ne hfrom.1, update_of_ne hto.1]

/-- No place is the source or the target of two moves, or both. -/
structure Apart (moves : List (ℕ × ℕ)) : Prop where
  nodup_from : (moves.map Prod.fst).Nodup
  nodup_to : (moves.map Prod.snd).Nodup
  disjoint : ∀ i ∈ moves.map Prod.fst, i ∉ moves.map Prod.snd

lemma Apart.tail (h : Apart (mv :: moves)) : Apart moves where
  nodup_from := (nodup_cons.mp h.nodup_from).2
  nodup_to := (nodup_cons.mp h.nodup_to).2
  disjoint i hi hmem := h.disjoint i (mem_cons_of_mem _ hi) (mem_cons_of_mem _ hmem)

lemma Apart.head_notMem (h : Apart (mv :: moves)) :
    mv.1 ∉ moves.map Prod.fst ∧ mv.1 ∉ moves.map Prod.snd ∧ mv.2 ∉ moves.map Prod.fst ∧
    mv.2 ∉ moves.map Prod.snd ∧
      mv.1 ≠ mv.2 := by
  refine ⟨(nodup_cons.mp h.nodup_from).1, ?_, ?_, (nodup_cons.mp h.nodup_to).1, ?_⟩
  · exact fun hmem => h.disjoint mv.1 mem_cons_self (mem_cons_of_mem _ hmem)
  · exact fun hmem => h.disjoint mv.2 (mem_cons_of_mem _ hmem) mem_cons_self
  · exact fun heq => h.disjoint mv.1 mem_cons_self (by rw [heq]; exact mem_cons_self)

lemma Apart.slide_of_mem {mv mv' : ℕ × ℕ} (h : Apart (mv :: moves)) (hmv : mv' ∈ moves)
    (table : ℕ → β) :
    slide f g table mv mv'.1 = table mv'.1 ∧ slide f g table mv mv'.2 = table mv'.2 := by
  obtain ⟨h1, h2, h3, h4, _⟩ := h.head_notMem
  have hfrom := mem_map_of_mem (f := Prod.fst) hmv
  have hto := mem_map_of_mem (f := Prod.snd) hmv
  constructor
  · rw [slide, update_of_ne (ne_of_mem_of_not_mem hfrom h1),
      update_of_ne (ne_of_mem_of_not_mem hfrom h3)]
  · rw [slide, update_of_ne (ne_of_mem_of_not_mem hto h2),
      update_of_ne (ne_of_mem_of_not_mem hto h4)]

lemma foldl_slide_to (h : Apart moves) (hmv : mv ∈ moves) :
    moves.foldl (slide f g) table mv.2 = f (table mv.2) (table mv.1) := by
  induction moves generalizing table with
  | nil => cases hmv
  | cons head moves ih =>
    rw [foldl_cons]
    rcases List.mem_cons.mp hmv with rfl | hmv
    · obtain ⟨_, _, h3, h4, hne⟩ := h.head_notMem
      rw [foldl_slide_of_notMem h3 h4, slide, update_of_ne hne.symm, update_self]
    · rw [ih h.tail hmv, (h.slide_of_mem hmv table).1, (h.slide_of_mem hmv table).2]

lemma foldl_slide_from (h : Apart moves) (hmv : mv ∈ moves) :
    moves.foldl (slide f g) table mv.1 = g (table mv.1) := by
  induction moves generalizing table with
  | nil => cases hmv
  | cons head moves ih =>
    rw [foldl_cons]
    rcases List.mem_cons.mp hmv with rfl | hmv
    · obtain ⟨h1, h2, _⟩ := h.head_notMem
      rw [foldl_slide_of_notMem h1 h2, slide, update_self]
    · rw [ih h.tail hmv, (h.slide_of_mem hmv table).1]

lemma foldl_slide_comp {δ : Type*} (φ : β → δ) (d : β) :
    φ ∘ moves.foldl (slide (fun _ x => x) fun _ => d) table =
      moves.foldl (slide (fun _ x => x) fun _ => φ d) (φ ∘ table) := by
  induction moves generalizing table with
  | nil => rfl
  | cons mv moves ih =>
    rw [foldl_cons, foldl_cons, ih]
    congr 1
    rw [slide, comp_update, comp_update]
    rfl

lemma Slides.apart {last m : ℕ} (h : Slides holes last m moves) : Apart moves where
  __ := h
  disjoint := by
    intro i hfrom hto
    obtain ⟨mv, hmv, rfl⟩ := mem_map.mp hfrom
    obtain ⟨mv', hmv', heq⟩ := mem_map.mp hto
    have hge := (h.move mv hmv).2.1
    have hlt := (h.move mv' hmv').2.2.2.2
    omega

def exchange (table : ℕ → β) (i j : ℕ) : ℕ → β := update (update table i (table j)) j (table i)

lemma exchange_comp {δ : Type*} (φ : β → δ) (i j : ℕ) :
    φ ∘ exchange table i j = exchange (φ ∘ table) i j := by
  rw [exchange, comp_update, comp_update]
  rfl

lemma exchange_of_ne {i j k : ℕ} (hi : k ≠ i) (hj : k ≠ j) : exchange table i j k = table k := by
  rw [exchange, update_of_ne hj, update_of_ne hi]

lemma exchange_right (i j : ℕ) : exchange table i j j = table i := update_self _ _ _

lemma exchange_left (i j : ℕ) : exchange table i j i = table j := by
  rcases eq_or_ne i j with rfl | hne
  · exact update_self _ _ _
  · rw [exchange, update_of_ne hne, update_self]

end slide

end Compaction
