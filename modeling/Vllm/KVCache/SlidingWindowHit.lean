import Vllm.KVCache.CacheHitGreatest

/-!
# The longest hit of a sliding window

A hit of `m` blocks needs the last blocks before it, with EAGLE the one behind it. A short hit is
cut to the alignment before and after the pop.
-/

namespace Vllm.CacheHit

open List

variable {p : BlockPool} {hashes : BlockHashList} {gids : List ℕ} {rows : List Row}
  {w size align n need maxLength m i k : ℕ} {drop : Bool}

/-- `m` blocks are a hit of the sliding window: aligned, inside the bound, and the window before
their end is cached. -/
structure Admissible (p : BlockPool) (hashes : BlockHashList) (gids : List ℕ) (size align n : ℕ)
    (drop : Bool) (need m : ℕ) : Prop where
  le : m ≤ n
  aligned : align ∣ m * size
  window : WindowCached p hashes gids need m
  extra : drop = true → m + 1 ≤ n ∧ CachedAt p hashes gids m

lemma admissible_iff : Admissible p hashes gids size align n drop need m ↔
    m + drop.toNat ∈ windowEnds p hashes gids size align n drop (need + drop.toNat) := by
  constructor
  · intro h
    cases drop with
    | false => exact ⟨h.le, h.aligned, h.window⟩
    | true =>
      refine ⟨(h.extra rfl).1, h.aligned, fun j hj hnear => ?_⟩
      rcases Nat.lt_succ_iff_lt_or_eq.mp hj with hj | rfl
      · exact h.window j hj (Nat.le_of_succ_le_succ hnear)
      · exact (h.extra rfl).2
  rintro ⟨hle, haligned, hwindow⟩
  rw [Nat.add_sub_cancel] at haligned
  refine ⟨(Nat.le_add_right _ _).trans hle, haligned, fun j hj hnear => ?_, ?_⟩
  · exact hwindow j (by omega) (by omega)
  · rintro rfl
    exact ⟨hle, hwindow m (Nat.lt_succ_self m) (by simp only [Bool.toNat_true]; omega)⟩

/-- The rows are the longest hit, or there is none: those of the window are cached, those before
null. -/
structure LongestHit (p : BlockPool) (hashes : BlockHashList) (gids : List ℕ) (size align n : ℕ)
    (drop : Bool) (need : ℕ) (rows : List Row) : Prop where
  longest : IsGreatest {m | Admissible p hashes gids size align n drop need m} rows.length ∨
    (∀ m, ¬ Admissible p hashes gids size align n drop need m) ∧ rows = []
  null : ∀ j, j + need < rows.length → rows[j]? = some (nullRow gids)
  cached : ∀ j < rows.length, rows.length ≤ j + need →
    ∃ x row, hashes.get j = .ok x ∧ p.getCachedBlock x gids = some row ∧ rows[j]? = some row

lemma WindowRun.longestHit
    (h : WindowRun p hashes gids size align n drop (need + drop.toNat) rows i k)
    (hpos : 0 < need) (hend : k = need + drop.toNat ∨ i = 0 ∧ k < need + drop.toNat) :
    LongestHit p hashes gids size align n drop need (rows.take (i + k - drop.toNat)) := by
  have hgreatest := h.isGreatest (by omega)
  have hlen : (rows.take (i + k - drop.toNat)).length = i + k - drop.toNat := by
    rw [length_take, min_eq_left ((Nat.sub_le _ _).trans h.length_ge)]
  refine ⟨?_, ?_, ?_⟩ <;> rw [hlen]
  · rcases lt_or_ge (i + k) drop.toNat with hlt | hge
    · refine .inr ⟨fun m hm => ?_, ?_⟩
      · have := hgreatest.2 (admissible_iff.mp hm)
        omega
      · rw [Nat.sub_eq_zero_of_le hlt.le, take_zero]
    refine .inl ⟨admissible_iff.mpr ?_, fun m hm => ?_⟩
    · rw [Nat.sub_add_cancel hge]
      exact hgreatest.1
    · have := hgreatest.2 (admissible_iff.mp hm)
      omega
  · intro j hj
    rw [getElem?_take_of_lt (by omega)]
    exact h.null j (by omega)
  intro j hj hnear
  rw [getElem?_take_of_lt hj]
  exact h.hit j (by omega) (by omega)

lemma popUnaligned_take (h : align ∣ m * size) (hm : m ≤ rows.length) :
    popUnaligned size align (rows.take m) = rows.take m := by
  rw [popUnaligned, length_take, min_eq_left hm, alignDown_eq h, take_take, min_self]

lemma alignDown_succ (hdvd : size ∣ align) (hne : size ≠ align) (h : align ∣ m * size) :
    alignDown size align (m + 1) = m := by
  have hodd : (m + 1) * size % align ≠ 0 := by
    intro hmod
    rw [Nat.succ_mul] at hmod
    exact hne (Nat.dvd_antisymm hdvd ((Nat.dvd_add_right h).mp (Nat.dvd_of_mod_eq_zero hmod)))
  rw [alignDown, if_pos ⟨hne, hodd⟩, alignDown_eq h]

/-- The next aligned length below an aligned one. -/
lemma alignDown_pred (hsize : 0 < size) (hdvd : size ∣ align) (hm : 0 < m) (h : align ∣ m * size) :
    alignDown size align (m - 1) = m - align / size := by
  obtain ⟨r, rfl⟩ := hdvd
  have hdvd : ∀ {n}, size * r ∣ n * size ↔ r ∣ n := fun {n} => by
    rw [mul_comm n, Nat.mul_dvd_mul_iff_left hsize]
  obtain ⟨q, rfl⟩ := hdvd.mp h
  obtain ⟨q', hq'⟩ := hdvd.mp (dvd_alignDown size (size * r) (r * q - 1))
  have hr : 0 < r := Nat.pos_of_mul_pos_right hm
  have hle := alignDown_le size (size * r) (r * q - 1)
  rw [Nat.mul_div_cancel_left _ hsize]
  refine le_antisymm ?_
    (le_alignDown (by omega) (hdvd.mpr (Nat.dvd_sub (dvd_mul_right r q) dvd_rfl)))
  have hlt : q' + 1 ≤ q := Nat.lt_of_mul_lt_mul_left (a := r) (by omega)
  have := Nat.mul_le_mul_left r hlt
  rw [Nat.mul_succ] at this
  omega

lemma pop_short (hsize : 0 < size) (hdvd : size ∣ align) (hlen : k ≤ rows.length)
    (haligned : align ∣ (k - 1) * size) :
    let first := popUnaligned size align (rows.take k)
    let out := if first ≠ [] then popUnaligned size align first.dropLast else first
    (size = align ∨ k ≤ 1) ∧ out = rows.take (k - 1) ∨
      size ≠ align ∧ 1 < k ∧ out.length < k - 1 ∧ out.length = k - 1 - align / size := by
  intro first out
  have hout : out.length ≤ first.length - 1 := by
    unfold out
    split
    · rw [length_popUnaligned, length_dropLast]
      exact alignDown_le _ _ _
    next hnil => simp [not_not.mp hnil]
  rcases eq_or_ne size align with heq | hne
  · have hall : ∀ m, align ∣ m * size := fun m => heq ▸ dvd_mul_left _ _
    have hfst : first = rows.take k := popUnaligned_take (hall k) hlen
    refine .inl ⟨.inl heq, ?_⟩
    unfold out
    split
    · rw [hfst, dropLast_eq_take, length_take, min_eq_left hlen, take_take,
        min_eq_left (Nat.sub_le _ _)]
      exact popUnaligned_take haligned (by omega)
    rename_i hnil
    rw [hfst, not_not] at hnil
    have : k = 0 := by simpa [hlen] using congrArg length hnil
    rw [hfst, this]
  rcases k with - | m
  · have hnil : out.length = 0 := by simpa [first, length_popUnaligned, alignDown] using hout
    exact .inl ⟨.inr (Nat.zero_le _), length_eq_zero_iff.mp hnil⟩
  have hfst : first.length = m := by
    rw [length_popUnaligned, length_take, min_eq_left hlen]
    exact alignDown_succ hdvd hne haligned
  rcases eq_zero_or_pos m with rfl | hpos
  · exact .inl ⟨.inr le_rfl, length_eq_zero_iff.mp (by omega)⟩
  refine .inr ⟨hne, by omega, by omega, ?_⟩
  unfold out
  rw [if_pos (ne_nil_of_length_pos (by omega)), length_popUnaligned, length_dropLast, hfst]
  exact alignDown_pred hsize hdvd hpos haligned

lemma need_pos (hw : 2 ≤ w) (hsize : 0 < size) (hneed : (need : ℤ) = cdiv ((w : ℤ) - 1) size) :
    0 < need := by
  have : ¬ (need : ℤ) ≤ 0 := by
    rw [hneed, cdiv_le_iff hsize]
    omega
  omega

lemma findSlidingWindow_cases (hw : 2 ≤ w) (hsize : 0 < size) (hdvd : size ∣ align)
    (hneed : (need : ℤ) = cdiv ((w : ℤ) - 1) size)
    (h : findSlidingWindow p hashes gids w size maxLength drop align = .ok rows) :
    ∃ rows' i k, WindowRun p hashes gids size align (maxLength / size) drop (need + drop.toNat)
    rows' i k ∧
      ((k = need + drop.toNat ∨ i = 0 ∧ k < need + drop.toNat ∧
        (drop = false ∨ size = align ∨ k ≤ 1)) ∧
          rows = rows'.take (i + k - drop.toNat) ∨
        drop = true ∧ size ≠ align ∧ i = 0 ∧ 1 < k ∧ k ≤ need ∧ rows.length < k - 1 ∧
          rows.length = k - 1 - align / size) := by
  have hpos := need_pos hw hsize hneed
  obtain ⟨⟨rows', k, found⟩, hloop, h⟩ := of_bind h
  have henough : ∀ k : ℕ, 0 < k →
    ((k : ℤ) ≥ contiguousBlocksForHit w size drop ↔ need + drop.toNat ≤ k) := by
    intro k _
    rw [contiguousBlocksForHit]
    cases drop <;>
      simp only [Bool.false_eq_true, if_false, if_true, Bool.toNat_true, Bool.toNat_false] <;> omega
  obtain ⟨i, hrun, hend⟩ := slidingWindowLoop_run henough
    (WindowRun.nulls p hashes gids size align _ drop _) (by omega) hloop
  refine ⟨rows', i, k, hrun, ?_⟩
  dsimp only at hrun hend
  have hlen := hrun.length_ge
  cases h
  cases found with
  | true =>
    obtain ⟨hlength, rfl⟩ := hend
    have haligned := (hrun.isGreatest (.inl ⟨by omega, le_rfl⟩)).1.2.1
    refine .inl ⟨.inl rfl, ?_⟩
    rw [← hlength]
    cases drop with
    | false =>
      exact take_length.symm
    | true =>
      have hne : rows' ≠ [] := ne_nil_of_length_pos (by omega)
      rw [if_pos ⟨rfl, hne⟩, dropLast_eq_take]
      exact popUnaligned_take (hlength ▸ haligned) (Nat.sub_le _ _)
  | false =>
    obtain ⟨rfl, hk⟩ := hend
    have haligned := (hrun.isGreatest (.inr rfl)).1.2.1
    rw [zero_add] at hlen haligned ⊢
    cases drop with
    | false =>
      exact .inl ⟨.inr ⟨rfl, hk, .inl rfl⟩, popUnaligned_take haligned hlen⟩
    | true =>
      simp only [true_and]
      exact (pop_short hsize hdvd hlen haligned).imp (fun ⟨hshort, hout⟩ =>
        ⟨.inr ⟨hk, .inr hshort⟩, hout⟩)
        fun ⟨hne, hlt, hout⟩ => ⟨hne, hlt, Nat.le_of_lt_succ hk, hout⟩

/-- The lookup returns the longest hit unless EAGLE's block is popped, the alignment is not the
block size, and the longest hit is short but not empty. -/
theorem findSlidingWindow_longest_iff (hw : 2 ≤ w) (hsize : 0 < size) (hdvd : size ∣ align)
    (hneed : (need : ℤ) = cdiv ((w : ℤ) - 1) size)
    (hget : ∀ j < maxLength / size, ∃ x, hashes.get j = .ok x) :
    ∃ rows, findSlidingWindow p hashes gids w size maxLength drop align = .ok rows ∧
      (LongestHit p hashes gids size align (maxLength / size) drop need rows ↔ drop = false ∨
        size = align ∨
          ∀ m, Admissible p hashes gids size align (maxLength / size) drop need m → 0 < m →
          m < need →
            ∃ m', Admissible p hashes gids size align (maxLength / size) drop need m' ∧
            need ≤ m') := by
  obtain ⟨rows, h⟩ := findSlidingWindow_total hget
  refine ⟨rows, h, ?_⟩
  have hpos : 0 < need := need_pos hw hsize hneed
  obtain ⟨rows', i, k, hrun, ⟨hend, rfl⟩ | ⟨rfl, hne, rfl, hk, hshort, hlen, -⟩⟩ :=
    findSlidingWindow_cases hw hsize hdvd hneed h
  · refine ⟨fun _ => ?_, fun _ => hrun.longestHit hpos (hend.imp_right fun h => ⟨h.1, h.2.1⟩)⟩
    obtain rfl | ⟨rfl, -, hshort⟩ := hend
    · have hgreatest := hrun.isGreatest (.inl ⟨by omega, le_rfl⟩)
      rw [← add_assoc] at hgreatest
      exact .inr (.inr fun _ _ _ _ =>
        ⟨i + need, admissible_iff.mpr hgreatest.1, Nat.le_add_left _ _⟩)
    have hgreatest := hrun.isGreatest (.inr rfl)
    rcases drop with - | -
    · exact .inl rfl
    refine hshort.imp_right (Or.imp_right fun hk m hm hm0 _ => ?_)
    have := hgreatest.2 (admissible_iff.mp hm)
    rw [Bool.toNat_true] at this
    omega
  have hgreatest := hrun.isGreatest (.inr rfl)
  have hm : Admissible p hashes gids size align (maxLength / size) true need (k - 1) := by
    rw [admissible_iff, Bool.toNat_true, Nat.sub_add_cancel hk.le]
    simpa using hgreatest.1
  constructor
  · rintro ⟨hmax | ⟨hnone, -⟩, -, -⟩
    · exact absurd (hmax.2 hm) (not_le.mpr hlen)
    · exact absurd hm (hnone _)
  rintro (hdrop | heq | hlong)
  · cases hdrop
  · exact absurd heq hne
  obtain ⟨m', hm', hge⟩ := hlong (k - 1) hm (by omega) (by omega)
  have := hgreatest.2 (admissible_iff.mp hm')
  rw [Bool.toNat_true] at this
  omega

def threeCached : BlockPool := poolWith [[5, 0, 0, 0, 0], [6, 0, 0, 0, 0], [7, 0, 0, 0, 0]]

def threeHashes : BlockHashList := .plain [[5], [6], [7]]

lemma cachedAt_three : ∀ j < 3, CachedAt threeCached threeHashes [0] j
  | 0, _ | 1, _ | 2, _ => ⟨_, _, rfl, rfl⟩

/-- With a window of three tokens the hit drops its last block for EAGLE. -/
theorem window_of_three_longest :
    ∃ rows, findSlidingWindow threeCached threeHashes [0] 3 1 3 true 1 = .ok rows ∧
    rows.length = 2 ∧ LongestHit threeCached threeHashes [0] 1 1 3 true 2 rows := by
  have hget : ∀ j < 3 / 1, ∃ x, threeHashes.get j = .ok x := fun j hj => by
    obtain ⟨x, -, hx, -⟩ := cachedAt_three j hj
    exact ⟨x, hx⟩
  obtain ⟨rows, hrows, hiff⟩ :=
    @findSlidingWindow_longest_iff threeCached threeHashes [0] 3 1 1 2 3 true
    (by decide) one_pos (dvd_refl 1) (by decide) hget
  refine ⟨rows, hrows, ?_, hiff.mpr (.inr (.inl rfl))⟩
  cases hrows
  rfl

/-- For a window of ten tokens and an alignment of two blocks nothing is returned of the same
hit. -/
theorem short_hit_lost : findSlidingWindow threeCached threeHashes [0] 10 1 3 true 2 = .ok [] ∧
    Admissible threeCached threeHashes [0] 1 2 3 true 9 2 :=
  ⟨rfl, by decide, by decide, fun j hj _ => cachedAt_three j (by omega),
    fun _ => ⟨le_rfl, cachedAt_three 2 (by decide)⟩⟩

end Vllm.CacheHit
