import Mathlib.Data.List.Infix
import Mathlib.Data.Nat.Find

/-! # Tokens in a text -/

namespace Text

open List

variable {α : Type*} {tokens : List (List α)} {token text u v : List α} {i : ℕ}

/-- No token ends with the beginning of another. -/
def Apart (tokens : List (List α)) : Prop :=
  ∀ t ∈ tokens, ∀ t' ∈ tokens, ∀ b : List α, b ≠ [] → b.length < t.length → b <+: t → ¬ b <:+ t'

/-- It is enough to look at the beginnings that `take` gives. -/
lemma apart_of_take (h : ∀ t ∈ tokens, ∀ t' ∈ tokens, ∀ n < t.length, n ≠ 0 → ¬ t.take n <:+ t') :
    Apart tokens := by
  intro t ht t' ht' b hb hlt hpre
  rw [prefix_iff_eq_take.mp hpre]
  exact h t ht t' ht' _ hlt (length_eq_zero_iff.not.mpr hb)

/-- No token begins in `u` and ends in `v`. -/
def Uncut (tokens : List (List α)) (u v : List α) : Prop :=
  ∀ t ∈ tokens, ∀ i < u.length, t <+: (u ++ v).drop i → i + t.length ≤ u.length

namespace Uncut

variable (hcut : Uncut tokens u v)
include hcut

lemma drop (n : ℕ) : Uncut tokens (u.drop n) v := by
  intro t ht i hi hocc
  rw [length_drop] at hi ⊢
  rw [← drop_append_of_le_length (by omega), drop_drop] at hocc
  have := hcut t ht (n + i) (by omega) hocc
  omega

lemma prefix_drop (ht : token ∈ tokens) (hi : i < u.length) (h : token <+: (u ++ v).drop i) :
    token <+: u.drop i := by
  have hle := hcut token ht i hi h
  rw [drop_append_of_le_length hi.le] at h
  exact prefix_of_prefix_length_le h (prefix_append _ v) (by rw [length_drop]; omega)

end Uncut

/-- The first `j` elements are also the last ones before `i`, and not all of them. -/
def Border (t : List α) (j i : ℕ) : Prop := j < i ∧ t.take j <:+ t.take i

section

variable {t : List α} {j k : ℕ}

lemma border_succ (hi : i < t.length) :
    Border t (j + 1) (i + 1) ↔ Border t j i ∧ t[j]? = t[i]? := by
  unfold Border
  rcases lt_or_ge j i with hj | hj
  · rw [take_add_one, take_add_one, getElem?_eq_getElem hi, getElem?_eq_getElem (hj.trans hi)]
    simp only [Option.toList_some, ← reverse_prefix, reverse_append, reverse_singleton,
      singleton_append, cons_prefix_cons, Nat.add_lt_add_iff_right, Option.some.injEq]
    tauto
  · exact iff_of_false (fun h => by omega) (fun h => by omega)

lemma Border.of_le (hk : Border t k i) (hj : Border t j i) (hlt : k < j) : Border t k j := by
  refine ⟨hlt, suffix_of_suffix_length_le hk.2 hj.2 ?_⟩
  rw [length_take, length_take]
  omega

lemma Border.trans (hk : Border t k j) (hj : Border t j i) :
    Border t k i := ⟨hk.1.trans hj.1, hk.2.trans hj.2⟩

end

variable [DecidableEq α]

/-- The first occurrence. -/
def find? (token text : List α) : Option ℕ := text.tails.findIdx? (token.isPrefixOf ·)

lemma find?_eq_some_iff : find? token text = some i ↔
    i ≤ text.length ∧ token <+: text.drop i ∧ ∀ j < i, ¬ token <+: text.drop j := by
  simp only [find?, findIdx?_eq_some_iff_getElem, length_tails, getElem_tails,
    isPrefixOf_iff_prefix, Nat.lt_succ_iff, exists_prop]

lemma find?_eq_none_iff : find? token text = none ↔ ∀ i, ¬ token <+: text.drop i := by
  simp only [find?, findIdx?_eq_none_iff, mem_tails, ← Bool.not_eq_true, isPrefixOf_iff_prefix]
  refine ⟨fun h i => h _ (drop_suffix i text), ?_⟩
  rintro h _ ⟨front, rfl⟩
  simpa using h front.length

namespace Uncut

variable (hcut : Uncut tokens u v) (ht : token ∈ tokens)
include hcut ht

lemma find?_some (h : find? token u = some i) : find? token (u ++ v) = some i := by
  obtain ⟨hi, hocc, hfirst⟩ := find?_eq_some_iff.mp h
  refine find?_eq_some_iff.mpr ⟨by rw [length_append]; omega, ?_, fun j hj hat => ?_⟩
  · rw [drop_append_of_le_length hi]
    exact hocc.trans (prefix_append _ v)
  · exact hfirst j hj (hcut.prefix_drop ht (by omega) hat)

lemma find?_none (h : find? token u = none) :
    find? token (u ++ v) = (find? token v).map (u.length + ·) := by
  have hlater : ∀ j, token <+: (u ++ v).drop j → ∃ k, j = u.length + k ∧ token <+: v.drop k := by
    intro j hat
    rcases lt_or_ge j u.length with hlt | hge
    · exact absurd (hcut.prefix_drop ht hlt hat) (find?_eq_none_iff.mp h j)
    obtain ⟨k, rfl⟩ := Nat.exists_eq_add_of_le hge
    rw [drop_length_add_append] at hat
    exact ⟨k, rfl, hat⟩
  cases hv : find? token v with
  | none =>
    refine find?_eq_none_iff.mpr fun j hat => ?_
    obtain ⟨k, -, hat⟩ := hlater j hat
    exact find?_eq_none_iff.mp hv k hat
  | some k =>
    obtain ⟨hk, hocc, hfirst⟩ := find?_eq_some_iff.mp hv
    rw [Option.map_some]
    refine find?_eq_some_iff.mpr ⟨by rw [length_append]; omega, by rwa [drop_length_add_append],
      fun j hj hat => ?_⟩
    obtain ⟨l, rfl, hat'⟩ := hlater j hat
    exact hfirst l (by omega) hat'

end Uncut

/-- The length of the longest end of the text that is a proper prefix of a token. -/
def heldBack (tokens : List (List α)) (text : List α) : ℕ :=
  Nat.findGreatest (fun n => ∃ t ∈ tokens, n < t.length ∧
    text.drop (text.length - n) <+: t) text.length

/-- No token is cut before the end that is held back, whatever follows. -/
lemma uncut_of_heldBack (hap : Apart tokens) {s : List α} (h : heldBack tokens (u ++ s) = s.length)
    (v : List α) :
    Uncut tokens u (s ++ v) := by
  intro t ht i hi hocc
  by_contra hcut
  rw [drop_append_of_le_length hi.le, ← append_assoc] at hocc
  have ha : (u.drop i).length = u.length - i := length_drop
  set a := u.drop i
  rcases le_or_gt t.length (a ++ s).length with hle | hgt
  · -- The token ends in `s`, which begins another token.
    have hin : t <+: a ++ s := prefix_of_prefix_length_le hocc (prefix_append _ v) hle
    obtain ⟨b, rfl⟩ : a <+: t := prefix_of_prefix_length_le (prefix_append a s) hin (by omega)
    rw [prefix_append_right_inj] at hin
    have hb : b ≠ [] := by
      rintro rfl
      simp at hcut
      omega
    have hpos : 0 < s.length := (length_pos_of_ne_nil hb).trans_le hin.length_le
    obtain ⟨t', ht', hlt, hpre⟩ := Nat.findGreatest_of_ne_zero h hpos.ne'
    rw [length_append, Nat.add_sub_cancel, drop_left] at hpre
    exact hap t' ht' _ ht b hb (hin.length_le.trans_lt hlt) (hin.trans hpre) (suffix_append a b)
  -- The token goes on behind `s`.
  have hin : a ++ s <+: t := prefix_of_prefix_length_le (prefix_append _ v) hocc hgt.le
  have hend : (u ++ s).drop ((u ++ s).length - (a ++ s).length) = a ++ s := by
    rw [length_append, length_append, drop_append_of_le_length (by omega), show _ - _ = i by omega]
  have hle : (a ++ s).length ≤ heldBack tokens (u ++ s) := by
    refine Nat.le_findGreatest ?_ ⟨t, ht, hgt, ?_⟩
    · rw [length_append, length_append]
      omega
    · rw [hend]
      exact hin
  rw [length_append] at hle
  omega

end Text
