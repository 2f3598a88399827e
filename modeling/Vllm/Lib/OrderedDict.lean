import Mathlib.Data.List.Nodup
import Mathlib.Data.List.Perm.Basic

/-! # Ordered dictionaries -/

/-- Entries in the order of insertion, with distinct keys. -/
structure OrderedDict (κ α : Type*) where
  entries : List (κ × α)
  nodup : (entries.map Prod.fst).Nodup

namespace OrderedDict

open List Option Function

variable {κ α : Type*}

def keys (d : OrderedDict κ α) : List κ := d.entries.map Prod.fst

def length (d : OrderedDict κ α) : ℕ := d.entries.length

def empty : OrderedDict κ α := ⟨[], nodup_nil⟩

instance : Inhabited (OrderedDict κ α) := ⟨empty⟩

def dropFirst (d : OrderedDict κ α) (n : ℕ) : OrderedDict κ α :=
  ⟨d.entries.drop n, d.nodup.sublist ((drop_sublist n _).map _)⟩

def mapValues (d : OrderedDict κ α) (f : κ → α → α) : OrderedDict κ α where
  entries := d.entries.map fun e => (e.1, f e.1 e.2)
  nodup := by
    rw [List.map_map]
    exact d.nodup

section

variable [DecidableEq κ] (d : OrderedDict κ α) (k : κ)

def get? : Option α := (d.entries.find? (·.1 = k)).map Prod.snd

def erase : OrderedDict κ α :=
  ⟨d.entries.filter (·.1 ≠ k), d.nodup.sublist (filter_sublist.map _)⟩

def modify (f : α → α) : OrderedDict κ α :=
  d.mapValues fun k' v => if k' = k then f v else v

def push (v : α) (h : k ∉ d.keys) : OrderedDict κ α where
  entries := d.entries ++ [(k, v)]
  nodup := by
    rw [map_append, nodup_append]
    refine ⟨d.nodup, nodup_singleton k, fun x hx y hy hxy => h ?_⟩
    have hk : y = k := mem_singleton.mp hy
    rwa [← hk, ← hxy]

lemma not_mem_keys_erase : k ∉ (d.erase k).keys := by
  intro h
  obtain ⟨e, he, heq⟩ := mem_map.mp h
  exact of_decide_eq_true (mem_filter.mp he).2 heq

def set (v : α) : OrderedDict κ α :=
  if h : k ∈ d.keys then d.modify k fun _ => v else d.push k v h

def moveToEnd : OrderedDict κ α :=
  match d.get? k with
  | none => d
  | some v => (d.erase k).push k v (d.not_mem_keys_erase k)

end

variable [DecidableEq κ]

/-! ## Lookup -/

section lookup

variable {d : OrderedDict κ α} {k : κ} {v : α}

lemma get?_eq_some_iff : d.get? k = some v ↔ (k, v) ∈ d.entries := by
  constructor
  · intro h
    obtain ⟨e, he, rfl⟩ := map_eq_some_iff.mp h
    have hk : e.1 = k := by simpa using find?_some he
    rw [← hk]
    exact mem_of_find?_eq_some he
  intro h
  have hsome : (d.entries.find? (·.1 = k)).isSome := find?_isSome.mpr ⟨(k, v), h, by simp⟩
  obtain ⟨e, he⟩ := isSome_iff_exists.mp hsome
  have hk : e.1 = k := by simpa using find?_some he
  have heq : e = (k, v) := inj_on_of_nodup_map d.nodup (mem_of_find?_eq_some he) h hk
  rw [get?, he, heq]
  rfl

lemma get?_congr {d' : OrderedDict κ α} (h : d'.entries = d.entries) (k : κ) :
    d'.get? k = d.get? k := by
  rw [get?, get?, h]

lemma get?_eq_none_iff : d.get? k = none ↔ k ∉ d.keys := by
  rw [get?, map_eq_none_iff, find?_eq_none, keys, List.mem_map]
  constructor
  · rintro h ⟨e, he, rfl⟩
    exact h e he (by simp)
  · intro h e he heq
    exact h ⟨e, he, by simpa using heq⟩

lemma get?_of_append {d' : OrderedDict κ α} {l : List (κ × α)} (h : d.entries = l ++ d'.entries)
    (k : κ) :
    d'.get? k = if k ∈ l.map Prod.fst then none else d.get? k := by
  have hnd := d.nodup
  rw [h, map_append, nodup_append] at hnd
  split
  next hk => exact get?_eq_none_iff.mpr fun hk' => hnd.2.2 k hk k hk' rfl
  rename_i hk
  have hnone : l.find? (·.1 = k) = none := by
    rw [find?_eq_none]
    intro e he heq
    exact hk (mem_map.mpr ⟨e, he, of_decide_eq_true heq⟩)
  rw [get?, get?, h, find?_append, hnone, none_or]

lemma get?_mapValues (f : κ → α → α) : (d.mapValues f).get? k = (d.get? k).map (f k) := by
  have hfind : (d.mapValues f).entries.find? (·.1 = k) =
      (d.entries.find? (·.1 = k)).map fun e => (e.1, f e.1 e.2) := find?_map
  rw [get?, hfind, get?]
  cases h : d.entries.find? (·.1 = k) with
  | none => rfl
  | some e =>
    have hk : e.1 = k := by simpa using find?_some h
    subst hk
    rfl

@[simp] lemma get?_empty : (empty : OrderedDict κ α).get? k = none := rfl

lemma mem_keys_iff :
    k ∈ d.keys ↔ ∃ v, d.get? k = some v := by
  rw [← ne_none_iff_exists', Ne, get?_eq_none_iff, not_not]

lemma get?_modify (k' : κ) (f : α → α) :
    (d.modify k f).get? k' = (d.get? k').map fun v => if k' = k then f v else v := get?_mapValues _

lemma perm_erase (h : d.get? k = some v) : d.entries.Perm ((k, v) :: (d.erase k).entries) := by
  have hmem := get?_eq_some_iff.mp h
  obtain ⟨l₁, l₂, hl⟩ := append_of_mem hmem
  have hnd := d.nodup
  rw [hl, map_append, nodup_append] at hnd
  have hne : ∀ e ∈ l₁ ++ l₂, e.1 ≠ k := by
    intro e he heq
    rcases mem_append.mp he with he | he
    · exact hnd.2.2 e.1 (mem_map_of_mem he) k mem_cons_self heq
    · exact (nodup_cons.mp hnd.2.1).1 (mem_map.mpr ⟨e, he, heq⟩)
  have herase : (d.erase k).entries = l₁ ++ l₂ := by
    have hself : (l₁ ++ l₂).filter (·.1 ≠ k) = l₁ ++ l₂ :=
      filter_eq_self.mpr fun e he => decide_eq_true (hne e he)
    rw [filter_append] at hself
    show d.entries.filter (·.1 ≠ k) = l₁ ++ l₂
    rw [hl, filter_append, filter_cons_of_neg (by simp), hself]
  rw [herase, hl]
  exact perm_middle

lemma perm_moveToEnd (d : OrderedDict κ α) (k : κ) : (d.moveToEnd k).entries.Perm d.entries := by
  unfold moveToEnd
  split
  · exact .refl _
  next v hv => exact (perm_append_singleton (k, v) _).trans (perm_erase hv).symm

lemma entries_set (h : k ∉ d.keys) : (d.set k v).entries = d.entries ++ [(k, v)] := by
  rw [set, dif_neg h]
  rfl

lemma get?_set (k' : κ) : (d.set k v).get? k' = if k' = k then some v else d.get? k' := by
  by_cases hk : k ∈ d.keys
  · rw [set, dif_pos hk, get?_modify]
    split
    next heq =>
      obtain ⟨w, hw⟩ := mem_keys_iff.mp hk
      rw [heq, hw]
      rfl
    next => rw [Option.map_id']
  rw [get?, entries_set hk]
  split
  next heq =>
    subst heq
    have hnone : d.entries.find? (·.1 = k') = none := map_eq_none_iff.mp (get?_eq_none_iff.mpr hk)
    simp [hnone]
  rename_i hne
  have hnot : ¬ k = k' := fun h => hne h.symm
  simp [hnot, get?]

lemma get?_erase (k' : κ) : (d.erase k).get? k' = if k' = k then none else d.get? k' := by
  split
  next heq =>
    rw [heq]
    exact get?_eq_none_iff.mpr (not_mem_keys_erase d k)
  rename_i hne
  rw [get?, erase, find?_filter, get?]
  congr 2
  funext e
  by_cases he : e.1 = k'
  · simp [he, hne]
  · simp [he]

lemma mem_keys_set {x : κ} : x ∈ (d.set k v).keys ↔ x = k ∨ x ∈ d.keys := by
  rw [mem_keys_iff, get?_set, mem_keys_iff]
  by_cases hx : x = k <;> simp [hx]

lemma mem_keys_erase {x : κ} : x ∈ (d.erase k).keys ↔ x ≠ k ∧ x ∈ d.keys := by
  rw [mem_keys_iff, get?_erase, mem_keys_iff]
  by_cases hx : x = k <;> simp [hx]

lemma get?_set_eq_update : (d.set k v).get? = update d.get? k (some v) := by
  funext x
  rw [get?_set, update_apply]

lemma get?_erase_eq_update : (d.erase k).get? = update d.get? k none := by
  funext x
  rw [get?_erase, update_apply]

lemma perm_modify (h : d.get? k = some v) (f : α → α) :
    (d.modify k f).entries.Perm ((k, f v) :: (d.erase k).entries) := by
  have hmap := (perm_erase h).map fun e : κ × α => (e.1, if e.1 = k then f e.2 else e.2)
  rw [map_cons, if_pos rfl] at hmap
  have hself : ((d.erase k).entries.map fun e : κ × α => (e.1, if e.1 = k then f e.2 else e.2)) =
      (d.erase k).entries := by
    refine (map_congr_left fun e he => ?_).trans (map_id _)
    have hne : e.1 ≠ k := of_decide_eq_true (mem_filter.mp he).2
    rw [if_neg hne]
    rfl
  rwa [hself] at hmap

lemma erase_eq_self (h : k ∉ d.keys) : (d.erase k).entries = d.entries :=
  filter_eq_self.mpr fun e he => decide_eq_true fun heq => h (mem_map.mpr ⟨e, he, heq⟩)

lemma perm_set (d : OrderedDict κ α) (k : κ) (v : α) :
    (d.set k v).entries.Perm ((k, v) :: (d.erase k).entries) := by
  by_cases h : k ∈ d.keys
  · obtain ⟨w, hw⟩ := mem_keys_iff.mp h
    rw [set, dif_pos h]
    exact perm_modify hw _
  · rw [entries_set h, erase_eq_self h]
    exact perm_append_singleton _ _

lemma length_erase_add (h : d.get? k = some v) :
    (d.erase k).length + 1 = d.length := (perm_erase h).length_eq.symm

lemma length_set_of_none (h : d.get? k = none) : (d.set k v).length = d.length + 1 := by
  rw [length, entries_set (get?_eq_none_iff.mp h), length_append, length, length_singleton]

lemma length_set_of_some {w : α} (h : d.get? k = some w) : (d.set k v).length = d.length :=
  (perm_set d k v).length_eq.trans (perm_erase h).length_eq.symm

lemma perm_toList_append_erase (d : OrderedDict κ α) (k : κ) :
    d.entries.Perm ((d.get? k).toList.map (k, ·) ++ (d.erase k).entries) := by
  cases h : d.get? k with
  | none =>
    rw [erase_eq_self (get?_eq_none_iff.mp h)]
    exact .refl _
  | some v => exact perm_erase h

lemma mem_erase {e : κ × α} (he : e ∈ d.entries) (hne : e.1 ≠ k) : e ∈ (d.erase k).entries :=
  mem_filter.mpr ⟨he, decide_eq_true hne⟩

lemma perm_foldl_erase {cs : List (κ × α)} (hsub : ∀ c ∈ cs, c ∈ d.entries)
    (hnd : (cs.map Prod.fst).Nodup) :
    d.entries.Perm (cs ++ (cs.foldl (fun d c => d.erase c.1) d).entries) := by
  induction cs generalizing d with
  | nil => exact .refl _
  | cons c cs ih =>
    rw [map_cons, nodup_cons] at hnd
    have hc := perm_erase (get?_eq_some_iff.mpr (hsub c mem_cons_self))
    have hrest : ∀ c' ∈ cs, c' ∈ (d.erase c.1).entries := fun c' hc' =>
      mem_erase (hsub c' (mem_cons_of_mem c hc')) fun heq => hnd.1 (mem_map.mpr ⟨c', hc', heq⟩)
    exact hc.trans ((ih hrest hnd.2).cons c)

end lookup

end OrderedDict
