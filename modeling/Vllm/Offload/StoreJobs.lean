import Mathlib.Data.List.Pairwise
import Vllm.Offload.CPUManagerProof
import Vllm.Offload.StoreCopies

/-! # The copies of the store jobs -/

namespace Vllm.Offload

open Slots List GroupCopy

variable {keys : List OffloadKey} {o : PrepareStoreOutput OffloadKey}

/-- A manager stores some of the offered keys, in order, each in its own slot. -/
structure StoreContract (offered : List OffloadKey) (o : PrepareStoreOutput OffloadKey) : Prop where
  sublist : o.keysToStore.Sublist offered
  length : o.storeSpec.length = o.keysToStore.length
  nodup : o.storeSpec.Nodup

def PrepareStoreOutput.cpuBlock (o : PrepareStoreOutput OffloadKey) (key : OffloadKey) : ℕ :=
  o.storeSpec.getD (o.keysToStore.idxOf key) 0

/-- No entry is zero after the first that is not. -/
def HoleFree (ids : List ℕ) : Prop := ∀ b ∈ ids.dropWhile (· = 0), b ≠ 0

instance (ids : List ℕ) : Decidable (HoleFree ids) := by unfold HoleFree; infer_instance

/-- The blocks to store have no hole in any group. -/
def StoresHoleFree (cfg : SchedulerOffloadConfig) (st : RequestOffloadState) (numTokens : ℕ)
    (keysToStore : List OffloadKey) : Prop :=
  ∀ x ∈ cfg.kvGroupConfigs.zip st.groupStates,
    HoleFree
      ((storedIndices cfg.blockSizeFactor x.1 x.2 numTokens keysToStore).map
      (x.2.blockIds.getD · 0))

/-- The GPU block at logical index `i` goes into sub-slot `i % blockSizeFactor` of the CPU block for
the key of offloaded block `i / blockSizeFactor`. -/
def SingleDirectionOffloadingHandler.rightCopies (h : SingleDirectionOffloadingHandler)
    (cfg : SchedulerOffloadConfig) (st : RequestOffloadState) (numTokens : ℕ)
    (o : PrepareStoreOutput OffloadKey) : List CopyOp :=
  let f := cfg.blockSizeFactor
  ((cfg.kvGroupConfigs.zip st.groupStates).zip h.kvCacheGroupsDataRefs).flatMap fun ((g, gs),
    refs) =>
    refs.flatMap fun ref =>
      ((storedIndices f g gs numTokens o.keysToStore).filter fun i =>
        gs.blockIds.getD i 0 ≠ 0).map fun i =>
        h.copyOf ref (gs.blockIds.getD i 0) (o.cpuBlock (gs.offloadKeys.getD (i / f) default),
          i % f)

lemma islice_getElem? {α : Type*} (xs : List α) (start : ℕ) {step : ℕ} (hstep : 0 < step) (t : ℕ) :
    (islice xs start step)[t]? = xs[start + step * t]? := by
  have hlt : ∀ i, i < (xs.length - start + (step - 1)) / step ↔ start + step * i < xs.length := by
    intro i
    rw [Nat.lt_div_iff_mul_lt hstep, Nat.mul_comm]
    omega
  cases xs with
  | nil => simp [islice]
  | cons d ds =>
    -- all positions are inside the list, so that nothing is dropped
    have hmap :
      islice (d :: ds) start step = (range (((d :: ds).length - start + (step - 1)) / step)).map
          fun i => (d :: ds).getD (start + step * i) d := by
      rw [← filterMap_eq_map]
      apply filterMap_congr
      intro i hi
      have hin := (hlt i).mp (mem_range.mp hi)
      rw [getElem?_eq_getElem hin, Function.comp, getD_eq_getElem _ _ hin]
    rw [hmap, getElem?_map]
    by_cases ht : start + step * t < (d :: ds).length
    · rw [getElem?_range ((hlt t).mpr ht), getElem?_eq_getElem ht, Option.map_some,
        getD_eq_getElem _ _ ht]
    rw [getElem?_eq_none (by rw [length_range]; exact Nat.le_of_not_lt fun h => ht ((hlt t).mp h)),
      getElem?_eq_none (Nat.le_of_not_lt ht), Option.map_none]

lemma slice_getElem? {α : Type*} (xs : List α) (a b t : ℕ) :
    (slice xs a b)[t]? = if a + t < b then xs[a + t]? else none := by
  rw [slice, getElem?_drop, getElem?_take]

variable {g : GroupOffloadConfig} {gs : RequestGroupState}

lemma of_mem_offeredKeys {f : ℕ} {n : ℕ}
    (hf : 0 < f) (hoff : offeredKeys f g gs n = .ok keys) {key : OffloadKey} (hkey : key ∈ keys) :
    ∃ j, gs.offloadKeys[j]? = some key ∧ gs.blockIds.getD (j * f + (f - 1)) 0 ≠ 0 := by
  unfold offeredKeys at hoff
  dsimp only at hoff
  split at hoff
  · cases hoff
    cases hkey
  obtain ⟨-, -, hoff⟩ := of_bind hoff
  obtain ⟨-, -, ⟨⟩⟩ := of_bind hoff
  obtain ⟨⟨⟨k, id⟩, j⟩, hmem, hsome⟩ := mem_filterMap.mp hkey
  have hat := mk_mem_zipIdx_iff_le_and_getElem?_sub.mp hmem
  split at hsome
  · cases hsome
  rename_i hcond
  cases hsome
  obtain ⟨hk, hid⟩ := getElem?_zip_eq_some.mp hat.2
  rw [slice_getElem?] at hk
  rw [islice_getElem? _ _ hf] at hid
  split at hk
  · refine ⟨j, ?_, ?_⟩
    · rw [← hk, Nat.add_sub_cancel' hat.1]
    have hpos : gs.nextStoredBlockIdx * f + f - 1 + f * (j - gs.nextStoredBlockIdx) = j * f +
      (f - 1) := by
      obtain ⟨d, rfl⟩ := Nat.exists_eq_add_of_le hat.1
      rw [Nat.add_sub_cancel_left, Nat.add_mul, Nat.mul_comm f d]
      omega
    rw [hpos, getElem?_take] at hid
    split at hid
    · rw [getD_eq_getElem?_getD, hid]
      exact fun h => hcond (.inl h)
    · cases hid
  · cases hk

lemma offeredKeys_sublist {f : ℕ} {n : ℕ} (hoff : offeredKeys f g gs n = .ok keys) :
    keys.Sublist (slice gs.offloadKeys gs.nextStoredBlockIdx (n / g.offloadedBlockSize)) := by
  unfold offeredKeys at hoff
  dsimp only at hoff
  split at hoff
  · cases hoff
    exact nil_sublist _
  obtain ⟨_, hlen, hoff⟩ := of_bind hoff
  obtain ⟨-, -, ⟨⟩⟩ := of_bind hoff
  have hle : g.numOfferedBlocks n ≤ n / g.offloadedBlockSize := by
    unfold GroupOffloadConfig.numOfferedBlocks
    split
    · exact Nat.sub_le _ _
    · exact le_rfl
  refine (filterMap_sublist_map (m := fun x => x.1.1) ?_ _).trans ?_
  · rintro ⟨⟨key, id⟩, j⟩ y hy
    split at hy
    · cases hy
    cases hy
    rfl
  have hlen := of_pyAssert hlen
  rw [← Function.comp_def Prod.fst Prod.fst, ← map_map, zipIdx_map_fst, map_fst_zip hlen.le]
  exact (take_sublist_take_left hle).drop _

/-! ## One group of a job -/

def storedKeys (g : GroupOffloadConfig) (gs : RequestGroupState) (numTokens : ℕ)
    (keysToStore : List OffloadKey) : List OffloadKey :=
  (slice gs.offloadKeys gs.nextStoredBlockIdx (numTokens / g.offloadedBlockSize)).filter
    (· ∈ keysToStore)

def groupCopy (f : ℕ) (numTokens : ℕ) (o : PrepareStoreOutput OffloadKey) (g : GroupOffloadConfig)
    (gs : RequestGroupState) (refs : List CanonicalKVCacheRef) : GroupCopy where
  indices := storedIndices f g gs numTokens o.keysToStore
  blockId i := gs.blockIds.getD i 0
  slot i := (o.cpuBlock (gs.offloadKeys.getD (i / f) default), i % f)
  cpuBlocks := (storedKeys g gs numTokens o.keysToStore).map o.cpuBlock
  refs := refs

section group

variable {f n : ℕ} {o : PrepareStoreOutput OffloadKey} {g : GroupOffloadConfig}
  {gs : RequestGroupState}
  {refs : List CanonicalKVCacheRef}

def storedBlocks (g : GroupOffloadConfig) (gs : RequestGroupState) (numTokens : ℕ)
    (keysToStore : List OffloadKey) : List (OffloadKey × ℕ) :=
  ((slice gs.offloadKeys gs.nextStoredBlockIdx (numTokens / g.offloadedBlockSize)).zipIdx
    gs.nextStoredBlockIdx).filter (·.1 ∈ keysToStore)

lemma storedIndices_eq : storedIndices f g gs n o.keysToStore =
    (storedBlocks g gs n o.keysToStore).flatMap fun e => range' (e.2 * f) f := rfl

lemma map_fst_storedBlocks :
    (storedBlocks g gs n o.keysToStore).map Prod.fst = storedKeys g gs n o.keysToStore := by
  rw [storedKeys]
  conv_rhs => rw [← zipIdx_map_fst gs.nextStoredBlockIdx
    (slice gs.offloadKeys gs.nextStoredBlockIdx (n / g.offloadedBlockSize)), filter_map]
  rfl

lemma of_mem_storedBlocks {e : OffloadKey × ℕ} (he : e ∈ storedBlocks g gs n o.keysToStore) :
    gs.offloadKeys[e.2]? = some e.1 ∧ e.1 ∈ o.keysToStore := by
  obtain ⟨hmem, hkey⟩ := mem_filter.mp he
  obtain ⟨hle, hat⟩ := mk_mem_zipIdx_iff_le_and_getElem?_sub.mp hmem
  rw [slice_getElem?, Nat.add_sub_cancel' hle] at hat
  split at hat
  · exact ⟨hat, of_decide_eq_true hkey⟩
  · cases hat

lemma map_slot_groupCopy (hf : 0 < f) :
    (groupCopy f n o g gs refs).indices.map (groupCopy f n o g gs refs).slot =
      slots f (groupCopy f n o g gs refs).cpuBlocks := by
  show (storedIndices f g gs n o.keysToStore).map _ =
    slots f ((storedKeys g gs n o.keysToStore).map o.cpuBlock)
  rw [storedIndices_eq, map_flatMap, ← map_fst_storedBlocks, map_map, slots, flatMap_map]
  apply flatMap_congr
  intro e he
  obtain ⟨hat, -⟩ := of_mem_storedBlocks he
  rw [range'_eq_map_range, map_map]
  apply map_congr_left
  intro k hk
  have hk : k < f := mem_range.mp hk
  have hdiv : (e.2 * f + k) / f = e.2 := by
    rw [mul_comm, Nat.mul_add_div hf, Nat.div_eq_of_lt hk, add_zero]
  have hmod : (e.2 * f + k) % f = k := by rw [mul_comm, Nat.mul_add_mod, Nat.mod_eq_of_lt hk]
  show (o.cpuBlock (gs.offloadKeys.getD ((e.2 * f + k) / f) default), (e.2 * f + k) % f) =
    (o.cpuBlock e.1, k)
  rw [hdiv, hmod, getD_eq_getElem?_getD, hat]
  rfl

lemma first_present {p : ℕ → Bool} {a : ℕ} (hf : 0 < f) (hlast : p (a * f + (f - 1)) = true)
    (rest : List ℕ) :
    let l := range' (a * f) f ++ rest
    let r := ((l.filter p).head?.getD 0) % f
    (∀ i ∈ l.take r, p i = false) ∧ ∀ i ∈ (l.drop r).head?, p i = true := by
  have hex : ∃ r, p (a * f + r) = true := ⟨f - 1, hlast⟩
  obtain ⟨r, hr, hmin⟩ : ∃ r, p (a * f + r) = true ∧ ∀ k < r, p (a * f + k) = false :=
    ⟨Nat.find hex, Nat.find_spec hex, fun k hk => by simpa using Nat.find_min hex hk⟩
  have hrf : r < f := by
    by_contra hge
    rw [hmin (f - 1) (by omega)] at hlast
    cases hlast
  have hbef : ∀ i ∈ range' (a * f) r, p i = false := by
    intro i hi
    obtain ⟨hle, hlt⟩ := mem_range'_1.mp hi
    have := hmin (i - a * f) (by omega)
    rwa [Nat.add_sub_cancel' hle] at this
  have hsplit : range' (a * f) f ++ rest =
      range' (a * f) r ++ (a * f + r) :: (range' (a * f + r + 1) (f - r - 1) ++ rest) := by
    rw [← cons_append, ← range'_succ, ← append_assoc, range'_append_1]
    congr 2
    omega
  have hhead : ((range' (a * f) f ++ rest).filter p).head? = some (a * f + r) := by
    have hnil : (range' (a * f) r).filter p = [] := filter_eq_nil_iff.mpr fun i hi => by
      simp [hbef i hi]
    rw [hsplit, filter_append, hnil, nil_append, filter_cons_of_pos hr, head?_cons]
  have hmod : (a * f + r) % f = r := by rw [mul_comm, Nat.mul_add_mod, Nat.mod_eq_of_lt hrf]
  dsimp only
  rw [hhead, Option.getD_some, hmod, hsplit, take_left' length_range', drop_left' length_range']
  refine ⟨hbef, fun i hi => ?_⟩
  obtain rfl : a * f + r = i := Option.some.inj hi
  exact hr

lemma placed_groupCopy (hf : 0 < f)
    (hlast : ∀ e ∈ storedBlocks g gs n o.keysToStore, gs.blockIds.getD (e.2 * f + (f - 1)) 0 ≠ 0)
    (hdis : (groupCopy f n o g gs refs).cpuBlocks.Nodup) :
    (groupCopy f n o g gs refs).Placed f := by
  have hsl : (groupCopy f n o g gs refs).indices.map (groupCopy f n o g gs refs).slot =
      slots f (groupCopy f n o g gs refs).cpuBlocks := map_slot_groupCopy hf
  -- the indices are those of the first block, and end with those of the last block
  have hfirst : (groupCopy f n o g gs refs).indices = [] ∨
    ∃ a rest, gs.blockIds.getD (a * f + (f - 1)) 0 ≠ 0 ∧
      (groupCopy f n o g gs refs).indices = range' (a * f) f ++ rest := by
    show storedIndices f g gs n o.keysToStore = [] ∨ ∃ a rest, _ ∧
      storedIndices f g gs n o.keysToStore = _
    rw [storedIndices_eq]
    cases he : storedBlocks g gs n o.keysToStore with
    | nil => exact .inl rfl
    | cons e es =>
      exact .inr ⟨e.2, es.flatMap fun e => range' (e.2 * f) f, hlast e (he ▸ mem_cons_self),
        flatMap_cons⟩
  have hend : ∀ i ∈ (groupCopy f n o g gs refs).indices.getLast?, gs.blockIds.getD i 0 ≠ 0 := by
    show ∀ i ∈ (storedIndices f g gs n o.keysToStore).getLast?, _
    rw [storedIndices_eq]
    rcases eq_nil_or_concat (storedBlocks g gs n o.keysToStore) with he | ⟨es, e, he⟩
    · simp [he]
    have hmem : e ∈ storedBlocks g gs n o.keysToStore := by simp [he]
    rw [he, concat_eq_append, flatMap_append, flatMap_singleton]
    intro i hi
    have hne : range' (e.2 * f) f ≠ [] := by simp [hf.ne']
    rw [getLast?_append_of_ne_nil _ hne, getLast?_range', if_neg hf.ne'] at hi
    cases hi
    rw [Nat.add_sub_assoc hf]
    exact hlast e hmem
  refine { slots_eq := hsl, nodup := ?_, last := hend, skipped := ?_, first := ?_ }
  · exact .of_map _ (hsl ▸ nodup_slots f hdis)
  · rcases hfirst with hnil | ⟨a, rest, hlast, hcons⟩
    · simp [hnil]
    have :=
      (first_present (p := fun i => gs.blockIds.getD i 0 ≠ 0) hf (decide_eq_true hlast) rest).1
    intro i hi
    rw [start, present, hcons] at hi
    exact not_not.mp (of_decide_eq_false (this i hi))
  rcases hfirst with hnil | ⟨a, rest, hlast, hcons⟩
  · simp [hnil]
  have := (first_present (p := fun i => gs.blockIds.getD i 0 ≠ 0) hf (decide_eq_true hlast) rest).2
  intro i hi
  rw [start, present, hcons] at hi
  exact of_decide_eq_true (this i hi)

lemma storeSources_eq (refs : List CanonicalKVCacheRef) {blocks : List (ℕ × ℕ)}
    (hsources : storeSources f g gs n o.keysToStore = .ok blocks) :
    blocks = (groupCopy f n o g gs refs).present.map fun i =>
    (i, (groupCopy f n o g gs refs).blockId i) := by
  obtain ⟨all, hall, ⟨⟩⟩ := of_bind hsources
  have heq : all = (storedIndices f g gs n o.keysToStore).map fun i =>
    (i, gs.blockIds.getD i 0) := by
    refine eq_map_of_mapM (fun i y hy => ?_) hall
    obtain ⟨id, hid, ⟨⟩⟩ := of_bind hy
    unfold pyGet at hid
    split at hid
    next b hb =>
      cases hid
      rw [getD_eq_getElem?_getD, hb]
      rfl
    next => cases hid
  rw [heq, filter_map]
  rfl

end group

lemma GroupCopy.Placed.full_iff {c : GroupCopy} {f : ℕ} (hc : c.Placed f) :
    c.Full f ↔ HoleFree (c.indices.map c.blockId) := by
  have hdrop : (c.indices.map c.blockId).dropWhile (· = 0) =
    (c.indices.drop (c.start % f)).map c.blockId := by
    conv_lhs => rw [← take_append_drop (c.start % f) c.indices, map_append]
    rw [dropWhile_append_of_pos (by
      intro b hb
      obtain ⟨i, hi, rfl⟩ := mem_map.mp hb
      exact decide_eq_true (hc.skipped i hi))]
    have hfirst := hc.first
    cases hd : c.indices.drop (c.start % f) with
    | nil => rfl
    | cons i rest =>
      rw [hd] at hfirst
      rw [map_cons, dropWhile_cons_of_neg (by simpa using hfirst i rfl)]
  rw [HoleFree, hdrop, forall_mem_map]
  rfl

/-! ## The whole job -/

lemma StoreContract.map_cpuBlock {offered : List OffloadKey} {o : PrepareStoreOutput OffloadKey}
    (ho : StoreContract offered o) (hnd : o.keysToStore.Nodup) :
    o.keysToStore.map o.cpuBlock = o.storeSpec := by
  apply ext_getElem
  · rw [length_map, ho.length]
  intro i hi hi'
  rw [length_map] at hi
  rw [getElem_map, PrepareStoreOutput.cpuBlock, hnd.idxOf_getElem i hi, getD_eq_getElem _ _ hi']

section job

variable {cfg : SchedulerOffloadConfig} {st : RequestOffloadState} {n : ℕ}
  {offered : List (List OffloadKey)}
  {o : PrepareStoreOutput OffloadKey}

abbrev groupsOf (cfg : SchedulerOffloadConfig) (st : RequestOffloadState) :
    List (GroupOffloadConfig × RequestGroupState) := cfg.kvGroupConfigs.zip st.groupStates

/-- A request has one state per group, and no two of its offloaded blocks have the same key. -/
structure DistinctKeys (cfg : SchedulerOffloadConfig) (st : RequestOffloadState) : Prop where
  length : st.groupStates.length = cfg.kvGroupConfigs.length
  nodup : (st.groupStates.flatMap (·.offloadKeys)).Nodup

lemma DistinctKeys.groups (hst : DistinctKeys cfg st) :
    ((groupsOf cfg st).flatMap fun x => x.2.offloadKeys).Nodup := by
  have hmap : (groupsOf cfg st).map Prod.snd = st.groupStates := map_snd_zip hst.length.le
  have hnd := hst.nodup
  rwa [← hmap, flatMap_map] at hnd

variable
  (hoff : (groupsOf cfg st).mapM (fun (g, gs) => offeredKeys cfg.blockSizeFactor g gs n) =
  .ok offered)

include hoff in
lemma forall₂_offered :
    Forall₂ (fun x keys => offeredKeys cfg.blockSizeFactor x.1 x.2 n = .ok keys) (groupsOf cfg st)
    offered :=
  mapM_eq_ok hoff

def visitedKeys (cfg : SchedulerOffloadConfig) (st : RequestOffloadState) (n : ℕ) :
    List OffloadKey :=
  (groupsOf cfg st).flatMap fun x =>
    slice x.2.offloadKeys x.2.nextStoredBlockIdx (n / x.1.offloadedBlockSize)

include hoff in
lemma offered_sublist_visitedKeys : offered.flatten.Sublist (visitedKeys cfg st n) := by
  have hall := forall₂_offered hoff
  clear hoff
  unfold visitedKeys
  generalize groupsOf cfg st = groups at hall ⊢
  induction hall with
  | nil => exact .slnil
  | cons hx _ ih =>
    rw [flatten_cons, flatMap_cons]
    exact (offeredKeys_sublist hx).append ih

lemma nodup_visitedKeys (hst : DistinctKeys cfg st) : (visitedKeys cfg st n).Nodup := by
  refine hst.groups.sublist ?_
  unfold visitedKeys
  generalize groupsOf cfg st = groups
  induction groups with
  | nil => exact .slnil
  | cons x groups ih =>
    rw [flatMap_cons, flatMap_cons]
    exact ((drop_sublist _ _).trans (take_sublist _ _)).append ih

include hoff

lemma flatMap_storedKeys (hst : DistinctKeys cfg st) (ho : StoreContract offered.flatten o) :
    ((groupsOf cfg st).flatMap fun x => storedKeys x.1 x.2 n o.keysToStore) = o.keysToStore := by
  have hfilter := filter_mem_of_sublist (p := (· ∈ o.keysToStore))
    (ho.sublist.trans (offered_sublist_visitedKeys hoff)) (nodup_visitedKeys hst)
    fun _ _ => decide_eq_true_iff
  rw [visitedKeys, filter_flatMap] at hfilter
  exact hfilter

lemma last_of_stored (hf : 0 < cfg.blockSizeFactor) (hst : DistinctKeys cfg st)
    (ho : StoreContract offered.flatten o) {x : GroupOffloadConfig × RequestGroupState}
    (hx : x ∈ groupsOf cfg st) {e : OffloadKey × ℕ}
    (he : e ∈ storedBlocks x.1 x.2 n o.keysToStore) :
    x.2.blockIds.getD (e.2 * cfg.blockSizeFactor + (cfg.blockSizeFactor - 1)) 0 ≠ 0 := by
  obtain ⟨hat, hmem⟩ := of_mem_storedBlocks he
  obtain ⟨keys, hkeys, hkey⟩ := mem_flatten.mp (ho.sublist.subset hmem)
  obtain ⟨i, hi, rfl⟩ := getElem_of_mem hkeys
  have hall := forall₂_offered hoff
  have hi' : i < (groupsOf cfg st).length := hall.length_eq ▸ hi
  obtain ⟨j, hj, hlast⟩ := of_mem_offeredKeys hf (hall.get hi' hi) hkey
  obtain ⟨hkeysNodup, hdisjoint⟩ := nodup_flatMap.mp hst.groups
  -- the key belongs to one group only
  have hsame : (groupsOf cfg st)[i] = x := by
    by_contra hne
    have : Std.Symm (Function.onFun List.Disjoint fun x : GroupOffloadConfig × RequestGroupState =>
      x.2.offloadKeys) := ⟨fun _ _ hd _ hx hy => hd hy hx⟩
    have hd := hdisjoint.forall (getElem_mem hi') hx hne
    exact hd (mem_of_getElem? hj) (mem_of_getElem? hat)
  rw [get_eq_getElem, hsame] at hj hlast
  have hidx : j = e.2 := by
    obtain ⟨hlt, hget⟩ := List.getElem?_eq_some_iff.mp hj
    obtain ⟨hlt', hget'⟩ := List.getElem?_eq_some_iff.mp hat
    exact (hkeysNodup x hx).getElem_inj_iff.mp (hget.trans hget'.symm)
  exact hidx ▸ hlast

omit hoff

def groupCopies (h : SingleDirectionOffloadingHandler) (cfg : SchedulerOffloadConfig)
    (st : RequestOffloadState) (n : ℕ) (o : PrepareStoreOutput OffloadKey) : List GroupCopy :=
  ((groupsOf cfg st).zip h.kvCacheGroupsDataRefs).map fun x =>
    groupCopy cfg.blockSizeFactor n o x.1.1 x.1.2 x.2

variable {h : SingleDirectionOffloadingHandler}

lemma rightCopies_eq :
    h.rightCopies cfg st n o = (groupCopies h cfg st n o).flatMap h.rightGroup := by
  rw [groupCopies, flatMap_map]
  rfl

lemma length_groupsOf (hst : DistinctKeys cfg st) :
    (groupsOf cfg st).length = cfg.kvGroupConfigs.length := by
  rw [length_zip, hst.length, min_self]

lemma forall_groupCopies (hs : h.StoresFor cfg) (hst : DistinctKeys cfg st) {P : GroupCopy → Prop}
    {Q : GroupOffloadConfig × RequestGroupState → Prop}
    (hPQ : ∀ x ∈ groupsOf cfg st, ∀ refs, P (groupCopy cfg.blockSizeFactor n o x.1 x.2 refs) ↔
      Q x) :
    (∀ c ∈ groupCopies h cfg st n o, P c) ↔ ∀ x ∈ groupsOf cfg st, Q x := by
  have hfst : ((groupsOf cfg st).zip h.kvCacheGroupsDataRefs).map Prod.fst = groupsOf cfg st :=
    map_fst_zip (by rw [length_groupsOf hst, hs.groups])
  conv_rhs => rw [← hfst, forall_mem_map]
  rw [groupCopies, forall_mem_map]
  constructor
  · intro hP x hx
    exact (hPQ x.1 (of_mem_zip hx).1 x.2).mp (hP x hx)
  · intro hQ x hx
    exact (hPQ x.1 (of_mem_zip hx).1 x.2).mpr (hQ x hx)

include hoff in
lemma flatMap_cpuBlocks (hs : h.StoresFor cfg) (hst : DistinctKeys cfg st)
    (ho : StoreContract offered.flatten o) (hnd : o.keysToStore.Nodup) :
    (groupCopies h cfg st n o).flatMap cpuBlocks = o.storeSpec := by
  have hfst : ((groupsOf cfg st).zip h.kvCacheGroupsDataRefs).map Prod.fst = groupsOf cfg st :=
    map_fst_zip (by rw [length_groupsOf hst, hs.groups])
  rw [← ho.map_cpuBlock hnd]
  conv_rhs => rw [← flatMap_storedKeys hoff hst ho, ← hfst, flatMap_map, map_flatMap]
  rw [groupCopies, flatMap_map]
  rfl

end job

namespace ConnectorScheduler

variable {s s' : ConnectorScheduler} {reqId : String} {st : RequestOffloadState} {n jobId : ℕ}
  {offered : List (List OffloadKey)} {o : PrepareStoreOutput OffloadKey} {job : TransferJob}
  {h : SingleDirectionOffloadingHandler}
variable {created : Option (ℕ × TransferJob)}
  (hcreate : s.createStoreJob reqId st n o = .ok (s', jobId, job))

include hcreate in
lemma createStoreJob_specs : ∃ sources, (groupsOf s.config st).mapM
        (fun (g, gs) => storeSources s.config.blockSizeFactor g gs n o.keysToStore) = .ok sources ∧
        job = {
        reqId := reqId
        gpuSpec := {
          blockIds := sources.flatMap fun blocks => blocks.map Prod.snd
          groupSizes := sources.map length
          blockIndices := sources.map fun blocks => blocks.head?.elim 0 Prod.fst }
        backendSpec := o.storeSpec } := by
  unfold createStoreJob at hcreate
  obtain ⟨sources, hsources, hcreate⟩ := of_bind hcreate
  obtain ⟨spec, hspec, hcreate⟩ := of_bind hcreate
  unfold GPULoadStoreSpec.init at hspec
  obtain ⟨-, -, hspec⟩ := of_bind hspec
  obtain ⟨-, -, ⟨⟩⟩ := of_bind hspec
  obtain ⟨-, -, hcreate⟩ := of_bind hcreate
  have hjob := (Prod.mk.inj (Prod.mk.inj (Except.ok.inj hcreate)).2).2
  exact ⟨sources, hsources, hjob.symm⟩

/-- The job copies each stored block to its slot. -/
lemma createStoreJob_copies (hs : h.StoresFor s.config) (hst : DistinctKeys s.config st)
    (hoff : (groupsOf s.config st).mapM (fun (g, gs) =>
      offeredKeys s.config.blockSizeFactor g gs n) = .ok offered)
    (ho : StoreContract offered.flatten o)
    (hcreate : s.createStoreJob reqId st n o = .ok (s', jobId, job)) :
    h.transferAsync job = .ok (h.rightCopies s.config st n o) ↔
    StoresHoleFree s.config st n o.keysToStore := by
  obtain ⟨sources, hsources, rfl⟩ := createStoreJob_specs hcreate
  have hkts : o.keysToStore.Nodup :=
    (nodup_visitedKeys hst).sublist (ho.sublist.trans (offered_sublist_visitedKeys hoff))
  have hcpu := flatMap_cpuBlocks hoff hs hst ho hkts
  have hf : 0 < s.config.blockSizeFactor := hs.pos
  have hfactor := hs.factor
  have hpl : ∀ c ∈ groupCopies h s.config st n o, c.Placed h.blockSizeFactor := by
    intro c hc
    obtain ⟨x, hx, rfl⟩ := mem_map.mp hc
    rw [hfactor]
    apply placed_groupCopy hf
    · exact fun e he => last_of_stored hoff hf hst ho (of_mem_zip hx).1 he
    have hnd := ho.nodup
    rw [← hcpu] at hnd
    exact (nodup_flatMap.mp hnd).1 _ (mem_map_of_mem hx)
  have hrefs : (groupCopies h s.config st n o).map refs = h.kvCacheGroupsDataRefs := by
    rw [groupCopies, map_map]
    exact map_snd_zip (by rw [length_groupsOf hst, hs.groups])
  have hsrc : sources = (groupCopies h s.config st n o).map fun c => c.present.map fun i =>
    (i, c.blockId i) := by
    have hfst : ((groupsOf s.config st).zip h.kvCacheGroupsDataRefs).map Prod.fst =
      groupsOf s.config st :=
      map_fst_zip (by rw [length_groupsOf hst, hs.groups])
    have hmap := eq_map_of_mapM (fun x blocks hblk => storeSources_eq [] hblk) hsources
    rw [← hfst, map_map] at hmap
    rw [hmap, groupCopies, map_map]
    rfl
  have hhead : ∀ c : GroupCopy, (c.present.map fun i => (i, c.blockId i)).head?.elim 0 Prod.fst =
    c.start := by
    intro c
    rw [start, head?_map]
    cases c.present.head? <;> rfl
  have hiff : (∀ c ∈ groupCopies h s.config st n o, c.Full h.blockSizeFactor) ↔
      StoresHoleFree s.config st n o.keysToStore := by
    rw [StoresHoleFree,
      ← forall_groupCopies hs hst (P := fun c => HoleFree (c.indices.map c.blockId))
      (fun x _ refs => Iff.rfl)]
    exact forall₂_congr fun c hc => (hpl c hc).full_iff
  rw [rightCopies_eq, ← hiff]
  apply h.transferAsync_eq_iff hs _ hpl (hcpu ▸ ho.nodup) hrefs.symm
  · simp only [hsrc, flatMap_map, map_map, Function.comp_def, length_map, hhead]
  · exact hcpu.symm
  · intro c hc
    exact hs.refs _ (hrefs ▸ mem_map_of_mem hc)

/-! ## The jobs of a step -/

include hcreate in
lemma createStoreJob_frame :
    s'.config = s.config ∧ ∀ r ≠ reqId, s'.reqStatus.get? r = s.reqStatus.get? r := by
  obtain ⟨sources, -, hcreate⟩ := of_bind hcreate
  obtain ⟨spec, -, hcreate⟩ := of_bind hcreate
  obtain ⟨-, -, hcreate⟩ := of_bind hcreate
  obtain rfl := (Prod.mk.inj (Except.ok.inj hcreate)).1
  refine ⟨rfl, fun r hr => ?_⟩
  show (s.reqStatus.set reqId _).get? r = _
  rw [OrderedDict.get?_set, if_neg hr]

variable {reqs : String → OffloadRequest}
  {prepareStore : String → List OffloadKey → Option (PrepareStoreOutput OffloadKey)}

lemma buildStoreJob_cases {k : ℕ}
    (hbuild : s.buildStoreJob reqs prepareStore reqId k = .ok (s', created)) :
    (created = none ∧ (s' = s ∨ ∃ st, s.reqStatus.get? reqId = some st ∧
      s' =
      s.setReqStatus reqId
      (st.advanceStoredIdx s.config (numOffloadableTokens s.config st (reqs reqId) k)))) ∨
    ∃ st offered o jobId job, s.reqStatus.get? reqId = some st ∧ created = some (jobId, job) ∧
      (groupsOf s.config st).mapM (fun (g, gs) => offeredKeys s.config.blockSizeFactor g gs
        (numOffloadableTokens s.config st (reqs reqId) k)) = .ok offered ∧
        prepareStore reqId offered.flatten = some o ∧
      s.createStoreJob reqId st (numOffloadableTokens s.config st (reqs reqId) k) o =
      .ok (s', jobId, job) := by
  unfold buildStoreJob at hbuild
  split at hbuild
  · cases hbuild
    exact .inl ⟨rfl, .inl rfl⟩
  rename_i st hst
  obtain ⟨offered, hoff, hbuild⟩ := of_bind hbuild
  split at hbuild
  · cases hbuild
    exact .inl ⟨rfl, .inr ⟨st, hst, rfl⟩⟩
  split at hbuild
  · cases hbuild
    exact .inl ⟨rfl, .inl rfl⟩
  rename_i o ho
  split at hbuild
  · cases hbuild
    exact .inl ⟨rfl, .inr ⟨st, hst, rfl⟩⟩
  · obtain ⟨⟨s1, jobId, job⟩, hcreate, ⟨⟩⟩ := of_bind hbuild
    exact .inr ⟨st, offered, o, jobId, job, hst, rfl, hoff, ho, hcreate⟩

lemma buildStoreJob_frame {k : ℕ}
    (hbuild : s.buildStoreJob reqs prepareStore reqId k = .ok (s', created)) :
    s'.config = s.config ∧ ∀ r ≠ reqId, s'.reqStatus.get? r = s.reqStatus.get? r := by
  rcases buildStoreJob_cases hbuild with ⟨-, rfl | ⟨st, -, rfl⟩⟩ | ⟨st, offered, o, jobId, job, -,
    -, -, -, hcreate⟩
  · exact ⟨rfl, fun _ _ => rfl⟩
  · refine ⟨rfl, fun r hr => ?_⟩
    show (s.reqStatus.set reqId _).get? r = _
    rw [OrderedDict.get?_set, if_neg hr]
  · exact createStoreJob_frame hcreate

/-- The job was created in this step for a request in state `st` with `n` tokens and the manager's
answer `o`. -/
structure CreatedFrom (s : ConnectorScheduler) (reqs : String → OffloadRequest)
    (prepareStore : String → List OffloadKey →
      Option (PrepareStoreOutput OffloadKey)) (out : SchedulerOutput)
    (job : TransferJob) (st : RequestOffloadState) (n : ℕ) (o : PrepareStoreOutput OffloadKey) :
      Prop where
  status : s.reqStatus.get? job.reqId = some st
  tokens : ∃ k, (job.reqId, k) ∈ out.numScheduledTokens ∧
    n = numOffloadableTokens s.config st (reqs job.reqId) k
  answer : ∃ offered, (groupsOf s.config st).mapM
      (fun (g, gs) => offeredKeys s.config.blockSizeFactor g gs n) = .ok offered ∧
    prepareStore job.reqId offered.flatten = some o

/-- Every store job of a step is copied right exactly if, in every group, the stored part of the
request's block list has no hole. -/
theorem buildStoreJobs_copied_iff_holeFree {out : SchedulerOutput} {jobs : List (ℕ × TransferJob)}
    (hs : h.StoresFor s.config) (hids : (out.numScheduledTokens.map Prod.fst).Nodup)
    (hkeys : ∀ r st, s.reqStatus.get? r = some st → DistinctKeys s.config st)
    (hmanager : ∀ r keys o, prepareStore r keys = some o → StoreContract keys o)
    (hrun : s.buildStoreJobs reqs prepareStore out = .ok (s', jobs)) {j : ℕ} {job : TransferJob}
    (hjob : (j, job) ∈ jobs) : ∃ st n o, CreatedFrom s reqs prepareStore out job st n o ∧
      (h.transferAsync job = .ok (h.rightCopies s.config st n o) ↔
        StoresHoleFree s.config st n o.keysToStore) := by
  -- the states of the requests that are still to come are as they were
  have hloop :=
    Machine.foldlM_invariant (P := fun rest (acc : ConnectorScheduler × List (ℕ × TransferJob)) =>
      (rest.map Prod.fst).Nodup ∧ (∀ x ∈ rest, x ∈ out.numScheduledTokens) ∧
        acc.1.config = s.config ∧
      (∀ x ∈ rest, acc.1.reqStatus.get? x.1 = s.reqStatus.get? x.1) ∧
      ∀ e ∈ acc.2, ∃ st n o, CreatedFrom s reqs prepareStore out e.2 st n o ∧
        (h.transferAsync e.2 = .ok (h.rightCopies s.config st n o) ↔
          StoresHoleFree s.config st n o.keysToStore)) ?_ hrun
    ⟨hids, fun _ hx => hx, rfl, fun _ _ => rfl, fun _ he => absurd he not_mem_nil⟩
  · exact hloop.2.2.2.2 _ hjob
  rintro ⟨s1, made⟩ ⟨r, k⟩ rest ⟨s2, made'⟩ ⟨hnodup, hsub, hcfg, hsame, hmade⟩ hround
  obtain ⟨⟨s3, created⟩, hbuild, ⟨⟩⟩ := of_bind hround
  rw [map_cons, nodup_cons] at hnodup
  rw [forall_mem_cons] at hsub hsame
  obtain ⟨hcfg', hframe⟩ := buildStoreJob_frame hbuild
  refine ⟨hnodup.2, hsub.2, hcfg'.trans hcfg, fun x hx => ?_, fun e he => ?_⟩
  · rw [hframe x.1 fun heq => hnodup.1 (mem_map.mpr ⟨x, hx, heq⟩)]
    exact hsame.2 x hx
  rcases mem_append.mp he with he | he
  · exact hmade e he
  rcases buildStoreJob_cases hbuild with ⟨rfl, -⟩ | ⟨st, offered, o, id, new, hst, rfl, hoffered,
    ho, hcreate⟩
  · cases he
  obtain rfl : e = (id, new) := by simpa using he
  obtain rfl : new.reqId = r := by
    obtain ⟨_, -, rfl⟩ := createStoreJob_specs hcreate
    rfl
  rw [hsame.1] at hst
  have hiff :=
    createStoreJob_copies (h := h) (hcfg ▸ hs) (hcfg ▸ hkeys _ st hst) hoffered (hmanager _ _ o ho)
      hcreate
  rw [hcfg] at hiff hoffered
  exact ⟨st, _, o, { status := hst, tokens := ⟨k, hsub.1, rfl⟩, answer := ⟨offered, hoffered, ho⟩ },
    hiff⟩

def windowSpec : OffloadingSpec where
  groups := [{ attention := .slidingWindow 2, gpuBlockSize := 1 }]
  blockSizeFactor := 4
  hashBlockSize := 4
  worldSize := 1
  offloadPromptOnly := false
  useEagle := false
  enablePrefixCaching := true

def windowHandler : SingleDirectionOffloadingHandler where
  tensors := [({ dataPtr := 1000, rowStride := 10, rowSize := 10 },
    { dataPtr := 5000, rowStride := 40, rowSize := 40 })]
  blockSizeFactor := 4
  kvCacheGroupsDataRefs := [[{ tensorIdx := 0, pageSizeBytes := 10 }]]
  gpuToCpu := true
  pageSizes := by decide

def windowRequests (computed : ℕ) (r : String) : OffloadRequest :=
  if r = "a" then
    { numTokens := 8
      numPromptTokens := 8
      numComputedTokens := computed
      blockHashes := [[1], [2]] }
  else { numTokens := 1, numPromptTokens := 1, numComputedTokens := 0, blockHashes := [] }

/-- A manager that stores all keys, from the given slot on. -/
def storeAll (slot : ℕ) (_ : String) (keys : List OffloadKey) :
    Option (PrepareStoreOutput OffloadKey) :=
  some { keysToStore := keys, storeSpec := List.range' slot keys.length, evictedKeys := [] }

def windowState : ConnectorScheduler where
  config := {
    kvGroupConfigs := [{
      groupIdx := 0, gpuBlockSize := 1, offloadedBlockSize := 4, hashBlockSizeFactor := 1,
      slidingWindowSizeInBlocks := some 1 }]
    blockSizeFactor := 4
    numWorkers := 1
    offloadPromptOnly := false }
  slidingWindowGroups := [0]
  lookupGroups := [0]
  mambaAlignSize := none
  reqStatus := ⟨[("a", {
    groupStates := [{ offloadKeys := [([1], 0), ([2], 0)], blockIds := [1, 2, 3, 4, 5, 6, 7] }]
    policy := .blockLevel })], by decide⟩
  blocksBeingLoaded := some []

/-- The job of the first blocks of a sliding-window request copies the right ones. -/
theorem window_first_block_copied : ∃ s' jobs job,
    windowState.buildStoreJobs (windowRequests 0) (storeAll 0)
    { numScheduledTokens := [("a", 7)] } =
      .ok (s', jobs) ∧ (0, job) ∈ jobs ∧
    ∃ st n o,
      CreatedFrom windowState (windowRequests 0) (storeAll 0) { numScheduledTokens := [("a", 7)] }
      job st n o ∧
      (windowHandler.transferAsync job = .ok (windowHandler.rightCopies windowState.config st n o) ↔
        StoresHoleFree windowState.config st n o.keysToStore) := by
  refine ⟨_, _, _, rfl, mem_cons_self, ?_⟩
  refine buildStoreJobs_copied_iff_holeFree (j := 0) ?_ (by decide) ?_ ?_ rfl mem_cons_self
  · exact { gpuToCpu := rfl, factor := rfl, pos := by decide, groups := rfl, refs := by decide }
  · intro r st hst
    obtain ⟨rfl, rfl⟩ : r = "a" ∧ st = _ := by
      simpa [windowState] using OrderedDict.get?_eq_some_iff.mp hst
    exact { length := rfl, nodup := by decide }
  intro r keys o ho
  cases ho
  exact { sublist := .refl _, length := length_range', nodup := nodup_range' }

/-- Block 6 of request `a` has left the window and is given to request `b`. The second offloaded
block is stored from `[5, 0, 7, 8]`: blocks 7 and 8 belong into sub-slots 2 and 3 of CPU block 1 and
are written into sub-slots 1 and 2. -/
theorem window_blocks_shifted : ∃ s₀ s₁ s₂ m₁ m₂ st, ConnectorScheduler.init windowSpec = .ok s₀ ∧
    ((s₀.onNewRequest "a" (windowRequests 0 "a") .blockLevel).onNewRequest
      "b" (windowRequests 0 "b")
      .blockLevel).buildConnectorMeta (windowRequests 0) (storeAll 0)
      { scheduledNewReqs := [("a", [[1, 2, 3, 4, 5, 6, 7]])], numScheduledTokens := [("a", 7)] } =
      .ok (s₁, m₁) ∧
    s₁.buildConnectorMeta (windowRequests 7) (storeAll 1)
      { scheduledNewReqs := [("b", [[6]])], scheduledCachedReqs := [("a", some [[8]], false)],
        numScheduledTokens := [("a", 1), ("b", 1)] } = .ok (s₂, m₂) ∧
    s₂.reqStatus.get? "a" = some st ∧ st.groupStates.map (·.blockIds) = [[1, 2, 3, 4, 5, 0, 7, 8]] ∧
    m₂.storeJobs.map (fun e => windowHandler.transferAsync e.2) =
      [.ok [windowHandler.copyOf { tensorIdx := 0, pageSizeBytes := 10 } 5 (1, 0),
        windowHandler.copyOf { tensorIdx := 0, pageSizeBytes := 10 } 7 (1, 1),
        windowHandler.copyOf { tensorIdx := 0, pageSizeBytes := 10 } 8 (1, 2)]] := by
  refine ⟨_, _, _, _, _, _, rfl, rfl, rfl, rfl, ?_, ?_⟩
  · rfl
  · rfl

end ConnectorScheduler

end Vllm.Offload
