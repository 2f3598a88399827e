import Vllm.Offload.ConnectorRuns
import Vllm.Offload.StoreJobs

/-! # Which blocks of a request are offered to the manager -/

namespace Vllm.Offload

open Machine List Option OrderedDict

/-- The indices of the blocks whose keys a group offers. -/
def offeredBlocks (f : ℕ) (g : GroupOffloadConfig) (gs : RequestGroupState) (n : ℕ) : List ℕ :=
  let numBlocks := g.numOfferedBlocks n
  let start := gs.nextStoredBlockIdx
  if numBlocks ≤ start then []
  else
    let keys := slice gs.offloadKeys start numBlocks
    let ids := islice (gs.blockIds.take (numBlocks * f)) (start * f + f - 1) f
    ((keys.zip ids).zipIdx start).filterMap fun ((_, id), absBlockIdx) =>
      if id = 0 ∨ g.unreachable absBlockIdx then none else some absBlockIdx

section offered

variable {f n : ℕ} {g : GroupOffloadConfig} {gs : RequestGroupState} {keys : List OffloadKey}

lemma mem_of_mem_islice {α : Type*} {xs : List α} {start step : ℕ} {x : α}
    (h : x ∈ islice xs start step) : x ∈ xs := by
  obtain ⟨i, -, hi⟩ := mem_filterMap.mp h
  exact mem_of_getElem? hi

lemma forall₂_filterMap {α β γ : Type*} {p : α → Prop} [DecidablePred p] {a : α → β} {b : α → γ}
    {R : β → γ → Prop} {l : List α} (h : ∀ x ∈ l, R (a x) (b x)) :
    Forall₂ R (l.filterMap fun x => if p x then none else some (a x))
      (l.filterMap fun x => if p x then none else some (b x)) := by
  induction l with
  | nil => exact .nil
  | cons x l ih =>
    rw [forall_mem_cons] at h
    by_cases hp : p x <;> simp [hp, h.1, ih h.2]

/-- The offered keys are those of the offered blocks, in their order. -/
lemma forall₂_offeredBlocks (hoff : offeredKeys f g gs n = .ok keys) :
    Forall₂ (fun j key => gs.offloadKeys[j]? = some key) (offeredBlocks f g gs n) keys := by
  unfold offeredKeys at hoff
  unfold offeredBlocks
  dsimp only at hoff ⊢
  split_ifs at hoff ⊢
  · cases hoff
    exact .nil
  obtain ⟨-, -, hoff⟩ := of_bind hoff
  obtain ⟨-, -, ⟨⟩⟩ := of_bind hoff
  refine forall₂_filterMap (a := fun x : (OffloadKey × ℕ) × ℕ => x.2) (b := fun x => x.1.1) ?_
  rintro ⟨⟨key, id⟩, j⟩ hmem
  obtain ⟨hle, hat⟩ := mk_mem_zipIdx_iff_le_and_getElem?_sub.mp hmem
  have hkey := (getElem?_zip_eq_some.mp hat).1
  rw [slice_getElem?, Nat.add_sub_cancel' hle] at hkey
  split at hkey
  · exact hkey
  · cases hkey

lemma offeredBlocks_full (hoff : offeredKeys f g gs n = .ok keys)
    (heagle : g.isEagleGroup = false) (halign : g.alignmentBlockCount = none)
    (hkeys : n / g.offloadedBlockSize ≤ gs.offloadKeys.length) (hids : ∀ b ∈ gs.blockIds, b ≠ 0) :
    offeredBlocks f g gs n =
    range' gs.nextStoredBlockIdx (n / g.offloadedBlockSize - gs.nextStoredBlockIdx) := by
  have hnum : g.numOfferedBlocks n = n / g.offloadedBlockSize := by
    simp [GroupOffloadConfig.numOfferedBlocks, heagle]
  unfold offeredKeys at hoff
  unfold offeredBlocks
  dsimp only at hoff ⊢
  rw [hnum] at hoff ⊢
  split
  next hle => rw [Nat.sub_eq_zero_of_le hle, range'_zero]
  rename_i hlt
  rw [if_neg hlt] at hoff
  obtain ⟨_, hlen, -⟩ := of_bind hoff
  have hlen := of_pyAssert hlen
  -- no block is left out
  rw [filterMap_congr (g := some ∘ Prod.snd), filterMap_eq_map, zipIdx_map_snd,
    length_zip, ← hlen, length_slice, min_eq_left hkeys, min_self]
  rintro ⟨⟨key, id⟩, j⟩ hmem
  obtain ⟨-, hat⟩ := mk_mem_zipIdx_iff_le_and_getElem?_sub.mp hmem
  have hid := mem_of_mem_islice (of_mem_zip (mem_of_getElem? hat)).2
  have hne := hids id (mem_of_mem_take hid)
  have hreach : g.unreachable j = false := by rw [GroupOffloadConfig.unreachable, halign]
  simp [hne, hreach]

end offered

/-! ## What the calls leave -/

/-- No key is lost; with full attention the next block does not move up and no empty entry
appears. -/
structure GroupKept (g : GroupOffloadConfig) (gs gs' : RequestGroupState) : Prop where
  keys : gs.offloadKeys.length ≤ gs'.offloadKeys.length
  next : g.slidingWindowSizeInBlocks = none → gs'.nextStoredBlockIdx ≤ gs.nextStoredBlockIdx
  blocks : g.slidingWindowSizeInBlocks = none → (∀ b ∈ gs.blockIds, b ≠ 0) →
    ∀ b ∈ gs'.blockIds, b ≠ 0

lemma GroupKept.refl (g : GroupOffloadConfig) (gs : RequestGroupState) : GroupKept g gs gs :=
  ⟨le_rfl, fun _ => le_rfl, fun _ => id⟩

def StatusKept (cfg : SchedulerOffloadConfig) (st st' : RequestOffloadState) : Prop :=
  ∀ (k : ℕ) (g : GroupOffloadConfig) (gs' : RequestGroupState), cfg.kvGroupConfigs[k]? = some g →
    st'.groupStates[k]? = some gs' → ∃ gs, st.groupStates[k]? = some gs ∧ GroupKept g gs gs'

section kept

variable {cfg : SchedulerOffloadConfig} {st st' st'' : RequestOffloadState}

lemma StatusKept.of_eq (h : st'.groupStates = st.groupStates) : StatusKept cfg st st' :=
  fun _ g gs' _ hgs => ⟨gs', h ▸ hgs, .refl g gs'⟩

lemma StatusKept.trans (h : StatusKept cfg st st') (h' : StatusKept cfg st' st'') :
    StatusKept cfg st st'' := by
  intro k g gs'' hg hgs''
  obtain ⟨gs', hgs', hkept'⟩ := h' k g gs'' hg hgs''
  obtain ⟨gs, hgs, hkept⟩ := h k g gs' hg hgs'
  exact ⟨gs, hgs, {
    keys := hkept.keys.trans hkept'.keys
    next := fun hfull => (hkept'.next hfull).trans (hkept.next hfull)
    blocks := fun hfull h => hkept'.blocks hfull (hkept.blocks hfull h) }⟩

lemma StatusKept.mapGroups {f : GroupOffloadConfig → RequestGroupState → RequestGroupState}
    (hf : ∀ g gs, GroupKept g gs (f g gs)) : StatusKept cfg st (st.mapGroups cfg f) := by
  intro k g gs' hg hgs'
  obtain ⟨g1, gs, hg1, hgs, rfl⟩ := getElem?_zipWith_eq_some.mp hgs'
  obtain rfl : g1 = g := some.inj (hg1.symm.trans hg)
  exact ⟨gs, hgs, hf g1 gs⟩

lemma StatusKept.updateOffloadKeys (hashes : List Bytes) :
    StatusKept cfg st (st.updateOffloadKeys cfg hashes) :=
  .mapGroups fun g gs => {
    keys := by
      show _ ≤ (gs.offloadKeys ++ _).length
      rw [length_append]
      exact Nat.le_add_right _ _
    next := fun _ => le_rfl
    blocks := fun _ => id }

lemma StatusKept.updateNumHitBlocks (n : ℕ) : StatusKept cfg st (st.updateNumHitBlocks cfg n) :=
  .mapGroups fun _ _ => ⟨le_rfl, fun _ => le_rfl, fun _ => id⟩

lemma StatusKept.clearBlockIds : StatusKept cfg st st.clearBlockIds := by
  intro k g gs' _ hgs'
  obtain ⟨gs, hgs, rfl⟩ := getElem?_map.symm.trans hgs' |> map_eq_some_iff.mp
  exact ⟨gs, hgs, le_rfl, fun _ => le_rfl, fun _ _ b hb => absurd hb not_mem_nil⟩

def KeysCover (cfg : SchedulerOffloadConfig) (hashes : List Bytes) (st : RequestOffloadState) :
    Prop :=
  ∀ (k : ℕ) (g : GroupOffloadConfig) (gs : RequestGroupState), cfg.kvGroupConfigs[k]? = some g →
    st.groupStates[k]? = some gs → hashes.length / g.hashBlockSizeFactor ≤ gs.offloadKeys.length

lemma KeysCover.kept {hashes : List Bytes} (h : KeysCover cfg hashes st)
    (hkept : StatusKept cfg st st') :
    KeysCover cfg hashes st' := by
  intro k g gs' hg hgs'
  obtain ⟨gs, hgs, hgroup⟩ := hkept k g gs' hg hgs'
  exact (h k g gs hg hgs).trans hgroup.keys

lemma keysCover_updateOffloadKeys (hashes : List Bytes) :
    KeysCover cfg hashes (st.updateOffloadKeys cfg hashes) := by
  intro k g gs' hg hgs'
  obtain ⟨g1, gs, hg1, hgs, rfl⟩ := getElem?_zipWith_eq_some.mp hgs'
  obtain rfl : g1 = g := some.inj (hg1.symm.trans hg)
  show hashes.length / g1.hashBlockSizeFactor ≤ (gs.offloadKeys ++ map _ _).length
  rw [length_append, length_map]
  generalize g1.hashBlockSizeFactor = f
  rcases eq_zero_or_pos f with rfl | hf
  · simp
  by_contra hlt
  -- one more hash would have been taken
  have hnone : (islice hashes (f * gs.offloadKeys.length + f - 1) f)[(islice hashes
      (f * gs.offloadKeys.length + f - 1) f).length]? = none := getElem?_eq_none le_rfl
  generalize (islice hashes (f * gs.offloadKeys.length + f - 1) f).length = m at hlt hnone
  rw [islice_getElem? _ _ hf, List.getElem?_eq_none_iff] at hnone
  have hle : f * (gs.offloadKeys.length + m + 1) ≤ hashes.length :=
    (Nat.mul_le_mul_left f (by omega)).trans (Nat.mul_div_le _ _)
  rw [mul_add, mul_add] at hle
  omega

end kept

namespace ConnectorScheduler

variable {s s' s'' : ConnectorScheduler} {r : String} {st st' : RequestOffloadState}
  {reqs : String → OffloadRequest}

/-- The call did not move the store positions of a request. -/
structure Kept (s s' : ConnectorScheduler) : Prop where
  config : s'.config = s.config
  sliding : s'.slidingWindowGroups = s.slidingWindowGroups
  status : ∀ r st', s'.reqStatus.get? r = some st' →
    ∃ st, s.reqStatus.get? r = some st ∧ StatusKept s.config st st'

variable (hc : s'.config = s.config)

include hc in
lemma Kept.of_eq (hw : s'.slidingWindowGroups = s.slidingWindowGroups)
    (hr : s'.reqStatus = s.reqStatus) : Kept s s' :=
  ⟨hc, hw, fun _ st' hst => ⟨st', hr ▸ hst, .of_eq rfl⟩⟩

lemma Kept.trans (h : Kept s s') (h' : Kept s' s'') : Kept s s'' where
  config := h'.config.trans h.config
  sliding := h'.sliding.trans h.sliding
  status r st'' hst'' := by
    obtain ⟨st', hst', hkept'⟩ := h'.status r st'' hst''
    obtain ⟨st, hst, hkept⟩ := h.status r st' hst'
    exact ⟨st, hst, hkept.trans (h.config ▸ hkept')⟩

include hc

lemma Kept.of_set (hw : s'.slidingWindowGroups = s.slidingWindowGroups)
    (hst : s.reqStatus.get? r = some st) (hkept : StatusKept s.config st st')
    (hr : s'.reqStatus = s.reqStatus.set r st') : Kept s s' := by
  refine ⟨hc, hw, fun r' st1 hst1 => ?_⟩
  rw [hr, get?_set] at hst1
  split at hst1
  next heq =>
    cases hst1
    exact ⟨st, heq ▸ hst, hkept⟩
  next => exact ⟨st1, hst1, .of_eq rfl⟩

lemma Kept.of_erase (hw : s'.slidingWindowGroups = s.slidingWindowGroups)
    (hr : s'.reqStatus = s.reqStatus.erase r) : Kept s s' := by
  refine ⟨hc, hw, fun r' st1 hst1 => ?_⟩
  rw [hr, get?_erase] at hst1
  split at hst1
  · cases hst1
  · exact ⟨st1, hst1, .of_eq rfl⟩

omit hc

lemma getReqStatus_eq_ok : s.getReqStatus r = .ok st ↔ s.reqStatus.get? r = some st := by
  unfold getReqStatus
  split
  next st1 h => rw [h, Except.ok.injEq, some.injEq]
  next h => rw [h]; simp

lemma kept_getNumNewMatchedTokens {lookup : OffloadKey → Option Bool} {req : OffloadRequest} {n : ℕ}
    {answer : Option ℕ × Bool} (hrun : s.getNumNewMatchedTokens lookup r req n = .ok (answer, s')) :
    Kept s s' := by
  obtain ⟨st, hst, hrun⟩ := of_bind hrun
  have hst := getReqStatus_eq_ok.mp hst
  dsimp only at hrun
  split at hrun
  · cases hrun
    exact .of_set rfl rfl hst .clearBlockIds rfl
  obtain ⟨hits, -, ⟨⟩⟩ := of_bind hrun
  refine .of_set rfl rfl hst ?_ rfl
  refine StatusKept.trans ?_ (.updateNumHitBlocks _)
  exact (StatusKept.clearBlockIds.trans (.updateOffloadKeys req.blockHashes)).trans (.of_eq rfl)

lemma kept_completeJob {completed : ℕ × ℤ} (hrun : s.completeJob reqs completed = .ok s') :
    Kept s s' := by
  obtain ⟨-, -, hrun⟩ := of_bind hrun
  split at hrun
  · cases hrun
    exact .of_eq rfl rfl rfl
  obtain ⟨job, -, hrun⟩ := of_bind hrun
  dsimp only at hrun
  split at hrun
  · cases hrun
    exact .of_eq rfl rfl rfl
  obtain ⟨-, -, hrun⟩ := of_bind hrun
  obtain ⟨st, hst, hrun⟩ := of_bind hrun
  have hst := getReqStatus_eq_ok.mp hst
  obtain ⟨pending, -, hrun⟩ := of_bind hrun
  split at hrun
  · dsimp only at hrun
    split at hrun
    · cases hrun
      exact .of_erase rfl rfl rfl
    cases hrun
    refine .of_set rfl rfl hst ?_ rfl
    exact .of_eq rfl
  · cases hrun

lemma kept_updateConnectorOutput {completedJobs : List (ℕ × ℤ)}
    (hrun : s.updateConnectorOutput reqs completedJobs = .ok s') : Kept s s' :=
  foldlM_invariant (P := fun _ s1 => Kept s s1) (fun _ _ _ _ h hstep =>
    h.trans (kept_completeJob hstep)) hrun
    (.of_eq rfl rfl rfl)

lemma kept_requestFinished (hrun : s.requestFinished r = .ok s') : Kept s s' := by
  unfold requestFinished at hrun
  split at hrun
  · cases hrun
    exact .of_eq rfl rfl rfl
  split at hrun
  · cases hrun
    exact .of_erase rfl rfl rfl
  refine foldlM_invariant (P := fun _ s1 => Kept s s1) (fun s1 j _ s2 h hstep =>
    ?_) hrun (.of_eq rfl rfl rfl)
  obtain ⟨job, -, ⟨⟩⟩ := of_bind hstep
  exact h.trans (.of_eq rfl rfl rfl)

lemma kept_resetCache (hrun : s.resetCache reqs = .ok s') : Kept s s' := by
  unfold resetCache at hrun
  obtain ⟨-, -, hrun⟩ := of_bind hrun
  obtain ⟨-, -, hrun⟩ := of_bind hrun
  obtain ⟨-, -, ⟨⟩⟩ := of_bind hrun
  refine ⟨rfl, rfl, fun r st' hst' => ?_⟩
  rw [get?_mapValues, map_eq_some_iff] at hst'
  obtain ⟨st, hst, rfl⟩ := hst'
  refine ⟨st, ?_, fun k g gs' _ hgs' => ?_⟩
  · generalize s.reqStatus.keys.filter (fun r => (reqs r).isFinished) = gone at hst
    generalize s.reqStatus = d at hst ⊢
    induction gone generalizing d with
    | nil => exact hst
    | cons r1 gone ih =>
      have := ih (d.erase r1) hst
      rw [get?_erase] at this
      split at this
      · cases this
      · exact this
  · obtain ⟨gs, hgs, rfl⟩ := getElem?_map.symm.trans hgs' |> map_eq_some_iff.mp
    exact ⟨gs, hgs, le_rfl, fun _ => Nat.zero_le _, fun _ => id⟩

/-- `update_state_after_alloc` moves the next block of a group to the end of what was hit. -/
lemma updateStateAfterAlloc_status {blocks : List (List AllocatedBlock)} {n : ℕ}
    {prepareLoad : List OffloadKey → Py (List ℕ)}
    (hrun : s.updateStateAfterAlloc r blocks n prepareLoad = .ok s') :
    s'.config = s.config ∧ s'.slidingWindowGroups = s.slidingWindowGroups ∧
    (∀ r', r' ≠ r → s'.reqStatus.get? r' = s.reqStatus.get? r') ∧
    ∀ st', s'.reqStatus.get? r = some st' → ∃ st, s.reqStatus.get? r = some st ∧
      ∀ (k : ℕ) (gs' : RequestGroupState), st'.groupStates[k]? = some gs' →
        ∃ gs : RequestGroupState, st.groupStates[k]? = some gs ∧ gs'.blockIds = gs.blockIds ∧
          (gs'.nextStoredBlockIdx = gs.nextStoredBlockIdx ∨
            (n ≠ 0 ∧ st.policy ≠ .requestLevel ∧
              ∃ (g : GroupOffloadConfig) (given : List AllocatedBlock),
              s.config.kvGroupConfigs[k]? = some g ∧ blocks[k]? = some given ∧
              gs'.nextStoredBlockIdx =
              ceilDiv (st.numLocallyComputedTokens + n) g.offloadedBlockSize)) := by
  unfold updateStateAfterAlloc at hrun
  split at hrun
  · cases hrun
    exact ⟨rfl, rfl, fun _ _ => rfl,
      fun st' hst' => ⟨st', hst', fun k gs' hgs' => ⟨gs', hgs', rfl, .inl rfl⟩⟩⟩
  next hn =>
  obtain ⟨st, hst, hrun⟩ := of_bind hrun
  have hst := getReqStatus_eq_ok.mp hst
  obtain ⟨loads, hloads, hrun⟩ := of_bind hrun
  obtain ⟨src, -, hrun⟩ := of_bind hrun
  obtain ⟨dst, -, hrun⟩ := of_bind hrun
  obtain ⟨-, -, ⟨⟩⟩ := of_bind hrun
  refine ⟨rfl, rfl, fun r' hne => ?_, fun st' hst' => ⟨st, hst, ?_⟩⟩
  · show (s.reqStatus.set r _).get? r' = _
    rw [get?_set, if_neg hne]
  have hst' : (s.reqStatus.set r _).get? r = some st' := hst'
  rw [get?_set, if_pos rfl] at hst'
  cases hst'
  intro k gs' hgs'
  split at hgs'
  case h_2 => exact ⟨gs', hgs', rfl, .inl rfl⟩
  next hpol =>
  dsimp only at hgs'
  rw [getElem?_append] at hgs'
  split at hgs'
  next hk =>
    obtain ⟨gs, load, hgs, hload, rfl⟩ := getElem?_zipWith_eq_some.mp hgs'
    refine ⟨gs, hgs, rfl, .inr ⟨hn, by rw [hpol]; exact nofun, ?_⟩⟩
    obtain ⟨⟨⟨g, gs1⟩, given⟩, hat, hrnd⟩ := getElem?_of_mapM hloads hload
    obtain ⟨hzip, hgiven⟩ := getElem?_zip_eq_some.mp hat
    refine ⟨g, given, (getElem?_zip_eq_some.mp hzip).1, hgiven, ?_⟩
    unfold loadGroup at hrnd
    obtain ⟨-, -, hrnd⟩ := of_bind hrnd
    obtain ⟨-, -, hrnd⟩ := of_bind hrnd
    obtain ⟨-, -, hrnd⟩ := of_bind hrnd
    obtain ⟨-, -, ⟨⟩⟩ := of_bind hrnd
    rfl
  rename_i hk
  rw [getElem?_drop, length_zipWith] at hgs'
  rw [length_zipWith] at hk
  have hlen : loads.length ≤ st.groupStates.length := by
    have := (mapM_eq_ok hloads).length_eq
    rw [length_zip, length_zip] at this
    omega
  rw [min_eq_right hlen] at hk hgs'
  rw [Nat.add_sub_cancel' (Nat.le_of_not_lt hk)] at hgs'
  exact ⟨gs', hgs', rfl, .inl rfl⟩

/-! ### The end of a step -/

lemma flushPreempted_frame {rs : List String} (hrun : rs.foldlM flushPreempted s = .ok s') :
    s'.config = s.config ∧ s'.slidingWindowGroups = s.slidingWindowGroups ∧
    s'.reqStatus = s.reqStatus := by
  refine foldlM_invariant (P := fun _ s1 => s1.config = s.config ∧
    s1.slidingWindowGroups = s.slidingWindowGroups ∧
    s1.reqStatus = s.reqStatus) (fun s1 r1 _ s2 h hstep => ?_) hrun ⟨rfl, rfl, rfl⟩
  unfold flushPreempted at hstep
  split at hstep
  · cases hstep
    exact h
  · obtain ⟨-, -, ⟨⟩⟩ := of_bind hstep
    exact h

def RealBlocks (cfg : SchedulerOffloadConfig) (groups : List (List ℕ)) : Prop :=
  ∀ (k : ℕ) (g : GroupOffloadConfig) (new : List ℕ), cfg.kvGroupConfigs[k]? = some g →
    g.slidingWindowSizeInBlocks = none → groups[k]? = some new → ∀ b ∈ new, b ≠ 0

def SlidingListed (s : ConnectorScheduler) : Prop :=
  ∀ k ∈ s.slidingWindowGroups, ∀ g, s.config.kvGroupConfigs[k]? = some g →
    g.slidingWindowSizeInBlocks ≠ none

lemma kept_updateBlockIdGroups {cfg : SchedulerOffloadConfig} {groups : List (List ℕ)}
    (hnew : RealBlocks cfg groups) (hrun : st.updateBlockIdGroups groups = .ok st') :
    StatusKept cfg st st' := by
  obtain ⟨-, -, ⟨⟩⟩ := of_bind hrun
  intro k g gs' hg hgs'
  obtain ⟨gs, new, hgs, hnew', rfl⟩ := getElem?_zipWith_eq_some.mp hgs'
  refine ⟨gs, hgs, le_rfl, fun _ => le_rfl, fun hfull hold b hb => ?_⟩
  rcases mem_append.mp hb with hb | hb
  · exact hold b hb
  · exact hnew k g new hg hfull hnew' b hb

lemma kept_updateReqData {ends ends' : OrderedDict String (List ℕ)}
    {data : String × Option (List (List ℕ)) × Bool}
    (hnew : ∀ groups, data.2.1 = some groups → RealBlocks s.config groups)
    (hrun : updateReqData reqs (s, ends) data = .ok (s', ends')) :
    Kept s s' ∧ ∀ st, s'.reqStatus.get? data.1 = some st →
    KeysCover s.config (reqs data.1).blockHashes st := by
  obtain ⟨r, newGroups, preempted⟩ := data
  unfold updateReqData at hrun
  obtain ⟨st, hst, hrun⟩ := of_bind hrun
  have hst := getReqStatus_eq_ok.mp hst
  dsimp only at hrun
  generalize hst0 : st.updateOffloadKeys s.config (reqs r).blockHashes = st0 at hrun
  have hcleared : StatusKept s.config st0 (if preempted then st0.clearBlockIds else st0) := by
    split
    · exact .clearBlockIds
    · exact .of_eq rfl
  generalize (if preempted then st0.clearBlockIds else st0) = st1 at hrun hcleared
  subst hst0
  -- in both cases the state is set to one that keeps the state with the new keys
  suffices h : ∃ st2, s'.config = s.config ∧ s'.slidingWindowGroups = s.slidingWindowGroups ∧
      StatusKept s.config st1 st2 ∧ s'.reqStatus = s.reqStatus.set r st2 by
    obtain ⟨st2, hc, hw, hkept, hset⟩ := h
    refine ⟨.of_set hc hw hst ((StatusKept.updateOffloadKeys _).trans (hcleared.trans hkept)) hset,
      ?_⟩
    intro st3 hst3
    rw [hset, get?_set, if_pos rfl] at hst3
    cases hst3
    exact (keysCover_updateOffloadKeys _).kept (hcleared.trans hkept)
  split at hrun
  next new rest =>
    obtain ⟨lengths, -, hrun⟩ := of_bind hrun
    obtain ⟨st2, hst2, ⟨⟩⟩ := of_bind hrun
    exact ⟨st2, rfl, rfl, kept_updateBlockIdGroups (hnew _ rfl) hst2, rfl⟩
  next =>
    cases hrun
    exact ⟨st1, rfl, rfl, .of_eq rfl, rfl⟩

lemma kept_zeroSlidingGroups (hs : s.SlidingListed) (ends : Option (List ℕ)) :
    StatusKept s.config st (s.zeroSlidingGroups ends st) := by
  intro k g gs' hg hgs'
  rw [zeroSlidingGroups, getElem?_mapIdx, map_eq_some_iff] at hgs'
  obtain ⟨gs, hgs, rfl⟩ := hgs'
  refine ⟨gs, hgs, ?_⟩
  split
  · exact .refl g gs
  rename_i i hi
  have hmem : k ∈ s.slidingWindowGroups := by
    by_contra hnot
    rw [idxOf?_eq_none_iff.mpr hnot] at hi
    cases hi
  exact ⟨le_rfl, fun _ => le_rfl, fun hfull => absurd hfull (hs k hmem g hg)⟩

lemma kept_updateReqStates {out : SchedulerOutput} (hs : s.SlidingListed)
    (hnew : ∀ x ∈ out.yieldReqData, ∀ groups, x.2.1 = some groups → RealBlocks s.config groups)
    (hrun : s.updateReqStates reqs out = .ok s') :
    Kept s s' ∧ ∀ x ∈ out.yieldReqData, ∀ st, s'.reqStatus.get? x.1 = some st →
      KeysCover s.config (reqs x.1).blockHashes st := by
  unfold updateReqStates at hrun
  obtain ⟨⟨s1, ends⟩, hloop, hrun⟩ := of_bind hrun
  have hinv :=
    foldlM_invariant (P := fun rest (acc : ConnectorScheduler × OrderedDict String (List ℕ)) =>
    Kept s acc.1 ∧ (∀ x ∈ rest, x ∈ out.yieldReqData) ∧
    ∀ x ∈ out.yieldReqData, x ∈ rest ∨ ∀ st, acc.1.reqStatus.get? x.1 = some st →
      KeysCover s.config (reqs x.1).blockHashes st) ?_ hloop
    ⟨.of_eq rfl rfl rfl, fun _ hx => hx, fun _ hx => .inl hx⟩
  · obtain ⟨hkept, -, hcover⟩ := hinv
    have hcover : ∀ x ∈ out.yieldReqData, ∀ st, s1.reqStatus.get? x.1 = some st →
        KeysCover s.config (reqs x.1).blockHashes st := fun x hx =>
      (hcover x hx).resolve_left not_mem_nil
    dsimp only at hrun
    split at hrun
    · cases hrun
      have hlisted : s1.SlidingListed := by
        intro k hk g hg
        exact hs k (hkept.sliding ▸ hk) g (hkept.config ▸ hg)
      have hzero : Kept s1 { s1 with
          reqStatus :=
            s1.reqStatus.mapValues fun reqId st => s1.zeroSlidingGroups (ends.get? reqId) st } := by
        refine ⟨rfl, rfl, fun r st' hst' => ?_⟩
        rw [get?_mapValues, map_eq_some_iff] at hst'
        obtain ⟨st, hst, rfl⟩ := hst'
        exact ⟨st, hst, kept_zeroSlidingGroups hlisted _⟩
      refine ⟨hkept.trans hzero, fun x hx st' hst' => ?_⟩
      obtain ⟨st, hst, hk⟩ := hzero.status x.1 st' hst'
      exact (hcover x hx st hst).kept (hkept.config ▸ hk)
    · cases hrun
      exact ⟨hkept, hcover⟩
  rintro ⟨s2, ends2⟩ x rest ⟨s3, ends3⟩ ⟨hkept, hsub, hcover⟩ hrnd
  rw [forall_mem_cons] at hsub
  obtain ⟨hkept', hx⟩ :=
    kept_updateReqData (fun groups hg => hkept.config ▸ hnew x hsub.1 groups hg) hrnd
  refine ⟨hkept.trans hkept', hsub.2, fun y hy => ?_⟩
  rcases hcover y hy with hmem | hdone
  · rcases mem_cons.mp hmem with rfl | hmem
    · exact .inr fun st hst => hkept.config ▸ hx st hst
    · exact .inl hmem
  refine .inr fun st' hst' => ?_
  obtain ⟨st, hst, hk⟩ := hkept'.status y.1 st' hst'
  exact (hdone st hst).kept (hkept.config ▸ hk)

section store

variable {prepareStore : String → List OffloadKey → Option (PrepareStoreOutput OffloadKey)} {n : ℕ}
  (s)

def Offers (st : RequestOffloadState) (numTokens : ℕ) : Prop :=
  ∃ offered, (groupsOf s.config st).mapM
    (fun (g, gs) => offeredKeys s.config.blockSizeFactor g gs numTokens) = .ok offered

def MovedTo (st st' : RequestOffloadState) (numTokens : ℕ) : Prop :=
  st'.groupStates = st.groupStates ∨
    st'.groupStates = (st.advanceStoredIdx s.config numTokens).groupStates

variable {s}

lemma buildStoreJob_status {created : Option (ℕ × TransferJob)}
    (hrun : s.buildStoreJob reqs prepareStore r n = .ok (s', created)) :
    s'.slidingWindowGroups = s.slidingWindowGroups ∧
    (∀ st, s.reqStatus.get? r = some st →
      s.Offers st (numOffloadableTokens s.config st (reqs r) n)) ∧
    ∀ st', s'.reqStatus.get? r = some st' → ∃ st, s.reqStatus.get? r = some st ∧
      s.MovedTo st st' (numOffloadableTokens s.config st (reqs r) n) := by
  have hsame : ∀ st', s.reqStatus.get? r = some st' → ∃ st, s.reqStatus.get? r = some st ∧
      s.MovedTo st st' (numOffloadableTokens s.config st (reqs r) n) :=
    fun st' hst' => ⟨st', hst', .inl rfl⟩
  unfold buildStoreJob at hrun
  split at hrun
  next hnone =>
    cases hrun
    refine ⟨rfl, fun st hst => ?_, hsame⟩
    cases hnone.symm.trans hst
  rename_i st hst
  obtain ⟨offered, hoff, hrun⟩ := of_bind hrun
  have hoffers : ∀ st1, s.reqStatus.get? r = some st1 →
      s.Offers st1 (numOffloadableTokens s.config st1 (reqs r) n) := by
    intro st1 hst1
    cases hst.symm.trans hst1
    exact ⟨offered, hoff⟩
  have hset : ∀ (s1 : ConnectorScheduler) (st1 : RequestOffloadState),
    s1.reqStatus = s.reqStatus.set r st1 →
      st1.groupStates =
        (st.advanceStoredIdx s.config (numOffloadableTokens s.config st (reqs r) n)).groupStates →
      ∀ st', s1.reqStatus.get? r = some st' → ∃ st, s.reqStatus.get? r = some st ∧
        s.MovedTo st st' (numOffloadableTokens s.config st (reqs r) n) := by
    intro s1 st1 hs1 hgroups st' hst'
    rw [hs1, get?_set, if_pos rfl] at hst'
    cases hst'
    exact ⟨st, hst, .inr hgroups⟩
  split at hrun
  · cases hrun
    exact ⟨rfl, hoffers, hset _ _ rfl rfl⟩
  split at hrun
  · cases hrun
    exact ⟨rfl, hoffers, hsame⟩
  split at hrun
  · cases hrun
    exact ⟨rfl, hoffers, hset _ _ rfl rfl⟩
  obtain ⟨⟨s1, jobId, job⟩, hcreate, ⟨⟩⟩ := of_bind hrun
  unfold createStoreJob at hcreate
  obtain ⟨sources, -, hcreate⟩ := of_bind hcreate
  obtain ⟨spec, -, hcreate⟩ := of_bind hcreate
  obtain ⟨-, -, hcreate⟩ := of_bind hcreate
  obtain rfl := (Prod.mk.inj (Except.ok.inj hcreate)).1
  exact ⟨rfl, hoffers, hset _ _ rfl rfl⟩

lemma buildStoreJobs_status {out : SchedulerOutput} {jobs : List (ℕ × TransferJob)}
    (hids : (out.numScheduledTokens.map Prod.fst).Nodup)
    (hrun : s.buildStoreJobs reqs prepareStore out = .ok (s', jobs)) :
    s'.config = s.config ∧ s'.slidingWindowGroups = s.slidingWindowGroups ∧
    (∀ x ∈ out.numScheduledTokens, ∀ st, s.reqStatus.get? x.1 = some st →
      s.Offers st (numOffloadableTokens s.config st (reqs x.1) x.2)) ∧
    ∀ r st', s'.reqStatus.get? r = some st' → ∃ st, s.reqStatus.get? r = some st ∧
      (st'.groupStates = st.groupStates ∨ ∃ n, (r, n) ∈ out.numScheduledTokens ∧
        s.MovedTo st st' (numOffloadableTokens s.config st (reqs r) n)) := by
  have hinv :=
    foldlM_invariant (P := fun rest (acc : ConnectorScheduler × List (ℕ × TransferJob)) =>
    (rest.map Prod.fst).Nodup ∧ (∀ x ∈ rest, x ∈ out.numScheduledTokens) ∧ acc.1.config = s.config ∧
    acc.1.slidingWindowGroups = s.slidingWindowGroups ∧
    (∀ x ∈ rest, acc.1.reqStatus.get? x.1 = s.reqStatus.get? x.1) ∧
    (∀ x ∈ out.numScheduledTokens, x ∈ rest ∨ ∀ st, s.reqStatus.get? x.1 = some st →
      s.Offers st (numOffloadableTokens s.config st (reqs x.1) x.2)) ∧
    ∀ r st', acc.1.reqStatus.get? r = some st' → ∃ st, s.reqStatus.get? r = some st ∧
      (st'.groupStates = st.groupStates ∨ ∃ n, (r, n) ∈ out.numScheduledTokens ∧
        s.MovedTo st st' (numOffloadableTokens s.config st (reqs r) n))) ?_ hrun
    ⟨hids, fun _ hx => hx, rfl, rfl, fun _ _ => rfl, fun _ hx => .inl hx,
      fun _ st' hst' => ⟨st', hst', .inl rfl⟩⟩
  · obtain ⟨-, -, hc, hw, -, hoffers, hstat⟩ := hinv
    exact ⟨hc, hw, fun x hx => (hoffers x hx).resolve_left not_mem_nil, hstat⟩
  rintro ⟨s1, made⟩ ⟨r, n⟩ rest ⟨s2, made'⟩ ⟨hnd, hsub, hc, hw, hrest, hoffers, hstat⟩ hrnd
  obtain ⟨⟨s3, created⟩, hbuild, ⟨⟩⟩ := of_bind hrnd
  rw [map_cons, nodup_cons] at hnd
  rw [forall_mem_cons] at hsub hrest
  obtain ⟨hc', hframe⟩ := buildStoreJob_frame hbuild
  obtain ⟨hw', hoffer, hstate⟩ := buildStoreJob_status hbuild
  dsimp only at hrest hc hw
  rw [hrest.1, hc] at hoffer hstate
  refine ⟨hnd.2, hsub.2, hc'.trans hc, hw'.trans hw, fun x hx => ?_, fun x hx => ?_,
    fun r' st' hst' => ?_⟩
  · rw [hframe x.1 fun heq => hnd.1 (mem_map.mpr ⟨x, hx, heq⟩)]
    exact hrest.2 x hx
  · rcases hoffers x hx with hmem | hdone
    · rcases mem_cons.mp hmem with rfl | hmem
      · refine .inr fun st hst => ?_
        have := hoffer st hst
        rw [Offers, hc] at this
        exact this
      · exact .inl hmem
    · exact .inr hdone
  rcases eq_or_ne r' r with rfl | heq
  · obtain ⟨st, hst, hmv⟩ := hstate st' hst'
    rw [MovedTo, hc] at hmv
    exact ⟨st, hst, .inr ⟨n, hsub.1, hmv⟩⟩
  dsimp only at hst'
  rw [hframe r' heq] at hst'
  exact hstat r' st' hst'

end store

end ConnectorScheduler

end Vllm.Offload
