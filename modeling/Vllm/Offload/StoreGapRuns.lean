import Vllm.Offload.StoreGaps

/-! # Offered blocks over whole runs -/

namespace Vllm.Offload

open Machine List Option ConnectorScheduler

variable {g : GroupOffloadConfig} {spec : OffloadingSpec}

lemma SchedulerOffloadConfig.fromSpec_group {config : SchedulerOffloadConfig}
    (h : SchedulerOffloadConfig.fromSpec spec = .ok config) {k : ℕ}
    (hg : config.kvGroupConfigs[k]? = some g) :
    g.groupIdx = k ∧ (g.slidingWindowSizeInBlocks = none → g.alignmentBlockCount = none) ∧
    ∃ g0 ∈ spec.groups, g.offloadedBlockSize = g0.gpuBlockSize * spec.blockSizeFactor ∧
      g.hashBlockSizeFactor = g.offloadedBlockSize / spec.hashBlockSize := by
  obtain ⟨windows, -, ⟨⟩⟩ := of_bind h
  rw [getElem?_map, map_eq_some_iff] at hg
  obtain ⟨⟨⟨g0, window⟩, idx⟩, hat, rfl⟩ := hg
  rw [getElem?_zipIdx, map_eq_some_iff] at hat
  obtain ⟨e, hzip, heq⟩ := hat
  cases heq
  refine ⟨zero_add k, fun hfull => ?_, g0, ?_, rfl, rfl⟩
  · subst hfull
    simp [alignmentBlockCount]
  · exact mem_of_getElem? (getElem?_zip_eq_some.mp hzip).1

def groupBlocks (r : String) (blocks : List (List ℕ)) : List (String × ℕ × ℕ) :=
  blocks.zipIdx.flatMap fun (js, k) => js.map (r, k, ·)

lemma mem_groupBlocks {r r' : String} {blocks : List (List ℕ)} {k j : ℕ} :
    (r', k, j) ∈ groupBlocks r blocks ↔ r' = r ∧ ∃ js, blocks[k]? = some js ∧ j ∈ js := by
  constructor
  · intro h
    obtain ⟨⟨js, k'⟩, hmem, hj⟩ := mem_flatMap.mp h
    obtain ⟨j', hj', heq⟩ := mem_map.mp hj
    cases heq
    exact ⟨rfl, js, mem_zipIdx_iff_getElem?.mp hmem, hj'⟩
  · rintro ⟨rfl, js, hjs, hj⟩
    exact mem_flatMap.mpr ⟨(js, k), mem_zipIdx_iff_getElem?.mpr hjs, mem_map_of_mem hj⟩

namespace ConnectorScheduler

variable (s : ConnectorScheduler)

def offeredIn (reqs : String → OffloadRequest) (out : SchedulerOutput) : List (String × ℕ × ℕ) :=
  out.numScheduledTokens.flatMap fun (r, n) =>
    match s.reqStatus.get? r with
    | none => []
    | some st => groupBlocks r ((groupsOf s.config st).map fun (g, gs) =>
        offeredBlocks s.config.blockSizeFactor g gs (numOffloadableTokens s.config st (reqs r) n))

def loadedBy (r : String) (blocks : List (List AllocatedBlock)) (numExternalTokens : ℕ) :
    List (String × ℕ × ℕ) :=
  match s.reqStatus.get? r with
  | none => []
  | some st =>
    if numExternalTokens = 0 ∨ st.policy = .requestLevel then []
    else groupBlocks r ((s.config.kvGroupConfigs.zip blocks).map fun (g, _) =>
      List.range (ceilDiv (st.numLocallyComputedTokens + numExternalTokens) g.offloadedBlockSize))

variable {s}

lemma mem_offeredIn {reqs : String → OffloadRequest} {out : SchedulerOutput} {r : String}
    {k j : ℕ} :
    (r, k, j) ∈ s.offeredIn reqs out ↔ ∃ (n : ℕ) (st : RequestOffloadState) (g : GroupOffloadConfig)
      (gs : RequestGroupState), (r, n) ∈ out.numScheduledTokens ∧ s.reqStatus.get? r = some st ∧
      s.config.kvGroupConfigs[k]? = some g ∧ st.groupStates[k]? = some gs ∧
      j ∈
      offeredBlocks s.config.blockSizeFactor g gs
      (numOffloadableTokens s.config st (reqs r) n) := by
  unfold offeredIn
  rw [mem_flatMap]
  constructor
  · rintro ⟨⟨r', n⟩, hmem, hj⟩
    dsimp only at hj
    split at hj
    · cases hj
    rename_i st hst
    obtain ⟨rfl, js, hjs, hj⟩ := mem_groupBlocks.mp hj
    rw [getElem?_map, map_eq_some_iff] at hjs
    obtain ⟨⟨g, gs⟩, hzip, rfl⟩ := hjs
    obtain ⟨hg, hgs⟩ := getElem?_zip_eq_some.mp hzip
    exact ⟨n, st, g, gs, hmem, hst, hg, hgs, hj⟩
  rintro ⟨n, st, g, gs, hmem, hst, hg, hgs, hj⟩
  refine ⟨(r, n), hmem, ?_⟩
  dsimp only
  rw [hst]
  have hzip : (groupsOf s.config st)[k]? = some (g, gs) := getElem?_zip_eq_some.mpr ⟨hg, hgs⟩
  refine mem_groupBlocks.mpr ⟨rfl, _, ?_, hj⟩
  rw [getElem?_map, hzip]
  rfl

lemma mem_loadedBy {r r' : String} {blocks : List (List AllocatedBlock)} {n k j : ℕ} :
    (r', k, j) ∈ s.loadedBy r blocks n ↔ r' = r ∧ ∃ (st : RequestOffloadState)
    (g : GroupOffloadConfig)
      (given : List AllocatedBlock), s.reqStatus.get? r = some st ∧ n ≠ 0 ∧
      st.policy ≠ .requestLevel ∧
      s.config.kvGroupConfigs[k]? = some g ∧ blocks[k]? = some given ∧
      j < ceilDiv (st.numLocallyComputedTokens + n) g.offloadedBlockSize := by
  unfold loadedBy
  split
  next hnone =>
    refine iff_of_false not_mem_nil ?_
    rintro ⟨-, st, -, -, hst, -⟩
    cases hnone.symm.trans hst
  next st hst =>
  split
  next hskip =>
    refine iff_of_false not_mem_nil ?_
    rintro ⟨-, st1, -, -, hst1, hn, hpol, -⟩
    cases hst.symm.trans hst1
    exact hskip.elim hn hpol
  rename_i hload
  rw [not_or] at hload
  rw [mem_groupBlocks]
  refine and_congr_right fun _ => ⟨?_, ?_⟩
  · rintro ⟨js, hjs, hj⟩
    rw [getElem?_map, map_eq_some_iff] at hjs
    obtain ⟨⟨g, given⟩, hzip, rfl⟩ := hjs
    obtain ⟨hg, hgiven⟩ := getElem?_zip_eq_some.mp hzip
    exact ⟨st, g, given, hst, hload.1, hload.2, hg, hgiven, mem_range.mp hj⟩
  rintro ⟨st1, g, given, hst1, -, -, hg, hgiven, hj⟩
  cases hst.symm.trans hst1
  have hzip : (s.config.kvGroupConfigs.zip blocks)[k]? = some (g, given) :=
    getElem?_zip_eq_some.mpr ⟨hg, hgiven⟩
  refine ⟨_, ?_, mem_range.mpr hj⟩
  rw [getElem?_map, hzip]
  rfl

end ConnectorScheduler

/-- The connector with the blocks offered to the manager and those loaded from it. -/
structure OfferState where
  connector : ConnectorScheduler
  offered : List (String × ℕ × ℕ) := []
  loaded : List (String × ℕ × ℕ) := []

namespace OfferState

variable (t : OfferState)

def offeredAfter : ConnectorCall → Py (List (String × ℕ × ℕ))
  | .onNewRequest r _ _ => .ok (t.offered.filter (·.1 ≠ r))
  | .buildConnectorMeta reqs _ out => do
    let s ← t.connector.updateReqStates reqs out
    .ok (t.offered ++ s.offeredIn reqs out)
  | _ => .ok t.offered

def loadedAfter : ConnectorCall → List (String × ℕ × ℕ)
  | .onNewRequest r _ _ => t.loaded.filter (·.1 ≠ r)
  | .updateStateAfterAlloc r blocks n _ => t.loaded ++ t.connector.loadedBy r blocks n
  | _ => t.loaded

def step (c : ConnectorCall) : Py OfferState := do
  let connector ← t.connector.call c
  let offered ← t.offeredAfter c
  .ok { connector := connector, offered := offered, loaded := t.loadedAfter c }

/-- Block `j` of the request in group `k` was offered to the manager or loaded from it. -/
def Covered (r : String) (k j : ℕ) : Prop := (r, k, j) ∈ t.offered ∨ (r, k, j) ∈ t.loaded

/-- A request is scheduled once and is new or running, full-attention groups have real blocks, and
the hashes cover the full blocks. -/
structure Scheduled (hashBlockSize : ℕ) (cfg : SchedulerOffloadConfig)
    (reqs : String → OffloadRequest) (out : SchedulerOutput) : Prop where
  once : (out.numScheduledTokens.map Prod.fst).Nodup
  known : ∀ x ∈ out.numScheduledTokens, x.1 ∈ out.yieldReqData.map Prod.fst
  blocks : ∀ x ∈ out.yieldReqData, ∀ groups, x.2.1 = some groups →
    ConnectorScheduler.RealBlocks cfg groups
  hashes : ∀ x ∈ out.numScheduledTokens, (reqs x.1).numTokens / hashBlockSize ≤
    (reqs x.1).blockHashes.length

/-- The scheduler's output is one of a request that it can schedule. -/
def Issued (hashBlockSize : ℕ) (t : OfferState) : ConnectorCall → Prop
  | .buildConnectorMeta reqs _ out => Scheduled hashBlockSize t.connector.config reqs out
  | _ => True

/-! ## The invariant -/

def Plain (k : ℕ) (g : GroupOffloadConfig) : Prop :=
  t.connector.config.kvGroupConfigs[k]? = some g ∧ g.slidingWindowSizeInBlocks = none ∧
    g.isEagleGroup = false

/-- In a plain group all blocks before a covered one are covered. -/
structure GapFree (hashBlockSize : ℕ) (t : OfferState) : Prop where
  closed : ∀ {r k g}, t.Plain k g → ∀ {j}, t.Covered r k j → ∀ i < j, t.Covered r k i
  next : ∀ {r k g}, t.Plain k g → ∀ {st gs}, t.connector.reqStatus.get? r = some st →
    st.groupStates[k]? = some gs → ∀ i < gs.nextStoredBlockIdx, t.Covered r k i
  blocks : ∀ {r k g}, t.Plain k g → ∀ {st gs}, t.connector.reqStatus.get? r = some st →
    st.groupStates[k]? = some gs → ∀ b ∈ gs.blockIds, b ≠ 0
  sliding : t.connector.SlidingListed
  aligned : ∀ g ∈ t.connector.config.kvGroupConfigs, g.slidingWindowSizeInBlocks = none →
    g.alignmentBlockCount = none
  factor : ∀ g ∈ t.connector.config.kvGroupConfigs, g.hashBlockSizeFactor =
    g.offloadedBlockSize / hashBlockSize ∧
    0 < hashBlockSize ∧ hashBlockSize ≤ g.offloadedBlockSize

variable {hashBlockSize : ℕ} {t t' : OfferState} (h : GapFree hashBlockSize t)

include h in
lemma GapFree.of_kept (hkept : t.connector.Kept t'.connector)
    (hoff : t'.offered = t.offered) (hloaded : t'.loaded = t.loaded) :
    GapFree hashBlockSize t' := by
  have hcovered : ∀ r k j, t'.Covered r k j ↔ t.Covered r k j := by
    intro r k j
    rw [Covered, Covered, hoff, hloaded]
  have hplain : ∀ {k g}, t'.Plain k g → t.Plain k g := by
    intro k g hg
    rw [Plain, hkept.config] at hg
    exact hg
  refine { closed := ?_, next := ?_, blocks := ?_, sliding := ?_, aligned := ?_, factor := ?_ }
  · intro r k g hg j hj i hi
    rw [hcovered] at hj ⊢
    exact h.closed (hplain hg) hj i hi
  · intro r k g hg st' gs' hst' hgs' i hi
    obtain ⟨st, hst, hstat⟩ := hkept.status r st' hst'
    obtain ⟨gs, hgs, hgroup⟩ := hstat k g gs' (hplain hg).1 hgs'
    rw [hcovered]
    exact h.next (hplain hg) hst hgs i (hi.trans_le (hgroup.next hg.2.1))
  · intro r k g hg st' gs' hst' hgs'
    obtain ⟨st, hst, hstat⟩ := hkept.status r st' hst'
    obtain ⟨gs, hgs, hgroup⟩ := hstat k g gs' (hplain hg).1 hgs'
    exact hgroup.blocks hg.2.1 (h.blocks (hplain hg) hst hgs)
  · intro k hk g hg
    exact h.sliding k (hkept.sliding ▸ hk) g (hkept.config ▸ hg)
  · rw [hkept.config]
    exact h.aligned
  · rw [hkept.config]
    exact h.factor

variable {r : String}

include h in
lemma GapFree.onNewRequest {req : OffloadRequest} {policy : OffloadPolicy}
    : GapFree hashBlockSize {
      connector := t.connector.onNewRequest r req policy
      offered := t.offered.filter (·.1 ≠ r)
      loaded := t.loaded.filter (·.1 ≠ r) } := by
  have hcovered : ∀ r' k j, (r' ≠ r ∧ t.Covered r' k j) ↔ Covered {
      connector := t.connector.onNewRequest r req policy
      offered := t.offered.filter (·.1 ≠ r)
      loaded := t.loaded.filter (·.1 ≠ r) } r' k j := by
    intro r' k j
    simp only [Covered, mem_filter, decide_eq_true_eq]
    tauto
  have hstat : ∀ r' st', (t.connector.onNewRequest r req policy).reqStatus.get? r' = some st' →
      (r' = r ∧ st' = .init t.connector.config policy req.maxOffloadTokens) ∨
      (r' ≠ r ∧ t.connector.reqStatus.get? r' = some st') := by
    intro r' st' hst'
    have hst' : (t.connector.reqStatus.set r _).get? r' = some st' := hst'
    rw [OrderedDict.get?_set] at hst'
    split at hst'
    next heq => exact .inl ⟨heq, (some.inj hst').symm⟩
    next hne => exact .inr ⟨hne, hst'⟩
  have hfresh : ∀ {k : ℕ} {gs : RequestGroupState},
    (RequestOffloadState.init t.connector.config policy
      req.maxOffloadTokens).groupStates[k]? = some gs → gs = {} := by
    intro k gs hgs
    obtain ⟨g, -, rfl⟩ := map_eq_some_iff.mp (getElem?_map.symm.trans hgs)
    rfl
  refine { h with closed := ?_, next := ?_, blocks := ?_ }
  · intro r' k g hg j hj i hi
    rw [← hcovered] at hj ⊢
    exact ⟨hj.1, h.closed hg hj.2 i hi⟩
  · intro r' k g hg st' gs' hst' hgs' i hi
    rcases hstat r' st' hst' with ⟨rfl, rfl⟩ | ⟨hne, hst⟩
    · cases hfresh hgs'
      exact absurd hi (Nat.not_lt_zero i)
    · rw [← hcovered]
      exact ⟨hne, h.next hg hst hgs' i hi⟩
  intro r' k g hg st' gs' hst' hgs'
  rcases hstat r' st' hst' with ⟨rfl, rfl⟩ | ⟨hne, hst⟩
  · cases hfresh hgs'
    exact fun b hb => absurd hb not_mem_nil
  · exact h.blocks hg hst hgs'

variable {s' : ConnectorScheduler}

include h in
lemma GapFree.updateStateAfterAlloc {blocks : List (List AllocatedBlock)}
    {n : ℕ} {prepareLoad : List OffloadKey → Py (List ℕ)}
    (hrun : t.connector.updateStateAfterAlloc r blocks n prepareLoad = .ok s') :
    GapFree hashBlockSize
      { t with connector := s', loaded := t.loaded ++ t.connector.loadedBy r blocks n } := by
  obtain ⟨hc, hw, hframe, hmv⟩ := updateStateAfterAlloc_status hrun
  have hcovered : ∀ r' k j, Covered { t with
      connector := s', loaded := t.loaded ++ t.connector.loadedBy r blocks n } r' k j ↔
      t.Covered r' k j ∨ (r', k, j) ∈ t.connector.loadedBy r blocks n := by
    intro r' k j
    simp only [Covered, mem_append]
    tauto
  have hplain : ∀ {k g}, Plain { t with
      connector := s', loaded := t.loaded ++ t.connector.loadedBy r blocks n } k g →
        t.Plain k g := by
    intro k g hg
    rw [Plain] at hg
    dsimp only at hg
    rw [hc] at hg
    exact hg
  refine { closed := ?_, next := ?_, blocks := ?_, sliding := ?_, aligned := ?_, factor := ?_ }
  · intro r' k g hg j hj i hi
    rw [hcovered] at hj ⊢
    rcases hj with hj | hj
    · exact .inl (h.closed (hplain hg) hj i hi)
    obtain ⟨hr, st, g1, given, hst, hn, hpol, hg1, hgiven, hlt⟩ := mem_loadedBy.mp hj
    exact .inr (mem_loadedBy.mpr ⟨hr, st, g1, given, hst, hn, hpol, hg1, hgiven, hi.trans hlt⟩)
  · intro r' k g hg st' gs' hst' hgs' i hi
    rw [hcovered]
    dsimp only at hst'
    rcases eq_or_ne r' r with rfl | heq
    · obtain ⟨st, hst, hgroups⟩ := hmv st' hst'
      obtain ⟨gs, hgs, -, hnext | ⟨hn, hpol, g1, given, hg1, hgiven, hnext⟩⟩ := hgroups k gs' hgs'
      · exact .inl (h.next (hplain hg) hst hgs i (hnext ▸ hi))
      · exact .inr (mem_loadedBy.mpr ⟨rfl, st, g1, given, hst, hn, hpol, hg1, hgiven, hnext ▸ hi⟩)
    · rw [hframe r' heq] at hst'
      exact .inl (h.next (hplain hg) hst' hgs' i hi)
  · intro r' k g hg st' gs' hst' hgs'
    dsimp only at hst'
    rcases eq_or_ne r' r with rfl | heq
    · obtain ⟨st, hst, hgroups⟩ := hmv st' hst'
      obtain ⟨gs, hgs, hids, -⟩ := hgroups k gs' hgs'
      rw [hids]
      exact h.blocks (hplain hg) hst hgs
    · rw [hframe r' heq] at hst'
      exact h.blocks (hplain hg) hst' hgs'
  · intro k hk g hg
    exact h.sliding k (hw ▸ hk) g (hc ▸ hg)
  · dsimp only
    rw [hc]
    exact h.aligned
  dsimp only
  rw [hc]
  exact h.factor

lemma fullBlocks_le {n numTokens numHashes size h : ℕ} (hn : n ≤ numTokens)
    (hhs : numTokens / h ≤ numHashes)
    (hpos : 0 < h) (hle : h ≤ size) : n / size ≤ numHashes / (size / h) := by
  have hfactor : 0 < size / h := Nat.div_pos hle hpos
  calc n / size ≤ numTokens / size := Nat.div_le_div_right hn
    _ ≤ numTokens / (h * (size / h)) :=
      Nat.div_le_div_left (Nat.mul_div_le size h) (mul_pos hpos hfactor)
    _ = numTokens / h / (size / h) := (Nat.div_div_eq_div_mul _ _ _).symm
    _ ≤ numHashes / (size / h) := Nat.div_le_div_right hhs

lemma numOffloadableTokens_le (cfg : SchedulerOffloadConfig) (st : RequestOffloadState)
    (req : OffloadRequest) (n : ℕ) : numOffloadableTokens cfg st req n ≤ req.numTokens := by
  have hmin := min_le_right (req.numComputedTokens + n) req.numTokens
  unfold numOffloadableTokens
  cases st.maxOffloadTokens with
  | none =>
    dsimp only
    split
    · exact (min_le_left _ _).trans hmin
    · exact hmin
  | some limit =>
    have hlimit := (min_le_left _ limit).trans hmin
    dsimp only
    split
    · exact (min_le_left _ _).trans hlimit
    · exact hlimit

section step

variable {reqs : String → OffloadRequest} {out : SchedulerOutput} {s₁ : ConnectorScheduler}
  (hiss : Scheduled hashBlockSize t.connector.config reqs out)
include hiss

include h in
lemma GapFree.mem_offeredIn
    (hupdate : t.connector.updateReqStates reqs out = .ok s₁)
    (hoffers : ∀ x ∈ out.numScheduledTokens, ∀ st, s₁.reqStatus.get? x.1 = some st →
      s₁.Offers st (numOffloadableTokens s₁.config st (reqs x.1) x.2))
    {k n : ℕ} {st : RequestOffloadState} {gs : RequestGroupState}
    (hg : t.Plain k g) (hn : (r, n) ∈ out.numScheduledTokens) (hst : s₁.reqStatus.get? r = some st)
    (hgs : st.groupStates[k]? = some gs) (j : ℕ) :
    (r, k, j) ∈ s₁.offeredIn reqs out ↔ gs.nextStoredBlockIdx ≤ j ∧
      j < numOffloadableTokens s₁.config st (reqs r) n / g.offloadedBlockSize := by
  obtain ⟨hkept, hcover⟩ := ConnectorScheduler.kept_updateReqStates h.sliding hiss.blocks hupdate
  have hmem : g ∈ t.connector.config.kvGroupConfigs := mem_of_getElem? hg.1
  have hg1 : s₁.config.kvGroupConfigs[k]? = some g := hkept.config ▸ hg.1
  -- the offered blocks of the group
  have hblk :
    offeredBlocks s₁.config.blockSizeFactor g gs (numOffloadableTokens s₁.config st (reqs r) n) =
      List.range' gs.nextStoredBlockIdx
        (numOffloadableTokens s₁.config st (reqs r) n / g.offloadedBlockSize -
          gs.nextStoredBlockIdx) := by
    obtain ⟨offered, hoff⟩ := hoffers (r, n) hn st hst
    have hzip : (groupsOf s₁.config st)[k]? = some (g, gs) := getElem?_zip_eq_some.mpr ⟨hg1, hgs⟩
    obtain ⟨keys, hkeys⟩ := ok_of_mapM hoff (mem_of_getElem? hzip)
    obtain ⟨st0, hst0, hstat⟩ := hkept.status r st hst
    obtain ⟨gs0, hgs0, hgroup⟩ := hstat k g gs hg.1 hgs
    obtain ⟨x, hx, hxr⟩ := mem_map.mp (hiss.known (r, n) hn)
    dsimp only at hxr
    subst hxr
    obtain ⟨hfactor, hpos, hle⟩ := h.factor g hmem
    refine offeredBlocks_full hkeys hg.2.2 (h.aligned g hmem hg.2.1) ?_
      (hgroup.blocks hg.2.1 (h.blocks hg hst0 hgs0))
    calc numOffloadableTokens s₁.config st (reqs x.1) n / g.offloadedBlockSize
        ≤ (reqs x.1).blockHashes.length / (g.offloadedBlockSize / hashBlockSize) :=
          fullBlocks_le (numOffloadableTokens_le _ _ _ _) (hiss.hashes (x.1, n) hn) hpos hle
      _ ≤ gs.offloadKeys.length := hfactor ▸ hcover x hx st hst k g gs hg.1 hgs
  rw [ConnectorScheduler.mem_offeredIn]
  constructor
  · rintro ⟨n', st', g', gs', hn', hst', hg', hgs', hj⟩
    obtain rfl : n' = n := congrArg Prod.snd (inj_on_of_nodup_map hiss.once hn' hn rfl)
    cases hst.symm.trans hst'
    cases hgs.symm.trans hgs'
    cases hg1.symm.trans hg'
    rw [hblk, mem_range'_1] at hj
    omega
  rintro ⟨hle, hlt⟩
  refine ⟨n, st, g, gs, hn, hst, hg1, hgs, ?_⟩
  rw [hblk, mem_range'_1]
  omega

include h in
/-- The offered blocks continue those covered before. -/
lemma GapFree.buildConnectorMeta
    {prepareStore : String → List OffloadKey → Option (PrepareStoreOutput OffloadKey)}
    {metadata : OffloadingConnectorMetadata}
    (hupdate : t.connector.updateReqStates reqs out = .ok s₁)
    (hrun : t.connector.buildConnectorMeta reqs prepareStore out = .ok (s', metadata)) :
    GapFree hashBlockSize
    { t with connector := s', offered := t.offered ++ s₁.offeredIn reqs out } := by
  unfold ConnectorScheduler.buildConnectorMeta at hrun
  rw [hupdate, ok_bind] at hrun
  obtain ⟨s2, hflush, hrun⟩ := of_bind hrun
  obtain ⟨⟨s3, jobs⟩, hbuild, ⟨⟩⟩ := of_bind hrun
  obtain ⟨hkept, -⟩ := kept_updateReqStates h.sliding hiss.blocks hupdate
  obtain ⟨hc2, hw2, hr2⟩ := flushPreempted_frame hflush
  obtain ⟨hc3, hw3, hoffers, hstat⟩ := buildStoreJobs_status hiss.once hbuild
  have hc3 : s3.config = s₁.config := hc3.trans hc2
  have hw3 : s3.slidingWindowGroups = s₁.slidingWindowGroups := hw3.trans hw2
  simp only [flushReallocated, Offers, MovedTo, hc2, hr2] at hoffers hstat
  -- the blocks in front of the next one were covered before the step
  have hbef : ∀ {r k g st gs}, t.Plain k g → s₁.reqStatus.get? r = some st →
    st.groupStates[k]? = some gs →
      ∀ i < gs.nextStoredBlockIdx, t.Covered r k i := by
    intro r k g st gs hg hst hgs i hi
    obtain ⟨st0, hst0, hstatus0⟩ := hkept.status r st hst
    obtain ⟨gs0, hgs0, hgroup⟩ := hstatus0 k g gs hg.1 hgs
    exact h.next hg hst0 hgs0 i (hi.trans_le (hgroup.next hg.2.1))
  -- the full blocks of a scheduled request are covered after it
  have hafter : ∀ {r k n g st gs}, t.Plain k g → (r, n) ∈ out.numScheduledTokens →
      s₁.reqStatus.get? r = some st → st.groupStates[k]? = some gs →
      ∀ i < numOffloadableTokens s₁.config st (reqs r) n / g.offloadedBlockSize,
        t.Covered r k i ∨ (r, k, i) ∈ s₁.offeredIn reqs out := by
    intro r k n g st gs hg hn hst hgs i hi
    by_cases hnext : i < gs.nextStoredBlockIdx
    · exact .inl (hbef hg hst hgs i hnext)
    · exact .inr
        ((h.mem_offeredIn hiss hupdate hoffers hg hn hst hgs i).mpr ⟨Nat.le_of_not_lt hnext, hi⟩)
  have hcovered : ∀ r k j, Covered { t with
      connector := { s3 with
        currentBatchLoadJobs := [], currentBatchJobsToFlush := [], currentBatchAllocatedBlockIds :=
          [] }
      offered := t.offered ++ s₁.offeredIn reqs out } r k j ↔
      t.Covered r k j ∨ (r, k, j) ∈ s₁.offeredIn reqs out := by
    intro r k j
    simp only [Covered, mem_append]
    tauto
  have hcfg : s3.config = t.connector.config := hc3.trans hkept.config
  refine { closed := ?_, next := ?_, blocks := ?_, sliding := ?_, aligned := ?_, factor := ?_ }
  · intro r k g hg j hj i hi
    have hg : t.Plain k g := by rwa [Plain, ← hcfg]
    rw [hcovered] at hj ⊢
    rcases hj with hj | hj
    · exact .inl (h.closed hg hj i hi)
    obtain ⟨n, st, g', gs, hn, hst, hg', hgs, -⟩ := ConnectorScheduler.mem_offeredIn.mp hj
    have hlt := ((h.mem_offeredIn hiss hupdate hoffers hg hn hst hgs j).mp hj).2
    exact hafter hg hn hst hgs i (hi.trans hlt)
  · intro r k g hg st' gs' hst' hgs' i hi
    have hg : t.Plain k g := by rwa [Plain, ← hcfg]
    rw [hcovered]
    obtain ⟨st, hst, hmv⟩ := hstat r st' hst'
    rcases hmv with hsame | ⟨n, hn, hsame | hadvanced⟩
    · exact .inl (hbef hg hst (hsame ▸ hgs') i hi)
    · exact .inl (hbef hg hst (hsame ▸ hgs') i hi)
    rw [hadvanced] at hgs'
    obtain ⟨g1, gs, hg1, hgs, rfl⟩ := getElem?_zipWith_eq_some.mp hgs'
    cases (hkept.config ▸ hg1).symm.trans hg.1
    exact hafter hg hn hst hgs i hi
  · intro r k g hg st' gs' hst' hgs'
    have hg : t.Plain k g := by rwa [Plain, ← hcfg]
    obtain ⟨st, hst, hmv⟩ := hstat r st' hst'
    obtain ⟨st0, hst0, hstatus0⟩ := hkept.status r st hst
    suffices hold : ∃ gs, st.groupStates[k]? = some gs ∧ gs'.blockIds = gs.blockIds by
      obtain ⟨gs, hgs, hids⟩ := hold
      obtain ⟨gs0, hgs0, hgroup⟩ := hstatus0 k g gs hg.1 hgs
      rw [hids]
      exact hgroup.blocks hg.2.1 (h.blocks hg hst0 hgs0)
    rcases hmv with hsame | ⟨n, hn, hsame | hadvanced⟩
    · exact ⟨gs', hsame ▸ hgs', rfl⟩
    · exact ⟨gs', hsame ▸ hgs', rfl⟩
    rw [hadvanced] at hgs'
    obtain ⟨g1, gs, hg1, hgs, rfl⟩ := getElem?_zipWith_eq_some.mp hgs'
    exact ⟨gs, hgs, rfl⟩
  · intro k hk g hg
    exact h.sliding k (hkept.sliding ▸ hw3 ▸ hk) g (hcfg ▸ hg)
  · show ∀ g ∈ s3.config.kvGroupConfigs, _
    rw [hcfg]
    exact h.aligned
  show ∀ g ∈ s3.config.kvGroupConfigs, _
  rw [hcfg]
  exact h.factor

end step

include h in
lemma GapFree.step {c : ConnectorCall} (hiss : Issued hashBlockSize t c)
    (hstep : t.step c = .ok t') : GapFree hashBlockSize t' := by
  unfold OfferState.step at hstep
  obtain ⟨s', hcall, hstep⟩ := of_bind hstep
  obtain ⟨offered, hoff, ⟨⟩⟩ := of_bind hstep
  cases c with
  | onNewRequest r req policy =>
    cases hcall
    cases hoff
    exact h.onNewRequest
  | getNumNewMatchedTokens r req n lookup =>
    cases hoff
    obtain ⟨⟨answer, s⟩, hrun, ⟨⟩⟩ := of_bind hcall
    exact h.of_kept (kept_getNumNewMatchedTokens hrun) rfl rfl
  | updateStateAfterAlloc r blocks n prepareLoad =>
    cases hoff
    exact h.updateStateAfterAlloc hcall
  | buildConnectorMeta reqs prepareStore out =>
    obtain ⟨s₁, hupdate, ⟨⟩⟩ := of_bind hoff
    obtain ⟨⟨s, metadata⟩, hrun, ⟨⟩⟩ := of_bind hcall
    exact h.buildConnectorMeta hiss hupdate hrun
  | updateConnectorOutput reqs completed =>
    cases hoff
    exact h.of_kept (kept_updateConnectorOutput hcall) rfl rfl
  | requestFinished r =>
    cases hoff
    exact h.of_kept (kept_requestFinished hcall) rfl rfl
  | resetCache reqs =>
    cases hoff
    exact h.of_kept (kept_resetCache hcall) rfl rfl

/-- The sizes of the groups fit the size of a hash. -/
structure Hashed (spec : OffloadingSpec) : Prop where
  factor : 0 < spec.blockSizeFactor
  size : ∀ g ∈ spec.groups, 0 < g.gpuBlockSize
  dvd : ∀ g ∈ spec.groups, spec.hashBlockSize ∣ g.gpuBlockSize

lemma GapFree.init {s : ConnectorScheduler} (hspec : Hashed spec)
    (hinit : ConnectorScheduler.init spec = .ok s) :
    GapFree spec.hashBlockSize { connector := s } := by
  unfold ConnectorScheduler.init at hinit
  obtain ⟨config, hcfg, hinit⟩ := of_bind hinit
  obtain ⟨align, -, ⟨⟩⟩ := of_bind hinit
  refine { closed := ?_, next := ?_, blocks := ?_, sliding := ?_, aligned := ?_, factor := ?_ }
  · rintro r k g - j (hj | hj) <;> cases hj
  · rintro r k g - st gs ⟨⟩
  · rintro r k g - st gs ⟨⟩
  · intro k hk g hg
    obtain ⟨g', hg', rfl⟩ := mem_map.mp hk
    obtain ⟨hmem, hwindow⟩ := mem_filter.mp ((mem_insertionSort _).mp hg')
    obtain ⟨i, hi⟩ := getElem?_of_mem hmem
    obtain rfl := (SchedulerOffloadConfig.fromSpec_group hcfg hi).1
    cases hi.symm.trans hg
    exact of_decide_eq_true hwindow
  · intro g hg hfull
    obtain ⟨i, hi⟩ := getElem?_of_mem hg
    exact (SchedulerOffloadConfig.fromSpec_group hcfg hi).2.1 hfull
  intro g hg
  obtain ⟨i, hi⟩ := getElem?_of_mem hg
  obtain ⟨-, -, g0, hg0, hsize, hfactor⟩ := SchedulerOffloadConfig.fromSpec_group hcfg hi
  have hpos := mul_pos (hspec.size g0 hg0) hspec.factor
  rw [hfactor, hsize]
  exact ⟨rfl, Nat.pos_of_dvd_of_pos (hspec.dvd g0 hg0) (hspec.size g0 hg0),
    Nat.le_of_dvd hpos ((hspec.dvd g0 hg0).mul_right _)⟩

/-! ## Runs -/

/-- In every run, in front of a block of a plain full-attention group that was offered or loaded,
every block was offered or loaded. -/
theorem offered_gap_free {spec : OffloadingSpec} {s : ConnectorScheduler}
    {calls : List ConnectorCall}
    {k j : ℕ} {g : GroupOffloadConfig} {r : String} (hspec : Hashed spec)
    (hinit : ConnectorScheduler.init spec = .ok s)
    (hrun : Run OfferState.step (Issued spec.hashBlockSize) { connector := s } calls t)
    (hg : t.connector.config.kvGroupConfigs[k]? = some g) (hfull : g.slidingWindowSizeInBlocks =
      none)
    (heagle : g.isEagleGroup = false) (hj : t.Covered r k j) : ∀ i < j, t.Covered r k i := by
  have hgapFree : GapFree spec.hashBlockSize t :=
    hrun.invariant (P := GapFree spec.hashBlockSize) (fun _ _ _ h hissued hstep =>
      h.step hissued hstep)
      (.init hspec hinit)
  exact hgapFree.closed ⟨hg, hfull, heagle⟩ hj

variable (useEagle : Bool)

def oneGroupSpec : OffloadingSpec where
  groups := [{ attention := .full, gpuBlockSize := 1 }]
  blockSizeFactor := 1
  hashBlockSize := 1
  worldSize := 1
  offloadPromptOnly := false
  useEagle := useEagle
  enablePrefixCaching := true

def fourTokens (numComputedTokens : ℕ) : OffloadRequest where
  numTokens := 4
  numPromptTokens := 4
  numComputedTokens := numComputedTokens
  blockHashes := [[1], [2], [3], [4]]

def twoSteps : List ConnectorCall := [
  .onNewRequest "a" (fourTokens 0) .blockLevel,
  .buildConnectorMeta (fun _ => fourTokens 0) (ConnectorScheduler.storeAll 0)
    { scheduledNewReqs := [("a", [[1, 2]])], numScheduledTokens := [("a", 2)] },
  .buildConnectorMeta (fun _ => fourTokens 2) (ConnectorScheduler.storeAll 2)
    { scheduledCachedReqs := [("a", some [[3, 4]], false)], numScheduledTokens := [("a", 2)] }]

lemma scheduled_single {cfg : SchedulerOffloadConfig} {n : ℕ} {out : SchedulerOutput} {ids : List ℕ}
    {preempted : Bool} (htokens : out.numScheduledTokens = [("a", 2)])
    (hdata : out.yieldReqData = [("a", some [ids], preempted)])
    (hids : 0 ∉ ids) : Scheduled 1 cfg (fun _ => fourTokens n) out where
  once := by simp [htokens]
  known := by simp [htokens, hdata]
  blocks := by
    rw [hdata]
    rintro x hx groups hgroups k g new - - hnew b hb rfl
    obtain rfl := mem_singleton.mp hx
    cases hgroups
    obtain rfl : new = ids := mem_singleton.mp (mem_of_getElem? hnew)
    exact hids hb
  hashes := by simp [fourTokens]

lemma run_twoSteps : ∃ s t, ConnectorScheduler.init (oneGroupSpec useEagle) = .ok s ∧
    Run OfferState.step (Issued 1) { connector := s } twoSteps t ∧
    t.connector.config.kvGroupConfigs = [{
      groupIdx := 0, gpuBlockSize := 1, offloadedBlockSize := 1, hashBlockSizeFactor := 1,
      slidingWindowSizeInBlocks := none, isEagleGroup := useEagle }] ∧
    t.offered = (if useEagle then [("a", 0, 0), ("a", 0, 2)]
      else [("a", 0, 0), ("a", 0, 1), ("a", 0, 2), ("a", 0, 3)]) ∧ t.loaded = [] := by
  cases useEagle
  · refine ⟨_, _, rfl, .cons trivial rfl (.cons (scheduled_single rfl rfl (by decide)) rfl
      (.cons (scheduled_single rfl rfl (by decide)) rfl (.nil _))), ?_, ?_, ?_⟩ <;> rfl
  · refine ⟨_, _, rfl, .cons trivial rfl (.cons (scheduled_single rfl rfl (by decide)) rfl
      (.cons (scheduled_single rfl rfl (by decide)) rfl (.nil _))), ?_, ?_, ?_⟩ <;> rfl

/-- In two steps all blocks up to the last are offered. -/
theorem all_blocks_offered : ∃ s t, ConnectorScheduler.init (oneGroupSpec false) = .ok s ∧
    Run OfferState.step (Issued 1) { connector := s } twoSteps t ∧ t.Covered "a" 0 3 ∧
    ∀ i < 3, t.Covered "a" 0 i := by
  obtain ⟨s, t, hinit, hrun, hconfig, hoffered, -⟩ := run_twoSteps false
  have hlast : t.Covered "a" 0 3 := by
    rw [Covered, hoffered]
    exact .inl (by decide)
  have hspec : Hashed (oneGroupSpec false) :=
    { factor := by decide, size := by decide, dvd := by decide }
  have hgroup : t.connector.config.kvGroupConfigs[0]? = some {
      groupIdx := 0, gpuBlockSize := 1, offloadedBlockSize := 1, hashBlockSizeFactor := 1,
      slidingWindowSizeInBlocks := none } := by
    rw [hconfig]
    rfl
  exact ⟨s, t, hinit, hrun, hlast, offered_gap_free hspec hinit hrun hgroup rfl rfl hlast⟩

/-- With speculative decoding the first step offers block 0 and holds back block 1, but moves
`next_stored_block_idx` to 2; block 1 is never offered. -/
theorem eagle_block_skipped : ∃ s t, ConnectorScheduler.init (oneGroupSpec true) = .ok s ∧
    Run OfferState.step (Issued 1) { connector := s } twoSteps t ∧
    (∀ g ∈ t.connector.config.kvGroupConfigs, g.slidingWindowSizeInBlocks = none) ∧
    t.Covered "a" 0 2 ∧ ¬ t.Covered "a" 0 1 := by
  obtain ⟨s, t, hinit, hrun, hconfig, hoffered, hloaded⟩ := run_twoSteps true
  refine ⟨s, t, hinit, hrun, ?_, ?_, ?_⟩
  · rw [hconfig]
    decide
  · rw [Covered, hoffered]
    exact .inl (by decide)
  · rw [Covered, hoffered, hloaded]
    decide

end OfferState

end Vllm.Offload
