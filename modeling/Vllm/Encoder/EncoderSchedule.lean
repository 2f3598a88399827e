import Vllm.Encoder.EncoderCacheProof

/-! # What `_try_schedule_encoder_inputs` does to the encoder cache -/

namespace Vllm

open List

namespace EncoderCacheManager

variable {m m' : EncoderCacheManager} {size : String → ℕ} {r : EncoderRequest} {i : ℕ}
  {f : EncoderInput}

def References (m : EncoderCacheManager) (h rid : String) : Prop :=
  ∃ refs, m.cached.lookup h = some refs ∧ rid ∈ refs

/-- Unreferenced items were evicted and references of the request added. -/
structure Looks (r : EncoderRequest) (m m' : EncoderCacheManager) : Prop where
  cacheSize : m'.cacheSize = m.cacheSize
  others : ∀ rid ≠ r.requestId, m'.getCachedInputIds rid = m.getCachedInputIds rid
  kept : ∀ h rid, m.References h rid → m'.References h rid
  absent : ∀ h, m.cached.lookup h = none → m'.cached.lookup h = none
  freed : ∀ h, h ∈ m'.freed ↔ h ∈ m.freed ∨ (m.cached.lookup h ≠ none ∧ m'.cached.lookup h = none)
  listed : ∀ j ∈ m'.getCachedInputIds r.requestId, j ∈ m.getCachedInputIds r.requestId ∨
    ∃ f, r.mmFeatures[j]? = some f ∧ m'.References f.identifier r.requestId

lemma Looks.refl (r : EncoderRequest) (m : EncoderCacheManager) : Looks r m m where
  cacheSize := rfl
  others _ _ := rfl
  kept _ _ h := h
  absent _ h := h
  freed h := (Evicts.refl m).freed h
  listed _ h := .inl h

lemma Looks.trans {m1 m2 m3 : EncoderCacheManager} (h : Looks r m1 m2) (h' : Looks r m2 m3) :
    Looks r m1 m3 where
  cacheSize := h'.cacheSize.trans h.cacheSize
  others rid hne := (h'.others rid hne).trans (h.others rid hne)
  kept x rid hx := h'.kept x rid (h.kept x rid hx)
  absent x hx := h'.absent x (h.absent x hx)
  freed x := by
    rw [h'.freed, h.freed]
    constructor
    · rintro ((hfreed | ⟨hne, heq⟩) | ⟨hne, heq⟩)
      · exact .inl hfreed
      · exact .inr ⟨hne, h'.absent x heq⟩
      · exact .inr ⟨fun hnone => hne (h.absent x hnone), heq⟩
    rintro (hfreed | ⟨hne, heq⟩)
    · exact .inl (.inl hfreed)
    by_cases hmid : m2.cached.lookup x = none
    · exact .inl (.inr ⟨hne, hmid⟩)
    · exact .inr ⟨hmid, heq⟩
  listed j hj := by
    rcases h'.listed j hj with hj | hj
    · rcases h.listed j hj with hj | ⟨f, hf, href⟩
      · exact .inl hj
      · exact .inr ⟨f, hf, h'.kept _ _ href⟩
    · exact .inr hj

lemma Evicts.looks (r : EncoderRequest) (h : Evicts m m') : Looks r m m' where
  __ := h
  others rid _ := by rw [getCachedInputIds, getCachedInputIds, h.ids]
  kept x rid := by
    rintro ⟨refs, hlk, hmem⟩
    exact ⟨refs, h.kept x refs (Finset.ne_empty_of_mem hmem) hlk, hmem⟩
  absent x hnone := by
    by_contra hsome
    obtain ⟨refs, hrefs⟩ := Option.ne_none_iff_exists'.mp hsome
    rw [h.sub x refs hrefs] at hnone
    cases hnone
  listed j hj := by
    rw [getCachedInputIds, h.ids] at hj
    exact .inl hj

lemma looks_of_hit {refs : Finset String} (hf : r.mmFeatures[i]? = some f)
    (hlk : m.cached.lookup f.identifier = some refs)
    (hcached : m'.cached = m.cached.insert f.identifier (insert r.requestId refs))
    (hids : m'.requestCachedIds =
      m.requestCachedIds.insert r.requestId (insert i (m.getCachedInputIds r.requestId)))
    (hsize : m'.cacheSize = m.cacheSize) (hfreed : m'.freed = m.freed) :
    Looks r m m' ∧ m'.References f.identifier r.requestId := by
  have hoth : ∀ h ≠ f.identifier, m'.cached.lookup h = m.cached.lookup h := fun h hne => by
    rw [hcached, AList.lookup_insert_ne hne]
  have hself : m'.cached.lookup f.identifier = some (insert r.requestId refs) := by
    rw [hcached, AList.lookup_insert]
  have href : m'.References f.identifier r.requestId := ⟨_, hself, Finset.mem_insert_self _ _⟩
  have habsent : ∀ h, m'.cached.lookup h = none ↔ m.cached.lookup h = none := fun h => by
    by_cases hne : h = f.identifier
    · rw [hne, hself, hlk]
      simp
    · rw [hoth h hne]
  refine ⟨⟨hsize, fun rid hne => ?_, fun h rid => ?_, fun h => (habsent h).mpr, fun h => ?_,
    fun j hj => ?_⟩, href⟩
  · rw [getCachedInputIds, getCachedInputIds, hids, AList.lookup_insert_ne hne]
  · rintro ⟨refs', hrefs, hmem⟩
    rcases eq_or_ne h f.identifier with rfl | hne
    · rw [hlk] at hrefs
      cases hrefs
      exact ⟨_, hself, Finset.mem_insert_of_mem hmem⟩
    · exact ⟨refs', by rw [hoth h hne, hrefs], hmem⟩
  · rw [hfreed, habsent]
    refine ⟨.inl, ?_⟩
    rintro (hmem | ⟨hne, heq⟩)
    · exact hmem
    · exact absurd heq hne
  rw [getCachedInputIds, hids, AList.lookup_insert] at hj
  rcases Finset.mem_insert.mp hj with rfl | hj
  · exact .inr ⟨f, hf, href⟩
  · exact .inl hj

end EncoderCacheManager

def EncoderRequest.identifierOf (r : EncoderRequest) (i : ℕ) : String :=
  (r.mmFeatures[i]?.map (·.identifier)).getD ""

lemma EncoderRequest.identifierOf_eq {r : EncoderRequest} {i : ℕ} {f : EncoderInput}
    (hf : r.mmFeatures[i]? = some f) : r.identifierOf i = f.identifier := by
  rw [identifierOf, hf]
  rfl

def EncoderRequest.Sized (size : String → ℕ) (r : EncoderRequest) : Prop :=
  ∀ f ∈ r.mmFeatures, f.getNumEmbeds = size f.identifier

namespace EncoderCacheManager

variable {m m' : EncoderCacheManager} {size : String → ℕ} {r : EncoderRequest} {i : ℕ}
  {f : EncoderInput}

/-- There is room for the inputs to allocate. -/
structure Fits (size : String → ℕ) (m : EncoderCacheManager) (r : EncoderRequest) (is : List ℕ) :
    Prop where
  lt : ∀ i ∈ is, i < r.mmFeatures.length
  nodup : (is.map r.identifierOf).Nodup
  absent : ∀ i ∈ is, m.cached.lookup (r.identifierOf i) = none
  room : (((is.map r.identifierOf).map size).sum : ℕ) ≤ m.numFreeSlots

lemma Fits.mono {is : List ℕ} (h : Fits size m r is)
    (habsent : ∀ x, m.cached.lookup x = none → m'.cached.lookup x = none)
    (hsl : m.numFreeSlots ≤ m'.numFreeSlots) : Fits size m' r is :=
  ⟨h.lt, h.nodup, fun i hi => habsent _ (h.absent i hi), h.room.trans hsl⟩

def allocateAll (m : EncoderCacheManager) (r : EncoderRequest) (is : List ℕ) :
    Py EncoderCacheManager :=
  is.foldlM (fun m i => m.allocate r i) m

/-- The inputs `is` of the request were allocated, and no others. -/
structure Allocates (r : EncoderRequest) (is : List ℕ) (m m' : EncoderCacheManager) : Prop where
  cacheSize : m'.cacheSize = m.cacheSize
  freed : m'.freed = m.freed
  others : ∀ rid ≠ r.requestId, m'.getCachedInputIds rid = m.getCachedInputIds rid
  listed : ∀ j, j ∈ m'.getCachedInputIds r.requestId ↔ j ∈ m.getCachedInputIds r.requestId ∨ j ∈ is
  cached : ∀ h, m'.cached.lookup h =
    if h ∈ is.map r.identifierOf then some {r.requestId} else m.cached.lookup h

/-- All inputs that fit can be allocated one after the other. -/
lemma Consistent.allocateAll {is : List ℕ} (hm : Consistent size m) (hsized : r.Sized size)
    (hfits : Fits size m r is) :
    ∃ m', m.allocateAll r is = .ok m' ∧ Consistent size m' ∧ Allocates r is m m' := by
  unfold EncoderCacheManager.allocateAll
  induction is generalizing m with
  | nil => exact ⟨m, rfl, hm, rfl, rfl, fun _ _ => rfl, fun j => by simp, fun h => by simp⟩
  | cons i is ih =>
    obtain ⟨hlt, hnd, habsent, hroom⟩ := hfits
    obtain ⟨f, hf⟩ : ∃ f, r.mmFeatures[i]? = some f :=
      ⟨_, getElem?_eq_getElem (hlt i mem_cons_self)⟩
    have hid := EncoderRequest.identifierOf_eq hf
    have hsize := hsized f (mem_of_getElem? hf)
    have hnone := habsent i mem_cons_self
    rw [map_cons, nodup_cons] at hnd
    rw [map_cons, map_cons, sum_cons, hid] at hroom
    rw [hid] at hnone
    obtain ⟨m1, hrun, hm1, hcache1, hcached1, hids1, hslots1, hfreed1⟩ :=
      hm.allocate hf hsize hnone (by omega)
    have hlookup1 : ∀ h ≠ f.identifier, m1.cached.lookup h = m.cached.lookup h := fun h hne => by
      rw [hcached1, AList.lookup_insert_ne hne]
    have hne : ∀ j ∈ is, r.identifierOf j ≠ f.identifier := fun j hj heq =>
      hnd.1 (by rw [hid, ← heq]; exact mem_map_of_mem hj)
    obtain ⟨m', hrest, hm', hall⟩ := ih hm1
      { lt := (forall_mem_cons.mp hlt).2
        nodup := hnd.2
        absent := fun j hj => by
          rw [hlookup1 _ (hne j hj)]
          exact habsent j (mem_cons_of_mem i hj)
        room := by omega }
    refine ⟨m', ?_, hm', ?_⟩
    · rw [foldlM_cons, hrun, ok_bind, hrest]
    exact
      { cacheSize := hall.cacheSize.trans hcache1
        freed := hall.freed.trans hfreed1
        others := fun rid hrid => by
          rw [hall.others rid hrid, getCachedInputIds, getCachedInputIds, hids1,
            AList.lookup_insert_ne hrid]
        listed := fun j => by
          rw [hall.listed, getCachedInputIds, hids1, AList.lookup_insert, Option.getD_some,
            Finset.mem_insert, mem_cons]
          tauto
        cached := fun h => by
          rw [hall.cached, map_cons, hid]
          by_cases hmem : h ∈ is.map r.identifierOf
          · rw [if_pos hmem, if_pos (mem_cons_of_mem _ hmem)]
          rw [if_neg hmem]
          by_cases heq : h = f.identifier
          · rw [if_pos (by simp [heq]), heq, hcached1, AList.lookup_insert]
          · rw [if_neg (by simp only [mem_cons, heq, hmem, or_self, not_false_eq_true]),
              hlookup1 h heq] }

end EncoderCacheManager

/-! ## The loop -/

namespace TryState

def inputs (st : TryState) : List ℕ := st.encoderInputsToSchedule ++ st.externalLoadEncoderInput

/-- What the loop over the inputs keeps. -/
structure Tried (size : String → ℕ) (r : EncoderRequest) (m : EncoderCacheManager) (st : TryState) :
    Prop where
  consistent : st.manager.Consistent size
  looks : EncoderCacheManager.Looks r m st.manager
  hits : ∀ h ∈ st.hits, st.manager.References h r.requestId
  fits : st.manager.Fits size r st.inputs
  hashes : ∀ h, h ∈ st.mmHashesToSchedule ↔ h ∈ st.inputs.map r.identifierOf
  embeds : st.numEmbedsToSchedule = ((st.inputs.map r.identifierOf).map size).sum

variable {size : String → ℕ} {r : EncoderRequest} {m : EncoderCacheManager} {st : TryState} {i : ℕ}
  {f : EncoderInput} {a : TryArgs}

open EncoderCacheManager

lemma Tried.start (hm : m.Consistent size) {n b : ℤ} :
    Tried size r m { manager := m, numNewTokens := n, encoderComputeBudget := b } where
  consistent := hm
  looks := .refl r m
  hits h hh := by cases hh
  fits :=
    ⟨fun _ hi => absurd hi not_mem_nil, nodup_nil, fun _ hi => absurd hi not_mem_nil,
      hm.choose_spec.nonneg⟩
  hashes h := by simp [inputs]
  embeds := rfl

lemma Tried.withTokens (h : Tried size r m st) (n : ℤ) :
    Tried size r m { st with numNewTokens := n } :=
  ⟨h.consistent, h.looks, h.hits, h.fits, h.hashes, h.embeds⟩

lemma Tried.look {m' : EncoderCacheManager} {hits : List String} (h : Tried size r m st)
    (hm' : m'.Consistent size) (hlooks : Looks r st.manager m')
    (hsl : st.manager.numFreeSlots ≤ m'.numFreeSlots)
    (hhits : ∀ x ∈ hits, m'.References x r.requestId) :
    Tried size r m { st with manager := m', hits := hits } where
  consistent := hm'
  looks := h.looks.trans hlooks
  hits := hhits
  fits := h.fits.mono hlooks.absent hsl
  __ := h

lemma Tried.reserve {st' : TryState} (h : Tried size r m st) (hf : r.mmFeatures[i]? = some f)
    (hsize : f.getNumEmbeds = size f.identifier) (hnew : f.identifier ∉ st.mmHashesToSchedule)
    (hnone : st.manager.cached.lookup f.identifier = none)
    (hroom : (f.getNumEmbeds : ℤ) + st.numEmbedsToSchedule ≤ st.manager.numFreeSlots)
    (hmanager : st'.manager = st.manager) (hhits : st'.hits = st.hits)
    (hhs : st'.mmHashesToSchedule = f.identifier :: st.mmHashesToSchedule)
    (hembeds : st'.numEmbedsToSchedule = st.numEmbedsToSchedule + f.getNumEmbeds)
    (hperm : st'.inputs.Perm (i :: st.inputs)) : Tried size r m st' := by
  have hid := EncoderRequest.identifierOf_eq hf
  have hmap :
    (st'.inputs.map r.identifierOf).Perm (f.identifier :: st.inputs.map r.identifierOf) := by
    have := hperm.map r.identifierOf
    rwa [map_cons, hid] at this
  have hsum : ((st'.inputs.map r.identifierOf).map size).sum =
      f.getNumEmbeds + ((st.inputs.map r.identifierOf).map size).sum := by
    rw [(hmap.map size).sum_eq, map_cons, sum_cons, hsize]
  have hmem : ∀ j ∈ st'.inputs, j = i ∨ j ∈ st.inputs :=
    fun j hj => mem_cons.mp (hperm.mem_iff.mp hj)
  exact
    { consistent := hmanager ▸ h.consistent
      looks := hmanager ▸ h.looks
      hits := by rw [hmanager, hhits]; exact h.hits
      fits :=
        { lt := fun j hj => by
            rcases hmem j hj with rfl | hj
            · exact lt_of_getElem? hf
            · exact h.fits.lt j hj
          nodup :=
            hmap.nodup_iff.mpr (nodup_cons.mpr ⟨fun hin => hnew ((h.hashes _).mpr hin),
              h.fits.nodup⟩)
          absent := fun j hj => by
            rw [hmanager]
            rcases hmem j hj with rfl | hj
            · rw [hid, hnone]
            · exact h.fits.absent j hj
          room := by
            rw [hsum, hmanager, ← h.embeds]
            push_cast
            exact hroom }
      hashes := fun x => by rw [hhs, hmap.mem_iff, mem_cons, mem_cons, h.hashes]
      embeds := by
        rw [hembeds, hsum, h.embeds]
        omega }

lemma getEmbedsIndicesInRange_cases (f : EncoderInput) (x y : ℤ) :
    (∃ p, f.getEmbedsIndicesInRange x y = .ok p) ∨
      ∃ t, f.getEmbedsIndicesInRange x y = .error (.indexError t) := by
  have hbef : ∀ (mask : List Bool) (i : ℤ), (∃ p, EncoderInput.embedsBefore mask i = .ok p) ∨
      ∃ t, EncoderInput.embedsBefore mask i = .error (.indexError t) := by
    intro mask i
    unfold EncoderInput.embedsBefore
    split
    · exact .inl ⟨_, rfl⟩
    split
    · exact .inl ⟨_, rfl⟩
    · exact .inr ⟨_, rfl⟩
  unfold EncoderInput.getEmbedsIndicesInRange
  split
  · exact .inl ⟨_, rfl⟩
  rename_i mask _
  rcases hbef mask x with ⟨p, hp⟩ | ⟨t, ht⟩
  · rcases hbef mask y with ⟨q, hq⟩ | ⟨t, ht⟩
    · exact .inl ⟨_, by rw [hp, ok_bind, hq, ok_bind]⟩
    · exact .inr ⟨t, by rw [hp, ok_bind, ht]; rfl⟩
  · exact .inr ⟨t, by rw [ht]; rfl⟩

/-- The loop keeps `Tried`, or fails at an index outside the features. -/
lemma Tried.loop {is : List ℕ} (hsized : r.Sized size) (h : Tried size r m st) :
    (∃ st', loop a r is st = .ok st' ∧ Tried size r m st') ∨
      ∃ t, loop a r is st = .error (.indexError t) := by
  induction is generalizing st with
  | nil => exact .inl ⟨st, rfl, h⟩
  | cons i is ih =>
    rw [TryState.loop]
    cases hf : r.mmFeatures[i]? with
    | none => exact .inr ⟨_, by rw [EncoderRequest.mmFeature, hf]; rfl⟩
    | some f =>
      rw [mmFeature_eq hf, ok_bind]
      split
      · exact ih h
      rename_i hnew
      rcases h.consistent.checkAndUpdateCache hf with
        ⟨hnone, hrun⟩ | ⟨refs, m1, hlk, hrun, hm1, hcached, hids, hsl, hfreed, hcache⟩
      · rw [hrun, ok_bind]
        dsimp only
        rw [if_neg Bool.false_ne_true]
        split
        · exact .inl ⟨_, rfl, h.withTokens _⟩
        obtain ⟨fits, m2, hcan, hm2, hevicts, hroom⟩ :=
          h.consistent.canAllocate st.encoderComputeBudget st.numEmbedsToSchedule hf
        rw [hcan, ok_bind]
        have hlooks := hevicts.looks r
        have h2 : Tried size r m { st with manager := m2 } :=
          h.look hm2 hlooks hevicts.slots fun x hx => hlooks.kept x _ (h.hits x hx)
        dsimp only
        split
        · exact .inl ⟨_, rfl, h2.withTokens _⟩
        rename_i hfits
        have hfits : fits = true := by simpa using hfits
        have hsize := hsized f (mem_of_getElem? hf)
        have hnone2 := hlooks.absent _ hnone
        rcases getEmbedsIndicesInRange_cases f (max 0 (a.numComputedTokens - f.offset))
          (min (f.mmPosition.length : ℤ) (a.numComputedTokens + st.numNewTokens - f.offset)) with
          ⟨p, hp⟩ | ⟨t, ht⟩
        · rw [hp, ok_bind]
          split
          · exact ih h2
          split
          · refine ih (h2.reserve hf hsize hnew hnone2 (hroom hfits) rfl rfl rfl rfl ?_)
            show (st.encoderInputsToSchedule ++ (st.externalLoadEncoderInput ++ [i])).Perm
              (i :: st.inputs)
            rw [← append_assoc]
            exact perm_append_singleton i _
          refine ih (h2.reserve hf hsize hnew hnone2 (hroom hfits) rfl rfl rfl rfl ?_)
          show (st.encoderInputsToSchedule ++ [i] ++ st.externalLoadEncoderInput).Perm
            (i :: st.inputs)
          exact (perm_append_singleton i _).append_right _
        · exact .inr ⟨t, by rw [ht]; rfl⟩
      rw [hrun, ok_bind]
      dsimp only
      rw [if_pos rfl]
      obtain ⟨hlooks, href⟩ := looks_of_hit hf hlk hcached hids hcache hfreed
      refine ih (h.look hm1 hlooks (le_of_eq hsl.symm) fun x hx => ?_)
      rcases mem_cons.mp hx with rfl | hx
      · exact href
      · exact hlooks.kept x _ (h.hits x hx)

end TryState

namespace EncoderCacheManager

variable {m : EncoderCacheManager} {size : String → ℕ} {r : EncoderRequest} {a : TryArgs}

lemma Consistent.trySchedule (hm : m.Consistent size) (hsized : r.Sized size) :
    (∃ st, m.trySchedule r a = .ok st ∧ TryState.Tried size r m st) ∨
      ∃ t, m.trySchedule r a = .error (.indexError t) := by
  unfold EncoderCacheManager.trySchedule
  split
  · exact .inl ⟨_, rfl, .start hm⟩
  · exact (TryState.Tried.start hm).loop hsized

end EncoderCacheManager

end Vllm
