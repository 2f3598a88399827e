import Vllm.Encoder.EncoderCache

/-! # Slots and references of the encoder cache -/

namespace Vllm.EncoderCacheManager

open List AList Dict EncoderCacheManager

variable {m m' : EncoderCacheManager} {size : String → ℕ} {r : EncoderRequest} {i : ℕ}
  {f : EncoderInput}
  {m₁ m₂ m₃ : EncoderCacheManager} {hs : List String} (hf : r.mmFeatures[i]? = some f)

include hf in
lemma mmFeature_eq : r.mmFeature i = .ok f := by rw [EncoderRequest.mmFeature, hf]

/-- `hs` lists the cached items without references. -/
structure Unreferenced (cached : Dict String (Finset String)) (hs : List String) : Prop where
  nodup : hs.Nodup
  mem_iff : ∀ h, h ∈ hs ↔ cached.lookup h = some ∅

section unreferenced

variable {cached : Dict String (Finset String)} {h : String} {refs : Finset String}
  (hl : Unreferenced cached hs)
include hl

lemma Unreferenced.insert (hrefs : refs ≠ ∅) :
    Unreferenced (cached.insert h refs) (hs.erase h) := by
  refine ⟨hl.nodup.erase h, fun h' => ?_⟩
  rw [hl.nodup.mem_erase_iff, hl.mem_iff]
  rcases eq_or_ne h' h with rfl | hne
  · simp [hrefs]
  · simp [hne, lookup_insert_ne hne]

lemma Unreferenced.erase : Unreferenced (cached.erase h) (hs.erase h) := by
  refine ⟨hl.nodup.erase h, fun h' => ?_⟩
  rw [hl.nodup.mem_erase_iff, hl.mem_iff]
  rcases eq_or_ne h' h with rfl | hne
  · simp
  · simp [hne, lookup_erase_ne hne]

lemma Unreferenced.release (hnot : h ∉ hs) :
    Unreferenced (cached.insert h ∅) (hs ++ [h]) := by
  refine ⟨nodup_append_comm.mp (nodup_cons.mpr ⟨hnot, hl.nodup⟩), fun h' => ?_⟩
  rw [mem_append, hl.mem_iff]
  rcases eq_or_ne h' h with rfl | hne
  · simp
  · simp [hne, lookup_insert_ne hne]

end unreferenced

/-- The counters count the slots of cached and freeable items; freeable are the cached ones without
references. -/
structure Accounts (size : String → ℕ) (hs : List String) (m : EncoderCacheManager) : Prop where
  free : m.numFreeSlots = m.cacheSize - Dict.keyTotal size m.cached
  nonneg : 0 ≤ m.numFreeSlots
  freeable : m.numFreeableSlots = m.numFreeSlots + (hs.map size).sum
  entries : m.freeable = hs.map fun h => (h, size h)
  unreferenced : Unreferenced m.cached hs

variable (size)

/-- Every method keeps it and does not raise. -/
def Consistent (m : EncoderCacheManager) : Prop := ∃ hs, Accounts size hs m

lemma consistent_init (cacheSize : ℕ) : Consistent size (init cacheSize) := by
  refine ⟨[], ?_, ?_, ?_, rfl, nodup_nil, fun h => ?_⟩ <;> simp [init, keyTotal]

variable {size}

lemma Consistent.reset (m : EncoderCacheManager) : Consistent size m.reset := by
  refine ⟨[], ?_, ?_, ?_, rfl, List.nodup_nil, fun h => ?_⟩ <;>
    simp [EncoderCacheManager.reset, Dict.keyTotal]

lemma filter_entries (size : String → ℕ) (hnd : hs.Nodup) (h : String) :
    (hs.map fun h => (h, size h)).filter (·.1 ≠ h) = (hs.erase h).map fun h => (h, size h) := by
  rw [hnd.erase_eq_filter, List.filter_map]
  congr 2
  funext h'
  simp [bne, Bool.beq_eq_decide_eq]

variable (hm : Consistent size m)

include hm in
lemma Consistent.refer {refs : Finset String} {h rid : String}
    (hlk : m.cached.lookup h = some refs) :
    ∃ k, m.unfree h refs = .ok k ∧ Consistent size (k.refer rid h i refs) ∧
      k = { m with freeable := k.freeable, numFreeableSlots := k.numFreeableSlots } := by
  obtain ⟨hs, hm⟩ := hm
  have hl := hm.unreferenced
  have hfree :
    m.numFreeSlots = m.cacheSize - (keyTotal size (m.cached.insert h (insert rid refs)) : ℕ) := by
    rw [keyTotal_insert_of_some size (by simp [hlk]), hm.free]
  have hrefers : Unreferenced (m.cached.insert h (insert rid refs)) (hs.erase h) :=
    hl.insert (Finset.insert_ne_empty rid refs)
  unfold unfree
  split
  next hrefs =>
    have hmem : h ∈ hs := (hl.mem_iff h).mpr (by rw [hlk, hrefs])
    have hpop : m.popFreeable h = .ok { m with
        freeable := m.freeable.filter (·.1 ≠ h)
        numFreeableSlots := m.numFreeableSlots - size h } := by
      rw [popFreeable, hm.entries, lookup_graph size hmem]
    refine ⟨_, hpop, ⟨hs.erase h, hfree, hm.nonneg, ?_, ?_, hrefers⟩, rfl⟩
    · have h1 := hm.freeable
      have h2 := sum_map_erase size hmem
      show m.numFreeableSlots - size h = m.numFreeSlots + ((hs.erase h).map size).sum
      omega
    · exact hm.entries ▸ filter_entries size hl.nodup h
  rename_i hrefs
  have hnot : h ∉ hs := by
    rw [hl.mem_iff, hlk]
    exact fun heq => hrefs (Option.some.inj heq)
  rw [erase_of_not_mem hnot] at hrefers
  exact ⟨m, rfl, ⟨hs, hfree, hm.nonneg, hm.freeable, hm.entries, hrefers⟩, rfl⟩

include hf in
include hm in
lemma Consistent.checkAndUpdateCache :
    (m.cached.lookup f.identifier = none ∧ m.checkAndUpdateCache r i = .ok (false, m)) ∨
    ∃ refs m', m.cached.lookup f.identifier = some refs ∧
    m.checkAndUpdateCache r i = .ok (true, m') ∧
      Consistent size m' ∧ m'.cached = m.cached.insert f.identifier (insert r.requestId refs) ∧
      m'.requestCachedIds =
        m.requestCachedIds.insert r.requestId (insert i (m.getCachedInputIds r.requestId)) ∧
      m'.numFreeSlots = m.numFreeSlots ∧ m'.freed = m.freed ∧ m'.cacheSize = m.cacheSize := by
  cases hlk : m.cached.lookup f.identifier with
  | none =>
    exact .inl ⟨rfl, by rw [EncoderCacheManager.checkAndUpdateCache, mmFeature_eq hf, ok_bind, hlk]⟩
  | some refs =>
    obtain ⟨k, hk, hcons, heq⟩ : ∃ k, m.unfree f.identifier refs = .ok k ∧
        Consistent size (k.refer r.requestId f.identifier i refs) ∧ k = { m with
          freeable := k.freeable, numFreeableSlots := k.numFreeableSlots } := hm.refer hlk
    refine .inr ⟨refs, k.refer r.requestId f.identifier i refs, rfl, ?_, hcons, ?_⟩
    · rw [EncoderCacheManager.checkAndUpdateCache, mmFeature_eq hf, ok_bind, hlk]
      dsimp only
      rw [hk, ok_bind]
    · rw [heq]
      exact ⟨rfl, rfl, rfl, rfl, rfl⟩

/-! ## Eviction -/

/-- Only items without references were evicted. -/
structure Evicts (m m' : EncoderCacheManager) : Prop where
  cacheSize : m'.cacheSize = m.cacheSize
  ids : m'.requestCachedIds = m.requestCachedIds
  slots : m.numFreeSlots ≤ m'.numFreeSlots
  kept : ∀ h refs, refs ≠ ∅ → m.cached.lookup h = some refs → m'.cached.lookup h = some refs
  sub : ∀ h refs, m'.cached.lookup h = some refs → m.cached.lookup h = some refs
  freed : ∀ h, h ∈ m'.freed ↔ h ∈ m.freed ∨ (m.cached.lookup h ≠ none ∧ m'.cached.lookup h = none)

lemma Evicts.refl (m : EncoderCacheManager) : Evicts m m where
  cacheSize := rfl
  ids := rfl
  slots := le_rfl
  kept _ _ _ h := h
  sub _ _ h := h
  freed h := by
    refine ⟨.inl, ?_⟩
    rintro (hfreed | ⟨hne, heq⟩)
    · exact hfreed
    · exact absurd heq hne

lemma Evicts.trans (h : Evicts m₁ m₂) (h' : Evicts m₂ m₃) : Evicts m₁ m₃ where
  cacheSize := h'.cacheSize.trans h.cacheSize
  ids := h'.ids.trans h.ids
  slots := h.slots.trans h'.slots
  kept x refs hne hx := h'.kept x refs hne (h.kept x refs hne hx)
  sub x refs hx := h.sub x refs (h'.sub x refs hx)
  freed x := by
    rw [h'.freed, h.freed]
    constructor
    · rintro ((hfreed | ⟨hne, heq⟩) | ⟨hne, heq⟩)
      · exact .inl hfreed
      · refine .inr ⟨hne, ?_⟩
        by_contra hsome
        obtain ⟨refs, hrefs⟩ := Option.ne_none_iff_exists'.mp hsome
        rw [h'.sub x refs hrefs] at heq
        cases heq
      · obtain ⟨refs, hrefs⟩ := Option.ne_none_iff_exists'.mp hne
        exact .inr ⟨by rw [h.sub x refs hrefs]; simp, heq⟩
    rintro (hfreed | ⟨hne, heq⟩)
    · exact .inl (.inl hfreed)
    by_cases hmid : m₂.cached.lookup x = none
    · exact .inl (.inr ⟨hne, hmid⟩)
    · exact .inr ⟨hmid, heq⟩

lemma Accounts.evict {h : String} {n : ℕ} {rest : List (String × ℕ)} (hm : Accounts size hs m)
    (hlist : m.freeable = (h, n) :: rest) : let m' := { m with
      freeable := rest
      cached := m.cached.erase h
      freed := m.freed ++ [h]
      numFreeSlots := m.numFreeSlots + n }
    m.cached.lookup h = some ∅ ∧ Consistent size m' ∧ Evicts m m' := by
  intro m'
  obtain ⟨hfree, hnonneg, hfreeable, hent, hl⟩ := hm
  obtain ⟨_, hs, rfl, heq, rfl⟩ := map_eq_cons_iff.mp (hent.symm.trans hlist)
  cases heq
  have hlk : m.cached.lookup h = some ∅ := (hl.mem_iff h).mp mem_cons_self
  have htotal := keyTotal_erase_add size (d := m.cached) (k := h) (by simp [hlk])
  have herase : ∀ h', h' ≠ h → (m.cached.erase h).lookup h' = m.cached.lookup h' :=
    fun h' hne => lookup_erase_ne hne
  have hrest : Unreferenced (m.cached.erase h) hs := by simpa using hl.erase (h := h)
  rw [map_cons, sum_cons] at hfreeable
  refine ⟨hlk, ⟨hs, ?_, ?_, ?_, rfl, hrest⟩, rfl, rfl, ?_, fun h' refs hrefs hx => ?_,
    fun h' refs hx => ?_, fun h' => ?_⟩
  · show m.numFreeSlots + size h = m.cacheSize - (keyTotal size (m.cached.erase h) : ℕ)
    omega
  · show 0 ≤ m.numFreeSlots + (size h : ℤ)
    omega
  · show m.numFreeableSlots = m.numFreeSlots + size h + (hs.map size).sum
    omega
  · show m.numFreeSlots ≤ m.numFreeSlots + size h
    omega
  · refine (herase h' ?_).trans hx
    rintro rfl
    exact hrefs (Option.some.inj (hx.symm.trans hlk))
  · have hx : (m.cached.erase h).lookup h' = some refs := hx
    rwa [herase h' fun heq => by subst heq; simp at hx] at hx
  show h' ∈ m.freed ++ [h] ↔ h' ∈ m.freed ∨
    (m.cached.lookup h' ≠ none ∧ (m.cached.erase h).lookup h' = none)
  rcases eq_or_ne h' h with rfl | hne
  · simp [hlk]
  · simp [hne, herase h' hne]

include hm

lemma Consistent.evictLoop {numEmbeds : ℤ} {l : List (String × ℕ)}
    (hlist : m.freeable = l) (hle : numEmbeds ≤ m.numFreeableSlots) :
    ∃ m', evictLoop numEmbeds l m = .ok m' ∧ Consistent size m' ∧ Evicts m m' ∧
    numEmbeds ≤ m'.numFreeSlots := by
  induction l generalizing m with
  | nil =>
    obtain ⟨hs, hm⟩ := hm
    have hfree : numEmbeds ≤ m.numFreeSlots := by
      have h1 := hm.freeable
      have h2 : hs = [] := map_eq_nil_iff.mp (hm.entries.symm.trans hlist)
      rw [h2] at h1
      simp at h1
      omega
    exact ⟨m, if_neg (not_lt.mpr hfree), ⟨hs, hm⟩, .refl m, hfree⟩
  | cons e rest ih =>
    obtain ⟨h, n⟩ := e
    by_cases hfree : numEmbeds > m.numFreeSlots
    · obtain ⟨hlk, hcons, hevicts⟩ := hm.choose_spec.evict hlist
      obtain ⟨m', hloop, hcons', hevicts', hsl⟩ := ih hcons rfl hle
      refine ⟨m', ?_, hcons', hevicts.trans hevicts', hsl⟩
      rw [evictLoop, if_pos hfree, if_neg (by simp [hlk])]
      exact hloop
    · exact ⟨m, if_neg hfree, hm, .refl m, not_lt.mp hfree⟩

lemma Consistent.canAllocate (budget : ℤ) (reserved : ℕ) (hf : r.mmFeatures[i]? = some f) :
    ∃ fits m', m.canAllocate r i budget reserved = .ok (fits, m') ∧
      Consistent size m' ∧ Evicts m m' ∧
      (fits = true → (f.getNumEmbeds : ℤ) + reserved ≤ m'.numFreeSlots) := by
  rw [EncoderCacheManager.canAllocate, mmFeature_eq hf, ok_bind]
  split
  · exact ⟨false, m, rfl, hm, .refl m, fun h => by cases h⟩
  dsimp only
  split
  next hfree => exact ⟨true, m, rfl, hm, .refl m, fun _ => hfree⟩
  split
  · exact ⟨false, m, rfl, hm, .refl m, fun h => by cases h⟩
  rename_i hle
  obtain ⟨m', hloop, hcons, hevicts, hsl⟩ := hm.evictLoop rfl (not_lt.mp hle)
  exact ⟨true, m', by rw [hloop, ok_bind], hcons, hevicts, fun _ => hsl⟩

omit hm

include hf in
include hm in
lemma Consistent.allocate
    (hsize : f.getNumEmbeds = size f.identifier) (hnone : m.cached.lookup f.identifier = none)
    (hle : (f.getNumEmbeds : ℤ) ≤ m.numFreeSlots) :
    ∃ m', m.allocate r i = .ok m' ∧ Consistent size m' ∧ m'.cacheSize = m.cacheSize ∧
      m'.cached = m.cached.insert f.identifier {r.requestId} ∧ m'.requestCachedIds =
        m.requestCachedIds.insert r.requestId (insert i (m.getCachedInputIds r.requestId)) ∧
      m'.numFreeSlots = m.numFreeSlots - f.getNumEmbeds ∧ m'.freed = m.freed := by
  obtain ⟨hs, hm⟩ := hm
  have hfreeable := hm.freeable
  have hle' : (f.getNumEmbeds : ℤ) ≤ m.numFreeableSlots := by omega
  have hrefs : insert r.requestId (((m.cached.lookup f.identifier).getD ∅ : Finset String)) =
    {r.requestId} := by
    rw [hnone]
    rfl
  have hnot : f.identifier ∉ hs := by simp [hm.unreferenced.mem_iff, hnone]
  have hl := hm.unreferenced.insert (h := f.identifier) (Finset.singleton_ne_empty r.requestId)
  have htotal := keyTotal_insert_of_none size hnone {r.requestId}
  refine ⟨{ m.refer r.requestId f.identifier i ((m.cached.lookup f.identifier).getD ∅) with
    numFreeSlots := m.numFreeSlots - f.getNumEmbeds
    numFreeableSlots := m.numFreeableSlots - f.getNumEmbeds }, ?_, ?_, rfl, ?_, rfl, rfl, rfl⟩
  · rw [EncoderCacheManager.allocate, mmFeature_eq hf, ok_bind, pyAssert_pos hle, ok_bind,
      pyAssert_of (decide_eq_true hle'), ok_bind]
  · unfold EncoderCacheManager.refer
    rw [hrefs]
    rw [erase_of_not_mem hnot] at hl
    have hfree := hm.free
    refine ⟨hs, ?_, sub_nonneg.mpr hle, ?_, hm.entries, hl⟩
    · rw [htotal, ← hsize]
      push_cast
      omega
    · show m.numFreeableSlots - f.getNumEmbeds = m.numFreeSlots - f.getNumEmbeds + (hs.map size).sum
      omega
  · exact congrArg (m.cached.insert f.identifier) hrefs

/-! ## Releasing references -/

variable (m)

lemma unlist_eq (rid : String) (i : ℕ) :
    m.unlist rid i = { m with requestCachedIds := (m.unlist rid i).requestCachedIds } := by
  unfold unlist
  split
  · rfl
  · split <;> rfl

lemma getCachedInputIds_unlist (rid rid' : String) (i : ℕ) :
    (m.unlist rid i).getCachedInputIds rid' =
      if rid' = rid then (m.getCachedInputIds rid').erase i else m.getCachedInputIds rid' := by
  unfold unlist
  split
  next hnone =>
    split
    next heq =>
      subst heq
      simp [getCachedInputIds, hnone]
    · rfl
  rename_i ids hids
  split
  next hemp =>
    split
    next heq =>
      subst heq
      simp [getCachedInputIds, hids, hemp]
    next hne => simp [getCachedInputIds, lookup_erase_ne hne]
  split
  next heq =>
    subst heq
    simp [getCachedInputIds, hids]
  next hne => simp [getCachedInputIds, lookup_insert_ne hne]

variable {m}

include hf in
include hm in
/-- Freeing an input keeps the books and drops that input only. -/
lemma Consistent.freeEncoderInput (hsize : f.getNumEmbeds = size f.identifier) :
    ∃ m', m.freeEncoderInput r i = .ok m' ∧ Consistent size m' ∧ m'.cacheSize = m.cacheSize ∧
      m'.numFreeSlots = m.numFreeSlots ∧ m'.freed = m.freed ∧
      (∀ rid', m'.getCachedInputIds rid' = if rid' = r.requestId then
        (m.getCachedInputIds rid').erase i
        else m.getCachedInputIds rid') ∧
      ∀ h, m'.cached.lookup h = if h = f.identifier then
      (m.cached.lookup h).map (·.erase r.requestId)
        else m.cached.lookup h := by
  have hids := fun rid' => getCachedInputIds_unlist m r.requestId rid' i
  -- Unlisting the input changes nothing else.
  obtain ⟨u, hu⟩ : ∃ u, (m.unlist r.requestId i) = { m with requestCachedIds := u } :=
    ⟨_, unlist_eq m _ i⟩
  rw [EncoderCacheManager.freeEncoderInput, mmFeature_eq hf, ok_bind]
  rw [hu] at hids ⊢
  dsimp only
  obtain ⟨hs, hm⟩ := hm
  split
  next hemp =>
    refine ⟨_, rfl, ⟨hs, hm.free, hm.nonneg, hm.freeable, hm.entries, hm.unreferenced⟩, rfl, rfl,
      rfl, hids, fun h => ?_⟩
    split
    next heq =>
      rw [heq]
      cases hlk : m.cached.lookup f.identifier with
      | none => rfl
      | some refs =>
        rw [hlk] at hemp
        obtain rfl : refs = ∅ := hemp
        rfl
    · rfl
  rename_i hne
  obtain ⟨refs, hrefs⟩ : ∃ refs, m.cached.lookup f.identifier = some refs := by
    cases hlk : m.cached.lookup f.identifier with
    | none => simp [hlk] at hne
    | some refs => exact ⟨refs, rfl⟩
  have hrefs' : refs ≠ ∅ := by simpa [hrefs] using hne
  simp only [hrefs, Option.getD_some]
  have hlk : ∀ h, (m.cached.insert f.identifier (refs.erase r.requestId)).lookup h =
      if h = f.identifier then (m.cached.lookup h).map (·.erase r.requestId) else
        m.cached.lookup h := by
    intro h
    split
    next heq => rw [heq, lookup_insert, hrefs]; rfl
    next hne => rw [lookup_insert_ne hne]
  have hfree : m.numFreeSlots =
      m.cacheSize -
        (keyTotal size (m.cached.insert f.identifier (refs.erase r.requestId)) : ℕ) := by
    rw [keyTotal_insert_of_some size (by simp [hrefs]), hm.free]
  have hnot : f.identifier ∉ hs := by simp [hm.unreferenced.mem_iff, hrefs, hrefs']
  split
  next hlast =>
    -- The item becomes freeable.
    have hset : setFreeable { m with
        requestCachedIds := u
        cached :=
          m.cached.insert f.identifier (refs.erase r.requestId) } f.identifier f.getNumEmbeds =
        m.freeable ++ [(f.identifier, f.getNumEmbeds)] := by
      refine if_neg ?_
      rw [hm.entries]
      simpa using hnot
    refine ⟨_, rfl, ⟨hs ++ [f.identifier], hfree, hm.nonneg, ?_, ?_, ?_⟩, rfl, rfl, rfl, hids, hlk⟩
    · have := hm.freeable
      rw [map_append, sum_append, map_singleton, sum_singleton, ← hsize]
      dsimp only
      omega
    · rw [hset, hm.entries, hsize, map_append]
      rfl
    · rw [hlast]
      exact hm.unreferenced.release hnot
  rename_i hmore
  have hl := hm.unreferenced.insert (h := f.identifier) hmore
  rw [erase_of_not_mem hnot] at hl
  exact ⟨_, rfl, ⟨hs, hfree, hm.nonneg, hm.freeable, hm.entries, hl⟩, rfl, rfl, rfl, hids, hlk⟩

/-- Only references of request `rid` were dropped. -/
structure Releases (rid : String) (m m' : EncoderCacheManager) : Prop where
  cacheSize : m'.cacheSize = m.cacheSize
  slots : m'.numFreeSlots = m.numFreeSlots
  freed : m'.freed = m.freed
  others : ∀ rid' ≠ rid, m'.getCachedInputIds rid' = m.getCachedInputIds rid'
  cached : ∀ h, m'.cached.lookup h = m.cached.lookup h ∨
    m'.cached.lookup h = (m.cached.lookup h).map (·.erase rid)

lemma Releases.refl (rid : String) (m : EncoderCacheManager) : Releases rid m m :=
  ⟨rfl, rfl, rfl, fun _ _ => rfl, fun _ => .inl rfl⟩

lemma Releases.trans {rid : String} (h : Releases rid m₁ m₂) (h' : Releases rid m₂ m₃) :
    Releases rid m₁ m₃ where
  cacheSize := h'.cacheSize.trans h.cacheSize
  slots := h'.slots.trans h.slots
  freed := h'.freed.trans h.freed
  others rid' hne := (h'.others rid' hne).trans (h.others rid' hne)
  cached x := by
    rcases h.cached x with hx | hx <;> rcases h'.cached x with hx' | hx'
    · exact .inl (hx'.trans hx)
    · exact .inr (by rw [hx', hx])
    · exact .inr (by rw [hx', hx])
    refine .inr ?_
    rw [hx', hx, Option.map_map]
    congr 1
    funext refs
    exact Finset.erase_idem

include hm in
lemma Consistent.free_inputs {inputIds : List ℕ}
    (hf : ∀ i ∈ inputIds, ∃ f, r.mmFeatures[i]? = some f ∧ f.getNumEmbeds = size f.identifier) :
    ∃ m', m.free r inputIds = .ok m' ∧ Consistent size m' ∧ Releases r.requestId m m' ∧
      ∀ j, j ∈ m'.getCachedInputIds r.requestId ↔ j ∈ m.getCachedInputIds r.requestId ∧
      j ∉ inputIds := by
  unfold free
  induction inputIds generalizing m with
  | nil => exact ⟨m, rfl, hm, .refl _ m, fun j => by simp⟩
  | cons i is ih =>
    obtain ⟨f, hf1, hsize⟩ := hf i mem_cons_self
    obtain ⟨m₁, hrun, hm1, hcache, hsl, hfreed, hids, hlk⟩ := hm.freeEncoderInput hf1 hsize
    obtain ⟨m', hrest, hm', hrel, hids'⟩ := ih hm1 (forall_mem_cons.mp hf).2
    refine ⟨m', ?_, hm', Releases.trans ⟨hcache, hsl, hfreed, fun rid' hne => ?_, fun h => ?_⟩ hrel,
      fun j => ?_⟩
    · rw [foldlM_cons, hrun, ok_bind, hrest]
    · rw [hids, if_neg hne]
    · rw [hlk]
      split
      · exact .inr rfl
      · exact .inl rfl
    rw [hids', hids, if_pos rfl, Finset.mem_erase, mem_cons, not_or]
    constructor
    · rintro ⟨⟨hne, hj⟩, hnot⟩
      exact ⟨hj, hne, hnot⟩
    · rintro ⟨hj, hne, hnot⟩
      exact ⟨⟨hne, hj⟩, hnot⟩

end Vllm.EncoderCacheManager
