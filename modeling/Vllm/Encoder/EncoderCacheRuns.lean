import Vllm.Encoder.EncoderSchedule
import Vllm.Lib.Run

/-!
# The encoder cache over whole runs

`cached` has one reference per request, `request_cached_ids` one entry per input: freeing one of two
inputs of an item drops the only reference.
-/

namespace Vllm

open Machine EncoderCacheManager Finset

/-- The encoder cache with the inputs that `_try_schedule_encoder_inputs` has chosen and not yet
allocated. -/
structure EncoderState where
  manager : EncoderCacheManager
  pending : Option (EncoderRequest × List ℕ) := none
  /-- History only: the request that was last seen with an id. -/
  requests : String → EncoderRequest := fun rid => { requestId := rid }

/-- The calls of the scheduler on the encoder cache. -/
inductive EncoderCall where
  | trySchedule (r : EncoderRequest) (a : TryArgs)
  | allocate
  | freeEncoderInput (r : EncoderRequest) (inputId : ℕ)
  | free (r : EncoderRequest) (inputIds : List ℕ)
  | getFreedMmHashes
  | reset

namespace EncoderState

def start (cacheSize : ℕ) : EncoderState where
  manager := .init cacheSize

variable (s : EncoderState)

def seen (r : EncoderRequest) : EncoderState :=
  { s with requests := Function.update s.requests r.requestId r }

def call : EncoderCall → Py EncoderState
  | .trySchedule r a => do
    let st ← s.manager.trySchedule r a
    .ok { s.seen r with manager := st.manager, pending := some (r, st.inputs) }
  | .allocate =>
    match s.pending with
    | none => .ok s
    | some (r, is) => do
      let m ← s.manager.allocateAll r is
      .ok { s.seen r with manager := m, pending := none }
  | .freeEncoderInput r i => do
    let m ← s.manager.freeEncoderInput r i
    .ok { s.seen r with manager := m }
  | .free r is => do
    let m ← s.manager.free r is
    .ok { s.seen r with manager := m }
  | .getFreedMmHashes => .ok { s with manager := s.manager.getFreedMmHashes.2 }
  | .reset => .ok { s with manager := s.manager.reset }

/-- The request has the items that its cached inputs were allocated for. -/
def Agrees (r : EncoderRequest) : Prop :=
  ∀ j ∈ s.manager.getCachedInputIds r.requestId,
    j < r.mmFeatures.length ∧ r.identifierOf j = (s.requests r.requestId).identifierOf j

/-- Items with equal identifiers have equal sizes, only a listed input is freed alone, `free` takes
the listed inputs in some order. -/
def Issued (size : String → ℕ) (s : EncoderState) : EncoderCall → Prop
  | .trySchedule r _ => r.Sized size ∧ s.Agrees r
  | .allocate => ∀ r is, s.pending = some (r, is) → s.Agrees r
  | .freeEncoderInput r i => r.Sized size ∧ s.Agrees r ∧ i ∈ s.manager.getCachedInputIds r.requestId
  | .free r is => r.Sized size ∧ s.Agrees r ∧ is.Nodup ∧
      ∀ j, j ∈ is ↔ j ∈ s.manager.getCachedInputIds r.requestId
  | .getFreedMmHashes => True
  | .reset => True

/-- An input is freed alone only if the request lists no other of the same item. -/
def NoTwin : EncoderCall → Prop
  | .freeEncoderInput r i => ∀ j ∈ s.manager.getCachedInputIds r.requestId,
      r.identifierOf j = r.identifierOf i → j = i
  | _ => True

/-- What each call keeps: the books of the cache agree, and there is room for what is to be
allocated. -/
structure Sound (size : String → ℕ) (s : EncoderState) : Prop where
  consistent : s.manager.Consistent size
  pending : ∀ r is, s.pending = some (r, is) → r.Sized size ∧ s.manager.Fits size r is

def Listed : Prop :=
  ∀ rid, ∀ j ∈ s.manager.getCachedInputIds rid, j < (s.requests rid).mmFeatures.length ∧
    s.manager.References ((s.requests rid).identifierOf j) rid

variable {size : String → ℕ} {s t : EncoderState} {r : EncoderRequest}

lemma sound_start (size : String → ℕ) (n : ℕ) : Sound size (start n) where
  consistent := consistent_init size n
  pending r is h := by cases h

lemma listed_start (n : ℕ) : Listed (start n) := by
  intro rid j hj
  simp [start, init, getCachedInputIds] at hj

variable {m : EncoderCacheManager}

lemma Listed.seen {p : Option (EncoderRequest × List ℕ)} (h : s.Listed)
    (hothers : ∀ rid ≠ r.requestId, m.getCachedInputIds rid = s.manager.getCachedInputIds rid)
    (hkept : ∀ x, ∀ rid ≠ r.requestId, s.manager.References x rid → m.References x rid)
    (hself : ∀ j ∈ m.getCachedInputIds r.requestId,
      j < r.mmFeatures.length ∧ m.References (r.identifierOf j) r.requestId) :
    Listed { s.seen r with manager := m, pending := p } := by
  intro rid j hj
  rcases eq_or_ne rid r.requestId with rfl | hrid
  · simpa [EncoderState.seen] using hself j hj
  have hreq : (s.seen r).requests rid = s.requests rid := Function.update_of_ne hrid _ _
  rw [hreq]
  rw [hothers rid hrid] at hj
  exact ⟨(h rid j hj).1, hkept _ rid hrid (h rid j hj).2⟩

lemma Listed.self (h : s.Listed) (hagrees : s.Agrees r) :
    ∀ j ∈ s.manager.getCachedInputIds r.requestId,
    j < r.mmFeatures.length ∧ s.manager.References (r.identifierOf j) r.requestId := by
  intro j hj
  rw [(hagrees j hj).2]
  exact ⟨(hagrees j hj).1, (h _ j hj).2⟩

section

variable (h : Sound size s)
include h

lemma Sound.withManager {q : String → EncoderRequest} (hm : m.Consistent size)
    (habsent : ∀ x, s.manager.cached.lookup x = none → m.cached.lookup x = none)
    (hsl : s.manager.numFreeSlots ≤ m.numFreeSlots) :
    Sound size { s with manager := m, requests := q } where
  consistent := hm
  pending r is hp := ⟨(h.pending r is hp).1, (h.pending r is hp).2.mono habsent hsl⟩

/-! ## The calls -/

lemma trySchedule_step {a : TryArgs} (hsized : r.Sized size) (hagrees : s.Agrees r) :
    (∃ t, s.call (.trySchedule r a) = .ok t ∧ Sound size t ∧ (s.Listed → t.Listed)) ∨
      ∃ text, s.call (.trySchedule r a) = .error (.indexError text) := by
  rcases h.consistent.trySchedule (a := a) hsized with ⟨st, hst, htried⟩ | ⟨text, herr⟩
  · refine .inl ⟨_, by rw [call, hst, ok_bind], ⟨htried.consistent, fun q is hp => ?_⟩,
      fun hl => ?_⟩
    · cases hp
      exact ⟨hsized, htried.fits⟩
    refine hl.seen htried.looks.others (fun x rid _ => htried.looks.kept x rid) fun j hj => ?_
    rcases htried.looks.listed j hj with hj | ⟨f, hf, href⟩
    · exact ⟨(hl.self hagrees j hj).1, htried.looks.kept _ _ (hl.self hagrees j hj).2⟩
    · rw [EncoderRequest.identifierOf_eq hf]
      exact ⟨lt_of_getElem? hf, href⟩
  · exact .inr ⟨text, by rw [call, herr]; rfl⟩

lemma allocate_step (hagrees : ∀ r is, s.pending = some (r, is) → s.Agrees r) :
    ∃ t, s.call .allocate = .ok t ∧ Sound size t ∧ (s.Listed → t.Listed) := by
  cases hp : s.pending with
  | none => exact ⟨s, by rw [call, hp], h, id⟩
  | some p =>
    obtain ⟨r, is⟩ := p
    obtain ⟨hsized, hfits⟩ := h.pending r is hp
    obtain ⟨m, hrun, hm, hall⟩ := h.consistent.allocateAll hsized hfits
    refine ⟨{ s.seen r with manager := m, pending := none }, ?_, ⟨hm, fun q is hp => by cases hp⟩,
      fun hl => ?_⟩
    · rw [call, hp]
      dsimp only
      rw [hrun, ok_bind]
    -- The new items had no references before.
    have hkept : ∀ x rid, s.manager.References x rid → m.References x rid := by
      rintro x rid ⟨refs, hlk, hmem⟩
      refine ⟨refs, ?_, hmem⟩
      rw [hall.cached, if_neg, hlk]
      intro hx
      obtain ⟨i, hi, rfl⟩ := List.mem_map.mp hx
      rw [hfits.absent i hi] at hlk
      cases hlk
    refine hl.seen hall.others (fun x rid _ => hkept x rid) fun j hj => ?_
    rcases (hall.listed j).mp hj with hj | hj
    · have hself := hl.self (hagrees r is hp) j hj
      exact ⟨hself.1, hkept _ _ hself.2⟩
    · refine ⟨hfits.lt j hj, {r.requestId}, ?_, mem_singleton_self _⟩
      rw [hall.cached, if_pos (List.mem_map_of_mem hj)]

lemma freeEncoderInput_step {i : ℕ} (hsized : r.Sized size) (hagrees : s.Agrees r)
    (hi : i ∈ s.manager.getCachedInputIds r.requestId) :
    ∃ t, s.call (.freeEncoderInput r i) = .ok t ∧ Sound size t ∧
      (s.NoTwin (.freeEncoderInput r i) → s.Listed → t.Listed) := by
  obtain ⟨f, hf⟩ : ∃ f, r.mmFeatures[i]? = some f := ⟨_, List.getElem?_eq_getElem (hagrees i hi).1⟩
  have hid := EncoderRequest.identifierOf_eq hf
  obtain ⟨m, hrun, hm, -, hsl, -, hids, hcached⟩ :=
    h.consistent.freeEncoderInput hf (hsized f (List.mem_of_getElem? hf))
  refine ⟨_, by rw [call, hrun, ok_bind], ?_, fun htwin hl => ?_⟩
  · refine h.withManager hm (fun x hx => ?_) hsl.ge
    rw [hcached, hx]
    split <;> rfl
  refine hl.seen (fun rid hrid => by rw [hids, if_neg hrid]) ?_ fun j hj => ?_
  · rintro x rid hrid ⟨refs, hlk, hmem⟩
    by_cases hx : x = f.identifier
    · exact ⟨refs.erase r.requestId, by rw [hcached, if_pos hx, hlk]; rfl,
        mem_erase.mpr ⟨hrid, hmem⟩⟩
    · exact ⟨refs, by rw [hcached, if_neg hx, hlk], hmem⟩
  rw [hids, if_pos rfl, mem_erase] at hj
  obtain ⟨hlt, refs, hlk, hmem⟩ := hl.self hagrees j hj.2
  -- The other listed inputs are other items.
  have hx : r.identifierOf j ≠ f.identifier := fun heq => hj.1 (htwin j hj.2 (heq.trans hid.symm))
  exact ⟨hlt, refs, by rw [hcached, if_neg hx, hlk], hmem⟩

lemma free_step {is : List ℕ} (hsized : r.Sized size) (hagrees : s.Agrees r)
    (his : ∀ j, j ∈ is ↔ j ∈ s.manager.getCachedInputIds r.requestId) :
    ∃ t, s.call (.free r is) = .ok t ∧ Sound size t ∧ (s.Listed → t.Listed) := by
  have hfeatures : ∀ i ∈ is, ∃ f, r.mmFeatures[i]? = some f ∧
    f.getNumEmbeds = size f.identifier := by
    intro i hi
    have hlt := (hagrees i ((his i).mp hi)).1
    exact ⟨_, List.getElem?_eq_getElem hlt, hsized _ (List.getElem_mem hlt)⟩
  obtain ⟨m, hrun, hm, hrel, hids⟩ := h.consistent.free_inputs hfeatures
  refine ⟨_, by rw [call, hrun, ok_bind], ?_, fun hl => ?_⟩
  · refine h.withManager hm (fun x hx => ?_) hrel.slots.ge
    rcases hrel.cached x with heq | heq
    · rw [heq, hx]
    · rw [heq, hx]
      rfl
  refine hl.seen hrel.others ?_ fun j hj => ?_
  · rintro x rid hrid ⟨refs, hlk, hmem⟩
    rcases hrel.cached x with heq | heq
    · exact ⟨refs, heq.trans hlk, hmem⟩
    · exact ⟨refs.erase r.requestId, by rw [heq, hlk]; rfl, mem_erase.mpr ⟨hrid, hmem⟩⟩
  -- Nothing is listed for the request any more.
  obtain ⟨hj, hnot⟩ := (hids j).mp hj
  exact absurd ((his j).mpr hj) hnot

lemma reset_step :
    Sound size { s with manager := s.manager.reset } ∧
    Listed { s with manager := s.manager.reset } := by
  refine ⟨h.withManager (.reset s.manager) (fun x _ => rfl) ?_, fun rid j hj => ?_⟩
  · have := h.consistent.choose_spec.free
    show s.manager.numFreeSlots ≤ (s.manager.cacheSize : ℤ)
    omega
  · simp [EncoderCacheManager.reset, getCachedInputIds] at hj

variable {c : EncoderCall}

lemma Sound.call (hok : s.Issued size c) :
    (∃ t, s.call c = .ok t ∧ Sound size t ∧ (s.NoTwin c → s.Listed → t.Listed)) ∨
      ∃ text, s.call c = .error (.indexError text) := by
  cases c with
  | trySchedule r a =>
    rcases trySchedule_step h hok.1 hok.2 with ⟨t, ht, hs, hl⟩ | herr
    · exact .inl ⟨t, ht, hs, fun _ => hl⟩
    · exact .inr herr
  | allocate =>
    obtain ⟨t, ht, hs, hl⟩ := allocate_step h hok
    exact .inl ⟨t, ht, hs, fun _ => hl⟩
  | freeEncoderInput r i => exact .inl (freeEncoderInput_step h hok.1 hok.2.1 hok.2.2)
  | free r is =>
    obtain ⟨t, ht, hs, hl⟩ := free_step h hok.1 hok.2.1 hok.2.2.2
    exact .inl ⟨t, ht, hs, fun _ => hl⟩
  | getFreedMmHashes =>
    have hm : s.manager.getFreedMmHashes.2.Consistent size :=
      h.consistent.imp fun _ hm => ⟨hm.free, hm.nonneg, hm.freeable, hm.entries, hm.unreferenced⟩
    exact .inl ⟨_, rfl, h.withManager hm (fun _ hx => hx) le_rfl, fun _ hl => hl⟩
  | reset => exact .inl ⟨_, rfl, (reset_step h).1, fun _ _ => (reset_step h).2⟩

lemma Sound.of_call (hok : s.Issued size c) (ht : s.call c = .ok t) :
    Sound size t ∧ (s.NoTwin c → s.Listed → t.Listed) := by
  rcases h.call hok with ⟨t', ht', hs⟩ | ⟨text, herr⟩
  · rw [ht] at ht'
    cases ht'
    exact hs
  · rw [ht] at herr
    cases herr

end

/-- After every run the counters are right, `freeable` holds the cached items without references,
and the next call does not raise. If an input is only freed when the request lists no other input of
the item, the items of all listed inputs are cached with a reference of the request. -/
theorem references_consistent {n : ℕ} {cs : List EncoderCall}
    (hrun : Run call (Issued size) (start n) cs s) :
    s.manager.numFreeSlots = s.manager.cacheSize - Dict.keyTotal size s.manager.cached ∧
    s.manager.numFreeableSlots =
      s.manager.numFreeSlots + (s.manager.freeable.map fun e => size e.1).sum ∧
    (s.manager.freeable.map Prod.fst).Nodup ∧
    (∀ h, h ∈ s.manager.freeable.map Prod.fst ↔ s.manager.cached.lookup h = some ∅) ∧
    (∀ c, s.Issued size c → (∃ t, s.call c = .ok t) ∨
      ∃ text, s.call c = .error (.indexError text)) ∧
    (Run call (fun s c => Issued size s c ∧ NoTwin s c) (start n) cs s →
      ∀ h, s.manager.cached.lookup h = some ∅ →
        ∀ rid, ∀ j ∈ s.manager.getCachedInputIds rid, (s.requests rid).identifierOf j ≠ h) := by
  have hs : Sound size s :=
    hrun.invariant (fun _ _ _ hs hok hu => (hs.of_call hok hu).1) (sound_start size n)
  obtain ⟨listed, hm⟩ := hs.consistent
  have hkeys : s.manager.freeable.map Prod.fst = listed := by simp [hm.entries, Function.comp_def]
  have hsizes : s.manager.freeable.map (fun e => size e.1) = listed.map size := by
    rw [← hkeys, List.map_map]
    rfl
  rw [hkeys, hsizes]
  refine ⟨hm.free, hm.freeable, hm.unreferenced.nodup, hm.unreferenced.mem_iff,
    fun c hok => ?_, fun hrun h hempty rid j hj heq => ?_⟩
  · rcases hs.call hok with ⟨t, ht, -⟩ | herr
    · exact .inl ⟨t, ht⟩
    · exact .inr herr
  have hboth : Sound size s ∧ s.Listed := by
    refine hrun.invariant (P := fun s => Sound size s ∧ s.Listed) (fun u c v hu hok hv => ?_)
      ⟨sound_start size n, listed_start n⟩
    have hcall := hu.1.of_call hok.1 hv
    exact ⟨hcall.1, hcall.2 hok.2 hu.2⟩
  obtain ⟨refs, hlookup, hmem⟩ := (hboth.2 rid j hj).2
  rw [heq, hempty] at hlookup
  cases hlookup
  exact notMem_empty _ hmem

/-- A request with one item at two places. -/
def twice : EncoderRequest where
  requestId := "a"
  mmFeatures := [{ mmPosition := { offset := 0, length := 2 }, identifier := "x" },
    { mmPosition := { offset := 2, length := 2 }, identifier := "x" }]

def firstChunk : TryArgs := { numComputedTokens := 0, numNewTokens := 1, encoderComputeBudget := 4 }

def secondChunk :
    TryArgs := { numComputedTokens := 1, numNewTokens := 2, encoderComputeBudget := 4 }

lemma sized_twice : twice.Sized fun _ => 2 := by
  unfold EncoderRequest.Sized
  decide

/-- With only one of its two inputs of an item cached, freeing that input leaves the request no
cached input of the item. -/
theorem freed_once_references :
    ∃ s, Run call (fun s c => Issued (fun _ => 2) s c ∧ NoTwin s c) (start 4)
      [.trySchedule twice firstChunk, .allocate, .freeEncoderInput twice 0] s ∧
      s.manager.cached.lookup "x" = some ∅ ∧
    ∀ j ∈ s.manager.getCachedInputIds "a", (s.requests "a").identifierOf j ≠ "x" := by
  have hallocate : ∀ t : EncoderState, t.pending = some (twice, [0]) → t.Agrees twice →
      ∀ r is, t.pending = some (r, is) → t.Agrees r := by
    intro t ht hagrees r is hp
    obtain ⟨rfl, rfl⟩ := Prod.mk.inj (Option.some.inj (ht.symm.trans hp))
    exact hagrees
  refine Exists.imp (fun s (h : _ ∧ s.manager.cached.lookup "x" = some ∅) => ⟨h.1, h.2, ?_⟩)
    ⟨_, .cons ⟨⟨sized_twice, fun j hj => absurd hj (notMem_empty j)⟩, trivial⟩ rfl
      (.cons ⟨hallocate _ rfl fun j hj => absurd hj (notMem_empty j), trivial⟩ rfl
        (.cons ⟨⟨sized_twice, ?_, ?_⟩, ?_⟩ rfl (.nil _))), ?_⟩
  · exact (references_consistent (h.1.mono fun _ _ h => h.1)).2.2.2.2.2 h.1 "x" h.2 "a"
  · unfold Agrees
    decide
  · decide
  · unfold NoTwin
    decide
  · decide

/-- Both inputs of the request are listed when the first is freed, and the item has no reference
left. -/
theorem twin_unreferenced : ∃ s, Run call (Issued fun _ => 2) (start 4)
      [.trySchedule twice firstChunk, .allocate, .trySchedule twice secondChunk,
        .freeEncoderInput twice 0] s ∧
    s.manager.cached.lookup "x" = some ∅ ∧ 1 ∈ s.manager.getCachedInputIds "a" ∧
    (s.requests "a").identifierOf 1 = "x" := by
  refine ⟨_, .cons ⟨sized_twice, fun j hj => by cases hj⟩ rfl (.cons ?_ rfl
    (.cons ⟨sized_twice, ?_⟩ rfl (.cons ⟨sized_twice, ?_, ?_⟩ rfl (.nil _)))), ?_, ?_, ?_⟩
  · rintro r is hp
    cases hp
    unfold Agrees
    decide
  · unfold Agrees
    decide
  · unfold Agrees
    decide
  · decide
  · decide
  · decide
  · decide

end EncoderState

end Vllm
