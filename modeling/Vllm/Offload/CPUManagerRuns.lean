import Vllm.Offload.CPUManagerProof
import Vllm.Lib.Run

/-! # The CPU offloading manager over whole runs -/

namespace Vllm.Offload

open Machine CachePolicy CPUManager

variable {κ : Type} [DecidableEq κ]

/-- The manager with the stores and the loads that are not yet complete. -/
structure CPUState (κ : Type) where
  manager : CPUManager κ
  storing : List κ := []
  loads : List κ := []

/-- The calls of the offloading manager. -/
inductive CPUCall (κ : Type) where
  | lookup (k : κ)
  | touch (keys : List κ)
  | prepareStore (keys : List κ)
  | completeStore (keys : List κ) (success : Bool)
  | prepareLoad (keys : List κ)
  | completeLoad (keys : List κ)
  | resetCache

namespace CPUState

def start (numBlocks : ℕ) (cachePolicy : CachePolicy.Name) (enableEvents : Bool)
    (storeThreshold maxTrackerSize : ℕ) : CPUState κ where
  manager := .init numBlocks cachePolicy enableEvents storeThreshold maxTrackerSize

def call (s : CPUState κ) : CPUCall κ → Py (CPUState κ)
  | .lookup k => do
    let (_, m) ← s.manager.lookup k
    .ok { s with manager := m }
  | .touch ks => .ok { s with manager := s.manager.touch ks }
  | .prepareStore ks => do
    let (out, m) ← s.manager.prepareStore ks
    .ok { s with manager := m, storing := (out.map (·.keysToStore)).getD [] ++ s.storing }
  | .completeStore ks success => do
    let m ← s.manager.completeStore ks success
    .ok { s with manager := m, storing := s.storing.diff ks }
  | .prepareLoad ks => do
    let (_, m) ← CPUManager.prepareLoad ks s.manager
    .ok { s with manager := m, loads := ks.reverse ++ s.loads }
  | .completeLoad ks => do
    let m ← s.manager.completeLoad ks
    .ok { s with manager := m, loads := s.loads.diff ks }
  | .resetCache => .ok { manager := s.manager.resetCache }

/-- The callers' contract.  A counter holds fewer than 2^31 loads of one key. -/
def Matched (s : CPUState κ) : CPUCall κ → Prop
  | .lookup _ => True
  | .touch _ => True
  | .prepareStore ks => ks.Nodup
  | .completeStore ks _ => ks.Nodup ∧ ∀ k ∈ ks, k ∈ s.storing
  | .prepareLoad ks => ks.Nodup ∧
      ∀ k ∈ ks, (∃ b, s.manager.policy.get k = some b ∧ b.isReady = true) ∧
      s.loads.count k + 1 < 2 ^ 31
  | .completeLoad ks => ks.Nodup ∧ ∀ k ∈ ks, k ∈ s.loads
  | .resetCache => True

variable {s t : CPUState κ} {c : CPUCall κ} (h : Accounted s.manager s.storing s.loads)

include h in
lemma resident_of_ready {k : κ} (hk : ∃ b, s.manager.policy.get k = some b ∧ b.isReady = true) :
    k ∈ s.manager.policy.blocks.map Prod.fst ∧ k ∉ s.storing := by
  obtain ⟨b, hget, hready⟩ := hk
  have hmem := (get_eq_some_iff h.valid).mp hget
  refine ⟨List.mem_map_of_mem hmem, fun hs => ?_⟩
  have hrefs : b.refCnt = -1 := (h.books.refs _ hmem).trans (if_pos hs)
  have hnonneg : 0 ≤ b.refCnt := of_decide_eq_true hready
  omega

def Tells (m m' : CPUManager κ) : Prop := ∃ ks removed, m'.events = (m.addEvent ks removed).events ∧
  ∀ k, m'.ready k = if k ∈ ks then !removed else m.ready k

lemma ready_eq {m : CPUManager κ} {storing loads : List κ} (h : Accounted m storing loads) (k : κ) :
    m.ready k = ((m.slotOf k).isSome && decide (k ∉ storing)) := by
  cases hget : m.policy.get k with
  | none => simp [ready, slotOf, hget]
  | some b =>
    have hrefs : b.refCnt = if k ∈ storing then -1 else (loads.count k : ℤ) :=
      h.books.refs _ ((get_eq_some_iff h.valid).mp hget)
    simp only [ready, slotOf, hget, Option.any_some, BlockStatus.isReady, hrefs]
    split_ifs with hs <;> simp [hs]

lemma Tells.of_slots {m m' : CPUManager κ} {storing loads loads' : List κ}
    (h : Accounted m storing loads)
    (h' : Accounted m' storing loads') (hkeeps : m.Keeps m') : Tells m m' :=
  ⟨[], false, hkeeps.events, fun k => by rw [ready_eq h, ready_eq h', hkeeps.slots]; rfl⟩

include h in
/-- Every matched call keeps the books, or fails at an ARC policy without a block to evict. -/
lemma call_accounted (hok : s.Matched c) :
    (∃ t, s.call c = .ok t ∧ Accounted t.manager t.storing t.loads ∧
      (c ≠ .resetCache → Tells s.manager t.manager)) ∨
      s.call c = .error (.keyError "dictionary is empty") := by
  cases c with
  | lookup k =>
    rcases h.lookup (k := k) with ⟨r, m, hrun, h', hpol, hev, -⟩ | herr
    · exact .inl ⟨_, by rw [call, hrun, ok_bind], h', fun _ =>
        ⟨[], false, hev, fun k => by rw [ready, hpol]; rfl⟩⟩
    · exact .inr (by rw [call, herr]; rfl)
  | touch ks =>
    exact .inl ⟨_, rfl, h.touch ks, fun _ => .of_slots h (h.touch ks) ⟨rfl, h.slotOf_touch ks⟩⟩
  | prepareStore ks =>
    rcases h.prepareStore hok with ⟨n, hrun⟩ | ⟨out, m, hrun, h', -, -, -, hev, hnew, hsl⟩
    · refine .inl ⟨{ s with manager := { s.manager with storesSkippedInCurrentBatch := n } }, ?_,
        ⟨h.books, h.allocated, h.storing_nodup, h.apart, h.few⟩,
          fun _ => ⟨[], false, rfl, fun _ => rfl⟩⟩
      rw [call, hrun]
      rfl
    refine .inl ⟨{ s with manager := m, storing := out.keysToStore ++ s.storing }, ?_, h', fun _ =>
      ⟨out.evictedKeys, true, hev, fun k => ?_⟩⟩
    · rw [call, hrun]
      rfl
    rw [ready_eq h, ready_eq h']
    by_cases hk : k ∈ out.keysToStore
    · simp [hk, hnew k hk]
    rw [hsl k hk]
    split_ifs <;> simp [hk]
  | completeStore ks success =>
    obtain ⟨m, hrun, h', hev, hsl⟩ := h.completeStore hok.1 hok.2 success
    refine .inl ⟨_, by rw [call, hrun, ok_bind], h',
      fun _ => ⟨if success then ks else [], false, ?_, fun k => ?_⟩⟩
    · rw [hev]
      cases success <;> rfl
    rw [ready_eq h, ready_eq h', hsl]
    have hres : k ∈ ks → (s.manager.slotOf k).isSome := fun hk => by
      obtain ⟨b, hget, -⟩ := h.get_of_resident (h.resident (.inl (hok.2 k hk)))
      simp [slotOf, hget]
    cases success <;> by_cases hk : k ∈ ks <;>
      simp [hk, h.storing_nodup.mem_sdiff_iff, hok.2 k, hres]
  | prepareLoad ks =>
    obtain ⟨spec, m, hrun, h', -, -, hkeeps⟩ := h.prepareLoad hok.1 fun k hk =>
      ⟨(resident_of_ready h (hok.2 k hk).1).1, (resident_of_ready h (hok.2 k hk).1).2,
        (hok.2 k hk).2⟩
    exact .inl ⟨_, by rw [call, hrun, ok_bind], h', fun _ => .of_slots h h' hkeeps⟩
  | completeLoad ks =>
    obtain ⟨m, hrun, h', hkeeps⟩ := h.completeLoad hok.1 hok.2
    exact .inl ⟨_, by rw [call, hrun, ok_bind], h', fun _ => .of_slots h h' hkeeps⟩
  | resetCache => exact .inl ⟨_, rfl, Accounted.resetCache s.manager, fun hne => absurd rfl hne⟩

lemma accounted_of_run {n : ℕ} {policy : Name} {events : Bool} {threshold tracker : ℕ}
    {cs : List (CPUCall κ)}
    (hrun : Run call Matched (start n policy events threshold tracker) cs s) :
    Accounted s.manager s.storing s.loads := by
  refine hrun.invariant (P := fun s => Accounted s.manager s.storing s.loads)
    (fun u c v hu hok hv => ?_)
    (.init n policy events threshold tracker)
  rcases call_accounted hu hok with ⟨t, ht, h, -⟩ | herr
  · rw [hv] at ht
    cases ht
    exact h
  · rw [hv] at herr
    cases herr

/-- After every run that keeps the contract the slots of the policy and of the free list are those
allocated so far, the evictable blocks are counted, a reference count is -1 for the keys being
stored and else the number of outstanding loads; the next call fails no assertion, and a refused
`prepare_store` leaves the policy as it is. -/
theorem slots_and_references {n : ℕ} {policy : Name} {events : Bool} {threshold tracker : ℕ}
    {cs : List (CPUCall κ)}
    (hrun : Run call Matched (start n policy events threshold tracker) cs s) :
    (s.manager.policy.blocks.map (·.2.blockId) ++ s.manager.freeList).Perm
    (List.range s.manager.numAllocatedBlocks) ∧
    s.manager.numEvictableCacheBlocks = s.manager.policy.blocks.countP (·.2.refCnt = 0) ∧
    (∀ k b, s.manager.policy.get k = some b ↔ (k, b) ∈ s.manager.policy.blocks) ∧
    (∀ k b, s.manager.policy.get k = some b →
      (b.refCnt = -1 ↔ k ∈ s.storing) ∧ (k ∉ s.storing → b.refCnt = s.loads.count k)) ∧
    (∀ c, s.Matched c → (∃ t, s.call c = .ok t) ∨
      s.call c = .error (.keyError "dictionary is empty")) ∧
    ∀ ks m, ks.Nodup → s.manager.prepareStore ks = .ok (none, m) → m.policy = s.manager.policy := by
  have h := accounted_of_run hrun
  refine ⟨h.books.ids, h.books.evictable, fun k b => get_eq_some_iff h.valid, fun k b hget => ?_,
    fun c hok => ?_,
    fun ks m hnodup hnone => ?_⟩
  · have hrefs : b.refCnt = if k ∈ s.storing then -1 else (s.loads.count k : ℤ) :=
      h.books.refs _ ((get_eq_some_iff h.valid).mp hget)
    split at hrefs
    next hs => exact ⟨iff_of_true hrefs hs, fun hnot => absurd hs hnot⟩
    next hs => exact ⟨iff_of_false (by omega) hs, fun _ => hrefs⟩
  · rcases call_accounted h hok with ⟨t, ht, -⟩ | herr
    · exact .inl ⟨t, ht⟩
    · exact .inr herr
  rcases h.prepareStore hnodup with ⟨j, hrun⟩ | ⟨out, m', hrun, -⟩
  · rw [hrun] at hnone
    cases hnone
    rfl
  · rw [hrun] at hnone
    cases (Prod.mk.inj (Except.ok.inj hnone)).1

/-- A block that is being loaded is kept and is not counted as evictable. -/
theorem loaded_block_counted : ∃ s : CPUState String, Run call Matched (start 1 .arc false 1 64000)
      [.prepareStore ["a"], .completeStore ["a"] true, .prepareLoad ["a"], .prepareStore ["b"]] s ∧
    s.manager.policy.get "a" = some { refCnt := 1, blockId := 0 } ∧
    s.manager.numEvictableCacheBlocks = s.manager.policy.blocks.countP (·.2.refCnt = 0) := by
  refine Exists.imp (fun s (h : Run call Matched _ _ s ∧ s.manager.policy.get "a" = _) =>
    ⟨h.1, h.2, (slots_and_references h.1).2.1⟩) ⟨_,
      .cons ?_ rfl (.cons ?_ rfl (.cons ?_ rfl (.cons ?_ rfl (.nil _)))), rfl⟩
  · show ["a"].Nodup
    decide
  · exact ⟨by decide, by decide⟩
  · refine ⟨by decide, fun k hk => ⟨⟨{ refCnt := 0, blockId := 0 }, ?_, rfl⟩, ?_⟩⟩
    · obtain rfl := List.mem_singleton.mp hk
      rfl
    · obtain rfl := List.mem_singleton.mp hk
      decide
  · show ["b"].Nodup
    decide

/-- A load of a block that was not stored fails. -/
theorem load_of_absent_asserts :
    (start 1 .lru false 1 64000 : CPUState String).call (.prepareLoad ["a"]) =
    .error (.assertionError "Block not found in cache") := rfl

/-! ## Events -/

/-- What a listener to the events knows about a key. -/
def replay (es : List (OffloadingEvent κ)) (k : κ) : Bool :=
  es.foldl (fun known e => if k ∈ e.keys then !e.removed else known) false

abbrev Observed (κ : Type) := CPUState κ × List (OffloadingEvent κ)

variable (x : Observed κ) {es : List (OffloadingEvent κ)}

/-- A call, or `take_events`. -/
def observe : Option (CPUCall κ) → Py (Observed κ)
  | some c => do .ok (← x.1.call c, x.2)
  | none => .ok ({ x.1 with manager := x.1.manager.takeEvents.2 }, x.2 ++ x.1.manager.takeEvents.1)

/-- With the queued events a listener knows exactly the ready keys. -/
def Told : Prop :=
  ∀ k, replay (x.2 ++ x.1.manager.takeEvents.1) k = x.1.manager.ready k

/-- Calls that match the protocol and reset the cache only when nothing is ready. -/
def Announced (c : Option (CPUCall κ)) : Prop :=
  ∀ c' ∈ c, x.1.Matched c' ∧ (c' = .resetCache → ∀ k, x.1.manager.ready k = false)

variable {x}

lemma replay_addEvent {m : CPUManager κ} (hsome : m.events.isSome) (ks : List κ) (removed : Bool)
    (k : κ) :
    replay (es ++ (m.addEvent ks removed).takeEvents.1) k =
      if k ∈ ks then !removed else replay (es ++ m.takeEvents.1) k := by
  obtain ⟨old, hold⟩ := Option.isSome_iff_exists.mp hsome
  unfold addEvent
  split_ifs with hks <;> simp_all [takeEvents, replay]

include h in
lemma told_call (hsome : s.manager.events.isSome) (hok : s.Matched c)
    (hcall : s.call c = .ok t) (htold : Told (s, es)) :
    Accounted t.manager t.storing t.loads ∧ t.manager.events.isSome ∧
      (Told (t, es) ↔ (c = .resetCache → ∀ k, s.manager.ready k = false)) := by
  rcases call_accounted h hok with ⟨t', ht', h', htells⟩ | herr
  · obtain rfl : t = t' := Except.ok.inj (hcall.symm.trans ht')
    rcases eq_or_ne c .resetCache with rfl | hc
    · cases hcall
      have hemp (k : κ) : s.manager.resetCache.ready k = false := by
        unfold resetCache ready
        cases s.manager.policy <;> rfl
      refine ⟨h', hsome, fun ht _ k => ?_, fun hr k => ?_⟩
      · exact (htold k).symm.trans ((ht k).trans (hemp k))
      · exact (htold k).trans ((hr rfl k).trans (hemp k).symm)
    obtain ⟨ks, removed, hev, hready⟩ := htells hc
    have htaken : t.manager.takeEvents.1 = (s.manager.addEvent ks removed).takeEvents.1 :=
      congrArg (·.getD []) hev
    refine ⟨h', ?_, iff_of_true (fun k => ?_) fun hc' => absurd hc' hc⟩
    · rw [hev, addEvent]
      split_ifs <;> simp [hsome]
    · rw [htaken, replay_addEvent hsome, hready, ← htold k]
  · rw [hcall] at herr
    cases herr

section

variable {n : ℕ} {policy : Name} {threshold tracker : ℕ} {cs : List (Option (CPUCall κ))}
  (hrun : Run observe Announced (start n policy true threshold tracker, []) cs x)
include hrun

lemma told_of_run :
    Accounted x.1.manager x.1.storing x.1.loads ∧ x.1.manager.events.isSome ∧ Told x := by
  refine hrun.invariant (P := fun x => Accounted x.1.manager x.1.storing x.1.loads ∧
    x.1.manager.events.isSome ∧
      Told x) (fun x c y hx hok hy => ?_) ⟨.init n policy true threshold tracker, rfl, ?_⟩
  · obtain ⟨h, hsome, htold⟩ := hx
    cases c with
    | none =>
      cases hy
      obtain ⟨old, hold⟩ := Option.isSome_iff_exists.mp hsome
      refine ⟨⟨h.books, h.allocated, h.storing_nodup, h.apart, h.few⟩, by simp [takeEvents, hold],
        fun k => ?_⟩
      simpa [takeEvents, ready, hold] using htold k
    | some c =>
      obtain ⟨hok, hreset⟩ := hok c rfl
      obtain ⟨t, ht, ⟨⟩⟩ := of_bind hy
      obtain ⟨h', hsome', htold'⟩ := told_call h hsome hok ht htold
      exact ⟨h', hsome', htold'.mpr hreset⟩
  · intro k
    cases policy <;> rfl

/-- If the cache is reset only without ready blocks, what was taken builds the set of the ready
blocks at each `take_events`; a call breaks this just when it resets a cache with ready blocks. -/
theorem taken_events_are_ready :
    (∀ y, observe x none = .ok y → ∀ k, replay y.2 k = y.1.manager.ready k) ∧
    ∀ c y, x.1.Matched c → observe x (some c) = .ok y →
      (Told y ↔ (c = .resetCache → ∀ k, x.1.manager.ready k = false)) := by
  obtain ⟨h, hsome, htold⟩ := told_of_run hrun
  refine ⟨fun y hy => ?_, fun c y hok hy => ?_⟩
  · cases hy
    exact htold
  · obtain ⟨t, ht, ⟨⟩⟩ := of_bind hy
    exact (told_call h hsome hok ht htold).2.2

end

/-- A completed store is told by the events. -/
theorem stored_block_told : ∃ x : Observed String, Run observe Announced
      (start 1 .lru true 1 64000, [])
      [some (.prepareStore ["a"]), some (.completeStore ["a"] true)] x ∧
    ∀ y, observe x none = .ok y → ∀ k, replay y.2 k = y.1.manager.ready k := by
  refine Exists.imp (fun x h => ⟨h, (taken_events_are_ready h).1⟩) ⟨_,
    .cons ?_ rfl (.cons ?_ rfl (.nil _))⟩
  · rintro c ⟨⟩
    exact ⟨by simp [Matched], fun h => by cases h⟩
  · rintro c ⟨⟩
    exact ⟨⟨by decide, by decide⟩, fun h => by cases h⟩

/-- `reset_cache` drops a block without an event. -/
theorem reset_not_told : ∃ x : Observed String,
    Run observe (fun x c => ∀ c' ∈ c, x.1.Matched c') (start 1 .lru true 1 64000, [])
      [some (.prepareStore ["a"]), some (.completeStore ["a"] true), some .resetCache, none] x ∧
    replay x.2 "a" = true ∧ x.1.manager.ready "a" = false := by
  refine ⟨_, .cons ?_ rfl (.cons ?_ rfl (.cons ?_ rfl (.cons ?_ rfl (.nil _)))), rfl, rfl⟩ <;>
    rintro c ⟨⟩
  · simp [Matched]
  · exact ⟨by decide, by decide⟩
  · trivial

end CPUState

end Vllm.Offload
