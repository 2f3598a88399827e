import Vllm.Offload.TieringProof
import Vllm.Lib.Run

/-!
# The tiering manager over whole runs

A secondary tier reports each job once. `reset_cache` ends the transfers from and to the GPU: the
connector flushes them before new ones.
-/

namespace Vllm.Offload

open Machine List CachePolicy Tiering

variable {κ : Type} [DecidableEq κ]

/-- The tiers with the stores and the loads that are not yet complete, each with its block. -/
structure TierState (κ : Type) where
  manager : Tiering κ
  stores : List (κ × ℕ) := []
  loads : List (κ × ℕ) := []

/-- The calls of the manager's interface; `results` are the jobs that polled tiers report. -/
inductive TierCall (κ : Type) where
  | lookup (key : κ) (reqId : String) (answers : List (Option Bool)) (results : List JobResult)
  | prepareLoad (keys : List κ) (results : List JobResult)
  | touch (keys : List κ)
  | completeLoad (blocks : List (κ × ℕ))
  | prepareStore (keys : List κ) (reqId : String) (results : List JobResult)
  | completeStore (blocks : List (κ × ℕ)) (reqId : String) (success : Bool)
  | onNewRequest (reqId : String) (tiers : List ℕ)
  | onRequestFinished (reqId : String)
  | onScheduleEnd (results : List JobResult)
  | resetCache (results : List JobResult)

namespace TierState

variable {results : List JobResult}

def start (numBlocks : ℕ) (cachePolicy : CachePolicy.Name) (enableEvents : Bool)
    (numSecondaryTiers : ℕ) :
    TierState κ where
  manager :=
    { primaryTier := .init numBlocks cachePolicy enableEvents 1 64000
      numSecondaryTiers := numSecondaryTiers }

variable (s : TierState κ)

/-- The blocks that a store or a promotion writes. -/
def writes : List (κ × ℕ) := s.stores ++ s.manager.promotions

/-- The blocks that a load or a copy to a secondary tier reads. -/
def reads : List (κ × ℕ) := s.loads ++ s.manager.cascades

def call : TierCall κ → Py (TierState κ)
  | .lookup k reqId answers results => do
    let (_, m) ← s.manager.lookup k reqId answers results
    .ok { s with manager := m }
  | .prepareLoad ks results => do
    let (spec, m) ← s.manager.prepareLoad ks results
    .ok { s with manager := m, loads := ks.zip spec ++ s.loads }
  | .touch ks => .ok { s with manager := s.manager.touch ks }
  | .completeLoad es => do
    let m ← s.manager.completeLoad (es.map Prod.fst)
    .ok { s with manager := m, loads := s.loads.diff es }
  | .prepareStore ks reqId results => do
    let (out, m) ← s.manager.prepareStore ks reqId results
    .ok { s with
      manager := m
      stores := (out.map fun o => o.keysToStore.zip o.storeSpec).getD [] ++ s.stores }
  | .completeStore es reqId success => do
    let m ← s.manager.completeStore (es.map Prod.fst) reqId success
    .ok { s with manager := m, stores := s.stores.diff es }
  | .onNewRequest reqId tiers => .ok { s with manager := s.manager.onNewRequest reqId tiers }
  | .onRequestFinished reqId => .ok { s with manager := s.manager.onRequestFinished reqId }
  | .onScheduleEnd results => do
    let m ← s.manager.onScheduleEnd results
    .ok { s with manager := m }
  | .resetCache results => do
    let m ← s.manager.resetCache results
    .ok { manager := m }

def Polls (results : List JobResult) : Prop :=
  s.manager.processedJobsThisStep = false → s.manager.Reported results

/-- Keys of one call differ, completed blocks were prepared, a drained tier has reported all jobs,
and a counter holds fewer than 2^31 reads. -/
def Contract : TierCall κ → Prop
  | .lookup _ _ _ results => s.Polls results
  | .prepareLoad ks results =>
    s.Polls results ∧ ks.Nodup ∧ ∀ k ∈ ks, (s.reads.map Prod.fst).count k + 1 < 2 ^ 31
  | .touch _ => True
  | .completeLoad es => (es.map Prod.fst).Nodup ∧ ∀ e ∈ es, e ∈ s.loads
  | .prepareStore ks reqId results => s.Polls results ∧ ks.Nodup ∧ ∀ k ∈ ks,
      (s.reads.map Prod.fst).count k + ((s.manager.requestLevelTiers.get? reqId).getD []).length <
      2 ^ 31
  | .completeStore es _ _ =>
      (es.map Prod.fst).Nodup ∧ (∀ e ∈ es, e ∈ s.stores) ∧ s.manager.numSecondaryTiers < 2 ^ 31
  | .onNewRequest _ _ => True
  | .onRequestFinished _ => True
  | .onScheduleEnd results => s.Polls results
  | .resetCache results =>
    s.manager.Reported results ∧ ∀ id ∈ s.manager.submitted, id ∈ results.map (·.jobId)

def Sound : Prop := s.manager.InFlight s.stores s.loads

variable {s t : TierState κ}

lemma sound_start (n : ℕ) (policy : Name) (events : Bool) (tiers : ℕ) :
    (start n policy events tiers : TierState κ).Sound :=
  .init _ _ (.init n policy events 1 64000)

/-! ## The calls -/

lemma count_le_of_subperm {l l' : List (κ × ℕ)} (loads : List (κ × ℕ)) (h : l'.Subperm l) (k : κ) :
    ((loads ++ l').map Prod.fst).count k ≤ ((loads ++ l).map Prod.fst).count k := by
  obtain ⟨l1, hperm, hsub⟩ := h
  rw [← ((hperm.append_left loads).map Prod.fst).count_eq k]
  exact ((hsub.append_left loads).map Prod.fst).count_le k

/-- A call that returns and keeps the transfers sound, or fails in a way a caller may cause. -/
def Fine (c : TierCall κ) : Prop :=
  (∃ t, s.call c = .ok t ∧ t.Sound) ∨ s.call c = .error (.keyError "dictionary is empty") ∨
    ∃ ks results, c = .prepareLoad ks results ∧
      (s.call c = .error (.assertionError "Block not found in cache") ∨
        s.call c = .error (.assertionError "Block is not ready for reading"))

lemma lookup_fine {k : κ} {reqId : String} {answers : List (Option Bool)}
    (h : s.Sound) (hpoll : s.Polls results) : s.Fine (.lookup k reqId answers results) := by
  obtain ⟨m1, hrun1, h1, -, -⟩ := h.maybeProcessFinishedJobs hpoll
  rcases h1.lookupPrimary (k := k) with ⟨r, p, hrun, h2⟩ | herr
  · refine .inl ?_
    rw [call, Tiering.lookup, hrun1, ok_bind, hrun, ok_bind]
    match r with
    | some true => exact ⟨_, rfl, h2⟩
    | none => exact ⟨_, rfl, h2⟩
    | some false =>
      cases htier : answers.findIdx? (· = some true) with
      | none => exact ⟨_, rfl, h2⟩
      | some tier =>
        dsimp only
        rw [initiatePromotion]
        rcases h2.prepareStorePrimary (nodup_singleton k) with ⟨p', hstore, h3⟩ | ⟨out, p', hstore,
          hlen, h3⟩
        · rw [hstore]
          exact ⟨_, rfl, h3⟩
        · rw [hstore]
          exact ⟨_, rfl, h3.addPending hlen rfl rfl⟩
  refine .inr (.inl ?_)
  rw [call, Tiering.lookup, hrun1, ok_bind, herr]
  rfl

lemma prepareLoad_fine {ks : List κ} (h : s.Sound)
    (hok : s.Contract (.prepareLoad ks results)) : s.Fine (.prepareLoad ks results) := by
  obtain ⟨hpoll, hnd, hfew⟩ := hok
  obtain ⟨m1, hrun1, h1, hcas, -⟩ := h.maybeProcessFinishedJobs hpoll
  have hfew1 : ∀ k ∈ ks, ((s.loads ++ m1.cascades).map Prod.fst).count k + 1 < 2 ^ 31 := fun k hk =>
    lt_of_le_of_lt (Nat.add_le_add_right (count_le_of_subperm s.loads hcas k) 1) (hfew k hk)
  rcases h1.moving.accounted.prepareLoad_cases hnd hfew1 with
    ⟨spec, p, hrun, hp, -, hspec, hsl⟩ | ⟨-, herr | herr⟩
  · obtain ⟨-, hmoving⟩ := h1.moving.load hp hspec hsl
    rw [← append_assoc] at hmoving
    refine .inl
      ⟨{ s with manager := { m1 with primaryTier := p }, loads := ks.zip spec ++ s.loads }, ?_,
      h1.withPrimary hmoving⟩
    rw [call, prepareLoad, hrun1, ok_bind, hrun]
    rfl
  · refine .inr (.inr ⟨ks, results, rfl, .inl ?_⟩)
    rw [call, prepareLoad, hrun1, ok_bind, herr]
    rfl
  refine .inr (.inr ⟨ks, results, rfl, .inr ?_⟩)
  rw [call, prepareLoad, hrun1, ok_bind, herr]
  rfl

lemma prepareStore_fine {ks : List κ} {reqId : String} (h : s.Sound)
    (hok : s.Contract (.prepareStore ks reqId results)) :
    s.Fine (.prepareStore ks reqId results) := by
  obtain ⟨hpoll, hnd, hfew⟩ := hok
  obtain ⟨m1, hrun1, h1, hcas, hframe⟩ := h.maybeProcessFinishedJobs hpoll
  rcases h1.prepareStorePrimary hnd with ⟨p, hstore, h2⟩ | ⟨out, p, hstore, hlen, h2⟩
  · refine .inl ⟨{ s with manager := { m1 with primaryTier := p } }, ?_, h2⟩
    rw [call, prepareStore, hrun1, ok_bind, hstore]
    rfl
  -- The blocks that were there already go to the request-level tiers.
  have hlevel : m1.requestLevelTiers = s.manager.requestLevelTiers := by rw [hframe]
  unfold Fine
  rw [call, prepareStore, hrun1, ok_bind, hstore, ok_bind]
  dsimp only
  cases htiers : m1.requestLevelTiers.get? reqId with
  | none => exact .inl ⟨_, rfl, h2⟩
  | some tiers =>
    dsimp only
    split
    · exact .inl ⟨_, rfl, h2⟩
    rw [cascadeExistingBlocks]
    rcases readyKeys_spec (ks.filter (· ∉ out.keysToStore)) h2.moving.accounted with
      ⟨ready, p', hready, hp', hpol, hsub, hall⟩ | herr
    · have h3 :
        InFlight { m1 with primaryTier := p' } (out.keysToStore.zip out.storeSpec ++ s.stores)
          s.loads := h2.withPolicy hp' fun k => by rw [CPUManager.slotOf, hpol]; rfl
      rw [hready, ok_bind]
      dsimp only
      split
      · exact .inl ⟨_, rfl, h3⟩
      have hnd' : ready.Nodup := (hnd.filter _).sublist hsub
      obtain ⟨m', hrun, h'⟩ := h3.cascadeAll reqId tiers.length hnd' fun k hk => by
        obtain ⟨hres, hnot⟩ := hall k hk
        refine ⟨hpol ▸ hres, hnot, ?_⟩
        have hk' := hfew k (mem_filter.mp (hsub.mem hk)).1
        rw [← hlevel, htiers] at hk'
        exact lt_of_le_of_lt (Nat.add_le_add_right (count_le_of_subperm s.loads hcas k) _) hk'
      rw [hrun]
      exact .inl ⟨_, rfl, h'⟩
    · rw [herr]
      exact .inr (.inl rfl)

lemma resetCache_fine (h : s.Sound) (hok : s.Contract (.resetCache results)) :
    s.Fine (.resetCache results) := by
  obtain ⟨hrep, hall⟩ := hok
  obtain ⟨m1, hrun, h1, hsub, -⟩ := h.processFinishedJobs hrep
  -- Every job was reported, so none is left.
  have hnone : m1.submitted = [] := by
    rw [hsub, eq_nil_iff_forall_not_mem]
    intro id hid
    have hnd : s.manager.submitted.Nodup := h.submitted.nodup_iff.mpr s.manager.transferJobs.nodup
    exact (hnd.mem_sdiff_iff.mp hid).2 (hall id (hnd.mem_sdiff_iff.mp hid).1)
  have hent : m1.transferJobs.entries = [] := by
    have hperm := h1.submitted
    rw [hnone] at hperm
    exact map_eq_nil_iff.mp (nil_perm.mp hperm)
  have hsl : ∀ promotion, m1.jobSlots promotion = [] := fun promotion => by
    rw [jobSlots, hent]
    rfl
  refine .inl ⟨_, by rw [call, resetCache, hrun, ok_bind, ok_bind], ?_⟩
  exact
    { moving := by
        show Moving m1.primaryTier.resetCache ([] ++ m1.jobSlots true) (m1.jobSlots false)
        rw [hsl, hsl]
        exact ⟨.resetCache _, fun e he => by rcases he with he | he <;> cases he⟩
      jobs := h1.jobs
      pendingLength := fun e he => by cases he
      submitted := h1.submitted }

lemma Sound.fine {c : TierCall κ} (h : s.Sound) (hok : s.Contract c) : s.Fine c := by
  cases c with
  | lookup k reqId answers results => exact lookup_fine h hok
  | prepareLoad ks results => exact prepareLoad_fine h hok
  | touch ks =>
    exact .inl ⟨_, rfl,
      h.withPolicy (h.moving.accounted.touch ks) (h.moving.accounted.slotOf_touch ks)⟩
  | completeLoad es =>
    obtain ⟨m, hrun, h'⟩ := h.completeLoad hok.1 hok.2
    exact .inl ⟨{ s with manager := m, loads := s.loads.diff es }, by rw [call, hrun, ok_bind], h'⟩
  | prepareStore ks reqId results => exact prepareStore_fine h hok
  | completeStore es reqId success =>
    obtain ⟨m, hrun, h'⟩ := h.completeStore reqId success hok.1 hok.2.1 hok.2.2
    exact .inl ⟨{ s with manager := m, stores := s.stores.diff es }, by rw [call, hrun, ok_bind],
      h'⟩
  | onNewRequest reqId tiers =>
    refine .inl ⟨_, rfl, ?_⟩
    unfold onNewRequest
    split
    · exact h
    · exact ⟨h.moving, h.jobs, h.pendingLength, h.submitted⟩
  | onRequestFinished reqId => exact .inl ⟨_, rfl, h.moving, h.jobs, h.pendingLength, h.submitted⟩
  | onScheduleEnd results =>
    obtain ⟨m1, hrun, h1, -, -⟩ := h.maybeProcessFinishedJobs hok
    have h2 : InFlight { m1 with processedJobsThisStep := false } s.stores s.loads :=
      ⟨h1.moving, h1.jobs, h1.pendingLength, h1.submitted⟩
    refine .inl
      ⟨{ s with manager := flushPendingPromotions { m1 with processedJobsThisStep := false } }, ?_,
      h2.flush⟩
    rw [call, onScheduleEnd, hrun]
    rfl
  | resetCache results => exact resetCache_fine h hok

lemma sound_of_run {n : ℕ} {policy : Name} {events : Bool} {tiers : ℕ} {cs : List (TierCall κ)}
    (hrun : Run call Contract (start n policy events tiers) cs s) : s.Sound := by
  refine hrun.invariant (P := Sound) (fun u c v hu hok hv => ?_) (sound_start n policy events tiers)
  rcases hu.fine hok with ⟨t, ht, h⟩ | herr | ⟨ks, results, -, herr | herr⟩
  · rw [hv] at ht
    cases ht
    exact h
  all_goals
    rw [hv] at herr
    cases herr

/-- After every run no slot is written by two transfers or both written and read, a ready block
counts its GPU loads and cascades, and the next call finds every reported job and cascaded block: it
fails an assertion only for a load of a block that is not ready. -/
theorem transfers_disjoint {n : ℕ} {policy : Name} {events : Bool} {tiers : ℕ}
    {cs : List (TierCall κ)} (hrun : Run call Contract (start n policy events tiers) cs s) :
    (s.writes.map Prod.snd).Nodup ∧ (∀ e ∈ s.reads, e.2 ∉ s.writes.map Prod.snd) ∧
    (∀ e, e ∈ s.writes ∨ e ∈ s.reads → s.manager.primaryTier.slotOf e.1 = some e.2) ∧
    (∀ k b, s.manager.primaryTier.policy.get k = some b → b.isReady = true →
      b.refCnt = (s.loads.map Prod.fst).count k + (s.manager.cascades.map Prod.fst).count k) ∧
    ∀ c, s.Contract c → (∃ t, s.call c = .ok t) ∨
    s.call c = .error (.keyError "dictionary is empty") ∨
      ∃ ks results, c = .prepareLoad ks results ∧
      (s.call c = .error (.assertionError "Block not found in cache") ∨
          s.call c = .error (.assertionError "Block is not ready for reading")) := by
  have h := sound_of_run hrun
  have hacc := h.moving.accounted
  have hslots := h.moving.slots
  refine ⟨?_, fun e he hmem => ?_, hslots, fun k b hget hready => ?_, fun c hok => ?_⟩
  · refine Nodup.map_on (fun x hx y hy heq => ?_) (.of_map Prod.fst hacc.storing_nodup)
    have hy' := hslots y (.inl hy)
    rw [← heq] at hy'
    exact Prod.ext (hacc.eq_of_slotOf_eq (hslots x (.inl hx)) hy') heq
  · obtain ⟨w, hw, heq⟩ := mem_map.mp hmem
    have hw' := hslots w (.inl hw)
    rw [heq] at hw'
    have hkey := hacc.eq_of_slotOf_eq hw' (hslots e (.inr he))
    exact hacc.apart e.1 (mem_map_of_mem he) (hkey ▸ mem_map_of_mem hw)
  · have hrefs := hacc.books.refs _ ((get_eq_some_iff hacc.valid).mp hget)
    have hnonneg : 0 ≤ b.refCnt := of_decide_eq_true hready
    dsimp only [countOf] at hrefs
    split at hrefs
    · omega
    · rw [hrefs, map_append, count_append, Nat.cast_add]
  rcases h.fine hok with ⟨t, ht, -⟩ | herr
  · exact .inl ⟨t, ht⟩
  · exact .inr herr

/-- A block is loaded while it is copied to the secondary tier. -/
theorem cascaded_and_loaded : ∃ s : TierState String, Run call Contract (start 2 .lru false 1)
      [.prepareStore ["a"] "r" [], .completeStore [("a", 0)] "r" true, .prepareLoad ["a"] []] s ∧
    s.reads = [("a", 0), ("a", 0)] ∧ ∀ k b, s.manager.primaryTier.policy.get k = some b →
    b.isReady = true →
      b.refCnt = (s.loads.map Prod.fst).count k + (s.manager.cascades.map Prod.fst).count k := by
  refine Exists.imp (fun s (h : Run call Contract _ _ s ∧ s.reads = _) =>
    ⟨h.1, h.2, (transfers_disjoint h.1).2.2.2.1⟩) ⟨_,
      .cons ⟨fun _ => ⟨by decide, by decide⟩, by decide, ?_⟩ rfl
      (.cons ⟨by decide, by decide, by decide⟩ rfl
        (.cons ⟨fun _ => ⟨by decide, fun r hr => by cases hr⟩, by decide, ?_⟩ rfl (.nil _))), rfl⟩
  · decide
  · decide

/-- `reset_cache` gives the slot of a GPU store that was not completed to the next store. -/
theorem reset_reuses_slot :
    ∃ m₁ m₂ m₃ : Tiering String, (start 1 .lru false 0).manager.prepareStore ["a"] "r" [] =
      .ok (some { keysToStore := ["a"], storeSpec := [0], evictedKeys := [] }, m₁) ∧
    m₁.resetCache [] = .ok m₂ ∧
    m₂.prepareStore ["b"] "r" [] =
      .ok (some { keysToStore := ["b"], storeSpec := [0], evictedKeys := [] }, m₃) :=
  ⟨_, _, _, rfl, rfl, rfl⟩

end TierState

end Vllm.Offload
