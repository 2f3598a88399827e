import Vllm.Offload.Tiering
import Vllm.Offload.CPUManagerProof
import Mathlib.Data.List.Perm.Subperm

/-!
# Transfers of the tiering manager

`InFlight m stores loads`: GPU stores, pending promotions and promotion jobs write, GPU loads and
cascade jobs read.
-/

namespace Vllm.Offload

open OrderedDict List

variable {κ : Type}

def JobMetadata.slots (j : JobMetadata κ) : List (κ × ℕ) := j.keys.zip j.blockIds

def PendingPromotion.slots (e : PendingPromotion κ) : List (κ × ℕ) := e.keys.zip e.blockIds

namespace Tiering

variable {keys : List κ} {p : CPUManager κ} (m : Tiering κ)

def pending : List (PendingPromotion κ) :=
  m.pendingLoadSubmissions.entries.flatMap fun e => e.2.entries.map Prod.snd

def jobSlots (promotion : Bool) : List (κ × ℕ) :=
  (m.transferJobs.entries.filter (·.2.isPromotion = promotion)).flatMap fun e => e.2.slots

def promotions : List (κ × ℕ) := m.pending.flatMap (·.slots) ++ m.jobSlots true

/-- The blocks read by copies to the secondary tiers. -/
def cascades : List (κ × ℕ) := m.jobSlots false

variable [DecidableEq κ]

/-- Blocks being written and read, each in its slot. -/
structure Moving (p : CPUManager κ) (writes reads : List (κ × ℕ)) : Prop where
  accounted : Accounted p (writes.map Prod.fst) (reads.map Prod.fst)
  slots : ∀ e, e ∈ writes ∨ e ∈ reads → p.slotOf e.1 = some e.2

namespace Moving

variable {p' : CPUManager κ} {writes writes' reads reads' es : List (κ × ℕ)} {k : κ} {spec : List ℕ}
  (h : Moving p writes reads)

include h in
lemma perm (hw : writes'.Perm writes) (hr : reads'.Perm reads) : Moving p writes' reads' where
  accounted := h.accounted.perm (hw.map Prod.fst) (hr.map Prod.fst)
  slots e he := h.slots e (he.imp hw.mem_iff.mp hr.mem_iff.mp)

lemma notMem (h : Moving p (es ++ writes) reads) (hk : k ∈ es.map Prod.fst) :
    k ∉ writes.map Prod.fst ∧ k ∉ reads.map Prod.fst := by
  have hacc := h.accounted
  rw [map_append] at hacc
  exact ⟨fun hk' => (nodup_append.mp hacc.storing_nodup).2.2 k hk k hk' rfl,
    fun hk' => hacc.apart k hk' (mem_append_left _ hk)⟩

lemma completeStore (h : Moving p (es ++ writes) reads) (success : Bool) :
    ∃ p', p.completeStore (es.map Prod.fst) success = .ok p' ∧ Moving p' writes reads ∧
      (success = true → ∀ k, p'.slotOf k = p.slotOf k) := by
  have hacc := h.accounted
  rw [map_append] at hacc
  obtain ⟨p', hrun, h', -, hsl⟩ := hacc.completeStore (nodup_append.mp hacc.storing_nodup).1
    (fun k hk => mem_append_left _ hk) success
  rw [Accounted.append_diff_self] at h'
  refine ⟨p', hrun, ⟨h', fun e he => ?_⟩, fun hs k => by rw [hsl, if_neg (by simp [hs])]⟩
  have hnot : e.1 ∉ es.map Prod.fst := fun hk => he.elim
    (fun hx => (h.notMem hk).1 (mem_map_of_mem hx)) fun hx => (h.notMem hk).2 (mem_map_of_mem hx)
  exact ((hsl e.1).trans (if_neg fun hk => hnot hk.1)).trans
    (h.slots e (he.imp_left (mem_append_right _)))

lemma completeLoad (h : Moving p writes (es ++ reads)) (hnd : (es.map Prod.fst).Nodup) :
    ∃ p', p.completeLoad (es.map Prod.fst) = .ok p' ∧ Moving p' writes reads := by
  have hacc := h.accounted
  rw [map_append] at hacc
  obtain ⟨p', hrun, h', hkeeps⟩ := hacc.completeLoad hnd fun k hk => mem_append_left _ hk
  rw [Accounted.append_diff_self] at h'
  exact ⟨p', hrun, h',
    fun e he => (hkeeps.slots e.1).trans (h.slots e (he.imp_right (mem_append_right _)))⟩

include h

lemma load (hp : Accounted p' (writes.map Prod.fst) (keys.reverse ++ reads.map Prod.fst))
    (hspec : keys.map p.slotOf = spec.map some) (hkeeps : p.Keeps p') :
    spec.length = keys.length ∧ Moving p' writes (keys.zip spec ++ reads) := by
  obtain ⟨hlen, hzip⟩ := map_eq_map_iff_zip.mp hspec
  refine ⟨hlen.symm, ?_, fun e he => (hkeeps.slots e.1).trans ?_⟩
  · rw [map_append, map_fst_zip hlen.le]
    exact hp.perm (.refl _) ((reverse_perm keys).symm.append_right _)
  · rw [mem_append, or_left_comm] at he
    exact he.elim hzip (h.slots e)

lemma prepareStore (hnd : keys.Nodup) :
    (∃ p', p.prepareStore keys = .ok (none, p') ∧ Moving p' writes reads) ∨
      ∃ out p', p.prepareStore keys = .ok (some out, p') ∧
      out.storeSpec.length = out.keysToStore.length ∧
        Moving p' (out.keysToStore.zip out.storeSpec ++ writes) reads := by
  have hacc := h.accounted
  rcases hacc.prepareStore hnd with ⟨n, hrun⟩ | ⟨out, p', hrun, hp, -, hspec, hkept, -⟩
  · exact .inl ⟨_, hrun, ⟨hacc.books, hacc.allocated, hacc.storing_nodup, hacc.apart, hacc.few⟩,
      h.slots⟩
  obtain ⟨hlen, hzip⟩ := map_eq_map_iff_zip.mp hspec
  refine .inr ⟨out, p', hrun, hlen.symm, ?_, fun e he => ?_⟩
  · rw [map_append, map_fst_zip hlen.le]
    exact hp
  · rw [mem_append, or_assoc] at he
    exact he.elim hzip fun he =>
      (hkept e.1 (he.imp mem_map_of_mem mem_map_of_mem)).trans (h.slots e he)

end Moving

/-- The transfers in flight, where `stores` and `loads` are those from and to the GPU. -/
structure InFlight (m : Tiering κ) (stores loads : List (κ × ℕ)) : Prop where
  moving : Moving m.primaryTier (stores ++ m.promotions) (loads ++ m.cascades)
  jobs : ∀ e ∈ m.transferJobs.entries,
    e.1 < m.jobIdCounter ∧ e.2.keys.Nodup ∧ e.2.blockIds.length = e.2.keys.length
  pendingLength : ∀ e ∈ m.pending, e.blockIds.length = e.keys.length
  submitted : m.submitted.Perm m.transferJobs.keys

variable {m m' : Tiering κ} {stores loads : List (κ × ℕ)}

lemma InFlight.init (primary : CPUManager κ) (n : ℕ) (h : Accounted primary [] []) :
    InFlight { primaryTier := primary, numSecondaryTiers := n } [] [] where
  moving := ⟨h, fun e he => by rcases he with he | he <;> cases he⟩
  jobs e he := by cases he
  pendingLength e he := by cases he
  submitted := .refl _

variable (h : InFlight m stores loads)

include h in
lemma InFlight.withPrimary {stores' loads' : List (κ × ℕ)}
    (hp : Moving p (stores' ++ m.promotions) (loads' ++ m.cascades)) :
    InFlight { m with primaryTier := p } stores' loads' :=
  ⟨hp, h.jobs, h.pendingLength, h.submitted⟩

omit [DecidableEq κ] in
lemma map_fst_slots {j : JobMetadata κ} (h : j.blockIds.length = j.keys.length) :
    j.slots.map Prod.fst = j.keys :=
  map_fst_zip h.ge

variable {job : JobMetadata κ}

omit [DecidableEq κ] in
lemma perm_jobSlots {id : ℕ} (hjob : m.transferJobs.get? id = some job)
    (hm' : m'.transferJobs = m.transferJobs.erase id) (promotion : Bool) :
    (m.jobSlots promotion).Perm
      ((if job.isPromotion = promotion then job.slots else []) ++ m'.jobSlots promotion) := by
  have hperm := ((perm_erase hjob).filter (·.2.isPromotion = promotion)).flatMap_right fun e =>
    e.2.slots
  refine hperm.trans ?_
  rw [jobSlots, hm', filter_cons]
  by_cases hp : job.isPromotion = promotion
  · rw [if_pos (decide_eq_true hp), if_pos hp, flatMap_cons]
  · rw [if_neg (by simpa using hp), if_neg hp, nil_append]

/-! ## Finished jobs -/

lemma finishJob_spec (success : Bool) {writes reads : List (κ × ℕ)}
    (hnd : job.keys.Nodup) (hlen : job.blockIds.length = job.keys.length)
    (h : Moving p ((if job.isPromotion = true then job.slots else []) ++ writes)
      ((if job.isPromotion = false then job.slots else []) ++ reads)) :
    ∃ p', finishJob p job success = .ok p' ∧ Moving p' writes reads := by
  unfold finishJob
  rw [← map_fst_slots hlen] at hnd ⊢
  cases hp : job.isPromotion with
  | true =>
    rw [hp, if_pos rfl, if_neg (by decide)] at h
    obtain ⟨p', hrun, h', -⟩ := h.completeStore success
    exact ⟨p', by rw [if_pos rfl, hrun], h'⟩
  | false =>
    rw [hp, if_neg (by decide), if_pos rfl] at h
    obtain ⟨p', hrun, h'⟩ := h.completeLoad hnd
    exact ⟨p', by rw [if_neg (by decide), hrun], h'⟩

include h in
/-- A reported job gives its blocks back. -/
lemma InFlight.processJob {result : JobResult} (hreported : result.jobId ∈ m.submitted) :
    ∃ m', m.processJob result = .ok m' ∧ InFlight m' stores loads ∧
      m'.submitted = m.submitted.erase result.jobId ∧ m'.cascades.Subperm m.cascades ∧
      m' = { m with
        primaryTier := m'.primaryTier
        transferJobs := m'.transferJobs
        submitted := m'.submitted } := by
  obtain ⟨job, hjob⟩ : ∃ job, m.transferJobs.get? result.jobId = some job := by
    rw [← Option.ne_none_iff_exists', Ne, get?_eq_none_iff, not_not]
    exact h.submitted.mem_iff.mp hreported
  obtain ⟨-, hnd, hlen⟩ := h.jobs _ (get?_eq_some_iff.mp hjob)
  let m1 : Tiering κ := { m with
    transferJobs := m.transferJobs.erase result.jobId
    submitted := m.submitted.erase result.jobId }
  have hjobs : ∀ promotion, (m.jobSlots promotion).Perm
      ((if job.isPromotion = promotion then job.slots else []) ++ m1.jobSlots promotion) :=
    perm_jobSlots hjob rfl
  have hwrites : (stores ++ m.promotions).Perm
      ((if job.isPromotion = true then job.slots else []) ++ (stores ++ m1.promotions)) := by
    refine (((hjobs true).append_left _).append_left _).trans ?_
    show (stores ++ (m.pending.flatMap (·.slots) ++ (_ ++ m1.jobSlots true))).Perm
      (_ ++ (stores ++ (m.pending.flatMap (·.slots) ++ m1.jobSlots true)))
    rw [← append_assoc stores, ← append_assoc stores, ← append_assoc _ _ (m1.jobSlots true),
      ← append_assoc _ _ (m1.jobSlots true)]
    exact perm_append_comm.append_right _
  have hreads : (loads ++ m.cascades).Perm
      ((if job.isPromotion = false then job.slots else []) ++ (loads ++ m1.cascades)) := by
    refine ((hjobs false).append_left _).trans ?_
    rw [← append_assoc, ← append_assoc]
    exact perm_append_comm.append_right _
  obtain ⟨p, hrun, hp⟩ :=
    finishJob_spec result.success hnd hlen (h.moving.perm hwrites.symm hreads.symm)
  refine ⟨{ m1 with primaryTier := p }, ?_, ?_, rfl, ?_, rfl⟩
  · rw [Tiering.processJob, hjob]
    dsimp only
    rw [hrun, ok_bind]
  · exact
      { moving := hp
        jobs := fun e he => h.jobs e (mem_filter.mp he).1
        pendingLength := h.pendingLength
        submitted := by
          have hkeys := (perm_erase hjob).map Prod.fst
          have hold : m.submitted.Perm (result.jobId :: (m.transferJobs.erase result.jobId).keys) :=
            h.submitted.trans hkeys
          have herase := hold.erase result.jobId
          rw [erase_cons_head] at herase
          exact herase }
  · exact ((sublist_append_right _ _).subperm).trans (hjobs false).symm.subperm

def Reported (m : Tiering κ) (results : List JobResult) : Prop :=
  (results.map (·.jobId)).Nodup ∧ ∀ r ∈ results, r.jobId ∈ m.submitted

section

variable (h : InFlight m stores loads)
include h

variable {results : List JobResult}

lemma InFlight.processFinishedJobs
    (hrep : m.Reported results) :
    ∃ m', m.processFinishedJobs results = .ok m' ∧ InFlight m' stores loads ∧
      m'.submitted = m.submitted.diff (results.map (·.jobId)) ∧ m'.cascades.Subperm m.cascades ∧
      m' = { m with
        primaryTier := m'.primaryTier
        transferJobs := m'.transferJobs
        submitted := m'.submitted } := by
  unfold Tiering.processFinishedJobs
  induction results generalizing m with
  | nil => exact ⟨m, rfl, h, rfl, .refl _, rfl⟩
  | cons r rs ih =>
    obtain ⟨hnd, hmem⟩ := hrep
    rw [map_cons, nodup_cons] at hnd
    obtain ⟨m1, hrun, h1, hsub1, hcas1, hframe1⟩ := h.processJob (hmem r mem_cons_self)
    have hmem1 : ∀ r' ∈ rs, r'.jobId ∈ m1.submitted := by
      intro r' hr'
      have hne : r'.jobId ≠ r.jobId := fun heq => hnd.1 (mem_map.mpr ⟨r', hr', heq⟩)
      rw [hsub1]
      exact (mem_erase_of_ne hne).mpr (hmem r' (mem_cons_of_mem r hr'))
    obtain ⟨m', hrest, h', hsub, hcas, hframe⟩ := ih h1 ⟨hnd.2, hmem1⟩
    refine ⟨m', ?_, h', ?_, hcas.trans hcas1, ?_⟩
    · rw [foldlM_cons, hrun, ok_bind, hrest]
    · rw [hsub, hsub1, map_cons, diff_cons]
    · rw [hframe, hframe1]

lemma InFlight.maybeProcessFinishedJobs
    (hrep : m.processedJobsThisStep = false → m.Reported results) :
    ∃ m', m.maybeProcessFinishedJobs results = .ok m' ∧ InFlight m' stores loads ∧
    m'.cascades.Subperm m.cascades ∧
      m' = { m with
        primaryTier := m'.primaryTier
        transferJobs := m'.transferJobs
        submitted := m'.submitted
        processedJobsThisStep := true } := by
  unfold Tiering.maybeProcessFinishedJobs
  cases hdone : m.processedJobsThisStep with
  | true =>
    refine ⟨m, if_pos rfl, h, .refl _, ?_⟩
    rw [← hdone]
  | false =>
    rw [if_neg Bool.false_ne_true]
    have h1 : InFlight { m with processedJobsThisStep := true } stores loads :=
      ⟨h.moving, h.jobs, h.pendingLength, h.submitted⟩
    have hrep1 : Reported { m with processedJobsThisStep := true } results := hrep hdone
    obtain ⟨m', hrun, h', -, hcas, hframe⟩ := h1.processFinishedJobs hrep1
    exact ⟨m', hrun, h', hcas, hframe⟩

/-! ## Submitting jobs -/

lemma jobSlots_submit (keys : List κ) (blockIds : List ℕ) (isPromotion : Bool)
    (reqId : String) : m.jobIdCounter ∉ m.transferJobs.keys ∧ ∀ promotion,
      (m.submit keys blockIds isPromotion reqId).jobSlots promotion =
        m.jobSlots promotion ++ if isPromotion = promotion then keys.zip blockIds else [] := by
  have hfresh : m.jobIdCounter ∉ m.transferJobs.keys := by
    intro hmem
    obtain ⟨e, he, heq⟩ := mem_map.mp hmem
    have := (h.jobs e he).1
    omega
  refine ⟨hfresh, fun promotion => ?_⟩
  rw [jobSlots, submit, entries_set hfresh, filter_append, flatMap_append]
  congr 1
  by_cases hp : isPromotion = promotion
  · simp [hp, JobMetadata.slots]
  · simp [hp]

lemma InFlight.bookkeeping_submit {blockIds : List ℕ}
    (isPromotion : Bool) (reqId : String) (hnd : keys.Nodup)
    (hlen : blockIds.length = keys.length) :
    (∀ e ∈ (m.submit keys blockIds isPromotion reqId).transferJobs.entries,
      e.1 < m.jobIdCounter + 1 ∧ e.2.keys.Nodup ∧ e.2.blockIds.length = e.2.keys.length) ∧
    (m.submit keys blockIds isPromotion reqId).submitted.Perm
      (m.submit keys blockIds isPromotion reqId).transferJobs.keys := by
  have hfresh := (jobSlots_submit h keys blockIds isPromotion reqId).1
  constructor
  · intro e he
    rw [submit, entries_set hfresh, mem_append, mem_singleton] at he
    rcases he with he | rfl
    · exact ⟨Nat.lt_succ_of_lt (h.jobs e he).1, (h.jobs e he).2⟩
    · exact ⟨Nat.lt_succ_self _, hnd, hlen⟩
  show (m.submitted ++ [m.jobIdCounter]).Perm ((m.transferJobs.set _ _).entries.map Prod.fst)
  rw [entries_set hfresh, map_append]
  exact h.submitted.append_right _

end

variable (reqId : String)

lemma InFlight.submitPromotion {blockIds : List ℕ}
    (h : InFlight m (stores ++ keys.zip blockIds) loads) (hlen : blockIds.length = keys.length) :
    InFlight (m.submit keys blockIds true reqId) stores loads := by
  obtain ⟨-, hjobs⟩ := jobSlots_submit h keys blockIds true reqId
  have hpromotions : (stores ++ (m.submit keys blockIds true reqId).promotions).Perm
      (stores ++ keys.zip blockIds ++ m.promotions) := by
    rw [promotions, hjobs true, if_pos rfl, append_assoc, ← append_assoc _ (m.jobSlots true)]
    exact perm_append_comm.append_left _
  have hcascades : (m.submit keys blockIds true reqId).cascades = m.cascades := by
    rw [cascades, hjobs false, if_neg (by decide), append_nil, cascades]
  have hnd : keys.Nodup := by
    have hall := h.moving.accounted.storing_nodup
    rw [map_append, map_append, map_fst_zip hlen.ge] at hall
    exact (nodup_append.mp (nodup_append.mp hall).1).2.1
  exact
    { moving := by
        rw [hcascades]
        exact h.moving.perm hpromotions (.refl _)
      jobs := (h.bookkeeping_submit true reqId hnd hlen).1
      pendingLength := h.pendingLength
      submitted := (h.bookkeeping_submit true reqId hnd hlen).2 }

include h in
lemma InFlight.cascade (hnd : keys.Nodup)
    (hready : ∀ k ∈ keys, k ∈ m.primaryTier.policy.blocks.map Prod.fst ∧
      k ∉ (stores ++ m.promotions).map Prod.fst ∧
      ((loads ++ m.cascades).map Prod.fst).count k + 1 < 2 ^ 31) :
    ∃ m', m.cascade keys reqId = .ok m' ∧ InFlight m' stores loads ∧
      m'.cascades.map Prod.fst = m.cascades.map Prod.fst ++ keys ∧ m'.promotions = m.promotions ∧
      m'.primaryTier.policy.blocks.map Prod.fst = m.primaryTier.policy.blocks.map Prod.fst := by
  obtain ⟨spec, p, hrun, hp, hkeys, hspec, hsl⟩ := h.moving.accounted.prepareLoad hnd hready
  obtain ⟨hlen, hmoving⟩ := h.moving.load hp hspec hsl
  obtain ⟨-, hjobs⟩ := jobSlots_submit h keys spec false reqId
  have hcascades : ({ m with primaryTier := p }.submit keys spec false reqId).cascades =
    m.cascades ++ keys.zip spec := by
    have := hjobs false
    rwa [if_pos rfl] at this
  have hpromotions : ({ m with primaryTier := p }.submit keys spec false reqId).promotions =
    m.promotions := by
    have hsame := hjobs true
    rw [if_neg (by decide), append_nil] at hsame
    show _ ++ (m.submit keys spec false reqId).jobSlots true = _
    rw [hsame]
    rfl
  refine ⟨{ m with primaryTier := p }.submit keys spec false reqId, ?_, ?_, ?_, hpromotions, hkeys⟩
  · rw [Tiering.cascade, hrun, ok_bind]
  · exact
      { moving := by
          rw [hpromotions, hcascades, ← append_assoc]
          exact hmoving.perm (.refl _) perm_append_comm
        jobs := (h.bookkeeping_submit false reqId hnd hlen).1
        pendingLength := h.pendingLength
        submitted := (h.bookkeeping_submit false reqId hnd hlen).2 }
  · rw [hcascades, map_append, map_fst_zip hlen.ge]

lemma InFlight.cascadeAll (n : ℕ) (h : InFlight m stores loads) (hnd : keys.Nodup)
    (hready : ∀ k ∈ keys, k ∈ m.primaryTier.policy.blocks.map Prod.fst ∧
      k ∉ (stores ++ m.promotions).map Prod.fst ∧
      ((loads ++ m.cascades).map Prod.fst).count k + n < 2 ^ 31) :
    ∃ m', Tiering.cascadeAll keys reqId n m = .ok m' ∧ InFlight m' stores loads := by
  induction n generalizing m with
  | zero => exact ⟨m, rfl, h⟩
  | succ n ih =>
    obtain ⟨m1, hrun, h1, hcas, hprom, hkeys⟩ := h.cascade reqId hnd fun k hk => by
      obtain ⟨hres, hnot, hfew⟩ := hready k hk
      exact ⟨hres, hnot, by omega⟩
    have hready1 : ∀ k ∈ keys, k ∈ m1.primaryTier.policy.blocks.map Prod.fst ∧
        k ∉ (stores ++ m1.promotions).map Prod.fst ∧
        ((loads ++ m1.cascades).map Prod.fst).count k + n < 2 ^ 31 := by
      intro k hk
      obtain ⟨hres, hnot, hfew⟩ := hready k hk
      refine ⟨hkeys ▸ hres, hprom ▸ hnot, ?_⟩
      have hone : keys.count k = 1 := count_eq_one_of_mem hnd hk
      rw [map_append, count_append] at hfew
      rw [map_append, hcas, count_append, count_append, hone]
      omega
    obtain ⟨m', hrest, h'⟩ := ih h1 hready1
    exact ⟨m', by rw [Tiering.cascadeAll, hrun, ok_bind, hrest], h'⟩

/-! ## Promotions -/

include h in
lemma InFlight.withoutPending :
    InFlight { m with pendingLoadSubmissions := .empty } (stores ++ m.pending.flatMap (·.slots))
    loads where
  moving := by
    rw [append_assoc]
    exact h.moving
  __ := h
  pendingLength e he := by cases he

lemma InFlight.submitAll {es : List (PendingPromotion κ)}
    (h : InFlight m (stores ++ es.flatMap (·.slots)) loads)
    (hlen : ∀ e ∈ es, e.blockIds.length = e.keys.length) :
    InFlight (es.foldl (fun m e => m.submit e.keys e.blockIds true e.reqId) m) stores loads := by
  induction es generalizing m with
  | nil =>
    rw [flatMap_nil, append_nil] at h
    exact h
  | cons e es ih =>
    have hperm : (stores ++ (e :: es).flatMap (·.slots)).Perm
        (stores ++ es.flatMap (·.slots) ++ e.keys.zip e.blockIds) := by
      rw [flatMap_cons, append_assoc]
      exact perm_append_comm.append_left _
    have h' : InFlight m (stores ++ es.flatMap (·.slots) ++ e.keys.zip e.blockIds) loads :=
      ⟨h.moving.perm (hperm.symm.append_right _) (.refl _), h.jobs, h.pendingLength, h.submitted⟩
    exact ih (h'.submitPromotion e.reqId (hlen e mem_cons_self)) fun e' he' =>
      hlen e' (mem_cons_of_mem e he')

omit [DecidableEq κ] in
lemma foldl_submit_pending (es : List (PendingPromotion κ)) (m : Tiering κ)
    (d : OrderedDict ℕ (OrderedDict String (PendingPromotion κ))) :
    es.foldl (fun m e => m.submit e.keys e.blockIds true e.reqId)
    { m with pendingLoadSubmissions := d } =
      { es.foldl (fun m (e : PendingPromotion κ) => m.submit e.keys e.blockIds true e.reqId) m with
        pendingLoadSubmissions := d } := by
  induction es generalizing m with
  | nil => rfl
  | cons e es ih => exact ih (m.submit e.keys e.blockIds true e.reqId)

include h in
lemma InFlight.flush : InFlight m.flushPendingPromotions stores loads := by
  have hall := h.withoutPending.submitAll h.pendingLength
  rw [foldl_submit_pending] at hall
  exact hall

omit [DecidableEq κ] in
lemma perm_setPending (m : Tiering κ) (tier : ℕ) (reqId : String) (entry : PendingPromotion κ) :
    ∃ rest : List (PendingPromotion κ),
      (m.pending.flatMap (·.slots)).Perm
      ((m.pendingEntry tier reqId).slots ++ rest.flatMap (·.slots)) ∧
      (m.setPending tier reqId entry).pending.Perm (entry :: rest) ∧ (∀ e ∈ rest, e ∈ m.pending) ∧
      (m.pendingEntry tier reqId ∈ m.pending ∨ m.pendingEntry tier reqId = { reqId := reqId }) := by
  let inner := (m.pendingLoadSubmissions.get? tier).getD .empty
  let others :=
    (m.pendingLoadSubmissions.erase tier).entries.flatMap fun e => e.2.entries.map Prod.snd
  let rest := (inner.erase reqId).entries.map Prod.snd ++ others
  -- The entries of the tier, and among them that of the request.
  have houter : m.pending.Perm (inner.entries.map Prod.snd ++ others) := by
    have hperm := (perm_toList_append_erase m.pendingLoadSubmissions tier).flatMap_right
      fun e => e.2.entries.map Prod.snd
    rw [flatMap_append] at hperm
    refine hperm.trans (Perm.append_right _ (.of_eq ?_))
    show _ = ((m.pendingLoadSubmissions.get? tier).getD .empty).entries.map Prod.snd
    cases m.pendingLoadSubmissions.get? tier with
    | none => rfl
    | some d => exact append_nil _
  have hinner : (inner.entries.map Prod.snd).Perm
      ((inner.get? reqId).toList ++ (inner.erase reqId).entries.map Prod.snd) := by
    have hperm := (perm_toList_append_erase inner reqId).map Prod.snd
    rw [map_append, map_map] at hperm
    exact hperm.trans (.of_eq (congrArg (· ++ _) (map_id _)))
  have hall : m.pending.Perm ((inner.get? reqId).toList ++ rest) := by
    refine houter.trans ((hinner.append_right _).trans ?_)
    rw [append_assoc]
  have hentry : m.pendingEntry tier reqId = (inner.get? reqId).getD { reqId := reqId } := rfl
  refine ⟨rest, ?_, ?_, fun e he => hall.mem_iff.mpr (mem_append_right _ he), ?_⟩
  · refine (hall.flatMap_right fun e => e.slots).trans ?_
    rw [flatMap_append, hentry]
    cases inner.get? reqId with
    | none => exact .refl _
    | some e => exact .of_eq (congrArg (· ++ _) (append_nil _))
  · have hset := (perm_set m.pendingLoadSubmissions tier (inner.set reqId entry)).flatMap_right
      fun e => e.2.entries.map Prod.snd
    rw [flatMap_cons] at hset
    exact hset.trans (((perm_set inner reqId entry).map Prod.snd).append_right _)
  rw [hentry]
  cases h : inner.get? reqId with
  | none => exact .inr rfl
  | some e =>
    exact .inl (hall.mem_iff.mpr (mem_append_left _ (by rw [h]; exact mem_singleton_self e)))

lemma InFlight.addPending {out : PrepareStoreOutput κ} {tier : ℕ} {reqId : String}
    {e : PendingPromotion κ} (h : InFlight m (out.keysToStore.zip out.storeSpec ++ stores) loads)
    (hlen : out.storeSpec.length = out.keysToStore.length)
    (hkeys : e.keys = (m.pendingEntry tier reqId).keys ++ out.keysToStore)
    (hids : e.blockIds = (m.pendingEntry tier reqId).blockIds ++ out.storeSpec) :
    InFlight (m.setPending tier reqId e) stores loads := by
  obtain ⟨rest, hold, hnew, hsub, hmem⟩ := perm_setPending m tier reqId e
  have hentry : (m.pendingEntry tier reqId).blockIds.length =
    (m.pendingEntry tier reqId).keys.length := by
    rcases hmem with hmem | heq
    · exact h.pendingLength _ hmem
    rw [heq]
    rfl
  have hnewSlots := hnew.flatMap_right fun e => e.slots
  rw [flatMap_cons] at hnewSlots
  rw [PendingPromotion.slots, hkeys, hids, zip_append hentry.symm] at hnewSlots
  have hwrites : (stores ++ (m.setPending tier reqId e).promotions).Perm
      (out.keysToStore.zip out.storeSpec ++ stores ++ m.promotions) := by
    rw [perm_iff_count]
    intro x
    have hcnt := hold.count_eq x
    have hcnt' := hnewSlots.count_eq x
    simp only [promotions, PendingPromotion.slots, count_append] at hcnt hcnt' ⊢
    rw [hcnt, hcnt']
    show _ + (_ + (m.jobSlots true).count x) = _
    omega
  exact
    { moving := h.moving.perm hwrites (.refl _)
      jobs := h.jobs
      pendingLength := fun e he => by
        rcases mem_cons.mp (hnew.mem_iff.mp he) with rfl | he
        · rw [hkeys, hids, length_append, length_append, hentry, hlen]
        · exact h.pendingLength e (hsub e he)
      submitted := h.submitted }

include h

lemma InFlight.prepareStorePrimary (hnd : keys.Nodup) :
    (∃ p, m.primaryTier.prepareStore keys = .ok (none, p) ∧
      InFlight { m with primaryTier := p } stores loads) ∨
      ∃ out p, m.primaryTier.prepareStore keys = .ok (some out, p) ∧
        out.storeSpec.length = out.keysToStore.length ∧
        InFlight { m with primaryTier := p } (out.keysToStore.zip out.storeSpec ++ stores)
          loads := by
  rcases h.moving.prepareStore hnd with ⟨p, hrun, hp⟩ | ⟨out, p, hrun, hlen, hp⟩
  · exact .inl ⟨p, hrun, h.withPrimary hp⟩
  · exact .inr ⟨out, p, hrun, hlen, h.withPrimary (by rwa [append_assoc])⟩

lemma InFlight.withPolicy
    (hp : Accounted p ((stores ++ m.promotions).map Prod.fst) ((loads ++ m.cascades).map Prod.fst))
    (hsl : ∀ k, p.slotOf k = m.primaryTier.slotOf k) :
    InFlight { m with primaryTier := p } stores loads :=
  h.withPrimary ⟨hp, fun e he => (hsl e.1).trans (h.moving.slots e he)⟩

lemma InFlight.lookupPrimary {k : κ} :
    (∃ r p, m.primaryTier.lookup k = .ok (r, p) ∧
      InFlight { m with primaryTier := p } stores loads) ∨
      m.primaryTier.lookup k = .error (.keyError "dictionary is empty") := by
  rcases h.moving.accounted.lookup (k := k) with ⟨r, p, hrun, hp, hpol, -⟩ | herr
  · exact .inl ⟨r, p, hrun, h.withPolicy hp fun k' => by rw [CPUManager.slotOf, hpol]; rfl⟩
  · exact .inr herr

omit h

lemma readyKeys_spec {storing reading : List κ} (keys : List κ) (h : Accounted p storing reading) :
    (∃ ready p', readyKeys keys p = .ok (ready, p') ∧ Accounted p' storing reading ∧
      p'.policy = p.policy ∧
      ready.Sublist keys ∧ ∀ k ∈ ready, k ∈ p.policy.blocks.map Prod.fst ∧ k ∉ storing) ∨
      readyKeys keys p = .error (.keyError "dictionary is empty") := by
  induction keys generalizing p with
  | nil => exact .inl ⟨[], p, rfl, h, rfl, .refl _, fun k hk => by cases hk⟩
  | cons k ks ih =>
    rw [readyKeys]
    rcases h.lookup (k := k) with ⟨r, p1, hrun, h1, hpol, -, hready⟩ | herr
    · rw [hrun, ok_bind]
      dsimp only
      rcases ih h1 with ⟨ready, p', hrest, h', hpol', hsub, hall⟩ | herr
      · rw [hrest, ok_bind]
        rw [hpol] at hall
        refine .inl ⟨_, p', rfl, h', hpol'.trans hpol, ?_, fun k' hk' => ?_⟩
        · split
          · exact hsub.cons_cons k
          · exact hsub.cons k
        split at hk'
        next hr =>
          rcases mem_cons.mp hk' with rfl | hk'
          · exact hready.mp hr
          · exact hall k' hk'
        · exact hall k' hk'
      · exact .inr (by rw [herr]; rfl)
    · exact .inr (by rw [herr]; rfl)

lemma perm_append_diff {es l : List (κ × ℕ)} (hnd : (es.map Prod.fst).Nodup)
    (hmem : ∀ e ∈ es, e ∈ l) :
    (es ++ l.diff es).Perm l := by
  refine subperm_append_diff_self_of_count_le fun e he => ?_
  rw [count_eq_one_of_mem (.of_map _ hnd) he]
  exact count_pos_iff.mpr (hmem e he)

variable {es : List (κ × ℕ)}

include h in
lemma InFlight.completeLoad (hnd : (es.map Prod.fst).Nodup) (hmem : ∀ e ∈ es, e ∈ loads) :
    ∃ m', m.completeLoad (es.map Prod.fst) = .ok m' ∧ InFlight m' stores (loads.diff es) := by
  have hreads := (perm_append_diff hnd hmem).append_right m.cascades
  rw [append_assoc] at hreads
  obtain ⟨p, hrun, hp⟩ := (h.moving.perm (.refl _) hreads).completeLoad hnd
  exact ⟨{ m with primaryTier := p }, by rw [Tiering.completeLoad, hrun, ok_bind], h.withPrimary hp⟩

lemma InFlight.completeStore (success : Bool) (h : InFlight m stores loads)
    (hnd : (es.map Prod.fst).Nodup) (hmem : ∀ e ∈ es, e ∈ stores)
    (htiers : m.numSecondaryTiers < 2 ^ 31) :
    ∃ m', m.completeStore (es.map Prod.fst) reqId success = .ok m' ∧
    InFlight m' (stores.diff es) loads := by
  have hwrites := (perm_append_diff hnd hmem).append_right m.promotions
  rw [append_assoc] at hwrites
  have hmoving := h.moving.perm hwrites (.refl _)
  obtain ⟨p, hrun, hp, hsl⟩ := hmoving.completeStore success
  have h1 : InFlight { m with primaryTier := p } (stores.diff es) loads := h.withPrimary hp
  rw [Tiering.completeStore, hrun, ok_bind]
  dsimp only
  cases success with
  | false => exact ⟨_, rfl, h1⟩
  | true =>
    rw [if_pos rfl]
    refine h1.cascadeAll reqId _ hnd fun k hk => ?_
    obtain ⟨e, he, rfl⟩ := mem_map.mp hk
    have hslot : p.slotOf e.1 = some e.2 :=
      (hsl rfl e.1).trans (h.moving.slots e (.inl (mem_append_left _ (hmem e he))))
    refine ⟨CPUManager.mem_of_slotOf hp.accounted.valid hslot, (hmoving.notMem hk).1, ?_⟩
    show ((loads ++ m.cascades).map Prod.fst).count e.1 + m.numSecondaryTiers < 2 ^ 31
    rw [count_eq_zero.mpr (hmoving.notMem hk).2]
    omega

end Tiering

end Vllm.Offload
