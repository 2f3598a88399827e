import Vllm.KVCache.CacheHitLength

/-!
# The longest hybrid cache hit

Without EAGLE a visit returns the greatest valid length below the current one; the fixed point is
valid for all.
-/

namespace Vllm.CacheHit

open List

variable {p : BlockPool} {c : HybridCoordinator} {blockHashes : List Bytes} {maxHit : ℕ}
  {st st' : HitState} {g : SpecGroup} {idx : ℕ}
variable {gids : List ℕ} {spec : KVCacheSpec} {out : ℕ × HitState} {groups : List KVCacheGroupSpec}

variable (p c blockHashes) in
/-- A hit of `L` tokens is valid for a group, by its own block size. -/
def GroupValid (spec : KVCacheSpec) (gids : List ℕ) (L : ℕ) : Prop :=
  ∃ hashes, BlockPool.blockHashesAt c.hashBlockSize spec.blockSize blockHashes = .ok hashes ∧
    ValidHit p hashes gids spec L

lemma getCachedBlock_isSome_iff {x : Bytes} : (p.getCachedBlock x gids).isSome = true ↔
      ∀ gid ∈ gids, (p.getOneBlock (makeBlockHashWithGroupId x gid)).isSome = true := by
  unfold BlockPool.getCachedBlock
  induction gids with
  | nil => simp
  | cons gid gids ih =>
    rw [mapM_cons, forall_mem_cons, ← ih]
    cases p.getOneBlock (makeBlockHashWithGroupId x gid) with
    | none => simp
    | some b =>
      cases gids.mapM fun gid => p.getOneBlock (makeBlockHashWithGroupId x gid) <;> simp

variable {hashes : BlockHashList}

lemma cachedAt_iff (hne : gids ≠ []) {j : ℕ} :
    CachedAt p hashes gids j ↔ ∀ gid ∈ gids, CachedAt p hashes [gid] j := by
  have hone : ∀ {gids : List ℕ}, CachedAt p hashes gids j ↔
      ∃ x, hashes.get j = .ok x ∧ (p.getCachedBlock x gids).isSome = true := by
    intro gids
    simp only [CachedAt, Option.isSome_iff_exists]
    constructor
    · rintro ⟨x, row, hx, hrow⟩
      exact ⟨x, hx, row, hrow⟩
    · rintro ⟨x, hx, row, hrow⟩
      exact ⟨x, row, hx, hrow⟩
  simp only [hone, getCachedBlock_isSome_iff, mem_singleton, forall_eq]
  constructor
  · rintro ⟨x, hx, hall⟩ gid hgid
    exact ⟨x, hx, hall gid hgid⟩
  intro hall
  obtain ⟨gid, hgid⟩ := exists_mem_of_ne_nil _ hne
  obtain ⟨x, hx, -⟩ := hall gid hgid
  refine ⟨x, hx, fun gid' hgid' => ?_⟩
  obtain ⟨y, hy, hsome⟩ := hall gid' hgid'
  obtain rfl := Except.ok.inj (hx.symm.trans hy)
  exact hsome

lemma validHit_iff (hne : gids ≠ [])
    {L : ℕ} : ValidHit p hashes gids spec L ↔ ∀ gid ∈ gids, ValidHit p hashes [gid] spec L := by
  obtain ⟨gid0, hgid0⟩ := exists_mem_of_ne_nil _ hne
  unfold ValidHit
  split
  · simp only [cachedAt_iff hne]
    exact ⟨fun h gid hgid j hj => h j hj gid hgid, fun h j hj gid hgid => h gid hgid j hj⟩
  · simp only [cachedAt_iff hne]
    exact ⟨fun h gid hgid j hj hw => h j hj hw gid hgid,
      fun h j hj hw gid hgid => h gid hgid j hj hw⟩
  · simp only [cachedAt_iff hne]
    exact ⟨fun h gid hgid j hj hw => h j hj hw gid hgid,
      fun h j hj hw gid hgid => h gid hgid j hj hw⟩
  · rw [cachedAt_iff hne]
    exact ⟨fun h gid hgid => h.imp_right fun h => h gid hgid, fun h => by
      by_cases hL : L = 0
      · exact Or.inl hL
      · exact Or.inr fun gid hgid => (h gid hgid).resolve_left hL⟩
  · exact ⟨fun h => h.elim, fun h => h gid0 hgid0⟩

lemma groupValid_iff (hne : gids ≠ []) {L : ℕ} :
    GroupValid p c blockHashes spec gids L ↔
    ∀ gid ∈ gids, GroupValid p c blockHashes spec [gid] L := by
  constructor
  · rintro ⟨hashes, hhs, hvalid⟩ gid hgid
    exact ⟨hashes, hhs, (validHit_iff hne).mp hvalid gid hgid⟩
  intro hall
  obtain ⟨gid, hgid⟩ := exists_mem_of_ne_nil _ hne
  obtain ⟨hashes, hhs, -⟩ := hall gid hgid
  refine ⟨hashes, hhs, (validHit_iff hne).mpr fun gid' hgid' => ?_⟩
  obtain ⟨hashes', hhs', hvalid⟩ := hall gid' hgid'
  obtain rfl := Except.ok.inj (hhs.symm.trans hhs')
  exact hvalid

lemma GroupValid.full_mono {L L' : ℕ} (hfull : spec.isFull = true)
    (hle : L' ≤ L) (h : GroupValid p c blockHashes spec gids L) :
    GroupValid p c blockHashes spec gids L' := by
  obtain ⟨hashes, hhs, hvalid⟩ := h
  have hatt : spec.attention = .full := of_decide_eq_true hfull
  refine ⟨hashes, hhs, ?_⟩
  simp only [ValidHit, hatt] at hvalid ⊢
  exact fun j hj => hvalid j (hj.trans_le (Nat.div_le_div_right hle))

variable (c blockHashes maxHit) in
/-- A lookup without EAGLE whose hashes cover the maximal length; chunks are whole blocks of the
scheduler's size. -/
structure Lookup : Prop where
  wf : c.WellFormed
  noEagle : ∀ g ∈ c.attentionGroups, g.useEagle = false
  hashes : ∀ g ∈ c.attentionGroups, ∃ hashes,
    BlockPool.blockHashesAt c.hashBlockSize g.spec.blockSize blockHashes = .ok hashes ∧
      maxHit / g.spec.blockSize ≤ hashes.length ∧
      ∀ j < maxHit / g.spec.blockSize, ∃ x, hashes.get j = .ok x
  supported : ∀ g ∈ c.attentionGroups, g.spec.attention ≠ .crossAttention
  chunk : ∀ g ∈ c.attentionGroups, ∀ n, g.spec.attention = .chunkedLocal n →
    g.spec.blockSize = c.schedulerBlockSize ∧ g.spec.blockSize ∣ n

lemma visitGroup_greatest (hl : Lookup c blockHashes maxHit) (hg : c.attentionGroups[idx]? = some g)
    (hcurr : st.currHitLength ≤ maxHit)
    (hnew : ¬ (g.spec.isFull = true ∧ (st.hitRows idx).isSome = true))
    (h : visitGroup p c blockHashes maxHit st g idx = .ok st') :
    IsGreatest {L | L ≤ st.currHitLength ∧ c.schedulerBlockSize ∣ L ∧
      GroupValid p c blockHashes g.spec g.groupIds L} st'.currHitLength := by
  have hmem := mem_of_getElem? hg
  obtain ⟨hfull, hsome, -⟩ | ⟨drop, maxLength, hashes, rows, -, hdrop, hmax, hhs, hfind, rfl⟩ :=
    visitGroup_cases h
  · exact absurd ⟨hfull, hsome⟩ hnew
  rw [hl.noEagle g hmem] at hdrop
  obtain rfl : drop = false := by simpa using hdrop
  subst hmax
  obtain ⟨hashes', hhs', hcover, -⟩ := hl.hashes g hmem
  obtain rfl := Except.ok.inj (hhs.symm.trans hhs')
  have hgreatest := findLongestCacheHit_greatest (hl.wf.size_pos g hmem) (hl.wf.size_dvd g hmem)
    ((Nat.div_le_div_right hcurr).trans hcover) (fun n hn => (hl.chunk g hmem n hn).2) hfind
  have hvalid : ∀ L, GroupValid p c blockHashes g.spec g.groupIds L ↔
    ValidHit p hashes g.groupIds g.spec L := by
    intro L
    refine ⟨fun ⟨hashes', hhs', hvalid⟩ => ?_, fun hvalid => ⟨hashes, hhs, hvalid⟩⟩
    rwa [Except.ok.inj (hhs.symm.trans hhs')]
  simpa only [hvalid] using hgreatest

variable (p c blockHashes maxHit) in
/-- The invariant of the rounds: the rows of a full-attention group are a valid hit of it. -/
structure GreatestInv (st : HitState) : Prop extends LengthInv c maxHit st where
  curr_le : st.currHitLength ≤ maxHit
  fullValid : ∀ {idx g rows}, c.attentionGroups[idx]? = some g → g.spec.isFull = true →
    st.hitRows idx = some rows →
    GroupValid p c blockHashes g.spec g.groupIds (rows.length * g.spec.blockSize)

section

variable (hl : Lookup c blockHashes maxHit)
include hl

lemma GreatestInv.visitGroup (hg : c.attentionGroups[idx]? = some g)
    (hst : GreatestInv p c blockHashes maxHit st)
    (h : visitGroup p c blockHashes maxHit st g idx = .ok st') :
    GreatestInv p c blockHashes maxHit st' where
  toLengthInv := hst.toLengthInv.visitGroup hl.wf (hl.noEagle g (mem_of_getElem? hg)) hg h
  curr_le := (visitGroup_le (hl.noEagle g (mem_of_getElem? hg)) h).trans hst.curr_le
  fullValid {j g' rows'} hg' hfull hrows' := by
    by_cases hnew : g.spec.isFull = true ∧ (st.hitRows idx).isSome = true
    · obtain ⟨-, -, rfl⟩ | ⟨_, _, _, _, hnot, -⟩ := visitGroup_cases h
      · exact hst.fullValid hg' hfull hrows'
      · exact absurd hnew hnot
    obtain ⟨⟨rows, hrows, hlen⟩, hoth⟩ := hitRows_visitGroup h
    rcases eq_or_ne j idx with rfl | hj
    · obtain rfl : g = g' := Option.some.inj (hg.symm.trans hg')
      obtain rfl : rows = rows' := Option.some.inj (hrows.symm.trans hrows')
      have hnone : st.hitRows j = none := by simpa [hfull] using hnew
      have hvalid := (visitGroup_greatest hl hg hst.curr_le hnew h).1.2.2
      rwa [hlen (Or.inr hnone)] at hvalid
    · rw [hoth j hj] at hrows'
      exact hst.fullValid hg' hfull hrows'

lemma visitGroup_valid (hg : c.attentionGroups[idx]? = some g)
    (hst : GreatestInv p c blockHashes maxHit st)
    (h : visitGroup p c blockHashes maxHit st g idx = .ok st') :
    (∀ x ≤ st.currHitLength, c.schedulerBlockSize ∣ x →
      GroupValid p c blockHashes g.spec g.groupIds x →
      x ≤ st'.currHitLength) ∧ GroupValid p c blockHashes g.spec g.groupIds st'.currHitLength := by
  by_cases hnew : g.spec.isFull = true ∧ (st.hitRows idx).isSome = true
  · obtain ⟨-, -, rfl⟩ | ⟨_, _, _, _, hnot, -⟩ := visitGroup_cases h
    · rw [div_mul_eq_of_aligned hl.wf (mem_of_getElem? hg) hst.aligned hnew.2]
      obtain ⟨rows, hrows⟩ := Option.isSome_iff_exists.mp hnew.2
      exact ⟨fun x hx _ _ => hx,
        (hst.fullValid hg hnew.1 hrows).full_mono hnew.1 (hst.full hg hnew.1 hrows)⟩
    · exact absurd hnew hnot
  · have hgreatest := visitGroup_greatest hl hg hst.curr_le hnew h
    exact ⟨fun x hx hdvd hvalid => hgreatest.2 ⟨hx, hdvd, hvalid⟩, hgreatest.1.2.2⟩

lemma visitGroups_valid {gs : List SpecGroup}
    (hgs : c.attentionGroups.drop idx = gs) (hst : GreatestInv p c blockHashes maxHit st)
    (h : visitGroups p c blockHashes maxHit gs idx st = .ok st') :
    GreatestInv p c blockHashes maxHit st' ∧ st'.currHitLength ≤ st.currHitLength ∧
    (∀ x ≤ st.currHitLength, c.schedulerBlockSize ∣ x →
      (∀ g ∈ gs, GroupValid p c blockHashes g.spec g.groupIds x) → x ≤ st'.currHitLength) ∧
    (st'.currHitLength = st.currHitLength →
      ∀ g ∈ gs, GroupValid p c blockHashes g.spec g.groupIds st'.currHitLength) := by
  induction gs generalizing idx st with
  | nil =>
    cases h
    exact ⟨hst, le_rfl, fun _ hx _ _ => hx, fun _ g hg => absurd hg not_mem_nil⟩
  | cons g gs ih =>
    unfold visitGroups at h
    obtain ⟨st1, hvisit, h⟩ := of_bind h
    obtain ⟨hg, hrest⟩ := drop_eq_cons hgs
    have hle1 := visitGroup_le (hl.noEagle _ (mem_of_getElem? hg)) hvisit
    obtain ⟨hpass, hvalid⟩ := visitGroup_valid hl hg hst hvisit
    obtain ⟨hst', hle, hpasses, hvalids⟩ := ih hrest (hst.visitGroup hl hg hvisit) h
    refine ⟨hst', hle.trans hle1, fun x hx hdvd hall => ?_, fun heq => ?_⟩
    · rw [forall_mem_cons] at hall
      exact hpasses x (hpass x hx hdvd hall.1) hdvd hall.2
    · have heq1 : st'.currHitLength = st1.currHitLength := by omega
      exact forall_mem_cons.mpr ⟨heq1 ▸ hvalid, hvalids heq1⟩

end

variable (p c blockHashes maxHit) in
def validLengths : Set ℕ :=
  {L | L ≤ maxHit ∧ c.schedulerBlockSize ∣ L ∧
    ∀ g ∈ c.attentionGroups, GroupValid p c blockHashes g.spec g.groupIds L}

variable (p c blockHashes maxHit) in
lemma greatestInv_start : GreatestInv p c blockHashes maxHit { currHitLength := maxHit } where
  aligned := Or.inl ⟨rfl, fun _ => rfl⟩
  full _ _ hrows := nomatch hrows
  curr_le := le_rfl
  fullValid _ _ hrows := nomatch hrows

section

variable (hl : Lookup c blockHashes maxHit)
include hl

lemma hitLoop_greatest {rounds : ℕ} (st : HitState) (hst : GreatestInv p c blockHashes maxHit st)
    (hfuel : st.currHitLength < rounds)
    (hall : ∀ x ∈ validLengths p c blockHashes maxHit, x ≤ st.currHitLength)
    (h : hitLoop p c blockHashes maxHit false rounds st.currHitLength st = .ok out) :
    IsGreatest (validLengths p c blockHashes maxHit) out.1 := by
  induction rounds generalizing st with
  | zero => exact absurd hfuel (Nat.not_lt_zero _)
  | succ rounds ih =>
    obtain ⟨st1, hrnd, h⟩ := of_bind h
    have hdvd := round_aligned hl.wf hl.noEagle hst.aligned hrnd
    obtain ⟨hst1, hle, hpass, hvalid⟩ := visitGroups_valid hl drop_zero hst hrnd
    split at h
    · rename_i hge
      cases h
      have heq := le_antisymm hle hge
      exact ⟨⟨hst.curr_le, heq ▸ hdvd, heq ▸ hvalid heq⟩, hall⟩
    · rename_i hlt
      exact ih st1 hst1 (by omega) (fun x hx => hpass x (hall x hx) hx.2.1 hx.2.2)
        (by simpa using h)

lemma simpleRound_greatest {rounds : ℕ} (hsimple : isSimpleHybrid c = true)
    (h : hitLoop p c blockHashes maxHit true (rounds + 1) maxHit { currHitLength := maxHit } =
      .ok out) :
    IsGreatest (validLengths p c blockHashes maxHit) out.1 := by
  obtain ⟨g0, g1, hgs, hg0, hg1, hfull0⟩ := exists_groups_of_simple hsimple
  unfold hitLoop at h
  obtain ⟨st', hrnd, h⟩ := of_bind h
  have hstart := greatestInv_start p c blockHashes maxHit
  have hdvd := round_aligned hl.wf hl.noEagle hstart.aligned hrnd
  obtain ⟨hst', hle, hpass, -⟩ := visitGroups_valid hl drop_zero hstart hrnd
  have hvalid :
    ∀ g ∈ c.attentionGroups, GroupValid p c blockHashes g.spec g.groupIds st'.currHitLength := by
    rw [hgs] at hrnd ⊢
    obtain ⟨st1, hvisit0, hrnd⟩ := of_bind hrnd
    obtain ⟨st2, hvisit1, ⟨⟩⟩ := of_bind hrnd
    have hst1 := hstart.visitGroup hl hg0 hvisit0
    have hvalid0 := (visitGroup_valid hl hg0 hstart hvisit0).2
    have hvalid1 := (visitGroup_valid hl hg1 hst1 hvisit1).2
    have hle1 := visitGroup_le (hl.noEagle _ (mem_of_getElem? hg1)) hvisit1
    simpa using ⟨hvalid0.full_mono hfull0 hle1, hvalid1⟩
  have hgreatest : IsGreatest (validLengths p c blockHashes maxHit) st'.currHitLength :=
    ⟨⟨hst'.curr_le, hdvd, hvalid⟩, fun x hx => hpass x hx.1 hx.2.1 hx.2.2⟩
  split at h
  · rename_i hge
    cases h
    have heq : st'.currHitLength = maxHit := le_antisymm hle hge
    exact heq ▸ hgreatest
  rw [if_pos rfl] at h
  cases h
  exact hgreatest

lemma greatest_hitLoop {simple : Bool} (hsimple : simple = true → isSimpleHybrid c = true)
    (h : hitLoop p c blockHashes maxHit simple (maxHit + 1) maxHit { currHitLength := maxHit } =
      .ok out) :
    IsGreatest (validLengths p c blockHashes maxHit) out.1 := by
  cases simple with
  | true => exact simpleRound_greatest hl (hsimple rfl) h
  | false =>
    exact hitLoop_greatest hl { currHitLength := maxHit } (greatestInv_start p c blockHashes maxHit)
      (Nat.lt_succ_self _) (fun x hx => hx.1) h

end

/-! ## The lookup returns -/

variable {hashes : BlockHashList} {gids : List ℕ} {size align n : ℕ}

lemma slidingWindowLoop_total {need : ℤ} {drop : Bool} (rows : List Row) (k : ℕ)
    (hget : ∀ j < n, ∃ x, hashes.get j = .ok x) :
    ∃ out, slidingWindowLoop p hashes gids size need drop align n rows k = .ok out := by
  induction n generalizing rows k with
  | zero => exact ⟨_, rfl⟩
  | succ n ih =>
    obtain ⟨x, hx⟩ := hget n (Nat.lt_succ_self n)
    have ih := fun rows k => ih rows k fun j hj => hget j (Nat.lt_succ_of_lt hj)
    unfold slidingWindowLoop
    rw [hx, ok_bind]
    cases p.getCachedBlock x gids with
    | none => exact ih rows 0
    | some row =>
      dsimp only
      generalize (if drop = true then n else n + 1) = e
      split
      · exact ih _ _
      split
      · exact ⟨_, rfl⟩
      · exact ih _ _

lemma mambaLoop_total (hget : ∀ j < n, ∃ x, hashes.get j = .ok x) :
    ∃ rows, mambaLoop p hashes gids size align n = .ok rows := by
  induction n with
  | zero => exact ⟨_, rfl⟩
  | succ n ih =>
    obtain ⟨x, hx⟩ := hget n (Nat.lt_succ_self n)
    have ih := ih fun j hj => hget j (Nat.lt_succ_of_lt hj)
    unfold mambaLoop
    rw [hx, ok_bind]
    cases p.getCachedBlock x gids with
    | none => exact ih
    | some row =>
      dsimp only
      split
      · exact ih
      · exact ⟨_, rfl⟩

lemma chunkedLoop_total {i : ℕ} (hget : ∀ j < i + n, ∃ x, hashes.get j = .ok x) :
    ∃ rows, chunkedLoop p hashes gids n i = .ok rows := by
  induction n generalizing i with
  | zero => exact ⟨_, rfl⟩
  | succ n ih =>
    obtain ⟨x, hx⟩ := hget i (by omega)
    obtain ⟨rest, hrest⟩ := ih (i := i + 1) fun j hj => hget j (by omega)
    unfold chunkedLoop
    rw [hx, ok_bind]
    cases p.getCachedBlock x gids with
    | none => exact ⟨_, rfl⟩
    | some row =>
      dsimp only
      rw [hrest]
      exact ⟨_, rfl⟩

lemma findSlidingWindow_total {w maxLength : ℕ} {drop : Bool}
    (hget : ∀ j < maxLength / size, ∃ x, hashes.get j = .ok x) :
    ∃ rows, findSlidingWindow p hashes gids w size maxLength drop align = .ok rows := by
  unfold findSlidingWindow
  obtain ⟨out, hout⟩ :
    ∃ out, slidingWindowLoop p hashes gids size (contiguousBlocksForHit w size drop) drop
      align (maxLength / size) (replicate (maxLength / size) (nullRow gids)) 0 = .ok out :=
    slidingWindowLoop_total _ 0 hget
  dsimp only
  rw [hout, ok_bind]
  exact ⟨_, rfl⟩

lemma findChunkedLocal_total {chunk maxLength : ℕ} (hsize : size = align)
    (hget : ∀ j < maxLength / size, ∃ x, hashes.get j = .ok x) :
    ∃ rows, findChunkedLocal p hashes gids chunk size 1 maxLength false align = .ok rows := by
  unfold findChunkedLocal
  rw [pyAssert_of (by simp), ok_bind, pyAssert_of (by simp), ok_bind,
    pyAssert_of (by simpa using hsize), ok_bind]
  dsimp only
  have hstart : (if maxLength > 0 then maxLength / chunk * chunk else 0) / size ≤
    maxLength / size := by
    split
    · exact div_mul_div_le _ _ _
    · simp
  generalize (if maxLength > 0 then maxLength / chunk * chunk else 0) / size = start at hstart
  obtain ⟨rows, hrows⟩ : ∃ rows, chunkedLoop p hashes gids (maxLength / size - start) start =
    .ok rows :=
    chunkedLoop_total fun j hj => hget j (by omega)
  rw [hrows, ok_bind]
  exact ⟨_, rfl⟩

lemma findLongestCacheHit_total {maxLength : ℕ} (hcr : spec.attention ≠ .crossAttention)
    (hchunk : ∀ c, spec.attention = .chunkedLocal c → spec.blockSize = align)
    (hget : ∀ j < maxLength / spec.blockSize, ∃ x, hashes.get j = .ok x) :
    ∃ rows, findLongestCacheHit p hashes gids spec 1 maxLength false align = .ok rows := by
  unfold findLongestCacheHit
  split
  · exact ⟨_, rfl⟩
  · exact findSlidingWindow_total hget
  · exact findChunkedLocal_total (hchunk _ (by assumption)) hget
  · exact mambaLoop_total hget
  · exact absurd (by assumption) hcr

section

variable (hl : Lookup c blockHashes maxHit)
include hl

lemma visitGroup_total (hg : c.attentionGroups[idx]? = some g) (hcurr : st.currHitLength ≤ maxHit) :
    ∃ st', visitGroup p c blockHashes maxHit st g idx = .ok st' := by
  have hmem := mem_of_getElem? hg
  unfold visitGroup
  split
  · exact ⟨_, rfl⟩
  obtain ⟨hashes, hhs, -, hget⟩ := hl.hashes g hmem
  obtain ⟨rows, hrows⟩ :
    ∃ rows, findLongestCacheHit p hashes g.groupIds g.spec 1 st.currHitLength false
      c.schedulerBlockSize = .ok rows :=
    findLongestCacheHit_total (hl.supported g hmem) (fun n hn => (hl.chunk g hmem n hn).1)
      fun j hj => hget j (hj.trans_le (Nat.div_le_div_right hcurr))
  simp only [hl.noEagle g hmem, Bool.false_eq_true, false_and, if_false, decide_false]
  rw [hhs, ok_bind, hrows, ok_bind]
  exact ⟨_, rfl⟩

lemma visitGroups_total {gs : List SpecGroup}
    (hgs : c.attentionGroups.drop idx = gs) (hst : GreatestInv p c blockHashes maxHit st) :
    ∃ st', visitGroups p c blockHashes maxHit gs idx st = .ok st' := by
  induction gs generalizing idx st with
  | nil => exact ⟨_, rfl⟩
  | cons g gs ih =>
    obtain ⟨hg, hrest⟩ := drop_eq_cons hgs
    obtain ⟨st1, hvisit⟩ : ∃ st1, visitGroup p c blockHashes maxHit st g idx = .ok st1 :=
      visitGroup_total hl hg hst.curr_le
    unfold visitGroups
    rw [hvisit, ok_bind]
    exact ih hrest (hst.visitGroup hl hg hvisit)

lemma hitLoop_total (simple : Bool) (rounds : ℕ) (st : HitState)
    (hst : GreatestInv p c blockHashes maxHit st) :
    ∃ out, hitLoop p c blockHashes maxHit simple rounds st.currHitLength st = .ok out := by
  induction rounds generalizing st with
  | zero => exact ⟨_, rfl⟩
  | succ rounds ih =>
    obtain ⟨st1, hrnd⟩ : ∃ st1, visitGroups p c blockHashes maxHit c.attentionGroups 0 st =
      .ok st1 :=
      visitGroups_total hl drop_zero hst
    have hst1 := (visitGroups_valid hl drop_zero hst hrnd).1
    unfold hitLoop
    rw [hrnd, ok_bind]
    split
    · exact ⟨_, rfl⟩
    split
    · exact ⟨_, rfl⟩
    · exact ih st1 hst1

end

/-! ## The result -/

lemma hashes_cover {hbs : ℕ} (hpos : 0 < size) (hdvd : hbs ∣ size)
    (hcover : maxHit / hbs ≤ blockHashes.length) :
    ∃ hashes, BlockPool.blockHashesAt hbs size blockHashes = .ok hashes ∧
      maxHit / size ≤ hashes.length ∧ ∀ j < maxHit / size, ∃ x, hashes.get j = .ok x := by
  have hhbs : 0 < hbs := Nat.pos_of_dvd_of_pos hdvd hpos
  unfold BlockPool.blockHashesAt
  split
  · rename_i hsize
    have hlen : maxHit / size ≤ blockHashes.length := by rwa [hsize]
    refine ⟨_, rfl, hlen, fun j hj => ?_⟩
    obtain ⟨x, hx⟩ : ∃ x, blockHashes[j]? = some x := ⟨_, getElem?_eq_getElem (hj.trans_le hlen)⟩
    exact ⟨x, by simp [BlockHashList.get, hx]⟩
  rw [if_pos (Nat.mod_eq_zero_of_dvd hdvd)]
  obtain ⟨scale, rfl⟩ := hdvd
  refine ⟨_, rfl, ?_, fun j _ => ⟨_, rfl⟩⟩
  rw [Nat.mul_div_cancel_left _ hhbs, ← Nat.div_div_eq_div_mul]
  exact Nat.div_le_div_right hcover

variable {cp sbs hbs : ℕ}

lemma lookup_init (hpos : ∀ g ∈ groups, 0 < g.kvCacheSpec.blockSize) (hsbs : 0 < sbs)
    (hinit : HybridCoordinator.init groups false cp sbs hbs = .ok c)
    (hflag : ∀ g ∈ groups, g.isEagleGroup = false)
    (hcr : ∀ g ∈ groups, g.kvCacheSpec.attention ≠ .crossAttention)
    (hchunk : ∀ g ∈ groups, ∀ n, g.kvCacheSpec.attention = .chunkedLocal n →
      g.kvCacheSpec.blockSize = sbs ∧ g.kvCacheSpec.blockSize ∣ n)
    (hcover : maxHit / hbs ≤ blockHashes.length) : Lookup c blockHashes maxHit := by
  have hwf := wellFormed_init hpos hsbs hinit
  have hspec : ∀ g ∈ c.attentionGroups, ∃ x ∈ groups, x.kvCacheSpec = g.spec := by
    intro g hg
    obtain ⟨i, hi⟩ := exists_mem_of_ne_nil _ (groupIds_ne_nil hinit g hg)
    obtain ⟨x, hx, hspec⟩ := (inSpecGroup_hybridInit hinit).mp ⟨g, hg, rfl, hi⟩
    exact ⟨x, mem_of_getElem? hx, hspec⟩
  have hdvd := (hybridInit_eq_ok hinit).2.1
  have hfields : c.schedulerBlockSize = sbs ∧ c.hashBlockSize = hbs := by
    obtain ⟨-, -, rfl⟩ := hybridInit_eq_ok hinit
    exact ⟨rfl, rfl⟩
  refine ⟨hwf, fun g hg => useEagle_eq_false hflag ((mem_attentionGroups hinit).mp hg),
    fun g hg => ?_,
    fun g hg => ?_, fun g hg => ?_⟩
  all_goals obtain ⟨x, hx, hspec⟩ := hspec g hg
  · rw [hfields.2, ← hspec]
    exact hashes_cover (hpos x hx) (hdvd x hx) hcover
  · rw [← hspec]
    exact hcr x hx
  · rw [← hspec, hfields.1]
    exact hchunk x hx

lemma validLengths_init {eagle : Bool}
    (hinit : HybridCoordinator.init groups eagle cp sbs hbs = .ok c) :
    validLengths p c blockHashes maxHit = {L | L ≤ maxHit ∧ sbs ∣ L ∧
      ∀ (i : ℕ) (g : KVCacheGroupSpec), groups[i]? = some g →
      GroupValid p c blockHashes g.kvCacheSpec [i] L} := by
  have hsbs : c.schedulerBlockSize = sbs := by
    obtain ⟨-, -, rfl⟩ := hybridInit_eq_ok hinit
    rfl
  ext L
  simp only [validLengths, Set.mem_ofPred_eq, hsbs]
  refine and_congr_right fun _ => and_congr_right fun _ =>
    ⟨fun hall i x hx => ?_, fun hall g hg => ?_⟩
  · obtain ⟨g, hg, hspec, hi⟩ := (inSpecGroup_hybridInit hinit).mpr ⟨x, hx, rfl⟩
    rw [← hspec]
    exact (groupValid_iff (groupIds_ne_nil hinit g hg)).mp (hall g hg) i hi
  refine (groupValid_iff (groupIds_ne_nil hinit g hg)).mpr fun i hi => ?_
  obtain ⟨x, hx, hspec⟩ := (inSpecGroup_hybridInit hinit).mp ⟨g, hg, rfl, hi⟩
  rw [← hspec]
  exact hall i x hx

/-- Without EAGLE a hybrid lookup returns the greatest aligned length that is valid for every
group. -/
theorem findHybrid_greatest {groups : List KVCacheGroupSpec} {cp sbs hbs : ℕ}
    (hpos : ∀ g ∈ groups, 0 < g.kvCacheSpec.blockSize) (hsbs : 0 < sbs)
    (hinit : HybridCoordinator.init groups false cp sbs hbs = .ok c)
    (hflag : ∀ g ∈ groups, g.isEagleGroup = false)
    (hcross : ∀ g ∈ groups, g.kvCacheSpec.attention ≠ .crossAttention)
    (hchunk : ∀ g ∈ groups, ∀ n, g.kvCacheSpec.attention = .chunkedLocal n →
      g.kvCacheSpec.blockSize = sbs ∧
      g.kvCacheSpec.blockSize ∣ n) (hcover : maxHit / hbs ≤ blockHashes.length) :
    ∃ out, findHybrid p c blockHashes maxHit = .ok out ∧ IsGreatest {L | L ≤ maxHit ∧ sbs ∣ L ∧
        ∀ (i : ℕ) (g : KVCacheGroupSpec), groups[i]? = some g →
          GroupValid p c blockHashes g.kvCacheSpec [i] L} out.hitLength ∧
      ∃ st, hitLoop p c blockHashes maxHit false (maxHit + 1) maxHit { currHitLength := maxHit } =
        .ok (out.hitLength, st) := by
  have hl := lookup_init hpos hsbs hinit hflag hcross hchunk hcover
  have hstart := greatestInv_start p c blockHashes maxHit
  obtain ⟨⟨L, st⟩, hout⟩ := hitLoop_total hl (isSimpleHybrid c) (maxHit + 1) _ hstart
  obtain ⟨⟨L', st'⟩, hout'⟩ := hitLoop_total hl false (maxHit + 1) _ hstart
  have hgreatest := greatest_hitLoop hl (fun h => h) hout
  have hgreatest' := greatest_hitLoop hl (fun h => absurd h (by simp)) hout'
  obtain rfl : L = L' := hgreatest.unique hgreatest'
  refine ⟨⟨(range c.numGroups).map (finalBlocks c L st), L, st.longestHitLength - L⟩, ?_, ?_, st',
    hout'⟩
  · unfold findHybrid
    rw [hout, ok_bind]
  · rw [← validLengths_init hinit]
    exact hgreatest

/-- The pool has cached both blocks of the full-attention group and the first of the other. -/
theorem windowGroups_greatest :
    ∃ out, findHybrid windowPool windowCoordinator [[5], [6]] 2 = .ok out ∧
    ∀ L ≤ 2, 1 ∣ L → (∀ (i : ℕ) (g : KVCacheGroupSpec), windowGroups[i]? = some g →
      GroupValid windowPool windowCoordinator [[5], [6]] g.kvCacheSpec [i] L) →
      L ≤ out.hitLength := by
  obtain ⟨out, hout, hgreatest, -⟩ := @findHybrid_greatest windowPool windowCoordinator [[5], [6]] 2
    windowGroups 1 1 1 (by simp [windowGroups]) one_pos init_windowGroups (by simp [windowGroups])
    (by simp [windowGroups]) (by simp [windowGroups]) (by decide)
  exact ⟨out, hout, fun L hle hdvd hvalid => hgreatest.2 ⟨hle, hdvd, hvalid⟩⟩

/-- A window of one token reads no earlier block, so length 1 would be valid for both groups; the
lookup returns 0. -/
theorem window_of_one_not_greatest : ∃ c out,
    HybridCoordinator.init [⟨⟨.full, 1, 0⟩, false⟩, ⟨⟨.slidingWindow 1, 1, 0⟩, false⟩] false 1 1 1 =
    .ok c ∧
    findHybrid (poolWith [[5, 0, 0, 0, 0]]) c [[5]] 1 = .ok out ∧ out.hitLength = 0 ∧
    (∀ j < 1, CachedAt (poolWith [[5, 0, 0, 0, 0]]) (.plain [[5]]) [0] j) ∧
    (∀ j < 1, 1 < (j + 1) * 1 + (1 - 1) →
      CachedAt (poolWith [[5, 0, 0, 0, 0]]) (.plain [[5]]) [1] j) := by
  refine ⟨_, _, rfl, rfl, rfl, fun j hj => ?_, fun j hj hread => by omega⟩
  obtain rfl : j = 0 := by omega
  exact ⟨_, _, rfl, rfl⟩

end Vllm.CacheHit
