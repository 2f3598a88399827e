import Vllm.KVCache.CacheHit
import Vllm.KVCache.BlockPoolProof
import Mathlib.Data.List.NodupEquivFin

/-! # The rows of a prefix-cache lookup -/

namespace Vllm

namespace CacheHit

open List Function Option

variable {p : BlockPool} {hashes : BlockHashList} {gids : List ℕ} {rows : List Row}

/-- Row `i` is null or holds the cached blocks of hash `i`, and there are at most `n` rows. -/
structure HitRows (p : BlockPool) (hashes : BlockHashList) (gids : List ℕ) (n : ℕ)
    (rows : List Row) : Prop where
  length_le : rows.length ≤ n
  row : ∀ {i row}, rows[i]? = some row →
    row = nullRow gids ∨ ∃ h, hashes.get i = .ok h ∧ p.getCachedBlock h gids = some row

namespace HitRows

variable {n m : ℕ}

lemma nil : HitRows p hashes gids n [] where
  length_le := Nat.zero_le n
  row h := nomatch h

section

variable (h : HitRows p hashes gids n rows)
include h

lemma mono (hnm : n ≤ m) : HitRows p hashes gids m rows where
  length_le := h.length_le.trans hnm
  row hi := h.row hi

lemma take (k : ℕ) : HitRows p hashes gids n (rows.take k) where
  length_le := (length_take_le' k rows).trans h.length_le
  row {i row} hi := by
    rw [getElem?_take] at hi
    split at hi
    · exact h.row hi
    · cases hi

lemma dropLast : HitRows p hashes gids n rows.dropLast := by
  rw [dropLast_eq_take]
  exact h.take _

end

lemma popUnaligned (h : HitRows p hashes gids n rows) (size align : ℕ) :
    HitRows p hashes gids n (popUnaligned size align rows) := h.take _

lemma nulls (p : BlockPool) (hashes : BlockHashList) (gids : List ℕ) (k : ℕ) :
    HitRows p hashes gids k (replicate k (nullRow gids)) where
  length_le := (length_replicate).le
  row hi := Or.inl (eq_of_mem_replicate (mem_of_getElem? hi))

lemma set (h : HitRows p hashes gids n rows) {i : ℕ} {x : Bytes} {row : Row}
    (hx : hashes.get i = .ok x) (hrow : p.getCachedBlock x gids = some row) :
    HitRows p hashes gids n (rows.set i row) where
  length_le := by
    rw [length_set]
    exact h.length_le
  row {j row'} hj := by
    rw [getElem?_set] at hj
    split at hj
    · rename_i hij
      split at hj
      · subst hij
        cases hj
        exact Or.inr ⟨x, hx, hrow⟩
      · cases hj
    · exact h.row hj

lemma append {k : ℕ} {hits : List Row} (hlen : k + hits.length ≤ n)
    (hhits : ∀ {i row}, hits[i]? = some row →
      ∃ h, hashes.get (k + i) = .ok h ∧ p.getCachedBlock h gids = some row) :
    HitRows p hashes gids n (replicate k (nullRow gids) ++ hits) where
  length_le := by simpa using hlen
  row {i row} hi := by
    rcases lt_or_ge i k with hik | hik
    · rw [getElem?_append_left (by simpa using hik)] at hi
      exact (nulls p hashes gids k).row hi
    rw [getElem?_append_right (by simpa using hik)] at hi
    right
    simpa [Nat.add_sub_cancel' hik] using hhits hi

end HitRows

variable {drop : Bool}

/-! ## The managers -/

variable {x : Bytes}

lemma get_of_toList {i : ℕ} (h : hashes.toList[i]? = some x) : hashes.get i = .ok x := by
  cases hashes with
  | plain l =>
    have hl : l[i]? = some x := h
    simp [BlockHashList.get, hl]
  | scaled l scale =>
    simp only [BlockHashList.toList, List.getElem?_map, Option.map_eq_some_iff] at h
    obtain ⟨j, hj, rfl⟩ := h
    obtain ⟨-, rfl⟩ := List.getElem?_eq_some_iff.mp hj
    simp [BlockHashList.get]

variable {row : Row}

lemma cachedPrefix_row {hs : List Bytes} {i : ℕ} (h : (cachedPrefix p gids hs)[i]? = some row) :
    ∃ x, hs[i]? = some x ∧ p.getCachedBlock x gids = some row := by
  induction hs generalizing i with
  | nil => exact absurd h (by simp [cachedPrefix])
  | cons x hs ih =>
    unfold cachedPrefix at h
    split at h
    · rename_i row' hrow
      cases i with
      | zero =>
        cases h
        exact ⟨x, rfl, hrow⟩
      | succ i => exact ih (by simpa using h)
    · cases h

lemma length_cachedPrefix_le (hs : List Bytes) : (cachedPrefix p gids hs).length ≤ hs.length := by
  induction hs with
  | nil => exact le_rfl
  | cons x hs ih =>
    unfold cachedPrefix
    split
    · simpa using ih
    · exact Nat.zero_le _

lemma hitRows_cachedPrefix (n : ℕ) :
    HitRows p hashes gids n (cachedPrefix p gids (hashes.toList.take n)) where
  length_le := (length_cachedPrefix_le _).trans (length_take_le _ _)
  row {i row} hi := by
    obtain ⟨x, hx, hrow⟩ := cachedPrefix_row hi
    rw [getElem?_take] at hx
    split at hx
    · exact Or.inr ⟨x, get_of_toList hx, hrow⟩
    · cases hx

lemma hitRows_findFull (size maxLength : ℕ) (drop : Bool) (align : ℕ) :
    HitRows p hashes gids (maxLength / size)
    (findFull p hashes gids size maxLength drop align) := by
  apply HitRows.popUnaligned
  split
  · exact (hitRows_cachedPrefix _).dropLast
  · exact hitRows_cachedPrefix _

lemma hitRows_slidingWindowLoop {size align i k : ℕ} {need : ℤ} {n : ℕ}
    {out : List Row × ℕ × Bool} (hrows : HitRows p hashes gids n rows)
    (h : slidingWindowLoop p hashes gids size need drop align i rows k = .ok out) :
    HitRows p hashes gids n out.1 := by
  induction i generalizing rows k with
  | zero =>
    cases h
    exact hrows
  | succ i ih =>
    obtain ⟨x, hx, h⟩ := of_bind h
    split at h
    · rename_i row hrow
      dsimp only at h
      generalize (if drop = true then i else i + 1) = e at h
      split at h
      · exact ih hrows h
      split at h
      · cases h
        exact (hrows.set hx hrow).take _
      · exact ih (hrows.set hx hrow) h
    · exact ih hrows h

lemma hitRows_findSlidingWindow {w size maxLength align : ℕ}
    (h : findSlidingWindow p hashes gids w size maxLength drop align = .ok rows) :
    HitRows p hashes gids (maxLength / size) rows := by
  obtain ⟨out, hloop, h⟩ := of_bind h
  have hout := hitRows_slidingWindowLoop (HitRows.nulls p hashes gids _) hloop
  obtain ⟨rows', k, found⟩ := out
  dsimp only at h hout
  have hfound : HitRows p hashes gids (maxLength / size)
      (if found then rows' else popUnaligned size align (rows'.take k)) := by
    split
    · exact hout
    · exact (hout.take k).popUnaligned size align
  generalize (if found then rows' else popUnaligned size align (rows'.take k)) = rows1 at h hfound
  cases h
  split
  · exact hfound.dropLast.popUnaligned size align
  · exact hfound

lemma chunkedLoop_row {n i : ℕ} (h : chunkedLoop p hashes gids n i = .ok rows) :
    rows.length ≤ n ∧ ∀ {j row}, rows[j]? = some row →
      ∃ x, hashes.get (i + j) = .ok x ∧ p.getCachedBlock x gids = some row := by
  induction n generalizing i rows with
  | zero =>
    cases h
    exact ⟨le_rfl, fun hj => absurd hj (by simp)⟩
  | succ n ih =>
    obtain ⟨x, hx, h⟩ := of_bind h
    split at h
    · rename_i row hrow
      obtain ⟨rest, hrest, ⟨⟩⟩ := of_bind h
      obtain ⟨hlen, hget⟩ := ih hrest
      refine ⟨by simpa using hlen, fun {j row'} hj => ?_⟩
      cases j with
      | zero =>
        cases hj
        exact ⟨x, hx, hrow⟩
      | succ j =>
        have := hget (by simpa using hj : rest[j]? = some row')
        rwa [add_right_comm, add_assoc] at this
    · cases h
      exact ⟨Nat.zero_le _, fun hj => absurd hj (by simp)⟩

lemma div_mul_div_le (n chunk size : ℕ) : n / chunk * chunk / size ≤ n / size :=
  Nat.div_le_div_right (Nat.div_mul_le_self n chunk)

lemma hitRows_findChunkedLocal {chunk size cp maxLength align : ℕ}
    (h : findChunkedLocal p hashes gids chunk size cp maxLength drop align = .ok rows) :
    HitRows p hashes gids (maxLength / size) rows := by
  obtain ⟨_, -, h⟩ := of_bind h
  obtain ⟨_, -, h⟩ := of_bind h
  obtain ⟨_, -, h⟩ := of_bind h
  obtain ⟨hits, hloop, ⟨⟩⟩ := of_bind h
  obtain ⟨hlen, hget⟩ := chunkedLoop_row hloop
  have hstart : (if maxLength > 0 then maxLength / chunk * chunk else 0) / size ≤
    maxLength / size := by
    split
    · exact div_mul_div_le _ _ _
    · simp
  exact HitRows.append (by omega) hget

lemma hitRows_mambaLoop {size align n : ℕ} (h : mambaLoop p hashes gids size align n = .ok rows) :
    HitRows p hashes gids n rows := by
  induction n with
  | zero =>
    cases h
    exact HitRows.nil
  | succ i ih =>
    obtain ⟨x, hx, h⟩ := of_bind h
    split at h
    · rename_i row hrow
      split at h
      · exact (ih h).mono (Nat.le_succ i)
      cases h
      refine HitRows.append (by simp) fun {j row'} hj => ?_
      obtain ⟨hlt, rfl⟩ := List.getElem?_eq_some_iff.mp hj
      obtain rfl : j = 0 := by simpa using hlt
      exact ⟨x, hx, hrow⟩
    · exact (ih h).mono (Nat.le_succ i)

variable {cp maxLength align : ℕ} {spec : KVCacheSpec}
  (h : findLongestCacheHit p hashes gids spec cp maxLength drop align = .ok rows)
include h

lemma hitRows_findLongestCacheHit :
    HitRows p hashes gids (maxLength / (spec.blockSize * cp)) rows := by
  unfold findLongestCacheHit at h
  split at h
  · cases h
    exact hitRows_findFull _ _ _ _
  · obtain ⟨_, hcp, h⟩ := of_bind h
    obtain rfl : cp = 1 := by simpa using pyAssert_eq_ok.mp hcp
    simpa using hitRows_findSlidingWindow h
  · have hcp : cp = 1 := by
      obtain ⟨_, -, h⟩ := of_bind h
      obtain ⟨_, hcp, -⟩ := of_bind h
      simpa using pyAssert_eq_ok.mp hcp
    subst hcp
    simpa using hitRows_findChunkedLocal h
  · obtain ⟨_, hcp, h⟩ := of_bind h
    obtain rfl : cp = 1 := by simpa using pyAssert_eq_ok.mp hcp
    simpa using hitRows_mambaLoop h
  · cases h

lemma not_cross_of_find : spec.attention ≠ .crossAttention := by
  intro hcr
  simp [findLongestCacheHit, hcr] at h

omit h

/-! ## The loop of the hybrid coordinator -/

section hybrid

variable {c : HybridCoordinator} {blockHashes : List Bytes} {maxHit : ℕ} {P : HitState → Prop}
variable {idx : ℕ} {st st' : HitState}

lemma drop_eq_cons {α : Type*} {l as : List α} {a : α} (h : l.drop idx = a :: as) :
    l[idx]? = some a ∧ l.drop (idx + 1) = as := by
  rw [← head?_drop, ← tail_drop, h]
  exact ⟨rfl, rfl⟩

variable
  (hstep : ∀ {st st' g idx}, P st → c.attentionGroups[idx]? = some g →
  visitGroup p c blockHashes maxHit st g idx = .ok st' → P st')

include hstep in
lemma visitGroups_invariant {gs : List SpecGroup} (hgs : c.attentionGroups.drop idx = gs)
    (hst : P st) (h : visitGroups p c blockHashes maxHit gs idx st = .ok st') : P st' := by
  induction gs generalizing idx st with
  | nil =>
    cases h
    exact hst
  | cons g gs ih =>
    obtain ⟨st1, hvisit, h⟩ := of_bind h
    obtain ⟨hg, hrest⟩ := drop_eq_cons hgs
    exact ih hrest (hstep hst hg hvisit) h

variable {out : ℕ × HitState}

include hstep in
lemma hitLoop_invariant {simple : Bool} {rounds : ℕ} (st : HitState) (hst : P st)
    (h : hitLoop p c blockHashes maxHit simple rounds st.currHitLength st = .ok out) : P out.2 := by
  induction rounds generalizing st with
  | zero =>
    cases h
    exact hst
  | succ rounds ih =>
    unfold hitLoop at h
    obtain ⟨st1, hrnd, h⟩ := of_bind h
    have h1 : P st1 := visitGroups_invariant hstep (drop_zero) hst hrnd
    split at h
    · cases h
      exact h1
    split at h
    · cases h
      exact h1
    · exact ih st1 h1 h

lemma visitGroup_cases {g : SpecGroup} (h : visitGroup p c blockHashes maxHit st g idx = .ok st') :
    (g.spec.isFull = true ∧ (st.hitRows idx).isSome = true ∧
      st' = { st with currHitLength := st.currHitLength / g.spec.blockSize * g.spec.blockSize }) ∨
    ∃ drop maxLength hashes rows, ¬ (g.spec.isFull = true ∧ (st.hitRows idx).isSome = true) ∧
      drop = decide (g.useEagle = true ∧ idx ∉ st.eagleVerified) ∧
      maxLength = (if drop = true then min (st.currHitLength + g.spec.blockSize) maxHit
        else st.currHitLength) ∧
      BlockPool.blockHashesAt c.hashBlockSize g.spec.blockSize blockHashes = .ok hashes ∧
      findLongestCacheHit p hashes g.groupIds g.spec 1 maxLength drop c.schedulerBlockSize =
        .ok rows ∧
      st' = { currHitLength := rows.length * g.spec.blockSize
              longestHitLength := max st.longestHitLength (rows.length * g.spec.blockSize)
              hitRows := update st.hitRows idx (some rows)
              eagleVerified := if drop = true then idx :: st.eagleVerified
                else if rows.length * g.spec.blockSize < st.currHitLength then []
                else st.eagleVerified } := by
  unfold visitGroup at h
  split at h
  · rename_i hfull
    exact Or.inl ⟨hfull.1, hfull.2, (Except.ok.inj h).symm⟩
  rename_i hfull
  obtain ⟨hashes, hhs, h⟩ := of_bind h
  obtain ⟨rows, hfind, h⟩ := of_bind h
  refine Or.inr ⟨_, _, hashes, rows, hfull, rfl, rfl, hhs, ?_, ?_⟩
  · simpa only [decide_eq_true_eq] using hfind
  · simpa only [decide_eq_true_eq] using (Except.ok.inj h).symm

variable (p c blockHashes maxHit) in
/-- The invariant of the rounds for the blocks of the hit. -/
structure HitInv (st : HitState) : Prop where
  curr_le : st.currHitLength ≤ maxHit
  rows : ∀ {idx rows}, st.hitRows idx = some rows → ∃ g hashes, c.attentionGroups[idx]? = some g ∧
    g.spec.attention ≠ .crossAttention ∧
    BlockPool.blockHashesAt c.hashBlockSize g.spec.blockSize blockHashes = .ok hashes ∧
    HitRows p hashes g.groupIds (maxHit / g.spec.blockSize) rows

lemma HitInv.visitGroup {g : SpecGroup} (hst : HitInv p c blockHashes maxHit st)
    (hg : c.attentionGroups[idx]? = some g)
    (h : visitGroup p c blockHashes maxHit st g idx = .ok st') :
    HitInv p c blockHashes maxHit st' := by
  obtain ⟨-, -, rfl⟩ | ⟨drop, maxLength, hashes, rows, -, -, hlen, hhs, hfind, rfl⟩ :=
    visitGroup_cases h
  · exact ⟨(Nat.div_mul_le_self _ _).trans hst.curr_le, hst.rows⟩
  have hmax : maxLength ≤ maxHit := by
    subst hlen
    split
    · exact min_le_right _ _
    · exact hst.curr_le
  have hrows := hitRows_findLongestCacheHit hfind
  rw [mul_one] at hrows
  have hrows' := hrows.mono (Nat.div_le_div_right hmax)
  constructor
  · calc rows.length * g.spec.blockSize
        ≤ maxHit / g.spec.blockSize * g.spec.blockSize := Nat.mul_le_mul_right _ hrows'.length_le
      _ ≤ maxHit := Nat.div_mul_le_self _ _
  intro j rows' hj
  rcases eq_or_ne j idx with rfl | hji
  · simp only [update_self, Option.some.injEq] at hj
    subst hj
    exact ⟨g, hashes, hg, not_cross_of_find hfind, hhs, hrows'⟩
  · simp only [update_of_ne hji] at hj
    exact hst.rows hj

lemma hitInv_hitLoop {simple : Bool} {rounds : ℕ}
    (h : hitLoop p c blockHashes maxHit simple rounds maxHit { currHitLength := maxHit } =
      .ok out) :
    HitInv p c blockHashes maxHit out.2 := by
  refine hitLoop_invariant (fun hst hg hv => hst.visitGroup hg hv) { currHitLength := maxHit }
    ⟨le_rfl, fun hrows => ?_⟩ h
  cases hrows

end hybrid

/-- No two of the first `n` hashes are equal. -/
def Distinct (hashes : BlockHashList) (n : ℕ) : Prop :=
  ∀ {i j x}, i < n → j < n → hashes.get i = .ok x → hashes.get j = .ok x → i = j

lemma getCachedBlock_row {i b : ℕ} (h : p.getCachedBlock x gids = some row)
    (hb : row[i]? = some b) :
    ∃ gid, gids[i]? = some gid ∧ p.getOneBlock (makeBlockHashWithGroupId x gid) = some b := by
  unfold BlockPool.getCachedBlock at h
  induction gids generalizing row i with
  | nil =>
    obtain rfl : [] = row := by simpa using h
    cases hb
  | cons gid gids ih =>
    simp only [mapM_cons, bind_eq_bind, Option.pure_def, bind_eq_some_iff, Option.some.injEq] at h
    obtain ⟨b', hb', rest, hrest, rfl⟩ := h
    cases i with
    | zero =>
      obtain rfl : b' = b := by simpa using hb
      exact ⟨gid, rfl, hb'⟩
    | succ i => exact ih hrest (by simpa using hb)

lemma length_getCachedBlock (h : p.getCachedBlock x gids = some row) :
    row.length = gids.length := by
  unfold BlockPool.getCachedBlock at h
  induction gids generalizing row with
  | nil =>
    obtain rfl : [] = row := by simpa using h
    rfl
  | cons gid gids ih =>
    simp only [mapM_cons, bind_eq_bind, Option.pure_def, bind_eq_some_iff, Option.some.injEq] at h
    obtain ⟨b, -, rest, hrest, rfl⟩ := h
    rw [length_cons, length_cons, ih hrest]

lemma nullRow_getD (gids : List ℕ) (i : ℕ) : (nullRow gids).getD i 0 = nullBlock := by
  rw [nullRow, getD_eq_getElem?_getD, getElem?_map]
  cases gids[i]? <;> rfl

lemma HitRows.mem_cached {n i pos b : ℕ} (hrows : HitRows p hashes gids n rows) (hb : b ≠ nullBlock)
    (hi : (rows.map fun row => row.getD pos 0)[i]? = some b) :
    ∃ x gid, gids[pos]? = some gid ∧ hashes.get i = .ok x ∧
      b ∈ p.cachedBlockHashToBlock (makeBlockHashWithGroupId x gid) := by
  rw [getElem?_map, map_eq_some_iff] at hi
  obtain ⟨row, hrow, hget⟩ := hi
  rcases hrows.row hrow with rfl | ⟨x, hx, hcached⟩
  · rw [nullRow_getD] at hget
    exact absurd hget.symm hb
  rw [getD_eq_getElem?_getD] at hget
  cases hpos : row[pos]? with
  | none =>
    rw [hpos] at hget
    exact absurd hget.symm hb
  | some b' =>
    rw [hpos] at hget
    obtain rfl : b' = b := hget
    obtain ⟨gid, hgid, hone⟩ := getCachedBlock_row hcached hpos
    exact ⟨x, gid, hgid, hx, mem_of_head? hone⟩

def AllCached (p : BlockPool) (hashes : BlockHashList) (gids : List ℕ) (rows : List Row) : Prop :=
  ∀ (i : ℕ) (row : Row), rows[i]? = some row →
    ∃ x, hashes.toList[i]? = some x ∧ p.getCachedBlock x gids = some row

lemma AllCached.take (h : AllCached p hashes gids rows) (k : ℕ) :
    AllCached p hashes gids (rows.take k) := by
  intro i row hi
  rw [getElem?_take] at hi
  split at hi
  · exact h i row hi
  · cases hi

lemma allCached_findFull (size maxLength : ℕ) (drop : Bool) (align : ℕ) :
    AllCached p hashes gids (findFull p hashes gids size maxLength drop align) := by
  have hprefix :
    AllCached p hashes gids (cachedPrefix p gids (hashes.toList.take (maxLength / size))) := by
    intro i row hi
    obtain ⟨x, hx, hrow⟩ := cachedPrefix_row hi
    rw [getElem?_take] at hx
    split at hx
    · exact ⟨x, hx, hrow⟩
    · cases hx
  unfold findFull popUnaligned
  apply AllCached.take
  split
  · rw [dropLast_eq_take]
    exact hprefix.take _
  · exact hprefix

lemma AllCached.mem_cached {i b gid : ℕ} (h : AllCached p hashes gids rows) (hgid : gid ∈ gids)
    (hi : (rows.map fun row => row.getD (gids.idxOf gid) 0)[i]? = some b) :
    ∃ x, hashes.toList[i]? = some x ∧
    b ∈ p.cachedBlockHashToBlock (makeBlockHashWithGroupId x gid) := by
  rw [getElem?_map, map_eq_some_iff] at hi
  obtain ⟨row, hrow, rfl⟩ := hi
  obtain ⟨x, hx, hcached⟩ := h i row hrow
  have hlt := idxOf_lt_length_of_mem hgid
  have hlen := length_getCachedBlock hcached
  have hpos : row[gids.idxOf gid]? = some (row.getD (gids.idxOf gid) 0) := by
    rw [getD_eq_getElem?_getD, getElem?_eq_getElem (hlen ▸ hlt)]
    rfl
  obtain ⟨gid', hgid', hone⟩ := getCachedBlock_row hcached hpos
  rw [getElem?_eq_getElem hlt, getElem_idxOf] at hgid'
  cases hgid'
  exact ⟨x, hx, mem_of_head? hone⟩

lemma allCached_hitLoop {c : HybridCoordinator} {blockHashes : List Bytes} {maxHit rounds : ℕ}
    {simple : Bool} {out : ℕ × HitState}
    (h : hitLoop p c blockHashes maxHit simple rounds maxHit { currHitLength := maxHit } = .ok out)
    {idx : ℕ} {g : SpecGroup} (hg : c.attentionGroups[idx]? = some g) (hfull : g.spec.attention =
      .full)
    (hrows : out.2.hitRows idx = some rows) :
    ∃ hashes, BlockPool.blockHashesAt c.hashBlockSize g.spec.blockSize blockHashes = .ok hashes ∧
      AllCached p hashes g.groupIds rows := by
  let P (st : HitState) : Prop := ∀ idx rows g, st.hitRows idx = some rows →
    c.attentionGroups[idx]? = some g → g.spec.attention = .full →
    ∃ hashes, BlockPool.blockHashesAt c.hashBlockSize g.spec.blockSize blockHashes = .ok hashes ∧
      AllCached p hashes g.groupIds rows
  have hout : P out.2 := by
    refine hitLoop_invariant (P := P) (fun {st st' g idx} hst hg hvisit => ?_)
      { currHitLength := maxHit } (fun idx rows g hrows => by cases hrows) h
    obtain ⟨-, -, rfl⟩ | ⟨drop, maxLength, hashes, rows, -, -, -, hhs, hfind, rfl⟩ :=
      visitGroup_cases hvisit
    · exact hst
    intro j rows' g' hj hg' hfull'
    rcases eq_or_ne j idx with rfl | hji
    · obtain rfl := Option.some.inj (hg.symm.trans hg')
      simp only [update_self, Option.some.injEq] at hj
      subst hj
      simp only [findLongestCacheHit, hfull'] at hfind
      cases hfind
      exact ⟨hashes, hhs, allCached_findFull _ _ _ _⟩
    · simp only [update_of_ne hji] at hj
      exact hst j rows' g' hj hg' hfull'
  exact hout idx rows g hrows hg hfull

lemma count_le_one_of_index {l : List ℕ} {b : ℕ}
    (h : ∀ i j : ℕ, l[i]? = some b → l[j]? = some b → i = j) : l.count b ≤ 1 := by
  by_contra hcnt
  obtain ⟨i, j, hij, hi, hj⟩ := duplicate_iff_exists_distinct_get.mp
    (duplicate_iff_two_le_count.mpr (Nat.lt_of_not_le hcnt))
  have hij' := h i j (by simp [hi]) (by simp [hj])
  exact absurd (Fin.ext hij') hij.ne

lemma HitRows.count_le_one {n pos b : ℕ} (hrows : HitRows p hashes gids n rows)
    (hmap : BlockPool.MapOk p) (hdis : Distinct hashes n) (hb : b ≠ nullBlock) :
    (rows.map fun row => row.getD pos 0).count b ≤ 1 := by
  apply count_le_one_of_index
  intro i j hi hj
  have hlt : ∀ {k}, (rows.map fun row => row.getD pos 0)[k]? = some b → k < n := by
    intro k hk
    have := lt_of_getElem? hk
    rw [length_map] at this
    exact this.trans_le hrows.length_le
  obtain ⟨x, gid, hgid, hx, hkey⟩ := hrows.mem_cached hb hi
  obtain ⟨y, gid', hgid', hy, hkey'⟩ := hrows.mem_cached hb hj
  obtain rfl : gid = gid' := Option.some.inj (hgid.symm.trans hgid')
  have hxy : x = y := by
    have := Option.some.inj ((hmap.keyed hkey).symm.trans (hmap.keyed hkey'))
    exact append_cancel_right this
  subst hxy
  exact hdis (hlt hi) (hlt hj) hx hy

end CacheHit

/-- What the hasher gives a request: different hashes of one length for its full blocks. -/
structure Request.WellHashed (hashBlockSize : ℕ) (r : Request) : Prop where
  covers : r.numTokens / hashBlockSize ≤ r.blockHashes.length
  digest : ∃ n, ∀ h ∈ r.blockHashes, h.length = n
  nodup : r.blockHashes.Nodup

namespace CacheHit

variable {hashes : List Bytes}

lemma take_joinAt {scale i n : ℕ} (hlen : ∀ h ∈ hashes, h.length = n)
    (hscale : 0 < scale) (hi : i * scale < hashes.length) :
    hashes[i * scale]? = some ((BlockHashList.joinAt hashes scale i).take n) := by
  have hslice : slice hashes (i * scale) ((i + 1) * scale) =
      hashes[i * scale] :: slice hashes (i * scale + 1) ((i + 1) * scale) := by
    unfold slice
    have hlt : i * scale < (hashes.take ((i + 1) * scale)).length := by
      rw [List.length_take, Nat.succ_mul]
      omega
    rw [List.drop_eq_getElem_cons hlt, List.getElem_take]
  rw [BlockHashList.joinAt, hslice, List.flatten_cons,
    List.take_left' (hlen _ (List.getElem_mem hi)), List.getElem?_eq_getElem hi]

lemma Distinct.plain (h : hashes.Nodup) (n : ℕ) : Distinct (.plain hashes) n := by
  intro i j x _ _ hi hj
  have hget : ∀ {k}, BlockHashList.get (.plain hashes) k = .ok x → hashes[k]? = some x := by
    intro k hk
    cases hx : hashes[k]? with
    | none => simp [BlockHashList.get, hx] at hk
    | some y => simpa [BlockHashList.get, hx] using hk
  have hlt := lt_of_getElem? (hget hi)
  exact (List.getElem?_inj hlt h).mp ((hget hi).trans (hget hj).symm)

lemma Distinct.of_wellHashed {hashBlockSize size n : ℕ} {r : Request} {hashes : BlockHashList}
    (hr : r.WellHashed hashBlockSize) (hn : n ≤ r.numTokens)
    (h : BlockPool.blockHashesAt hashBlockSize size r.blockHashes = .ok hashes) :
    Distinct hashes (n / size) := by
  unfold BlockPool.blockHashesAt at h
  split at h
  · cases h
    exact Distinct.plain hr.nodup _
  split at h
  · rename_i hdvd
    cases h
    intro i j x hi hj hxi hxj
    obtain ⟨len, hlen⟩ := hr.digest
    obtain ⟨scale, rfl⟩ := Nat.dvd_of_mod_eq_zero hdvd
    have hsize : 0 < hashBlockSize * scale := pos_of_ne_zero fun h0 => by simp [h0] at hi
    have hpos := Nat.pos_of_mul_pos_right hsize
    have hscale := Nat.pos_of_mul_pos_left hsize
    rw [Nat.mul_div_cancel_left _ hpos] at hxi hxj
    have hlt : ∀ {k}, k < n / (hashBlockSize * scale) → k * scale < r.blockHashes.length := by
      intro k hk
      have h1 : (k + 1) * (hashBlockSize * scale) ≤ r.numTokens :=
        ((Nat.le_div_iff_mul_le hsize).mp hk).trans hn
      have h2 : (k + 1) * scale ≤ r.numTokens / hashBlockSize := by
        rw [Nat.le_div_iff_mul_le hpos]
        calc (k + 1) * scale * hashBlockSize = (k + 1) * (hashBlockSize * scale) := by ring
          _ ≤ r.numTokens := h1
      have h3 := h2.trans hr.covers
      rw [Nat.succ_mul] at h3
      omega
    have hjoin : BlockHashList.joinAt r.blockHashes scale i =
      BlockHashList.joinAt r.blockHashes scale j :=
      (Except.ok.inj hxi).trans (Except.ok.inj hxj).symm
    have hfst : r.blockHashes[i * scale]? = r.blockHashes[j * scale]? := by
      rw [take_joinAt hlen hscale (hlt hi), take_joinAt hlen hscale (hlt hj), hjoin]
    exact Nat.eq_of_mul_eq_mul_right hscale ((List.getElem?_inj (hlt hi) hr.nodup).mp hfst)
  · cases h

end CacheHit

end Vllm
