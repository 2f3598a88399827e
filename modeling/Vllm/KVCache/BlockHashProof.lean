import Vllm.KVCache.BlockHash
import Mathlib.Data.Countable.Basic
import Mathlib.Logic.Equiv.List

/-! # The hasher computes a chain over the full blocks -/

namespace Vllm

open MultiModalFeatureSpec List Function Request

variable {fs : List MultiModalFeatureSpec} {bs : ℕ}

/-- The items follow each other in the prompt. -/
def ItemsSorted (fs : List MultiModalFeatureSpec) : Prop := fs.Pairwise fun f g => f.stop ≤ g.offset

lemma offset_le_stop (f : MultiModalFeatureSpec) : f.offset ≤ f.stop := by
  simp only [offset, stop]
  omega

/-! ## The items of one block -/

variable {start stop : ℕ}

lemma filter_overlaps_eq_nil (h : ∀ f ∈ fs, stop ≤ f.offset ∨ f.stop ≤ start) :
    fs.filter (fun f => f.Overlaps start stop) = [] := by
  rw [filter_eq_nil_iff]
  intro f hf ho
  obtain ⟨h1, h2⟩ := of_decide_eq_true ho
  have := h f hf
  omega

lemma mmLoop_fst (start stop : ℕ) (hs : ItemsSorted fs) : (mmLoop start stop fs).1 =
      (fs.filter (fun f => f.Overlaps start stop)).map (mmKey start) := by
  induction fs with
  | nil => rfl
  | cons f fs ih =>
    obtain ⟨hf, hs⟩ := pairwise_cons.1 hs
    have hof := offset_le_stop f
    rw [mmLoop]
    split_ifs with h1 h2 h3
    · have : ¬ f.Overlaps start stop := by simp only [Overlaps]; omega
      simp [this, ih hs]
    · have : f.Overlaps start stop := by simp only [Overlaps]; omega
      simp [this, ih hs]
    · have : f.Overlaps start stop := by simp only [Overlaps]; omega
      have hnil : fs.filter (fun g => g.Overlaps start stop) = [] :=
        filter_overlaps_eq_nil fun g hg => by have := hf g hg; omega
      simp [this, hnil]
    rw [filter_overlaps_eq_nil, map_nil]
    rintro g (_ | ⟨_, hg⟩)
    · omega
    · have := hf g hg
      omega

lemma stop_le_of_mem_mmLoop (h : start ≤ stop) :
    ∀ f ∈ fs.take (mmLoop start stop fs).2, f.stop ≤ stop := by
  induction fs with
  | nil => simp [mmLoop]
  | cons f fs ih =>
    rw [mmLoop]
    split_ifs with h1 h2 h3
    · rintro g (_ | ⟨_, hg⟩)
      · omega
      · exact ih g hg
    · rintro g (_ | ⟨_, hg⟩)
      · omega
      · exact ih g hg
    · simp
    · simp

/-- `idx` is at or past item `k`, and the items from `k` on that it has passed end before
`start`. -/
structure IndexFrom (fs : List MultiModalFeatureSpec) (k start : ℕ) (idx : ℤ) : Prop where
  nonneg : fs ≠ [] → 0 ≤ mmStart fs idx
  le : k ≤ (mmStart fs idx).toNat
  passed : ∀ f ∈ slice fs k (mmStart fs idx).toNat, f.stop ≤ start

variable {k start stop : ℕ}

lemma IndexFrom.mono {idx : ℤ} (h : IndexFrom fs k start idx) (hle : start ≤ stop) :
    IndexFrom fs k stop idx :=
  ⟨h.nonneg, h.le, fun f hf => (h.passed f hf).trans hle⟩

lemma indexFrom_natCast {k start i : ℕ} (hle : k ≤ i)
    (h : ∀ f ∈ slice fs k i, f.stop ≤ start) : IndexFrom fs k start i := by
  have e : mmStart fs i = i := if_neg (by omega)
  refine ⟨fun _ => ?_, ?_, ?_⟩ <;> rw [e]
  · omega
  · simpa using hle
  · simpa using h

variable (fs)

lemma indexFrom_zero (start : ℕ) : IndexFrom fs 0 start 0 :=
  indexFrom_natCast le_rfl (by simp [slice])

lemma indexFrom_last (start : ℕ) : IndexFrom fs (fs.length - 1) start (-1) := by
  have e : mmStart fs (-1) = (fs.length : ℤ) - 1 := by simp [mmStart]; omega
  have hn : ((fs.length : ℤ) - 1).toNat = fs.length - 1 := by omega
  refine ⟨fun hne => ?_, ?_, ?_⟩ <;> rw [e]
  · have := length_pos_iff.2 hne
    omega
  · omega
  · simp [hn, slice]

variable {fs}

lemma stop_le_getLast {last f : MultiModalFeatureSpec}
    (hs : ItemsSorted fs) (hl : fs.getLast? = some last) (hf : f ∈ fs) : f.stop ≤ last.stop := by
  obtain ⟨pre, rfl⟩ := getLast?_eq_some_iff.1 hl
  rw [ItemsSorted, pairwise_append] at hs
  rcases mem_append.1 hf with hf | hf
  · exact (hs.2.2 f hf last (by simp)).trans (offset_le_stop last)
  · obtain rfl : f = last := by simpa using hf
    exact le_rfl

lemma genMm_spec (r : Request) {idx : ℤ} (hs : ItemsSorted r.mmFeatures)
    (hi : IndexFrom r.mmFeatures k start idx) (hle : start ≤ stop) :
    (genMmExtraHashKeys r start stop idx).1 =
        ((r.mmFeatures.drop k).filter (fun f => f.Overlaps start stop)).map (mmKey start) ∧
      IndexFrom r.mmFeatures k stop (genMmExtraHashKeys r start stop idx).2 := by
  unfold genMmExtraHashKeys
  cases hl : r.mmFeatures.getLast? with
  | none =>
    have hnil : r.mmFeatures = [] := getLast?_eq_none_iff.1 hl
    exact ⟨by simp [hnil], hi.mono hle⟩
  | some last =>
    dsimp only
    split_ifs with hlast
    · refine ⟨?_, hi.mono hle⟩
      rw [filter_overlaps_eq_nil, map_nil]
      intro f hf
      exact Or.inr ((stop_le_getLast hs hl (mem_of_mem_drop hf)).trans hlast)
    have hne : r.mmFeatures ≠ [] := by rintro h; simp [h] at hl
    obtain ⟨i, hi'⟩ : ∃ i : ℕ, mmStart r.mmFeatures idx = i :=
      Int.eq_ofNat_of_zero_le (hi.nonneg hne)
    have hki : k ≤ i := by simpa [hi'] using hi.le
    have hpassed : ∀ f ∈ slice r.mmFeatures k i, f.stop ≤ start := by simpa [hi'] using hi.passed
    rw [hi', Int.toNat_natCast]
    constructor
    · have hdrop : ItemsSorted (r.mmFeatures.drop i) := hs.sublist (drop_sublist i _)
      rw [mmLoop_fst start stop hdrop, drop_eq_slice_append _ hki, filter_append,
        filter_overlaps_eq_nil fun f hf => Or.inr (hpassed f hf), nil_append]
    refine indexFrom_natCast (by omega) fun f hf => ?_
    rw [slice_add _ hki, mem_append] at hf
    rcases hf with hf | hf
    · exact (hpassed f hf).trans hle
    · exact stop_le_of_mem_mmLoop hle f hf

variable (env : HashEnv)

lemma hashBlockTokens_eq_hashStep (prev : Option Bytes) (tokens : List ℕ)
    (keys : Option (List ExtraKey)) :
    hashBlockTokens env prev tokens keys = hashStep env (prev.getD env.noneHash) (tokens,
      keys) := by
  rcases prev with _ | p
  · simp only [hashStep, hashBlockTokens, Option.getD_none]
    split <;> simp_all
  · rfl

variable (fs)

/-- The items that the hasher sees when `numHashed` blocks are hashed. -/
def visibleItems (numHashed : ℕ) : List MultiModalFeatureSpec :=
  if numHashed = 0 then fs else fs.drop (fs.length - 1)

lemma hashLoop_eq_chain (hbs : 0 < bs) (r : Request)
    (hs : ItemsSorted r.mmFeatures) {k : ℕ} (rounds j : ℕ) (idx : ℤ) (prev : Option Bytes)
    (hr : r.numTokens / bs ≤ rounds + j) (hi : IndexFrom r.mmFeatures k (j * bs) idx) :
    hashLoop env bs r rounds (j * bs) idx prev = Chain.chain (hashStep env) (prev.getD env.noneHash)
        ((range' j (r.numTokens / bs - j)).map (blockContent env bs r (r.mmFeatures.drop k))) := by
  induction rounds generalizing j idx prev with
  | zero =>
    have : r.numTokens / bs - j = 0 := by omega
    simp [hashLoop, this]
  | succ rounds ih =>
    have hstop : j * bs + bs = (j + 1) * bs := by ring
    have hfull : (j + 1) * bs ≤ r.numTokens ↔ j + 1 ≤ r.numTokens / bs :=
      (Nat.le_div_iff_mul_le hbs).symm
    rw [hashLoop, hstop]
    dsimp only
    split_ifs with h
    · have : r.numTokens / bs - j = 0 := by omega
      simp [this]
    obtain ⟨hkeys, hidx⟩ := genMm_spec r hs hi (show j * bs ≤ (j + 1) * bs by omega)
    obtain ⟨n, hn⟩ : ∃ n, r.numTokens / bs - j = n + 1 := ⟨r.numTokens / bs - j - 1, by omega⟩
    have hn' : r.numTokens / bs - (j + 1) = n := by omega
    have hidx : IndexFrom r.mmFeatures k ((j + 1) * bs)
        (generateBlockHashExtraKeys env r (j * bs) ((j + 1) * bs) idx).2 := hidx
    have hcontent : hashBlockTokens env prev (slice r.allTokenIds (j * bs) ((j + 1) * bs))
          (generateBlockHashExtraKeys env r (j * bs) ((j + 1) * bs) idx).1 =
        hashStep env (prev.getD env.noneHash) (blockContent env bs r (r.mmFeatures.drop k) j) := by
      rw [hashBlockTokens_eq_hashStep, generateBlockHashExtraKeys, hkeys]
      rfl
    rw [hn, range'_succ, map_cons, Chain.chain_cons, hcontent, ih (j + 1) _ _ (by omega) hidx, hn',
      Option.getD_some]

lemma requestBlockHasher_eq_chain (hbs : 0 < bs) (r : Request) (hs : ItemsSorted r.mmFeatures) :
    requestBlockHasher env bs r = Chain.chain (hashStep env) (r.blockHashes.getLastD env.noneHash)
        ((range' r.blockHashes.length (r.numTokens / bs - r.blockHashes.length)).map
          (blockContent env bs r (visibleItems r.mmFeatures r.blockHashes.length))) := by
  unfold requestBlockHasher
  dsimp only
  rw [getLastD_eq_getLast?]
  have hdiv := Nat.div_le_self r.numTokens bs
  split_ifs with h hpos
  · have : r.numTokens / bs ≤ r.blockHashes.length := by
      rw [← Nat.lt_add_one_iff, Nat.div_lt_iff_lt_mul hbs, Nat.add_mul, Nat.one_mul]
      omega
    simp [Nat.sub_eq_zero_of_le this]
  · have hne : r.blockHashes.length ≠ 0 := by rintro e; simp [e] at hpos
    rw [visibleItems, if_neg hne]
    exact hashLoop_eq_chain env hbs r hs _ _ _ _ (by omega) (indexFrom_last _ _)
  have hz : r.blockHashes.length = 0 := by
    rcases Nat.eq_zero_or_pos r.blockHashes.length with e | e
    · exact e
    · exact absurd (Nat.mul_pos e hbs) hpos
  rw [visibleItems, if_pos hz, ← drop_zero (l := r.mmFeatures)]
  exact hashLoop_eq_chain env hbs r hs _ _ _ _ (by omega) (indexFrom_zero _ _)

/-! ## The hashes of a run -/

def itemsSeen (first j : ℕ) : List MultiModalFeatureSpec :=
  if j < first then fs else fs.drop (fs.length - 1)

variable {fs}

def HashedBy (bs first : ℕ) (r : Request) : Prop :=
  r.blockHashes = Chain.chain (hashStep env) env.noneHash
    ((List.range (r.numTokens / bs)).map fun j =>
      blockContent env bs r (itemsSeen r.mmFeatures first j) j)

lemma HashedBy.of_lt {env : HashEnv} {bs first first' : ℕ} {r : Request}
    (h : HashedBy env bs first r) (hlt : r.numTokens < bs) : HashedBy env bs first' r := by
  unfold HashedBy at h ⊢
  rw [h, Nat.div_eq_of_lt hlt]
  rfl

lemma range_eq_append_range' {m n : ℕ} (h : m ≤ n) : range n = range m ++ range' m (n - m) := by
  have e := @range'_append_1 0 m (n - m)
  rw [zero_add, Nat.add_sub_cancel' h, ← range_eq_range', ← range_eq_range'] at e
  exact e.symm

lemma hashedBy_updateBlockHashes (hbs : 0 < bs) (r : Request)
    (hs : ItemsSorted r.mmFeatures) {m : ℕ} (first : ℕ) (hm : m ≤ r.numTokens / bs)
    (h : r.blockHashes = Chain.chain (hashStep env) env.noneHash ((range m).map fun j =>
      blockContent env bs r (itemsSeen r.mmFeatures first j) j)) (hfst : m ≠ 0 → first ≤ m) :
    HashedBy env bs (if m = 0 then r.numTokens / bs else first) (r.updateBlockHashes env bs) := by
  have hlen : r.blockHashes.length = m := by rw [h]; simp
  have hlast : r.blockHashes.getLastD env.noneHash = ((range m).map fun j =>
      blockContent env bs r (itemsSeen r.mmFeatures first j) j).foldl (hashStep env)
        env.noneHash := by
    rw [h, Chain.getLastD_chain]
  show r.blockHashes ++ requestBlockHasher env bs r = Chain.chain (hashStep env) env.noneHash
    ((range (r.numTokens / bs)).map fun j =>
      blockContent env bs r (itemsSeen r.mmFeatures _ j) j)
  rw [requestBlockHasher_eq_chain env hbs r hs, hlast, hlen]
  conv_lhs => rw [h]
  rw [← Chain.chain_append, range_eq_append_range' hm, map_append]
  congr 2
  · refine map_congr_left fun j hj => ?_
    rw [if_neg (by rintro rfl; simp at hj)]
  refine map_congr_left fun j hj => ?_
  rw [mem_range'_1] at hj
  by_cases hz : m = 0
  · rw [if_pos hz, itemsSeen, visibleItems, if_pos hz, if_pos (by omega)]
  · have := hfst hz
    rw [if_neg hz, itemsSeen, visibleItems, if_neg hz, if_neg (by omega)]

variable {j : ℕ}

lemma blockContent_append {env : HashEnv} {r r' : Request} {tokens : List ℕ}
    (htok : r'.allTokenIds = r.allTokenIds ++ tokens) (hl : r'.loraRequest = r.loraRequest)
    (hsalt : r'.cacheSalt = r.cacheSalt) (he : r'.promptEmbeds = r.promptEmbeds)
    (fs : List MultiModalFeatureSpec) (hj : (j + 1) * bs ≤ r.numTokens) :
    blockContent env bs r' fs j = blockContent env bs r fs j := by
  simp only [blockContent, genLoraExtraHashKeys, cacheSaltKeys, genPromptEmbedsExtraHashKeys, htok,
    hl, hsalt, he, slice_append_left _ hj]

lemma hashedBy_append (hbs : 0 < bs) (r : Request)
    (hs : ItemsSorted r.mmFeatures) {first : ℕ} (h : HashedBy env bs first r)
    (hfst : r.numTokens / bs ≠ 0 → first ≤ r.numTokens / bs) (tokens : List ℕ) :
    HashedBy env bs (if r.numTokens / bs = 0 then (r.numTokens + tokens.length) / bs else first)
      (r.appendOutputTokenIds env bs tokens) := by
  let r' : Request :=
    { r with outputTokenIds := r.outputTokenIds ++ tokens, allTokenIds := r.allTokenIds ++ tokens }
  have hnum : r'.numTokens = r.numTokens + tokens.length := length_append
  rw [← hnum]
  refine hashedBy_updateBlockHashes env hbs r' hs first ?_ ?_ hfst
  · exact Nat.div_le_div_right (by omega)
  show r.blockHashes = _
  rw [h]
  refine congrArg _ (map_congr_left fun j hj => ?_)
  rw [mem_range, ← Nat.add_one_le_iff, Nat.le_div_iff_mul_le hbs] at hj
  have htok : r'.allTokenIds = r.allTokenIds ++ tokens := rfl
  exact (blockContent_append htok rfl rfl rfl _ hj).symm

/-- How many blocks the first hashing call hashes: a prompt of `n` tokens at once if it fills a
block, else the first call of `append_output_token_ids` that does. -/
def firstHashed (bs : ℕ) : ℕ → List (List ℕ) → ℕ
  | n, [] => n / bs
  | n, out :: outs => if bs ≤ n then n / bs else firstHashed bs (n + out.length) outs

lemma firstHashed_of_le {bs n : ℕ} (h : bs ≤ n) (outs : List (List ℕ)) :
    firstHashed bs n outs = n / bs := by
  cases outs with
  | nil => rfl
  | cons out outs => rw [firstHashed, if_pos h]

lemma hashedBy_foldl_append (hbs : 0 < bs) (outs : List (List ℕ))
    (r : Request) (hs : ItemsSorted r.mmFeatures) {first : ℕ} (h : HashedBy env bs first r)
    (hfst : r.numTokens / bs ≠ 0 → first ≤ r.numTokens / bs) :
    HashedBy env bs (if bs ≤ r.numTokens then first else firstHashed bs r.numTokens outs)
      (outs.foldl (appendOutputTokenIds env bs) r) := by
  induction outs generalizing r first with
  | nil =>
    split_ifs with hle
    · exact h
    · exact h.of_lt (by omega)
  | cons out outs ih =>
    have hnum : (r.appendOutputTokenIds env bs out).numTokens = r.numTokens + out.length :=
      length_append
    have hmono : r.numTokens / bs ≤ (r.numTokens + out.length) / bs :=
      Nat.div_le_div_right (by omega)
    have step := hashedBy_append env hbs r hs h hfst out
    rw [foldl_cons]
    by_cases hle : bs ≤ r.numTokens
    · have hne : r.numTokens / bs ≠ 0 := (Nat.div_pos hle hbs).ne'
      rw [if_neg hne] at step
      have := ih (r.appendOutputTokenIds env bs out) hs step fun _ => by
        rw [hnum]
        exact (hfst hne).trans hmono
      rw [hnum, if_pos (by omega)] at this
      rwa [if_pos hle]
    rw [if_pos (Nat.div_eq_of_lt (by omega))] at step
    have := ih (r.appendOutputTokenIds env bs out) hs step fun _ => by rw [hnum]
    rw [hnum] at this
    rw [if_neg hle, firstHashed, if_neg hle]
    split_ifs at this with hle'
    · rwa [firstHashed_of_le hle']
    · exact this

namespace Request

variable (env : HashEnv) (bs : ℕ)

lemma foldl_append_fields (outs : List (List ℕ)) (r : Request) :
    (outs.foldl (appendOutputTokenIds env bs) r).allTokenIds = r.allTokenIds ++ outs.flatten ∧
      (outs.foldl (appendOutputTokenIds env bs) r).mmFeatures = r.mmFeatures ∧
      (outs.foldl (appendOutputTokenIds env bs) r).loraRequest = r.loraRequest ∧
      (outs.foldl (appendOutputTokenIds env bs) r).cacheSalt = r.cacheSalt ∧
      (outs.foldl (appendOutputTokenIds env bs) r).promptEmbeds = r.promptEmbeds := by
  induction outs generalizing r with
  | nil => simp
  | cons out outs ih =>
    obtain ⟨htok, hrest⟩ := ih (r.appendOutputTokenIds env bs out)
    refine ⟨?_, hrest⟩
    rw [foldl_cons, htok, flatten_cons, ← append_assoc]
    rfl

variable (a : Args) (outs : List (List ℕ))

@[simp] lemma allTokenIds_generate :
    (generate env bs a outs).allTokenIds = a.prompt.allTokenIds ++ outs.flatten :=
  (foldl_append_fields env bs outs _).1

@[simp] lemma mmFeatures_generate : (generate env bs a outs).mmFeatures = a.mmFeatures :=
  (foldl_append_fields env bs outs _).2.1

@[simp] lemma loraRequest_generate : (generate env bs a outs).loraRequest = a.loraRequest :=
  (foldl_append_fields env bs outs _).2.2.1

@[simp] lemma cacheSalt_generate : (generate env bs a outs).cacheSalt = a.cacheSalt :=
  (foldl_append_fields env bs outs _).2.2.2.1

@[simp] lemma promptEmbeds_generate :
    (generate env bs a outs).promptEmbeds = a.prompt.promptEmbeds :=
  (foldl_append_fields env bs outs _).2.2.2.2

@[simp] lemma numTokens_generate :
    (generate env bs a outs).numTokens = a.prompt.numPromptTokens + outs.flatten.length := by
  rw [numTokens, allTokenIds_generate, length_append, Prompt.length_allTokenIds]

end Request

variable {bs : ℕ}

/-- The blocks of the first hashing call cover every item, the later ones only the last. -/
lemma generate_hashedBy (env : HashEnv) (hbs : 0 < bs) (a : Args)
    (hs : ItemsSorted a.mmFeatures) (outs : List (List ℕ)) :
    HashedBy env bs (firstHashed bs a.prompt.numPromptTokens outs) (generate env bs a outs) := by
  have hnum : ((init a).updateBlockHashes env bs).numTokens = a.prompt.numPromptTokens :=
    a.prompt.length_allTokenIds
  have hinit :=
    hashedBy_updateBlockHashes env hbs (init a) hs 0 (Nat.zero_le _) rfl (fun h => absurd rfl h)
  rw [if_pos rfl] at hinit
  have hrun := hashedBy_foldl_append env hbs outs _ hs hinit fun _ => le_rfl
  rw [hnum] at hrun
  split_ifs at hrun with hle
  · rw [firstHashed_of_le hle, ← hnum]
    exact hrun
  · exact hrun

/-! ## Collision-free hashing -/

/-- No two tuples and no two tensors share a digest, and none is empty. -/
structure HashEnv.CollisionFree (env : HashEnv) : Prop where
  hashFn_injective : Function.Injective env.hashFn
  hashFn_ne_nil : ∀ x, env.hashFn x ≠ []
  noneHash_ne_nil : env.noneHash ≠ []
  sha256_injective : Function.Injective env.sha256

lemma countable_string : Countable String := by
  have : Countable Char := Injective.countable (f := Char.toNat) fun c d h =>
    Char.ext (UInt32.toNat_inj.1 h)
  exact Injective.countable (f := String.toList) fun _ _ => String.toList_injective

lemma countable_bytes : Countable Bytes := by
  have : Countable UInt8 := Injective.countable (f := UInt8.toNat) fun _ _ => UInt8.toNat_inj.1
  infer_instance

def ExtraKey.code : ExtraKey → String ⊕ String × ℤ ⊕ Bytes
  | .str s => .inl s
  | .item i o => .inr (.inl (i, o))
  | .digest d => .inr (.inr d)

lemma countable_extraKey : Countable ExtraKey := by
  have := countable_string
  have := countable_bytes
  refine Injective.countable (f := ExtraKey.code) fun k l h => ?_
  cases k <;> cases l <;> simp_all [ExtraKey.code]

lemma exists_injective_bytes (α : Type) [Countable α] :
    ∃ f : α → Bytes, Injective f ∧ ∀ x, f x ≠ [] := by
  obtain ⟨f, hf⟩ := exists_injective_nat α
  refine ⟨fun x => replicate (f x + 1) 0, fun x y h => ?_, fun x => by simp⟩
  simpa using hf.eq_iff.1 (by simpa using congrArg length h)

lemma exists_collisionFree : ∃ env : HashEnv, env.CollisionFree := by
  have := countable_extraKey
  have := countable_bytes
  obtain ⟨f, hf, hne⟩ := exists_injective_bytes (Bytes × List ℕ × Option (List ExtraKey))
  exact ⟨⟨f, [0], id⟩, hf, hne, by simp, injective_id⟩

lemma hashStep_of_ne_nil (env : HashEnv) {p : Bytes} (hp : p ≠ [])
    (content : List ℕ × Option (List ExtraKey)) :
    hashStep env p content = env.hashFn (p, content) := by
  cases p with
  | nil => exact absurd rfl hp
  | cons b p => rfl

lemma HashEnv.CollisionFree.noCollision {env : HashEnv} (h : env.CollisionFree) :
    Chain.NoCollision (hashStep env) (· ≠ []) where
  step_good p content hp := by
    exact h.hashFn_ne_nil _
  inj p q x y hp hq e := by
    rw [hashStep_of_ne_nil env hp, hashStep_of_ne_nil env hq] at e
    exact Prod.mk.inj (h.hashFn_injective e)

lemma toTuple_injective : Injective toTuple := by
  intro ks ks' h
  cases ks <;> cases ks' <;> simp_all [toTuple]

lemma mmKeys_append (bs : ℕ) (fs gs : List MultiModalFeatureSpec) (j : ℕ) :
    mmKeys bs (fs ++ gs) j = mmKeys bs fs j ++ mmKeys bs gs j := by
  simp [mmKeys]

lemma mmKeys_eq_nil_iff {fs : List MultiModalFeatureSpec} :
    mmKeys bs fs j = [] ↔ ∀ f ∈ fs, ¬ f.Overlaps (j * bs) ((j + 1) * bs) := by
  simp [mmKeys]

lemma mmKeys_last_eq_iff (fs : List MultiModalFeatureSpec) (j : ℕ) :
    mmKeys bs (fs.drop (fs.length - 1)) j = mmKeys bs fs j ↔
      ∀ f ∈ fs.dropLast, ¬ f.Overlaps (j * bs) ((j + 1) * bs) := by
  have hsplit : fs = fs.dropLast ++ fs.drop (fs.length - 1) := by
    rw [dropLast_eq_take, take_append_drop]
  have e : mmKeys bs fs j = mmKeys bs fs.dropLast j ++ mmKeys bs (fs.drop (fs.length - 1)) j := by
    rw [← mmKeys_append, ← hsplit]
  rw [e, ← mmKeys_eq_nil_iff, eq_comm, append_left_eq_self]

lemma blockContent_eq_iff {env : HashEnv} {r : Request} {fs gs : List MultiModalFeatureSpec} :
    blockContent env bs r fs j = blockContent env bs r gs j ↔ mmKeys bs fs j = mmKeys bs gs j := by
  constructor
  · intro h
    have := toTuple_injective (congrArg Prod.snd h)
    simpa using this
  · intro h
    simp only [blockContent, h]

/-- Every item but the last stays out of the blocks completed after the first hashing call. -/
def OnlyLastItemLater (bs : ℕ) (a : Request.Args) (outs : List (List ℕ)) : Prop :=
  ∀ j < (a.prompt.numPromptTokens + outs.flatten.length) / bs,
    firstHashed bs a.prompt.numPromptTokens outs ≤ j →
      ∀ f ∈ a.mmFeatures.dropLast, ¬ f.Overlaps (j * bs) ((j + 1) * bs)

instance (bs : ℕ) (a : Request.Args) (outs : List (List ℕ)) :
    Decidable (OnlyLastItemLater bs a outs) :=
  inferInstanceAs (Decidable (∀ j < _, _ → ∀ f ∈ _, _))

section scratch

variable (env : HashEnv) {bs : ℕ} (hbs : 0 < bs) (a : Request.Args) (hs : ItemsSorted a.mmFeatures)
  (outs : List (List ℕ))

include hbs

include hs

lemma blockHashes_eq_scratch (h : OnlyLastItemLater bs a outs) :
    (generate env bs a outs).blockHashes =
      scratchHashes env bs (generate env bs a outs) := by
  have hr : (generate env bs a outs).blockHashes = _ := generate_hashedBy env hbs a hs outs
  rw [hr, scratchHashes, numTokens_generate, mmFeatures_generate]
  refine congrArg _ (map_congr_left fun j hj => blockContent_eq_iff.2 ?_)
  unfold itemsSeen
  split_ifs with hj'
  · rfl
  · exact (mmKeys_last_eq_iff _ j).2 (h j (mem_range.1 hj) (by omega))

lemma onlyLastItemLater_of_eq_scratch (hc : env.CollisionFree)
    (h : (generate env bs a outs).blockHashes =
      scratchHashes env bs (generate env bs a outs)) : OnlyLastItemLater bs a outs := by
  have hr : (generate env bs a outs).blockHashes = _ := generate_hashedBy env hbs a hs outs
  rw [hr, scratchHashes, numTokens_generate, mmFeatures_generate] at h
  intro j hj hfst
  have := map_inj_left.1 ((hc.noCollision.chain_eq_iff hc.noneHash_ne_nil).1 h) j
    (mem_range.2 hj)
  rw [itemsSeen, if_neg (by omega), blockContent_eq_iff] at this
  exact (mmKeys_last_eq_iff _ j).1 this

end scratch

/-- Incremental hashing agrees with hashing from scratch if no item but the last reaches into a
block that is completed after the first call; without collisions, only then. -/
theorem blockHashes_generate_eq_scratch_iff (env : HashEnv) {bs : ℕ} (hbs : 0 < bs)
    (a : Args) (hs : ItemsSorted a.mmFeatures) (outs : List (List ℕ)) :
    (OnlyLastItemLater bs a outs →
        (generate env bs a outs).blockHashes = scratchHashes env bs (generate env bs a outs)) ∧
        (env.CollisionFree →
        (generate env bs a outs).blockHashes = scratchHashes env bs (generate env bs a outs) →
        OnlyLastItemLater bs a outs) :=
  ⟨blockHashes_eq_scratch env hbs a hs outs, onlyLastItemLater_of_eq_scratch env hbs a hs outs⟩

def twoItems : Request.Args where
  prompt := .tokenIds [1, 2, 3, 4, 0, 0]
  mmFeatures := [⟨"A", ⟨4, 1⟩⟩, ⟨"B", ⟨5, 1⟩⟩]

lemma itemsSorted_twoItems :
    ItemsSorted twoItems.mmFeatures := by simp [ItemsSorted, twoItems, stop, offset]

/-- When generated tokens complete the second block, its hash misses the first of the two items. -/
theorem blockHashes_twoItems_ne_scratch : ∃ env : HashEnv, env.CollisionFree ∧
      (generate env 4 twoItems [[7, 8]]).blockHashes ≠ scratchHashes env 4
      (generate env 4 twoItems [[7, 8]]) := by
  obtain ⟨env, hc⟩ := exists_collisionFree
  refine ⟨env, hc, fun h => ?_⟩
  have := onlyLastItemLater_of_eq_scratch env (by decide) twoItems itemsSorted_twoItems _ hc h
  exact absurd this (by decide)

/-- The first item lies in the block that is hashed with the prompt, the second in one that is
completed by the generated tokens. -/
def spreadItems : Request.Args where
  prompt := .tokenIds [1, 2, 0, 4, 5, 0]
  mmFeatures := [⟨"A", ⟨2, 1⟩⟩, ⟨"B", ⟨5, 1⟩⟩]

/-- A prompt with two items in different blocks whose second block is completed by output tokens. -/
theorem blockHashes_spreadItems_eq_scratch : ∃ env : HashEnv, env.CollisionFree ∧
    (generate env 4 spreadItems [[7, 8]]).blockHashes =
      scratchHashes env 4 (generate env 4 spreadItems [[7, 8]]) := by
  obtain ⟨env, hc⟩ := exists_collisionFree
  have hsorted : ItemsSorted spreadItems.mmFeatures := by
    simp [ItemsSorted, spreadItems, stop, offset]
  exact ⟨env, hc, (blockHashes_generate_eq_scratch_iff env (by decide) spreadItems hsorted
    [[7, 8]]).1 (by decide)⟩

end Vllm
