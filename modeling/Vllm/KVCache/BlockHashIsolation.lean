import Vllm.KVCache.BlockHashProof

/-!
# What equal block hashes say about two requests

The keys are untagged: a LoRA name can stand for a salt.
-/

namespace Vllm

open List ExtraKey

namespace ExtraKey

def isStr : ExtraKey → Bool
  | str _ => true
  | _ => false

def isItem : ExtraKey → Bool
  | item _ _ => true
  | _ => false

def isDigest : ExtraKey → Bool
  | digest _ => true
  | _ => false

end ExtraKey

open ExtraKey

/-- The extra keys of a block by their origin; each part can be told from the next by its form. -/
structure KeyParts where
  lora : List ExtraKey
  mm : List ExtraKey
  salt : List ExtraKey
  embeds : List ExtraKey
  lora_str : ∀ k ∈ lora, k.isStr
  mm_item : ∀ k ∈ mm, k.isItem
  salt_str : ∀ k ∈ salt, k.isStr
  embeds_digest : ∀ k ∈ embeds, k.isDigest

namespace KeyParts

variable {k : ExtraKey} (p : KeyParts)

def flat : List ExtraKey := p.lora ++ p.mm ++ p.salt ++ p.embeds

lemma isItem_eq_false (h : k.isStr ∨ k.isDigest) :
    k.isItem = false := by cases k <;> simp_all [isStr, isItem, isDigest]

lemma isStr_eq_false (h : k.isItem ∨ k.isDigest) :
    k.isStr = false := by cases k <;> simp_all [isStr, isItem, isDigest]

lemma isDigest_eq_false (h : k.isStr ∨ k.isItem) : k.isDigest = false := by
  cases k <;> simp_all [isStr, isItem, isDigest]

lemma filter_eq_nil_of {q : ExtraKey → Bool} {ks : List ExtraKey} (h : ∀ k ∈ ks, q k = false) :
    ks.filter q = [] := by
  simpa [filter_eq_nil_iff] using h

lemma filter_isItem_flat : p.flat.filter isItem = p.mm := by
  simp only [flat, filter_append,
    filter_eq_nil_of fun k hk => isItem_eq_false (Or.inl (p.lora_str k hk)),
    filter_eq_nil_of fun k hk => isItem_eq_false (Or.inl (p.salt_str k hk)),
    filter_eq_nil_of fun k hk => isItem_eq_false (Or.inr (p.embeds_digest k hk)),
    filter_eq_self.2 p.mm_item, nil_append, append_nil]

lemma filter_isDigest_flat : p.flat.filter isDigest = p.embeds := by
  simp only [flat, filter_append,
    filter_eq_nil_of fun k hk => isDigest_eq_false (Or.inl (p.lora_str k hk)),
    filter_eq_nil_of fun k hk => isDigest_eq_false (Or.inr (p.mm_item k hk)),
    filter_eq_nil_of fun k hk => isDigest_eq_false (Or.inl (p.salt_str k hk)),
    filter_eq_self.2 p.embeds_digest, nil_append]

lemma filter_isStr_flat : p.flat.filter isStr = p.lora ++ p.salt := by
  simp only [flat, filter_append,
    filter_eq_nil_of fun k hk => isStr_eq_false (Or.inl (p.mm_item k hk)),
    filter_eq_nil_of fun k hk => isStr_eq_false (Or.inr (p.embeds_digest k hk)),
    filter_eq_self.2 p.lora_str, filter_eq_self.2 p.salt_str, append_nil]

lemma takeWhile_isStr_flat (h : p.mm ≠ []) : p.flat.takeWhile isStr = p.lora := by
  obtain ⟨k, ks, hk⟩ := exists_cons_of_ne_nil h
  have hitem : k.isStr = false := isStr_eq_false (Or.inl (p.mm_item k (by simp [hk])))
  rw [flat, hk]
  simp only [append_assoc, cons_append]
  rw [takeWhile_append_of_pos p.lora_str, takeWhile_cons_of_neg (by simp [hitem]), append_nil]

/-- Two flat lists agree iff items and digests do and the strings cannot be told apart: with an item
between them LoRA and salt agree, else their concatenation. -/
lemma flat_eq_iff (p q : KeyParts) :
    p.flat = q.flat ↔ p.mm = q.mm ∧ p.embeds = q.embeds ∧ p.lora ++ p.salt = q.lora ++ q.salt ∧
      (p.mm ≠ [] → p.lora = q.lora) := by
  constructor
  · intro h
    refine ⟨?_, ?_, ?_, fun hne => ?_⟩
    · rw [← filter_isItem_flat, h, filter_isItem_flat]
    · rw [← filter_isDigest_flat, h, filter_isDigest_flat]
    · rw [← filter_isStr_flat, h, filter_isStr_flat]
    · have hne' : q.mm ≠ [] := by rwa [← filter_isItem_flat, ← h, filter_isItem_flat]
      rw [← takeWhile_isStr_flat p hne, h, takeWhile_isStr_flat q hne']
  rintro ⟨hm, he, hs, hl⟩
  by_cases hne : p.mm = []
  · have hne' : q.mm = [] := hm ▸ hne
    simp only [flat, hne, hne', append_nil, hs, he]
  have hlora := hl hne
  rw [hlora, append_cancel_left_eq] at hs
  simp only [flat, hlora, hm, hs, he]

end KeyParts

section parts

variable (env : HashEnv) (bs : ℕ) (r : Request) (fs : List MultiModalFeatureSpec) (j : ℕ)

def keyParts : KeyParts where
  lora := genLoraExtraHashKeys r
  mm := mmKeys bs fs j
  salt := cacheSaltKeys r (j * bs)
  embeds := genPromptEmbedsExtraHashKeys env r (j * bs) ((j + 1) * bs)
  lora_str k hk := by
    unfold genLoraExtraHashKeys at hk
    split at hk
    · simp at hk
    obtain rfl := mem_singleton.1 hk
    rfl
  mm_item k hk := by
    obtain ⟨f, -, rfl⟩ := mem_map.1 hk
    rfl
  salt_str k hk := by
    unfold cacheSaltKeys at hk
    cases h : r.cacheSalt <;> simp only [h] at hk
    · simp at hk
    split_ifs at hk
    · obtain rfl := mem_singleton.1 hk
      rfl
    · simp at hk
  embeds_digest k hk := by
    unfold genPromptEmbedsExtraHashKeys at hk
    split at hk
    · simp at hk
    obtain rfl := mem_singleton.1 hk
    rfl

lemma blockContent_eq_flat : blockContent env bs r fs j =
      (slice r.allTokenIds (j * bs) ((j + 1) * bs), toTuple (keyParts env bs r fs j).flat) := rfl

end parts

/-! ## Two requests -/

/-- What the hashes of a request are computed from: its arguments and the tokens appended later. -/
structure Request.Inputs extends Request.Args where
  outs : List (List ℕ) := []

namespace Request.Inputs

variable (env : HashEnv) (bs : ℕ) (x : Request.Inputs)

/-- The request that the inputs lead to. -/
def request : Request := Request.generate env bs x.toArgs x.outs

variable (j : ℕ)

def blockTokens : List ℕ :=
  slice (x.prompt.allTokenIds ++ x.outs.flatten) (j * bs) ((j + 1) * bs)

def blockEmbeds : Option Bytes :=
  x.prompt.promptEmbeds.map fun rows => (slice rows (j * bs) ((j + 1) * bs)).flatten

def blockItems : List ExtraKey := mmKeys bs x.mmFeatures j

def seenItems : List ExtraKey :=
  mmKeys bs (itemsSeen x.mmFeatures (firstHashed bs x.prompt.numPromptTokens x.outs) j) j

def loraName : Option String := x.loraRequest.map LoRARequest.loraName

/-- The salt as hashed: an empty one counts as absent. -/
def hashedSalt : Option String := x.cacheSalt.filter (· ≠ "")

def numBlocks : ℕ := (x.prompt.numPromptTokens + x.outs.flatten.length) / bs

end Request.Inputs

open Request

variable {bs : ℕ} (env : HashEnv)

lemma genLoraExtraHashKeys_request (bs : ℕ) (x : Inputs) :
    genLoraExtraHashKeys (x.request env bs) = x.loraName.toList.map .str := by
  rw [genLoraExtraHashKeys, Inputs.request, loraRequest_generate, Inputs.loraName]
  cases x.loraRequest <;> rfl

lemma cacheSaltKeys_request (bs : ℕ) (x : Inputs) (start : ℕ) :
    cacheSaltKeys (x.request env bs) start = if start = 0 then x.hashedSalt.toList.map .str else
    [] := by
  rw [cacheSaltKeys, Inputs.request, cacheSalt_generate, Inputs.hashedSalt]
  cases x.cacheSalt with
  | none => simp
  | some s =>
    by_cases hs : s = ""
    · simp [hs]
    · simp [hs, Option.filter]

lemma genPromptEmbedsExtraHashKeys_request (bs : ℕ) (x : Inputs) (j : ℕ) :
    genPromptEmbedsExtraHashKeys env (x.request env bs) (j * bs) ((j + 1) * bs) =
      (x.blockEmbeds bs j).toList.map fun d => .digest (env.sha256 d) := by
  rw [genPromptEmbedsExtraHashKeys, Inputs.request, promptEmbeds_generate, Inputs.blockEmbeds]
  cases x.prompt.promptEmbeds <;> rfl

def seenContent (bs : ℕ) (x : Inputs) (j : ℕ) : List ℕ × Option (List ExtraKey) :=
  blockContent env bs (x.request env bs)
    (itemsSeen x.mmFeatures (firstHashed bs x.prompt.numPromptTokens x.outs) j) j

variable {env} (hc : env.CollisionFree)

include hc in
lemma digest_map_eq_iff {d e : Option Bytes} :
    (d.toList.map fun d => digest (env.sha256 d)) = (e.toList.map fun d => digest (env.sha256 d)) ↔
    d = e := by
  cases d <;> cases e <;> simp [hc.sha256_injective.eq_iff]

lemma str_map_inj {ss ts : List String} : ss.map str = ts.map str ↔ ss = ts :=
  map_inj_right fun _ _ h => str.inj h

include hc in
/-- The hashes of block `j` cover the same iff tokens, embeddings and seen items agree and the
strings cannot be told apart. -/
lemma seenContent_eq_iff (x y : Inputs) (j : ℕ) :
    seenContent env bs x j = seenContent env bs y j ↔
      x.blockTokens bs j = y.blockTokens bs j ∧ x.seenItems bs j = y.seenItems bs j ∧
        x.blockEmbeds bs j = y.blockEmbeds bs j ∧ (if j * bs = 0 then
          x.loraName.toList ++ x.hashedSalt.toList = y.loraName.toList ++ y.hashedSalt.toList ∧
            (x.seenItems bs j ≠ [] → x.loraName = y.loraName) else x.loraName = y.loraName) := by
  have hlora (x y : Inputs) : x.loraName.toList = y.loraName.toList ↔ x.loraName = y.loraName := by
    cases x.loraName <;> cases y.loraName <;> simp
  have htok (x : Inputs) : (x.request env bs).allTokenIds = x.prompt.allTokenIds ++
    x.outs.flatten :=
    allTokenIds_generate env bs x.toArgs x.outs
  rw [seenContent, seenContent, blockContent_eq_flat, blockContent_eq_flat, Prod.mk.injEq,
    toTuple_injective.eq_iff, KeyParts.flat_eq_iff, htok, htok]
  simp only [keyParts, genLoraExtraHashKeys_request, cacheSaltKeys_request,
    genPromptEmbedsExtraHashKeys_request, digest_map_eq_iff hc]
  refine and_congr Iff.rfl (and_congr Iff.rfl (and_congr Iff.rfl ?_))
  split_ifs with h
  · rw [← map_append, ← map_append, str_map_inj, str_map_inj, hlora]
    rfl
  · simp only [append_nil, str_map_inj, hlora]
    tauto

/-- Two requests agree on all that the hashes of blocks `0` to `i` are meant to depend on. -/
structure AgreeUpTo (bs : ℕ) (x y : Inputs) (i : ℕ) : Prop where
  tokens : ∀ j ≤ i, x.blockTokens bs j = y.blockTokens bs j
  loraName : x.loraName = y.loraName
  cacheSalt : x.cacheSalt = y.cacheSalt
  items : ∀ j ≤ i, x.blockItems bs j = y.blockItems bs j
  embeds : ∀ j ≤ i, x.blockEmbeds bs j = y.blockEmbeds bs j

/-- The requests agree, block by block, on tokens, embeddings and the items that the hasher sees. -/
structure LookAlike (bs : ℕ) (x y : Inputs) (i : ℕ) : Prop where
  tokens : ∀ j ≤ i, x.blockTokens bs j = y.blockTokens bs j
  seen : ∀ j ≤ i, x.seenItems bs j = y.seenItems bs j
  embeds : ∀ j ≤ i, x.blockEmbeds bs j = y.blockEmbeds bs j

variable (l s l' s' : Option String)

/-- One's LoRA name is the other's salt, and neither has both. -/
def Swapped : Prop :=
  (l.isSome ∧ s = none ∧ l' = none ∧ s' = l) ∨ (l'.isSome ∧ s' = none ∧ l = none ∧ s = l')

lemma toList_append_eq_iff :
    l.toList ++ s.toList = l'.toList ++ s'.toList ↔ l = l' ∧ s = s' ∨ Swapped l s l' s' := by
  unfold Swapped
  cases l <;> cases s <;> cases l' <;> cases s' <;> simp
  exact eq_comm

lemma Swapped.ne {l s l' s' : Option String} (h : Swapped l s l' s') : l ≠ l' := by
  rintro rfl
  rcases h with ⟨h, -, rfl, -⟩ | ⟨h, -, rfl, -⟩ <;> simp at h

/-- In a first block without items, one's LoRA name stands for the other's salt. -/
def LoraSaltSwap (bs : ℕ) (x y : Inputs) (i : ℕ) : Prop :=
  i = 0 ∧ x.blockItems bs 0 = [] ∧ y.blockItems bs 0 = [] ∧
    Swapped x.loraName x.hashedSalt y.loraName y.hashedSalt

/-- The salts differ but are hashed alike: one is empty and the other missing. -/
def EmptySalt (x y : Inputs) : Prop :=
  x.loraName = y.loraName ∧ x.hashedSalt = y.hashedSalt ∧ x.cacheSalt ≠ y.cacheSalt

/-- The requests have different items in a block, and the same adapter and hashed salt. -/
def UnseenItem (bs : ℕ) (x y : Inputs) (i : ℕ) : Prop :=
  x.loraName = y.loraName ∧ x.hashedSalt = y.hashedSalt ∧
    ∃ j ≤ i, x.blockItems bs j ≠ y.blockItems bs j

lemma firstHashed_pos (hbs : 0 < bs) {n : ℕ} {outs : List (List ℕ)}
    (h : bs ≤ n + outs.flatten.length) : 0 < firstHashed bs n outs := by
  induction outs generalizing n with
  | nil => exact Nat.div_pos (by simpa using h) hbs
  | cons out outs ih =>
    rw [firstHashed]
    split_ifs with hn
    · exact Nat.div_pos hn hbs
    refine ih ?_
    rw [flatten_cons, length_append] at h
    omega

lemma seenItems_zero (hbs : 0 < bs) {x : Inputs} (h : 0 < x.numBlocks bs) :
    x.seenItems bs 0 = x.blockItems bs 0 := by
  have hle : bs ≤ x.prompt.numPromptTokens + x.outs.flatten.length := (Nat.div_pos_iff.1 h).2
  rw [Inputs.seenItems, itemsSeen, if_pos (firstHashed_pos hbs hle), Inputs.blockItems]

lemma blockHashes_request (env : HashEnv) (hbs : 0 < bs) (x : Inputs)
    (hx : ItemsSorted x.mmFeatures) :
    (x.request env bs).blockHashes = Chain.chain (hashStep env) env.noneHash
      ((range (x.numBlocks bs)).map (seenContent env bs x)) := by
  have h : (x.request env bs).blockHashes = _ := generate_hashedBy env hbs x.toArgs hx x.outs
  rw [h, numTokens_generate, mmFeatures_generate]
  rfl

include hc

lemma hash_eq_iff_seenContent (hbs : 0 < bs)
    {x y : Inputs} (hx : ItemsSorted x.mmFeatures) (hy : ItemsSorted y.mmFeatures) {i : ℕ}
    (hxi : i < x.numBlocks bs) (hyi : i < y.numBlocks bs) :
    (x.request env bs).blockHashes[i]? = (y.request env bs).blockHashes[i]? ↔
      ∀ j ≤ i, seenContent env bs x j = seenContent env bs y j := by
  rw [blockHashes_request env hbs x hx, blockHashes_request env hbs y hy,
    hc.noCollision.getElem?_eq_iff hc.noneHash_ne_nil (by simpa using hxi) (by simpa using hyi),
    ← map_take, ← map_take, take_range, take_range, min_eq_left hxi, min_eq_left hyi, map_inj_left]
  simp only [mem_range, Nat.lt_add_one_iff]

/-- Without collisions, equal hashes at block `i` mean that the requests look alike. -/
lemma hash_eq_iff (hbs : 0 < bs) {x y : Inputs}
    (hx : ItemsSorted x.mmFeatures) (hy : ItemsSorted y.mmFeatures) {i : ℕ}
    (hxi : i < x.numBlocks bs) (hyi : i < y.numBlocks bs) :
    (x.request env bs).blockHashes[i]? = (y.request env bs).blockHashes[i]? ↔ LookAlike bs x y i ∧
        (x.loraName = y.loraName ∧ x.hashedSalt = y.hashedSalt ∨ LoraSaltSwap bs x y i) := by
  have hx0 := seenItems_zero hbs (Nat.zero_lt_of_lt hxi)
  have hy0 := seenItems_zero hbs (Nat.zero_lt_of_lt hyi)
  rw [hash_eq_iff_seenContent hc hbs hx hy hxi hyi]
  simp only [seenContent_eq_iff hc, toList_append_eq_iff]
  constructor
  · intro h
    refine ⟨⟨fun j hj => (h j hj).1, fun j hj => (h j hj).2.1, fun j hj => (h j hj).2.2.1⟩, ?_⟩
    obtain ⟨-, hseen, -, hstr⟩ := h 0 (Nat.zero_le i)
    rw [if_pos (Nat.zero_mul bs)] at hstr
    rcases hstr.1 with heq | hswap
    · exact Or.inl heq
    -- The names differ, so no block may reveal them: no second block, no item in the first.
    have hnil : x.seenItems bs 0 = [] := by
      by_contra hne
      exact hswap.ne (hstr.2 hne)
    have hi : i = 0 := by
      by_contra hi
      have := (h 1 (by omega)).2.2.2
      rw [if_neg (by omega)] at this
      exact hswap.ne this
    exact Or.inr ⟨hi, hx0 ▸ hnil, hy0 ▸ hseen ▸ hnil, hswap⟩
  rintro ⟨hl, heq | ⟨rfl, hnil, -, hswap⟩⟩ j hj
  · refine ⟨hl.tokens j hj, hl.seen j hj, hl.embeds j hj, ?_⟩
    split_ifs
    · exact ⟨Or.inl heq, fun _ => heq.1⟩
    · exact heq.1
  obtain rfl := Nat.le_zero.1 hj
  refine ⟨hl.tokens 0 hj, hl.seen 0 hj, hl.embeds 0 hj, ?_⟩
  rw [if_pos (Nat.zero_mul bs)]
  exact ⟨Or.inr hswap, fun hne => absurd (hx0.trans hnil) hne⟩

omit hc

/-- Requests with equal hashes at block `i` agree on tokens, LoRA name, salt, items and embeddings
up to it, unless one's LoRA name is the other's salt, their salts differ by an empty one, or they
differ in an item that incremental hashing left out. -/
theorem isolated_iff {env : HashEnv} (hc : env.CollisionFree) {bs : ℕ} (hbs : 0 < bs) {x y : Inputs}
    (hx : ItemsSorted x.mmFeatures) (hy : ItemsSorted y.mmFeatures) {i : ℕ}
    (hxi : i < x.numBlocks bs) (hyi : i < y.numBlocks bs) :
    ((x.request env bs).blockHashes[i]? = (y.request env bs).blockHashes[i]? → AgreeUpTo bs x y i) ↔
      (LookAlike bs x y i → ¬ LoraSaltSwap bs x y i ∧ ¬ EmptySalt x y ∧ ¬ UnseenItem bs x y i) := by
  rw [hash_eq_iff hc hbs hx hy hxi hyi]
  constructor
  · intro h hl
    refine ⟨fun hswap => ?_, fun hempty => ?_, fun hunseen => ?_⟩
    · exact hswap.2.2.2.ne (h ⟨hl, Or.inr hswap⟩).loraName
    · exact hempty.2.2 (h ⟨hl, Or.inl ⟨hempty.1, hempty.2.1⟩⟩).cacheSalt
    · obtain ⟨hlora, hsalt, j, hj, hne⟩ := hunseen
      exact hne ((h ⟨hl, Or.inl ⟨hlora, hsalt⟩⟩).items j hj)
  rintro h ⟨hl, hstr⟩
  obtain ⟨hswap, hempty, hunseen⟩ := h hl
  obtain ⟨hlora, hsalt⟩ := hstr.resolve_right hswap
  refine ⟨hl.tokens, hlora, ?_, fun j hj => ?_, hl.embeds⟩
  · by_contra hne
    exact hempty ⟨hlora, hsalt, hne⟩
  · by_contra hne
    exact hunseen ⟨hlora, hsalt, j, hj, hne⟩

def withLora (name : String) :
    Inputs := { prompt := .tokenIds [1, 2, 3, 4], loraRequest := some ⟨name, 1⟩ }

def withSalt (salt : String) :
    Inputs := { prompt := .tokenIds [1, 2, 3, 4], cacheSalt := some salt }

/-- A LoRA adapter and a cache salt of the same name give the first block the same hash. -/
theorem hash_withLora_eq_withSalt : ∃ env : HashEnv, env.CollisionFree ∧
      ((withLora "x").request env 4).blockHashes[0]? =
      ((withSalt "x").request env 4).blockHashes[0]? ∧
      (withLora "x").loraName ≠ (withSalt "x").loraName ∧
      (withLora "x").cacheSalt ≠ (withSalt "x").cacheSalt := by
  obtain ⟨env, hc⟩ := exists_collisionFree
  exact ⟨env, hc, rfl, by decide, by decide⟩

/-- Two salts give the first block of the same prompt different hashes. -/
theorem hash_withSalt_ne :
    ∃ env : HashEnv, env.CollisionFree ∧ ((withSalt "x").request env 4).blockHashes[0]? ≠
        ((withSalt "y").request env 4).blockHashes[0]? := by
  obtain ⟨env, hc⟩ := exists_collisionFree
  refine ⟨env, hc, fun h => ?_⟩
  have hsalt : (withSalt "x").hashedSalt ≠ (withSalt "y").hashedSalt := by decide
  have hagree := (isolated_iff hc (show 0 < 4 by decide) (x := withSalt "x") (y := withSalt "y")
    List.Pairwise.nil List.Pairwise.nil (i := 0) (by decide) (by decide)).2
      (fun _ => ⟨fun hswap => hswap.2.2.2.ne rfl, fun he => hsalt he.2.1, fun hu => hsalt hu.2.1⟩) h
  exact absurd hagree.cacheSalt (by decide)

end Vllm
