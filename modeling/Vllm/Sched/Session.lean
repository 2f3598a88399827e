import Vllm.KVCache.BlockHashProof
import Vllm.Lib.Run

/-!
# Streaming-input sessions

`Scheduler._update_request_as_session` truncates the token list, but the list of block hashes only
ever grows.
-/

namespace Vllm

open List Request

variable {bs : ℕ} {env : HashEnv}

/-- `StreamingUpdate` as far as the block hashes depend on it. -/
structure StreamingUpdate where
  mmFeatures : Option (List MultiModalFeatureSpec) := none
  promptTokenIds : Option (List ℕ)

/-- An item of an update, with its offset counted from the start of the session. -/
def MultiModalFeatureSpec.shift (base : ℕ) (f : MultiModalFeatureSpec) : MultiModalFeatureSpec :=
  { f with mmPosition := { f.mmPosition with offset := f.mmPosition.offset + base } }

/-- The session with the tokens behind `num_computed_tokens` replaced, not hashed yet; kept output
joins the prompt. -/
def extendSession (session : Request) (promptTokenIds : List ℕ) (update : StreamingUpdate) :
    Request :=
  let bound := sliceBound session.numTokens session.numComputedTokens
  let keptOutputTokens := slice session.allTokenIds session.numPromptTokens bound
  let computed := session.allTokenIds.take bound
  let newTokens := update.promptTokenIds.getD []
  { session with
    allTokenIds := computed ++ newTokens
    outputTokenIds := []
    promptTokenIds := some (promptTokenIds ++ keptOutputTokens ++ newTokens)
    mmFeatures := session.mmFeatures ++ (update.mmFeatures.getD []).map (.shift computed.length) }

def updateRequestAsSession (env : HashEnv) (blockSize : ℕ) (session : Request)
    (update : StreamingUpdate) : Py Request :=
  match session.promptTokenIds with
  | none => .error (.assertionError "")
  | some promptTokenIds =>
    let extended := (extendSession session promptTokenIds update).updateBlockHashes env blockSize
    .ok { extended with
      numPromptTokens := (extended.promptTokenIds.getD []).length
      status := .waiting }

/-- The steps of the scheduler that change the tokens of a session. -/
inductive SessionStep where
  | scheduled (numScheduledTokens : ℕ)
  | admitted (numComputedTokens : ℕ)
  | preempted
  /-- `update_from_output`: drafts are rejected and the sampled tokens appended one by one. -/
  | output (numRejected : ℕ) (newTokenIds : List ℕ)
  | update (update : StreamingUpdate)

/-- A step of the scheduler on a session. -/
def sessionStep (env : HashEnv) (blockSize : ℕ) (session : Request) : SessionStep → Py Request
  | .scheduled n => .ok { session with numComputedTokens := session.numComputedTokens + n }
  | .admitted n => .ok { session with numComputedTokens := n, status := .running }
  | .preempted => .ok { session with numComputedTokens := 0, status := .preempted }
  | .output numRejected newTokenIds =>
    let computed := if session.numComputedTokens > 0 then session.numComputedTokens - numRejected
      else session.numComputedTokens
    .ok (newTokenIds.foldl (fun r t => r.appendOutputTokenIds env blockSize [t])
      { session with numComputedTokens := computed })
  | .update u => updateRequestAsSession env blockSize session u

/-! ## Hashes along a run -/

/-- A text-only session whose hashes are those of its tokens. -/
structure FreshHashes (env : HashEnv) (bs : ℕ) (r : Request) : Prop where
  text : r.mmFeatures = []
  hashes : r.blockHashes = scratchHashes env bs r

lemma FreshHashes.length_eq {r : Request} (h : FreshHashes env bs r) :
    r.blockHashes.length = r.numTokens / bs := by
  rw [h.hashes]
  simp [scratchHashes]

/-- Tokens after the hashed blocks can be replaced without changing a hash. -/
lemma FreshHashes.replace_tail (hbs : 0 < bs) {r r' : Request}
    (h : FreshHashes env bs r) (k : ℕ) (tokens : List ℕ) (hk : r.blockHashes.length * bs ≤ k)
    (htok : r'.allTokenIds = r.allTokenIds.take k ++ tokens) (hh : r'.blockHashes = r.blockHashes)
    (htext : r'.mmFeatures = []) (hl : r'.loraRequest = r.loraRequest)
    (hsalt : r'.cacheSalt = r.cacheSalt) (he : r'.promptEmbeds = r.promptEmbeds) :
    FreshHashes env bs (r'.updateBlockHashes env bs) := by
  have hmul : r.blockHashes.length * bs ≤ r.numTokens := by
    rw [h.length_eq]
    exact Nat.div_mul_le_self _ _
  have hnum : r'.numTokens = min k r.numTokens + tokens.length := by
    rw [numTokens, htok, length_append, length_take, numTokens]
  have hm : r.blockHashes.length ≤ r'.numTokens / bs := by
    rw [Nat.le_div_iff_mul_le hbs]
    omega
  have hprefix :
    r'.blockHashes =
    Chain.chain (hashStep env) env.noneHash ((range r.blockHashes.length).map fun j =>
        blockContent env bs r' (itemsSeen r'.mmFeatures 0 j) j) := by
    rw [hh, h.length_eq]
    refine h.hashes.trans (congrArg _ (map_congr_left fun j hj => ?_))
    have hj' : (j + 1) * bs ≤ r.blockHashes.length * bs := by
      rw [h.length_eq]
      exact Nat.mul_le_mul_right _ (mem_range.1 hj)
    have hslice : slice r'.allTokenIds (j * bs) ((j + 1) * bs) =
      slice r.allTokenIds (j * bs) ((j + 1) * bs) := by
      rw [htok, slice_append_left _ (by rw [length_take]; exact hj'.trans (le_min hk hmul)),
        slice_take _ (hj'.trans hk)]
    simp only [blockContent, genLoraExtraHashKeys, cacheSaltKeys, genPromptEmbedsExtraHashKeys,
      hslice, hl, hsalt, he, itemsSeen, htext, h.text, drop_nil, ite_self]
  have key :=
    hashedBy_updateBlockHashes env hbs r' (by simp [htext, ItemsSorted]) 0 hm hprefix (fun _ =>
      Nat.zero_le _)
  refine ⟨htext, key.trans (congrArg _ (map_congr_left fun j _ => ?_))⟩
  show blockContent env bs _ (itemsSeen r'.mmFeatures _ j) j = blockContent env bs _ r'.mmFeatures j
  simp [itemsSeen, htext]

lemma freshHashes_append (hbs : 0 < bs) {r : Request} (h : FreshHashes env bs r) (tokens : List ℕ) :
    FreshHashes env bs (r.appendOutputTokenIds env bs tokens) := by
  refine h.replace_tail hbs r.numTokens tokens ?_ ?_ rfl h.text rfl rfl rfl
  · rw [h.length_eq]
    exact Nat.div_mul_le_self _ _
  · rw [numTokens, take_length]

/-- An update finds only text, and no hashed block that reaches behind the computed tokens. -/
def KeepsHashed (bs : ℕ) (session : Request) : SessionStep → Prop
  | .update u => u.mmFeatures.getD [] = [] ∧
      (session.blockHashes.length * bs : ℤ) ≤ session.numComputedTokens
  | _ => True

lemma freshHashes_update (hbs : 0 < bs) {r t : Request}
    (h : FreshHashes env bs r) {u : StreamingUpdate} (hu : u.mmFeatures.getD [] = [])
    (hk : (r.blockHashes.length * bs : ℤ) ≤ r.numComputedTokens)
    (ht : updateRequestAsSession env bs r u = .ok t) : FreshHashes env bs t := by
  obtain ⟨n, hn⟩ : ∃ n : ℕ, r.numComputedTokens = n :=
    Int.eq_ofNat_of_zero_le (le_trans (by positivity) hk)
  have hbound : sliceBound r.numTokens r.numComputedTokens = n := by simp [sliceBound, hn]
  unfold updateRequestAsSession at ht
  split at ht
  · cases ht
  rename_i prompt _
  cases ht
  have key : FreshHashes env bs ((extendSession r prompt u).updateBlockHashes env bs) := by
    refine h.replace_tail hbs n (u.promptTokenIds.getD []) (by omega) ?_ rfl ?_ rfl rfl rfl
    · rw [extendSession, hbound]
    · simp [extendSession, h.text, hu]
  exact ⟨key.text, key.hashes⟩

lemma freshHashes_step (hbs : 0 < bs) (r : Request) (l : SessionStep)
    (t : Request) (h : FreshHashes env bs r) (hok : KeepsHashed bs r l)
    (ht : sessionStep env bs r l = .ok t) : FreshHashes env bs t := by
  cases l with
  | scheduled n => obtain rfl := Except.ok.inj ht; exact ⟨h.text, h.hashes⟩
  | admitted n => obtain rfl := Except.ok.inj ht; exact ⟨h.text, h.hashes⟩
  | preempted => obtain rfl := Except.ok.inj ht; exact ⟨h.text, h.hashes⟩
  | update u => exact freshHashes_update hbs h hok.1 hok.2 ht
  | output numRejected tokens =>
    cases ht
    have happ (tokens : List ℕ) (r : Request) (h : FreshHashes env bs r) :
        FreshHashes env bs (tokens.foldl (fun r t => r.appendOutputTokenIds env bs [t]) r) := by
      induction tokens generalizing r with
      | nil => exact h
      | cons t tokens ih => exact ih _ (freshHashes_append hbs h [t])
    exact happ tokens _ ⟨h.text, h.hashes⟩

lemma freshHashes_generate (env : HashEnv) (hbs : 0 < bs) (a : Args)
    (htext : a.mmFeatures = []) : FreshHashes env bs (generate env bs a []) := by
  have hs : ItemsSorted a.mmFeatures := by simp [htext, ItemsSorted]
  refine ⟨htext, blockHashes_eq_scratch env hbs a hs [] fun j _ _ f hf => ?_⟩
  simp [htext] at hf

/-- As long as no update of a text-only session finds a hashed block that reaches behind the
computed tokens, the hashes are always those of the session's tokens. -/
theorem session_blockHashes_eq_scratch (env : HashEnv) {bs : ℕ} (hbs : 0 < bs) (a : Args)
    (htext : a.mmFeatures = []) {steps : List SessionStep} {session : Request}
    (h : Machine.Run (sessionStep env bs) (KeepsHashed bs) (generate env bs a []) steps
      session) : session.blockHashes = scratchHashes env bs session :=
  (h.invariant (freshHashes_step hbs) (freshHashes_generate env hbs a htext)).hashes

def oneTurn (n : ℕ) : List SessionStep := [.scheduled n, .output 0 [9], .update ⟨none, some [5, 6]⟩]

/-- If the sampled token completes a block, the hash of that block survives the update. -/
theorem session_stale_hash : ∃ env : HashEnv, env.CollisionFree ∧ ∃ session : Request,
      Machine.Run (sessionStep env 4) (fun _ _ => True)
        (generate env 4 ⟨.tokenIds [1, 2, 3], [], none, none⟩ []) (oneTurn 3) session ∧
      session.allTokenIds = [1, 2, 3, 5, 6] ∧
      session.blockHashes ≠ scratchHashes env 4 session := by
  obtain ⟨env, hc⟩ := exists_collisionFree
  refine ⟨env, hc, _, .cons trivial rfl (.cons trivial rfl (.cons trivial rfl (.nil _))), rfl,
    fun h => ?_⟩
  rw [scratchHashes, show numTokens _ = 5 from rfl] at h
  have h' : [env.hashFn (env.noneHash, [1, 2, 3, 9], none)] =
    [hashStep env env.noneHash ([1, 2, 3, 5], none)] := h
  have := hc.hashFn_injective (cons.inj h').1
  simp at this

/-- After one turn the session's hashes are those of a fresh request with its tokens. -/
theorem session_fresh_hash : ∃ env : HashEnv, env.CollisionFree ∧ ∃ session : Request,
      Machine.Run (sessionStep env 4) (KeepsHashed 4)
        (generate env 4 ⟨.tokenIds [1, 2], [], none, none⟩ []) (oneTurn 2) session ∧
      session.allTokenIds = [1, 2, 5, 6] ∧ session.blockHashes = scratchHashes env 4 session := by
  obtain ⟨env, hc⟩ := exists_collisionFree
  have hkeeps : ((0 : ℕ) * (4 : ℕ) : ℤ) ≤ 0 + (2 : ℕ) := by decide
  have hrun : Machine.Run (sessionStep env 4) (KeepsHashed 4)
      (generate env 4 ⟨.tokenIds [1, 2], [], none, none⟩ []) (oneTurn 2) _ :=
    .cons trivial rfl (.cons trivial rfl (.cons ⟨rfl, hkeeps⟩ rfl (.nil _)))
  exact ⟨env, hc, _, hrun, rfl, session_blockHashes_eq_scratch env (by decide) _ rfl hrun⟩

end Vllm
