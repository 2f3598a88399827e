import Vllm.KVCache.CallSteps

/-! # Reference counts over runs of the KV-cache manager -/

namespace Vllm.KVState

/-- In every state that a scheduler's calls reach, a block's reference count is its number of
occurrences in tables and popped lists, no table lists it twice for a request, and without
references it is in no table. -/
theorem refCnt_eq_occurrences (env : HashEnv) {a : KVCacheManagerArgs} {k : KVCacheManager}
    (hinit : KVCacheManager.init a = .ok k) {calls : List KVCall} {s : KVState}
    (hrun : Machine.Run (call env) (Admissible a.hashBlockSize) { kv := k } calls s)
    {b : ℕ} (hb : b ≠ nullBlock) :
    s.kv.blockPool.refCnt b = heldBy s.kv.managers b + heldIn s.popped b ∧
    (∀ m ∈ s.kv.managers, ∀ rid, (m.blocksOf rid).count b ≤ 1) ∧
    (s.kv.blockPool.refCnt b = 0 → ∀ m ∈ s.kv.managers, ∀ rid, b ∉ m.blocksOf rid) := by
  have hsteady : Steady a.hashBlockSize s :=
    hrun.invariant (fun _ _ _ h hok hstep => h.call hok hstep) (Steady.init hinit)
  exact ⟨hsteady.ledger.refs b hb, fun m hm rid => hsteady.ledger.once m hm rid b hb,
    fun hzero => (hsteady.ledger.unheld hb hzero).1⟩

/-- One group of full attention with blocks of two tokens. -/
def smallArgs : KVCacheManagerArgs where
  groups := [⟨⟨.full, 2, 0⟩, false⟩]
  numBlocks := 4
  maxModelLen := 8
  maxNumBatchedTokens := 8
  schedulerBlockSize := 2
  hashBlockSize := 2

def smallRequest : Request where
  requestId := "r"
  promptTokenIds := some [7, 8, 9]
  numPromptTokens := 3
  allTokenIds := [7, 8, 9]
  blockHashes := [[1]]

lemma wellHashed_smallRequest : smallRequest.WellHashed 2 where
  covers := by decide
  digest := ⟨1, by decide⟩
  nodup := by decide

def smallEnv : HashEnv := ⟨fun _ => [1], [0], id⟩

/-- The second request finds the first block of the first one, whose blocks are then popped. -/
def sharedCalls : List KVCall :=
  [.allocateWithHits smallRequest { numNewTokens := 3 },
    .allocateWithHits { smallRequest with requestId := "q" } { numNewTokens := 1 },
    .popBlocksForFree "r"]

lemma shared_run : ∃ k s, KVCacheManager.init smallArgs = .ok k ∧
    Machine.Run (call smallEnv) (Admissible 2) { kv := k } sharedCalls s ∧
    heldBy s.kv.managers 1 = 1 ∧ heldIn s.popped 1 = 1 := by
  have hhashed : ({ smallRequest with requestId := "q" } : Request).WellHashed 2 :=
    ⟨by decide, ⟨1, by decide⟩, by decide⟩
  exact ⟨_, _, rfl, .cons ⟨fun _ => wellHashed_smallRequest, by decide⟩ rfl
    (.cons ⟨fun _ => hhashed, by decide⟩ rfl (.cons trivial rfl (.nil _))), rfl, rfl⟩

/-- A block in the table of one request and among the blocks popped from another has two references.
-/
theorem refCnt_after_pop : ∃ k s, KVCacheManager.init smallArgs = .ok k ∧
    Machine.Run (call smallEnv) (Admissible 2) { kv := k } sharedCalls s ∧
    heldBy s.kv.managers 1 = 1 ∧ heldIn s.popped 1 = 1 ∧ s.kv.blockPool.refCnt 1 = 2 := by
  obtain ⟨k, s, hinit, hrun, hheld, hpopped⟩ := shared_run
  refine ⟨k, s, hinit, hrun, hheld, hpopped, ?_⟩
  have h := (refCnt_eq_occurrences smallEnv hinit hrun (b := 1) (by decide)).1
  rw [h, hheld, hpopped]
  rfl

end Vllm.KVState
