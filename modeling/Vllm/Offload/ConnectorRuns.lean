import Vllm.Lib.Run
import Vllm.Offload.ConnectorLoad
import Vllm.Offload.ConnectorStore

/-! # The calls of the scheduler to the offloading connector -/

namespace Vllm.Offload

/-- The calls of the scheduler on the connector. -/
inductive ConnectorCall where
  | onNewRequest (reqId : String) (req : OffloadRequest) (policy : OffloadPolicy)
  | getNumNewMatchedTokens (reqId : String) (req : OffloadRequest) (numComputedTokens : ℕ)
      (lookup : OffloadKey → Option Bool)
  | updateStateAfterAlloc (reqId : String) (blocks : List (List AllocatedBlock))
    (numExternalTokens : ℕ)
      (prepareLoad : List OffloadKey → Py (List ℕ))
  | buildConnectorMeta (reqs : String → OffloadRequest)
      (prepareStore : String → List OffloadKey →
        Option (PrepareStoreOutput OffloadKey)) (out : SchedulerOutput)
  | updateConnectorOutput (reqs : String → OffloadRequest) (completedJobs : List (ℕ × ℤ))
  | requestFinished (reqId : String)
  | resetCache (reqs : String → OffloadRequest)

namespace ConnectorScheduler

def call (s : ConnectorScheduler) : ConnectorCall → Py ConnectorScheduler
  | .onNewRequest reqId req policy => .ok (s.onNewRequest reqId req policy)
  | .getNumNewMatchedTokens reqId req n lookup => do
    let (_, s) ← s.getNumNewMatchedTokens lookup reqId req n
    .ok s
  | .updateStateAfterAlloc reqId blocks n prepareLoad =>
    s.updateStateAfterAlloc reqId blocks n prepareLoad
  | .buildConnectorMeta reqs prepareStore out => do
    let (s, _) ← s.buildConnectorMeta reqs prepareStore out
    .ok s
  | .updateConnectorOutput reqs completedJobs => s.updateConnectorOutput reqs completedJobs
  | .requestFinished reqId => s.requestFinished reqId
  | .resetCache reqs => s.resetCache reqs

end ConnectorScheduler

end Vllm.Offload
