import Vllm.Offload.Connector

/-!
# Copying between GPU and CPU blocks

`transfer_async` and `compute_sub_block_ptrs` of `vllm/v1/kv_offload/cpu/gpu_worker.py`, up to the
copies for `swap_blocks_batch`. Pointers do not wrap at `2 ^ 64`.
-/

namespace Vllm.Offload

/-- A two-dimensional `int8` tensor: `data_ptr()`, `stride(0)` and `shape[1]`. Rows are not empty
and do not overlap. -/
structure Tensor where
  dataPtr : ℕ
  rowStride : ℕ
  rowSize : ℕ
  rowSize_pos : 0 < rowSize := by decide
  rowSize_le : rowSize ≤ rowStride := by decide

/-- `CanonicalKVCacheRef`. -/
structure CanonicalKVCacheRef where
  tensorIdx : ℕ
  pageSizeBytes : ℕ
  deriving DecidableEq, Repr

/-- A copy of a range of blocks. -/
structure CopyOp where
  src : ℕ
  dst : ℕ
  size : ℕ
  deriving DecidableEq, Repr

def Tensor.subBlockPtr (t : Tensor) (blockSizeFactor b j : ℕ) : ℕ :=
  t.dataPtr + b * t.rowStride + j * (t.rowSize / blockSizeFactor)

/-- `output[:] = xs` for a numpy array of length `n`: a single value is broadcast. -/
def npAssign (n : ℕ) (xs : List ℕ) : Py (List ℕ) :=
  match xs with
  | [x] => .ok (List.replicate n x)
  | _ =>
    if xs.length = n then .ok xs
    else .error (.valueError "could not broadcast input array")

def computeSubBlockPtrs (blockIds : List ℕ) (blockSizeFactor numSubBlocks : ℕ) (t : Tensor)
    (skipCount : ℕ) : Py (List ℕ) := do
  pyAssert (skipCount < blockSizeFactor) ""
  if blockSizeFactor = 1 then
    npAssign numSubBlocks ((blockIds.take numSubBlocks).map fun b => t.dataPtr + b * t.rowStride)
  else do
    pyAssert (t.rowSize % blockSizeFactor = 0) ""
    let flat :=
      blockIds.flatMap fun b => (List.range blockSizeFactor).map (t.subBlockPtr blockSizeFactor b)
    npAssign numSubBlocks (slice flat skipCount (skipCount + numSubBlocks))

/-- `SingleDirectionOffloadingHandler`: pairs of a GPU tensor and a CPU tensor, whose rows hold
`blockSizeFactor` pages.
-/
structure SingleDirectionOffloadingHandler where
  tensors : List (Tensor × Tensor)
  blockSizeFactor : ℕ
  kvCacheGroupsDataRefs : List (List CanonicalKVCacheRef)
  gpuToCpu : Bool
  pageSizes : ∀ p ∈ tensors, p.2.rowSize = p.1.rowSize * blockSizeFactor

namespace SingleDirectionOffloadingHandler

variable (h : SingleDirectionOffloadingHandler)

def srcBlockSizeFactor : ℕ := if h.gpuToCpu then 1 else h.blockSizeFactor

def dstBlockSizeFactor : ℕ := if h.gpuToCpu then h.blockSizeFactor else 1

def tensorPair (tensorIdx : ℕ) : Py (Tensor × Tensor) := do
  let (gpu, cpu) ← pyGet h.tensors tensorIdx
  .ok (if h.gpuToCpu then (gpu, cpu) else (cpu, gpu))

/-- The local variables of `transfer_async`. -/
structure CopyState where
  srcOffset : ℕ := 0
  dstOffset : ℕ := 0
  ops : List CopyOp := []

def copyRef (groupSrc groupDst : List ℕ) (groupSize blockIdx : ℕ) (ref : CanonicalKVCacheRef) :
    Py (List CopyOp) := do
  let (srcTensor, dstTensor) ← h.tensorPair ref.tensorIdx
  let src ← computeSubBlockPtrs groupSrc h.srcBlockSizeFactor groupSize srcTensor
    (blockIdx % h.srcBlockSizeFactor)
  let dst ← computeSubBlockPtrs groupDst h.dstBlockSizeFactor groupSize dstTensor
    (blockIdx % h.dstBlockSizeFactor)
  .ok (List.zipWith (fun s d => { src := s, dst := d, size := ref.pageSizeBytes }) src dst)

def copyGroup (srcBlocks dstBlocks : List ℕ) (acc : CopyState)
    (group : ℕ × ℕ × List CanonicalKVCacheRef) : Py CopyState :=
  let (groupSize, blockIdx, refs) := group
  if groupSize = 0 then .ok acc
  else do
    let srcCount := cdiv (groupSize + blockIdx % h.srcBlockSizeFactor : ℕ) h.srcBlockSizeFactor
    let dstCount := cdiv (groupSize + blockIdx % h.dstBlockSizeFactor : ℕ) h.dstBlockSizeFactor
    let dstEnd := acc.dstOffset + dstCount.toNat
    pyAssert (dstEnd ≤ dstBlocks.length) ""
    let srcEnd := acc.srcOffset + srcCount.toNat
    pyAssert (srcEnd ≤ srcBlocks.length) ""
    let ops ← refs.mapM fun ref => h.copyRef (slice srcBlocks acc.srcOffset srcEnd)
      (slice dstBlocks acc.dstOffset dstEnd) groupSize blockIdx ref
    .ok { srcOffset := srcEnd, dstOffset := dstEnd, ops := acc.ops ++ ops.flatten }

/-- `transfer_async`: the copies that the job makes. -/
def transferAsync (job : TransferJob) : Py (List CopyOp) := do
  let srcBlocks := if h.gpuToCpu then job.gpuSpec.blockIds else job.backendSpec
  let dstBlocks := if h.gpuToCpu then job.backendSpec else job.gpuSpec.blockIds
  pyAssert (job.gpuSpec.groupSizes.length = h.kvCacheGroupsDataRefs.length) ""
  pyAssert (job.gpuSpec.blockIndices.length = h.kvCacheGroupsDataRefs.length) ""
  let numCopyOps := (List.zipWith (fun size refs => size * List.length refs) job.gpuSpec.groupSizes
    h.kvCacheGroupsDataRefs).sum
  let acc ← (job.gpuSpec.groupSizes.zip
    (job.gpuSpec.blockIndices.zip h.kvCacheGroupsDataRefs)).foldlM
    (h.copyGroup srcBlocks dstBlocks) {}
  pyAssert (acc.srcOffset = srcBlocks.length) ""
  pyAssert (acc.dstOffset = dstBlocks.length) ""
  pyAssert (acc.ops.length = numCopyOps) ""
  .ok acc.ops

end SingleDirectionOffloadingHandler

end Vllm.Offload
