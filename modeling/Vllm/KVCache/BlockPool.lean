import Vllm.KVCache.BlockHash

/-!
# The block pool

`vllm/v1/core/block_pool.py` without metrics. Block `0` is the null block, the free queue a list
with a counter, the prefix-cache map the list of blocks under each key.
-/

namespace Vllm

open Function

/-- `KVCacheBlock` without its links in the free queue. -/
structure KVCacheBlock where
  refCnt : ℤ := 0
  blockHash : Option Bytes := none

def nullBlock : ℕ := 0

def groupIdBytes (gid : ℕ) : Bytes :=
  [UInt8.ofNat (gid / 2 ^ 24), UInt8.ofNat (gid / 2 ^ 16), UInt8.ofNat (gid / 2 ^ 8),
    UInt8.ofNat gid]

def makeBlockHashWithGroupId (blockHash : Bytes) (gid : ℕ) : Bytes := blockHash ++ groupIdBytes gid

def intOfBytes (b : Bytes) : ℕ := b.foldl (fun n x => n * 256 + x.toNat) 0

def getBlockHash (key : Bytes) : Bytes := key.take (key.length - 4)

def getGroupId (key : Bytes) : ℕ := intOfBytes (key.drop (key.length - 4))

/-- The block hashes of a request at a group's block size; a `BlockHashListWithBlockSize` joins
`scale` hashes to one.
-/
inductive BlockHashList where
  | plain (hashes : List Bytes)
  | scaled (hashes : List Bytes) (scale : ℕ)

namespace BlockHashList

/-- `_get_value_at`: a join may reach behind the last hash. -/
def joinAt (hashes : List Bytes) (scale i : ℕ) : Bytes :=
  (slice hashes (i * scale) ((i + 1) * scale)).flatten

def length : BlockHashList → ℕ
  | plain hashes => hashes.length
  | scaled hashes scale => hashes.length / scale

def get : BlockHashList → ℕ → Py Bytes
  | plain hashes, i => match hashes[i]? with
    | some h => .ok h
    | none => .error (.indexError "list index out of range")
  | scaled hashes scale, i => .ok (joinAt hashes scale i)

def toList : BlockHashList → List Bytes
  | plain hashes => hashes
  | scaled hashes scale => (List.range (hashes.length / scale)).map (joinAt hashes scale)

end BlockHashList

/-- A block hash as events show it: bytes, or an integer of 64 bits. -/
inductive ExternalBlockHash where
  | bytes (b : Bytes)
  | int (n : ℕ)
  deriving DecidableEq, Repr

def maybeConvertBlockHash (useInt : Bool) (h : Bytes) : ExternalBlockHash :=
  if useInt then .int (intOfBytes h % 2 ^ 64) else .bytes h

/-- The events of the KV cache. -/
inductive KVCacheEvent where
  | blockStored (blockHashes : List ExternalBlockHash) (parentBlockHash : Option ExternalBlockHash)
      (tokenIds : List ℕ) (blockSize : ℕ) (loraId : Option ℕ) (loraName : Option String)
      (extraKeys : Option (List (Option (List ExtraKey)))) (groupIdx : ℕ)
  | blockRemoved (blockHashes : List ExternalBlockHash) (groupIdx : ℕ)
  | allBlocksCleared
  deriving DecidableEq, Repr

/-! ## The pool -/

/-- `BlockPool`, its free queue as a list and its map of cached blocks as a function. -/
structure BlockPool where
  numGpuBlocks : ℕ
  enableCaching : Bool
  hashBlockSize : ℕ
  enableKvCacheEvents : Bool := false
  useIntBlockHashes : Bool := false
  blocks : ℕ → KVCacheBlock := fun _ => {}
  freeBlockQueue : List ℕ
  numFreeBlocks : ℤ
  cachedBlockHashToBlock : Bytes → List ℕ := fun _ => []
  kvEventQueue : List KVCacheEvent := []

namespace BlockPool

def init (numGpuBlocks : ℕ) (enableCaching : Bool) (hashBlockSize : ℕ)
    (enableKvCacheEvents useIntBlockHashes : Bool) : BlockPool where
  numGpuBlocks := numGpuBlocks
  enableCaching := enableCaching
  hashBlockSize := hashBlockSize
  enableKvCacheEvents := enableKvCacheEvents
  useIntBlockHashes := useIntBlockHashes
  freeBlockQueue := List.range' 1 (numGpuBlocks - 1)
  numFreeBlocks := numGpuBlocks - 1

variable (p : BlockPool)

def refCnt (b : ℕ) : ℤ := (p.blocks b).refCnt

def blockHash (b : ℕ) : Option Bytes := (p.blocks b).blockHash

def addRef (b : ℕ) (d : ℤ) : BlockPool :=
  let block := { p.blocks b with refCnt := (p.blocks b).refCnt + d }
  { p with blocks := update p.blocks b block }

def setHash (b : ℕ) (h : Option Bytes) : BlockPool :=
  { p with blocks := update p.blocks b { p.blocks b with blockHash := h } }

def emit (e : KVCacheEvent) : BlockPool :=
  if p.enableKvCacheEvents then { p with kvEventQueue := p.kvEventQueue ++ [e] } else p

def getOneBlock (key : Bytes) : Option ℕ := (p.cachedBlockHashToBlock key).head?

def insertCached (key : Bytes) (b : ℕ) : BlockPool :=
  let old := p.cachedBlockHashToBlock key
  let new := if b ∈ old then old else old ++ [b]
  { p with cachedBlockHashToBlock := update p.cachedBlockHashToBlock key new }

def popCached (key : Bytes) (b : ℕ) : BlockPool :=
  let new := (p.cachedBlockHashToBlock key).erase b
  { p with cachedBlockHashToBlock := update p.cachedBlockHashToBlock key new }

def getCachedBlock (blockHash : Bytes) (gids : List ℕ) : Option (List ℕ) :=
  gids.mapM fun gid => p.getOneBlock (makeBlockHashWithGroupId blockHash gid)

/-- `FreeKVCacheBlockQueue.popleft_n`. A negative `n` pops nothing but changes the counter. With a
counter above the length of the queue the source would pop the fake tail; the model fails. -/
def popleftN (n : ℤ) : Py (List ℕ × BlockPool) :=
  if n = 0 then .ok ([], p)
  else if p.numFreeBlocks < n then .error (.assertionError "")
  else if (p.freeBlockQueue.length : ℤ) < n then .error (.assertionError "")
  else .ok (p.freeBlockQueue.take n.toNat,
    { p with
      freeBlockQueue := p.freeBlockQueue.drop n.toNat
      numFreeBlocks := p.numFreeBlocks - n })

def removeFree (b : ℕ) : Py BlockPool :=
  if b ∈ p.freeBlockQueue then
    .ok { p with
      freeBlockQueue := p.freeBlockQueue.erase b
      numFreeBlocks := p.numFreeBlocks - 1 }
  else .error (.runtimeError "remove() called on an invalid block")

def maybeEvictCachedBlock (b : ℕ) : BlockPool :=
  match p.blockHash b with
  | none => p
  | some key =>
    if b ∈ p.cachedBlockHashToBlock key then
      ((p.popCached key b).setHash b none).emit
        (.blockRemoved [maybeConvertBlockHash p.useIntBlockHashes (getBlockHash key)]
          (getGroupId key))
    else p

def takeBlocks : List ℕ → BlockPool → Py BlockPool
  | [], p => .ok p
  | b :: bs, p =>
    let p := if p.enableCaching then p.maybeEvictCachedBlock b else p
    if p.refCnt b = 0 then takeBlocks bs (p.addRef b 1)
    else .error (.assertionError "")

/-- `BlockPool.get_new_blocks`. -/
def getNewBlocks (n : ℤ) : Py (List ℕ × BlockPool) :=
  if n > p.numFreeBlocks then .error (.valueError s!"Cannot get {n} free blocks from the pool")
  else do
    let (ret, p) ← p.popleftN n
    let p ← takeBlocks ret p
    .ok (ret, p)

/-- `BlockPool.touch`: the blocks leave the free queue and get a reference. -/
def touch : List ℕ → BlockPool → Py BlockPool
  | [], p => .ok p
  | b :: bs, p =>
    if p.refCnt b = 0 ∧ b ≠ nullBlock then do
      let p ← p.removeFree b
      touch bs (p.addRef b 1)
    else touch bs (p.addRef b 1)

def releaseBlocks : List ℕ → BlockPool → BlockPool × List ℕ × List ℕ
  | [], p => (p, [], [])
  | b :: bs, p =>
    let p := p.addRef b (-1)
    let rest := releaseBlocks bs p
    if p.refCnt b = 0 ∧ b ≠ nullBlock then
      match p.blockHash b with
      | none => (rest.1, b :: rest.2.1, rest.2.2)
      | some _ => (rest.1, rest.2.1, b :: rest.2.2)
    else rest

/-- `BlockPool.free_blocks`: blocks without a hash go to the front of the queue. -/
def freeBlocks (orderedBlocks : List ℕ) : BlockPool :=
  let (p, withoutHash, withHash) := releaseBlocks orderedBlocks p
  { p with
    freeBlockQueue := withoutHash ++ p.freeBlockQueue ++ withHash
    numFreeBlocks := p.numFreeBlocks + withoutHash.length + withHash.length }

def evictBlocks : List ℕ → BlockPool → Py BlockPool
  | [], p => .ok p
  | b :: bs, p =>
    if b < p.numGpuBlocks then evictBlocks bs (p.maybeEvictCachedBlock b)
    else
      let numBlocks := p.numGpuBlocks
      .error (.assertionError (s!"Invalid block_id {b} >= {numBlocks}. " ++
        "This indicates a bug in the KV connector - workers should " ++
        "only report block IDs that were allocated by the scheduler."))

def resetPrefixCache : Bool × BlockPool :=
  if (p.numGpuBlocks : ℤ) - p.numFreeBlocks ≠ 1 then (false, p)
  else (true, { p with
    cachedBlockHashToBlock := fun _ => []
    blocks := fun b => { p.blocks b with blockHash := none } }.emit .allBlocksCleared)

/-- The loop of `cache_full_blocks`: the pool and the stored hashes. Null and masked-out blocks are
skipped. -/
def cacheLoop (gid : ℕ) :
    List ℕ → List Bytes → List Bool → BlockPool → Py (BlockPool × List ExternalBlockHash)
  | [], _, _, p => .ok (p, [])
  | b :: bs, hashes, mask, p =>
    if b = nullBlock ∨ mask.headD true = false then cacheLoop gid bs hashes.tail mask.tail p
    else if p.blockHash b ≠ none then .error (.assertionError "")
    else match hashes.head? with
      | none => .error (.indexError "list index out of range")
      | some h => do
        let key := makeBlockHashWithGroupId h gid
        let (p', stored) ← cacheLoop gid bs hashes.tail mask.tail
          ((p.setHash b (some key)).insertCached key b)
        .ok (p', maybeConvertBlockHash p.useIntBlockHashes h :: stored)

def storedExtraKeys (env : HashEnv) (r : Request) (blockSize : ℕ) (blocks : List ℕ)
    (mask : ℕ → Bool) : List ℕ → ℤ → Py (List (Option (List ExtraKey)))
  | [], _ => .ok []
  | i :: is, idx => match blocks[i]? with
    | none => .error (.indexError "list index out of range")
    | some b =>
      if b = nullBlock ∨ mask i = false then storedExtraKeys env r blockSize blocks mask is idx
      else do
        let start := i * blockSize
        let keys := generateBlockHashExtraKeys env r start (start + blockSize) idx
        let rest ← storedExtraKeys env r blockSize blocks mask is keys.2
        .ok (keys.1 :: rest)

def storedEvent (env : HashEnv) (useInt : Bool) (r : Request) (blocks : List ℕ)
    (hashes : BlockHashList) (stored : List ExternalBlockHash) (numCachedBlocks numFullBlocks : ℕ)
    (blockSize gid : ℕ) (mask : Option (List Bool)) : Py KVCacheEvent := do
  let parent ← if numCachedBlocks = 0 then .ok none
    else do
      let h ← hashes.get (numCachedBlocks - 1)
      .ok (some (maybeConvertBlockHash useInt h))
  let extraKeys ← storedExtraKeys env r blockSize blocks
    (fun i => mask.all fun m => m.getD (i - numCachedBlocks) true)
    (List.range' numCachedBlocks (numFullBlocks - numCachedBlocks)) 0
  .ok (.blockStored stored parent
    (slice r.allTokenIds (numCachedBlocks * blockSize) (numFullBlocks * blockSize)) blockSize
    (r.loraRequest.map LoRARequest.loraIntId) r.loraName
    (if extraKeys = [] then none else some extraKeys) gid)

def blockHashesAt (hashBlockSize blockSize : ℕ) (hashes : List Bytes) : Py BlockHashList :=
  if blockSize = hashBlockSize then .ok (.plain hashes)
  else if blockSize % hashBlockSize = 0 then .ok (.scaled hashes (blockSize / hashBlockSize))
  else .error (.assertionError "")

def cacheFullBlocks (env : HashEnv) (r : Request) (blocks : List ℕ)
    (numCachedBlocks numFullBlocks blockSize gid : ℕ) (mask : Option (List Bool)) : Py BlockPool :=
  if numCachedBlocks ≥ numFullBlocks then .ok p
  else do
    let newFullBlocks := slice blocks numCachedBlocks numFullBlocks
    pyAssert (r.blockHashes.length ≥ numFullBlocks) ""
    pyAssert (mask.all fun m => m.length = newFullBlocks.length) ""
    let hashes ← blockHashesAt p.hashBlockSize blockSize r.blockHashes
    let (p, stored) ← cacheLoop gid newFullBlocks (hashes.toList.drop numCachedBlocks)
      (mask.getD []) p
    if p.enableKvCacheEvents then do
      let e ← storedEvent env p.useIntBlockHashes r blocks hashes stored numCachedBlocks
        numFullBlocks blockSize gid mask
      .ok (p.emit e)
    else .ok p

end BlockPool

end Vllm
