import Vllm.KVCache.BlockPool
import Vllm.Lib.Links

/-!
# The block pool with its linked free list

`FreeKVCacheBlockQueue` of `vllm/v1/core/kv_cache_utils.py` links the free blocks between two fake
ones; `BlockHashToBlockMap` of `vllm/v1/core/block_pool.py` holds a block or a dict of blocks under
a key.
-/

namespace Vllm

/-- A node of the free list: one of the two fake blocks, or a block. -/
inductive FreeNode where
  | head
  | tail
  | block (blockId : ℕ)
  deriving DecidableEq, Repr

/-- `FreeKVCacheBlockQueue`. -/
structure FreeKVCacheBlockQueue where
  links : Links FreeNode
  numFreeBlocks : ℤ

namespace FreeKVCacheBlockQueue

def initLoop : Option FreeNode → List FreeNode → Links FreeNode → Links FreeNode
  | _, [], s => s
  | before, x :: xs, s =>
    let s := match before with
      | some y => s.setPrev x (some y)
      | none => s
    let s := match xs with
      | y :: _ => s.setNext x (some y)
      | [] => s
    initLoop (some x) xs s

def init (blocks : List ℕ) : FreeKVCacheBlockQueue :=
  let nodes := blocks.map FreeNode.block
  let s := initLoop none nodes {}
  { links := match nodes.head?, nodes.getLast? with
      | some first, some last => (s.link .head first).link last .tail
      | _, _ => s.link .head .tail
    numFreeBlocks := blocks.length }

variable (q : FreeKVCacheBlockQueue)

def popleft : Py (FreeNode × FreeKVCacheBlockQueue) :=
  let numFreeBlocks := q.numFreeBlocks
  match q.links.next .head with
  | some .tail | none => do
    pyAssert (numFreeBlocks = 0)
      s!"num_free_blocks ({numFreeBlocks}) is out of sync with the free list."
    .error (.valueError "No free blocks available")
  | some firstBlock => match q.links.next firstBlock with
    | none => .error (.runtimeError ("Invalid block found in popleft() " ++
        "which doesn't have a valid next_free_block"))
    | some second => .ok (firstBlock,
        { links := (q.links.link .head second).clear firstBlock
          numFreeBlocks := q.numFreeBlocks - 1 })

/-- The loop of `popleft_n`: the popped blocks, the next one and the links. Where the model fails at
the fake tail the source would pop it; a queue whose counter is its length never gets there. -/
def popLoop : ℕ → Option FreeNode → Links FreeNode → Py (List ℕ × Option FreeNode × Links FreeNode)
  | 0, currBlock, s => .ok ([], currBlock, s)
  | n + 1, some (.block b), s => do
    let (ret, currBlock, s') ← popLoop n (s.next (.block b)) (s.clear (.block b))
    .ok (b :: ret, currBlock, s')
  | _ + 1, _, _ => .error (.assertionError "")

def popleftN (n : ℤ) : Py (List ℕ × FreeKVCacheBlockQueue) :=
  if n = 0 then .ok ([], q)
  else do
    pyAssert (q.numFreeBlocks ≥ n) ""
    let (ret, currBlock, s) ← popLoop n.toNat (q.links.next .head) q.links
    .ok (ret,
      { links := match currBlock with
          | some c => s.link .head c
          | none => s
        numFreeBlocks := q.numFreeBlocks - n })

def remove (b : ℕ) : Py FreeKVCacheBlockQueue :=
  match q.links.prev (.block b), q.links.next (.block b) with
  | some x, some y => .ok
      { links := q.links.unlink x (.block b) y
        numFreeBlocks := q.numFreeBlocks - 1 }
  | _, _ => .error (.runtimeError "remove() called on an invalid block")

def prependN (blocks : List ℕ) : Py FreeKVCacheBlockQueue :=
  if blocks.length = 0 then .ok q
  else match q.links.next .head with
    | none => .error (.assertionError "next_free_block of fake_free_list_head should always exist")
    | some firstBlock => .ok
        { links := q.links.insertBetween .head (blocks.map .block) firstBlock
          numFreeBlocks := q.numFreeBlocks + blocks.length }

def appendN (blocks : List ℕ) : Py FreeKVCacheBlockQueue :=
  if blocks.length = 0 then .ok q
  else match q.links.prev .tail with
    | none => .error (.assertionError "prev_free_block of fake_free_list_tail should always exist")
    | some lastBlock => .ok
        { links := q.links.insertBetween lastBlock (blocks.map .block) .tail
          numFreeBlocks := q.numFreeBlocks + blocks.length }

end FreeKVCacheBlockQueue

/-- The value of a hash in the map: a block, or a dictionary of blocks. -/
inductive KVCacheBlocks where
  | single (block : ℕ)
  | dict (blocks : List ℕ)
  deriving DecidableEq, Repr

/-- `BlockHashToBlockMap`. -/
structure BlockHashToBlockMap where
  cache : Bytes → Option KVCacheBlocks := fun _ => none

namespace BlockHashToBlockMap

variable (m : BlockHashToBlockMap) (key : Bytes)

def set (v : Option KVCacheBlocks) : BlockHashToBlockMap := ⟨Function.update m.cache key v⟩

def getOneBlock : Option ℕ :=
  match m.cache key with
  | none => none
  | some (.single b) => some b
  | some (.dict bs) => bs.head?

def insert (b : ℕ) : BlockHashToBlockMap :=
  match m.cache key with
  | none => m.set key (some (.single b))
  | some (.single a) => m.set key (some (.dict (if b = a then [a] else [a, b])))
  | some (.dict bs) => m.set key (some (.dict (if b ∈ bs then bs else bs ++ [b])))

def pop (b : ℕ) : Option ℕ × BlockHashToBlockMap :=
  match m.cache key with
  | none => (none, m)
  | some (.single a) => if a = b then (some a, m.set key none) else (none, m)
  | some (.dict bs) =>
    let rest := bs.erase b
    (if b ∈ bs then some b else none,
      m.set key (if rest.length > 0 then some (.dict rest) else none))

end BlockHashToBlockMap

/-! ## The pool -/

/-- `BlockPool` with its free queue as a doubly linked list. -/
structure LinkedPool where
  numGpuBlocks : ℕ
  enableCaching : Bool
  hashBlockSize : ℕ
  enableKvCacheEvents : Bool
  useIntBlockHashes : Bool
  blocks : ℕ → KVCacheBlock := fun _ => {}
  freeBlockQueue : FreeKVCacheBlockQueue
  cachedBlockHashToBlock : BlockHashToBlockMap := {}
  kvEventQueue : List KVCacheEvent := []

namespace LinkedPool

def init (numGpuBlocks : ℕ) (enableCaching : Bool) (hashBlockSize : ℕ)
    (enableKvCacheEvents useIntBlockHashes : Bool) : Py LinkedPool := do
  pyAssert (numGpuBlocks > 0) ""
  let (_, queue) ← (FreeKVCacheBlockQueue.init (List.range numGpuBlocks)).popleft
  .ok
    { numGpuBlocks := numGpuBlocks
      enableCaching := enableCaching
      hashBlockSize := hashBlockSize
      enableKvCacheEvents := enableKvCacheEvents
      useIntBlockHashes := useIntBlockHashes
      freeBlockQueue := queue }

variable (p : LinkedPool) (b : ℕ)

def addRef (d : ℤ) : LinkedPool :=
  let block := { p.blocks b with refCnt := (p.blocks b).refCnt + d }
  { p with blocks := Function.update p.blocks b block }

def setHash (h : Option Bytes) : LinkedPool :=
  { p with blocks := Function.update p.blocks b { p.blocks b with blockHash := h } }

def emit (e : KVCacheEvent) : LinkedPool :=
  if p.enableKvCacheEvents then { p with kvEventQueue := p.kvEventQueue ++ [e] } else p

def getCachedBlock (blockHash : Bytes) (gids : List ℕ) : Option (List ℕ) :=
  gids.mapM fun gid => p.cachedBlockHashToBlock.getOneBlock (makeBlockHashWithGroupId blockHash gid)

def maybeEvictCachedBlock : LinkedPool :=
  match (p.blocks b).blockHash with
  | none => p
  | some key =>
    let (popped, cache) := p.cachedBlockHashToBlock.pop key b
    let p := { p with cachedBlockHashToBlock := cache }
    match popped with
    | none => p
    | some _ => (p.setHash b none).emit
        (.blockRemoved [maybeConvertBlockHash p.useIntBlockHashes (getBlockHash key)]
          (getGroupId key))

def takeBlocks : List ℕ → LinkedPool → Py LinkedPool
  | [], p => .ok p
  | b :: bs, p =>
    let p := if p.enableCaching then p.maybeEvictCachedBlock b else p
    if (p.blocks b).refCnt = 0 then takeBlocks bs (p.addRef b 1)
    else .error (.assertionError "")

def getNewBlocks (n : ℤ) : Py (List ℕ × LinkedPool) :=
  if n > p.freeBlockQueue.numFreeBlocks then
    .error (.valueError s!"Cannot get {n} free blocks from the pool")
  else do
    let (ret, queue) ← p.freeBlockQueue.popleftN n
    let p ← takeBlocks ret { p with freeBlockQueue := queue }
    .ok (ret, p)

def touch : List ℕ → LinkedPool → Py LinkedPool
  | [], p => .ok p
  | b :: bs, p =>
    if (p.blocks b).refCnt = 0 ∧ b ≠ nullBlock then do
      let queue ← p.freeBlockQueue.remove b
      touch bs ({ p with freeBlockQueue := queue }.addRef b 1)
    else touch bs (p.addRef b 1)

def releaseBlocks : List ℕ → LinkedPool → LinkedPool × List ℕ × List ℕ
  | [], p => (p, [], [])
  | b :: bs, p =>
    let p := p.addRef b (-1)
    let rest := releaseBlocks bs p
    if (p.blocks b).refCnt = 0 ∧ b ≠ nullBlock then
      match (p.blocks b).blockHash with
      | none => (rest.1, b :: rest.2.1, rest.2.2)
      | some _ => (rest.1, rest.2.1, b :: rest.2.2)
    else rest

def freeBlocks (orderedBlocks : List ℕ) : Py LinkedPool := do
  let (p, withoutHash, withHash) := releaseBlocks orderedBlocks p
  let queue ← p.freeBlockQueue.prependN withoutHash
  let queue ← queue.appendN withHash
  .ok { p with freeBlockQueue := queue }

def evictBlocks : List ℕ → LinkedPool → Py LinkedPool
  | [], p => .ok p
  | b :: bs, p =>
    if b < p.numGpuBlocks then evictBlocks bs (p.maybeEvictCachedBlock b)
    else
      let numBlocks := p.numGpuBlocks
      .error (.assertionError (s!"Invalid block_id {b} >= {numBlocks}. " ++
        "This indicates a bug in the KV connector - workers should " ++
        "only report block IDs that were allocated by the scheduler."))

def resetPrefixCache : Bool × LinkedPool :=
  if (p.numGpuBlocks : ℤ) - p.freeBlockQueue.numFreeBlocks ≠ 1 then (false, p)
  else (true, { p with
    cachedBlockHashToBlock := {}
    blocks := fun b => { p.blocks b with blockHash := none } }.emit .allBlocksCleared)

def cacheLoop (gid : ℕ) :
    List ℕ → List Bytes → List Bool → LinkedPool → Py (LinkedPool × List ExternalBlockHash)
  | [], _, _, p => .ok (p, [])
  | b :: bs, hashes, mask, p =>
    if b = nullBlock ∨ mask.headD true = false then cacheLoop gid bs hashes.tail mask.tail p
    else if (p.blocks b).blockHash ≠ none then .error (.assertionError "")
    else match hashes.head? with
      | none => .error (.indexError "list index out of range")
      | some h => do
        let key := makeBlockHashWithGroupId h gid
        let p' := p.setHash b (some key)
        let cache := p'.cachedBlockHashToBlock.insert key b
        let (p', stored) ← cacheLoop gid bs hashes.tail mask.tail
          { p' with cachedBlockHashToBlock := cache }
        .ok (p', maybeConvertBlockHash p.useIntBlockHashes h :: stored)

def cacheFullBlocks (env : HashEnv) (r : Request) (blocks : List ℕ)
    (numCachedBlocks numFullBlocks blockSize gid : ℕ) (mask : Option (List Bool)) : Py LinkedPool :=
  if numCachedBlocks ≥ numFullBlocks then .ok p
  else do
    let newFullBlocks := slice blocks numCachedBlocks numFullBlocks
    pyAssert (r.blockHashes.length ≥ numFullBlocks) ""
    pyAssert (mask.all fun m => m.length = newFullBlocks.length) ""
    let hashes ← BlockPool.blockHashesAt p.hashBlockSize blockSize r.blockHashes
    let (p, stored) ← cacheLoop gid newFullBlocks (hashes.toList.drop numCachedBlocks)
      (mask.getD []) p
    if p.enableKvCacheEvents then do
      let e ← BlockPool.storedEvent env p.useIntBlockHashes r blocks hashes stored numCachedBlocks
        numFullBlocks blockSize gid mask
      .ok (p.emit e)
    else .ok p

end LinkedPool

/-- The calls of the managers on the pool. -/
inductive PoolCall where
  | getCachedBlock (blockHash : Bytes) (gids : List ℕ)
  | cacheFullBlocks (env : HashEnv) (r : Request) (blocks : List ℕ)
      (numCachedBlocks numFullBlocks blockSize gid : ℕ) (mask : Option (List Bool))
  | getNewBlocks (n : ℤ)
  | touch (blocks : List ℕ)
  | freeBlocks (orderedBlocks : List ℕ)
  | evictBlocks (blockIds : List ℕ)
  | resetPrefixCache

def LinkedPool.call (p : LinkedPool) : PoolCall → Py LinkedPool
  | .getCachedBlock _ _ => .ok p
  | .cacheFullBlocks env r blocks numCached numFull size gid mask =>
    p.cacheFullBlocks env r blocks numCached numFull size gid mask
  | .getNewBlocks n => do
    let (_, p) ← p.getNewBlocks n
    .ok p
  | .touch blocks => LinkedPool.touch blocks p
  | .freeBlocks blocks => p.freeBlocks blocks
  | .evictBlocks ids => LinkedPool.evictBlocks ids p
  | .resetPrefixCache => .ok p.resetPrefixCache.2

def BlockPool.call (p : BlockPool) : PoolCall → Py BlockPool
  | .getCachedBlock _ _ => .ok p
  | .cacheFullBlocks env r blocks numCached numFull size gid mask =>
    p.cacheFullBlocks env r blocks numCached numFull size gid mask
  | .getNewBlocks n => do
    let (_, p) ← p.getNewBlocks n
    .ok p
  | .touch blocks => BlockPool.touch blocks p
  | .freeBlocks blocks => .ok (p.freeBlocks blocks)
  | .evictBlocks ids => BlockPool.evictBlocks ids p
  | .resetPrefixCache => .ok p.resetPrefixCache.2

end Vllm
