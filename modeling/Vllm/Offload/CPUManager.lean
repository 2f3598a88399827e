import Vllm.Basic
import Vllm.Lib.OrderedDict
import Vllm.Lib.Rounding

/-!
# The CPU offloading manager

`CPUOffloadingManager` of `vllm/v1/kv_offload/cpu/manager.py` with its policies (`policies/lru.py`,
`policies/arc.py`), without the request context.
-/

namespace Vllm.Offload

/-- The value that is kept when an integer is written to a `c_int32`. -/
def cInt32 (x : ℤ) : ℤ := x.bmod (2 ^ 32)

/-- The `float` that Python keeps for `x`. -/
def pyFloat (x : ℚ) : ℚ := Rounding.nearest 53 (-1074) x

/-- `BlockStatus`: `refCnt` counts the transfers that read the block, -1 while it is written. -/
structure BlockStatus where
  refCnt : ℤ := -1
  blockId : ℕ
  deriving DecidableEq, Repr

namespace BlockStatus

def isReady (b : BlockStatus) : Bool := 0 ≤ b.refCnt

def setRefCnt (b : BlockStatus) (n : ℤ) : BlockStatus := { b with refCnt := cInt32 n }

end BlockStatus

variable {κ : Type} [DecidableEq κ]

def evictable (excluded : List κ) (e : κ × BlockStatus) : Bool := e.2.refCnt = 0 ∧ e.1 ∉ excluded

/-- `ARCCachePolicy`: recent and frequent blocks, and the ghosts of both. -/
structure ARC (κ : Type) where
  cacheCapacity : ℕ
  targetT1Size : ℚ := 0
  t1 : OrderedDict κ BlockStatus := .empty
  t2 : OrderedDict κ BlockStatus := .empty
  b1 : OrderedDict κ Unit := .empty
  b2 : OrderedDict κ Unit := .empty

namespace ARC

variable (a : ARC κ) (k)

def get : Option BlockStatus := (a.t1.get? k).or (a.t2.get? k)

def insert (b : BlockStatus) : ARC κ :=
  { a with t1 := a.t1.set k b, b1 := a.b1.erase k, b2 := a.b2.erase k }

def remove : ARC κ :=
  match a.t1.get? k with
  | some _ => { a with t1 := a.t1.erase k }
  | none => { a with t2 := a.t2.erase k }

def touchKey : ARC κ :=
  match a.t1.get? k with
  | some block =>
    if block.isReady then { a with t1 := a.t1.erase k, t2 := a.t2.set k block }
    else { a with t1 := (a.t1.erase k).set k block }
  | none =>
    if k ∈ a.t2.keys then { a with t2 := a.t2.moveToEnd k }
    else if k ∈ a.b1.keys then
      let delta := max 1 (pyFloat (a.b2.length / a.b1.length))
      let target := min (pyFloat (a.targetT1Size + delta)) a.cacheCapacity
      { a with targetT1Size := target, b1 := a.b1.moveToEnd k }
    else if k ∈ a.b2.keys then
      let delta := max 1 (pyFloat (a.b1.length / a.b2.length))
      let target := max (pyFloat (a.targetT1Size - delta)) 0
      { a with targetT1Size := target, b2 := a.b2.moveToEnd k }
    else a

variable {k}

/-- The loop of `ARCCachePolicy.evict` that selects `n` candidates; the flag says that one is from
`t1`. -/
def select (excluded : List κ) : ℕ → ℤ → Option (List (κ × BlockStatus × Bool))
  | 0, _ => some []
  | n + 1, virtualT1Size =>
    let fromT1 :=
      if virtualT1Size ≥ a.targetT1Size.num.tdiv a.targetT1Size.den then
        a.t1.entries.find? (evictable excluded)
      else none
    match fromT1 with
    | some (k, b) => do
      let rest ← select (k :: excluded) n (virtualT1Size - 1)
      some ((k, b, true) :: rest)
    | none =>
      match a.t2.entries.find? (evictable excluded) with
      | some (k, b) => do
        let rest ← select (k :: excluded) n virtualT1Size
        some ((k, b, false) :: rest)
      | none => none

def applyEviction (c : κ × BlockStatus × Bool) : ARC κ :=
  if c.2.2 then { a with t1 := a.t1.erase c.1, b1 := a.b1.set c.1 () }
  else { a with t2 := a.t2.erase c.1, b2 := a.b2.set c.1 () }

def trim : ARC κ :=
  { a with
    b1 := a.b1.dropFirst (a.b1.length - a.cacheCapacity)
    b2 := a.b2.dropFirst (a.b2.length - a.cacheCapacity) }

def evict (n : ℕ) (protectedKeys : List κ) : Option (List (κ × BlockStatus) × ARC κ) :=
  if n = 0 then some ([], a)
  else do
    let candidates ← a.select protectedKeys n a.t1.length
    some (candidates.map fun c => (c.1, c.2.1), (candidates.foldl applyEviction a).trim)

end ARC

/-- The policy with its blocks. -/
inductive CachePolicy (κ : Type) where
  | lru (blocks : OrderedDict κ BlockStatus)
  | arc (state : ARC κ)

namespace CachePolicy

/-- The names under which policies are registered. -/
inductive Name where
  | lru
  | arc
  deriving DecidableEq, Repr

def init (name : Name) (cacheCapacity : ℕ) : CachePolicy κ :=
  match name with
  | .lru => .lru .empty
  | .arc => .arc { cacheCapacity := cacheCapacity }

variable (p : CachePolicy κ) (k : κ)

def get : Option BlockStatus :=
  match p with
  | .lru blocks => blocks.get? k
  | .arc a => a.get k

def insert (b : BlockStatus) : CachePolicy κ :=
  match p with
  | .lru blocks => .lru (blocks.set k b)
  | .arc a => .arc (a.insert k b)

def remove : Py (CachePolicy κ) :=
  match p with
  | .lru blocks =>
    if k ∈ blocks.keys then .ok (.lru (blocks.erase k)) else .error (.keyError "")
  | .arc a => .ok (.arc (a.remove k))

def modify (f : BlockStatus → BlockStatus) : CachePolicy κ :=
  match p with
  | .lru blocks => .lru (blocks.modify k f)
  | .arc a => .arc { a with t1 := a.t1.modify k f, t2 := a.t2.modify k f }

def touchKey : CachePolicy κ :=
  match p with
  | .lru blocks => .lru (blocks.moveToEnd k)
  | .arc a => .arc (a.touchKey k)

def touch (keys : List κ) : CachePolicy κ := keys.reverse.foldl touchKey p

def clear : CachePolicy κ :=
  match p with
  | .lru _ => .lru .empty
  | .arc a => .arc { cacheCapacity := a.cacheCapacity }

def evict (n : ℕ) (protectedKeys : List κ) : Option (List (κ × BlockStatus) × CachePolicy κ) :=
  match p with
  | .lru blocks =>
    let candidates := (blocks.entries.filter (evictable protectedKeys)).take n
    if candidates.length < n then none
    else some (candidates, .lru (candidates.foldl (fun d c => d.erase c.1) blocks))
  | .arc a => (a.evict n protectedKeys).map fun r => (r.1, .arc r.2)

end CachePolicy

/-! ## The manager -/

/-- `OffloadingEvent`: keys that were stored or removed. -/
structure OffloadingEvent (κ : Type) where
  keys : List κ
  removed : Bool
  deriving DecidableEq, Repr

/-- `PrepareStoreOutput`. -/
structure PrepareStoreOutput (κ : Type) where
  keysToStore : List κ
  storeSpec : List ℕ
  evictedKeys : List κ
  deriving DecidableEq, Repr

/-- `CPUOffloadingManager`. -/
structure CPUManager (κ : Type) where
  numBlocks : ℕ
  numAllocatedBlocks : ℕ := 0
  freeList : List ℕ := []
  events : Option (List (OffloadingEvent κ)) := none
  policy : CachePolicy κ
  numEvictableCacheBlocks : ℤ := 0
  storeThreshold : ℕ := 1
  maxTrackerSize : ℕ := 64000
  storesSkippedInCurrentBatch : ℕ := 0
  counts : Option (OrderedDict κ ℕ) := none

namespace CPUManager

def init (numBlocks : ℕ) (cachePolicy : CachePolicy.Name) (enableEvents : Bool) (storeThreshold : ℕ)
    (maxTrackerSize : ℕ) : CPUManager κ where
  numBlocks := numBlocks
  events := if enableEvents then some [] else none
  policy := .init cachePolicy numBlocks
  storeThreshold := storeThreshold
  maxTrackerSize := maxTrackerSize
  counts := if 2 ≤ storeThreshold then some .empty else none

variable (m : CPUManager κ)

def getNumFreeBlocks : ℤ := m.freeList.length + m.numBlocks - m.numAllocatedBlocks

variable (keys : List κ)

/-- `_allocate_blocks`: fresh slots first, then slots from the end of the free list. -/
def allocateBlocks : Py (List BlockStatus × CPUManager κ) := do
  let numFresh : ℤ := min (keys.length : ℤ) (m.numBlocks - m.numAllocatedBlocks)
  let numReused : ℤ := keys.length - numFresh
  pyAssert (m.freeList.length ≥ numReused) ""
  let fresh :=
    (List.range numFresh.toNat).map fun i => ({ blockId := m.numAllocatedBlocks + i } : BlockStatus)
  let reused :=
    (m.freeList.reverse.take numReused.toNat).map fun i => ({ blockId := i } : BlockStatus)
  .ok (fresh ++ reused, { m with
    numAllocatedBlocks := m.numAllocatedBlocks + numFresh.toNat
    freeList := m.freeList.take (m.freeList.length - numReused.toNat) })

def freeBlock (b : BlockStatus) : CPUManager κ := { m with freeList := m.freeList ++ [b.blockId] }

variable (k : κ)

def countLookup : Py (CPUManager κ) :=
  match m.counts with
  | none => .ok m
  | some counts =>
    match counts.get? k with
    | some n => .ok { m with counts := some ((counts.moveToEnd k).set k (n + 1)) }
    | none =>
      if counts.length < m.maxTrackerSize then .ok { m with counts := some (counts.set k 1) }
      else if counts.length = 0 then .error (.keyError "dictionary is empty")
      else .ok { m with counts := some ((counts.dropFirst 1).set k 1) }

def lookup : Py (Option Bool × CPUManager κ) := do
  let m ← m.countLookup k
  match m.policy.get k with
  | none => .ok (some false, m)
  | some block => if block.isReady then .ok (some true, m) else .ok (none, m)

def prepareLoadKey : Py (BlockStatus × CPUManager κ) :=
  match m.policy.get k with
  | none => .error (.assertionError "Block not found in cache")
  | some block => do
    pyAssert block.isReady "Block is not ready for reading"
    let evictable :=
      if block.refCnt = 0 then m.numEvictableCacheBlocks - 1 else m.numEvictableCacheBlocks
    pyAssert (block.refCnt ≠ 0 ∨ evictable ≥ 0) ""
    .ok (block, { m with
      numEvictableCacheBlocks := evictable
      policy := m.policy.modify k fun b => b.setRefCnt (b.refCnt + 1) })

/-- `prepare_load`: each block gets a reference, and a missing one fails. -/
def prepareLoad : List κ → CPUManager κ → Py (List ℕ × CPUManager κ)
  | [], m => .ok ([], m)
  | k :: ks, m => do
    let (block, m) ← m.prepareLoadKey k
    let (spec, m) ← prepareLoad ks m
    .ok (block.blockId :: spec, m)

def touch : CPUManager κ := { m with policy := m.policy.touch keys }

def completeLoadKey : Py (CPUManager κ) :=
  match m.policy.get k with
  | none => .error (.assertionError "Block not found")
  | some block => do
    pyAssert (block.refCnt > 0) "Block ref_cnt is already 0"
    let n := (block.setRefCnt (block.refCnt - 1)).refCnt
    .ok { m with
      numEvictableCacheBlocks :=
        if n = 0 then m.numEvictableCacheBlocks + 1 else m.numEvictableCacheBlocks
      policy := m.policy.modify k fun b => b.setRefCnt (b.refCnt - 1) }

def completeLoad : Py (CPUManager κ) := keys.foldlM completeLoadKey m

/-- The keys that pass the store threshold, and the manager that has counted the others. -/
def thresholdKeys : List κ × CPUManager κ :=
  match m.counts with
  | none => (keys, m)
  | some counts =>
    let kept := keys.filter fun k => (counts.get? k).getD 0 ≥ m.storeThreshold
    (kept, { m with
      storesSkippedInCurrentBatch := m.storesSkippedInCurrentBatch + (keys.length - kept.length) })

def addEvent (removed : Bool) : CPUManager κ :=
  if keys = [] then m
  else { m with events := m.events.map (· ++ [{ keys := keys, removed := removed }]) }

/-- The eviction in `prepare_store`: `none` if it fails, otherwise the evicted keys. -/
def makeRoom (numBlocksToEvict : ℤ) (protectedKeys : List κ) :
    Py (Option (List κ × CPUManager κ)) :=
  if numBlocksToEvict ≤ 0 then .ok (some ([], m))
  else if numBlocksToEvict > m.numEvictableCacheBlocks then .ok none
  else
    match m.policy.evict numBlocksToEvict.toNat protectedKeys with
    | none => .ok none
    | some (evicted, policy) => do
      let n := m.numEvictableCacheBlocks - evicted.length
      pyAssert (n ≥ 0) ""
      .ok (some (evicted.map Prod.fst, (evicted.map Prod.snd).foldl freeBlock
        { m with policy := policy, numEvictableCacheBlocks := n }))

/-- `prepare_store`, with no output if the policy cannot evict enough. -/
def prepareStore : Py (Option (PrepareStoreOutput κ) × CPUManager κ) := do
  let (keys, m) := m.thresholdKeys keys
  let keysToStore := keys.filter fun k => (m.policy.get k).isNone
  if keysToStore = [] then
    .ok (some { keysToStore := [], storeSpec := [], evictedKeys := [] }, m)
  else do
    let numBlocksToEvict : ℤ := keysToStore.length - m.getNumFreeBlocks
    match ← m.makeRoom numBlocksToEvict keys with
    | none => .ok (none, m)
    | some (toEvict, m) => do
      let m := m.addEvent toEvict true
      let (blocks, m) ← m.allocateBlocks keysToStore
      pyAssert (blocks.length = keysToStore.length)
        "Block pool did not allocate the expected number of blocks"
      let policy := (keysToStore.zip blocks).foldl (fun p e => p.insert e.1 e.2) m.policy
      .ok (some
        { keysToStore := keysToStore
          storeSpec := blocks.map (·.blockId)
          evictedKeys := toEvict }, { m with policy := policy })

/-- One round of `complete_store` after a successful transfer; the flag says that the key was
stored. -/
def storedKey : Bool × CPUManager κ :=
  match m.policy.get k with
  | none => (false, m)
  | some block =>
    if block.isReady then (false, m)
    else (true, { m with
      policy := m.policy.modify k fun b => b.setRefCnt 0
      numEvictableCacheBlocks := m.numEvictableCacheBlocks + 1 })

def storedLoop : List κ → CPUManager κ → List κ × CPUManager κ
  | [], m => ([], m)
  | k :: ks, m =>
    let (stored, m) := m.storedKey k
    let (rest, m) := storedLoop ks m
    (if stored then k :: rest else rest, m)

def dropKey : Py (CPUManager κ) :=
  match m.policy.get k with
  | none => .ok m
  | some block =>
    if block.isReady then .ok m
    else do
      let policy ← m.policy.remove k
      .ok ({ m with policy := policy }.freeBlock block)

/-- `complete_store`: the blocks become ready, or are dropped if the store failed. -/
def completeStore (success : Bool) : Py (CPUManager κ) :=
  if success then
    let (storedKeys, m) := storedLoop keys m
    .ok (m.addEvent storedKeys false)
  else keys.foldlM dropKey m

/-- `reset_cache`; it tells no event. -/
def resetCache : CPUManager κ :=
  { m with
    policy := m.policy.clear
    numEvictableCacheBlocks := 0
    freeList := []
    numAllocatedBlocks := 0 }

def takeEvents : List (OffloadingEvent κ) × CPUManager κ :=
  (m.events.getD [], { m with events := m.events.map fun _ => [] })

/-- The key is stored and its store is complete. -/
def ready : Bool := (m.policy.get k).any (·.isReady)

end CPUManager

end Vllm.Offload
