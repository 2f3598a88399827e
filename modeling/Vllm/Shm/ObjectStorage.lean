import Vllm.Shm.RingBuffer

/-!
# The shared-memory object storage

`SingleWriterShmObjectStorage` of `vllm/distributed/device_communicators/shm_object_storage.py` and
its two caches in `vllm/multimodal/cache.py`. An object is its serialized bytes.
-/

namespace Vllm.Shm

def flagBytes : ℕ := 4

namespace RingBuffer

variable (rb : RingBuffer)

@[irreducible] def readerCount (address : ℕ) : ℤ := byte2int ((rb.dataView address).take flagBytes)

def incrementReaderFlag (address : ℕ) : Py RingBuffer := do
  let bytes ← int2byte (rb.readerCount address + 1)
  .ok (rb.writeData address 0 bytes)

def touchReader (nReaders address : ℕ) : Py RingBuffer :=
  -- the writer does not count the touch of an item that it has just added
  if rb.readerCount address ≥ nReaders then rb.incrementReaderFlag address else .ok rb

/-- The part of `get` before the lock: the bytes of the object. -/
def readObject (address monotonicId : ℕ) : Py (List UInt8) :=
  if (rb.header address).1 ≠ monotonicId then
    .error (.valueError
      s!"Data for address:id '{address}:{monotonicId}' has been modified or is invalid.")
  else .ok ((rb.dataView address).drop flagBytes)

end RingBuffer

/-- `SingleWriterShmObjectStorage`. -/
structure ObjectStorage where
  maxObjectSize : ℕ
  nReaders : ℕ
  ringBuffer : RingBuffer
  keyIndex : OrderedDict String (ℕ × ℕ) := .empty
  idIndex : OrderedDict ℕ String := .empty
  /-- Id to the number of accesses that each reader makes. -/
  writerFlag : OrderedDict ℕ ℕ := .empty

namespace ObjectStorage

variable (s : ObjectStorage)

def incrementWriterFlag (id : ℕ) : ObjectStorage :=
  { s with writerFlag := s.writerFlag.set id ((s.writerFlag.get? id).getD 0 + 1) }

/-- `default_is_free_check`; every id of the ring buffer has a writer flag. -/
def defaultIsFreeCheck (id : ℕ) (buf : List UInt8) : Bool :=
  byte2int (buf.take flagBytes) ≥ ((s.writerFlag.get? id).getD 0 : ℤ) * s.nReaders

def forget (freedId : ℕ) : Py ObjectStorage :=
  match s.idIndex.get? freedId with
  | none => .error (.keyError (toString freedId))
  | some key => .ok { s with
      keyIndex := s.keyIndex.erase key
      idIndex := s.idIndex.erase freedId
      writerFlag := s.writerFlag.erase freedId }

def freeUnused : Py ObjectStorage :=
  let freed := s.ringBuffer.freeBuf s.defaultIsFreeCheck (some (2 * s.maxObjectSize))
  freed.1.foldlM forget { s with ringBuffer := freed.2 }

variable (key : String)

def isCached : Bool := key ∈ s.keyIndex.keys

def getCached : Py ((ℕ × ℕ) × ObjectStorage) :=
  match s.keyIndex.get? key with
  | none => .error (.keyError key)
  | some (address, monotonicId) => .ok ((address, monotonicId), s.incrementWriterFlag monotonicId)

/-- The end of `put`: write the object and index it. Its count starts at 0. -/
def storeObject (address monotonicId : ℕ) (objectMetadata objectData : List UInt8) :
    ObjectStorage :=
  let rb := s.ringBuffer.writeData address 0 (leBytes idNbytes 0)
  let rb := rb.writeData address flagBytes (objectMetadata ++ objectData)
  let s := { s with ringBuffer := rb }.incrementWriterFlag monotonicId
  { s with
    keyIndex := s.keyIndex.set key (address, monotonicId)
    idIndex := s.idIndex.set monotonicId key }

def allocateObject (objectMetadata objectData : List UInt8) : Py (ℕ × ℕ) × ObjectStorage :=
  match s.ringBuffer.allocateBuf (flagBytes + objectData.length + objectMetadata.length : ℕ) with
  | (.ok (address, monotonicId), rb) =>
    (.ok (address, monotonicId),
      { s with ringBuffer := rb }.storeObject key address monotonicId objectMetadata objectData)
  | (.error e, rb) => (.error e, { s with ringBuffer := rb })

/-- `put`; the object is given as the metadata and the data that `serialize` returns. -/
def put (objectMetadata objectData : List UInt8) : Py (ℕ × ℕ) × ObjectStorage :=
  let bufferSize := flagBytes + objectData.length + objectMetadata.length
  if key ∈ s.keyIndex.keys then
    (.error (.valueError s!"Key '{key}' already exists in the storage."), s)
  else if bufferSize > s.maxObjectSize then
    (.error (.valueError (s!"Serialized object size ({bufferSize} bytes) exceeds " ++
      s!"max object size ({s.maxObjectSize} bytes)")), s)
  else
    match s.allocateObject key objectMetadata objectData with
    | (.error (.memoryError _), s) =>
      -- try again after freeing up space
      match s.freeUnused with
      | .ok s => s.allocateObject key objectMetadata objectData
      | .error e => (.error e, s)
    | r => r

/-- `touch` of the writer: every reader will read the object once more. -/
def touch : ObjectStorage :=
  match s.keyIndex.get? key with
  | none => s
  | some (_, monotonicId) => s.incrementWriterFlag monotonicId

/-- `get_and_update_item`: the pair for the item, or `none` if it is sent. `mmItem` is `none` if it
was cached at the lookup. -/
def getAndUpdateItem (mmItem : Option (List UInt8 × List UInt8)) (mmHash : String) :
    Py (Option (ℕ × ℕ) × ObjectStorage) :=
  if s.isCached mmHash then do
    let (pair, s) ← s.getCached mmHash
    .ok (some pair, s)
  else
    match mmItem with
    | none => .error (.assertionError s!"Expected a cached item for mm_hash='{mmHash}'")
    | some (objectMetadata, objectData) =>
      match s.put mmHash objectMetadata objectData with
      | (.ok pair, s) => .ok (some pair, s)
      -- too large, or no space
      | (.error (.valueError _), s) => .ok (none, s)
      | (.error (.memoryError _), s) => .ok (none, s)
      | (.error e, _) => .error e

end ObjectStorage

end Vllm.Shm
