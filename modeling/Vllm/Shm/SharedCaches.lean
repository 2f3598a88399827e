import Vllm.Shm.ObjectStorage
import Vllm.Shm.RingBufferRuns

/-!
# One writer and several readers

For each request the sender touches all items, then gets or adds them (`_merge_mm_kwargs`); a reader
touches all pairs, then gets them (`get_and_update_features`). A get looks at the object before it
locks to count.
-/

namespace Vllm.Shm

open Machine

/-- An operation on the object at an address. `counted` is history: whether the writer counted its
touch. -/
inductive ReaderOp where
  | touch (address id : ℕ) (counted : Bool)
  | read (address id : ℕ)
  | count (address id : ℕ)

namespace ReaderOp

def address : ReaderOp → ℕ
  | touch address _ _ | read address _ | count address _ => address

def id : ReaderOp → ℕ
  | touch _ id _ | read _ id | count _ id => id

def run (nReaders : ℕ) (rb : RingBuffer) : ReaderOp → Py RingBuffer
  | touch address _ _ => rb.touchReader nReaders address
  | read address id => do
    let _ ← rb.readObject address id
    .ok rb
  | count address _ => rb.incrementReaderFlag address

end ReaderOp

/-- A feature sent to the readers: where its object is, and if its touch was counted. -/
structure Feature where
  address : ℕ
  id : ℕ
  counted : Bool
  deriving DecidableEq

variable (features : List Feature)

def touches : List ReaderOp := features.map fun x => .touch x.address x.id x.counted

def gets : List ReaderOp :=
  features.flatMap fun x => [.read x.address x.id, .count x.address x.id]

/-- What a reader does with the items of a request; an item that is sent itself needs nothing. -/
def program : List ReaderOp := touches features ++ gets features

/-- A multi-modal item of a request. -/
structure Item where
  mmHash : String
  objectMetadata : List UInt8
  objectData : List UInt8

/-- An item of the sender. `mmItem` is `none` if it was cached when the request came, `id` is the
object whose touch was counted. -/
structure Entry where
  mmHash : String
  mmItem : Option (List UInt8 × List UInt8)
  id : Option ℕ := none

/-- The storage, the operations of each reader, and the sender's request: the items to touch and
get, the pairs to send.
-/
structure SharedCaches where
  storage : ObjectStorage
  readers : List (List ReaderOp)
  toTouch : List Entry := []
  toGet : List Entry := []
  handed : List Feature := []

/-- The steps of the sender and of the readers. -/
inductive SharedStep where
  | request (items : List Item)
  | touch
  | get
  | send (features : List Feature)
  | reader (r : ℕ)

namespace SharedCaches

variable (t : SharedCaches)

def init (n maxObjectSize dataBufferSize : ℕ) (buf : Memory) : SharedCaches where
  storage :=
    { maxObjectSize := maxObjectSize
      nReaders := n
      ringBuffer := RingBuffer.init dataBufferSize buf }
  readers := List.replicate n []

/-- `_get_cache_missing_items`: an item that is cached is not processed. -/
def lookUp (item : Item) : Entry where
  mmHash := item.mmHash
  mmItem :=
    if t.storage.isCached item.mmHash then none else some (item.objectMetadata, item.objectData)

def step : SharedStep → Py SharedCaches
  | .request items => .ok { t with toTouch := items.map t.lookUp }
  | .touch =>
    match t.toTouch with
    | [] => .ok t
    | x :: rest => .ok { t with
        storage := t.storage.touch x.mmHash
        toTouch := rest
        toGet := t.toGet ++ [{ x with id := (t.storage.keyIndex.get? x.mmHash).map Prod.snd }] }
  | .get =>
    match t.toGet with
    | [] => .ok t
    | x :: rest => do
      let (pair, s) ← t.storage.getAndUpdateItem x.mmItem x.mmHash
      .ok { t with
        storage := s
        toGet := rest
        handed := t.handed ++ pair.toList.map fun p => ⟨p.1, p.2, x.id.isSome⟩ }
  | .send features => .ok { t with
      readers := t.readers.map (· ++ program features)
      handed := [] }
  | .reader r =>
    match t.readers[r]? with
    | some (op :: rest) => do
      let rb ← op.run t.storage.nReaders t.storage.ringBuffer
      .ok { t with
        storage := { t.storage with ringBuffer := rb }
        readers := t.readers.set r rest }
    | _ => .ok t

/-- The sender takes one request after the other, touches before it gets, and sends the pairs in any
order. -/
def Issued (t : SharedCaches) : SharedStep → Prop
  | .request _ => t.toTouch = [] ∧ t.toGet = [] ∧ t.handed = []
  | .touch => True
  | .get => t.toTouch = [] ∧ t.storage.ringBuffer.metadata.length + 1 < idMax
  | .send features => t.toTouch = [] ∧ t.toGet = [] ∧ features.Perm t.handed
  | .reader _ => True

instance (t : SharedCaches) : DecidablePred t.Issued
  | .request _ => inferInstanceAs (Decidable (_ = [] ∧ _ = [] ∧ _ = []))
  | .touch => instDecidableTrue
  | .get => inferInstanceAs (Decidable (_ = [] ∧ _ < _))
  | .send _ => inferInstanceAs (Decidable (_ = [] ∧ _ = [] ∧ List.Perm _ _))
  | .reader _ => instDecidableTrue

end SharedCaches

end Vllm.Shm
