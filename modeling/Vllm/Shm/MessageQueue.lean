import Vllm.Lib.RingQueue
import Vllm.Lib.Run

/-!
# The message queue

`MessageQueue` of `vllm/distributed/device_communicators/shm_broadcast.py` for one local reader. A
large object is a marker in the ring and a message on a socket.
-/

namespace Vllm.Shm

open List Function Machine RingQueue

/-- The ring buffer and `local_reader_rank`. -/
structure ReaderConfig where
  nReader : ℕ
  maxChunkBytes : ℕ
  maxChunks : ℕ
  rank : ℕ
  maxChunks_pos : 0 < maxChunks
  rank_lt : rank < nReader

/-- A pickled object: the main buffer and those out of band. -/
structure Message where
  main : List UInt8
  oob : List (List UInt8) := []
  deriving DecidableEq

namespace Message

variable (m : Message) (maxChunkBytes : ℕ)

def overflows : Bool := 6 + (m.oob.map fun b => b.length + 4).sum + m.main.length ≥ maxChunkBytes

/-- What is written to the chunk, `none` for the overflow marker. -/
def chunkData : Option Message := if m.overflows maxChunkBytes then none else some m

/-- The offset behind the last buffer in a chunk. -/
def chunkBytes : ℕ := 3 + ((m.main :: m.oob).map fun b => b.length + 4).sum

end Message

/-- A chunk of the ring with its flags. -/
structure Chunk where
  written : Bool := false
  read : ℕ → Bool := fun _ => false
  data : Option Message := none

/-- What `acquire_read` yields, `none` if it has to wait. -/
def Chunk.unread (rank : ℕ) (chunk : Chunk) : Option (Option Message) :=
  if chunk.written && !chunk.read rank then some chunk.data else none

/-- `waiting`: the reader waits in `recv` for the message of a marker. `socket` holds what was not
received, `enqueued` and `returned` are history. -/
structure MessageQueue where
  chunks : ℕ → Chunk := fun _ => {}
  writerIdx : ℕ := 0
  readerIdx : ℕ := 0
  waiting : Bool := false
  socket : List Message := []
  enqueued : List Message := []
  returned : List Message := []

/-- A call of `dequeue` is a `dequeue` and, if it finds a marker, a `recv`. Other readers read
chunks. -/
inductive QueueCall where
  | enqueue (m : Message)
  | dequeue
  | recv (arrived : Bool)
  | read (idx other : ℕ)

namespace MessageQueue

variable (c : ReaderConfig) (q : MessageQueue)

/-- If it times out nothing has changed. -/
def enqueue (m : Message) : MessageQueue :=
  let chunk := q.chunks q.writerIdx
  if chunk.written && !(range c.nReader).all chunk.read then q
  else
    { q with
      chunks := update q.chunks q.writerIdx { written := true, data := m.chunkData c.maxChunkBytes }
      writerIdx := (q.writerIdx + 1) % c.maxChunks
      socket := q.socket ++ if m.overflows c.maxChunkBytes then [m] else []
      enqueued := q.enqueued ++ [m] }

def markRead (idx rank : ℕ) : MessageQueue :=
  { q with
    chunks := update q.chunks idx
      { q.chunks idx with read := update (q.chunks idx).read rank true } }

def dequeue : MessageQueue :=
  match (q.chunks q.readerIdx).unread c.rank with
  | none => q -- `acquire_read` times out
  | some data =>
    let q := { q.markRead q.readerIdx c.rank with readerIdx := (q.readerIdx + 1) % c.maxChunks }
    match data with
    | some m => { q with returned := q.returned ++ [m] }
    | none => { q with waiting := true }

/-- `arrived` says whether the next message, if sent, arrives before the timeout. -/
def recv (arrived : Bool) : MessageQueue :=
  match arrived, q.socket with
  | true, m :: socket => { q with waiting := false, socket, returned := q.returned ++ [m] }
  | _, _ => { q with waiting := false }

def step (q : MessageQueue) : QueueCall → Except Empty MessageQueue
  | .enqueue m => .ok (q.enqueue c m)
  | .dequeue => .ok (q.dequeue c)
  | .recv arrived => .ok (q.recv arrived)
  | .read idx other => .ok (q.markRead idx other)

/-- The reader calls `dequeue` only after its last one returned. -/
def Issued : QueueCall → Prop
  | .enqueue _ => True
  | .dequeue => q.waiting = false
  | .recv _ => q.waiting = true
  | .read _ other => other ≠ c.rank

/-- `recv` does not time out. -/
def InTime (call : QueueCall) : Prop := q.Issued c call ∧ call ≠ .recv false

/-- The number of chunks that the reader has read. -/
def consumed : ℕ := q.returned.length + q.waiting.toNat

variable {c q} {rest : List Message}

/-- The messages `rest` were not returned yet: unread chunks are in the ring, the large ones on the
socket. -/
structure Paired (c : ReaderConfig) (q : MessageQueue) (rest : List Message) : Prop where
  enqueued : q.enqueued = q.returned ++ rest
  socket : q.socket = rest.filter (·.overflows c.maxChunkBytes)
  marker : q.waiting = true → ∃ m tail, rest = m :: tail ∧ m.overflows c.maxChunkBytes = true
  readerIdx : q.readerIdx = q.consumed % c.maxChunks
  writerIdx : q.writerIdx = q.enqueued.length % c.maxChunks
  ring :
    Holds c.maxChunks q.consumed (q.enqueued.map (·.chunkData c.maxChunkBytes))
    (Chunk.unread c.rank ∘ q.chunks)

namespace Paired

variable (h : Paired c q rest)
include h

lemma consumed_le : q.consumed ≤ q.enqueued.length := by
  rw [h.enqueued, consumed]
  cases hw : q.waiting with
  | false => simp
  | true =>
    obtain ⟨m, tail, rfl, -⟩ := h.marker hw
    simp

lemma enqueue (m : Message) : ∃ rest, Paired c (q.enqueue c m) rest := by
  unfold MessageQueue.enqueue
  by_cases hfull :
    ((q.chunks q.writerIdx).written && !(range c.nReader).all (q.chunks q.writerIdx).read) = true
  · rw [if_pos hfull]
    exact ⟨rest, h⟩
  rw [if_neg hfull]
  -- The reader is one of those that have read what stood in the chunk.
  have hfree : (q.chunks q.writerIdx).unread c.rank = none := by
    simp only [Bool.and_eq_true, Bool.not_eq_true', all_eq_false, mem_range, not_and,
      not_exists] at hfull
    simpa [Chunk.unread] using fun hwritten => hfull hwritten _ c.rank_lt
  have hring := h.ring.push c.maxChunks_pos (by simpa using h.consumed_le)
    (by simpa [← h.writerIdx] using hfree) (m.chunkData c.maxChunkBytes)
  rw [length_map, ← h.writerIdx] at hring
  refine ⟨rest ++ [m], ?_, ?_, fun hw => ?_, h.readerIdx, ?_, ?_⟩
  · simp [h.enqueued]
  · simp [h.socket, filter_cons]
  · obtain ⟨m', tail, rfl, ho⟩ := h.marker hw
    exact ⟨m', tail ++ [m], rfl, ho⟩
  · simp [h.writerIdx]
  · rw [comp_update, map_append]
    exact hring

lemma dequeue (hw : q.waiting = false) : ∃ rest, Paired c (q.dequeue c) rest := by
  unfold MessageQueue.dequeue
  cases hread : (q.chunks q.readerIdx).unread c.rank with
  | none => exact ⟨rest, h⟩
  | some data =>
    have hcons : q.consumed = q.returned.length := by simp [consumed, hw]
    obtain ⟨hdata, hring⟩ := h.ring.pop c.maxChunks_pos
    have hmarked : update (Chunk.unread c.rank ∘ q.chunks) (q.consumed % c.maxChunks) none =
        Chunk.unread c.rank ∘ (q.markRead q.readerIdx c.rank).chunks := by
      rw [markRead, comp_update, ← h.readerIdx]
      simp [Chunk.unread]
    have hidx : (q.readerIdx + 1) % c.maxChunks = (q.consumed + 1) % c.maxChunks := by
      simp [h.readerIdx]
    rw [hmarked] at hring
    -- The chunk is that of the first message of `rest`.
    rw [← h.readerIdx, comp_apply, hread, getElem?_map, h.enqueued, hcons,
      getElem?_append_right le_rfl, Nat.sub_self] at hdata
    obtain _ | ⟨m, tail⟩ := rest
    · cases hdata
    obtain rfl : data = m.chunkData c.maxChunkBytes := Option.some.inj hdata
    cases ho : m.overflows c.maxChunkBytes with
    | false =>
      rw [Message.chunkData, ho]
      have hlen : q.consumed + 1 = (q.returned ++ [m]).length + q.waiting.toNat := by
        simp [hcons, hw]
      rw [hlen] at hring hidx
      refine ⟨tail, h.enqueued.trans (append_cons ..), h.socket.trans ?_, fun h => ?_, hidx,
        h.writerIdx, hring⟩
      · simp [ho]
      · cases hw.symm.trans h
    | true =>
      rw [Message.chunkData, ho]
      rw [hcons] at hring hidx
      exact ⟨m :: tail, h.enqueued, h.socket, fun _ => ⟨_, _, rfl, ho⟩, hidx, h.writerIdx, hring⟩

lemma recv (hw : q.waiting = true) : ∃ rest, Paired c (q.recv true) rest := by
  obtain ⟨m, tail, rfl, ho⟩ := h.marker hw
  have hsocket : q.socket = m :: tail.filter (·.overflows c.maxChunkBytes) := by simp [h.socket, ho]
  have hcons : q.consumed = (q.returned ++ [m]).length + false.toNat := by simp [consumed, hw]
  have hidx := h.readerIdx
  have hring := h.ring
  rw [hcons] at hidx hring
  unfold MessageQueue.recv
  rw [hsocket]
  exact ⟨tail, h.enqueued.trans (append_cons ..), rfl, (fun h => by cases h), hidx, h.writerIdx,
    hring⟩

lemma read {idx other : ℕ} (hne : other ≠ c.rank) : Paired c (q.markRead idx other) rest := by
  have hsame : Chunk.unread c.rank ∘ (q.markRead idx other).chunks =
    Chunk.unread c.rank ∘ q.chunks := by
    rw [markRead, comp_update]
    simp [Chunk.unread, hne.symm]
  exact { h with ring := hsame ▸ h.ring }

end Paired

lemma paired_step {call : QueueCall} {q' : MessageQueue} (h : ∃ rest, Paired c q rest)
    (hok : q.InTime c call) (hstep : step c q call = .ok q') : ∃ rest, Paired c q' rest := by
  obtain ⟨rest, h⟩ := h
  cases call <;> obtain rfl := Except.ok.inj hstep
  case enqueue m => exact h.enqueue m
  case dequeue => exact h.dequeue hok.1
  case recv arrived =>
    obtain rfl : arrived = true := by simpa using hok.2
    exact h.recv hok.1
  case read idx other => exact ⟨rest, h.read hok.1⟩

/-- While `recv` does not time out, the calls return the enqueued objects in order, and an object in
the ring fits in its chunk. -/
theorem returned_in_order {calls : List QueueCall} (hrun : Run (step c) (InTime c) {} calls q) :
    q.returned <+: q.enqueued ∧ ∀ m : Message, m.chunkData c.maxChunkBytes ≠ none →
    m.chunkBytes ≤ c.maxChunkBytes := by
  have hinit : Paired c {} [] :=
    ⟨rfl, rfl, (fun h => by cases h), by simp [consumed], by simp, by simp [Holds, Chunk.unread]⟩
  obtain ⟨rest, h⟩ := hrun.invariant (P := fun q => ∃ rest, Paired c q rest)
    (fun _ _ _ hp hok he => paired_step hp hok he) ⟨[], hinit⟩
  refine ⟨⟨rest, h.enqueued.symm⟩, fun m hm => ?_⟩
  simp only [Message.chunkData, Message.overflows, ne_eq, ite_eq_left_iff, decide_eq_true_eq,
    reduceCtorEq] at hm
  simp only [Message.chunkBytes, map_cons, sum_cons]
  omega

def twoChunks : ReaderConfig := ⟨1, 16, 2, 0, Nat.two_pos, Nat.one_pos⟩

def large : Message := ⟨replicate 16 0, []⟩

/-- A message too large for a chunk goes through the socket. -/
theorem returned_in_order_large : ∃ q, Run (step twoChunks) (InTime twoChunks) {}
    [.enqueue large, .dequeue, .recv true] q ∧ q.returned <+: q.enqueued :=
  have hrun : Run (step twoChunks) (InTime twoChunks) {} [.enqueue large, .dequeue, .recv true] _ :=
    .cons ⟨trivial, by simp⟩ rfl <| .cons ⟨rfl, by simp⟩ rfl <| .cons ⟨rfl, by simp⟩ rfl <| .nil _
  ⟨_, hrun, (returned_in_order hrun).1⟩

/-- `recv` times out behind the marker of the large object, and the next call returns the small
one. -/
theorem not_returned_in_order : ∃ q, Run (step twoChunks) (Issued twoChunks) {}
    [.enqueue large, .dequeue, .recv false, .enqueue ⟨[1], []⟩, .dequeue] q ∧
    ¬ q.returned <+: q.enqueued :=
  ⟨_, .cons trivial rfl <| .cons rfl rfl <| .cons rfl rfl <| .cons trivial rfl <| .cons rfl rfl <|
    .nil _, by decide⟩

end MessageQueue

end Vllm.Shm
