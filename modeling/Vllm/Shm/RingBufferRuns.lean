import Vllm.Shm.RingBufferProof

/-! # Runs of the ring buffer -/

namespace Vllm.Shm

open Machine List RingBuffer

/-- The calls of the ring buffer, and writes into an allocated block. -/
inductive RingCall where
  | allocateBuf (size : ℤ)
  | freeBuf (isFreeFn : ℕ → List UInt8 → Bool) (nbytes : Option ℤ)
  | writeData (id offset : ℕ) (bytes : List UInt8)

namespace RingBuffer

/-- `SingleWriterShmRingBuffer(...)` in the writer; the shared memory may hold anything. -/
def init (dataBufferSize : ℕ) (buf : Memory) :
    RingBuffer := { dataBufferSize := dataBufferSize, buf := buf }

def call (rb : RingBuffer) : RingCall → Py RingBuffer
  | .allocateBuf size => .ok (rb.allocateBuf size).2
  | .freeBuf isFreeFn nbytes => .ok (rb.freeBuf isFreeFn nbytes).2
  | .writeData id offset bytes =>
    match rb.metadata.get? id with
    | some address => .ok (rb.writeData address offset bytes)
    | none => .ok rb

/-- There are less than `ID_MAX` live allocations, and a write stays within the data of its
allocation. -/
def Issued (rb : RingBuffer) : RingCall → Prop
  | .allocateBuf _ => rb.metadata.length + 1 < idMax
  | .freeBuf _ _ => True
  | .writeData id offset bytes => ∀ address, rb.metadata.get? id = some address →
      ((mdSize + offset + bytes.length : ℕ) : ℤ) ≤ (rb.header address).2

/-- Live allocations (entries of the metadata with a size in the shared memory), ids and cursors fit
together. -/
structure WellFormed (rb : RingBuffer) : Prop where
  inside : ∀ x ∈ rb.metadata.entries, ((x.2 % rb.dataBufferSize : ℕ) : ℤ) + (rb.header x.2).2 ≤
    rb.dataBufferSize
  disjoint : rb.metadata.entries.Pairwise fun x y =>
    ((x.2 % rb.dataBufferSize : ℕ) : ℤ) + (rb.header x.2).2 ≤ (y.2 % rb.dataBufferSize : ℕ) ∨
    ((y.2 % rb.dataBufferSize : ℕ) : ℤ) + (rb.header y.2).2 ≤ (x.2 % rb.dataBufferSize : ℕ)
  ids : rb.metadata.keys = (List.range rb.metadata.length).map fun i =>
    (rb.monotonicIdStart + i) % idMax
  idEnd : rb.monotonicIdEnd = (rb.monotonicIdStart + rb.metadata.length) % idMax
  start_le : rb.dataBufferStart ≤ rb.dataBufferEnd
  span : rb.dataBufferEnd - rb.dataBufferStart ≤ rb.dataBufferSize
  start : ∀ x ∈ rb.metadata.entries.head?, rb.dataBufferStart % rb.dataBufferSize =
    x.2 % rb.dataBufferSize

variable {rb rb' : RingBuffer} {blocks : List Block}

lemma Live.length (h : Live rb blocks) : rb.metadata.length = blocks.length := by
  rw [OrderedDict.length, h.metadata, List.length_map]

lemma Live.wellFormed (h : Live rb blocks) : WellFormed rb where
  inside := by
    rw [h.metadata, forall_mem_map]
    intro b hb
    have hmod := (h.ok b hb).interval_mod
    rw [(h.ok b hb).header]
    dsimp only
    omega
  disjoint := by
    rw [h.metadata, pairwise_map]
    refine h.disjoint.imp_of_mem fun {a b} ha hb hab => ?_
    rw [(h.ok a ha).header, (h.ok b hb).header]
    dsimp only
    omega
  ids := by
    rw [h.length, ← h.ids, OrderedDict.keys, h.metadata, map_map]
    rfl
  idEnd := by rw [h.length]; exact h.idEnd
  start_le := h.laid.le
  span := by
    have := h.span
    omega
  start := by
    rw [h.metadata, head?_map]
    intro x hx
    obtain ⟨b, hb, rfl⟩ := Option.mem_map.mp hx
    rw [← h.start b hb]
    exact (h.ok b (mem_of_mem_head? hb)).addr.symm

lemma Live.init {n : ℕ} (hn : 0 < n) (buf : Memory) : Live (init n buf) [] where
  pos := hn
  idStart := Nat.two_pow_pos 31
  count := Nat.two_pow_pos 31
  ids := rfl
  idEnd := (Nat.zero_mod _).symm
  metadata := rfl
  start := nofun
  empty := fun _ => ⟨rfl, rfl⟩
  laid := le_rfl
  span := Nat.zero_le _
  ok := nofun

lemma Live.call (h : Live rb blocks) {c : RingCall} (hiss : rb.Issued c)
    (hcall : rb.call c = .ok rb') :
    ∃ blocks', Live rb' blocks' := by
  cases c with
  | allocateBuf size =>
    cases hcall
    have hcnt : blocks.length + 1 < idMax := h.length ▸ hiss
    generalize hr : rb.allocateBuf size = r
    cases hr ▸ h.allocateBuf (n := size) hcnt with
    | raised live => exact ⟨blocks, live⟩
    | block live => exact ⟨_, live⟩
  | freeBuf isFreeFn nbytes =>
    cases hcall
    obtain ⟨k, blocks', -, hlive, -⟩ := h.freeBuf isFreeFn nbytes
    exact ⟨blocks', hlive⟩
  | writeData id offset bytes =>
    unfold RingBuffer.call at hcall
    dsimp only at hcall
    split at hcall
    next address hadr =>
      cases hcall
      have hmem := OrderedDict.get?_eq_some_iff.mp hadr
      rw [h.metadata] at hmem
      obtain ⟨b, hb, heq⟩ := mem_map.mp hmem
      cases heq
      have hle := hiss b.addr hadr
      rw [(h.ok b hb).header] at hle
      exact ⟨blocks, h.writeData hb (Int.ofNat_le.mp hle)⟩
    next =>
      cases hcall
      exact ⟨blocks, h⟩

/-- In every run the allocations are disjoint and inside the buffer, their ids are contiguous, the
cursors are at most the buffer size apart and start at the oldest allocation, and `free_buf` returns
what it releases. -/
theorem allocations_wellFormed {n : ℕ} (hn : 0 < n) {buf : Memory} {calls : List RingCall}
    (hrun : Run RingBuffer.call Issued (init n buf) calls rb) : WellFormed rb ∧ ∀ isFreeFn nbytes,
      rb.metadata.keys = (rb.freeBuf isFreeFn nbytes).1 ++
      (rb.freeBuf isFreeFn nbytes).2.metadata.keys := by
  obtain ⟨blocks, hlive⟩ : ∃ blocks, Live rb blocks :=
    hrun.invariant (P := fun rb => ∃ blocks, Live rb blocks)
      (fun _ _ _ ⟨_, h⟩ hissued hcall => h.call hissued hcall) ⟨[], .init hn buf⟩
  refine ⟨hlive.wellFormed, fun isFreeFn nbytes => ?_⟩
  obtain ⟨k, blocks', -, hlive', hkeys, hids⟩ := hlive.freeBuf isFreeFn nbytes
  have hkeysOf : ∀ {rb : RingBuffer} {blocks : List Block}, Live rb blocks →
      rb.metadata.keys = (blocks.map Block.key).map Prod.fst := by
    intro rb blocks h
    rw [OrderedDict.keys, h.metadata, map_map, map_map]
    rfl
  have hid : Prod.fst ∘ Block.key = Block.id := rfl
  rw [hkeysOf hlive, hkeysOf hlive', hkeys, hids, map_map, map_map, hid, ← map_append,
    take_append_drop]

/-- The third allocation goes to the start of the buffer after the first was freed. -/
theorem wrapped_allocations_wellFormed : ∃ rb : RingBuffer,
    Run RingBuffer.call Issued (init 40 fun _ => 0) [.allocateBuf 8, .allocateBuf 8,
      .freeBuf (fun id _ => id = 0) none, .allocateBuf 8] rb ∧
    rb.metadata.entries = [(1, 16), (2, 40)] ∧ WellFormed rb := by
  refine Exists.imp (fun rb (h : _ ∧ rb.metadata.entries = _) =>
    ⟨h.1, h.2, (allocations_wellFormed (by decide) h.1).1⟩) ⟨_,
      .cons ?_ rfl (.cons ?_ rfl (.cons trivial rfl (.cons ?_ rfl (.nil _)))), ?_⟩
  · show 1 < idMax
    decide
  · show 2 < idMax
    decide
  · show 2 < idMax
    decide
  · rfl

end RingBuffer

end Vllm.Shm
