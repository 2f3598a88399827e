import Vllm.Basic
import Vllm.Lib.Memory
import Vllm.Lib.OrderedDict

/-!
# The shared-memory ring buffer

`SingleWriterShmRingBuffer` of `vllm/distributed/device_communicators/shm_object_storage.py` in the
writer. A call that raises may have changed fields, so `allocateBuf` returns the buffer too.
-/

namespace Vllm.Shm

def idNbytes : ℕ := 4

def idMax : ℕ := 2 ^ 31

def mdSize : ℕ := idNbytes + idNbytes

def inRange : ℤ → Bool
  | .ofNat n => n < 2 ^ 31
  | .negSucc n => n < 2 ^ 31

variable {x : ℤ}

lemma inRange_iff : inRange x = true ↔ -(2 ^ 31) ≤ x ∧ x < 2 ^ 31 := by
  cases x with
  | ofNat n =>
    rw [inRange, decide_eq_true_iff, Int.ofNat_eq_natCast]
    omega
  | negSucc n =>
    rw [inRange, decide_eq_true_iff]
    omega

def int2byte (x : ℤ) : Py (List UInt8) :=
  if inRange x then .ok (leBytes idNbytes (x % 256 ^ idNbytes).toNat)
  else .error (.overflowError "int too big to convert")

def byte2int (bytes : List UInt8) : ℤ := leInt bytes

lemma exists_int2byte {n : ℕ} (h : n < idMax) : ∃ bytes, int2byte n = .ok bytes := by
  unfold int2byte
  rw [if_pos]
  · exact ⟨_, rfl⟩
  · exact decide_eq_true h

variable {bytes : List UInt8}

lemma length_int2byte (h : int2byte x = .ok bytes) : bytes.length = idNbytes := by
  unfold int2byte at h
  split at h
  · cases h
    exact length_leBytes _ _
  · cases h

lemma byte2int_int2byte (h : int2byte x = .ok bytes) : byte2int bytes = x := by
  unfold int2byte at h
  split at h
  next hx =>
    cases h
    obtain ⟨hlo, hhi⟩ := inRange_iff.mp hx
    exact leInt_leBytes (by unfold idNbytes; omega) (by unfold idNbytes; omega)
  · cases h

/-- `SingleWriterShmRingBuffer`. -/
structure RingBuffer where
  dataBufferSize : ℕ
  monotonicIdEnd : ℕ := 0
  monotonicIdStart : ℕ := 0
  dataBufferStart : ℕ := 0
  dataBufferEnd : ℕ := 0
  metadata : OrderedDict ℕ ℕ := .empty
  buf : Memory

namespace RingBuffer

variable (rb : RingBuffer)

/-- An allocation starts at the end of the last one, or at the next multiple of the buffer size if
it does not fit before. -/
def bufferEndReset (size : ℕ) : ℕ :=
  if rb.dataBufferEnd % rb.dataBufferSize + size > rb.dataBufferSize then
    (rb.dataBufferEnd / rb.dataBufferSize + 1) * rb.dataBufferSize
  else rb.dataBufferEnd

/-- The part of `allocate_buf` after the checks; `size` includes the metadata. -/
def recordBuf (size : ℕ) : Py (ℕ × ℕ) × RingBuffer :=
  let rb := { rb with dataBufferEnd := rb.bufferEndReset size }
  let bufIdx := rb.dataBufferEnd % rb.dataBufferSize
  match int2byte rb.monotonicIdEnd with
  | .error e => (.error e, rb)
  | .ok idBytes =>
    let rb := { rb with buf := rb.buf.write bufIdx idBytes }
    match int2byte size with
    | .error e => (.error e, rb)
    | .ok sizeBytes =>
      (.ok (rb.dataBufferEnd, rb.monotonicIdEnd), { rb with
        buf := rb.buf.write (bufIdx + idNbytes) sizeBytes
        metadata := rb.metadata.set (rb.monotonicIdEnd % idMax) rb.dataBufferEnd
        dataBufferEnd := rb.dataBufferEnd + size
        monotonicIdEnd := (rb.monotonicIdEnd + 1) % idMax })

/-- `allocate_buf`, which starts over at the front if the block does not fit before the end. -/
def allocateBuf (size : ℤ) : Py (ℕ × ℕ) × RingBuffer :=
  if size ≤ 0 then (.error (.assertionError "Size must be greater than 0"), rb)
  else
    let size := size.toNat + mdSize
    -- the new end must not pass the start of the data
    if rb.bufferEndReset size + size > rb.dataBufferSize + rb.dataBufferStart then
      (.error (.memoryError
        "Not enough space in the data buffer, try calling free_buf() to free up space"), rb)
    else rb.recordBuf size

variable (address : ℕ)

/-- The id and the size in front of a block. -/
def header : ℤ × ℤ :=
  let bufIdx := address % rb.dataBufferSize
  (byte2int (rb.buf.read bufIdx idNbytes), byte2int (rb.buf.read (bufIdx + idNbytes) idNbytes))

def dataPos : ℕ := address % rb.dataBufferSize + mdSize

def dataView : List UInt8 :=
  rb.buf.read (rb.dataPos address) ((rb.header address).2 - mdSize).toNat

def release : RingBuffer :=
  let metadata := rb.metadata.erase rb.monotonicIdStart
  let idStart := (rb.monotonicIdStart + 1) % idMax
  let rb := { rb with metadata := metadata, monotonicIdStart := idStart }
  match metadata.get? idStart with
  | some address =>
    { rb with dataBufferStart := rb.dataBufferStart +
        (((address : ℤ) - rb.dataBufferStart) % rb.dataBufferSize).toNat }
  -- no allocation is left
  | none => { rb with dataBufferStart := 0, dataBufferEnd := 0 }

/-- The loop of `free_buf`; each round releases an entry of the metadata, whose number is enough
fuel. -/
def freeLoop (isFreeFn : ℕ → List UInt8 → Bool) (nbytes : ℤ) : ℕ → ℤ → RingBuffer → RingBuffer
  | 0, _, rb => rb
  | fuel + 1, freedBytes, rb =>
    match rb.metadata.get? rb.monotonicIdStart with
    | none => rb
    | some address =>
      if freedBytes < nbytes ∧ isFreeFn rb.monotonicIdStart (rb.dataView address) then
        freeLoop isFreeFn nbytes fuel (freedBytes + (rb.header address).2) rb.release
      else rb

def rebase : RingBuffer :=
  if rb.dataBufferStart ≥ rb.dataBufferSize then
    { rb with
      dataBufferStart := rb.dataBufferStart - rb.dataBufferSize
      dataBufferEnd := rb.dataBufferEnd - rb.dataBufferSize }
  else rb

def idsFrom (before after : ℕ) : List ℕ :=
  if after ≥ before then List.range' before (after - before)
  else List.range' before (idMax - before) ++ List.range after

/-- `free_buf`: the oldest blocks are freed while they can be. -/
def freeBuf (isFreeFn : ℕ → List UInt8 → Bool) (nbytes : Option ℤ) : List ℕ × RingBuffer :=
  let rb' := (freeLoop isFreeFn (nbytes.getD rb.dataBufferSize) rb.metadata.length 0 rb).rebase
  (idsFrom rb.monotonicIdStart rb'.monotonicIdStart, rb')

def writeData (address offset : ℕ) (bytes : List UInt8) : RingBuffer :=
  { rb with buf := rb.buf.write (rb.dataPos address + offset) bytes }

end RingBuffer

end Vllm.Shm
