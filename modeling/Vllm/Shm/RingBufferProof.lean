import Mathlib.Data.Int.ModEq
import Vllm.Lib.RingLayout
import Vllm.Lib.Run
import Vllm.Shm.RingBuffer

/-!
# The allocations of the ring buffer

`RingBuffer.Live rb blocks` lists the live allocations in the coordinates of the cursors. Addresses
agree with positions modulo the buffer size only.
-/

namespace Vllm.Shm

open RingLayout Machine List OrderedDict RingBuffer

/-- A live allocation: its id, recorded address, position and size (with the metadata). -/
structure Block where
  id : ℕ
  addr : ℕ
  pos : ℕ
  size : ℕ

def Block.interval (b : Block) : ℕ × ℕ := (b.pos, b.size)

namespace RingBuffer

variable {rb rb' : RingBuffer} {blocks : List Block} {b : Block}

/-- The block lies in the buffer and its header is intact. -/
structure BlockOk (rb : RingBuffer) (b : Block) : Prop where
  size : mdSize < b.size
  addr : b.addr % rb.dataBufferSize = b.pos % rb.dataBufferSize
  fits : Fits rb.dataBufferSize b.interval
  header : rb.header b.addr = ((b.id : ℤ), (b.size : ℤ))

/-- `blocks` are the live allocations, the oldest first. -/
structure Live (rb : RingBuffer) (blocks : List Block) : Prop where
  pos : 0 < rb.dataBufferSize
  idStart : rb.monotonicIdStart < idMax
  count : blocks.length < idMax
  ids : blocks.map Block.id = (List.range blocks.length).map fun i =>
    (rb.monotonicIdStart + i) % idMax
  idEnd : rb.monotonicIdEnd = (rb.monotonicIdStart + blocks.length) % idMax
  metadata : rb.metadata.entries = blocks.map fun b => (b.id, b.addr)
  start : ∀ b ∈ blocks.head?, b.pos = rb.dataBufferStart
  empty : blocks = [] → rb.dataBufferStart = 0 ∧ rb.dataBufferEnd = 0
  laid : Laid rb.dataBufferStart (blocks.map Block.interval) rb.dataBufferEnd
  span : rb.dataBufferEnd ≤ rb.dataBufferStart + rb.dataBufferSize
  ok : ∀ b ∈ blocks, BlockOk rb b

lemma BlockOk.interval_mod (h : BlockOk rb b) :
    b.addr % rb.dataBufferSize + b.size ≤ rb.dataBufferSize := by
  rw [h.addr]
  exact h.fits

namespace Live

lemma nodup_ids (h : Live rb blocks) : (blocks.map Block.id).Nodup := by
  have hkeys : rb.metadata.entries.map Prod.fst = blocks.map Block.id := by
    rw [h.metadata, map_map]
    rfl
  exact hkeys ▸ rb.metadata.nodup

lemma disjoint (h : Live rb blocks) : blocks.Pairwise fun a b =>
    a.addr % rb.dataBufferSize + a.size ≤ b.addr % rb.dataBufferSize ∨
    b.addr % rb.dataBufferSize + b.size ≤ a.addr % rb.dataBufferSize := by
  have hpairs := h.laid.pairwise
  rw [pairwise_map] at hpairs
  refine hpairs.imp_of_mem fun {a b} ha hb hab => ?_
  rw [(h.ok a ha).addr, (h.ok b hb).addr]
  have hlo := (h.laid.bounds (mem_map_of_mem ha)).1
  have hhi := (h.laid.bounds (mem_map_of_mem hb)).2
  refine mod_disjoint h.pos hab ?_
  exact hhi.trans (h.span.trans (Nat.add_le_add_right hlo _))

end Live

variable {bytes : List UInt8}

lemma header_write {p address : ℕ} (h : address % rb.dataBufferSize + mdSize ≤ p ∨
      p + bytes.length ≤ address % rb.dataBufferSize) :
    header { rb with buf := rb.buf.write p bytes } address = rb.header address := by
  unfold mdSize at h
  unfold header
  dsimp only
  rw [Memory.read_write_of_disjoint (by omega), Memory.read_write_of_disjoint (by omega)]

lemma BlockOk.write {p : ℕ} (h : BlockOk rb b) (hdisj : b.addr % rb.dataBufferSize + b.size ≤ p ∨
      p + bytes.length ≤ b.addr % rb.dataBufferSize) :
    BlockOk { rb with buf := rb.buf.write p bytes } b where
  __ := h
  header := by
    have hsize := h.size
    rw [header_write (by omega)]
    exact h.header

lemma BlockOk.of_eq (h : BlockOk rb b) (hsize : rb'.dataBufferSize = rb.dataBufferSize)
    (hbuf : rb'.buf = rb.buf) : BlockOk rb' b where
  size := h.size
  addr := by rw [hsize]; exact h.addr
  fits := by rw [hsize]; exact h.fits
  header := by rw [← h.header, RingBuffer.header, RingBuffer.header, hsize, hbuf]

variable (h : Live rb blocks)
include h

lemma Live.disjoint_of_ne {a : Block} (ha : a ∈ blocks) (hb : b ∈ blocks)
    (hne : a.id ≠ b.id) : a.addr % rb.dataBufferSize + a.size ≤ b.addr % rb.dataBufferSize ∨
      b.addr % rb.dataBufferSize + b.size ≤ a.addr % rb.dataBufferSize := by
  have : Std.Symm fun a b : Block => a.addr % rb.dataBufferSize + a.size ≤
    b.addr % rb.dataBufferSize ∨
      b.addr % rb.dataBufferSize + b.size ≤ a.addr % rb.dataBufferSize := ⟨fun _ _ h => h.symm⟩
  exact h.disjoint.forall ha hb fun heq => hne (heq ▸ rfl)

lemma Live.writeData {offset : ℕ} (hb : b ∈ blocks)
    (hle : mdSize + offset + bytes.length ≤ b.size) :
    Live (rb.writeData b.addr offset bytes) blocks :=
  { h with
    ok := by
      intro b' hb'
      by_cases heq : b'.id = b.id
      · obtain rfl : b' = b := inj_on_of_nodup_map h.nodup_ids hb' hb heq
        refine { h.ok b' hb' with header := ?_ }
        rw [← (h.ok b' hb').header]
        exact header_write (.inl (Nat.le_add_right _ _))
      refine (h.ok b' hb').write ?_
      have hdisj := h.disjoint_of_ne hb' hb heq
      unfold dataPos
      omega }

omit h

/-! ## Allocating -/

section allocate

variable {size : ℕ}

lemma le_bufferEndReset (hN : 0 < rb.dataBufferSize) (size : ℕ) :
    rb.dataBufferEnd ≤ rb.bufferEndReset size := by
  unfold bufferEndReset
  split
  · rw [add_mul]
    have := Nat.div_add_mod' rb.dataBufferEnd rb.dataBufferSize
    have := Nat.mod_lt rb.dataBufferEnd hN
    omega
  · exact le_rfl

lemma fits_bufferEndReset (hN : 0 < rb.dataBufferSize)
    (hstart : rb.dataBufferStart ≤ rb.dataBufferEnd)
    (hspace : rb.bufferEndReset size + size ≤ rb.dataBufferSize + rb.dataBufferStart) :
    Fits rb.dataBufferSize (rb.bufferEndReset size, size) := by
  have hle := le_bufferEndReset hN size
  unfold Fits
  dsimp only
  by_cases h : rb.dataBufferEnd % rb.dataBufferSize + size > rb.dataBufferSize
  · have hreset : rb.bufferEndReset size = (rb.dataBufferEnd / rb.dataBufferSize + 1) *
      rb.dataBufferSize := if_pos h
    rw [hreset, Nat.mul_mod_left]
    omega
  have hreset : rb.bufferEndReset size = rb.dataBufferEnd := if_neg h
  rw [hreset]
  omega

lemma bufferEndReset_of_empty (hend : rb.dataBufferEnd = 0)
    (hspace : rb.bufferEndReset size + size ≤ rb.dataBufferSize) : rb.bufferEndReset size = 0 := by
  unfold bufferEndReset at hspace ⊢
  rw [hend, Nat.zero_mod, Nat.zero_div, Nat.zero_add, Nat.one_mul] at hspace ⊢
  split at hspace
  · omega
  next h => rw [if_neg h]

section

variable (h : Live rb blocks)
include h

lemma Live.disjoint_reset
    (hspace : rb.bufferEndReset size + size ≤ rb.dataBufferSize + rb.dataBufferStart)
    (hb : b ∈ blocks) :
    b.addr % rb.dataBufferSize + b.size ≤ rb.bufferEndReset size % rb.dataBufferSize ∨
    rb.bufferEndReset size % rb.dataBufferSize + size ≤ b.addr % rb.dataBufferSize := by
  obtain ⟨hlo, hhi⟩ := h.laid.bounds (mem_map_of_mem hb)
  have hreset := le_bufferEndReset h.pos size
  rw [(h.ok b hb).addr]
  refine mod_disjoint (x := b.interval) (y := (rb.bufferEndReset size, size)) h.pos
    (hhi.trans hreset) ?_
  omega

lemma Live.moveEnd {e : ℕ} (hend : rb.dataBufferEnd ≤ e)
    (hspan : e ≤ rb.dataBufferStart + rb.dataBufferSize) (hemp : blocks = [] → e = 0) :
    Live { rb with dataBufferEnd := e } blocks :=
  { h with
    empty := fun hnil => ⟨(h.empty hnil).1, hemp hnil⟩
    laid := h.laid.mono hend
    span := hspan
    ok := fun b hb => (h.ok b hb).of_eq rfl rfl }

lemma Live.write (p : ℕ) (bytes : List UInt8)
    (hdisj : ∀ b ∈ blocks, b.addr % rb.dataBufferSize + b.size ≤ p ∨
      p + bytes.length ≤ b.addr % rb.dataBufferSize) :
    Live { rb with buf := rb.buf.write p bytes } blocks :=
  { h with ok := fun b hb => (h.ok b hb).write (hdisj b hb) }

lemma Live.idEnd_lt : rb.monotonicIdEnd < idMax := by
  rw [h.idEnd]
  exact Nat.mod_lt _ (by decide)

lemma Live.idEnd_not_mem : rb.monotonicIdEnd ∉ rb.metadata.keys := by
  rw [OrderedDict.keys, h.metadata, map_map]
  show _ ∉ blocks.map Block.id
  rw [h.ids, h.idEnd, mem_map]
  rintro ⟨i, hi, heq⟩
  have hi := mem_range.mp hi
  have hcnt := h.count
  have hmod : i % idMax = blocks.length % idMax := Nat.ModEq.add_left_cancel' _ heq
  rw [Nat.mod_eq_of_lt (by omega), Nat.mod_eq_of_lt hcnt] at hmod
  omega

lemma Live.append (hcnt : blocks.length + 1 < idMax) (hok : BlockOk rb b)
    (hid : b.id = rb.monotonicIdEnd) (hstart : blocks = [] → b.pos = rb.dataBufferStart)
    (hlaid : rb.dataBufferEnd ≤ b.pos)
    (hspan : b.pos + b.size ≤ rb.dataBufferStart + rb.dataBufferSize) :
    Live { rb with
      metadata := rb.metadata.set (rb.monotonicIdEnd % idMax) b.addr
      dataBufferEnd := b.pos + b.size
      monotonicIdEnd := (rb.monotonicIdEnd + 1) % idMax } (blocks ++ [b]) where
  __ := h
  count := by rwa [length_append]
  ids := by
    rw [map_append, h.ids, length_append, length_singleton, range_succ]
    simp [hid, h.idEnd]
  idEnd := by
    rw [h.idEnd, length_append, length_singleton, ← Nat.add_assoc, Nat.mod_add_mod]
  metadata := by
    rw [Nat.mod_eq_of_lt h.idEnd_lt, entries_set h.idEnd_not_mem, h.metadata, map_append, ← hid]
    rfl
  start := by
    cases blocks with
    | nil =>
      intro b' hb'
      cases hb'
      exact hstart rfl
    | cons b0 rest => exact h.start
  empty := by simp
  laid := by
    rw [map_append]
    exact Laid.append_singleton.mpr ⟨h.laid.mono hlaid, le_rfl⟩
  span := hspan
  ok := by
    intro b' hb'
    rcases mem_append.mp hb' with hb' | hb'
    · exact (h.ok b' hb').of_eq rfl rfl
    · obtain rfl := mem_singleton.mp hb'
      exact hok.of_eq rfl rfl

end

lemma recordBuf_cases (hid : rb.monotonicIdEnd < idMax) (size : ℕ) :
    ∃ idBytes, int2byte rb.monotonicIdEnd = .ok idBytes ∧
    ((∃ e, rb.recordBuf size = (.error e, { rb with
        dataBufferEnd := rb.bufferEndReset size
        buf := rb.buf.write (rb.bufferEndReset size % rb.dataBufferSize) idBytes })) ∨
    (∃ sizeBytes, int2byte size = .ok sizeBytes ∧
      rb.recordBuf size = (.ok (rb.bufferEndReset size, rb.monotonicIdEnd), { rb with
        buf := (rb.buf.write (rb.bufferEndReset size % rb.dataBufferSize) idBytes).write
          (rb.bufferEndReset size % rb.dataBufferSize + idNbytes) sizeBytes
        metadata := rb.metadata.set (rb.monotonicIdEnd % idMax) (rb.bufferEndReset size)
        dataBufferEnd := rb.bufferEndReset size + size
        monotonicIdEnd := (rb.monotonicIdEnd + 1) % idMax }))) := by
  obtain ⟨idBytes, hidBytes⟩ := exists_int2byte hid
  refine ⟨idBytes, hidBytes, ?_⟩
  cases hsizeBytes : int2byte size with
  | error e =>
    refine .inl ⟨e, ?_⟩
    simp only [recordBuf, hidBytes, hsizeBytes]
  | ok sizeBytes =>
    refine .inr ⟨sizeBytes, rfl, ?_⟩
    simp only [recordBuf, hidBytes, hsizeBytes]

/-- `allocate_buf` adds a block at the end, or raises and the allocations are as before. -/
inductive Allocated (rb : RingBuffer) (blocks : List Block) (size : ℕ) :
    Py (ℕ × ℕ) × RingBuffer → Prop
  | raised {e : PyError} {rb' : RingBuffer} (live : Live rb' blocks) :
    Allocated rb blocks size (.error e, rb')
  | block {b : Block} {rb' : RingBuffer} (live : Live rb' (blocks ++ [b]))
    (hid : b.id = rb.monotonicIdEnd)
      (hsize : b.size = size) : Allocated rb blocks size (.ok (b.addr, b.id), rb')

include h

/-- A new block behind the others overlaps none of them. -/
lemma Live.recordBuf (hcnt : blocks.length + 1 < idMax) (hsize : mdSize < size)
    (hspace : rb.bufferEndReset size + size ≤ rb.dataBufferSize + rb.dataBufferStart) :
    Allocated rb blocks size (rb.recordBuf size) := by
  have hend := le_bufferEndReset h.pos size
  have hfits := fits_bufferEndReset h.pos h.laid.le hspace
  have hemp : blocks = [] → rb.bufferEndReset size = 0 := by
    intro hnil
    obtain ⟨hstart, hend⟩ := h.empty hnil
    exact bufferEndReset_of_empty hend (by omega)
  have hdisj := fun b (hb : b ∈ blocks) => h.disjoint_reset hspace hb
  have hmv : Live { rb with dataBufferEnd := rb.bufferEndReset size } blocks :=
    h.moveEnd hend (by omega) hemp
  obtain ⟨idBytes, hidBytes, hcases⟩ := recordBuf_cases h.idEnd_lt size
  have hidLen := length_int2byte hidBytes
  unfold mdSize at hsize
  -- the id is written in front of the free interval
  have hwritten := hmv.write (rb.bufferEndReset size % rb.dataBufferSize) idBytes
    fun b hb => (hdisj b hb).imp_right fun hle => by dsimp only; omega
  rcases hcases with ⟨e, heq⟩ | ⟨sizeBytes, hsizeBytes, heq⟩
  · rw [heq]
    exact .raised hwritten
  have hsizeLen := length_int2byte hsizeBytes
  have hlive := hwritten.write (rb.bufferEndReset size % rb.dataBufferSize + idNbytes) sizeBytes
    fun b hb => (hdisj b hb).imp (fun hle => by dsimp only; omega) fun hle => by dsimp only; omega
  rw [heq]
  let b : Block :=
    { id := rb.monotonicIdEnd
      addr := rb.bufferEndReset size
      pos := rb.bufferEndReset size
      size := size }
  refine .block (b := b) (hlive.append (b := b) hcnt ?_ rfl (fun hnil => ?_) le_rfl ?_) rfl rfl
  · refine { size := hsize, addr := rfl, fits := hfits, header := ?_ }
    unfold header
    dsimp only [b]
    -- the size stands behind the id
    rw [Memory.read_write_of_disjoint (by omega)]
    have hread : ∀ (m : Memory) (p : ℕ) (bytes : List UInt8), bytes.length = idNbytes →
        (m.write p bytes).read p idNbytes = bytes := by
      intro m p bytes hlen
      rw [← hlen]
      exact Memory.read_write_self
    rw [hread _ _ _ hidLen, hread _ _ _ hsizeLen, byte2int_int2byte hidBytes,
      byte2int_int2byte hsizeBytes]
  · exact (hemp hnil).trans (h.empty hnil).1.symm
  · dsimp only [b]
    omega

lemma Live.allocateBuf {n : ℤ} (hcnt : blocks.length + 1 < idMax) :
    Allocated rb blocks (n.toNat + mdSize) (rb.allocateBuf n) := by
  unfold RingBuffer.allocateBuf
  split
  · exact .raised h
  rename_i hn
  dsimp only
  split
  · exact .raised h
  next hspace => exact h.recordBuf hcnt (by omega) (Nat.le_of_not_lt hspace)

end allocate

/-! ## Releasing -/

lemma entries_erase_head {d : OrderedDict ℕ ℕ} {k v : ℕ} {l : List (ℕ × ℕ)}
    (h : d.entries = (k, v) :: l) :
    (d.erase k).entries = l := by
  have hnd := d.nodup
  rw [h, map_cons, nodup_cons] at hnd
  show d.entries.filter (·.1 ≠ k) = l
  rw [h, filter_cons_of_neg (by simp), filter_eq_self]
  exact fun e he => decide_eq_true fun heq => hnd.1 (mem_map.mpr ⟨e, he, heq⟩)

section release

variable {rest : List Block}

lemma Live.ids_cons (h : Live rb (b :: rest)) : b.id = rb.monotonicIdStart ∧
    rest.map Block.id = (range rest.length).map fun i =>
    ((rb.monotonicIdStart + 1) % idMax + i) % idMax := by
  have hids := h.ids
  rw [length_cons, range_succ_eq_map, map_cons, map_cons, map_map, cons.injEq,
    add_zero, Nat.mod_eq_of_lt h.idStart] at hids
  refine ⟨hids.1, hids.2.trans (map_congr_left fun i _ => ?_)⟩
  show (rb.monotonicIdStart + (i + 1)) % idMax = _
  rw [Nat.mod_add_mod]
  congr 1
  omega

lemma Live.get?_start (h : Live rb (b :: rest)) :
    rb.metadata.get? rb.monotonicIdStart = some b.addr := by
  rw [get?_eq_some_iff, h.metadata, ← h.ids_cons.1]
  exact mem_cons_self

lemma next_pos (start N : ℕ) {addr pos : ℕ} (hlo : start ≤ pos) (hhi : pos < start + N)
    (haddr : addr % N = pos % N) :
    start + (((addr : ℤ) - start) % N).toNat = pos := by
  have hmod : ((addr : ℤ) - start) % N = ((pos : ℤ) - start) % N := by
    refine Int.ModEq.sub_right _ ?_
    exact Int.natCast_modEq_iff.mpr haddr
  rw [hmod, Int.emod_eq_of_lt (by omega) (by omega)]
  omega

/-- Freeing the oldest block leaves the others intact. -/
lemma Live.release (h : Live rb (b :: rest)) : Live rb.release rest := by
  obtain ⟨hid, hids⟩ := h.ids_cons
  have hcnt := h.count
  rw [length_cons] at hcnt
  have hmeta : (rb.metadata.erase rb.monotonicIdStart).entries = rest.map fun b => (b.id, b.addr) :=
    entries_erase_head (by rw [h.metadata, map_cons, hid])
  have hend : rb.monotonicIdEnd = ((rb.monotonicIdStart + 1) % idMax + rest.length) % idMax := by
    rw [h.idEnd, length_cons, Nat.mod_add_mod]
    congr 1
    omega
  have hok : ∀ b' ∈ rest, BlockOk rb b' := fun b' hb' => h.ok b' (mem_cons_of_mem _ hb')
  have hlaid := h.laid
  unfold RingBuffer.release
  cases rest with
  | nil =>
    have hnone : (rb.metadata.erase rb.monotonicIdStart).get? ((rb.monotonicIdStart + 1) % idMax) =
      none := by
      rw [get?_eq_none_iff, OrderedDict.keys, hmeta]
      exact not_mem_nil
    dsimp only
    rw [hnone]
    exact {
      pos := h.pos
      idStart := Nat.mod_lt _ (by decide)
      count := by decide
      ids := rfl
      idEnd := hend
      metadata := hmeta
      start := fun _ e => by cases e
      empty := fun _ => ⟨rfl, rfl⟩
      laid := le_rfl
      span := Nat.zero_le _
      ok := fun _ hb => by cases hb }
  | cons b' rest =>
    have hid' : b'.id = (rb.monotonicIdStart + 1) % idMax := by
      rw [map_cons, length_cons, range_succ_eq_map, map_cons, cons.injEq] at hids
      rw [hids.1, add_zero, Nat.mod_mod]
    have hsome : (rb.metadata.erase rb.monotonicIdStart).get? ((rb.monotonicIdStart + 1) % idMax) =
      some b'.addr := by
      rw [get?_eq_some_iff, hmeta, ← hid']
      exact mem_cons_self
    have hsize := (hok b' mem_cons_self).size
    have hspan := h.span
    have hstart : b.pos = rb.dataBufferStart := h.start b rfl
    obtain ⟨-, hle, htail⟩ := hlaid
    have hbounds : b'.pos + b'.size ≤ rb.dataBufferEnd := htail.le
    have hle : b.pos + b.size ≤ b'.pos := hle
    have hpos := next_pos rb.dataBufferStart rb.dataBufferSize (by omega) (by omega)
      (hok b' mem_cons_self).addr
    dsimp only
    rw [hsome]
    dsimp only
    rw [hpos]
    exact {
      pos := h.pos
      idStart := Nat.mod_lt _ (by decide)
      count := by omega
      ids := hids
      idEnd := hend
      metadata := hmeta
      start := by
        intro b1 hb1
        cases hb1
        rfl
      empty := fun e => by cases e
      laid := ⟨le_rfl, htail⟩
      span := by dsimp only; omega
      ok := fun b1 hb1 => (hok b1 hb1).of_eq rfl rfl }

lemma release_frame (rb : RingBuffer) :
    rb.release.buf = rb.buf ∧ rb.release.dataBufferSize = rb.dataBufferSize ∧
    rb.release.monotonicIdStart = (rb.monotonicIdStart + 1) % idMax := by
  unfold RingBuffer.release
  dsimp only
  split <;> exact ⟨rfl, rfl, rfl⟩

lemma dataView_congr (hbuf : rb'.buf = rb.buf) (hsize : rb'.dataBufferSize = rb.dataBufferSize)
    (address : ℕ) :
    rb'.dataView address = rb.dataView address := by
  unfold dataView dataPos header
  rw [hbuf, hsize]

/-- The loop of `free_buf` releases the `k` oldest blocks, all of which are free. -/
structure Freed (isFreeFn : ℕ → List UInt8 → Bool) (rb : RingBuffer) (blocks : List Block) (k : ℕ)
    (rb' : RingBuffer) : Prop where
  le : k ≤ blocks.length
  idStart : rb'.monotonicIdStart = (rb.monotonicIdStart + k) % idMax
  buf : rb'.buf = rb.buf
  size : rb'.dataBufferSize = rb.dataBufferSize
  free : ∀ b ∈ blocks.take k, isFreeFn b.id (rb.dataView b.addr) = true

include h in
lemma Live.freeLoop (isFreeFn : ℕ → List UInt8 → Bool) (nbytes freedBytes : ℤ) (fuel : ℕ) :
    ∃ k, Freed isFreeFn rb blocks k (freeLoop isFreeFn nbytes fuel freedBytes rb) ∧
      Live (freeLoop isFreeFn nbytes fuel freedBytes rb) (blocks.drop k) := by
  have hnone : ∀ {rb : RingBuffer} {blocks : List Block}, Live rb blocks →
      ∃ k, Freed isFreeFn rb blocks k rb ∧ Live rb (blocks.drop k) := by
    intro rb blocks h
    refine ⟨0, ⟨Nat.zero_le _, ?_, rfl, rfl, ?_⟩, h⟩
    · rw [add_zero, Nat.mod_eq_of_lt h.idStart]
    · exact nofun
  induction fuel generalizing rb blocks freedBytes with
  | zero => exact hnone h
  | succ fuel ih =>
    unfold freeLoop
    split
    · exact hnone h
    next address hadr =>
    split
    case isFalse => exact hnone h
    next hfree =>
    -- the oldest block is free
    cases blocks with
    | nil =>
      have hmem := get?_eq_some_iff.mp hadr
      rw [h.metadata] at hmem
      cases hmem
    | cons b rest =>
      obtain rfl : b.addr = address := Option.some.inj (h.get?_start.symm.trans hadr)
      obtain ⟨k, hfreed, hlive⟩ := ih h.release (freedBytes + (rb.header b.addr).2)
      obtain ⟨hbuf, hsize, hstart⟩ := release_frame rb
      refine ⟨k + 1, ⟨?_, ?_, hfreed.buf.trans hbuf, hfreed.size.trans hsize, ?_⟩, hlive⟩
      · exact Nat.succ_le_succ hfreed.le
      · rw [hfreed.idStart, hstart, Nat.mod_add_mod]
        congr 1
        omega
      rw [take_succ_cons, forall_mem_cons]
      refine ⟨h.ids_cons.1 ▸ hfree.2, fun b' hb' => ?_⟩
      rw [← dataView_congr hbuf hsize]
      exact hfreed.free b' hb'

end release

def Block.key (b : Block) : ℕ × ℕ × ℕ := (b.id, b.addr, b.size)

def Block.back (N : ℕ) (b : Block) : Block := { b with pos := b.pos - N }

include h in
lemma Live.rebase :
    ∃ blocks', Live rb.rebase blocks' ∧ blocks'.map Block.key = blocks.map Block.key := by
  unfold RingBuffer.rebase
  split
  case isFalse => exact ⟨blocks, h, rfl⟩
  next hge =>
  refine ⟨blocks.map (Block.back rb.dataBufferSize), ?_, map_map⟩
  have hpos : ∀ b ∈ blocks, rb.dataBufferSize ≤ b.pos := fun b hb =>
    le_trans hge (h.laid.bounds (mem_map_of_mem hb)).1
  have hspan := h.span
  have hlaid := h.laid.shift hge
  rw [map_map] at hlaid
  refine {
    pos := h.pos
    idStart := h.idStart
    count := by rw [length_map]; exact h.count
    ids := by rw [map_map, length_map]; exact h.ids
    idEnd := by rw [length_map]; exact h.idEnd
    metadata := by rw [map_map]; exact h.metadata
    start := ?_
    empty := ?_
    laid := by rw [map_map]; exact hlaid
    span := by dsimp only; omega
    ok := ?_ }
  · intro b hb
    rw [head?_map, Option.mem_map] at hb
    obtain ⟨b0, hb0, rfl⟩ := hb
    show b0.pos - rb.dataBufferSize = _
    rw [h.start b0 hb0]
  · intro hnil
    have := (h.empty (map_eq_nil_iff.mp hnil)).1
    have := h.pos
    omega
  rw [forall_mem_map]
  intro b hb
  have hmod : (b.pos - rb.dataBufferSize) % rb.dataBufferSize = b.pos % rb.dataBufferSize :=
    (Nat.mod_eq_sub_mod (hpos b hb)).symm
  have hok := h.ok b hb
  refine { size := hok.size, addr := hok.addr.trans hmod.symm, fits := ?_, header := hok.header }
  show (b.pos - rb.dataBufferSize) % rb.dataBufferSize + b.size ≤ rb.dataBufferSize
  rw [hmod]
  exact hok.fits

lemma rebase_frame (rb : RingBuffer) :
    rb.rebase.buf = rb.buf ∧ rb.rebase.dataBufferSize = rb.dataBufferSize ∧
    rb.rebase.monotonicIdStart = rb.monotonicIdStart := by
  unfold RingBuffer.rebase
  split <;> exact ⟨rfl, rfl, rfl⟩

lemma idsFrom_eq {before k : ℕ} (hbef : before < idMax) (hk : k < idMax) :
    idsFrom before ((before + k) % idMax) = (range k).map fun i => (before + i) % idMax := by
  unfold idsFrom
  rcases lt_or_ge (before + k) idMax with hlt | hge
  · rw [Nat.mod_eq_of_lt hlt, if_pos (by omega), Nat.add_sub_cancel_left, range'_eq_map_range]
    refine map_congr_left fun i hi => ?_
    rw [mem_range] at hi
    rw [Nat.mod_eq_of_lt (by omega)]
  have hmod : (before + k) % idMax = before + k - idMax := by
    rw [Nat.mod_eq_sub_mod hge, Nat.mod_eq_of_lt (by omega)]
  obtain ⟨j, rfl⟩ : ∃ j, k = idMax - before + j := ⟨k - (idMax - before), by omega⟩
  rw [hmod, if_neg (by omega), range_add, map_append, range'_eq_map_range, map_map]
  refine congrArg₂ (· ++ ·) ?_ ?_
  · refine map_congr_left fun i hi => ?_
    rw [mem_range] at hi
    rw [Nat.mod_eq_of_lt (by omega)]
  have hj : before + (idMax - before + j) - idMax = j := by omega
  rw [hj]
  conv_lhs => rw [← map_id (range j)]
  refine map_congr_left fun i hi => ?_
  rw [mem_range] at hi
  show i = (before + (idMax - before + i)) % idMax
  have : before + (idMax - before + i) = i + idMax := by omega
  rw [this, Nat.add_mod_right, Nat.mod_eq_of_lt (by omega)]

include h in
lemma Live.freeBuf (isFreeFn : ℕ → List UInt8 → Bool) (nbytes : Option ℤ) :
    ∃ k blocks', Freed isFreeFn rb blocks k (rb.freeBuf isFreeFn nbytes).2 ∧
      Live (rb.freeBuf isFreeFn nbytes).2 blocks' ∧
      blocks'.map Block.key = (blocks.drop k).map Block.key ∧
      (rb.freeBuf isFreeFn nbytes).1 = (blocks.take k).map Block.id := by
  obtain ⟨k, hfreed, hlive⟩ :=
    h.freeLoop isFreeFn (nbytes.getD rb.dataBufferSize) 0 rb.metadata.length
  obtain ⟨blocks', hlive', hkeys⟩ := hlive.rebase
  obtain ⟨hbuf, hsize, hstart⟩ :=
    rebase_frame (RingBuffer.freeLoop isFreeFn (nbytes.getD rb.dataBufferSize)
    rb.metadata.length 0 rb)
  refine ⟨k, blocks', ?_, hlive', hkeys, ?_⟩
  · exact { hfreed with
      idStart := hstart.trans hfreed.idStart
      buf := hbuf.trans hfreed.buf
      size := hsize.trans hfreed.size }
  unfold RingBuffer.freeBuf
  dsimp only
  have hk : k < idMax := hfreed.le.trans_lt h.count
  rw [hstart, hfreed.idStart, idsFrom_eq h.idStart hk, map_take, h.ids, ← map_take, take_range,
    min_eq_left hfreed.le]

end RingBuffer

end Vllm.Shm
