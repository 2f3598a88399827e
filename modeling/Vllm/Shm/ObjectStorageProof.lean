import Vllm.Shm.ObjectStorage
import Vllm.Shm.RingBufferRuns

/-! # The objects in the storage -/

namespace Vllm.Shm

open OrderedDict List Function

namespace RingBuffer

variable {rb rb' : RingBuffer} {blocks : List Block} {b : Block} {bytes : List UInt8}

lemma BlockOk.dataView_write {p : ℕ} (h : BlockOk rb b)
    (hdisj : b.addr % rb.dataBufferSize + b.size ≤ p ∨
      p + bytes.length ≤ b.addr % rb.dataBufferSize) :
    RingBuffer.dataView { rb with buf := rb.buf.write p bytes } b.addr = rb.dataView b.addr := by
  have hsize := h.size
  have hheader := h.header
  unfold RingBuffer.dataView dataPos
  rw [header_write (by omega), hheader]
  exact Memory.read_write_of_disjoint (by dsimp only; omega)

lemma Live.dataView_allocateBuf {n : ℤ} (h : Live rb blocks) (hb : b ∈ blocks) :
    (rb.allocateBuf n).2.dataView b.addr = rb.dataView b.addr := by
  unfold RingBuffer.allocateBuf
  split
  · rfl
  dsimp only
  split
  · rfl
  next hspace =>
  generalize hsize : n.toNat + mdSize = size at hspace ⊢
  unfold mdSize at hsize
  have hdisj := h.disjoint_reset (Nat.le_of_not_lt hspace) hb
  obtain ⟨idBytes, hidBytes, hcases⟩ := recordBuf_cases h.idEnd_lt size
  have hidLen := length_int2byte hidBytes
  -- first the id is written
  have hfst : b.addr % rb.dataBufferSize + b.size ≤ rb.bufferEndReset size % rb.dataBufferSize ∨
      rb.bufferEndReset size % rb.dataBufferSize + idBytes.length ≤ b.addr % rb.dataBufferSize :=
    hdisj.imp_right fun hle => by omega
  have hview := (h.ok b hb).dataView_write hfst
  rcases hcases with ⟨e, heq⟩ | ⟨sizeBytes, hsizeBytes, heq⟩
  · rw [heq, ← hview]
    exact dataView_congr rfl rfl _
  have hsizeLen := length_int2byte hsizeBytes
  have hsecond : b.addr % rb.dataBufferSize + b.size ≤ rb.bufferEndReset size % rb.dataBufferSize +
    idNbytes ∨
      rb.bufferEndReset size % rb.dataBufferSize + idNbytes + sizeBytes.length ≤
        b.addr % rb.dataBufferSize :=
    hdisj.imp (fun hle => by omega) fun hle => by omega
  rw [heq, ← hview, ← ((h.ok b hb).write hfst).dataView_write hsecond]
  exact dataView_congr rfl rfl _

lemma BlockOk.readerCount (h : BlockOk rb b) (hroom : mdSize + flagBytes ≤ b.size) :
    rb.readerCount b.addr = byte2int (rb.buf.read (rb.dataPos b.addr) flagBytes) := by
  unfold RingBuffer.readerCount RingBuffer.dataView
  rw [h.header, Memory.take_read]
  omega

lemma BlockOk.readerCount_writeData (h : BlockOk rb b) (hroom : mdSize + flagBytes ≤ b.size)
    (hlen : bytes.length = flagBytes) :
    (rb.writeData b.addr 0 bytes).readerCount b.addr = byte2int bytes := by
  have hok : BlockOk (rb.writeData b.addr 0 bytes) b := by
    refine { h with header := ?_ }
    rw [← h.header]
    exact header_write (.inl (Nat.le_add_right _ _))
  rw [hok.readerCount hroom, ← hlen]
  exact congrArg byte2int Memory.read_write_self

lemma BlockOk.readerCount_writeData_object (h : BlockOk rb b)
    (hroom : mdSize + flagBytes ≤ b.size) :
    (rb.writeData b.addr flagBytes bytes).readerCount b.addr = rb.readerCount b.addr := by
  have hok : BlockOk (rb.writeData b.addr flagBytes bytes) b := by
    refine { h with header := ?_ }
    rw [← h.header]
    exact header_write (.inl (by unfold dataPos; omega))
  rw [hok.readerCount hroom, h.readerCount hroom]
  exact congrArg byte2int (Memory.read_write_of_disjoint (.inl le_rfl))

lemma Live.readerCount_writeData {b' : Block} {offset : ℕ} (h : Live rb blocks)
    (hb : b ∈ blocks) (hb' : b' ∈ blocks) (hne : b'.id ≠ b.id)
    (hle : mdSize + offset + bytes.length ≤ b.size) :
    (rb.writeData b.addr offset bytes).readerCount b'.addr = rb.readerCount b'.addr := by
  unfold RingBuffer.readerCount RingBuffer.writeData
  rw [(h.ok b' hb').dataView_write]
  have hdisj := h.disjoint_of_ne hb' hb hne
  unfold dataPos
  omega

end RingBuffer

/-- A stored object, its flag and the number of reads counted in its block. -/
structure Obj where
  key : String
  address : ℕ
  flag : ℕ
  count : ℤ

namespace ObjectStorage

variable {s s' : ObjectStorage} {id : ℕ} {o : Obj}

/-- The storage as a table of objects by id. -/
def obj (s : ObjectStorage) (id : ℕ) : Option Obj := do
  let address ← s.ringBuffer.metadata.get? id
  let key ← s.idIndex.get? id
  let flag ← s.writerFlag.get? id
  some ⟨key, address, flag, s.ringBuffer.readerCount address⟩

/-- The invariant of the storage: its indices and the live blocks of the buffer agree. -/
structure Stored (s : ObjectStorage) : Prop where
  live : ∃ blocks, RingBuffer.Live s.ringBuffer blocks ∧ ∀ b ∈ blocks, mdSize + flagBytes ≤ b.size
  indexed : ∀ i, (s.idIndex.get? i).isSome = (s.ringBuffer.metadata.get? i).isSome
  flagged : ∀ i, (s.writerFlag.get? i).isSome = (s.ringBuffer.metadata.get? i).isSome
  keyed : ∀ key p, s.keyIndex.get? key = some p ↔
    s.ringBuffer.metadata.get? p.2 = some p.1 ∧ s.idIndex.get? p.2 = some key

lemma obj_eq_some_iff : s.obj id = some o ↔ s.ringBuffer.metadata.get? id = some o.address ∧
    s.idIndex.get? id = some o.key ∧ s.writerFlag.get? id = some o.flag ∧
    s.ringBuffer.readerCount o.address = o.count := by
  simp only [obj, Option.bind_eq_bind, Option.bind_eq_some_iff, Option.some.injEq]
  constructor
  · rintro ⟨address, hadr, key, hkey, flag, hflag, rfl⟩
    exact ⟨hadr, hkey, hflag, rfl⟩
  rintro ⟨hadr, hkey, hflag, hcnt⟩
  refine ⟨o.address, hadr, o.key, hkey, o.flag, hflag, ?_⟩
  rw [hcnt]

lemma obj_congr {i : ℕ} (hadr : s'.ringBuffer.metadata.get? i = s.ringBuffer.metadata.get? i)
    (hkey : s'.idIndex.get? i = s.idIndex.get? i)
    (hflag : s'.writerFlag.get? i = s.writerFlag.get? i)
    (hcnt : ∀ address, s.ringBuffer.metadata.get? i = some address →
      s'.ringBuffer.readerCount address = s.ringBuffer.readerCount address) :
      s'.obj i = s.obj i := by
  unfold obj
  rw [hadr, hkey, hflag]
  cases h : s.ringBuffer.metadata.get? i with
  | none => simp only [Option.bind_eq_bind, Option.bind_none]
  | some address => simp only [Option.bind_eq_bind, Option.bind_some, hcnt address h]

lemma obj_eq_none (h : s.ringBuffer.metadata.get? id = none) : s.obj id = none := by
  unfold obj
  rw [h]
  rfl

lemma exists_block (ho : s.obj id = some o) {blocks : List Block}
    (hlive : RingBuffer.Live s.ringBuffer blocks) :
    ∃ b ∈ blocks, b.id = id ∧ b.addr = o.address := by
  have hmem := get?_eq_some_iff.mp (obj_eq_some_iff.mp ho).1
  rw [hlive.metadata] at hmem
  obtain ⟨b, hb, heq⟩ := mem_map.mp hmem
  exact ⟨b, hb, congrArg Prod.fst heq, congrArg Prod.snd heq⟩

namespace Stored

lemma exists_obj (h : Stored s) {address : ℕ}
    (hadr : s.ringBuffer.metadata.get? id = some address) :
    ∃ o, s.obj id = some o ∧ o.address = address := by
  obtain ⟨key, hkey⟩ := Option.isSome_iff_exists.mp ((h.indexed id).trans (by rw [hadr]; rfl))
  obtain ⟨flag, hflag⟩ := Option.isSome_iff_exists.mp ((h.flagged id).trans (by rw [hadr]; rfl))
  exact ⟨⟨key, address, flag, s.ringBuffer.readerCount address⟩,
    obj_eq_some_iff.mpr ⟨hadr, hkey, hflag, rfl⟩, rfl⟩

lemma get?_keyIndex (h : Stored s) {key : String} {address : ℕ} :
    s.keyIndex.get? key = some (address, id) ↔ ∃ o, s.obj id = some o ∧ o.key = key ∧
    o.address = address := by
  rw [h.keyed]
  constructor
  · rintro ⟨hadr, hkey⟩
    obtain ⟨o, ho, rfl⟩ := h.exists_obj hadr
    exact ⟨o, ho, Option.some.inj ((obj_eq_some_iff.mp ho).2.1.symm.trans hkey), rfl⟩
  · rintro ⟨o, ho, rfl, rfl⟩
    exact ⟨(obj_eq_some_iff.mp ho).1, (obj_eq_some_iff.mp ho).2.1⟩

lemma incrementWriterFlag (h : Stored s) (ho : s.obj id = some o) :
    Stored (s.incrementWriterFlag id) := { h with
    flagged := by
      intro i
      show ((s.writerFlag.set id _).get? i).isSome = (s.ringBuffer.metadata.get? i).isSome
      rw [get?_set]
      split
      next heq =>
        rw [heq, (obj_eq_some_iff.mp ho).1]
        rfl
      next => exact h.flagged i }

end Stored

lemma obj_incrementWriterFlag (ho : s.obj id = some o) :
    (s.incrementWriterFlag id).obj = update s.obj id (some { o with flag := o.flag + 1 }) := by
  obtain ⟨hadr, hkey, hflag, hcnt⟩ := obj_eq_some_iff.mp ho
  have hset : ∀ i, (s.incrementWriterFlag id).writerFlag.get? i =
      if i = id then some (o.flag + 1) else s.writerFlag.get? i := by
    intro i
    show (s.writerFlag.set id _).get? i = _
    rw [get?_set, hflag]
    rfl
  funext i
  rcases eq_or_ne i id with rfl | hi
  · rw [update_self]
    exact obj_eq_some_iff.mpr ⟨hadr, hkey, (hset i).trans (if_pos rfl), hcnt⟩
  · rw [update_of_ne hi]
    exact obj_congr rfl rfl ((hset i).trans (if_neg hi)) fun _ _ => rfl

lemma obj_incrementWriterFlag_self (ho : s.obj id = some o) :
    (s.incrementWriterFlag id).obj id = some { o with flag := o.flag + 1 } := by
  rw [obj_incrementWriterFlag ho, update_self]

lemma Stored.incrementReaderFlag (h : Stored s) (ho : s.obj id = some o) {rb : RingBuffer}
    (heq : s.ringBuffer.incrementReaderFlag o.address = .ok rb) :
    Stored { s with ringBuffer := rb } ∧
      ({ s with ringBuffer := rb } : ObjectStorage).obj =
        update s.obj id (some { o with count := o.count + 1 }) := by
  obtain ⟨blocks, hlive, hroom⟩ := h.live
  obtain ⟨b, hb, hid, haddr⟩ := exists_block ho hlive
  obtain ⟨bytes, hbytes, ⟨⟩⟩ := of_bind heq
  have hlen : bytes.length = flagBytes := length_int2byte hbytes
  have hle : mdSize + 0 + bytes.length ≤ b.size := by
    have := hroom b hb
    omega
  obtain ⟨hadr, hkey, hflag, hcnt⟩ := obj_eq_some_iff.mp ho
  constructor
  · refine { h with live := ⟨blocks, ?_, hroom⟩ }
    rw [← haddr]
    exact hlive.writeData hb hle
  funext i
  rcases eq_or_ne i id with rfl | hi
  · rw [update_self]
    refine obj_eq_some_iff.mpr ⟨hadr, hkey, hflag, ?_⟩
    dsimp only
    rw [← haddr, (hlive.ok b hb).readerCount_writeData (hroom b hb) hlen, byte2int_int2byte hbytes,
      hcnt]
  rw [update_of_ne hi]
  refine obj_congr rfl rfl rfl fun address hadr' => ?_
  obtain ⟨o', ho', rfl⟩ := h.exists_obj hadr'
  obtain ⟨b', hb', hid', haddr'⟩ := exists_block ho' hlive
  rw [← haddr, ← haddr']
  exact hlive.readerCount_writeData hb hb' (by rw [hid, hid']; exact hi) hle

/-! ## Freeing -/

/-- Only objects that all readers have read were removed. -/
structure Removed (s s' : ObjectStorage) : Prop where
  obj : ∀ i, s'.obj i = s.obj i ∨ s'.obj i = none ∧ ∃ o, s.obj i = some o ∧
    (o.flag * s.nReaders : ℤ) ≤ o.count
  nReaders : s'.nReaders = s.nReaders

lemma Removed.refl (s : ObjectStorage) : Removed s s := ⟨fun _ => .inl rfl, rfl⟩

lemma Removed.of_some (h : Removed s s') (ho : s'.obj id = some o) : s.obj id = some o := by
  rcases h.obj id with heq | ⟨heq, -⟩
  · rw [← heq, ho]
  rw [heq] at ho
  cases ho

lemma Removed.stays (h : Removed s s') (ho : s.obj id = some o)
    (hused : o.count < o.flag * s.nReaders) :
    s'.obj id = some o := by
  rcases h.obj id with heq | ⟨-, o', ho', hfree⟩
  · rw [heq, ho]
  cases ho.symm.trans ho'
  omega

lemma Removed.trans {s'' : ObjectStorage} (h : Removed s s') (h' : Removed s' s'') :
    Removed s s'' where
  obj := by
    intro i
    rcases h'.obj i with heq | ⟨heq, o, ho, hfree⟩
    · rw [heq]
      exact h.obj i
    · rw [h.nReaders] at hfree
      exact .inr ⟨heq, o, h.of_some ho, hfree⟩
  nReaders := h'.nReaders.trans h.nReaders

/-- The ids in `freed` were dropped from the indices. -/
structure Forgotten (s : ObjectStorage) (freed : List ℕ) (s' : ObjectStorage) : Prop where
  ringBuffer : s'.ringBuffer = s.ringBuffer
  nReaders : s'.nReaders = s.nReaders
  idIndex : ∀ i, s'.idIndex.get? i = if i ∈ freed then none else s.idIndex.get? i
  writerFlag : ∀ i, s'.writerFlag.get? i = if i ∈ freed then none else s.writerFlag.get? i
  keyIndex : ∀ key, s'.keyIndex.get? key =
    if ∃ i ∈ freed, s.idIndex.get? i = some key then none else s.keyIndex.get? key

lemma forget_eq {key : String} (h : s.idIndex.get? id = some key) : s.forget id = .ok { s with
    keyIndex := s.keyIndex.erase key
    idIndex := s.idIndex.erase id
    writerFlag := s.writerFlag.erase id } := by
  unfold forget
  rw [h]

lemma foldlM_forget {freed : List ℕ} (hnd : freed.Nodup)
    (hmem : ∀ i ∈ freed, ∃ key, s.idIndex.get? i = some key) :
    ∃ s', freed.foldlM forget s = .ok s' ∧ Forgotten s freed s' := by
  induction freed generalizing s with
  | nil => exact ⟨s, rfl, ⟨rfl, rfl, by simp, by simp, by simp⟩⟩
  | cons id freed ih =>
    obtain ⟨hnot, hnd⟩ := nodup_cons.mp hnd
    obtain ⟨key, hkey⟩ := hmem id mem_cons_self
    have hne : ∀ i ∈ freed, i ≠ id := fun i hi heq => hnot (heq ▸ hi)
    have hrest : ∀ i ∈ freed, (s.idIndex.erase id).get? i = s.idIndex.get? i := fun i hi => by
      rw [get?_erase, if_neg (hne i hi)]
    obtain ⟨s', hfold, hforgot⟩ := ih (s := { s with
        keyIndex := s.keyIndex.erase key
        idIndex := s.idIndex.erase id
        writerFlag := s.writerFlag.erase id }) hnd fun i hi => by
      dsimp only
      rw [hrest i hi]
      exact hmem i (mem_cons_of_mem _ hi)
    refine ⟨s', ?_, ⟨hforgot.ringBuffer, hforgot.nReaders, fun i => ?_, fun i => ?_, fun k => ?_⟩⟩
    · rw [foldlM_cons, forget_eq hkey]
      exact hfold
    · rw [hforgot.idIndex, get?_erase]
      grind
    · rw [hforgot.writerFlag, get?_erase]
      grind
    have hex : (∃ i ∈ id :: freed, s.idIndex.get? i = some k) ↔
        k = key ∨ ∃ i ∈ freed, (s.idIndex.erase id).get? i = some k := by
      rw [exists_mem_cons_iff, hkey, Option.some.injEq, eq_comm (a := key)]
      refine or_congr Iff.rfl (exists_congr fun i => and_congr_right fun hi => ?_)
      rw [hrest i hi]
    rw [hforgot.keyIndex, get?_erase]
    simp only [hex]
    split_ifs <;> grind

/-- `free_unused` removes only objects that all readers have read. -/
lemma Stored.freeUnused (h : Stored s) : ∃ s', s.freeUnused = .ok s' ∧ Stored s' ∧ Removed s s' ∧
    s'.ringBuffer.metadata.length ≤ s.ringBuffer.metadata.length := by
  obtain ⟨blocks, hlive, hroom⟩ := h.live
  obtain ⟨k, blocks', hfreed, hlive', hkeys, hids⟩ :=
    hlive.freeBuf s.defaultIsFreeCheck (some (2 * s.maxObjectSize))
  unfold ObjectStorage.freeUnused
  dsimp only
  generalize s.ringBuffer.freeBuf s.defaultIsFreeCheck (some (2 * s.maxObjectSize)) = freed at *
  obtain ⟨freedIds, rb⟩ := freed
  dsimp only at hfreed hlive' hids ⊢
  have hsplit : s.ringBuffer.metadata.entries =
      ((blocks.take k).map fun b => (b.id, b.addr)) ++ rb.metadata.entries := by
    have hdrop := congrArg (List.map fun x : ℕ × ℕ × ℕ => (x.1, x.2.1)) hkeys
    rw [map_map, map_map] at hdrop
    rw [hlive'.metadata, hlive.metadata]
    exact (congrArg _ (take_append_drop k blocks).symm).trans
      (map_append.trans (congrArg _ hdrop.symm))
  have hkeysOf : ((blocks.take k).map fun b => (b.id, b.addr)).map Prod.fst = freedIds := by
    rw [map_map, hids]
    rfl
  have hmeta : ∀ i, rb.metadata.get? i = if i ∈ freedIds then none else
    s.ringBuffer.metadata.get? i := fun i =>
    hkeysOf ▸ get?_of_append hsplit i
  have hget : ∀ b ∈ blocks.take k, s.ringBuffer.metadata.get? b.id = some b.addr := by
    intro b hb
    rw [get?_eq_some_iff, hlive.metadata]
    exact mem_map.mpr ⟨b, mem_of_mem_take hb, rfl⟩
  have hnd : freedIds.Nodup := by
    rw [hids]
    exact hlive.nodup_ids.sublist ((take_sublist k blocks).map _)
  have hmem : ∀ i ∈ freedIds, ∃ key, s.idIndex.get? i = some key := by
    rw [hids, forall_mem_map]
    intro b hb
    exact Option.isSome_iff_exists.mp ((h.indexed b.id).trans (by rw [hget b hb]; rfl))
  obtain ⟨s', hfold, hforgot⟩ := foldlM_forget (s := { s with ringBuffer := rb }) hnd hmem
  have hrb : s'.ringBuffer = rb := hforgot.ringBuffer
  have hcnt : ∀ address, s'.ringBuffer.readerCount address = s.ringBuffer.readerCount address := by
    intro address
    unfold RingBuffer.readerCount
    rw [hrb, RingBuffer.dataView_congr hfreed.buf hfreed.size]
  refine ⟨s', hfold, ⟨?_, fun i => ?_, fun i => ?_, fun key p => ?_⟩,
    ⟨fun i => ?_, hforgot.nReaders⟩, ?_⟩
  · refine ⟨blocks', hrb ▸ hlive', fun b hb => ?_⟩
    -- the blocks that are left keep their sizes
    have hmem := mem_map_of_mem (f := RingBuffer.Block.key) hb
    rw [hkeys] at hmem
    obtain ⟨b0, hb0, heq⟩ := mem_map.mp hmem
    rw [← show b0.size = b.size from congrArg (·.2.2) heq]
    exact hroom b0 (mem_of_mem_drop hb0)
  · rw [hrb, hforgot.idIndex, hmeta]
    split
    · rfl
    · exact h.indexed i
  · rw [hrb, hforgot.writerFlag, hmeta]
    split
    · rfl
    · exact h.flagged i
  · rw [hrb, hforgot.keyIndex, hforgot.idIndex, hmeta]
    dsimp only
    by_cases hp : p.2 ∈ freedIds
    · simp only [if_pos hp, reduceCtorEq, false_and, iff_false]
      intro heq
      split at heq
      · cases heq
      next hnot => exact hnot ⟨p.2, hp, ((h.keyed key p).mp heq).2⟩
    rw [if_neg hp, if_neg hp, ← h.keyed]
    split
    next hex =>
      obtain ⟨i, hi, hkey⟩ := hex
      refine iff_of_false (fun heq => by cases heq) fun heq => hp ?_
      obtain ⟨address, hadr⟩ :=
        Option.isSome_iff_exists.mp ((h.indexed i).symm.trans (by rw [hkey]; rfl))
      have hpair := (h.keyed key (address, i)).mpr ⟨hadr, hkey⟩
      rw [hpair] at heq
      cases heq
      exact hi
    next => exact Iff.rfl
  · by_cases hi : i ∈ freedIds
    · refine .inr ⟨obj_eq_none (by rw [hrb, hmeta, if_pos hi]), ?_⟩
      rw [hids] at hi
      obtain ⟨b, hb, rfl⟩ := mem_map.mp hi
      obtain ⟨o, ho, haddr⟩ := h.exists_obj (hget b hb)
      refine ⟨o, ho, ?_⟩
      have hfree := hfreed.free b hb
      obtain ⟨-, -, hflag, hcnt⟩ := obj_eq_some_iff.mp ho
      unfold defaultIsFreeCheck at hfree
      rw [hflag] at hfree
      rw [← hcnt, haddr]
      unfold RingBuffer.readerCount
      exact of_decide_eq_true hfree
    refine .inl (obj_congr ?_ ?_ ?_ fun address _ => hcnt address)
    · rw [hrb, hmeta, if_neg hi]
    · rw [hforgot.idIndex, if_neg hi]
    · rw [hforgot.writerFlag, if_neg hi]
  · rw [hrb, OrderedDict.length, OrderedDict.length, hsplit, length_append]
    exact Nat.le_add_left _ _

/-! ## Adding an object -/

/-- `put` stores an object under a new id, or raises. Objects that are free may have been
removed. -/
inductive PutOk (s : ObjectStorage) (key : String) : Py (ℕ × ℕ) × ObjectStorage → Prop
  | raised {e : PyError} {s' : ObjectStorage} (stored : Stored s') (removed : Removed s s') :
    PutOk s key (.error e, s')
  | added {s₁ s' : ObjectStorage} {address id : ℕ} (stored : Stored s') (removed : Removed s s₁)
      (fresh : s₁.obj id = none)
      (obj : s'.obj = update s₁.obj id (some ⟨key, address, 1, 0⟩))
      (nReaders : s'.nReaders = s.nReaders) : PutOk s key (.ok (address, id), s')

section put

variable {key : String} {objectMetadata objectData : List UInt8}

lemma PutOk.of_removed {s0 : ObjectStorage} {r : Py (ℕ × ℕ) × ObjectStorage} (hrem : Removed s0 s)
    (h : PutOk s key r) : PutOk s0 key r := by
  cases h with
  | raised stored removed => exact .raised stored (hrem.trans removed)
  | added stored removed fresh obj nReaders =>
    exact .added stored (hrem.trans removed) fresh obj (nReaders.trans hrem.nReaders)

/-- A block of the ring buffer that has no object yet. -/
structure Room (s : ObjectStorage) (b : Block) (rb : RingBuffer) : Prop where
  live : ∃ blocks, RingBuffer.Live rb (blocks ++ [b]) ∧
    ∀ b' ∈ blocks ++ [b], mdSize + flagBytes ≤ b'.size
  metadata : ∀ i, rb.metadata.get? i = if i = b.id then some b.addr else
    s.ringBuffer.metadata.get? i
  fresh : s.ringBuffer.metadata.get? b.id = none
  count : ∀ i address, s.ringBuffer.metadata.get? i = some address →
    rb.readerCount address = s.ringBuffer.readerCount address

lemma byte2int_zero : byte2int (leBytes idNbytes 0) = 0 := by decide

section

variable (h : Stored s)
include h

lemma Room.storeObject {b : Block} {rb : RingBuffer} (hroom : Room s b rb)
    (hkey : s.keyIndex.get? key = none)
    (hsize : b.size = flagBytes + objectData.length + objectMetadata.length + mdSize) :
    Stored (ObjectStorage.storeObject { s with ringBuffer := rb } key b.addr b.id objectMetadata
      objectData) ∧
    (ObjectStorage.storeObject { s with ringBuffer := rb } key b.addr b.id objectMetadata
      objectData).obj =
      update s.obj b.id (some ⟨key, b.addr, 1, 0⟩) := by
  obtain ⟨blocks, hlive, hsizes⟩ := hroom.live
  have hb : b ∈ blocks ++ [b] := mem_append_right _ (mem_singleton_self b)
  have hbsize := hsizes b hb
  have hzeros : (leBytes idNbytes 0).length = flagBytes := length_leBytes _ _
  have hle1 : mdSize + 0 + (leBytes idNbytes 0).length ≤ b.size := by omega
  have hle2 : mdSize + flagBytes + (objectMetadata ++ objectData).length ≤ b.size := by
    rw [length_append]
    omega
  have hlive1 := hlive.writeData hb hle1
  have hlive2 := hlive1.writeData hb hle2
  have hflag : s.writerFlag.get? b.id = none := by
    have := h.flagged b.id
    rw [hroom.fresh] at this
    exact Option.isSome_eq_false_iff.mp this |> Option.isNone_iff_eq_none.mp
  set s' :=
    ObjectStorage.storeObject { s with ringBuffer := rb } key b.addr b.id objectMetadata objectData
      with hs'
  have hflag' : ∀ i, s'.writerFlag.get? i = if i = b.id then some 1 else s.writerFlag.get? i := by
    intro i
    show (s.writerFlag.set b.id _).get? i = _
    rw [get?_set, hflag]
    rfl
  have hid' : ∀ i, s'.idIndex.get? i = if i = b.id then some key else s.idIndex.get? i := fun i =>
    get?_set i
  have hkey' : ∀ k, s'.keyIndex.get? k = if k = key then some (b.addr, b.id) else
    s.keyIndex.get? k := fun k =>
    get?_set k
  have hmeta' : ∀ i, s'.ringBuffer.metadata.get? i =
      if i = b.id then some b.addr else s.ringBuffer.metadata.get? i := hroom.metadata
  constructor
  · refine ⟨⟨_, hlive2, hsizes⟩, fun i => ?_, fun i => ?_, fun k p => ?_⟩
    · rw [hid', hmeta']
      split
      · rfl
      · exact h.indexed i
    · rw [hflag', hmeta']
      split
      · rfl
      · exact h.flagged i
    rw [hkey', hmeta', hid']
    by_cases hp : p.2 = b.id
    · rw [if_pos hp, if_pos hp]
      split
      next hk => simp [hk, Prod.ext_iff, hp]
      rename_i hk
      rw [h.keyed, hp, hroom.fresh]
      simp [Ne.symm hk]
    rw [if_neg hp, if_neg hp, ← h.keyed]
    split
    next hk =>
      rw [hk, hkey]
      simp only [reduceCtorEq, iff_false, Option.some.injEq]
      exact fun heq => hp (heq ▸ rfl)
    next => exact Iff.rfl
  funext i
  by_cases hi : i = b.id
  · rw [hi, update_self]
    refine obj_eq_some_iff.mpr ⟨?_, ?_, ?_, ?_⟩
    · rw [hmeta', if_pos rfl]
    · rw [hid', if_pos rfl]
    · rw [hflag', if_pos rfl]
    dsimp only
    rw [← byte2int_zero, ← (hlive.ok b hb).readerCount_writeData hbsize hzeros]
    exact (hlive1.ok b hb).readerCount_writeData_object hbsize
  rw [update_of_ne hi]
  refine obj_congr ?_ ?_ ?_ fun address hadr => ?_
  · rw [hmeta', if_neg hi]
  · rw [hid', if_neg hi]
  · rw [hflag', if_neg hi]
  obtain ⟨b', hb', hbid, hbaddr⟩ : ∃ b' ∈ blocks ++ [b], b'.id = i ∧ b'.addr = address := by
    have hmem : rb.metadata.get? i = some address := by rw [hroom.metadata, if_neg hi, hadr]
    rw [get?_eq_some_iff, hlive.metadata] at hmem
    obtain ⟨b', hb', heq⟩ := mem_map.mp hmem
    exact ⟨b', hb', congrArg Prod.fst heq, congrArg Prod.snd heq⟩
  have hne : b'.id ≠ b.id := hbid ▸ hi
  rw [← hroom.count i address hadr, ← hbaddr, ← hlive.readerCount_writeData hb hb' hne hle1]
  exact hlive1.readerCount_writeData hb hb' hne hle2

lemma Stored.allocateBuf {n : ℕ} (hn : flagBytes ≤ n)
    (hcnt : s.ringBuffer.metadata.length + 1 < idMax) :
    (∃ e rb, s.ringBuffer.allocateBuf n = (.error e, rb) ∧ Stored { s with ringBuffer := rb } ∧
      ({ s with ringBuffer := rb } : ObjectStorage).obj = s.obj ∧
        rb.metadata.length = s.ringBuffer.metadata.length) ∨
    ∃ b rb, s.ringBuffer.allocateBuf n = (.ok (b.addr, b.id), rb) ∧ Room s b rb ∧
      b.size = n + mdSize := by
  obtain ⟨blocks, hlive, hsizes⟩ := h.live
  have hview : ∀ i address, s.ringBuffer.metadata.get? i = some address →
      (s.ringBuffer.allocateBuf n).2.readerCount address = s.ringBuffer.readerCount address := by
    intro i address hadr
    obtain ⟨o, ho, rfl⟩ := h.exists_obj hadr
    obtain ⟨b, hb, -, haddr⟩ := exists_block ho hlive
    unfold RingBuffer.readerCount
    rw [← haddr, hlive.dataView_allocateBuf hb]
  have hfresh := get?_eq_none_iff.mpr hlive.idEnd_not_mem
  have hlen : blocks.length + 1 < idMax := hlive.length ▸ hcnt
  have hcases := hlive.allocateBuf (n := n) hlen
  generalize s.ringBuffer.allocateBuf n = r at *
  cases hcases with
  | @raised e rb hlive' =>
    have hent : rb.metadata.entries = s.ringBuffer.metadata.entries :=
      hlive'.metadata.trans hlive.metadata.symm
    have hmeta := get?_congr hent
    refine .inl ⟨e, rb, rfl, ⟨⟨blocks, hlive', hsizes⟩, ?_, ?_, ?_⟩, ?_, congrArg List.length hent⟩
    · exact fun i => (h.indexed i).trans (by rw [hmeta])
    · exact fun i => (h.flagged i).trans (by rw [hmeta])
    · intro key p
      rw [hmeta]
      exact h.keyed key p
    · funext i
      exact obj_congr (hmeta i) rfl rfl (hview i)
  | @block b rb hlive' hid hsize =>
    have hsize : b.size = n + mdSize := hsize
    have hnot : b.id ∉ s.ringBuffer.metadata.keys := hid ▸ hlive.idEnd_not_mem
    have hent : rb.metadata.entries = (s.ringBuffer.metadata.set b.id b.addr).entries := by
      rw [entries_set hnot, hlive'.metadata, hlive.metadata, map_append]
      rfl
    refine .inr ⟨b, rb, rfl, ⟨⟨blocks, hlive', ?_⟩, fun i => ?_, hid ▸ hfresh, hview⟩, hsize⟩
    · intro b' hb'
      rcases mem_append.mp hb' with hb' | hb'
      · exact hsizes b' hb'
      rw [mem_singleton.mp hb', hsize]
      omega
    · rw [get?_congr hent, get?_set]

variable (hcnt : s.ringBuffer.metadata.length + 1 < idMax)

include hcnt in
lemma Stored.allocateObject
    (hkey : s.keyIndex.get? key = none) :
    PutOk s key (s.allocateObject key objectMetadata objectData) ∧
      ∀ e s', s.allocateObject key objectMetadata objectData = (.error e, s') →
        s'.ringBuffer.metadata.length = s.ringBuffer.metadata.length := by
  have hn : flagBytes ≤ flagBytes + objectData.length + objectMetadata.length := by omega
  unfold ObjectStorage.allocateObject
  rcases h.allocateBuf hn hcnt with ⟨e, rb, heq, hsto, hobj, hlen⟩ | ⟨b, rb, heq, hroom, hsize⟩
  · rw [heq]
    refine ⟨.raised hsto ⟨fun i => .inl (congrFun hobj i), rfl⟩, fun e' s' hs' => ?_⟩
    cases hs'
    exact hlen
  rw [heq]
  obtain ⟨hsto, hobj⟩ := hroom.storeObject h hkey hsize
  exact ⟨.added hsto (.refl s) (obj_eq_none hroom.fresh) hobj rfl, nofun⟩

lemma Stored.get?_keyIndex_eq_none :
    s.keyIndex.get? key = none ↔ ∀ i o, s.obj i = some o → o.key ≠ key := by
  constructor
  · intro hnone i o ho heq
    have hsome := h.get?_keyIndex.mpr ⟨o, ho, heq, rfl⟩
    rw [hnone] at hsome
    cases hsome
  intro hne
  refine Option.eq_none_iff_forall_ne_some.mpr fun p hp => ?_
  obtain ⟨o, ho, hkey, -⟩ := h.get?_keyIndex.mp hp
  exact hne _ o ho hkey

lemma Stored.get?_keyIndex_of_removed (h' : Stored s') (hrem : Removed s s')
    (hkey : s.keyIndex.get? key = none) : s'.keyIndex.get? key = none :=
  h'.get?_keyIndex_eq_none.mpr fun i o ho => h.get?_keyIndex_eq_none.mp hkey i o (hrem.of_some ho)

include hcnt in
lemma Stored.put :
    PutOk s key (s.put key objectMetadata objectData) := by
  unfold ObjectStorage.put
  dsimp only
  split
  · exact .raised h (.refl s)
  next hnot =>
  have hkey := get?_eq_none_iff.mpr hnot
  split
  · exact .raised h (.refl s)
  have hput : PutOk s key (s.allocateObject key objectMetadata objectData) ∧ _ :=
    h.allocateObject hcnt hkey
  generalize s.allocateObject key objectMetadata objectData = r at *
  obtain ⟨hput, hlen1⟩ := hput
  split
  next m s1 =>
    -- the buffer is full: free what can be freed and try again
    cases hput with
    | raised hstored1 hremoved1 =>
    obtain ⟨s2, hfree, hstored2, hremoved2, hlen2⟩ := hstored1.freeUnused
    have hrem := hremoved1.trans hremoved2
    have hcount2 : s2.ringBuffer.metadata.length + 1 < idMax := by
      rw [hlen1 _ _ rfl] at hlen2
      omega
    rw [hfree]
    exact ((hstored2.allocateObject hcount2
      (h.get?_keyIndex_of_removed hstored2 hrem hkey)).1).of_removed hrem
  next => exact hput

end

end put

variable {key : String}

lemma touch_of_none (h : s.keyIndex.get? key = none) : s.touch key = s := by
  unfold touch
  rw [h]

lemma touch_of_some {address : ℕ} (h : s.keyIndex.get? key = some (address, id)) :
    s.touch key = s.incrementWriterFlag id := by
  unfold touch
  rw [h]

lemma Stored.getAndUpdateItem (h : Stored s) (hcnt : s.ringBuffer.metadata.length + 1 < idMax)
    {mmItem : Option (List UInt8 × List UInt8)} {r : Option (ℕ × ℕ)}
    (heq : s.getAndUpdateItem mmItem key = .ok (r, s')) :
    (∃ i o, s.obj i = some o ∧ o.key = key ∧ r = some (o.address, i) ∧
      s' = s.incrementWriterFlag i) ∨
    s.keyIndex.get? key = none ∧ mmItem ≠ none ∧
      ((r = none ∧ Stored s' ∧ Removed s s') ∨ ∃ pair, r = some pair ∧
        PutOk s key (.ok pair, s')) := by
  unfold ObjectStorage.getAndUpdateItem at heq
  split at heq
  next hcached =>
    obtain ⟨p, hp⟩ := mem_keys_iff.mp (of_decide_eq_true hcached)
    obtain ⟨o, ho, hkey, haddr⟩ := h.get?_keyIndex.mp hp
    simp only [getCached, hp, ok_bind] at heq
    cases heq
    exact .inl ⟨p.2, o, ho, hkey, by rw [haddr], rfl⟩
  rename_i hcached
  have hnone : s.keyIndex.get? key = none := get?_eq_none_iff.mpr fun hmem =>
    hcached (decide_eq_true hmem)
  cases mmItem with
  | none => cases heq
  | some item =>
    refine .inr ⟨hnone, Option.some_ne_none _, ?_⟩
    have hput : PutOk s key (s.put key item.1 item.2) := h.put hcnt
    dsimp only at heq
    generalize s.put key item.1 item.2 = q at *
    split at heq
    · cases heq
      exact .inr ⟨_, rfl, hput⟩
    · cases heq
      cases hput with
      | raised hsto hrem => exact .inl ⟨rfl, hsto, hrem⟩
    · cases heq
      cases hput with
      | raised hsto hrem => exact .inl ⟨rfl, hsto, hrem⟩
    · cases heq

end ObjectStorage

end Vllm.Shm
