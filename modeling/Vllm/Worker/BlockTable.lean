import Vllm.Lib.Striping
import Vllm.Worker.RowContents

/-!
# Block tables and slot mappings

`BlockTable` and `_compute_slot_mapping_kernel` of `vllm/v1/worker/block_table.py`. All ranks have
the same table, of any width.
-/

namespace Vllm.Worker

open Striping List Function

def padSlotId : ℤ := -1

/-- `BlockTable`, with the context-parallel sizes that its slot mapping reads. -/
structure BlockTable where
  blockSize : ℕ
  blocksPerKvBlock : ℕ
  cpKvCacheInterleaveSize : ℕ
  rows : ℕ → BlockRow := fun _ => {}

/-- The calls that change the rows of the table. -/
inductive RowCall where
  | appendRow (blockIds : List ℕ) (rowIdx : ℕ)
  | addRow (blockIds : List ℕ) (rowIdx : ℕ)
  | clearRow (rowIdx : ℕ)
  | moveRow (src tgt : ℕ)
  | swapRow (src tgt : ℕ)

namespace BlockTable

/-- `BlockTable.__init__`: the block size must be a multiple of the kernel's. -/
def init (blockSize kernelBlockSize cpKvCacheInterleaveSize : ℕ) : Py BlockTable :=
  if kernelBlockSize = blockSize then .ok ⟨blockSize, 1, cpKvCacheInterleaveSize, fun _ => {}⟩
  else if blockSize % kernelBlockSize ≠ 0 then
    .error (.valueError (s!"kernel_block_size {kernelBlockSize} must divide " ++
      s!"kv_manager_block_size size {blockSize} evenly"))
  else .ok ⟨kernelBlockSize, blockSize / kernelBlockSize, cpKvCacheInterleaveSize, fun _ => {}⟩

variable (t : BlockTable)

def call : RowCall → BlockTable
  | .appendRow ids i =>
    { t with rows := update t.rows i ((t.rows i).appendRow t.blocksPerKvBlock ids) }
  | .addRow ids i => { t with rows := update t.rows i ((t.rows i).addRow t.blocksPerKvBlock ids) }
  | .clearRow i => { t with rows := update t.rows i (t.rows i).clearRow }
  | .moveRow src tgt => { t with rows := update t.rows tgt ((t.rows src).moveRow (t.rows tgt)) }
  | .swapRow src tgt => { t with rows := update (update t.rows src (t.rows tgt)) tgt (t.rows src) }

def slotId (worldSize rank row pos : ℕ) : ℤ :=
  let virtualBlockSize := t.blockSize * worldSize
  let blockIndex := pos / virtualBlockSize
  let blockNumber := (t.rows row).blocks blockIndex
  let offset := pos - blockIndex * virtualBlockSize
  let interleave := t.cpKvCacheInterleaveSize
  if offset / interleave % worldSize = rank then
    blockNumber * t.blockSize +
      (offset / (worldSize * interleave) * interleave + offset % interleave : ℕ)
  else padSlotId

/-- The arguments of `compute_slot_mapping` on the ranks, and the order of the programs there. -/
structure Batch where
  numReqs : ℕ
  numTokens : ℕ
  maxNumTokens : ℕ
  queryStartLoc : ℕ → ℕ
  positions : ℕ → ℕ
  order : ℕ → List ℕ
  mono : Monotone queryStartLoc
  end_le : queryStartLoc numReqs ≤ numTokens
  order_perm : ∀ rank, (order rank).Perm (List.range (numReqs + 1))

variable (worldSize rank : ℕ)

/-- The program `reqIdx` of `_compute_slot_mapping_kernel`; the last one pads the rest of the
mapping. -/
def slotProgram (batch : Batch) (mapping : ℕ → ℤ) (reqIdx : ℕ) : ℕ → ℤ :=
  fun o =>
    if reqIdx = batch.numReqs then
      if batch.numTokens ≤ o ∧ o < batch.maxNumTokens then padSlotId else mapping o
    else if batch.queryStartLoc reqIdx ≤ o ∧ o < batch.queryStartLoc (reqIdx + 1) then
      t.slotId worldSize rank reqIdx (batch.positions o)
    else mapping o

def computeSlotMapping (batch : Batch) (mapping : ℕ → ℤ) : ℕ → ℤ :=
  (batch.order rank).foldl (t.slotProgram worldSize rank batch) mapping

end BlockTable

def heldAfter (held : ℕ → List ℕ) : RowCall → ℕ → List ℕ
  | .appendRow ids i => update held i (held i ++ ids)
  | .addRow ids i => update held i ids
  | .clearRow i => update held i []
  | .moveRow src tgt => update held tgt (held src)
  | .swapRow src tgt => update (update held src (held tgt)) tgt (held src)

namespace BlockRow

def Lists (row : BlockRow) (n : ℕ) (ids : List ℕ) : Prop :=
  row.numBlocks = (mapToKernelBlocks n ids).length ∧ Reads row.blocks 0 (mapToKernelBlocks n ids)

variable {row tgt : BlockRow} {n : ℕ} {ids more : List ℕ}

lemma Lists.appendRow (h : row.Lists n ids) : (row.appendRow n more).Lists n (ids ++ more) := by
  have hsplit : mapToKernelBlocks n (ids ++ more) = mapToKernelBlocks n ids ++
    mapToKernelBlocks n more :=
    flatMap_append
  refine ⟨?_, ?_⟩
  · rw [hsplit, length_append, ← h.1]
    rfl
  · rw [hsplit, reads_append, zero_add, ← h.1]
    exact ⟨h.2.writeSlice (by rw [zero_add, h.1]), reads_writeSlice⟩

lemma lists_addRow (row : BlockRow) (n : ℕ) (ids : List ℕ) : (row.addRow n ids).Lists n ids :=
  Lists.appendRow (show Lists { row with numBlocks := 0 } n [] from ⟨rfl, nofun⟩)

lemma Lists.moveRow (h : row.Lists n ids) : (row.moveRow tgt).Lists n ids :=
  ⟨h.1, h.2.copyPrefix (by rw [zero_add, h.1])⟩

lemma Lists.block (h : row.Lists n ids) (hn : 0 < n) {i id : ℕ} (hid : ids[i / n]? = some id) :
    row.blocks i = id * n + i % n := by
  have hentry : (mapToKernelBlocks n ids)[i]? = some (id * n + i % n) := by
    have hall : ∀ (ids : List ℕ) (j : ℕ) {r : ℕ}, r < n → ids[j]? = some id →
        (mapToKernelBlocks n ids)[j * n + r]? = some (id * n + r) := by
      intro ids
      induction ids with
      | nil => exact fun _ _ _ hj => by cases hj
      | cons id' ids ih =>
        intro j r hr hj
        unfold mapToKernelBlocks at ih ⊢
        rw [flatMap_cons]
        cases j with
        | zero =>
          obtain rfl : id' = id := by simpa using hj
          rw [getElem?_append_left (by simpa using hr)]
          simp [hr]
        | succ j =>
          rw [getElem?_append_right (by simp; nlinarith), length_map, length_range]
          have hsub : (j + 1) * n + r - n = j * n + r := by
            rw [Nat.succ_mul]
            omega
          rw [hsub]
          exact ih j hr (by simpa using hj)
    have := hall ids (i / n) (Nat.mod_lt i hn) hid
    rwa [Nat.div_add_mod'] at this
  simpa using h.2 i _ hentry

end BlockRow

namespace BlockTable

variable {t : BlockTable} {held : ℕ → List ℕ}

def Holds (t : BlockTable) (held : ℕ → List ℕ) :
    Prop := ∀ i, (t.rows i).Lists t.blocksPerKvBlock (held i)

lemma Holds.update (h : t.Holds held) {i : ℕ} {row : BlockRow} {ids : List ℕ}
    (hrow : row.Lists t.blocksPerKvBlock ids) :
    Holds { t with rows := update t.rows i row } (update held i ids) := by
  intro j
  rcases eq_or_ne j i with rfl | hj
  · simpa using hrow
  · simpa [hj] using h j

lemma Holds.call (h : t.Holds held) (c : RowCall) : (t.call c).Holds (heldAfter held c) := by
  cases c with
  | appendRow ids i => exact h.update (h i).appendRow
  | addRow ids i => exact h.update (BlockRow.lists_addRow _ _ _)
  | clearRow i => exact h.update ⟨rfl, nofun⟩
  | moveRow src tgt => exact h.update (h src).moveRow
  | swapRow src tgt => exact (h.update (i := src) (h tgt)).update (i := tgt) (h src)

def after (t : BlockTable) (calls : List RowCall) : BlockTable × (ℕ → List ℕ) :=
  calls.foldl (fun s c => (s.1.call c, heldAfter s.2 c)) (t, fun _ => [])

lemma init_eq_ok {b k I : ℕ} (hk : k ∣ b) (hb : 0 < b) :
    init b k I =
    .ok { blockSize := k, blocksPerKvBlock := b / k, cpKvCacheInterleaveSize := I } := by
  unfold init
  split
  next heq => rw [heq, Nat.div_self hb]
  · rw [if_neg (not_not.mpr (Nat.mod_eq_zero_of_dvd hk))]

lemma call_config (t : BlockTable) (c : RowCall) : (t.call c).blockSize = t.blockSize ∧
    (t.call c).blocksPerKvBlock = t.blocksPerKvBlock ∧
    (t.call c).cpKvCacheInterleaveSize = t.cpKvCacheInterleaveSize := by
  cases c <;> exact ⟨rfl, rfl, rfl⟩

lemma after_spec {b k I : ℕ} (hinit : init b k I = .ok t) (hk : k ∣ b) (hb : 0 < b)
    (calls : List RowCall) :
    (t.after calls).1.Holds (t.after calls).2 ∧ (t.after calls).1.blockSize = k ∧
      (t.after calls).1.blocksPerKvBlock = b / k ∧
      (t.after calls).1.cpKvCacheInterleaveSize = I := by
  rw [init_eq_ok hk hb] at hinit
  cases hinit
  induction calls using reverseRecOn with
  | nil => exact ⟨fun _ => ⟨rfl, nofun⟩, rfl, rfl, rfl⟩
  | append_singleton calls c ih =>
    obtain ⟨hholds, hsize, hper, hinter⟩ := ih
    simp only [after, foldl_append, foldl_cons, foldl_nil] at hholds hsize hper hinter ⊢
    obtain ⟨hsize', hper', hinter'⟩ := call_config (after _ calls).1 c
    exact ⟨hholds.call c, hsize'.trans hsize, hper'.trans hper, hinter'.trans hinter⟩

/-! ## The mapping -/

lemma computeSlotMapping_at {W rank : ℕ} {batch : Batch} {mapping : ℕ → ℤ} {i o : ℕ}
    (hi : i < batch.numReqs)
    (ho : batch.queryStartLoc i ≤ o) (ho' : o < batch.queryStartLoc (i + 1)) :
    t.computeSlotMapping W rank batch mapping o = t.slotId W rank i (batch.positions o) := by
  have hself : ∀ m : ℕ → ℤ,
    t.slotProgram W rank batch m i o = t.slotId W rank i (batch.positions o) := by
    intro m
    rw [slotProgram, if_neg (by omega), if_pos ⟨ho, ho'⟩]
  have hoth : ∀ (m : ℕ → ℤ) (j : ℕ), j ≠ i → t.slotProgram W rank batch m j o = m o := by
    intro m j hj
    unfold slotProgram
    split
    · have := batch.mono (show i + 1 ≤ batch.numReqs from hi)
      have := batch.end_le
      rw [if_neg (by omega)]
    refine if_neg fun hin => ?_
    rcases lt_or_gt_of_ne hj with hlt | hgt
    · have := batch.mono (show j + 1 ≤ i from hlt)
      omega
    · have := batch.mono (show i + 1 ≤ j from hgt)
      omega
  -- Once program `i` has run, the others leave its part alone.
  have hkeep : ∀ (l : List ℕ) (m : ℕ → ℤ), m o = t.slotId W rank i (batch.positions o) →
      l.foldl (t.slotProgram W rank batch) m o = t.slotId W rank i (batch.positions o) := by
    intro l
    induction l with
    | nil => exact fun _ hm => hm
    | cons j l ih =>
      intro m hm
      refine ih _ ?_
      by_cases hj : j = i
      · rw [hj, hself]
      · rw [hoth m j hj, hm]
  have hmem : i ∈ batch.order rank := (batch.order_perm rank).mem_iff.mpr (mem_range.mpr (by omega))
  obtain ⟨l, r, heq⟩ := append_of_mem hmem
  rw [computeSlotMapping, heq, foldl_append]
  exact hkeep r _ (hself _)

/-- In some step `slot rank` is computed for a position of a request with the KV blocks `ids`. -/
def Computes (b k I W : ℕ) (ids : List ℕ) (pos : ℕ) (slot : ℕ → ℤ) : Prop :=
  ∃ (t : BlockTable) (calls : List RowCall) (batch : Batch) (mapping : ℕ → ℕ → ℤ) (i o : ℕ),
    init b k I = .ok t ∧ (t.after calls).2 i <+: ids ∧ i < batch.numReqs ∧
    batch.queryStartLoc i ≤ o ∧ o < batch.queryStartLoc (i + 1) ∧ batch.positions o = pos ∧
    pos < ((t.after calls).2 i).length * (b * W) ∧
    ∀ rank, slot rank = (t.after calls).1.computeSlotMapping W rank batch (mapping rank) o

section sizes

variable {b k I W : ℕ} {ids : List ℕ} {pos : ℕ} {slot : ℕ → ℤ} {rank : ℕ}

lemma Computes.eq (hb : 0 < b) (hk : k ∣ b) (h : Computes b k I W ids pos slot) :
    ∃ id, ids[pos / (b * W)]? = some id ∧
    ∀ rank, slot rank = if owner I W (pos % (k * W)) = rank then
        (((id * (b / k) + pos / (k * W) % (b / k)) * k + place I W (pos % (k * W)) : ℕ) : ℤ) else
        padSlotId := by
  obtain ⟨t, calls, batch, mapping, i, o, hinit, ⟨rest, rfl⟩, hi, ho, ho', rfl, hpos, hslot⟩ := h
  obtain ⟨hholds, hsize, hper, hinter⟩ := after_spec hinit hk hb calls
  have hn : 0 < b / k := Nat.div_pos (Nat.le_of_dvd hb hk) (Nat.pos_of_dvd_of_pos hk hb)
  have hidx : batch.positions o / (k * W) / (b / k) = batch.positions o / (b * W) := by
    rw [Nat.div_div_eq_div_mul, Nat.mul_right_comm, Nat.mul_div_cancel' hk]
  have hlt := Nat.div_lt_of_lt_mul (Nat.mul_comm _ _ ▸ hpos)
  refine ⟨_, (getElem?_append_left hlt).trans (getElem?_eq_getElem hlt), fun rank => ?_⟩
  have hblock := (hholds i).block (hper ▸ hn) (i := batch.positions o / (k * W)) (by
    rw [hper, hidx]
    exact getElem?_eq_getElem hlt)
  have hoff : batch.positions o - batch.positions o / (k * W) * (k * W) =
    batch.positions o % (k * W) := by
    rw [Nat.mod_eq_sub_div_mul]
  rw [hslot, computeSlotMapping_at hi ho ho', slotId]
  simp only [hsize, hinter, hblock, hper, hoff, owner, place]
  rfl

def Batch.single (pos : ℕ) : Batch where
  numReqs := 1
  numTokens := 1
  maxNumTokens := 1
  queryStartLoc i := min i 1
  positions _ := pos
  order _ := [0, 1]
  mono _ _ hij := min_le_min_right 1 hij
  end_le := le_refl 1
  order_perm _ := .refl _

section

variable (hb : 0 < b)
include hb

lemma exists_computes (hk : k ∣ b) (I : ℕ) (hpos : pos < ids.length * (b * W)) :
    ∃ slot, Computes b k I W ids pos slot := by
  exact ⟨_, _, [.addRow ids 0], .single pos, fun _ _ => 0, 0, 0, init_eq_ok hk hb,
    ⟨[], append_nil _⟩, one_pos,
    le_refl 0, one_pos, rfl, hpos, fun _ => rfl⟩

lemma Computes.one_rank (hk : k ∣ b) (hW : 0 < W) (h : Computes b k I W ids pos slot) :
    ∃! rank, rank < W ∧ slot rank ≠ padSlotId := by
  obtain ⟨id, -, hslot⟩ := h.eq hb hk
  refine ⟨owner I W (pos % (k * W)), ⟨owner_lt hW _, ?_⟩, ?_⟩
  · rw [hslot, padSlotId]
    omega
  rintro rank ⟨-, hne⟩
  rw [hslot] at hne
  exact of_not_not fun hno => hne (if_neg (Ne.symm hno))

/-- A slot is a kernel block and a place in it. -/
lemma Computes.of_ne_pad (hk : k ∣ b) (h : Computes b k I W ids pos slot)
    (hne : slot rank ≠ padSlotId) :
    ∃ id, ids[pos / (k * W) / (b / k)]? = some id ∧ owner I W (pos % (k * W)) = rank ∧
      slot rank =
      ((id * (b / k) + pos / (k * W) % (b / k)) * k + place I W (pos % (k * W)) : ℕ) := by
  obtain ⟨id, hid, hslot⟩ := h.eq hb hk
  rw [hslot] at hne
  have howner : owner I W (pos % (k * W)) = rank := of_not_not fun hno => hne (if_neg hno)
  refine ⟨id, ?_, howner, (hslot rank).trans (if_pos howner)⟩
  rwa [Nat.div_div_eq_div_mul, mul_right_comm, Nat.mul_div_cancel' hk]

lemma Computes.in_block (hk : k ∣ b) (hplace : place I W (pos % (k * W)) < k)
    (h : Computes b k I W ids pos slot) (hne : slot rank ≠ padSlotId) :
    ∃ id : ℕ, ids[pos / (b * W)]? = some id ∧ (id * b : ℕ) ≤ slot rank ∧
    slot rank < ((id + 1) * b : ℕ) := by
  obtain ⟨id, hid, -, heq⟩ := h.of_ne_pad hb hk hne
  have hbk : b / k * k = b := Nat.div_mul_cancel hk
  have hn : 0 < b / k := Nat.div_pos (Nat.le_of_dvd hb hk) (Nat.pos_of_dvd_of_pos hk hb)
  have hsplit : (id * (b / k) + pos / (k * W) % (b / k)) * k = id * b + pos / (k * W) % (b / k) *
    k := by
    rw [add_mul, mul_assoc, hbk]
  have hlast : pos / (k * W) % (b / k) * k + k ≤ b := by
    calc _ = (pos / (k * W) % (b / k) + 1) * k := (Nat.succ_mul _ _).symm
      _ ≤ b / k * k := Nat.mul_le_mul_right k (Nat.mod_lt _ hn)
      _ = b := hbk
  rw [Nat.div_div_eq_div_mul, mul_right_comm, Nat.mul_div_cancel' hk] at hid
  refine ⟨id, hid, ?_, ?_⟩
  · omega
  rw [heq, Int.ofNat_lt, hsplit, Nat.succ_mul]
  omega

lemma Computes.pos_eq (hk : k ∣ b) (hI : 0 < I) (hplace : ∀ x < k * W, place I W x < k) (hW : 0 < W)
    (hids : ids.Nodup) (h : Computes b k I W ids pos slot) {pos' : ℕ} {slot' : ℕ → ℤ}
    (h' : Computes b k I W ids pos' slot') (hne : slot rank ≠ padSlotId)
    (heq : slot rank = slot' rank) : pos = pos' := by
  obtain ⟨id, hid, howner, hslot⟩ := h.of_ne_pad hb hk hne
  obtain ⟨id', hid', howner', hslot'⟩ := h'.of_ne_pad hb hk (heq ▸ hne)
  have hk0 : 0 < k := Nat.pos_of_dvd_of_pos hk hb
  have hn : 0 < b / k := Nat.div_pos (Nat.le_of_dvd hb hk) hk0
  have hV : 0 < k * W := mul_pos hk0 hW
  rw [hslot, hslot', Int.ofNat_inj] at heq
  -- The same kernel block and place, then the same KV block.
  obtain ⟨hblock, hpl⟩ := quot_rem_eq (hplace _ (Nat.mod_lt _ hV)) (hplace _ (Nat.mod_lt _ hV)) heq
  obtain ⟨rfl, hrest⟩ := quot_rem_eq (Nat.mod_lt _ hn) (Nat.mod_lt _ hn) hblock
  have hsame : pos / (k * W) / (b / k) = pos' / (k * W) / (b / k) :=
    (getElem?_inj (lt_of_getElem? hid) hids).mp (hid.trans hid'.symm)
  have hquot : pos / (k * W) = pos' / (k * W) := by
    rw [← Nat.div_add_mod' (pos / (k * W)) (b / k), hsame, hrest, Nat.div_add_mod']
  have hoff : pos % (k * W) = pos' % (k * W) := eq_of_place_eq hI (howner.trans howner'.symm) hpl
  rw [← Nat.div_add_mod' pos (k * W), hquot, hoff, Nat.div_add_mod']

/-- If a turn is cut off at the end of a kernel block, a slot lies behind its KV block. -/
lemma exists_behind_block (hk : k ∣ b) (hI : 0 < I) (hW : 2 ≤ W) (h : ¬ I ∣ k) :
    ∃ pos slot, Computes b k I W [0] pos slot ∧ pos / (b * W) = 0 ∧ slot 0 = b := by
  obtain ⟨x, hx, howner, hplace⟩ := exists_place_eq hI hW h
  have hk0 : 0 < k := Nat.pos_of_dvd_of_pos hk hb
  have hn : 0 < b / k := Nat.div_pos (Nat.le_of_dvd hb hk) hk0
  have hbk : b / k * k = b := Nat.div_mul_cancel hk
  obtain ⟨n, hn⟩ : ∃ n, b / k = n + 1 := ⟨b / k - 1, by omega⟩
  have hpos : x + k * W * n < [0].length * (b * W) := by
    calc x + k * W * n < k * W + k * W * n := Nat.add_lt_add_right hx _
      _ = (n + 1) * k * W := by ring
      _ = [0].length * (b * W) := by rw [← hn, hbk, length_singleton, one_mul]
  obtain ⟨slot, hslot⟩ := exists_computes hb hk I hpos
  obtain ⟨id, hid, heq⟩ := hslot.eq hb hk
  rw [length_singleton, one_mul] at hpos
  have hfst := Nat.div_eq_of_lt hpos
  rw [hfst] at hid
  cases hid
  refine ⟨_, slot, hslot, hfst, ?_⟩
  rw [heq, Nat.add_mul_mod_self_left, Nat.mod_eq_of_lt hx, if_pos howner, hplace,
    Nat.add_mul_div_left _ _ (Nat.zero_lt_of_lt hx), Nat.div_eq_of_lt hx, Nat.zero_mul, zero_add,
      zero_add, hn,
    Nat.mod_eq_of_lt (Nat.lt_succ_self n), ← Nat.succ_mul]
  rw [hn] at hbk
  exact congrArg _ hbk

end

/-- Each position of a request has a slot of its own in the KV block that covers it. -/
def SlotsRight (b k I W : ℕ) : Prop :=
  ∀ ids : List ℕ, ids.Nodup → ∀ pos slot, Computes b k I W ids pos slot →
    (∃! rank, rank < W ∧ slot rank ≠ padSlotId) ∧
    (∀ rank < W, slot rank ≠ padSlotId → ∃ id : ℕ, ids[pos / (b * W)]? = some id ∧
      (id * b : ℕ) ≤ slot rank ∧ slot rank < ((id + 1) * b : ℕ)) ∧
    ∀ pos' slot', Computes b k I W ids pos' slot' → ∀ rank < W, slot rank ≠ padSlotId →
      slot rank = slot' rank → pos = pos'

/-- The slots are right for exactly the sizes where no turn of the interleaving is cut off. -/
theorem slots_right_iff (hb : 0 < b) (hk : k ∣ b) (hI : I ∣ b) (hW : 0 < W) :
    SlotsRight b k I W ↔ W = 1 ∨ I ∣ k := by
  have hI0 : 0 < I := Nat.pos_of_dvd_of_pos hI hb
  refine ⟨fun hall => ?_, fun h ids hids pos slot hslot => ?_⟩
  · by_contra hno
    rw [not_or] at hno
    obtain ⟨pos, slot, hslot, hfirst, hval⟩ :=
      exists_behind_block (W := W) hb hk hI0 (by omega) hno.2
    obtain ⟨-, hblock, -⟩ := hall [0] (nodup_singleton 0) pos slot hslot
    have hne : slot 0 ≠ padSlotId := by
      rw [hval, padSlotId]
      omega
    obtain ⟨id, hid, -, hlt⟩ := hblock 0 hW hne
    rw [hfirst] at hid
    cases hid
    rw [hval, zero_add, one_mul] at hlt
    exact lt_irrefl _ hlt
  have hplace : ∀ x < k * W, place I W x < k := fun x hx => place_lt hI0 h hx
  have hV : 0 < k * W := mul_pos (Nat.pos_of_dvd_of_pos hk hb) hW
  exact ⟨hslot.one_rank hb hk hW, fun rank _ => hslot.in_block hb hk (hplace _ (Nat.mod_lt _ hV)),
    fun pos' slot' hslot' rank _ => hslot.pos_eq hb hk hI0 hplace hW hids hslot'⟩

/-- With an interleave size of one the slots are right. -/
theorem slots_right_of_interleave_one : SlotsRight 4 2 1 2 :=
  (slots_right_iff (by decide) (by decide) (by decide) (by decide)).mpr (.inr (by decide))

/-- With KV blocks of two tokens, kernel blocks of one and turns of two, positions 1 and 2 share
slot 1 of rank 0. -/
theorem not_slots_right : ¬ SlotsRight 2 1 2 2 := by
  have hpos : ∀ pos < 4, Computes 2 1 2 2 [0] pos
      ((init 2 1 2).toOption.elim (fun _ => 0) fun t rank =>
        (t.after [.addRow [0] 0]).1.slotId 2 rank 0 pos) := by
    intro pos hlt
    exact ⟨_, [.addRow [0] 0], .single pos, fun _ _ => 0, 0, 0, rfl, ⟨[], rfl⟩, one_pos, le_refl 0,
      one_pos, rfl, hlt,
      fun _ => rfl⟩
  intro h
  obtain ⟨-, -, hinj⟩ := h [0] (nodup_singleton 0) 1 _ (hpos 1 (by decide))
  exact absurd (hinj 2 _ (hpos 2 (by decide)) 0 (by decide) (by decide) rfl) (by decide)

end sizes

end BlockTable

end Vllm.Worker
