import Mathlib.Data.List.GetD
import Vllm.Lib.Run
import Vllm.Lib.Slots
import Vllm.Offload.ConnectorStore
import Vllm.Offload.GpuWorker

/-!
# Where a store job writes

A store job passes the position and number of the GPU blocks per group, and `transfer_async` counts
on from there. A group is copied right iff its block ids have no zero after the first copied block
(`HoleFree`).
-/

namespace Vllm.Offload

open Slots List

lemma npAssign_eq {n : ℕ} {xs : List ℕ} (h : xs.length = n) : npAssign n xs = .ok xs := by
  unfold npAssign
  split
  next x =>
    subst h
    rfl
  next => rw [if_pos h]

lemma computeSubBlockPtrs_eq {ids : List ℕ} {f n skip : ℕ} {t : Tensor} (hskip : skip < f)
    (hdvd : t.rowSize % f = 0) (hlen : skip + n ≤ ids.length * f) :
    computeSubBlockPtrs ids f n t skip =
      .ok ((((slots f ids).drop skip).take n).map fun x => t.subBlockPtr f x.1 x.2) := by
  have hsl := length_slots f ids
  unfold computeSubBlockPtrs
  rw [pyAssert_pos hskip, ok_bind]
  split
  next hf =>
    subst hf
    have hzero : skip = 0 := by omega
    rw [npAssign_eq (by rw [length_map, length_take]; omega), slots_one, hzero, drop_zero,
      ← map_take, map_map]
    congr 1
    apply map_congr_left
    intro b _
    simp [Tensor.subBlockPtr]
  rename_i hf
  rw [pyAssert_pos hdvd]
  have hflat : (ids.flatMap fun b => (range f).map (t.subBlockPtr f b)) =
      (slots f ids).map fun x => t.subBlockPtr f x.1 x.2 := by
    rw [slots, map_flatMap]
    simp only [map_map]
    rfl
  dsimp only
  rw [hflat, slice, drop_take, Nat.add_sub_cancel_left, ← map_drop, ← map_take]
  apply npAssign_eq
  rw [length_map, length_take, length_drop]
  omega

lemma Tensor.subBlockPtr_inj (t : Tensor) {f b j b' j' : ℕ} (hdvd : t.rowSize % f = 0) (hj : j < f)
    (hj' : j' < f) (h : t.subBlockPtr f b j = t.subBlockPtr f b' j') : b = b' ∧ j = j' := by
  obtain ⟨size, hsize⟩ := Nat.dvd_of_mod_eq_zero hdvd
  have hfpos : 0 < f := by omega
  have hpos := t.rowSize_pos
  have hspos : 0 < size := by
    rcases eq_zero_or_pos size with rfl | hs
    · omega
    · exact hs
  have hdiv : t.rowSize / f = size := by rw [hsize, Nat.mul_div_cancel_left _ hfpos]
  have hle := t.rowSize_le
  -- an offset inside a row is smaller than the stride
  have hin : ∀ i < f, i * size < t.rowStride := fun i hi =>
    calc i * size < f * size := mul_lt_mul_of_pos_right hi hspos
      _ = t.rowSize := hsize.symm
      _ ≤ t.rowStride := hle
  rw [subBlockPtr, subBlockPtr, hdiv, add_assoc, add_assoc] at h
  have h' : b * t.rowStride + j * size = b' * t.rowStride + j' * size := add_left_cancel h
  have hmod := congrArg (· % t.rowStride) h'
  have hquot := congrArg (· / t.rowStride) h'
  have hstride : 0 < t.rowStride := lt_of_lt_of_le hpos hle
  simp only [mul_comm _ t.rowStride, Nat.mul_add_mod, Nat.mod_eq_of_lt (hin j hj),
    Nat.mod_eq_of_lt (hin j' hj'), Nat.mul_add_div hstride, Nat.div_eq_of_lt (hin j hj),
    Nat.div_eq_of_lt (hin j' hj'), add_zero] at hmod hquot
  exact ⟨hquot, Nat.eq_of_mul_eq_mul_right hspos hmod⟩

/-- What a store job copies in one group: the logical indices, the GPU block at each (0 for none),
its place, and the CPU blocks. -/
structure GroupCopy where
  indices : List ℕ
  blockId : ℕ → ℕ
  slot : ℕ → ℕ × ℕ
  cpuBlocks : List ℕ
  refs : List CanonicalKVCacheRef

namespace GroupCopy

variable (c : GroupCopy)

def present : List ℕ := c.indices.filter fun i => c.blockId i ≠ 0

def start : ℕ := c.present.head?.getD 0

/-- The indices are those of whole offloaded blocks, whose last GPU block is there. -/
structure Placed (f : ℕ) : Prop where
  slots_eq : c.indices.map c.slot = slots f c.cpuBlocks
  nodup : c.indices.Nodup
  last : ∀ i ∈ c.indices.getLast?, c.blockId i ≠ 0
  skipped : ∀ i ∈ c.indices.take (c.start % f), c.blockId i = 0
  first : ∀ i ∈ (c.indices.drop (c.start % f)).head?, c.blockId i ≠ 0

def Full (f : ℕ) : Prop := ∀ i ∈ c.indices.drop (c.start % f), c.blockId i ≠ 0

variable {c} {f : ℕ}

section

variable (hc : c.Placed f)
include hc

lemma Placed.length :
    c.indices.length = c.cpuBlocks.length * f := by rw [← length_slots, ← hc.slots_eq, length_map]

lemma Placed.present_eq :
    c.present = (c.indices.drop (c.start % f)).filter fun i => c.blockId i ≠ 0 := by
  have hnil : ((c.indices.take (c.start % f)).filter fun i => c.blockId i ≠ 0) = [] :=
    filter_eq_nil_iff.mpr fun i hi => by simp [hc.skipped i hi]
  rw [present]
  conv_lhs => rw [← take_append_drop (c.start % f) c.indices, filter_append, hnil, nil_append]

lemma Placed.cpuBlocks_of_nil (hf : 0 < f) (hnil : c.present = []) : c.cpuBlocks = [] := by
  have hindices : c.indices = [] := by
    by_contra hne
    have hlast := hc.last _ (getLast?_eq_getLast_of_ne_nil hne)
    have hmem : c.indices.getLast hne ∈ c.present :=
      mem_filter.mpr ⟨getLast_mem hne, decide_eq_true hlast⟩
    rw [hnil] at hmem
    cases hmem
  have hlen := hc.length
  rw [hindices, length_nil, eq_comm, mul_eq_zero] at hlen
  exact length_eq_zero_iff.mp (hlen.resolve_right hf.ne')

lemma Placed.fits (hne : c.present ≠ []) :
    c.start % f + c.present.length ≤ c.cpuBlocks.length * f := by
  have hle : c.present.length ≤ (c.indices.drop (c.start % f)).length := by
    rw [hc.present_eq]
    exact length_filter_le _ _
  rw [length_drop] at hle
  have hpos := length_pos_of_ne_nil hne
  have hlen := hc.length
  omega

lemma Placed.length_take_drop_slots :
    (((slots f c.cpuBlocks).drop (c.start % f)).take c.present.length).length =
    c.present.length := by
  rw [length_take, length_drop, length_slots]
  by_cases hne : c.present = []
  · simp [hne]
  have := hc.fits hne
  omega

lemma Placed.length_of_full (hne : c.present ≠ []) (hfull : c.Full f) :
    c.present.length + c.start % f = c.cpuBlocks.length * f := by
  have heq : c.present = c.indices.drop (c.start % f) := by
    rw [hc.present_eq]
    exact filter_eq_self.mpr fun i hi => decide_eq_true (hfull i hi)
  have hpos := length_pos_of_ne_nil hne
  rw [heq, length_drop] at hpos ⊢
  have hlen := hc.length
  omega

lemma Placed.map_slot_eq_iff (hdis : c.cpuBlocks.Nodup) :
    c.present.map c.slot = ((slots f c.cpuBlocks).drop (c.start % f)).take c.present.length ↔
    c.Full f := by
  have hinj : (c.indices.map c.slot).Nodup := hc.slots_eq ▸ nodup_slots f hdis
  have hiff := filter_eq_take_drop_iff (p := fun i => c.blockId i ≠ 0) hc.nodup (k := c.start % f)
    (fun i hi => by simp [hc.skipped i hi]) fun i hi => decide_eq_true (hc.last i hi)
  have hall : c.Full f ↔ ∀ i ∈ c.indices.drop (c.start % f), (decide (c.blockId i ≠ 0)) = true := by
    simp [Full]
  rw [hall, ← hiff, ← hc.slots_eq, ← map_drop, ← map_take]
  constructor
  · intro heq
    have hsub : ∀ i ∈ (c.indices.drop (c.start % f)).take c.present.length, i ∈ c.indices :=
      fun i hi =>
      mem_of_mem_drop (mem_of_mem_take hi)
    exact map_inj_of_nodup hinj (fun i hi => mem_of_mem_filter hi) hsub heq
  · intro heq
    exact congrArg (map c.slot) heq

end

end GroupCopy

/-! ## The loop over the groups -/

instance : Inhabited Tensor := ⟨{ dataPtr := 0, rowStride := 1, rowSize := 1 }⟩

namespace SingleDirectionOffloadingHandler

variable (h : SingleDirectionOffloadingHandler)
variable {ref : CanonicalKVCacheRef} {srcBlocks dstBlocks srcRest dstRest : List ℕ}

/-- The handler copies to the CPU and has the sizes of the connector. -/
structure StoresFor (cfg : SchedulerOffloadConfig) : Prop where
  gpuToCpu : h.gpuToCpu = true
  factor : h.blockSizeFactor = cfg.blockSizeFactor
  pos : 0 < cfg.blockSizeFactor
  groups : h.kvCacheGroupsDataRefs.length = cfg.kvGroupConfigs.length
  refs : ∀ refs ∈ h.kvCacheGroupsDataRefs, refs ≠ [] ∧
    ∀ ref ∈ refs, ref.tensorIdx < h.tensors.length

def copyOf (ref : CanonicalKVCacheRef) (blockId : ℕ) (slot : ℕ × ℕ) : CopyOp :=
  let (gpu, cpu) := h.tensors.getD ref.tensorIdx default
  { src := gpu.subBlockPtr 1 blockId 0
    dst := cpu.subBlockPtr h.blockSizeFactor slot.1 slot.2
    size := ref.pageSizeBytes }

def rightGroup (c : GroupCopy) : List CopyOp :=
  c.refs.flatMap fun ref => c.present.map fun i => h.copyOf ref (c.blockId i) (c.slot i)

def madeGroup (c : GroupCopy) : List CopyOp :=
  c.refs.flatMap fun ref => List.zipWith (h.copyOf ref) (c.present.map c.blockId)
    (((slots h.blockSizeFactor c.cpuBlocks).drop (c.start % h.blockSizeFactor)).take
      c.present.length)

variable {h} {cfg : SchedulerOffloadConfig} {c : GroupCopy}

lemma cpuTensor_rowSize {i : ℕ} (hi : i < h.tensors.length) :
    (h.tensors.getD i default).2.rowSize % h.blockSizeFactor = 0 := by
  have hmem : h.tensors.getD i default ∈ h.tensors := by
    rw [getD_eq_getElem _ _ hi]
    exact getElem_mem hi
  rw [h.pageSizes _ hmem, Nat.mul_mod_left]

variable (hs : h.StoresFor cfg)
include hs

lemma copyRef_eq (href : ref.tensorIdx < h.tensors.length) {src dst : List ℕ} {blockIdx : ℕ}
    (hfits : blockIdx % h.blockSizeFactor + src.length ≤ dst.length * h.blockSizeFactor) :
    h.copyRef src dst src.length blockIdx ref = .ok (zipWith (h.copyOf ref) src
      (((slots h.blockSizeFactor dst).drop (blockIdx % h.blockSizeFactor)).take src.length)) := by
  have hpos : 0 < h.blockSizeFactor := hs.factor ▸ hs.pos
  have hsrcFactor : h.srcBlockSizeFactor = 1 := if_pos hs.gpuToCpu
  have hdstFactor : h.dstBlockSizeFactor = h.blockSizeFactor := if_pos hs.gpuToCpu
  have hpair : h.tensorPair ref.tensorIdx = .ok (h.tensors.getD ref.tensorIdx default) := by
    rw [tensorPair, pyGet, getElem?_eq_getElem href, getD_eq_getElem _ _ href, hs.gpuToCpu]
    rfl
  unfold copyRef
  rw [hpair, ok_bind, hsrcFactor, hdstFactor]
  dsimp only
  rw [computeSubBlockPtrs_eq (by omega) (Nat.mod_one _) (by omega), ok_bind,
    computeSubBlockPtrs_eq (Nat.mod_lt _ hpos) (cpuTensor_rowSize href) hfits, ok_bind, slots_one,
    Nat.mod_one, drop_zero, take_of_length_le (by simp), map_map, zipWith_map]
  rfl

/-- The copies of one group are those of its present blocks. -/
lemma copyGroup_eq (hrefs : ∀ ref ∈ c.refs, ref.tensorIdx < h.tensors.length)
    (hc : c.Placed h.blockSizeFactor) {acc : CopyState}
    (hsrc : srcBlocks.drop acc.srcOffset = c.present.map c.blockId ++ srcRest)
    (hdst : dstBlocks.drop acc.dstOffset = c.cpuBlocks ++ dstRest) :
    h.copyGroup srcBlocks dstBlocks acc (c.present.length, c.start, c.refs) = .ok {
      srcOffset := acc.srcOffset + c.present.length
      dstOffset := acc.dstOffset +
        (cdiv (c.present.length + c.start % h.blockSizeFactor : ℕ) h.blockSizeFactor).toNat
      ops := acc.ops ++ h.madeGroup c } := by
  by_cases hne : c.present = []
  · have hstart : c.start = 0 := by rw [GroupCopy.start, hne]; rfl
    have hmade : h.madeGroup c = [] := by simp [madeGroup, hne]
    rw [hmade, hstart, hne, copyGroup, if_pos (by rfl)]
    simp [cdiv]
  have hpos : 0 < h.blockSizeFactor := hs.factor ▸ hs.pos
  have hsrcFactor : h.srcBlockSizeFactor = 1 := if_pos hs.gpuToCpu
  have hdstFactor : h.dstBlockSizeFactor = h.blockSizeFactor := if_pos hs.gpuToCpu
  have hlen := length_pos_of_ne_nil hne
  have hfits := hc.fits hne
  have hsrcLen := congrArg length hsrc
  have hdstLen := congrArg length hdst
  rw [length_drop, length_append] at hsrcLen hdstLen
  rw [length_map] at hsrcLen
  -- the number of CPU blocks that the loop takes for the group
  obtain ⟨count, hcnt⟩ : ∃ count : ℕ,
      cdiv (c.present.length + c.start % h.blockSizeFactor : ℕ) h.blockSizeFactor = count :=
    Int.eq_ofNat_of_zero_le (cdiv_nonneg (Int.natCast_nonneg _) _)
  have hle : count ≤ c.cpuBlocks.length := by
    have :=
      (cdiv_le_iff hpos).mpr (show ((c.present.length + c.start % h.blockSizeFactor : ℕ) : ℤ) ≤
      (c.cpuBlocks.length : ℤ) * h.blockSizeFactor by exact_mod_cast (by omega))
    rw [hcnt] at this
    exact_mod_cast this
  have hcover : c.start % h.blockSizeFactor + c.present.length ≤ count * h.blockSizeFactor := by
    have := (cdiv_le_iff hpos).mp hcnt.le
    have : c.present.length + c.start % h.blockSizeFactor ≤ count * h.blockSizeFactor := by
      exact_mod_cast this
    omega
  have hcountPos : 0 < count := by
    rcases eq_zero_or_pos count with rfl | h
    · omega
    · exact h
  have hone : cdiv (c.present.length + c.start % 1 : ℕ) 1 = c.present.length := by
    simp [cdiv, Nat.mod_one]
  have hsliceSrc : slice srcBlocks acc.srcOffset (acc.srcOffset + c.present.length) =
    c.present.map c.blockId := by
    rw [slice, drop_take, Nat.add_sub_cancel_left, hsrc, take_left' (length_map _)]
  have hsliceDst : slice dstBlocks acc.dstOffset (acc.dstOffset + count) =
    c.cpuBlocks.take count := by
    rw [slice, drop_take, Nat.add_sub_cancel_left, hdst, take_append_of_le_length hle]
  have hsl :
    ((slots h.blockSizeFactor (c.cpuBlocks.take count)).drop (c.start % h.blockSizeFactor)).take
      c.present.length =
      ((slots h.blockSizeFactor c.cpuBlocks).drop (c.start % h.blockSizeFactor)).take
        c.present.length := by
    have htake : (c.cpuBlocks.take count).length = count := by rw [length_take]; omega
    rw [← take_drop_slots_append (by rw [htake]; exact hcover) (c.cpuBlocks.drop count),
      take_append_drop]
  have hmap : c.refs.mapM (fun ref => h.copyRef (c.present.map c.blockId) (c.cpuBlocks.take count)
      c.present.length c.start ref) =
      .ok (c.refs.map fun ref => zipWith (h.copyOf ref) (c.present.map c.blockId)
        (((slots h.blockSizeFactor c.cpuBlocks).drop (c.start % h.blockSizeFactor)).take
          c.present.length)) := by
    apply mapM_of_ok
    intro ref href
    have hfits : c.start % h.blockSizeFactor + (c.present.map c.blockId).length ≤
        (c.cpuBlocks.take count).length * h.blockSizeFactor := by
      rw [length_map, length_take, min_eq_left hle]
      exact hcover
    have hcopy := copyRef_eq hs (hrefs ref href) hfits
    rw [length_map, hsl] at hcopy
    exact hcopy
  unfold copyGroup
  dsimp only
  rw [if_neg (by omega), hsrcFactor, hdstFactor, hone, hcnt, Int.toNat_natCast, Int.toNat_natCast,
    pyAssert_pos (by omega), ok_bind, pyAssert_pos (by omega), ok_bind,
    hsliceSrc, hsliceDst, hmap, ok_bind]
  rfl

omit hs

variable (hc : c.Placed h.blockSizeFactor)
include hc

include hs in
lemma count_of_full (hfull : c.Full h.blockSizeFactor) :
    (cdiv (c.present.length + c.start % h.blockSizeFactor : ℕ) h.blockSizeFactor).toNat =
    c.cpuBlocks.length := by
  have hpos : 0 < h.blockSizeFactor := hs.factor ▸ hs.pos
  by_cases hne : c.present = []
  · have hstart : c.start = 0 := by rw [GroupCopy.start, hne]; rfl
    rw [hc.cpuBlocks_of_nil hpos hne, hstart, hne]
    simp [cdiv]
  rw [hc.length_of_full hne hfull]
  have hle := (cdiv_le_iff hpos).mpr (le_refl ((c.cpuBlocks.length : ℤ) * h.blockSizeFactor))
  have hge := le_cdiv_of_mul_le hpos (le_refl ((c.cpuBlocks.length : ℤ) * h.blockSizeFactor))
  rw [Nat.cast_mul]
  omega

lemma madeGroup_of_full (hdis : c.cpuBlocks.Nodup)
    (hfull : c.Full h.blockSizeFactor) : h.madeGroup c = h.rightGroup c := by
  unfold madeGroup rightGroup
  rw [← (hc.map_slot_eq_iff hdis).mpr hfull]
  simp only [zipWith_map, zipWith_self]

lemma length_madeGroup : (h.madeGroup c).length = (h.rightGroup c).length := by
  simp only [madeGroup, rightGroup, length_flatMap, length_zipWith, length_map,
    hc.length_take_drop_slots, min_self]

omit hc

lemma nodup_map_dst (href : ref.tensorIdx < h.tensors.length) {bs : List ℕ} (hbs : bs.Nodup)
    (b : ℕ) :
    ((slots h.blockSizeFactor bs).map fun x => (h.copyOf ref b x).dst).Nodup := by
  apply (nodup_slots h.blockSizeFactor hbs).map_on
  intro x hx y hy hxy
  obtain ⟨h1, h2⟩ := Tensor.subBlockPtr_inj _ (cpuTensor_rowSize href) (snd_lt_of_mem_slots hx)
    (snd_lt_of_mem_slots hy) hxy
  exact Prod.ext h1 h2

lemma map_dst_zipWith {bs : List ℕ} {xs : List (ℕ × ℕ)} (hlen : bs.length = xs.length) :
    (zipWith (h.copyOf ref) bs xs).map CopyOp.dst = xs.map fun x => (h.copyOf ref 0 x).dst := by
  apply ext_getElem
  · simp [hlen]
  intro i h1 h2
  simp [copyOf]

include hc in
lemma full_of_madeGroup (hdis : c.cpuBlocks.Nodup)
    (hrefs : c.refs ≠ [] ∧ ∀ ref ∈ c.refs, ref.tensorIdx < h.tensors.length)
    (heq : h.madeGroup c = h.rightGroup c) : c.Full h.blockSizeFactor := by
  rw [← hc.map_slot_eq_iff hdis]
  have hlen := hc.length_take_drop_slots
  -- the copies of the first tensor tell where the blocks went
  obtain ⟨ref, refs, hcons⟩ := exists_cons_of_ne_nil hrefs.1
  have href := hrefs.2 ref (hcons ▸ mem_cons_self)
  rw [madeGroup, rightGroup, hcons, flatMap_cons, flatMap_cons] at heq
  have hfst := (append_inj heq (by simp only [length_zipWith, length_map, hlen, min_self])).1
  have hdst := congrArg (map CopyOp.dst) hfst
  rw [map_dst_zipWith (by rw [length_map, hlen]), map_map] at hdst
  have hright : (c.present.map (CopyOp.dst ∘ fun i => h.copyOf ref (c.blockId i) (c.slot i))) =
      (c.present.map c.slot).map fun x => (h.copyOf ref 0 x).dst := by
    rw [map_map]
    rfl
  rw [hright] at hdst
  have hslot : ∀ x ∈ c.present.map c.slot, x ∈ slots h.blockSizeFactor c.cpuBlocks := by
    intro x hx
    obtain ⟨i, hi, rfl⟩ := mem_map.mp hx
    rw [← hc.slots_eq]
    exact mem_map_of_mem (mem_of_mem_filter hi)
  exact map_inj_of_nodup (nodup_map_dst href hdis 0) hslot
    (fun x hx => mem_of_mem_drop (mem_of_mem_take hx)) hdst.symm

/-! ### The whole loop -/

section loop

variable {cs : List GroupCopy} {srcBlocks dstBlocks : List ℕ} {acc : CopyState}

def loopEntry (c : GroupCopy) :
    ℕ × ℕ × List CanonicalKVCacheRef := (c.present.length, c.start, c.refs)

include hs in
lemma foldlM_copyGroup_of_full (hrefs : ∀ c ∈ cs, ∀ ref ∈ c.refs, ref.tensorIdx < h.tensors.length)
    (hpl : ∀ c ∈ cs, c.Placed h.blockSizeFactor)
    (hdis : (cs.flatMap GroupCopy.cpuBlocks).Nodup) (hfull : ∀ c ∈ cs, c.Full h.blockSizeFactor)
    (hsrc : srcBlocks.drop acc.srcOffset = cs.flatMap fun c => c.present.map c.blockId)
    (hdst : dstBlocks.drop acc.dstOffset = cs.flatMap GroupCopy.cpuBlocks) :
    (cs.map loopEntry).foldlM (h.copyGroup srcBlocks dstBlocks) acc = .ok {
      srcOffset := acc.srcOffset + (cs.flatMap fun c => c.present.map c.blockId).length
      dstOffset := acc.dstOffset + (cs.flatMap GroupCopy.cpuBlocks).length
      ops := acc.ops ++ cs.flatMap h.rightGroup } := by
  induction cs generalizing acc with
  | nil => simp [pure, Except.pure]
  | cons c cs ih =>
    rw [forall_mem_cons] at hrefs hpl hfull
    rw [flatMap_cons] at hsrc hdst hdis
    have hnd := nodup_append.mp hdis
    rw [map_cons, foldlM_cons, loopEntry, copyGroup_eq hs hrefs.1 hpl.1 hsrc hdst, ok_bind,
      count_of_full hs hpl.1 hfull.1, madeGroup_of_full hpl.1 hnd.1 hfull.1, ih hrefs.2 hpl.2
        hnd.2.1 hfull.2]
    · simp only [flatMap_cons, length_append, length_map, add_assoc, append_assoc]
    · show srcBlocks.drop (acc.srcOffset + c.present.length) = _
      rw [← drop_drop, hsrc, drop_left' (length_map _)]
    · show dstBlocks.drop (acc.dstOffset + c.cpuBlocks.length) = _
      rw [← drop_drop, hdst, drop_left]

lemma ops_prefix_of_foldlM {entries : List (ℕ × ℕ × List CanonicalKVCacheRef)} {acc' : CopyState}
    (hrun : entries.foldlM (h.copyGroup srcBlocks dstBlocks) acc = .ok acc') :
    acc.ops <+: acc'.ops := by
  refine Machine.foldlM_invariant (P := fun _ a => acc.ops <+: a.ops) ?_ hrun (prefix_refl _)
  intro a (n, i, refs) _ a' hp hstep
  unfold copyGroup at hstep
  dsimp only at hstep
  split at hstep
  · cases hstep
    exact hp
  obtain ⟨-, -, hstep⟩ := of_bind hstep
  obtain ⟨-, -, hstep⟩ := of_bind hstep
  obtain ⟨ops, -, ⟨⟩⟩ := of_bind hstep
  exact hp.trans (prefix_append _ _)

variable (hrefs : ∀ c ∈ cs, c.refs ≠ [] ∧ ∀ ref ∈ c.refs, ref.tensorIdx < h.tensors.length)

include hrefs in
include hs in
lemma full_of_foldlM_copyGroup
    (hpl : ∀ c ∈ cs, c.Placed h.blockSizeFactor) (hdis : (cs.flatMap GroupCopy.cpuBlocks).Nodup)
    (hsrc : srcBlocks.drop acc.srcOffset = cs.flatMap fun c => c.present.map c.blockId)
    (hdst : dstBlocks.drop acc.dstOffset = cs.flatMap GroupCopy.cpuBlocks) {acc' : CopyState}
    (hrun : (cs.map loopEntry).foldlM (h.copyGroup srcBlocks dstBlocks) acc = .ok acc')
    (hops : acc'.ops = acc.ops ++ cs.flatMap h.rightGroup) :
    ∀ c ∈ cs, c.Full h.blockSizeFactor := by
  induction cs generalizing acc with
  | nil => exact fun c hc => absurd hc not_mem_nil
  | cons c cs ih =>
    rw [forall_mem_cons] at hrefs hpl ⊢
    rw [flatMap_cons] at hsrc hdst hdis hops
    have hnd := nodup_append.mp hdis
    rw [map_cons, foldlM_cons, loopEntry, copyGroup_eq hs hrefs.1.2 hpl.1 hsrc hdst,
      ok_bind] at hrun
    obtain ⟨rest, hrest⟩ := ops_prefix_of_foldlM hrun
    dsimp only at hrest
    rw [hops, append_assoc, append_cancel_left_eq] at hrest
    have hmade := (append_inj hrest (length_madeGroup hpl.1)).1
    have hfull := full_of_madeGroup hpl.1 hnd.1 hrefs.1 hmade
    refine ⟨hfull, ih hrefs.2 hpl.2 hnd.2.1 ?_ ?_ hrun ?_⟩
    · show srcBlocks.drop (acc.srcOffset + c.present.length) = _
      rw [← drop_drop, hsrc, drop_left' (length_map _)]
    · show dstBlocks.drop (acc.dstOffset + (cdiv _ _).toNat) = _
      rw [count_of_full hs hpl.1 hfull, ← drop_drop, hdst, drop_left]
    · show acc'.ops = acc.ops ++ h.madeGroup c ++ _
      rw [hops, hmade, append_assoc]

lemma length_rightGroup (c : GroupCopy) :
    (h.rightGroup c).length = c.present.length * c.refs.length := by
  simp [rightGroup, length_flatMap, mul_comm]

include hrefs in
include hs in
/-- `transfer_async` submits the right copies exactly if no group has a hole. -/
lemma transferAsync_eq_iff {job : TransferJob}
    (hpl : ∀ c ∈ cs, c.Placed h.blockSizeFactor) (hdis : (cs.flatMap GroupCopy.cpuBlocks).Nodup)
    (hgs : h.kvCacheGroupsDataRefs = cs.map GroupCopy.refs) (hspec : job.gpuSpec = {
      blockIds := cs.flatMap fun c => c.present.map c.blockId
      groupSizes := cs.map fun c => c.present.length
      blockIndices := cs.map GroupCopy.start })
    (hbackend : job.backendSpec = cs.flatMap GroupCopy.cpuBlocks) :
    h.transferAsync job = .ok (cs.flatMap h.rightGroup) ↔ ∀ c ∈ cs, c.Full h.blockSizeFactor := by
  have hent : job.gpuSpec.groupSizes.zip (job.gpuSpec.blockIndices.zip h.kvCacheGroupsDataRefs) =
      cs.map loopEntry := by
    rw [hspec, hgs, zip_map', zip_map']
    rfl
  have hsizes : (zipWith (fun size refs => size * length refs) job.gpuSpec.groupSizes
      h.kvCacheGroupsDataRefs).sum = (cs.flatMap h.rightGroup).length := by
    rw [hspec, hgs, zipWith_map, zipWith_self, length_flatMap]
    simp only [length_rightGroup]
  unfold transferAsync
  rw [pyAssert_pos (by rw [hspec, hgs]; simp), ok_bind, pyAssert_pos (by rw [hspec, hgs]; simp),
    ok_bind, hent]
  dsimp only
  rw [hsizes, hs.gpuToCpu, if_pos rfl, if_pos rfl, hbackend, hspec]
  constructor
  · intro hrun
    obtain ⟨acc, hloop, hrun⟩ := of_bind hrun
    obtain ⟨-, -, hrun⟩ := of_bind hrun
    obtain ⟨-, -, hrun⟩ := of_bind hrun
    obtain ⟨-, -, hrun⟩ := of_bind hrun
    exact full_of_foldlM_copyGroup hs hrefs hpl hdis (drop_zero) (drop_zero) hloop
      (Except.ok.inj hrun)
  intro hfull
  rw [foldlM_copyGroup_of_full hs (fun c hc => (hrefs c hc).2) hpl hdis hfull (drop_zero)
    (drop_zero), ok_bind, pyAssert_pos (zero_add _), ok_bind,
    pyAssert_pos (zero_add _), ok_bind, nil_append, pyAssert_pos rfl]
  rfl

end loop

end SingleDirectionOffloadingHandler

end Vllm.Offload
