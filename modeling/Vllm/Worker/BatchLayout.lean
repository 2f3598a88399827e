import Vllm.Worker.BatchEffects

/-! # The rows of the batch -/

namespace Vllm.Worker

open Compaction List Function Option BatchUpdateBuilder OrderedDict

variable {ε γ : Type}

namespace InputBatch

/-- Before `condense`: the freed rows that are listed are the empty ones. -/
structure Open (b : InputBatch ε γ) : Prop where
  indexed : b.Indexed
  outputs_length : b.reqOutputTokenIds.length = b.reqIds.length
  le_max : b.reqIds.length ≤ b.maxNumReqs
  hole_iff : ∀ i, i ∈ b.removed ↔ i < b.reqIds.length ∧ b.rowId i = none
  nodup : b.removed.Nodup
  count : b.reqIds.length = b.numReqs + b.removed.length
  sorted : b.batchUpdateBuilder.isRemovedSorted = true → b.removed.Pairwise (· > ·)
  moved : b.batchUpdateBuilder.moved = []

/-- After `condense`: no row is empty, and the freed rows that are still listed are behind the
batch. -/
structure Closed (b : InputBatch ε γ) : Prop where
  indexed : b.Indexed
  outputs_length : b.reqOutputTokenIds.length = b.reqIds.length
  le_max : b.reqIds.length ≤ b.maxNumReqs
  filled : ∀ i < b.reqIds.length, (b.rowId i).isSome
  beyond : ∀ i ∈ b.removed, b.reqIds.length ≤ i
  count : b.reqIds.length = b.numReqs

section updates

variable {b b' : InputBatch ε γ} {i : ℕ} {reqId : String} {i1 i2 : ℕ} {id1 id2 : String}
  {builder : BatchUpdateBuilder}
  {r : CachedRequestState ε γ} {moves : List (ℕ × ℕ)}

lemma Indexed.erase (h : b.Indexed) (hrow : b.rowId i = some reqId)
    (hrow' : b'.rowId = update b.rowId i none)
    (hidx : b'.reqIdToIndex = b.reqIdToIndex.erase reqId) : b'.Indexed := by
  rw [Indexed, hidx, get?_erase_eq_update, hrow']
  exact Inverse.erase h hrow

lemma Indexed.set (h : b.Indexed) (hnew : b.reqIdToIndex.get? reqId = none)
    (hemp : b.rowId i = none) (hrow : b'.rowId = update b.rowId i (some reqId))
    (hidx : b'.reqIdToIndex = b.reqIdToIndex.set reqId i) : b'.Indexed := by
  rw [Indexed, hidx, get?_set_eq_update, hrow]
  exact Inverse.insert h hnew hemp

lemma Removed.rowId (h : Removed b b' reqId i) (hi : i < b.reqIds.length) :
    b'.rowId = update b.rowId i none := by
  rw [InputBatch.rowId, h.reqIds, cells_set hi]
  rfl

lemma Open.remove (h : b.Open) (hrow : b.rowId i = some reqId)
    (hflag : b.batchUpdateBuilder.isRemovedSorted = false) (hrem : Removed b b' reqId i) :
    b'.Open ∧ b'.batchUpdateBuilder.isRemovedSorted = false := by
  have hlt : i < b.reqIds.length := lt_of_cells hrow
  have hrow' := hrem.rowId hlt
  have hlen : b'.reqIds.length = b.reqIds.length := by rw [hrem.reqIds, length_set]
  have hremoved : b'.removed = b.removed ++ [i] := congrArg BatchUpdateBuilder.removed hrem.builder
  have hnum : b'.numReqs + 1 = b.numReqs := by
    rw [numReqs, hrem.reqIdToIndex]
    exact length_erase_add ((h.indexed reqId i).mpr hrow)
  have hnotMem : i ∉ b.removed := by
    intro hmem
    rw [((h.hole_iff i).mp hmem).2] at hrow
    cases hrow
  have hflag' : b'.batchUpdateBuilder.isRemovedSorted = false := by rw [hrem.builder]; exact hflag
  refine ⟨⟨h.indexed.erase hrow hrow' hrem.reqIdToIndex, ?_, ?_, ?_, ?_, ?_, ?_, ?_⟩, hflag'⟩
  · rw [hrem.reqOutputTokenIds, hlen, length_set, h.outputs_length]
  · rw [hlen, hrem.setup.maxNumReqs]
    exact h.le_max
  · intro j
    rw [hremoved, mem_append, hlen, hrow', h.hole_iff]
    rcases eq_or_ne j i with rfl | hne
    · simp [hlt]
    · simp [hne]
  · rw [hremoved, nodup_append]
    refine ⟨h.nodup, nodup_singleton i, ?_⟩
    intro j hj k hk
    rw [mem_singleton] at hk
    rw [hk]
    exact ne_of_mem_of_not_mem hj hnotMem
  · have := h.count
    rw [hremoved, length_append, length_singleton]
    omega
  · rw [hflag']
    exact fun hf => nomatch hf
  · rw [hrem.builder]
    exact h.moved

lemma Open.spec (h : b.Open) {spec : List ℤ} (hupd : SpecUpdated b b' i spec) : b'.Open := by
  have hrow : b'.rowId = b.rowId := by rw [rowId, hupd.reqIds]; rfl
  refine ⟨?_, ?_, ?_, ?_, ?_, ?_, ?_, ?_⟩
  · intro x j
    rw [hupd.reqIdToIndex, hrow]
    exact h.indexed x j
  · rw [hupd.reqOutputTokenIds, hupd.reqIds, h.outputs_length]
  · rw [hupd.reqIds, hupd.setup.maxNumReqs]
    exact h.le_max
  · rw [removed, hupd.builder, hupd.reqIds, hrow]
    exact h.hole_iff
  · rw [removed, hupd.builder]
    exact h.nodup
  · rw [removed, hupd.builder, hupd.reqIds, numReqs, hupd.reqIdToIndex]
    exact h.count
  · rw [removed, hupd.builder]
    exact h.sorted
  · rw [hupd.builder]
    exact h.moved

lemma sortedRemoved (h : b.Open) : b.batchUpdateBuilder.ensureRemovedSorted.removed.Perm b.removed ∧
      b.batchUpdateBuilder.ensureRemovedSorted.removed.Pairwise (· > ·) := by
  by_cases hflag : b.batchUpdateBuilder.isRemovedSorted = true
  · rw [ensureRemovedSorted_of_sorted hflag]
    exact ⟨.refl _, h.sorted hflag⟩
  have hsort : b.batchUpdateBuilder.ensureRemovedSorted.removed =
    b.removed.insertionSort (· ≥ ·) := by
    rw [ensureRemovedSorted, if_neg hflag]
  rw [hsort]
  have hperm := perm_insertionSort (· ≥ ·) b.removed
  refine ⟨hperm, ?_⟩
  have hnd : (b.removed.insertionSort (· ≥ ·)).Nodup := hperm.nodup_iff.mpr h.nodup
  exact ((pairwise_insertionSort (· ≥ ·) b.removed).and hnd).imp
    fun hab => lt_of_le_of_ne hab.1 (fun heq => hab.2 heq.symm)

lemma ensureRemovedSorted_fields (builder : BatchUpdateBuilder) :
    builder.ensureRemovedSorted.isRemovedSorted = true ∧
    builder.ensureRemovedSorted.added = builder.added ∧
      builder.ensureRemovedSorted.moved = builder.moved := by
  unfold ensureRemovedSorted
  split_ifs with hflag
  · exact ⟨hflag, rfl, rfl⟩
  · exact ⟨rfl, rfl, rfl⟩

/-- The row of the next request: the lowest freed one or the one behind the last. -/
def nextIndex (b : InputBatch ε γ) : ℕ := b.batchUpdateBuilder.popRemoved.1.getD b.numReqs

/-- The builder after `pop_removed`. -/
structure Popped (b : InputBatch ε γ) (builder : BatchUpdateBuilder) : Prop where
  pop : b.batchUpdateBuilder.popRemoved.2 = builder
  mem_iff : ∀ i, i ∈ builder.removed ↔ i ∈ b.removed ∧ i ≠ b.nextIndex
  nodup : builder.removed.Nodup
  sorted : builder.isRemovedSorted = true → builder.removed.Pairwise (· > ·)
  added : builder.added = b.batchUpdateBuilder.added
  moved : builder.moved = b.batchUpdateBuilder.moved
  /-- either the batch grows by a row or a freed row is used again -/
  index : b.removed = [] ∧ builder.removed = [] ∧ b.nextIndex = b.reqIds.length ∨
    b.nextIndex ∈ b.removed ∧ builder.removed.length + 1 = b.removed.length

lemma Popped.addRequest (h : Popped b builder)
    (hlt : b.nextIndex < b.maxNumReqs) (hkind : r.samplingParams.isSome ∨ r.poolingParams.isSome) :
    ∃ b', b.addRequest r = .ok (b.nextIndex, b') ∧ Added b b' r b.nextIndex builder := by
  have hpair : b.batchUpdateBuilder.popRemoved = (b.batchUpdateBuilder.popRemoved.1, builder) :=
    Prod.ext rfl h.pop
  exact addRequest_ok hpair hlt hkind

lemma Open.popped (h : b.Open) : ∃ builder, Popped b builder := by
  refine ⟨b.batchUpdateBuilder.popRemoved.2, ?_⟩
  rcases eq_nil_or_concat b.batchUpdateBuilder.ensureRemovedSorted.removed with hnil |
    ⟨init, hole, hconcat⟩
  · have hremoved : b.removed = [] := by
      have := (sortedRemoved h).1
      rw [hnil] at this
      exact this.symm.eq_nil
    have hpop := popRemoved_nil hremoved
    have hnext : b.nextIndex = b.reqIds.length := by
      have := h.count
      rw [nextIndex, hpop]
      rw [hremoved, length_nil] at this
      exact this.symm
    have hemp : b.batchUpdateBuilder.popRemoved.2.removed = [] := by rw [hpop]; exact hremoved
    refine ⟨rfl, ?_, ?_, ?_, ?_, ?_, .inl ⟨hremoved, hemp, hnext⟩⟩
    · simp [hemp, hremoved]
    · simp [hemp]
    · simp [hemp]
    · rw [hpop]
    · rw [hpop]
  rw [concat_eq_append] at hconcat
  obtain ⟨hperm, hpw⟩ := sortedRemoved h
  have hpop := popRemoved_concat b.batchUpdateBuilder hconcat
  obtain ⟨_, hadded, hmoved⟩ := ensureRemovedSorted_fields b.batchUpdateBuilder
  have hnext : b.nextIndex = hole := by rw [nextIndex, hpop]; rfl
  have hrest : b.batchUpdateBuilder.popRemoved.2.removed = init := by rw [hpop]
  rw [hconcat] at hperm hpw
  have hmem : ∀ i, i ∈ b.removed ↔ i ∈ init ∨ i = hole := by
    intro i
    rw [← hperm.mem_iff, mem_append, mem_singleton]
  have hnd : (init ++ [hole]).Nodup := hperm.nodup_iff.mpr h.nodup
  have hnotMem : hole ∉ init := fun hi =>
    (nodup_append.mp hnd).2.2 hole hi hole (mem_singleton_self _) rfl
  refine ⟨rfl, ?_, ?_, ?_, ?_, ?_, .inr ⟨?_, ?_⟩⟩
  · intro i
    rw [hrest, hmem, hnext]
    constructor
    · exact fun hi => ⟨.inl hi, ne_of_mem_of_not_mem hi hnotMem⟩
    rintro ⟨hi | hi, hne⟩
    · exact hi
    · exact absurd hi hne
  · rw [hrest]
    exact (nodup_append.mp hnd).1
  · rw [hrest]
    exact fun _ => (pairwise_append.mp hpw).1
  · rw [hpop]
    exact hadded
  · rw [hpop]
    exact hmoved
  · rw [hnext, hmem]
    exact .inr rfl
  · rw [hrest, ← hperm.length_eq, length_append, length_singleton]

lemma Open.rowId_nextIndex (h : b.Open) :
    b.rowId b.nextIndex = none ∧ b.nextIndex ≤ b.reqIds.length := by
  obtain ⟨builder, hpop⟩ := h.popped
  rcases hpop.index with ⟨_, _, hnext⟩ | ⟨hmem, _⟩
  · rw [hnext]
    exact ⟨cells_of_ge le_rfl, le_rfl⟩
  · obtain ⟨hlt, hnone⟩ := (h.hole_iff _).mp hmem
    exact ⟨hnone, hlt.le⟩

lemma Open.nextIndex_lt (h : b.Open) (hmax : b.numReqs < b.maxNumReqs) :
    b.nextIndex < b.maxNumReqs := by
  obtain ⟨builder, hpop⟩ := h.popped
  have hle := h.le_max
  rcases hpop.index with ⟨hnil, _, hnext⟩ | ⟨hmem, _⟩
  · have hcnt := h.count
    rw [hnil, length_nil] at hcnt
    omega
  · have := ((h.hole_iff _).mp hmem).1
    omega

lemma Added.rowId (h : Added b b' r i builder)
    (hi : i ≤ b.reqIds.length) : b'.rowId = update b.rowId i (some r.reqId) := by
  rw [InputBatch.rowId, h.reqIds]
  split_ifs with heq
  · rw [cells_append, heq]
    rfl
  · exact cells_set (by omega) _

lemma Added.outputAt (h : Added b b' r i builder)
    (houtputs : b.reqOutputTokenIds.length = b.reqIds.length) (hi : i ≤ b.reqIds.length) :
    b'.outputAt = update b.outputAt i (some r.outputTokenIds) := by
  rw [InputBatch.outputAt, h.reqOutputTokenIds]
  split_ifs with heq
  · rw [cells_append, houtputs, heq]
    rfl
  · exact cells_set (by omega) _

lemma Open.add (h : b.Open) (hpop : Popped b builder)
    (hnew : b.reqIdToIndex.get? r.reqId = none) (hmax : b.numReqs < b.maxNumReqs)
    (hadd : Added b b' r b.nextIndex builder) : b'.Open := by
  obtain ⟨hnone, hle⟩ := h.rowId_nextIndex
  have hrow := hadd.rowId hle
  have hlen : b'.reqIds.length = if b.nextIndex = b.reqIds.length then b.reqIds.length + 1 else
    b.reqIds.length := by
    rw [hadd.reqIds]
    split_ifs <;> simp
  have hremoved : b'.removed = builder.removed := by rw [removed, hadd.builder]
  have hnum : b'.numReqs = b.numReqs + 1 := by
    rw [numReqs, hadd.reqIdToIndex]
    exact length_set_of_none hnew
  have hcnt := h.count
  have hlemax := h.le_max
  refine ⟨h.indexed.set hnew hnone hrow hadd.reqIdToIndex, ?_, ?_, ?_, ?_, ?_, ?_, ?_⟩
  · rw [hadd.reqOutputTokenIds, hadd.reqIds]
    split_ifs <;> simp [h.outputs_length]
  · rw [hlen, hadd.setup.maxNumReqs]
    rcases hpop.index with ⟨hnil, _, hnext⟩ | ⟨hmem, _⟩
    · rw [if_pos hnext]
      rw [hnil, length_nil] at hcnt
      omega
    · rw [if_neg ((h.hole_iff _).mp hmem).1.ne]
      exact hlemax
  · intro i
    rw [hremoved, hpop.mem_iff, h.hole_iff, hrow]
    rcases eq_or_ne i b.nextIndex with rfl | hne
    · simp
    rw [update_of_ne hne, hlen]
    split_ifs with heq
    · constructor
      · exact fun hi => ⟨by omega, hi.1.2⟩
      · exact fun hi => ⟨⟨by omega, hi.2⟩, hne⟩
    · simp [hne]
  · rw [hremoved]
    exact hpop.nodup
  · rw [hlen, hnum, hremoved]
    rcases hpop.index with ⟨hnil, hnil', hnext⟩ | ⟨hmem, hlength⟩
    · rw [if_pos hnext, hnil']
      rw [hnil] at hcnt
      simp only [length_nil] at hcnt ⊢
      omega
    · rw [if_neg ((h.hole_iff _).mp hmem).1.ne]
      omega
  · rw [hadd.builder, hremoved]
    exact hpop.sorted
  · rw [hadd.builder]
    exact hpop.moved.trans h.moved

def condenseMoves (b : InputBatch ε γ) : List (ℕ × ℕ) :=
  let holes := b.batchUpdateBuilder.ensureRemovedSorted.removed
  if b.numReqs = 0 then [] else slides holes holes.length (b.numReqs + holes.length - 1)

/-- `condense` takes the requests of the rows from `num_reqs` on into the empty rows below. -/
structure Condensed (b b' : InputBatch ε γ) (moves : List (ℕ × ℕ)) : Prop where
  setup : SameSetup b b'
  closed : b'.Closed
  numReqs : b'.numReqs = b.numReqs
  apart : Apart moves
  move : ∀ mv ∈ moves, (b.rowId mv.1).isSome ∧ b.numReqs ≤ mv.1 ∧ mv.2 ∈ b.removed ∧
    mv.2 < b.numReqs
  filled : ∀ i ∈ b.removed, i < b.numReqs → i ∈ moves.map Prod.snd
  emptied : ∀ i, b.numReqs ≤ i → (b.rowId i).isSome → i ∈ moves.map Prod.fst
  rowId : b'.rowId = moves.foldl (slide (fun _ x => x) fun _ => none) b.rowId
  outputAt : ∀ i < b.numReqs, b'.outputAt i =
    moves.foldl (slide (fun _ x => x) fun _ => none) b.outputAt i
  rows :
    ∀ i < b.numReqs, b'.rows i =
    moves.foldl (slide (fun dst src => dst.moveFrom src b.isPoolingModel)
    fun src => src.vacate b.isPoolingModel) b.rows i
  rows_beyond : ∀ i ≥ b.numReqs, ∃ spec, b'.rows i =
    { moves.foldl (slide (fun dst src => dst.moveFrom src b.isPoolingModel)
    fun src => src.vacate b.isPoolingModel) b.rows i with specTokenIds := spec } ∧ (spec = [] ∨
      spec = (moves.foldl (slide (fun dst src => dst.moveFrom src b.isPoolingModel)
        fun src => src.vacate b.isPoolingModel) b.rows i).specTokenIds)
  mask : b'.maskRow = if b.isPoolingModel then b.maskRow else
    moves.foldl (slide (fun _ x => x) id) b.maskRow
  removed_iff : ∀ i, i ∈ b'.removed ↔ i ∈ b.removed ∧ i ∉ moves.map Prod.snd
  added : b'.batchUpdateBuilder.added = b.batchUpdateBuilder.added
  moved : b'.batchUpdateBuilder.moved =
    if b.isPoolingModel then [] else moves.map fun mv => ⟨mv.1, mv.2, .unidirectional⟩
  loraIdToRequestIds : b'.loraIdToRequestIds = b.loraIdToRequestIds
  loraIdToLoraRequest : b'.loraIdToLoraRequest = b.loraIdToLoraRequest

abbrev sorted (b : InputBatch ε γ) : InputBatch ε γ :=
  { b with batchUpdateBuilder := b.batchUpdateBuilder.ensureRemovedSorted }

lemma Open.condense_full (h : b.Open) (hemp : b.removed = []) : Condensed b b.sorted [] := by
  have hsorted : b.batchUpdateBuilder.ensureRemovedSorted.removed = [] := by
    have := (sortedRemoved h).1
    rw [hemp] at this
    exact this.eq_nil
  obtain ⟨_, hadded, hmoved⟩ := ensureRemovedSorted_fields b.batchUpdateBuilder
  have hcnt := h.count
  rw [hemp, length_nil] at hcnt
  have hfull : ∀ i < b.reqIds.length, (b.rowId i).isSome := by
    intro i hi
    rw [isSome_iff_ne_none]
    intro hnone
    have := (h.hole_iff i).mpr ⟨hi, hnone⟩
    rw [hemp] at this
    cases this
  refine ⟨⟨rfl, rfl, rfl, rfl, rfl, rfl, rfl, rfl⟩,
    ⟨h.indexed, h.outputs_length, h.le_max, hfull, ?_, hcnt⟩, rfl,
    ⟨by simp, by simp, by simp⟩, by simp,
    by simp [hemp], ?_, rfl, fun _ _ => rfl, fun _ _ => rfl, ?_, ?_, ?_, hadded, ?_, rfl, rfl⟩
  · rw [removed, hsorted]
    simp
  · intro i hi hsome
    have hlt : i < b.reqIds.length := by
      rw [InputBatch.rowId, cells_of_ge (by omega)] at hsome
      cases hsome
    omega
  · exact fun i _ => ⟨_, rfl, .inr rfl⟩
  · exact (ite_self _).symm
  · intro i
    rw [removed, hsorted, hemp]
    simp
  · rw [hmoved, h.moved]
    exact (ite_self _).symm

lemma rowId_slides {last : ℕ} {holes : List ℕ} (hslides : Slides holes last b.numReqs moves)
    (hlast : ∀ i, last < i → b.rowId i = none)
    (hholes : ∀ i, i ∈ holes ↔ i ≤ last ∧ b.rowId i = none) (i : ℕ) :
    (moves.foldl (slide (fun _ x => x) fun _ => none) b.rowId i).isSome ↔ i < b.numReqs ∧
    i ≤ last := by
  by_cases hfrom : i ∈ moves.map Prod.fst
  · obtain ⟨mv, hmv, rfl⟩ := mem_map.mp hfrom
    rw [foldl_slide_from hslides.apart hmv]
    have := (hslides.move mv hmv).2.1
    simp only [isSome_none, Bool.false_eq_true, false_iff]
    omega
  by_cases hto : i ∈ moves.map Prod.snd
  · obtain ⟨mv, hmv, rfl⟩ := mem_map.mp hto
    obtain ⟨hnot, hge, hle, hhole, hlt⟩ := hslides.move mv hmv
    rw [foldl_slide_to hslides.apart hmv]
    have hsome : (b.rowId mv.1).isSome := by
      rw [isSome_iff_ne_none]
      exact fun hnone => hnot ((hholes _).mpr ⟨hle, hnone⟩)
    simp only [hsome, true_iff]
    omega
  rw [foldl_slide_of_notMem hfrom hto]
  by_cases hle : i ≤ last
  · by_cases hhole : i ∈ holes
    · have hge : ¬ i < b.numReqs := fun hlt => hto (hslides.holes_filled i hhole hlt)
      rw [((hholes i).mp hhole).2]
      simp [hge]
    have hlt : i < b.numReqs := by
      by_contra hge
      exact hfrom (hslides.rows_moved i hhole (by omega) hle)
    have hsome : (b.rowId i).isSome := by
      rw [isSome_iff_ne_none]
      exact fun hnone => hhole ((hholes _).mpr ⟨hle, hnone⟩)
    simp [hsome, hlt, hle]
  · rw [hlast i (by omega)]
    simp [hle]

lemma Open.condense_slides (h : b.Open) {holes : List ℕ} {last : ℕ} {b1 : InputBatch ε γ}
    (hholes : b.batchUpdateBuilder.ensureRemovedSorted.removed = holes)
    (hlast : last + 1 = b.reqIds.length)
    (hslides : Slides holes last b.numReqs moves) (hslid : Slid b.sorted b1 moves) :
    Condensed b (b1.trim b1.numReqs) moves := by
  obtain ⟨hperm, _⟩ := sortedRemoved h
  obtain ⟨_, hadded, hmoved⟩ := ensureRemovedSorted_fields b.batchUpdateBuilder
  rw [hholes] at hperm
  have hnum : b1.numReqs = b.numReqs := hslid.numReqs
  have hle : b.numReqs ≤ b.reqIds.length := by
    have := h.count
    omega
  have hlen : b1.reqIds.length = b.reqIds.length := hslid.length
  have hmem : ∀ i, i ∈ holes ↔ i ≤ last ∧ b.rowId i = none := by
    intro i
    rw [hperm.mem_iff, h.hole_iff, ← hlast, Nat.lt_succ_iff]
  have hbehind : ∀ i, last < i → b.rowId i = none := fun i hi => cells_of_ge (by omega)
  have hsome := rowId_slides hslides hbehind hmem
  have hrow1 : b1.rowId = moves.foldl (slide (fun _ x => x) fun _ => none) b.rowId := hslid.rowId
  have hcut : (b1.trim b1.numReqs).rowId = b1.rowId := by
    funext i
    refine (cells_take _ i).trans ?_
    split_ifs with hi
    · rfl
    rw [hrow1]
    refine (not_isSome_iff_eq_none.mp fun hs => hi ?_).symm
    rw [hnum]
    exact ((hsome i).mp hs).1
  have hsplit : holes = b1.removed ++ (moves.map Prod.snd).reverse := by
    rw [← hholes]
    exact hslid.removed
  have hnd : holes.Nodup := hperm.nodup_iff.mpr h.nodup
  have hrest : ∀ i, i ∈ b1.removed ↔ i ∈ b.removed ∧ i ∉ moves.map Prod.snd := by
    intro i
    rw [← hperm.mem_iff, hsplit, mem_append, mem_reverse]
    rw [hsplit, nodup_append] at hnd
    constructor
    · intro hi
      exact ⟨.inl hi, fun hto => hnd.2.2 i hi i (mem_reverse.mpr hto) rfl⟩
    rintro ⟨hi | hi, hto⟩
    · exact hi
    · exact absurd hi hto
  have hlen' : (b1.trim b1.numReqs).reqIds.length = b.numReqs := by
    show (b1.reqIds.take b1.numReqs).length = _
    rw [length_take, hnum, hlen]
    omega
  have hs := hslid.setup
  refine ⟨⟨hs.isPoolingModel, hs.maxNumReqs, hs.vocabSize, hs.blocksPerKvBlock, hs.thinking,
    hs.biases, hs.minToks, hs.minP⟩,
    ⟨?_, ?_, ?_, ?_, ?_, ?_⟩, hnum, hslides.apart, ?_, ?_, ?_, ?_, ?_, ?_, ?_, ?_, hrest, ?_, ?_,
    hslid.loraIdToRequestIds, hslid.loraIdToLoraRequest⟩
  · intro reqId i
    rw [hcut]
    exact hslid.indexed reqId i
  · show (b1.reqOutputTokenIds.take b1.numReqs).length = (b1.reqIds.take b1.numReqs).length
    have houtputs : b1.reqOutputTokenIds.length = b.reqOutputTokenIds.length := hslid.outputs_length
    rw [length_take, length_take, houtputs, hlen, h.outputs_length]
  · rw [hlen', show (b1.trim b1.numReqs).maxNumReqs = b.maxNumReqs from hslid.setup.maxNumReqs]
    exact hle.trans h.le_max
  · intro i hi
    rw [hcut, hrow1, hsome]
    omega
  · intro i hi
    rw [hlen']
    by_contra hlt
    obtain ⟨hmem', hto⟩ := (hrest i).mp hi
    exact hto (hslides.holes_filled i (hperm.mem_iff.mpr hmem') (by omega))
  · rw [hlen']
    exact hnum.symm
  · intro mv hmv
    obtain ⟨hnot, hge, hle', hhole, hlt⟩ := hslides.move mv hmv
    refine ⟨?_, hge, hperm.mem_iff.mp hhole, hlt⟩
    rw [isSome_iff_ne_none]
    exact fun hnone => hnot ((hmem _).mpr ⟨hle', hnone⟩)
  · exact fun i hi hlt => hslides.holes_filled i (hperm.mem_iff.mpr hi) hlt
  · intro i hge hs
    refine hslides.rows_moved i ?_ hge ?_
    · intro hi
      rw [((hmem i).mp hi).2] at hs
      cases hs
    by_contra hgt
    rw [hbehind i (by omega)] at hs
    cases hs
  · rw [hcut, hrow1]
  · intro i hi
    refine (cells_take _ i).trans ?_
    rw [hnum, if_pos hi]
    exact congrFun hslid.outputAt i
  · intro i hi
    show (if i < b1.numReqs then b1.rows i else _) = _
    rw [hnum, if_pos hi]
    exact congrFun hslid.rows i
  · intro i hi
    refine ⟨[], ?_, .inl rfl⟩
    show (if i < b1.numReqs then b1.rows i else { b1.rows i with specTokenIds := [] }) = _
    rw [hnum, if_neg (by omega), hslid.rows]
  · exact hslid.mask
  · exact hslid.added.trans hadded
  refine hslid.moved.trans ?_
  rw [show b.sorted.batchUpdateBuilder.moved = b.batchUpdateBuilder.moved from hmoved, h.moved]
  rfl

lemma Open.condense_empty (h : b.Open) (hzero : b.numReqs = 0) (hpos : 0 < b.reqIds.length) :
    Condensed b (b.sorted.trim 0) [] := by
  have hnone : ∀ i, b.rowId i = none := by
    intro i
    by_contra hsome
    obtain ⟨reqId, hid⟩ := ne_none_iff_exists'.mp hsome
    have hlen := length_erase_add ((h.indexed reqId i).mpr hid)
    have hzero : b.reqIdToIndex.length = 0 := hzero
    omega
  have hslides :
    Slides b.batchUpdateBuilder.ensureRemovedSorted.removed (b.reqIds.length - 1) b.numReqs [] := by
    refine Slides.nil (fun i _ => hzero ▸ Nat.zero_le i) fun i hi hle => absurd ?_ hi
    exact (sortedRemoved h).1.mem_iff.mpr ((h.hole_iff i).mpr ⟨by omega, hnone i⟩)
  have hslid := h.condense_slides rfl (by omega) hslides (Slid.nil (b := b.sorted) h.indexed)
  rwa [show b.sorted.numReqs = 0 from hzero] at hslid

/-- `condense` succeeds and leaves the requests in the first rows. -/
lemma Open.condense_ok (h : b.Open) :
    ∃ b', b.condense = .ok b' ∧ Condensed b b' b.condenseMoves := by
  obtain ⟨hperm, hpw⟩ := sortedRemoved h
  obtain ⟨hflag, hadded, hmoved⟩ := ensureRemovedSorted_fields b.batchUpdateBuilder
  unfold condense condenseMoves
  dsimp only
  generalize hholes : b.batchUpdateBuilder.ensureRemovedSorted.removed = holes at *
  by_cases hemp : holes.isEmpty = true
  · rw [if_pos hemp]
    rw [List.isEmpty_iff] at hemp
    subst hemp
    refine ⟨_, rfl, ?_⟩
    have hmoves :
      (if b.numReqs = 0 then [] else
      slides [] ([] : List ℕ).length (b.numReqs + ([] : List ℕ).length - 1)) =
        ([] : List (ℕ × ℕ)) := ite_self _
    rw [hmoves]
    exact h.condense_full hperm.symm.eq_nil
  rw [if_neg hemp]
  have hcnt := h.count
  rw [← hperm.length_eq] at hcnt
  have hlength : 0 < holes.length := length_pos_iff.mpr fun hnil => hemp (by rw [hnil]; rfl)
  by_cases hzero : b.numReqs = 0
  · rw [if_pos (show b.sorted.numReqs = 0 from hzero), if_pos hzero]
    exact ⟨_, rfl, h.condense_empty hzero (by omega)⟩
  rw [if_neg (show b.sorted.numReqs ≠ 0 from hzero), if_neg hzero]
  have hmem : ∀ i, i ∈ holes ↔ i < b.reqIds.length ∧ b.rowId i = none := fun i => by
    rw [hperm.mem_iff, h.hole_iff]
  have hup : holesUpTo holes (b.numReqs + holes.length - 1) = holes.length := by
    rw [holesUpTo, filter_eq_self.mpr]
    intro i hi
    have := ((hmem i).mp hi).1
    rw [decide_eq_true_eq]
    omega
  have hslides : Slides holes (b.numReqs + holes.length - 1) b.numReqs
      (slides holes holes.length (b.numReqs + holes.length - 1)) :=
    slides_spec hpw le_rfl (by omega) (by omega)
  have hfilled : ∀ i ≤ b.numReqs + holes.length - 1, i ∉ holes → (b.rowId i).isSome := by
    intro i hi hnot
    rw [isSome_iff_ne_none]
    exact fun hnone => hnot ((hmem i).mpr ⟨by omega, hnone⟩)
  rw [← hholes] at hpw hmem
  obtain ⟨b1, hloop, hslid⟩ :
    ∃ b1, condenseLoop b.sorted holes.length (b.numReqs + holes.length - 1) = .ok b1 ∧
      Slid b.sorted b1
        (slides b.batchUpdateBuilder.ensureRemovedSorted.removed holes.length
          (b.numReqs + holes.length - 1)) :=
    condenseLoop_ok h.indexed h.outputs_length hflag hpw (fun i hi => (hmem i).mp hi)
      fun i hi hnot => hfilled i hi (by rwa [removed, hholes] at hnot)
  rw [hholes] at hslid
  refine ⟨_, ?_, h.condense_slides hholes (by omega) hslides hslid⟩
  rw [show b.sorted.numReqs = b.numReqs from rfl, hloop]
  rfl

variable (h : RowsSwapped b b' i1 i2 id1 id2)
include h

lemma RowsSwapped.rowId (h1 : i1 < b.reqIds.length) (h2 : i2 < b.reqIds.length) :
    b'.rowId = update (update b.rowId i1 (some id2)) i2 (some id1) := by
  rw [InputBatch.rowId, h.reqIds, cells_set (by simpa using h2), cells_set h1]
  rfl

lemma RowsSwapped.outputAt (h1 : i1 < b.reqOutputTokenIds.length)
    (h2 : i2 < b.reqOutputTokenIds.length) :
    b'.outputAt = update (update b.outputAt i1 (b.outputAt i2)) i2 (b.outputAt i1) := by
  rw [InputBatch.outputAt, h.reqOutputTokenIds, cells_set (by simpa using h2), cells_set h1]
  rfl

omit h

lemma Closed.swap (h : b.Closed) (h1 : b.rowId i1 = some id1)
    (h2 : b.rowId i2 = some id2) (hswap : RowsSwapped b b' i1 i2 id1 id2) : b'.Closed := by
  have hlt1 := lt_of_cells h1
  have hlt2 := lt_of_cells h2
  have hrow := hswap.rowId hlt1 hlt2
  have hlen : b'.reqIds.length = b.reqIds.length := by rw [hswap.reqIds, length_set, length_set]
  have hidx1 := (h.indexed id1 i1).mpr h1
  have hidx2 := (h.indexed id2 i2).mpr h2
  have hremoved : b'.removed = b.removed := by
    rw [removed, hswap.builder]
    split_ifs <;> rfl
  refine ⟨?_, ?_, ?_, ?_, ?_, ?_⟩
  · rw [Indexed, hswap.reqIdToIndex, get?_set_eq_update, get?_set_eq_update, hrow]
    exact Inverse.exchange h.indexed h1 h2
  · rw [hswap.reqOutputTokenIds, hlen, length_set, length_set, h.outputs_length]
  · rw [hlen, hswap.setup.maxNumReqs]
    exact h.le_max
  · intro i hi
    rw [hlen] at hi
    rw [hrow, update_apply, update_apply]
    split_ifs
    · rfl
    · rfl
    · exact h.filled i hi
  · rw [hremoved, hlen]
    exact h.beyond
  have hsome : (b.reqIdToIndex.set id1 i2).get? id2 ≠ none := by
    rw [get?_set]
    split_ifs
    · simp
    rw [hidx2]
    simp
  obtain ⟨_, hsome⟩ := ne_none_iff_exists'.mp hsome
  rw [hlen, numReqs, hswap.reqIdToIndex, length_set_of_some hsome, length_set_of_some hidx1]
  exact h.count

variable (b)

lemma refreshMetadata_builder :
    b.refreshMetadata.batchUpdateBuilder.removed = [] ∧
    b.refreshMetadata.batchUpdateBuilder.moved = [] ∧
      b.refreshMetadata.batchUpdateBuilder.added = [] ∧
      b.refreshMetadata.batchUpdateBuilder.isRemovedSorted = false := by
  unfold refreshMetadata
  split_ifs
  · exact ⟨rfl, rfl, rfl, rfl⟩
  unfold getAndReset
  split_ifs with hemp
  · simp only [Bool.and_eq_true, List.isEmpty_iff] at hemp
    exact ⟨hemp.1.1, hemp.1.2, hemp.2, rfl⟩
  · exact ⟨rfl, rfl, rfl, rfl⟩

lemma refreshMetadata_rows :
    b.refreshMetadata.reqIds = b.reqIds ∧ b.refreshMetadata.reqIdToIndex = b.reqIdToIndex ∧
      b.refreshMetadata.reqOutputTokenIds = b.reqOutputTokenIds ∧ b.refreshMetadata.rows = b.rows ∧
      b.refreshMetadata.maskRow = b.maskRow ∧
      b.refreshMetadata.loraIdToRequestIds = b.loraIdToRequestIds ∧
      b.refreshMetadata.loraIdToLoraRequest = b.loraIdToLoraRequest ∧
      b.refreshMetadata.maxNumReqs = b.maxNumReqs ∧
      b.refreshMetadata.isPoolingModel = b.isPoolingModel ∧
      b.refreshMetadata.vocabSize = b.vocabSize ∧
      b.refreshMetadata.blocksPerKvBlock = b.blocksPerKvBlock := by
  unfold refreshMetadata
  split_ifs <;> exact ⟨rfl, rfl, rfl, rfl, rfl, rfl, rfl, rfl, rfl, rfl, rfl⟩

variable {b}

lemma Closed.refresh (h : b.Closed) :
    b.refreshMetadata.Open ∧ b.refreshMetadata.batchUpdateBuilder.isRemovedSorted = false := by
  obtain ⟨hremoved, hmoved, _, hflag⟩ := refreshMetadata_builder b
  obtain ⟨hids, hindex, houts, _, _, _, _, hmax, _⟩ := refreshMetadata_rows b
  have hrow : b.refreshMetadata.rowId = b.rowId := by rw [rowId, hids]; rfl
  refine ⟨⟨?_, ?_, ?_, ?_, ?_, ?_, ?_, hmoved⟩, hflag⟩
  · intro x i
    rw [hindex, hrow]
    exact h.indexed x i
  · rw [houts, hids, h.outputs_length]
  · rw [hids, hmax]
    exact h.le_max
  · intro i
    rw [removed, hremoved, hids, hrow]
    constructor
    · intro hi
      cases hi
    rintro ⟨hlt, hnone⟩
    have := h.filled i hlt
    rw [hnone] at this
    cases this
  · rw [removed, hremoved]
    exact nodup_nil
  · rw [removed, hremoved, hids, numReqs, hindex]
    exact h.count
  · rw [removed, hremoved]
    exact fun _ => List.Pairwise.nil

lemma Condensed.source (h : Condensed b b' moves) (hrow : b'.rowId i = some reqId) :
    ∃ src, b.rowId src = some reqId ∧ b'.outputAt i = b.outputAt src ∧
      (b.isPoolingModel = false → b'.maskRow i = b.maskRow src) ∧ (src = i ∧ b'.rows i = b.rows i ∨
        (src, i) ∈ moves ∧ b'.rows i = (b.rows i).moveFrom (b.rows src) b.isPoolingModel) := by
  have hlt : i < b.numReqs := by
    have := lt_of_cells hrow
    rw [h.closed.count, h.numReqs] at this
    exact this
  have hfrom : i ∉ moves.map Prod.fst := by
    intro hmem
    obtain ⟨mv, hmv, rfl⟩ := mem_map.mp hmem
    have := (h.move mv hmv).2.1
    omega
  rw [h.rowId] at hrow
  by_cases hto : i ∈ moves.map Prod.snd
  · obtain ⟨mv, hmv, rfl⟩ := mem_map.mp hto
    rw [foldl_slide_to h.apart hmv] at hrow
    refine ⟨mv.1, hrow, ?_, ?_, .inr ⟨hmv, ?_⟩⟩
    · rw [h.outputAt _ hlt, foldl_slide_to h.apart hmv]
    · intro hpool
      rw [h.mask, hpool, if_neg (by simp), foldl_slide_to h.apart hmv]
    · rw [h.rows _ hlt, foldl_slide_to h.apart hmv]
  rw [foldl_slide_of_notMem hfrom hto] at hrow
  refine ⟨i, hrow, ?_, ?_, .inl ⟨rfl, ?_⟩⟩
  · rw [h.outputAt _ hlt, foldl_slide_of_notMem hfrom hto]
  · intro hpool
    rw [h.mask, hpool, if_neg (by simp), foldl_slide_of_notMem hfrom hto]
  · rw [h.rows _ hlt, foldl_slide_of_notMem hfrom hto]

lemma Condensed.target (h : Condensed b b' moves) (hopen : b.Open) {src : ℕ}
    (hrow : b.rowId src = some reqId) : ∃ i, b'.rowId i = some reqId := by
  by_cases hmoved : src ∈ moves.map Prod.fst
  · obtain ⟨mv, hmv, rfl⟩ := mem_map.mp hmoved
    refine ⟨mv.2, ?_⟩
    rw [h.rowId, foldl_slide_to h.apart hmv]
    exact hrow
  refine ⟨src, ?_⟩
  have hto : src ∉ moves.map Prod.snd := by
    intro hmem
    obtain ⟨mv, hmv, rfl⟩ := mem_map.mp hmem
    rw [((hopen.hole_iff _).mp (h.move mv hmv).2.2.1).2] at hrow
    cases hrow
  rw [h.rowId, foldl_slide_of_notMem hmoved hto]
  exact hrow

include h

lemma RowsSwapped.source (hcl : b.Closed)
    (h1 : b.rowId i1 = some id1) (h2 : b.rowId i2 = some id2) (hrow : b'.rowId i = some reqId) :
    ∃ src, b.rowId src = some reqId ∧ b'.outputAt i = b.outputAt src ∧
      ((src = i ∧ i ≠ i1 ∧ i ≠ i2) ∧ b'.rows i = b.rows i ∨
        (src = i1 ∧ i = i2 ∨ src = i2 ∧ i = i1) ∧ b'.rows i = (b.rows i).swapWith
        (b.rows src) b.isPoolingModel) := by
  have hlt1 := lt_of_cells h1
  have hlt2 := lt_of_cells h2
  have hout :=
    h.outputAt (by rw [hcl.outputs_length]; exact hlt1) (by rw [hcl.outputs_length]; exact hlt2)
  rw [h.rowId hlt1 hlt2] at hrow
  rcases eq_or_ne i i2 with rfl | hne2
  · rw [update_self] at hrow
    refine ⟨i1, h1.trans hrow, ?_, .inr ⟨.inl ⟨rfl, rfl⟩, ?_⟩⟩
    · rw [hout, update_self]
    · rw [h.rows, update_self]
  rw [update_of_ne hne2] at hrow
  rcases eq_or_ne i i1 with rfl | hne1
  · rw [update_self] at hrow
    refine ⟨i2, h2.trans hrow, ?_, .inr ⟨.inr ⟨rfl, rfl⟩, ?_⟩⟩
    · rw [hout, update_of_ne hne2, update_self]
    · rw [h.rows, update_of_ne hne2, update_self]
  rw [update_of_ne hne1] at hrow
  refine ⟨i, hrow, ?_, .inl ⟨⟨rfl, hne1, hne2⟩, ?_⟩⟩
  · rw [hout, update_of_ne hne2, update_of_ne hne1]
  · rw [h.rows, update_of_ne hne2, update_of_ne hne1]

lemma RowsSwapped.target (h1 : b.rowId i1 = some id1) (h2 : b.rowId i2 = some id2) {src : ℕ}
    (hrow : b.rowId src = some reqId) : ∃ i, b'.rowId i = some reqId := by
  rw [h.rowId (lt_of_cells h1) (lt_of_cells h2)]
  rcases eq_or_ne src i1 with rfl | hne1
  · refine ⟨i2, ?_⟩
    rw [update_self, ← h1, hrow]
  rcases eq_or_ne src i2 with rfl | hne2
  · refine ⟨i1, ?_⟩
    rw [update_of_ne hne1.symm, update_self, ← h2, hrow]
  · refine ⟨src, ?_⟩
    rw [update_of_ne hne2, update_of_ne hne1, hrow]

end updates

end InputBatch

end Vllm.Worker
