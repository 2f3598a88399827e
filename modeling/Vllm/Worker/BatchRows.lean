import Vllm.Worker.ReplayRuns
import Vllm.Worker.RowContents

/-!
# The rows of the batch belong to their requests

`remove_request` leaves prompt embeddings, `condense` a copy of the allowed-token mask and the
token-id flag of a pooling request; `swap_states` exchanges neither the flag nor, since its
assignment reads views, the mask rows.
-/

namespace Vllm.Worker

open Compaction InputBatch Machine List Function

variable {ε γ : Type}

namespace ModelRunner

/-- What the row and its columns elsewhere hold for the request. -/
structure HoldsRow (b : InputBatch ε γ) (i : ℕ) (r : CachedRequestState ε γ) (spec : List ℤ) :
    Prop where
  row : (b.rows i).Holds b r spec
  output : b.outputAt i = some r.outputTokenIds
  mask : b.isPoolingModel = false → b.maskRow i = r.mask

/-- A row without a request has no generator, bad words or drafts. -/
structure Bare (row : Row ε γ) : Prop where
  generator : row.generator = none
  badWordsTokenIds : row.badWordsTokenIds = none
  specTokenIds : row.specTokenIds = []

/-- Each row holds the data of its request, and the others are bare. -/
structure InRows (w : ModelRunner ε γ) : Prop where
  holds : ∀ i reqId x, w.batch.rowId i = some reqId → w.held reqId = some x →
    HoldsRow w.batch i x.1 x.2
  bare : ∀ i, w.batch.rowId i = none → Bare (w.batch.rows i)
  plain : w.batch.isPoolingModel = true →
    ∀ i, (w.batch.rows i).generator = none ∧ (w.batch.rows i).badWordsTokenIds = none
  tables : ∀ i, (w.batch.rows i).blockTable.length = w.batch.blocksPerKvBlock.length
  embeds : ∀ i, w.batch.reqIds.length ≤ i → (w.batch.rows i).promptEmbeds = none

/-- After `condense` the rows are those of the live requests with their data, and nothing is left
behind the batch. -/
structure InStep (w : ModelRunner ε γ) : Prop where
  length : w.batch.reqIds.length = w.batch.numReqs
  filled : ∀ i < w.batch.numReqs, ∃ reqId, w.batch.rowId i = some reqId
  live : ∀ reqId, (w.held reqId).isSome ↔ ∃ i < w.batch.numReqs, w.batch.rowId i = some reqId
  indexed : w.batch.Indexed
  holds : ∀ i reqId x, w.batch.rowId i = some reqId → w.held reqId = some x →
    HoldsRow w.batch i x.1 x.2
  beyond : ∀ i ≥ w.batch.numReqs, Bare (w.batch.rows i) ∧ (w.batch.rows i).promptEmbeds = none

/-- A request comes into a row without prompt embeddings and mask or brings its own, and its
token-id flag is that of the row; freed rows behind the batch have no prompt embeddings. Swapped
rows have equal masks or, in a pooling model, flags. -/
def NoLeftovers (w : ModelRunner ε γ) : RunnerCall ε γ → Prop
  | .add r => (r.promptEmbeds.isSome ∨ (w.batch.rows w.batch.nextIndex).promptEmbeds = none) ∧
      ((r.samplingParams.bind fun p => Row.nonEmpty? p.allowedTokenIds).isSome ∨
        ∀ v, w.batch.maskRow w.batch.nextIndex v = false)
  | .condense => (∀ mv ∈ w.batch.condenseMoves,
        ((w.batch.rows mv.1).promptEmbeds.isSome ∨ (w.batch.rows mv.2).promptEmbeds = none) ∧
        (w.batch.isPoolingModel = true →
          (w.batch.rows mv.2).logitsProcessingNeedsTokenIds =
          (w.batch.rows mv.1).logitsProcessingNeedsTokenIds)) ∧
      ∀ i ∈ w.batch.removed, w.batch.numReqs ≤ i → (w.batch.rows i).promptEmbeds = none
  | .swap i1 i2 => if w.batch.isPoolingModel then
        (w.batch.rows i1).logitsProcessingNeedsTokenIds =
        (w.batch.rows i2).logitsProcessingNeedsTokenIds
      else w.batch.maskRow i1 = w.batch.maskRow i2
  | .remove _ | .updateSpec _ _ | .refresh => True

section calls

variable {w w' : ModelRunner ε γ} {r : CachedRequestState ε γ} {b : InputBatch ε γ} {i : ℕ}
  {spec : List ℤ}

lemma HoldsRow.congr {b b' : InputBatch ε γ}
    (h : HoldsRow b i r spec) (hsetup : SameSetup b b') (hrow : b'.rows i = b.rows i)
    (hout : b'.outputAt i = b.outputAt i)
    (hmask : b.isPoolingModel = false → b'.maskRow i = b.maskRow i) : HoldsRow b' i r spec := by
  refine ⟨?_, hout.trans h.output, fun hpool => ?_⟩
  · rw [hrow]
    exact h.row.congr hsetup
  · rw [hsetup.isPoolingModel] at hpool
    exact (hmask hpool).trans (h.mask hpool)

/-- An operation on a row keeps the number of block tables and, in a pooling model, the sampling
entries. -/
structure SameShape (isPoolingModel : Bool) (row row' : Row ε γ) : Prop where
  tables : row'.blockTable.length = row.blockTable.length
  generator : isPoolingModel = true → row'.generator = row.generator
  badWordsTokenIds : isPoolingModel = true → row'.badWordsTokenIds = row.badWordsTokenIds

variable (isPoolingModel : Bool) (row : Row ε γ)

lemma SameShape.refl : SameShape isPoolingModel row row :=
  ⟨rfl, fun _ => rfl, fun _ => rfl⟩

lemma SameShape.remove : SameShape isPoolingModel row (row.remove isPoolingModel) := by
  cases isPoolingModel with
  | true => exact ⟨length_map _, fun _ => rfl, fun _ => rfl⟩
  | false => exact ⟨length_map _, nofun, nofun⟩

lemma SameShape.updateSpec (spec : List ℤ) :
    SameShape isPoolingModel row (row.updateSpec spec) := by
  unfold Row.updateSpec
  split_ifs <;> exact ⟨rfl, fun _ => rfl, fun _ => rfl⟩

lemma SameShape.addedRow (hfits : Fits b r) {row : Row ε γ}
    (htab : row.blockTable.length = b.blocksPerKvBlock.length) :
    SameShape b.isPoolingModel row (b.addedRow r row) := by
  have hlen : (row.addTokens b.blocksPerKvBlock r).blockTable.length = row.blockTable.length := by
    simp [Row.addTokens, htab, hfits.blocks]
  unfold InputBatch.addedRow
  split
  next params _ hs =>
    refine ⟨hlen, fun hp => ?_, fun hp => ?_⟩ <;> simp [(hfits.pooling hp).1] at hs
  next => exact ⟨hlen, fun _ => rfl, fun _ => rfl⟩
  next => exact ⟨hlen, fun _ => rfl, fun _ => rfl⟩

lemma SameShape.moveFrom {dst src : Row ε γ}
    (hlen : dst.blockTable.length = src.blockTable.length) :
    SameShape isPoolingModel dst (dst.moveFrom src isPoolingModel) := by
  cases isPoolingModel with
  | true => exact ⟨by simp [Row.moveFrom, hlen], fun _ => rfl, fun _ => rfl⟩
  | false => exact ⟨by simp [Row.moveFrom, hlen], nofun, nofun⟩

lemma SameShape.vacate : SameShape isPoolingModel row (row.vacate isPoolingModel) := by
  cases isPoolingModel with
  | true => exact ⟨rfl, fun _ => rfl, fun _ => rfl⟩
  | false => exact ⟨rfl, nofun, nofun⟩

lemma SameShape.swapWith {row other : Row ε γ}
    (hlen : row.blockTable.length = other.blockTable.length) :
    SameShape isPoolingModel row (row.swapWith other isPoolingModel) := by
  cases isPoolingModel with
  | true => exact ⟨hlen.symm, fun _ => rfl, fun _ => rfl⟩
  | false => exact ⟨hlen.symm, nofun, nofun⟩

lemma InRows.of_shape (h : InRows w) (hsetup : SameSetup w.batch w'.batch)
    (hshape : ∀ i, SameShape w.batch.isPoolingModel (w.batch.rows i) (w'.batch.rows i))
    (hholds : ∀ i reqId x, w'.batch.rowId i = some reqId → w'.held reqId = some x →
      HoldsRow w'.batch i x.1 x.2)
    (hbare : ∀ i, w'.batch.rowId i = none → Bare (w'.batch.rows i))
    (hembeds : ∀ i, w'.batch.reqIds.length ≤ i → (w'.batch.rows i).promptEmbeds = none) :
    InRows w' where
  holds := hholds
  bare := hbare
  plain hp i := by
    rw [hsetup.isPoolingModel] at hp
    rw [(hshape i).generator hp, (hshape i).badWordsTokenIds hp]
    exact h.plain hp i
  tables i := by rw [(hshape i).tables, hsetup.blocksPerKvBlock, h.tables i]
  embeds := hembeds

lemma SameShape.update {isPoolingModel : Bool} {rows : ℕ → Row ε γ} {row : Row ε γ}
    (h : SameShape isPoolingModel (rows i) row) (j : ℕ) :
    SameShape isPoolingModel (rows j) (update rows i row j) := by
  rcases eq_or_ne j i with rfl | hne
  · rwa [update_self]
  rw [update_of_ne hne]
  exact SameShape.refl _ _

lemma InRows.remove (hbase : Base w) (h : InRows w) {reqId : String} (hph : w.phase = .removing)
    (heff : Effect w w' (.remove reqId)) : InRows w' := by
  obtain ⟨_, hheld, ⟨hidx, hbatch⟩ | ⟨i, hrow, hrem⟩⟩ := heff
  · rw [hbase.update_held_of_unknown hidx] at hheld
    refine ⟨?_, ?_, ?_, ?_, ?_⟩ <;> rw [hbatch]
    · rw [hheld]
      exact h.holds
    · exact h.bare
    · exact h.plain
    · exact h.tables
    · exact h.embeds
  have hopen := hbase.layout.open (by simp [hph])
  have hlt := lt_of_cells hrow
  have hrow' := hrem.rowId hlt
  have hout : w'.batch.outputAt = update w.batch.outputAt i none := by
    rw [outputAt, hrem.reqOutputTokenIds, cells_set (by rw [hopen.outputs_length]; exact hlt)]
    rfl
  refine h.of_shape hrem.setup (fun j => ?_) (fun j id x hj hx => ?_) (fun j hj => ?_) fun j hj =>
    ?_
  · rw [hrem.rows]
    exact (SameShape.remove _ _).update j
  · rw [hheld] at hx
    obtain ⟨hne, hj⟩ := update_none_eq_some.mp (hrow' ▸ hj)
    refine (h.holds j id x hj (update_none_eq_some.mp hx).2).congr hrem.setup ?_ ?_ fun hp => ?_
    · rw [hrem.rows, update_of_ne hne]
    · rw [hout, update_of_ne hne]
    · rw [hrem.mask, hp, if_neg (by simp), update_of_ne hne]
  · rw [hrem.rows]
    rcases eq_or_ne j i with rfl | hne
    · rw [Function.update_self, Row.remove]
      split_ifs with hp
      · exact ⟨(h.plain hp j).1, (h.plain hp j).2, rfl⟩
      · exact ⟨rfl, rfl, rfl⟩
    rw [hrow', update_of_ne hne] at hj
    rw [update_of_ne hne]
    exact h.bare j hj
  rw [hrem.reqIds, length_set] at hj
  rw [hrem.rows, update_of_ne (by omega)]
  exact h.embeds j hj

lemma InRows.updateSpec (hbase : Base w) (h : InRows w) {reqId : String}
    (heff : Effect w w' (.updateSpec reqId spec)) : InRows w' := by
  obtain ⟨_, hheld, i, hrow, hupd⟩ := heff
  have hids : w'.batch.rowId = w.batch.rowId := by rw [rowId, hupd.reqIds]; rfl
  have hout : w'.batch.outputAt = w.batch.outputAt := by rw [outputAt, hupd.reqOutputTokenIds]; rfl
  have hoth : ∀ j, j ≠ i → w'.batch.rows j = w.batch.rows j := by
    intro j hne
    rw [hupd.rows, update_of_ne hne]
  have hself : w'.batch.rows i = (w.batch.rows i).updateSpec spec := by rw [hupd.rows, update_self]
  refine h.of_shape hupd.setup (fun j => ?_) (fun j id x hj hx => ?_) (fun j hj => ?_) fun j hj =>
    ?_
  · rw [hupd.rows]
    exact (SameShape.updateSpec _ _ _).update j
  · rw [hids] at hj
    rw [hheld] at hx
    rcases eq_or_ne j i with rfl | hne
    · obtain rfl : id = reqId := Option.some.inj (hj.symm.trans hrow)
      obtain ⟨y, hy⟩ := hbase.held_of_row hj
      rw [update_self, hy] at hx
      cases hx
      have hold := h.holds j id y hj hy
      refine ⟨?_, by rw [hout]; exact hold.output, fun hp => ?_⟩
      · rw [hself]
        exact (hold.row.updateSpec (hbase.fits id y hy).2 spec).congr hupd.setup
      · rw [hupd.mask]
        exact hold.mask (hupd.setup.isPoolingModel.symm.trans hp)
    have hid : id ≠ reqId := by
      rintro rfl
      exact hne (hbase.row_unique hj hrow)
    rw [update_of_ne hid] at hx
    refine (h.holds j id x hj hx).congr hupd.setup (hoth j hne) (by rw [hout]) fun _ => ?_
    rw [hupd.mask]
  · rw [hids] at hj
    have hne : j ≠ i := by
      rintro rfl
      rw [hrow] at hj
      cases hj
    rw [hoth j hne]
    exact h.bare j hj
  rw [hupd.reqIds] at hj
  have hlt := lt_of_cells hrow
  rw [hoth j (by omega)]
  exact h.embeds j hj

lemma addedMask_self
    (h : (r.samplingParams.bind fun p => Row.nonEmpty? p.allowedTokenIds).isSome ∨
      ∀ v, b.maskRow i v = false) :
    b.addedMask r i i = r.mask := by
  unfold InputBatch.addedMask CachedRequestState.mask
  cases hal : r.samplingParams.bind fun p => Row.nonEmpty? p.allowedTokenIds with
  | some allowed => exact update_self i _ b.maskRow
  | none =>
    rw [hal] at h
    exact funext (h.resolve_left (by simp))

lemma addedMask_of_ne {i j : ℕ} (hne : j ≠ i) : b.addedMask r i j = b.maskRow j := by
  unfold InputBatch.addedMask
  cases r.samplingParams.bind fun p => Row.nonEmpty? p.allowedTokenIds with
  | some allowed => exact update_of_ne hne _ b.maskRow
  | none => rfl

lemma InRows.add (hbase : Base w) (h : InRows w) (hiss : w.Issued (.add r))
    (hclear : w.NoLeftovers (.add r)) (heff : Effect w w' (.add r)) : InRows w' := by
  obtain ⟨_, hheld, builder, hpop, hadd⟩ := heff
  obtain ⟨hph, hnew, _, hfits⟩ := hiss
  have hopen := hbase.layout.open hph
  obtain ⟨hemp, hle⟩ := hopen.rowId_nextIndex
  have hids := hadd.rowId hle
  have hout := hadd.outputAt hopen.outputs_length hle
  have hbare := h.bare _ hemp
  have hself : w'.batch.rows w.batch.nextIndex =
    w.batch.addedRow r (w.batch.rows w.batch.nextIndex) := by
    rw [hadd.rows, update_self]
  have hoth : ∀ j, j ≠ w.batch.nextIndex → w'.batch.rows j = w.batch.rows j := by
    intro j hne
    rw [hadd.rows, update_of_ne hne]
  have hholds : (w.batch.addedRow r (w.batch.rows w.batch.nextIndex)).Holds w.batch r [] :=
    Row.holds_addedRow hfits (h.tables _) hclear.1 hbare.generator hbare.badWordsTokenIds
  refine h.of_shape hadd.setup (fun j => ?_) (fun j id x hj hx => ?_) (fun j hj => ?_) fun j hj =>
    ?_
  · rw [hadd.rows]
    exact (SameShape.addedRow hfits (h.tables _)).update j
  · rw [hheld] at hx
    obtain ⟨rfl, rfl⟩ | ⟨hne, hj⟩ := update_some_eq_some.mp (hids ▸ hj)
    · rw [update_self] at hx
      cases hx
      refine ⟨?_, by rw [hout, update_self], fun _ => ?_⟩
      · rw [hself]
        exact hholds.congr hadd.setup
      · rw [hadd.mask]
        exact addedMask_self hclear.2
    have hid : id ≠ r.reqId := by
      rintro rfl
      obtain ⟨y, hy⟩ := hbase.held_of_row hj
      rw [hnew] at hy
      cases hy
    rw [update_of_ne hid] at hx
    refine (h.holds j id x hj hx).congr hadd.setup (hoth j hne) ?_ fun _ => ?_
    · rw [hout, update_of_ne hne]
    · rw [hadd.mask, addedMask_of_ne hne]
  · obtain ⟨hne, hj⟩ := update_some_eq_none.mp (hids ▸ hj)
    rw [hoth j hne]
    exact h.bare j hj
  have hlen : w.batch.reqIds.length ≤ w'.batch.reqIds.length ∧
    w.batch.nextIndex < w'.batch.reqIds.length := by
    rw [hadd.reqIds]
    split_ifs <;> simp <;> omega
  rw [hoth j (by omega)]
  exact h.embeds j (by omega)

/-- Moved rows keep the data of their requests. -/
lemma InRows.condense (hbase : Base w) (h : InRows w) (hph : w.phase ≠ .condensed)
    (hclear : w.NoLeftovers .condense) (heff : Effect w w' .condense) : InRows w' := by
  obtain ⟨_, hheld, hcond⟩ := heff
  have hopen := hbase.layout.open hph
  have hlen : w'.batch.reqIds.length = w.batch.numReqs := hcond.closed.count.trans hcond.numReqs
  -- behind the batch are emptied rows and rows that were empty before
  have hbeyond : ∀ i, w.batch.numReqs ≤ i →
    SameShape w.batch.isPoolingModel (w.batch.rows i) (w'.batch.rows i) ∧
      Bare (w'.batch.rows i) ∧ (w'.batch.rows i).promptEmbeds = none := by
    intro i hi
    obtain ⟨spec, hrow, hspec⟩ := hcond.rows_beyond i hi
    have hto : i ∉ w.batch.condenseMoves.map Prod.snd := by
      intro hmem
      obtain ⟨mv, hmv, rfl⟩ := mem_map.mp hmem
      have := (hcond.move mv hmv).2.2.2
      omega
    by_cases hfrom : i ∈ w.batch.condenseMoves.map Prod.fst
    · obtain ⟨mv, hmv, rfl⟩ := mem_map.mp hfrom
      rw [foldl_slide_from hcond.apart hmv] at hrow hspec
      have hvacated : (((w.batch.rows mv.1).vacate w.batch.isPoolingModel).specTokenIds = [] ∧
          ((w.batch.rows mv.1).vacate w.batch.isPoolingModel).promptEmbeds = none) ∧
          ((w.batch.rows mv.1).vacate w.batch.isPoolingModel).generator = none ∧
          ((w.batch.rows mv.1).vacate w.batch.isPoolingModel).badWordsTokenIds = none := by
        unfold Row.vacate
        split_ifs with hp
        · exact ⟨⟨rfl, rfl⟩, h.plain hp mv.1⟩
        · exact ⟨⟨rfl, rfl⟩, rfl, rfl⟩
      have hshape := SameShape.vacate w.batch.isPoolingModel (w.batch.rows mv.1)
      rw [hrow]
      refine ⟨⟨hshape.tables, hshape.generator, hshape.badWordsTokenIds⟩,
        ⟨hvacated.2.1, hvacated.2.2, ?_⟩, hvacated.1.2⟩
      rcases hspec with hnil | hsame
      · exact hnil
      · exact hsame.trans hvacated.1.1
    rw [foldl_slide_of_notMem hfrom hto] at hrow hspec
    have hemp : w.batch.rowId i = none := by
      by_contra hsome
      exact hfrom (hcond.emptied i hi (Option.isSome_iff_ne_none.mpr hsome))
    have hbare := h.bare i hemp
    rw [hrow]
    refine ⟨⟨rfl, fun _ => rfl, fun _ => rfl⟩, ⟨hbare.generator, hbare.badWordsTokenIds, ?_⟩, ?_⟩
    · rcases hspec with hnil | hsame
      · exact hnil
      · exact hsame.trans hbare.specTokenIds
    show (w.batch.rows i).promptEmbeds = none
    rcases lt_or_ge i w.batch.reqIds.length with hlt | hge
    · exact hclear.2 i ((hopen.hole_iff i).mpr ⟨hlt, hemp⟩) hi
    · exact h.embeds i hge
  refine h.of_shape hcond.setup (fun i => ?_) (fun i id x hi hx => ?_) (fun i hi => ?_) fun i hi =>
    ?_
  · rcases lt_or_ge i w.batch.numReqs with hlt | hge
    · obtain ⟨id, hid⟩ := Option.isSome_iff_exists.mp (hcond.closed.filled i (by omega))
      obtain ⟨src, _, _, _, ⟨_, hrow⟩ | ⟨_, hrow⟩⟩ := hcond.source hid
      · rw [hrow]
        exact SameShape.refl _ _
      · rw [hrow]
        exact SameShape.moveFrom _ ((h.tables i).trans (h.tables src).symm)
    · exact (hbeyond i hge).1
  · rw [hheld] at hx
    obtain ⟨src, hid, hout, hmask, hrow⟩ := hcond.source hi
    have hold := h.holds src id x hid hx
    refine ⟨?_, hout.trans hold.output, fun hp => ?_⟩
    · rcases hrow with ⟨rfl, hrow⟩ | ⟨hmv, hrow⟩
      · rw [hrow]
        exact hold.row.congr hcond.setup
      have hbare := h.bare i ((hopen.hole_iff i).mp (hcond.move _ hmv).2.2.1).2
      obtain ⟨hembeds, hflag⟩ := hclear.1 _ hmv
      rw [hrow]
      exact (hold.row.moveFrom (hbase.fits id x hx).2 ((h.tables i).trans (h.tables src).symm)
        hembeds
        hbare.generator hbare.badWordsTokenIds hflag).congr hcond.setup
    · rw [hcond.setup.isPoolingModel] at hp
      exact (hmask hp).trans (hold.mask hp)
  · have hge : w.batch.numReqs ≤ i := by
      by_contra hlt
      have := hcond.closed.filled i (by omega)
      rw [hi] at this
      cases this
    exact (hbeyond i hge).2.1
  · exact (hbeyond i (hlen ▸ hi)).2.2

lemma swapMask_of_eq {mask : ℕ → ℕ → Bool} {i1 i2 : ℕ} (h : mask i1 = mask i2) :
    swapMask mask i1 i2 = mask := by
  have hfst : update mask i1 (mask i2) = mask := update_eq_self_iff.mpr h.symm
  rw [swapMask, hfst, h, update_eq_self]

lemma InRows.swap (hbase : Base w) (h : InRows w) {i1 i2 : ℕ} (hph : w.phase = .condensed)
    (hclear : w.NoLeftovers (.swap i1 i2)) (heff : Effect w w' (.swap i1 i2)) : InRows w' := by
  obtain ⟨_, hheld, id1, id2, h1, h2, hswap⟩ := heff
  have hcl := hbase.layout.closed hph
  have hlt1 := lt_of_cells h1
  have hlt2 := lt_of_cells h2
  have hids := hswap.rowId hlt1 hlt2
  have hmask : w'.batch.maskRow = w.batch.maskRow := by
    rw [hswap.mask]
    rw [NoLeftovers] at hclear
    split_ifs at hclear ⊢ with hp
    · rfl
    · exact swapMask_of_eq hclear
  have hoth : ∀ j, j ≠ i1 → j ≠ i2 → w'.batch.rows j = w.batch.rows j := by
    intro j hne1 hne2
    rw [hswap.rows, update_of_ne hne2, update_of_ne hne1]
  refine h.of_shape hswap.setup (fun j => ?_) (fun j id x hj hx => ?_) (fun j hj => ?_) fun j hj =>
    ?_
  · rw [hswap.rows, update_apply, update_apply]
    split_ifs with h2 h1
    · exact h2 ▸ SameShape.swapWith _ ((h.tables _).trans (h.tables _).symm)
    · exact h1 ▸ SameShape.swapWith _ ((h.tables _).trans (h.tables _).symm)
    · exact SameShape.refl _ _
  · rw [hheld] at hx
    obtain ⟨src, hid, hout, hrow⟩ := hswap.source hcl h1 h2 hj
    have hold := h.holds src id x hid hx
    have hfits := (hbase.fits id x hx).2
    rcases hrow with ⟨⟨rfl, _⟩, hrow⟩ | ⟨hends, hrow⟩
    · exact hold.congr hswap.setup hrow hout fun _ => by rw [hmask]
    have hequal : (w.batch.isPoolingModel = true →
        (w.batch.rows j).logitsProcessingNeedsTokenIds =
          (w.batch.rows src).logitsProcessingNeedsTokenIds) ∧
        (w.batch.isPoolingModel = false → w.batch.maskRow j = w.batch.maskRow src) := by
      rw [NoLeftovers] at hclear
      split_ifs at hclear with hp
      · rcases hends with ⟨rfl, rfl⟩ | ⟨rfl, rfl⟩ <;> simp [hp, hclear]
      · rcases hends with ⟨rfl, rfl⟩ | ⟨rfl, rfl⟩ <;> simp [hp, hclear]
    refine ⟨?_, hout.trans hold.output, fun hp => ?_⟩
    · rw [hrow]
      exact (hold.row.swapWith hfits hequal.1).congr hswap.setup
    rw [hswap.setup.isPoolingModel] at hp
    rw [hmask, hequal.2 hp]
    exact hold.mask hp
  · rw [hids, update_some_eq_none, update_some_eq_none] at hj
    obtain ⟨hne2, hne1, hj⟩ := hj
    rw [hoth j hne1 hne2]
    exact h.bare j hj
  rw [hswap.reqIds, length_set, length_set] at hj
  rw [hoth j (by omega) (by omega)]
  exact h.embeds j hj

lemma InRows.refresh (h : InRows w) (heff : Effect w w' .refresh) : InRows w' := by
  obtain ⟨_, hheld, hbatch⟩ := heff
  obtain ⟨hids, _, houts, hrows, hmask, _, _, hmax, hpool, hvocab, hblk⟩ :=
    refreshMetadata_rows w.batch
  rw [← hbatch] at hids houts hrows hmask hmax hpool hvocab hblk
  have hrowId : w'.batch.rowId = w.batch.rowId := by rw [rowId, hids]; rfl
  have hout : w'.batch.outputAt = w.batch.outputAt := by rw [outputAt, houts]; rfl
  refine ⟨fun i id x hi hx => ?_, fun i hi => ?_, fun hp i => ?_, fun i => ?_, fun i hi => ?_⟩
  · rw [hrowId] at hi
    rw [hheld] at hx
    have hold := h.holds i id x hi hx
    refine ⟨?_, by rw [hout]; exact hold.output, fun hp => ?_⟩
    · rw [hrows]
      exact { hold.row with
        blockTable := by rw [hblk]; exact hold.row.blockTable
        sampling := by rw [hvocab]; exact hold.row.sampling }
    · rw [hmask]
      exact hold.mask (hpool.symm.trans hp)
  · rw [hrows]
    exact h.bare i (by rwa [hrowId] at hi)
  · rw [hrows]
    exact h.plain (hpool.symm.trans hp) i
  · rw [hrows, hblk]
    exact h.tables i
  · rw [hrows]
    exact h.embeds i (by rwa [hids] at hi)

lemma InRows.next (hbase : Base w) (h : InRows w) {call : RunnerCall ε γ} (hiss : w.Issued call)
    (hclear : w.NoLeftovers call) (heff : Effect w w' call) : InRows w' := by
  cases call with
  | remove reqId => exact h.remove hbase hiss heff
  | updateSpec reqId spec => exact h.updateSpec hbase heff
  | add r => exact h.add hbase hiss hclear heff
  | condense => exact h.condense hbase hiss hclear heff
  | swap i1 i2 => exact h.swap hbase hiss.1 hclear heff
  | refresh => exact h.refresh heff

lemma InRows.init (maxNumReqs vocabSize : ℕ) (blocksPerKvBlock : List ℕ)
    (thinking : Option ThinkingBudgetStateHolder) (numpy : NumpyFloat32) :
    InRows (init isPoolingModel maxNumReqs vocabSize blocksPerKvBlock thinking numpy :
      ModelRunner ε γ) where
  holds i reqId x hi _ := by simp [ModelRunner.init, InputBatch.init, rowId, cells] at hi
  bare i _ := ⟨rfl, rfl, rfl⟩
  plain _ i := ⟨rfl, rfl⟩
  tables i := length_map _
  embeds i _ := rfl

lemma InRows.inStep (hbase : Base w) (h : InRows w) (hph : w.phase = .condensed) : InStep w := by
  have hcl := hbase.layout.closed hph
  refine ⟨hcl.count, fun i hi => ?_, fun reqId => ?_, hcl.indexed, h.holds, fun i hi => ?_⟩
  · exact Option.isSome_iff_exists.mp (hcl.filled i (hcl.count ▸ hi))
  · rw [hbase.held_iff]
    constructor
    · rintro ⟨i, hi⟩
      exact ⟨i, hcl.count ▸ lt_of_cells hi, hi⟩
    · rintro ⟨i, _, hi⟩
      exact ⟨i, hi⟩
  · rw [← hcl.count] at hi
    exact ⟨h.bare i (cells_of_ge hi), h.embeds i hi⟩

end calls

/-- In a run without leftovers, every row of the batch holds exactly the data of its request after
`condense` and after each swap. -/
theorem rows_follow_requests (isPoolingModel : Bool) (maxNumReqs vocabSize : ℕ)
    (blocksPerKvBlock : List ℕ) (thinking : Option ThinkingBudgetStateHolder) (numpy : NumpyFloat32)
    (calls : List (RunnerCall ε γ))
    (hcalls : Along step (fun w call => w.Issued call ∧ w.NoLeftovers call)
      (init isPoolingModel maxNumReqs vocabSize blocksPerKvBlock thinking numpy) calls) :
    ∃ w, calls.foldlM step
        (init isPoolingModel maxNumReqs vocabSize blocksPerKvBlock thinking numpy) = .ok w ∧
      (w.phase = .condensed → InStep w) := by
  obtain ⟨w, hrun, hbase, hrows⟩ :=
    hcalls.exists_invariant (P := fun w => Base w ∧ InRows w) (fun w call h hcall => by
      obtain ⟨w', hstep, hbase', heffect⟩ := h.1.next hcall.1
      exact ⟨w', hstep, hbase', h.2.next h.1 hcall.1 hcall.2 heffect⟩)
    ⟨Base.init _ _ _ _ _ _, InRows.init _ _ _ _ _ _⟩
  exact ⟨w, hrun, hrows.inStep hbase⟩

/-- A request with prompt embeddings. -/
def embedsRequest (reqId : String) : CachedRequestState Unit Unit :=
  { sampleRequest reqId {} with
    promptTokenIds := none
    promptEmbeds := some [()]
    length_ok := rfl }

def poolRequest (reqId : String) (requiresTokenIds : Bool) : CachedRequestState Unit Unit :=
  { sampleRequest reqId {} with samplingParams := none, poolingParams := some ⟨requiresTokenIds⟩ }

/-- Rows are swapped and one of them is reused by a request with prompt embeddings. -/
theorem rows_follow_swapped_requests :
    ∃ w, [RunnerCall.add (sampleRequest "a" {}), .add (sampleRequest "b" { minP := 1 / 2 }),
      .updateSpec "b" [4, 5], .condense, .swap 0 1, .refresh, .remove "b", .add (embedsRequest "c"),
          .condense].foldlM step
        (init false 2 10 [1] none float32) = .ok w ∧
      (w.phase = .condensed → InStep w) := by
  apply rows_follow_requests
  apply Run.along
  iterate 2 apply Run.cons ⟨by decide, .inr rfl, .inr fun _ => rfl⟩ rfl
  apply Run.cons ⟨by decide, trivial⟩ rfl
  apply Run.cons ⟨by decide, by decide, by decide⟩ rfl
  apply Run.cons ⟨by decide, by exact rfl⟩ rfl
  iterate 2 apply Run.cons ⟨by decide, trivial⟩ rfl
  apply Run.cons ⟨by decide, .inl rfl, .inr fun _ => rfl⟩ rfl
  apply Run.cons ⟨by decide, by decide, by decide⟩ rfl
  apply Run.nil

/-- In a generation model after a removal, a move and a swap, in a pooling model after a move and a
swap. -/
theorem rows_not_kept : (∃ w, Run step Issued (init false 2 10 [1] none float32)
      [RunnerCall.add (embedsRequest "a"), .condense, .refresh, .remove "a",
        .add (sampleRequest "b" {}), .condense] w ∧
        w.phase = .condensed ∧ ¬ InStep w) ∧
        (∃ w, Run step Issued (init false 2 10 [1] none float32)
      [RunnerCall.add (sampleRequest "a" {}),
        .add (sampleRequest "b" { allowedTokenIds := some [3] }), .condense, .refresh,
        .remove "a", .condense, .refresh, .add (sampleRequest "c" {}), .condense] w ∧
        w.phase = .condensed ∧ ¬ InStep w) ∧
    (∃ w, Run step Issued (init false 2 10 [1] none float32)
      [RunnerCall.add (sampleRequest "a" { allowedTokenIds := some [3] }),
        .add (sampleRequest "b" {}), .condense,
        .swap 0 1] w ∧ w.phase = .condensed ∧ ¬ InStep w) ∧
    (∃ w, Run step Issued (init true 2 10 [1] none float32)
      [RunnerCall.add (poolRequest "a" false), .add (poolRequest "b" true), .condense, .refresh,
        .remove "a", .condense] w ∧
        w.phase = .condensed ∧ ¬ InStep w) ∧
    ∃ w, Run step Issued (init true 2 10 [1] none float32)
      [RunnerCall.add (poolRequest "a" false), .add (poolRequest "b" true), .condense,
        .swap 0 1] w ∧
        w.phase = .condensed ∧ ¬ InStep w := by
  refine ⟨?_, ?_, ?_, ?_, ?_⟩
  -- `remove_request` leaves the prompt embeddings of the row to the next request in it.
  · apply Exists.intro
    apply And.intro
    · iterate 6 apply Run.cons (by decide) rfl
      apply Run.nil
    refine ⟨rfl, fun h => ?_⟩
    have hembeds := (h.holds 0 "b" (sampleRequest "b" {}, []) rfl rfl).row.promptEmbeds
    exact absurd hembeds (by decide)
  -- `condense` leaves the mask of a request that it moves to the next request in the row.
  · apply Exists.intro
    apply And.intro
    · iterate 9 apply Run.cons (by decide) rfl
      apply Run.nil
    refine ⟨rfl, fun h => ?_⟩
    have hmask := (h.holds 1 "c" (sampleRequest "c" {}, []) rfl rfl).mask rfl
    exact absurd (congrFun hmask 0) (by decide)
  -- `swap_states` gives both rows the mask of the second.
  · apply Exists.intro
    apply And.intro
    · iterate 4 apply Run.cons (by decide) rfl
      apply Run.nil
    refine ⟨rfl, fun h => ?_⟩
    have hmask :=
      (h.holds 1 "a" (sampleRequest "a" { allowedTokenIds := some [3] }, []) rfl rfl).mask rfl
    exact absurd (congrFun hmask 0) (by decide)
  -- `condense` moves a pooling request without its token-id flag.
  · apply Exists.intro
    apply And.intro
    · iterate 6 apply Run.cons (by decide) rfl
      apply Run.nil
    refine ⟨rfl, fun h => ?_⟩
    have hflag :=
      (h.holds 0 "b" (poolRequest "b" true, []) rfl rfl).row.needsTokenIds rfl ⟨true⟩ rfl
    exact absurd hflag (by decide)
  -- `swap_states` leaves the token-id flags of two pooling requests in their rows.
  · apply Exists.intro
    apply And.intro
    · iterate 4 apply Run.cons (by decide) rfl
      apply Run.nil
    refine ⟨rfl, fun h => ?_⟩
    have hflag :=
      (h.holds 0 "b" (poolRequest "b" true, []) rfl rfl).row.needsTokenIds rfl ⟨true⟩ rfl
    exact absurd hflag (by decide)

end ModelRunner

end Vllm.Worker
