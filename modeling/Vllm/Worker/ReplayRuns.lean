import Vllm.Lib.Rounding
import Vllm.Worker.BatchReplay

/-! # Logits processors follow the batch -/

namespace Vllm.Worker

open Compaction InputBatch Machine List Function Option

variable {ε γ β : Type} (b : InputBatch ε γ)

def InputBatch.update : BatchUpdate :=
  ⟨b.numReqs, b.removed, b.batchUpdateBuilder.added, b.batchUpdateBuilder.moved⟩

namespace ModelRunner

def requestAt (w : ModelRunner ε γ) (i : ℕ) : Option (CachedRequestState ε γ) :=
  (w.batch.rowId i).bind fun reqId => (w.held reqId).map Prod.fst

section value

variable (d : β) (g : SamplingParams → Option (List ℤ) → List ℤ → β)

def requestValue (r : Option (CachedRequestState ε γ)) : β :=
  (r.bind fun r => r.samplingParams.map fun p => g p r.promptTokenIds r.outputTokenIds).getD d

/-- What the request in a row gives, `d` when the row has none. -/
def value (w : ModelRunner ε γ) (i : ℕ) : β := requestValue d g (w.requestAt i)

/-- The recorded additions and moves lead to the values of the rows, freed rows aside. -/
def Tracks (table : ℕ → β) (w : ModelRunner ε γ) : Prop :=
  ∀ i ∉ w.batch.removed, pending d g w.batch.batchUpdateBuilder table i = w.value d g i

end value

/-- The lists of the builder: rows named in additions and moves are not listed as freed. -/
structure Recorded (w : ModelRunner ε γ) : Prop where
  added : ∀ a ∈ w.batch.batchUpdateBuilder.added, a.index ∉ w.batch.removed ∧
    a.index < w.batch.maxNumReqs
  moved : ∀ mv ∈ w.batch.batchUpdateBuilder.moved, mv.Proper ∧
    (mv.i1 ∉ w.batch.removed ∧ mv.i2 ∉ w.batch.removed) ∧
    mv.i1 < w.batch.maxNumReqs ∧ mv.i2 < w.batch.maxNumReqs
  removing : w.phase = .removing → w.batch.batchUpdateBuilder.added = []

section steps

variable {w w' : ModelRunner ε γ} {d : β} {g : SamplingParams → Option (List ℤ) → List ℤ → β}
  {table : ℕ → β}
variable {i : ℕ} {reqId : String} {r : CachedRequestState ε γ} {builder : BatchUpdateBuilder}
  {moves : List (ℕ × ℕ)} {i1 i2 : ℕ} {id1 id2 : String}

lemma requestAt_of_row {x : CachedRequestState ε γ × List ℤ} (hrow : w.batch.rowId i = some reqId)
    (hheld : w.held reqId = some x) : w.requestAt i = some x.1 := by
  rw [requestAt, hrow, bind_some, hheld]
  rfl

lemma requestAt_of_none (hrow : w.batch.rowId i = none) : w.requestAt i = none := by
  rw [requestAt, hrow]
  rfl

lemma value_of_none (hrow : w.batch.rowId i = none) : w.value d g i = d := by
  rw [value, requestAt_of_none hrow]
  rfl

lemma Base.value_of_pooling (h : Base w) (hpool : w.batch.isPoolingModel = true) (i : ℕ) :
    w.value d g i = d := by
  cases hrow : w.batch.rowId i with
  | none => exact value_of_none hrow
  | some reqId =>
    obtain ⟨x, hx⟩ := h.held_of_row hrow
    have hparams := (((h.fits reqId x hx).2).pooling hpool).1
    rw [value, requestAt_of_row hrow hx, requestValue, bind_some, hparams]
    rfl

lemma requestAt_update {id : Option String} {x : Option (CachedRequestState ε γ × List ℤ)}
    (hrow : w'.batch.rowId = update w.batch.rowId i id) (hheld : w'.held = update w.held reqId x)
    (hoth : ∀ j, j ≠ i → w.batch.rowId j ≠ some reqId) :
    w'.requestAt = update w.requestAt i (id.bind fun id => (w'.held id).map Prod.fst) := by
  funext j
  rcases eq_or_ne j i with rfl | hne
  · rw [update_self, requestAt, hrow, update_self]
  rw [update_of_ne hne, requestAt, requestAt, hrow, update_of_ne hne, hheld]
  cases hj : w.batch.rowId j with
  | none => rfl
  | some id =>
    have hid : id ≠ reqId := fun heq => hoth j hne (heq ▸ hj)
    rw [bind_some, bind_some, update_of_ne hid]

lemma requestAt_remove (h : Base w) (hrow : w.batch.rowId i = some reqId)
    (hrem : Removed w.batch w'.batch reqId i) (hheld : w'.held = update w.held reqId none) :
    w'.requestAt = update w.requestAt i none :=
  requestAt_update (hrem.rowId (lt_of_cells hrow)) hheld fun _ hne hj => hne (h.row_unique hj hrow)

lemma requestAt_spec {spec : List ℤ} (hupd : SpecUpdated w.batch w'.batch i spec)
    (hheld : w'.held = update w.held reqId ((w.held reqId).map fun h => (h.1, spec))) :
    w'.requestAt = w.requestAt := by
  funext j
  have hrow : w'.batch.rowId = w.batch.rowId := by rw [rowId, hupd.reqIds]; rfl
  rw [requestAt, hrow, hheld]
  congr 1
  funext x
  rcases eq_or_ne x reqId with rfl | hne
  · rw [update_self, Option.map_map]
    rfl
  · rw [update_of_ne hne]

lemma requestAt_add (h : Base w) (hph : w.phase ≠ .condensed)
    (hnew : w.held r.reqId = none) (hadd : Added w.batch w'.batch r w.batch.nextIndex builder)
    (hheld : w'.held = update w.held r.reqId (some (r, []))) :
    w'.requestAt = update w.requestAt w.batch.nextIndex (some r) := by
  have hself : (w'.held r.reqId).map Prod.fst = some r := by rw [hheld, update_self]; rfl
  have hall :=
    requestAt_update (hadd.rowId (h.layout.open hph).rowId_nextIndex.2) hheld fun j _ hj => by
    obtain ⟨y, hy⟩ := h.held_of_row hj
    rw [hnew] at hy
    cases hy
  rwa [bind_some, hself] at hall

lemma value_eq_comp {held : String → Option (CachedRequestState ε γ × List ℤ)}
    (hheld : w.held = held) :
    w.value d g =
    (fun id =>
    requestValue d g (id.bind fun reqId => (held reqId).map Prod.fst)) ∘ w.batch.rowId := by
  funext i
  rw [value, requestAt, hheld]
  rfl

lemma value_condense (hcond : Condensed w.batch w'.batch moves) (hheld : w'.held = w.held) :
    w'.value d g = moves.foldl (slide (fun _ x => x) fun _ => d) (w.value d g) := by
  rw [value_eq_comp hheld, hcond.rowId, foldl_slide_comp]
  rfl

lemma value_swap (h1 : w.batch.rowId i1 = some id1) (h2 : w.batch.rowId i2 = some id2)
    (hswap : RowsSwapped w.batch w'.batch i1 i2 id1 id2) (hheld : w'.held = w.held) :
    w'.value d g = exchange (w.value d g) i1 i2 := by
  have hrow : w'.batch.rowId = exchange w.batch.rowId i1 i2 := by
    rw [hswap.rowId (lt_of_cells h1) (lt_of_cells h2), exchange, h1, h2]
  rw [value_eq_comp hheld, value_eq_comp (w := w) rfl, hrow, exchange_comp]

/-! ### Tracking -/

lemma Tracks.remove (h : Base w) (ht : Tracks d g table w) (hrow : w.batch.rowId i = some reqId)
    (hrem : Removed w.batch w'.batch reqId i) (hheld : w'.held = update w.held reqId none) :
    Tracks d g table w' := by
  intro j hj
  have hremoved : w'.batch.removed = w.batch.removed ++ [i] := by rw [removed, hrem.builder]
  rw [hremoved, mem_append, mem_singleton, not_or] at hj
  rw [value, requestAt_remove h hrow hrem hheld, update_of_ne hj.2, hrem.builder]
  exact ht j hj.1

variable (ht : Tracks d g table w)

include ht in
lemma Tracks.congr (hbuilder : w'.batch.batchUpdateBuilder = w.batch.batchUpdateBuilder)
    (hreq : w'.requestAt = w.requestAt) : Tracks d g table w' := by
  intro j hj
  rw [removed, hbuilder] at hj
  rw [value, hreq, hbuilder]
  exact ht j hj

lemma Tracks.add (h : Base w) (ht : Tracks d g table w) (hph : w.phase ≠ .condensed)
    {params : SamplingParams} (hparams : r.samplingParams = some params)
    (hpop : Popped w.batch builder) (hnew : w.held r.reqId = none)
    (hadd : Added w.batch w'.batch r w.batch.nextIndex builder)
    (hheld : w'.held = update w.held r.reqId (some (r, []))) : Tracks d g table w' := by
  have hmoved := (h.layout.open hph).moved
  have hpending : pending d g w'.batch.batchUpdateBuilder table =
      update (pending d g w.batch.batchUpdateBuilder table) w.batch.nextIndex
        (g params r.promptTokenIds r.outputTokenIds) := by
    rw [pending, pending, hadd.builder]
    dsimp only
    rw [hpop.moved, hpop.added, hmoved, addedEntry, hparams, foldl_append]
    rfl
  intro j hj
  rw [removed, hadd.builder, hpop.mem_iff] at hj
  rw [hpending, value, requestAt_add h hph hnew hadd hheld]
  rcases eq_or_ne j w.batch.nextIndex with rfl | hne
  · rw [update_self, update_self, requestValue, bind_some, hparams]
    rfl
  · rw [update_of_ne hne, update_of_ne hne]
    exact ht j fun hmem => hj ⟨hmem, hne⟩

lemma foldl_applyMove_map (moves : List (ℕ × ℕ)) (table : ℕ → β) :
    (moves.map fun mv => (⟨mv.1, mv.2, .unidirectional⟩ : MovedRequest)).foldl (applyMove d) table =
      moves.foldl (slide (fun _ x => x) fun _ => d) table := by
  rw [foldl_map]
  rfl

lemma Tracks.condense (h : Base w) (ht : Tracks d g table w) (hph : w.phase ≠ .condensed)
    (hpool : w.batch.isPoolingModel = false) (hcond : Condensed w.batch w'.batch moves)
    (hheld : w'.held = w.held) : Tracks d g table w' := by
  have hopen := h.layout.open hph
  have hpending : pending d g w'.batch.batchUpdateBuilder table =
      moves.foldl (slide (fun _ x => x) fun _ =>
        d) (pending d g w.batch.batchUpdateBuilder table) := by
    rw [pending, pending, hcond.moved, hcond.added, hpool, if_neg (by simp), foldl_applyMove_map,
      hopen.moved]
    rfl
  intro i hi
  rw [hcond.removed_iff, not_and, not_not] at hi
  rw [hpending, value_condense hcond hheld]
  by_cases hfrom : i ∈ moves.map Prod.fst
  · obtain ⟨mv, hmv, rfl⟩ := mem_map.mp hfrom
    rw [foldl_slide_from hcond.apart hmv, foldl_slide_from hcond.apart hmv]
  by_cases hto : i ∈ moves.map Prod.snd
  · obtain ⟨mv, hmv, rfl⟩ := mem_map.mp hto
    rw [foldl_slide_to hcond.apart hmv, foldl_slide_to hcond.apart hmv]
    refine ht mv.1 fun hmem => ?_
    have hsome := (hcond.move mv hmv).1
    rw [((hopen.hole_iff _).mp hmem).2] at hsome
    cases hsome
  · rw [foldl_slide_of_notMem hfrom hto, foldl_slide_of_notMem hfrom hto]
    exact ht i fun hmem => hto (hi hmem)

include ht in
lemma Tracks.swap (hcl : w.batch.Closed) (hpool : w.batch.isPoolingModel = false)
    (h1 : w.batch.rowId i1 = some id1) (h2 : w.batch.rowId i2 = some id2)
    (hswap : RowsSwapped w.batch w'.batch i1 i2 id1 id2) (hheld : w'.held = w.held) :
    Tracks d g table w' := by
  have hbuilder := hswap.builder
  rw [hpool, if_neg (by simp)] at hbuilder
  have hpending : pending d g w'.batch.batchUpdateBuilder table =
      exchange (pending d g w.batch.batchUpdateBuilder table) i1 i2 := by
    rw [pending, pending, hbuilder, foldl_append]
    rfl
  have hmem : ∀ i id, w.batch.rowId i = some id → i ∉ w.batch.removed := by
    intro i id hrow hmem
    have := hcl.beyond i hmem
    have := lt_of_cells hrow
    omega
  intro i hi
  rw [removed, hbuilder] at hi
  rw [hpending, value_swap h1 h2 hswap hheld]
  rcases eq_or_ne i i2 with rfl | hne2
  · rw [exchange_right, exchange_right, ht i1 (hmem i1 id1 h1)]
  rcases eq_or_ne i i1 with rfl | hne1
  · rw [exchange_left, exchange_left, ht i2 (hmem i2 id2 h2)]
  · rw [exchange_of_ne hne1 hne2, exchange_of_ne hne1 hne2]
    exact ht i hi

variable {call : RunnerCall ε γ}

lemma Tracks.next (h : Base w) (ht : Tracks d g table w) (hpool : w.batch.isPoolingModel = false)
    (hiss : w.Issued call) (heff : Effect w w' call) (hcall : call ≠ .refresh) :
    Tracks d g table w' := by
  cases call with
  | remove reqId =>
    obtain ⟨_, hheld, ⟨hidx, hbatch⟩ | ⟨i, hrow, hrem⟩⟩ := heff
    · exact ht.congr (by rw [hbatch]) (by
        unfold requestAt; rw [hbatch, hheld, h.update_held_of_unknown hidx])
    · exact ht.remove h hrow hrem hheld
  | updateSpec reqId spec =>
    obtain ⟨_, hheld, i, _, hupd⟩ := heff
    exact ht.congr hupd.builder (requestAt_spec hupd hheld)
  | add r =>
    obtain ⟨_, hheld, builder, hpop, hadd⟩ := heff
    obtain ⟨hph, hnew, _, hfits⟩ := hiss
    obtain ⟨params, hparams⟩ := isSome_iff_exists.mp (hfits.sampling hpool)
    exact ht.add h hph hparams hpop hnew hadd hheld
  | condense =>
    obtain ⟨_, hheld, hcond⟩ := heff
    exact ht.condense h hiss hpool hcond hheld
  | swap i1 i2 =>
    obtain ⟨_, hheld, id1, id2, h1, h2, hswap⟩ := heff
    exact ht.swap (h.layout.closed hiss.1) hpool h1 h2 hswap hheld
  | refresh => exact absurd rfl hcall

lemma Recorded.of_nil (hadded : w.batch.batchUpdateBuilder.added = [])
    (hmoved : w.batch.batchUpdateBuilder.moved = []) :
    Recorded w where
  added := by simp [hadded]
  moved := by simp [hmoved]
  removing _ := hadded

lemma Recorded.add (hr : Recorded w) (hopen : w.batch.Open)
    (hpop : Popped w.batch builder) (hlt : w.batch.nextIndex < w.batch.maxNumReqs)
    (hadd : Added w.batch w'.batch r w.batch.nextIndex builder) (hph : w'.phase = .adding) :
    Recorded w' := by
  have hremoved : w'.batch.removed = builder.removed := by rw [removed, hadd.builder]
  refine ⟨?_, ?_, fun hp => by rw [hph] at hp; cases hp⟩
  · intro a ha
    rw [hadd.builder, mem_append, hpop.added] at ha
    rw [hremoved, hadd.setup.maxNumReqs, hpop.mem_iff, not_and, not_not]
    rcases ha with ha | ha
    · exact ⟨fun hmem => absurd hmem (hr.added a ha).1, (hr.added a ha).2⟩
    rw [addedEntry, mem_toList, map_eq_some_iff] at ha
    obtain ⟨params, _, rfl⟩ := ha
    exact ⟨fun _ => rfl, hlt⟩
  rw [hadd.builder]
  dsimp only
  rw [hpop.moved, hopen.moved]
  simp

lemma Recorded.condense (hr : Recorded w) (hopen : w.batch.Open)
    (hcond : Condensed w.batch w'.batch moves) (hph : w'.phase = .condensed) : Recorded w' := by
  refine ⟨?_, ?_, fun hp => by rw [hph] at hp; cases hp⟩
  · intro a ha
    rw [hcond.added] at ha
    rw [hcond.removed_iff, hcond.setup.maxNumReqs]
    exact ⟨fun hmem => (hr.added a ha).1 hmem.1, (hr.added a ha).2⟩
  intro mv hmv
  rw [hcond.moved] at hmv
  split_ifs at hmv
  · cases hmv
  obtain ⟨x, hx, rfl⟩ := mem_map.mp hmv
  obtain ⟨hsome, hge, hmem, hlt⟩ := hcond.move x hx
  have hmax := hopen.le_max
  have hhole := ((hopen.hole_iff _).mp hmem).1
  have hrow : x.1 < w.batch.reqIds.length := by
    obtain ⟨id, hid⟩ := isSome_iff_exists.mp hsome
    exact lt_of_cells hid
  rw [hcond.removed_iff, hcond.removed_iff, hcond.setup.maxNumReqs]
  refine ⟨fun _ => by dsimp only; omega, ⟨?_, ?_⟩, by dsimp only; omega, by dsimp only; omega⟩
  · rintro ⟨hmem', _⟩
    rw [((hopen.hole_iff _).mp hmem').2] at hsome
    cases hsome
  · exact fun hnot => hnot.2 (mem_map_of_mem hx)

lemma Recorded.swap (hr : Recorded w) (hcl : w.batch.Closed)
    (h1 : w.batch.rowId i1 = some id1) (h2 : w.batch.rowId i2 = some id2)
    (hswap : RowsSwapped w.batch w'.batch i1 i2 id1 id2) (hph : w'.phase = .condensed) :
    Recorded w' := by
  have hremoved : w'.batch.removed = w.batch.removed := by
    rw [removed, hswap.builder]
    split_ifs <;> rfl
  have hadded : w'.batch.batchUpdateBuilder.added = w.batch.batchUpdateBuilder.added := by
    rw [hswap.builder]
    split_ifs <;> rfl
  have hrow : ∀ i id, w.batch.rowId i = some id → i ∉ w.batch.removed ∧ i < w.batch.maxNumReqs := by
    intro i id hid
    have hlt := lt_of_cells hid
    have hmax := hcl.le_max
    refine ⟨fun hmem => ?_, by omega⟩
    have := hcl.beyond i hmem
    omega
  refine ⟨?_, ?_, fun hp => by rw [hph] at hp; cases hp⟩
  · rw [hadded, hremoved, hswap.setup.maxNumReqs]
    exact hr.added
  intro mv hmv
  rw [hremoved, hswap.setup.maxNumReqs]
  rw [hswap.builder] at hmv
  split_ifs at hmv
  · exact hr.moved mv hmv
  rcases mem_append.mp hmv with hmv | hmv
  · exact hr.moved mv hmv
  rw [mem_singleton] at hmv
  subst hmv
  exact ⟨fun hd => absurd hd (by simp), ⟨(hrow i1 id1 h1).1, (hrow i2 id2 h2).1⟩,
    (hrow i1 id1 h1).2, (hrow i2 id2 h2).2⟩

lemma Recorded.next (h : Base w) (hr : Recorded w) (hiss : w.Issued call)
    (heff : Effect w w' call) : Recorded w' := by
  cases call with
  | remove reqId =>
    have hopen := h.layout.open (by rw [show w.phase = .removing from hiss]; simp)
    obtain ⟨_, _, ⟨_, hbatch⟩ | ⟨i, _, hrem⟩⟩ := heff
    · exact Recorded.of_nil (by rw [hbatch]; exact hr.removing hiss) (by
        rw [hbatch]; exact hopen.moved)
    · exact Recorded.of_nil (by rw [hrem.builder]; exact hr.removing hiss) (by
        rw [hrem.builder]; exact hopen.moved)
  | updateSpec reqId spec =>
    obtain ⟨hph, _, i, _, hupd⟩ := heff
    refine ⟨?_, ?_, ?_⟩
    · rw [removed, hupd.builder, hupd.setup.maxNumReqs]
      exact hr.added
    · rw [removed, hupd.builder, hupd.setup.maxNumReqs]
      exact hr.moved
    · rw [hupd.builder, hph]
      exact hr.removing
  | add r =>
    obtain ⟨hph, _, builder, hpop, hadd⟩ := heff
    have hopen := h.layout.open hiss.1
    exact hr.add hopen hpop (hopen.nextIndex_lt hiss.2.2.1) hadd hph
  | condense =>
    obtain ⟨hph, _, hcond⟩ := heff
    exact hr.condense (h.layout.open hiss) hcond hph
  | swap i1 i2 =>
    obtain ⟨hph, _, id1, id2, h1, h2, hswap⟩ := heff
    exact hr.swap (h.layout.closed hiss.1) h1 h2 hswap (hph.trans hiss.1)
  | refresh =>
    obtain ⟨_, _, hbatch⟩ := heff
    obtain ⟨_, hmoved, hadded, _⟩ := refreshMetadata_builder w.batch
    exact Recorded.of_nil (by rw [hbatch]; exact hadded) (by rw [hbatch]; exact hmoved)

lemma getAndReset_cases :
    (b.batchUpdateBuilder.getAndReset b.numReqs).1 = none ∧ b.removed = [] ∧
    b.batchUpdateBuilder.moved = [] ∧
        b.batchUpdateBuilder.added = [] ∨
        (b.batchUpdateBuilder.getAndReset b.numReqs).1 = some b.update := by
  unfold BatchUpdateBuilder.getAndReset
  split_ifs with hemp
  · simp only [Bool.and_eq_true, List.isEmpty_iff] at hemp
    exact .inl ⟨rfl, hemp.1.1, hemp.1.2, hemp.2⟩
  · exact .inr rfl

include ht

/-- A consumer that gives updates their meaning has the values of the rows after the refresh. -/
lemma Tracks.refresh (hr : Recorded w) (hcl : w.batch.Closed) :
    replay d g w.batch.update table = w.value d g := by
  rw [replay_eq_clear fun mv hmv => (hr.moved mv hmv).2.1]
  funext i
  by_cases hi : i ∈ w.batch.removed
  · rw [value_of_none (cells_of_ge (hcl.beyond i hi))]
    exact if_pos hi
  · exact (if_neg hi).trans (ht i hi)

lemma Tracks.refresh_nil (hremoved : w.batch.removed = [])
    (hmoved : w.batch.batchUpdateBuilder.moved = [])
    (hadded : w.batch.batchUpdateBuilder.added = []) :
    table = w.value d g := by
  funext i
  have := ht i (by rw [hremoved]; simp)
  rwa [pending, hmoved, hadded] at this

end steps

/-! ## The logits processors -/

/-- The processors hold what the requests in the rows give, and nothing else. -/
structure ProcessorsExact (np : NumpyFloat32) (w : ModelRunner ε γ) : Prop where
  biases : ∀ i, w.batch.biases.get? i = w.value none logitBiasState i
  minToks : ∀ i, w.batch.minToks.get? i = w.value none minTokensState i
  minP : ∀ i, w.batch.minP.minPCpu i = w.value 0 (fun p _ _ => np.kept p.minP) i
  count : w.batch.minP.minPCount =
    ((List.range w.batch.numReqs).countP fun i => w.value 0 (fun p _ _ => np.kept p.minP) i ≠ 0 : ℕ)

/-- The `float32` array has no zero for a min-p that is not zero. -/
def KeepsMinP (np : NumpyFloat32) (params : SamplingParams) : Prop :=
  np.kept params.minP = 0 → params.minP = 0

/-- No added `min_p` is lost in the conversion to float32. -/
def AddsKept (np : NumpyFloat32) : RunnerCall ε γ → Prop
  | .add r => ∀ params, r.samplingParams = some params → KeepsMinP np params
  | _ => True

/-- Each processor's state, as updates are replayed, is that of the requests in the batch. -/
structure Following (np : NumpyFloat32) (w : ModelRunner ε γ) : Prop where
  biases : Tracks none logitBiasState w.batch.biases.get? w
  minToks : Tracks none minTokensState w.batch.minToks.get? w
  minP : Tracks 0 (fun p _ _ => np.kept p.minP) w.batch.minP.minPCpu w
  counted : Counted w.batch.maxNumReqs np w.batch.minP
  kept : ∀ a ∈ w.batch.batchUpdateBuilder.added, KeepsMinP np a.params

/-- A model that pools has no processor state. -/
structure Idle (np : NumpyFloat32) (w : ModelRunner ε γ) : Prop where
  biases : w.batch.biases = OrderedDict.empty
  minToks : w.batch.minToks = OrderedDict.empty
  minP : w.batch.minP = { numpy := np }

section processors

variable {np : NumpyFloat32} {w w' : ModelRunner ε γ} {call : RunnerCall ε γ}

lemma Effect.setup (h : Effect w w' call) (hcall : call ≠ .refresh) :
    SameSetup w.batch w'.batch := by
  cases call with
  | remove reqId =>
    obtain ⟨_, _, ⟨_, hbatch⟩ | ⟨i, _, hrem⟩⟩ := h
    · rw [hbatch]
      exact SameSetup.refl _
    · exact hrem.setup
  | updateSpec reqId spec =>
    obtain ⟨_, _, i, _, hupd⟩ := h
    exact hupd.setup
  | add r =>
    obtain ⟨_, _, builder, _, hadd⟩ := h
    exact hadd.setup
  | condense => exact h.2.2.setup
  | swap i1 i2 =>
    obtain ⟨_, _, id1, id2, _, _, hswap⟩ := h
    exact hswap.setup
  | refresh => exact absurd rfl hcall

/-- Only an addition puts a request into the update. -/
lemma Effect.kept (heff : Effect w w' call) (hcall : call ≠ .refresh) (hadds : AddsKept np call)
    (h : ∀ a ∈ w.batch.batchUpdateBuilder.added, KeepsMinP np a.params) :
    ∀ a ∈ w'.batch.batchUpdateBuilder.added, KeepsMinP np a.params := by
  cases call with
  | remove reqId =>
    obtain ⟨_, _, ⟨_, hbatch⟩ | ⟨i, _, hrem⟩⟩ := heff
    · rwa [hbatch]
    · rwa [hrem.builder]
  | updateSpec reqId spec =>
    obtain ⟨_, _, i, _, hupd⟩ := heff
    rwa [hupd.builder]
  | add r =>
    obtain ⟨_, _, builder, hpop, hadd⟩ := heff
    intro a ha
    rw [hadd.builder, mem_append, hpop.added] at ha
    rcases ha with ha | ha
    · exact h a ha
    rw [addedEntry, mem_toList, map_eq_some_iff] at ha
    obtain ⟨params, hparams, rfl⟩ := ha
    exact hadds params hparams
  | condense => rwa [heff.2.2.added]
  | swap i1 i2 =>
    obtain ⟨_, _, id1, id2, _, _, hswap⟩ := heff
    rw [hswap.builder]
    split_ifs <;> exact h
  | refresh => exact absurd rfl hcall

lemma Following.next (h : Base w) (hf : Following np w) (hpool : w.batch.isPoolingModel = false)
    (hiss : w.Issued call) (hadds : AddsKept np call) (heff : Effect w w' call)
    (hcall : call ≠ .refresh) : Following np w' := by
  have hsetup := heff.setup hcall
  refine ⟨?_, ?_, ?_, ?_, heff.kept hcall hadds hf.kept⟩
  · rw [hsetup.biases]
    exact hf.biases.next h hpool hiss heff hcall
  · rw [hsetup.minToks]
    exact hf.minToks.next h hpool hiss heff hcall
  · rw [hsetup.minP]
    exact hf.minP.next h hpool hiss heff hcall
  · rw [hsetup.minP, hsetup.maxNumReqs]
    exact hf.counted

lemma minTokensState_lt {params : SamplingParams} {prompt : Option (List ℤ)} {output : List ℤ}
    {e : ℕ × List ℤ × List ℤ} (h : minTokensState params prompt output = some e) :
    e.2.1.length < e.1 := by
  unfold minTokensState at h
  split_ifs at h with hattained
  rw [not_or] at hattained
  cases h
  dsimp only
  omega

lemma value_eq_some {τ : Type} {g : SamplingParams → Option (List ℤ) → List ℤ → Option τ} {i : ℕ}
    {v : τ}
    (h : w.value none g i = some v) : ∃ params prompt output, g params prompt output = some v := by
  unfold value requestValue at h
  cases hr : w.requestAt i with
  | none =>
    rw [hr] at h
    cases h
  | some r =>
    rw [hr, bind_some] at h
    cases hp : r.samplingParams with
    | none =>
      rw [hp] at h
      cases h
    | some params =>
      rw [hp] at h
      exact ⟨params, r.promptTokenIds, r.outputTokenIds, h⟩

variable {update : Option BatchUpdate}

/-- No row that is tracked has attained its minimum, so that none is dropped. -/
lemma updateMinToks_eq {minToks : OrderedDict ℕ (ℕ × List ℤ × List ℤ)}
    (h : (processDictUpdates minTokensState minToks update).1.get? = w.value none minTokensState) :
    updateMinToks minToks update = (processDictUpdates minTokensState minToks update).1 := by
  unfold updateMinToks
  have hkeep : ((processDictUpdates minTokensState minToks update).1.entries.filter
      fun e => e.2.1 ≤ e.2.2.1.length) = [] := by
    rw [filter_eq_nil_iff]
    intro e he hattained
    have hget : (processDictUpdates minTokensState minToks update).1.get? e.1 = some e.2 :=
      OrderedDict.get?_eq_some_iff.mpr he
    rw [h] at hget
    obtain ⟨params, prompt, output, hstate⟩ := value_eq_some hget
    have := minTokensState_lt hstate
    rw [decide_eq_true_eq] at hattained
    omega
  dsimp only
  rw [hkeep]
  rfl

lemma refreshMetadata_procs (hpool : w.batch.isPoolingModel = false)
    (hupdate : (w.batch.batchUpdateBuilder.getAndReset w.batch.numReqs).1 = update) :
    w.batch.refreshMetadata.biases = updateBiases w.batch.biases update ∧
      w.batch.refreshMetadata.minToks = updateMinToks w.batch.minToks update ∧
      w.batch.refreshMetadata.minP = w.batch.minP.updateState update ∧
      w.batch.refreshMetadata.thinkingBudgetStateHolder =
      w.batch.thinkingBudgetStateHolder.map (·.syncBatch update) := by
  unfold refreshMetadata
  rw [hpool, if_neg (by simp), ← hupdate]
  exact ⟨rfl, rfl, rfl, rfl⟩

lemma Following.refresh (hf : Following np w) (hr : Recorded w) (hcl : w.batch.Closed)
    (hpool : w.batch.isPoolingModel = false) :
    w.batch.refreshMetadata.biases.get? = w.value none logitBiasState ∧
      w.batch.refreshMetadata.minToks.get? = w.value none minTokensState ∧
      w.batch.refreshMetadata.minP.minPCpu = w.value 0 (fun p _ _ => np.kept p.minP) ∧
      Counted w.batch.maxNumReqs np w.batch.refreshMetadata.minP := by
  rcases getAndReset_cases w.batch with ⟨hnone, hremoved, hmoved, hadded⟩ | hsome
  · obtain ⟨hb, hm, hp, _⟩ := refreshMetadata_procs hpool hnone
    have hmin : (processDictUpdates minTokensState w.batch.minToks none).1.get? =
      w.value none minTokensState :=
      hf.minToks.refresh_nil hremoved hmoved hadded
    refine ⟨?_, ?_, ?_, ?_⟩
    · rw [hb]
      exact hf.biases.refresh_nil hremoved hmoved hadded
    · rw [hm, updateMinToks_eq hmin]
      exact hmin
    · rw [hp]
      exact hf.minP.refresh_nil hremoved hmoved hadded
    · rw [hp]
      exact hf.counted
  obtain ⟨hb, hm, hp, _⟩ := refreshMetadata_procs hpool hsome
  have hproper : ∀ mv ∈ w.batch.batchUpdateBuilder.moved, mv.Proper :=
    fun mv hmv => (hr.moved mv hmv).1
  have hmin : (processDictUpdates minTokensState w.batch.minToks (some w.batch.update)).1.get? =
      w.value none minTokensState :=
        (get?_processDictUpdates hproper).trans (hf.minToks.refresh hr hcl)
  obtain ⟨hcpu, hcounted⟩ := hf.counted.updateState
    (fun a (ha : a ∈ w.batch.update.added) => ⟨(hr.added a ha).2, hf.kept a ha⟩)
    fun mv hmv => ⟨(hr.moved mv hmv).1, (hr.moved mv hmv).2.2⟩
  refine ⟨?_, ?_, ?_, ?_⟩
  · rw [hb]
    exact (get?_processDictUpdates hproper).trans (hf.biases.refresh hr hcl)
  · rw [hm, updateMinToks_eq hmin]
    exact hmin
  · rw [hp]
    exact hcpu.trans (hf.minP.refresh hr hcl)
  · rw [hp]
    exact hcounted

lemma nonzeroRows_eq_countP {n m : ℕ} {table : ℕ → ℚ} (hle : m ≤ n)
    (hzero : ∀ i, m ≤ i → table i = 0) :
    nonzeroRows n table = ((range m).countP fun i => table i ≠ 0 : ℕ) := by
  have hfilter : (Finset.range n).filter (fun i => table i ≠ 0) = (Finset.range m).filter fun i =>
    table i ≠ 0 := by
    ext i
    simp only [Finset.mem_filter, Finset.mem_range]
    constructor
    · rintro ⟨_, hne⟩
      refine ⟨?_, hne⟩
      by_contra hge
      exact hne (hzero i (by omega))
    · rintro ⟨hi, hne⟩
      exact ⟨by omega, hne⟩
  rw [nonzeroRows, hfilter, countP_eq_length_filter]
  congr 1

def Processing (np : NumpyFloat32) (w : ModelRunner ε γ) : Prop :=
  Base w ∧ Recorded w ∧ (w.batch.isPoolingModel = false → Following np w) ∧
    (w.batch.isPoolingModel = true → Idle np w)

lemma value_refresh {d : β} {g : SamplingParams → Option (List ℤ) → List ℤ → β}
    (hheld : w'.held = w.held)
    (hbatch : w'.batch = w.batch.refreshMetadata) : w'.value d g = w.value d g := by
  rw [value_eq_comp hheld, value_eq_comp (w := w) rfl, hbatch, rowId,
    (refreshMetadata_rows w.batch).1]
  rfl

/-- Replaying the update brings each processor's state to that of the batch. -/
lemma Processing.refresh (h : Processing np w) (hph : w.phase = .condensed)
    (hheld : w'.held = w.held) (hbatch : w'.batch = w.batch.refreshMetadata) :
    ProcessorsExact np w' ∧ (w'.batch.isPoolingModel = false → Following np w') ∧
      (w'.batch.isPoolingModel = true → Idle np w') := by
  obtain ⟨hbase, hr, hfollow, hidle⟩ := h
  have hcl := hbase.layout.closed hph
  obtain ⟨_, hindex, _, _, _, _, _, hmax, hpool', _⟩ := refreshMetadata_rows w.batch
  have hnum : w'.batch.numReqs = w.batch.numReqs := by rw [hbatch, numReqs, hindex]; rfl
  have hvalue : ∀ i, w.batch.numReqs ≤ i → w.value 0 (fun p _ _ => np.kept p.minP) i = 0 :=
    fun i hi =>
    value_of_none (cells_of_ge (by rw [hcl.count]; exact hi))
  cases hpool : w.batch.isPoolingModel with
  | false =>
    obtain ⟨hb, hm, hp, hcounted⟩ := (hfollow hpool).refresh hr hcl hpool
    obtain ⟨_, hmoved, hadded, _⟩ := refreshMetadata_builder w.batch
    rw [← hbatch] at hb hm hp hcounted hmoved hadded hmax hpool'
    have hemp : ∀ {τ : Type} (d : τ) (g : SamplingParams → Option (List ℤ) → List ℤ →
      τ) (table : ℕ → τ),
        table = w.value d g → Tracks d g table w' := by
      intro τ d g table htab i _
      rw [pending, hmoved, hadded, value_refresh hheld hbatch, htab]
      rfl
    refine ⟨⟨?_, ?_, ?_, ?_⟩, fun _ => ⟨hemp _ _ _ hb, hemp _ _ _ hm, hemp _ _ _ hp, ?_, ?_⟩, ?_⟩
    · intro i
      rw [value_refresh hheld hbatch, hb]
    · intro i
      rw [value_refresh hheld hbatch, hm]
    · intro i
      rw [value_refresh hheld hbatch, hp]
    · rw [hcounted.count, hp, value_refresh hheld hbatch, hnum]
      refine nonzeroRows_eq_countP ?_ hvalue
      rw [← hcl.count]
      exact hcl.le_max
    · rw [hmax]
      exact hcounted
    · rw [hadded]
      simp
    · rw [hpool', hpool]
      exact fun hp => by cases hp
  | true =>
    obtain ⟨hb, hm, hp⟩ := hidle hpool
    have hsame : w'.batch.biases = w.batch.biases ∧ w'.batch.minToks = w.batch.minToks ∧
      w'.batch.minP = w.batch.minP := by
      rw [hbatch, refreshMetadata, if_pos hpool]
      exact ⟨rfl, rfl, rfl⟩
    rw [hb, hm, hp] at hsame
    rw [← hbatch, hpool] at hpool'
    have hnothing : ∀ {τ : Type} (d : τ) (g : SamplingParams → Option (List ℤ) → List ℤ →
      τ) (i : ℕ), w'.value d g i = d := by
      intro τ d g i
      rw [value_refresh hheld hbatch, hbase.value_of_pooling hpool]
    refine ⟨⟨?_, ?_, ?_, ?_⟩, ?_, fun _ => ⟨hsame.1, hsame.2.1, hsame.2.2⟩⟩
    · intro i
      rw [hsame.1, hnothing]
      rfl
    · intro i
      rw [hsame.2.1, hnothing]
      rfl
    · intro i
      rw [hsame.2.2, hnothing]
    · rw [hsame.2.2]
      simp [hnothing]
    · rw [hpool']
      exact fun hp => by cases hp

lemma Processing.next (h : Processing np w) (hiss : w.Issued call) (hadds : AddsKept np call) :
    ∃ w', w.step call = .ok w' ∧ Processing np w' := by
  obtain ⟨hbase, hr, hfollow, hidle⟩ := h
  obtain ⟨w', hstep, hbase', heff⟩ := hbase.next hiss
  refine ⟨w', hstep, hbase', hr.next hbase hiss heff, ?_⟩
  rcases eq_or_ne call .refresh with rfl | hcall
  · exact (Processing.refresh ⟨hbase, hr, hfollow, hidle⟩ hiss heff.2.1 heff.2.2).2
  have hsetup := heff.setup hcall
  rw [hsetup.isPoolingModel]
  refine ⟨fun hpool => (hfollow hpool).next hbase hpool hiss hadds heff hcall, fun hpool => ?_⟩
  obtain ⟨hb, hm, hp⟩ := hidle hpool
  exact ⟨by rw [hsetup.biases, hb], by rw [hsetup.minToks, hm], by rw [hsetup.minP, hp]⟩

lemma Processing.init (isPoolingModel : Bool) (maxNumReqs vocabSize : ℕ) (blocksPerKvBlock : List ℕ)
    (thinking : Option ThinkingBudgetStateHolder) (np : NumpyFloat32) :
    Processing np (init isPoolingModel maxNumReqs vocabSize blocksPerKvBlock thinking np :
      ModelRunner ε γ) := by
  refine ⟨Base.init _ _ _ _ _ _, Recorded.of_nil rfl rfl, fun _ => ⟨?_, ?_, ?_, ?_, ?_⟩,
    fun _ => ⟨rfl, rfl, rfl⟩⟩
  · exact fun i _ => rfl
  · exact fun i _ => rfl
  · exact fun i _ => rfl
  · refine ⟨rfl, ?_, fun _ _ => rfl⟩
    simp [ModelRunner.init, InputBatch.init, nonzeroRows]
  · exact fun a ha => by cases ha

/-- Each refresh leaves the processors with exactly the state of the requests in the rows, where
no min-p that is added is lost to the precision of `min_p_cpu`. -/
theorem processors_follow_batch (isPoolingModel : Bool) (maxNumReqs vocabSize : ℕ)
    (blocksPerKvBlock : List ℕ) (thinking : Option ThinkingBudgetStateHolder) (np : NumpyFloat32)
    (calls : List (RunnerCall ε γ))
    (hissued : Along step (fun w call => w.Issued call ∧ AddsKept np call)
      (init isPoolingModel maxNumReqs vocabSize blocksPerKvBlock thinking np) calls) :
    ∃ w, calls.foldlM step
        (init isPoolingModel maxNumReqs vocabSize blocksPerKvBlock thinking np) = .ok w ∧
      (w.Issued .refresh → ∃ w', w.step .refresh = .ok w' ∧ ProcessorsExact np w') := by
  obtain ⟨w, hrun, hp⟩ := hissued.exists_invariant
    (fun w call h hcall => Processing.next h hcall.1 hcall.2)
    (Processing.init isPoolingModel maxNumReqs vocabSize blocksPerKvBlock thinking np)
  refine ⟨w, hrun, fun hphase => ?_⟩
  obtain ⟨w', hstep, _, heffect⟩ := hp.1.next hphase
  exact ⟨w', hstep, (hp.refresh hphase heffect.2.1 heffect.2.2).1⟩

def sampleRequest (reqId : String) (params : SamplingParams) : CachedRequestState Unit Unit where
  reqId
  promptTokenIds := some [1]
  promptEmbeds := none
  promptIsTokenIds := none
  samplingParams := some params
  poolingParams := none
  generator := none
  blockIds := [[1]]
  numComputedTokens := 0
  outputTokenIds := []
  loraRequest := none
  numPromptTokens := 1
  length_ok := rfl

/-- Single precision: 24 significant bits, and no exponent below -149. -/
def float32 : NumpyFloat32 where
  kept := Rounding.nearest 24 (-149)
  eq x y := x = Rounding.nearest 24 (-149) y
  kept_zero := Rounding.nearest_zero _ _
  eq_spec _ _ h := of_decide_eq_true h

instance (params : SamplingParams) : Decidable (KeepsMinP float32 params) :=
  inferInstanceAs (Decidable (float32.kept params.minP = 0 → params.minP = 0))

lemma addsKept_sampleRequest {reqId : String} {params : SamplingParams}
    (h : KeepsMinP float32 params) : AddsKept float32 (.add (sampleRequest reqId params)) := by
  rintro _ ⟨⟩
  exact h

/-- The last row is moved to the place of a removed request. -/
theorem processors_follow_moved_request :
    ∃ w, [RunnerCall.add (sampleRequest "a" { minP := 1 / 2 }),
        .add (sampleRequest "b" { logitBias := some [(3, 1)] }),
        .condense, .refresh, .remove "a", .condense].foldlM step
          (init false 2 10 [1] none float32) = .ok w ∧
      (w.Issued .refresh → ∃ w', w.step .refresh = .ok w' ∧ ProcessorsExact float32 w') := by
  apply processors_follow_batch
  apply Run.along
  iterate 2 apply Run.cons ⟨by decide, addsKept_sampleRequest (by decide +kernel)⟩ rfl
  iterate 4 apply Run.cons ⟨by decide, trivial⟩ rfl
  apply Run.nil

/-- A `min_p` that rounds to zero is added in the row of a removed one. -/
def lostMinP : List (RunnerCall Unit Unit) :=
  [.add (sampleRequest "a" { minP := 1 / 2 }), .condense, .refresh, .remove "a",
    .add (sampleRequest "b" { minP := 1 / 10 ^ 46 }), .condense]

/-- A min-p below the least `float32` is stored as zero in the row of a request with another, and
the row stays counted. -/
theorem not_processorsExact_lostMinP :
    ∃ w, Run step Issued (init false 2 10 [1] none float32) lostMinP w ∧ w.Issued .refresh ∧
      ∃ w', w.step .refresh = .ok w' ∧ ¬ ProcessorsExact float32 w' := by
  refine ⟨?_, ?_, ?_⟩
  rotate_left
  · iterate 6 apply Run.cons (by decide) rfl
    exact Run.nil _
  refine ⟨by decide, _, rfl, fun h => ?_⟩
  have := h.count
  revert this
  decide +kernel

end processors

end ModelRunner

end Vllm.Worker
