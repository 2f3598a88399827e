import Vllm.Shm.SharedCachesSafe

/-!
# When all objects can be freed

The writer counts its touch of a stored item, a reader if the count has reached the number of
readers.
-/

namespace Vllm.Shm

open ObjectStorage Machine List Option SharedCaches

namespace SharedCaches

variable {t t' : SharedCaches} {n : ℕ} {rest : List ReaderOp} (id : ℕ)

/-- What an operation adds to the count of an object, if readers and writer agree. -/
def owedOf : ReaderOp → ℕ
  | .touch _ i counted => if i = id ∧ counted then 1 else 0
  | .read _ _ => 0
  | .count _ i => if i = id then 1 else 0

lemma owedOf_of_ne {op : ReaderOp} {id : ℕ} (h : op.id ≠ id) : owedOf id op = 0 := by
  cases op with
  | read => rfl
  | count a i => exact if_neg h
  | touch a i c => exact if_neg fun hand => h hand.1

lemma getOf_le_owedOf (op : ReaderOp) : getOf id op ≤ owedOf id op := by
  cases op with
  | touch | read => exact Nat.zero_le _
  | count => exact le_rfl

lemma owedOf_le (op : ReaderOp) : owedOf id op ≤ getOf id op + touchOf id op := by
  cases op with
  | read => exact Nat.zero_le _
  | count => exact le_rfl
  | touch a i c =>
    simp only [owedOf, getOf, touchOf, zero_add]
    split_ifs <;> grind

/-- A reader counts its touch of an object if and only if the writer counted it. -/
def Agrees (t : SharedCaches) : SharedStep → Prop
  | .reader r =>
    ∀ address id counted rest, t.readers[r]? = some (.touch address id counted :: rest) →
      (counted = true ↔ (t.storage.nReaders : ℤ) ≤ t.storage.ringBuffer.readerCount address)
  | _ => True

/-- What the readers still have to count, and what the writer has counted for an item not yet handed
out. -/
def owed (n : ℕ) (t : SharedCaches) (id : ℕ) : ℕ :=
  pending (owedOf id) t.readers t.handed + n * touchedBy id t.toGet

/-- The count and what is to come make up the writer flag. -/
structure Exact (n : ℕ) (t : SharedCaches) : Prop where
  base : Base n t
  exact : ∀ id o, t.storage.obj id = some o → o.count + owed n t id = (n * o.flag : ℕ)

lemma owed_pos (hn : 0 < n) {id : ℕ} (huse : t.InUse id) : 0 < owed n t id := by
  rcases huse with hpos | hmem
  · exact Nat.add_pos_left (hpos.trans_le (pending_mono (getOf_le_owedOf id))) _
  · exact Nat.add_pos_right _ (mul_pos hn (touchedBy_pos_iff.mpr hmem))

lemma Base.owed_eq_zero (h : Base n t) {id : ℕ} (hunused : ¬ t.InUse id) : owed n t id = 0 := by
  have hgets : pending (getOf id) t.readers t.handed = 0 :=
    Nat.eq_zero_of_not_pos fun hpos => hunused (.inl hpos)
  have htouches := h.pending_touch_le id
  have hle : pending (owedOf id) t.readers t.handed ≤ _ := pending_mono (owedOf_le id)
  have htouched : touchedBy id t.toGet = 0 :=
    Nat.eq_zero_of_not_pos fun hpos => hunused (.inr (touchedBy_pos_iff.mp hpos))
  rw [pending_add] at hle
  rw [owed, htouched]
  omega

lemma Exact.guarded (h : Exact n t) (hn : 0 < n) : t.Guarded := by
  intro id o ho huse
  have hex := h.exact id o ho
  have hpos := owed_pos hn huse
  rw [h.base.nReaders, mul_comm]
  omega

lemma Agrees.touch {r : ℕ} (h : t.Agrees (.reader r)) {address id : ℕ} {c : Bool}
    {pre post : List (List ReaderOp)}
    (hrd : t.readers = pre ++ (.touch address id c :: rest) :: post)
    (hr : pre.length = r) {o : Obj} (hbase : Base n t) (hobj : t.storage.obj id = some o) :
    c = true ↔ (t.storage.nReaders : ℤ) ≤ o.count := by
  have hget : t.readers[r]? = some (.touch address id c :: rest) := by
    rw [hrd, ← hr, getElem?_append_right le_rfl, Nat.sub_self]
    rfl
  have hmem := mem_of_getElem? hget
  obtain ⟨o', ho', haddr⟩ := hbase.known _ hmem _ mem_cons_self
  obtain rfl : o' = o := some.inj (ho'.symm.trans hobj)
  have hcnt := (obj_eq_some_iff.mp ho').2.2.2
  rw [haddr] at hcnt
  rw [← hcnt]
  exact h address id c rest hget

/-- Every step keeps the counts exact. -/
lemma Exact.next (h : Exact n t) (hn : 0 < n) {l : SharedStep} (hagrees : t.Agrees l)
    (hmove : Move t l t') :
    Exact n t' := by
  refine ⟨h.base.next hn (h.guarded hn) hmove, ?_⟩
  cases hmove with
  | request => exact h.exact
  | touchNew htch hkey =>
    intro id o ho
    have hex := h.exact id o ho
    unfold owed at hex ⊢
    rw [touchedBy_append]
    exact hex
  | touch htch hobj hkey =>
    refine counts_update (obj_incrementWriterFlag hobj) ?_ (fun i o hi ho hex => ?_) h.exact
    · have hex := h.exact _ _ hobj
      unfold owed at hex ⊢
      rw [touchedBy_append, if_pos rfl, Nat.mul_succ, Nat.mul_succ]
      push_cast at hex ⊢
      linarith
    unfold owed at hex ⊢
    rw [touchedBy_append, if_neg fun heq => hi (some.inj heq).symm]
    exact hex
  | @getCached x rest id o hget hobj hkey =>
    have hx : x ∈ t.toGet := hget ▸ mem_cons_self
    refine counts_update (obj_incrementWriterFlag hobj) ?_ (fun i o hi ho hex => ?_) h.exact
    · have hex := h.exact _ _ hobj
      unfold owed at hex ⊢
      rw [hget, touchedBy_cons] at hex
      dsimp only
      rw [pending_handed, h.base.length, Nat.mul_succ]
      cases hid : x.id with
      | none =>
        rw [hid, if_neg nofun] at hex
        simp only [owedOf, isSome_none, Bool.false_eq_true, and_false, if_true, if_false]
        push_cast at hex ⊢
        linarith
      | some j =>
        obtain rfl := h.base.eq_of_key hx hid hobj hkey
        rw [hid, if_pos rfl] at hex
        simp only [owedOf, isSome_some, and_true, if_true]
        push_cast at hex ⊢
        linarith
    have hne : ¬ x.id = some i := fun heq => hi (h.base.eq_of_key hx heq hobj hkey)
    unfold owed at hex ⊢
    rw [hget, touchedBy_cons, if_neg hne] at hex
    dsimp only
    rw [pending_handed]
    simpa [owedOf, Ne.symm hi] using hex
  | getRaw hget hkey hsto hr =>
    have hid := h.base.id_eq_none (hget ▸ mem_cons_self) hkey
    intro i o ho
    have hex := h.exact i o (hr.of_some ho)
    unfold owed at hex ⊢
    rw [hget, touchedBy_cons, hid] at hex
    exact hex
  | @getNew x rest s1 s address id hget hkey hsto hr hfresh hobj hrd =>
    have hid := h.base.id_eq_none (hget ▸ mem_cons_self) hkey
    refine counts_update hobj ?_ (fun i o hi ho hex => ?_) fun i o ho => h.exact i o (hr.of_some ho)
    · have howed := h.base.owed_eq_zero (h.base.not_inUse (h.guarded hn) hr hfresh)
      unfold owed at howed ⊢
      rw [hget, touchedBy_cons, hid, if_neg nofun, add_zero] at howed
      dsimp only
      rw [pending_handed, h.base.length]
      simp only [owedOf, hid, isSome_none, Bool.false_eq_true, and_false, if_true, if_false]
      omega
    unfold owed at hex ⊢
    rw [hget, touchedBy_cons, hid] at hex
    dsimp only
    rw [pending_handed]
    simpa [owedOf, Ne.symm hi] using hex
  | send hperm =>
    intro i o ho
    have hex := h.exact i o ho
    unfold owed at hex ⊢
    dsimp only
    rw [pending_send hperm]
    exact hex
  | @passed r op rest pre post o hrd hr hobj hop =>
    -- a touch that was not counted is not owed
    have hzero : ∀ i, owedOf i op = 0 := by
      intro i
      rcases hop with ⟨a, id, rfl⟩ | ⟨a, id, c, rfl, hlt⟩
      · rfl
      have hc := hagrees.touch hrd hr h.base hobj
      exact if_neg fun hand => absurd (hc.mp hand.2) (not_le.mpr hlt)
    intro i oi ho
    have hex := h.exact i oi ho
    unfold owed at hex ⊢
    rw [hrd, pending_pop, hzero, zero_add] at hex
    exact hex
  | @counted r op rest pre post o s hrd hr hobj hop hsto hobj' hn' =>
    refine counts_update hobj' ?_ (fun i oi hi ho hex => ?_) h.exact
    · have hone : owedOf op.id op = 1 := by
        rcases hop with ⟨a, id, rfl⟩ | ⟨a, id, c, rfl, hge⟩
        · exact if_pos rfl
        · exact if_pos ⟨rfl, (hagrees.touch hrd hr h.base hobj).mpr hge⟩
      have hex := h.exact _ _ hobj
      unfold owed at hex ⊢
      rw [hrd, pending_pop, hone] at hex
      push_cast at hex ⊢
      linarith
    unfold owed at hex ⊢
    rw [hrd, pending_pop, owedOf_of_ne (Ne.symm hi), zero_add] at hex
    exact hex

/-! ## Runs -/

/-- No request is open and every reader has done its work. -/
def Finished (t : SharedCaches) : Prop :=
  (∀ q ∈ t.readers, q = []) ∧ t.toTouch = [] ∧ t.toGet = [] ∧ t.handed = []

lemma Finished.owed (h : t.Finished) (n id : ℕ) : owed n t id = 0 := by
  obtain ⟨hrd, -, hget, hhanded⟩ := h
  have hsum : (t.readers.map (weight (owedOf id))).sum = 0 := by
    refine sum_eq_zero fun x hx => ?_
    obtain ⟨q, hq, rfl⟩ := mem_map.mp hx
    rw [hrd q hq]
    rfl
  rw [SharedCaches.owed, pending, hsum, hget, hhanded]
  simp [touchedBy, weight, program, touches, gets]

/-- If the reader agrees with the writer in every step, then once all requests are finished the
count of every object is its writer flag times the number of readers, and at any time an object can
be freed iff no get of it is to come. -/
theorem counts_exact (hn : 0 < n) {maxObjectSize dataBufferSize : ℕ} (hsize : 0 < dataBufferSize)
    {buf : Memory} {steps : List SharedStep} (hrun : Run step (fun t l => t.Issued l ∧ t.Agrees l)
      (init n maxObjectSize dataBufferSize buf) steps t) {id address : ℕ}
    (haddress : t.storage.ringBuffer.metadata.get? id = some address) :
    (t.Finished → ∃ flag, t.storage.writerFlag.get? id = some flag ∧
      t.storage.ringBuffer.readerCount address = flag * n) ∧
    (t.storage.defaultIsFreeCheck id (t.storage.ringBuffer.dataView address) = true ↔
      ¬ t.InUse id) := by
  have hexact : Exact n t := hrun.invariant (P := Exact n) (fun t l t' h hok hstep => by
    rcases h.base.move hok.1 hstep with rfl | hmove
    · exact h
    · exact h.next hn hok.2 hmove) ⟨.init n maxObjectSize hsize buf, nofun⟩
  obtain ⟨o, ho, rfl⟩ := hexact.base.stored.exists_obj haddress
  obtain ⟨-, -, hflag, hcount⟩ := obj_eq_some_iff.mp ho
  have hsum := hexact.exact id o ho
  constructor
  · intro hfinished
    refine ⟨o.flag, hflag, ?_⟩
    rw [hfinished.owed] at hsum
    rw [hcount]
    push_cast at hsum
    linarith
  have hfree : t.storage.defaultIsFreeCheck id (t.storage.ringBuffer.dataView o.address) = true ↔
      (o.flag : ℤ) * n ≤ o.count := by
    unfold RingBuffer.readerCount at hcount
    unfold defaultIsFreeCheck
    rw [hflag, decide_eq_true_iff, hcount, hexact.base.nReaders]
    rfl
  rw [hfree]
  constructor
  · intro hle huse
    have hlt := hexact.guarded hn id o ho huse
    rw [hexact.base.nReaders] at hlt
    omega
  intro hunused
  rw [hexact.base.owed_eq_zero hunused] at hsum
  push_cast at hsum
  linarith

lemma agrees_reader {r : ℕ} {op : ReaderOp} (h : t.readers[r]? = some (op :: rest))
    (hop : ∀ address id c,
      op = .touch address id c →
      (c = true ↔ (t.storage.nReaders : ℤ) ≤ t.storage.ringBuffer.readerCount address)) :
    t.Agrees (.reader r) := by
  intro address id c rest' h'
  rw [h] at h'
  cases h'
  exact hop _ _ _ rfl

/-- Two readers and two requests for one item, which the readers finish one after the other: the
count is 6, the writer flag 3. -/
theorem two_requests_exact : ∃ t : SharedCaches,
    Run step (fun t l => t.Issued l ∧ t.Agrees l) (init 2 100 200 fun _ => 0)
      [.request [⟨"x", [1], [2]⟩], .touch, .get, .send [⟨0, 0, false⟩],
        .reader 0, .reader 1, .reader 0, .reader 0, .reader 1, .reader 1,
        .request [⟨"x", [1], [2]⟩], .touch, .get, .send [⟨0, 0, true⟩],
        .reader 0, .reader 1, .reader 0, .reader 0, .reader 1, .reader 1] t ∧
    t.Finished ∧ t.storage.writerFlag.get? 0 = some 3 ∧ t.storage.ringBuffer.readerCount 0 = 6 := by
  refine Exists.imp (fun t (h : _ ∧ t.Finished ∧ t.storage.ringBuffer.metadata.get? 0 = some 0 ∧
    t.storage.writerFlag.get? 0 = some 3) => ⟨h.1, h.2.1, h.2.2.2, ?_⟩) ?_
  · obtain ⟨flag, hflag, hcount⟩ := (counts_exact (by decide) (by decide) h.1 h.2.2.1).1 h.2.1
    obtain rfl : flag = 3 := some.inj (hflag.symm.trans h.2.2.2)
    exact hcount
  apply Exists.intro
  constructor
  · iterate 4 apply Run.cons ⟨by decide, trivial⟩ rfl
    iterate 2
      apply Run.cons ⟨trivial, agrees_reader rfl (by
        rintro _ _ _ ⟨⟩
        exact iff_of_false nofun (by with_unfolding_all decide))⟩ (by with_unfolding_all rfl)
    iterate 4 apply Run.cons ⟨trivial, agrees_reader rfl nofun⟩ (by with_unfolding_all rfl)
    iterate 4 apply Run.cons ⟨by decide, trivial⟩ rfl
    iterate 2
      apply Run.cons ⟨trivial, agrees_reader rfl (by
        rintro _ _ _ ⟨⟩
        exact iff_of_true rfl (by with_unfolding_all decide))⟩ (by with_unfolding_all rfl)
    iterate 4 apply Run.cons ⟨trivial, agrees_reader rfl nofun⟩ (by with_unfolding_all rfl)
    apply Run.nil
  refine ⟨⟨?_, rfl, rfl, rfl⟩, rfl, rfl⟩
  show ∀ q ∈ ([[], []] : List (List ReaderOp)), q = []
  simp

/-- With two requests for one item, the first reader comes to the second request when only its own
get is counted, so its touch is lost and the object is never freed. With a new item twice in one
request, the object is free before the second reader has got it. -/
theorem touches_disagree : (∃ t : SharedCaches, Run step Issued (init 2 100 200 fun _ => 0)
        [.request [⟨"x", [1], [2]⟩], .touch, .get, .send [⟨0, 0, false⟩],
          .request [⟨"x", [1], [2]⟩], .touch, .get, .send [⟨0, 0, true⟩],
          .reader 0, .reader 1, .reader 0, .reader 0, .reader 0, .reader 0, .reader 0,
          .reader 1, .reader 1, .reader 1, .reader 1, .reader 1] t ∧
      t.Finished ∧ t.storage.ringBuffer.metadata.get? 0 = some 0 ∧
      t.storage.writerFlag.get? 0 = some 3 ∧
      t.storage.ringBuffer.readerCount 0 = 5) ∧
      ∃ t : SharedCaches, Run step Issued (init 2 100 200 fun _ => 0)
        [.request [⟨"x", [1], [2]⟩, ⟨"x", [1], [2]⟩], .touch, .touch, .get, .get,
          .send [⟨0, 0, false⟩, ⟨0, 0, false⟩],
          .reader 0, .reader 0, .reader 0, .reader 0, .reader 0, .reader 0, .reader 1,
          .reader 1] t ∧
      t.Awaited 0 0 ∧ t.storage.ringBuffer.metadata.get? 0 = some 0 ∧
      t.storage.defaultIsFreeCheck 0 (t.storage.ringBuffer.dataView 0) = true := by
  constructor
  · apply Exists.intro
    constructor
    · iterate 8 apply Run.cons (by decide) rfl
      iterate 12 apply Run.cons trivial (by with_unfolding_all rfl)
      apply Run.nil
    refine ⟨⟨?_, rfl, rfl, rfl⟩, rfl, rfl, by with_unfolding_all rfl⟩
    show ∀ q ∈ ([[], []] : List (List ReaderOp)), q = []
    simp
  apply Exists.intro
  constructor
  · iterate 6 apply Run.cons (by decide) rfl
    iterate 8 apply Run.cons trivial (by with_unfolding_all rfl)
    apply Run.nil
  refine ⟨⟨gets [⟨0, 0, false⟩, ⟨0, 0, false⟩], ?_, .inl ?_⟩, rfl, by with_unfolding_all rfl⟩
  · exact mem_cons_of_mem _ mem_cons_self
  · exact mem_cons_of_mem _ mem_cons_self

end SharedCaches

end Vllm.Shm
