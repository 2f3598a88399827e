import Vllm.Shm.SharedCachesProof

/-!
# No object is freed under a reader

An object handed out `H` times has a writer flag of at least `2 H - 1`: only the touch of the
request that added it was not counted. Until all readers have counted, each get had an uncounted
touch.
-/

namespace Vllm.Shm

open ObjectStorage Machine List SharedCaches Function

namespace SharedCaches

variable {t t' : SharedCaches} {n : ℕ}

/-- An object handed out `H` times with `C` counted touches: `gets` and `touches` are to come, and
`touched` were counted in the current request. -/
def Counts (n : ℕ) (o : Obj) (gets touches touched : ℕ) : Prop :=
  ∃ H C c : ℕ, o.count = c ∧ 1 ≤ H ∧ 2 * H + touched ≤ o.flag + 1 ∧ c + gets = n * H + C ∧
    (c < n ∧ C = 0 ∨ C + n + touches ≤ n * H)

namespace Counts

variable {o : Obj} {gets touches touched : ℕ}

lemma new (hn : 0 < n) (key : String) (address : ℕ) : Counts n ⟨key, address, 1, 0⟩ n n 0 :=
  ⟨1, 0, 0, rfl, le_rfl, le_rfl, by omega, .inl ⟨hn, rfl⟩⟩

lemma touchWriter (h : Counts n o gets touches touched) :
    Counts n { o with flag := o.flag + 1 } gets touches (touched + 1) := by
  obtain ⟨H, C, c, hc, hH, hflag, hgets, hcases⟩ := h
  exact ⟨H, C, c, hc, hH, by dsimp only; omega, hgets, hcases⟩

lemma handOut (h : Counts n o gets touches (touched + 1)) :
    Counts n { o with flag := o.flag + 1 } (gets + n) (touches + n) touched := by
  obtain ⟨H, C, c, hc, hH, hflag, hgets, hcases⟩ := h
  have hmul : n * (H + 1) = n * H + n := Nat.mul_succ n H
  exact ⟨H + 1, C, c, hc, by omega, by dsimp only; omega, by omega,
    hcases.imp_right fun hle => by omega⟩

variable (h : Counts n o gets (touches + 1) touched)
include h

lemma touchSkipped : Counts n o gets touches touched := by
  obtain ⟨H, C, c, hc, hH, hflag, hgets, hcases⟩ := h
  exact ⟨H, C, c, hc, hH, hflag, hgets, hcases.imp_right fun hle => by omega⟩

lemma touchCounted (hge : (n : ℤ) ≤ o.count) :
    Counts n { o with count := o.count + 1 } gets touches touched := by
  obtain ⟨H, C, c, hc, hH, hflag, hgets, hcases⟩ := h
  refine ⟨H, C + 1, c + 1, by dsimp only; omega, hH, hflag, by omega, ?_⟩
  rcases hcases with ⟨hlt, -⟩ | hle
  · omega
  · exact .inr (by omega)

omit h

lemma get (h : Counts n o (gets + 1) touches touched) (hle : touches ≤ gets) :
    Counts n { o with count := o.count + 1 } gets touches touched := by
  obtain ⟨H, C, c, hc, hH, hflag, hgets, hcases⟩ := h
  refine ⟨H, C, c + 1, by dsimp only; omega, hH, hflag, by omega, ?_⟩
  rcases hcases with ⟨hlt, rfl⟩ | hle'
  · -- the count may reach the number of readers; each get so far had its own touch
    rcases lt_or_ge (c + 1) n with hlt' | hge
    · exact .inl ⟨hlt', rfl⟩
    · exact .inr (by omega)
  · exact .inr hle'

lemma lt_flag (h : Counts n o gets touches touched) (hn : 0 < n) (huse : 0 < gets ∨ 0 < touched) :
    o.count < o.flag * n := by
  obtain ⟨H, C, c, hc, hH, hflag, hgets, hcases⟩ := h
  have hle : n * (2 * H + touched) ≤ n * (o.flag + 1) := Nat.mul_le_mul_left n hflag
  have hlt : c < o.flag * n := by
    have hone : n * 1 ≤ n * H := Nat.mul_le_mul_left n hH
    have htouched : 0 < touched → n ≤ n * touched := fun hpos => Nat.le_mul_of_pos_right n hpos
    rw [mul_add, mul_add, mul_left_comm] at hle
    rw [mul_comm o.flag]
    rcases hcases with ⟨hlt, rfl⟩ | hle'
    · omega
    rcases huse with hpos | hpos
    · omega
    have := htouched hpos
    omega
  rw [hc]
  exact_mod_cast hlt

end Counts

variable {l : SharedStep}

/-! ## All objects -/

variable (id : ℕ) (toGet : List Entry)

/-- The touches of an object that the writer counted and has not handed out since. -/
def touchedBy : ℕ := toGet.countP (·.id = some id)

def CountsAt (n : ℕ) (t : SharedCaches) (id : ℕ) (o : Obj) : Prop :=
  Counts n o (pending (getOf id) t.readers t.handed) (pending (touchOf id) t.readers t.handed)
    (touchedBy id t.toGet)

/-- The items of the request differ, those whose touch was not counted are not stored yet, and all
counts are right. -/
structure Safe (n : ℕ) (t : SharedCaches) : Prop where
  base : Base n t
  distinct : (t.toGet.map Entry.mmHash ++ t.toTouch.map Entry.mmHash).Nodup
  fresh : ∀ x ∈ t.toGet, x.id = none → ∀ id o, t.storage.obj id = some o → o.key ≠ x.mmHash
  counts : ∀ id o, t.storage.obj id = some o → CountsAt n t id o

lemma touchedBy_pos_iff {id : ℕ} {toGet : List Entry} :
    0 < touchedBy id toGet ↔ ∃ x ∈ toGet, x.id = some id := by
  rw [touchedBy]
  simp

lemma Safe.guarded (h : Safe n t) (hn : 0 < n) : t.Guarded := by
  intro id o ho huse
  rw [h.base.nReaders]
  exact (h.counts id o ho).lt_flag hn (huse.imp_right touchedBy_pos_iff.mpr)

lemma counts_update {s s' : ObjectStorage} {id : ℕ} {o' : Obj} {P : ℕ → Obj → Prop}
    {Q : ℕ → Obj → Prop} (hobj : s'.obj = update s.obj id (some o')) (hself : Q id o')
    (hoth : ∀ i o, i ≠ id → s.obj i = some o → P i o → Q i o)
    (h : ∀ i o, s.obj i = some o → P i o) :
    ∀ i o, s'.obj i = some o → Q i o := by
  intro i o ho
  rw [hobj] at ho
  rcases eq_or_ne i id with rfl | hi
  · rw [update_self] at ho
    cases ho
    exact hself
  · rw [update_of_ne hi] at ho
    exact hoth i o hi ho (h i o ho)

lemma touchedBy_append (x : Entry) :
    touchedBy id (toGet ++ [x]) = touchedBy id toGet + if x.id = some id then 1 else 0 := by
  simp [touchedBy]

lemma touchedBy_cons (x : Entry) :
    touchedBy id (x :: toGet) = touchedBy id toGet + if x.id = some id then 1 else 0 := by
  rw [touchedBy, countP_cons]
  simp [touchedBy]

/-- No request has an item twice. -/
def Distinct : SharedStep → Prop
  | .request items => (items.map Item.mmHash).Nodup
  | _ => True

/-- An item whose key is stored and whose touch was not counted would be in the request twice. -/
lemma Safe.id_eq (h : Safe n t) {x : Entry} (hx : x ∈ t.toGet) {id : ℕ} {o : Obj}
    (ho : t.storage.obj id = some o) (hkey : o.key = x.mmHash) : x.id = some id := by
  cases hid : x.id with
  | none => exact absurd hkey (h.fresh x hx hid id o ho)
  | some j => rw [h.base.eq_of_key hx hid ho hkey]

lemma Safe.next_counts (h : Safe n t) (hn : 0 < n) (hmove : Move t l t') :
    ∀ id o, t'.storage.obj id = some o → CountsAt n t' id o := by
  have hbase := h.base.next hn (h.guarded hn) hmove
  cases hmove with
  | request => exact h.counts
  | touchNew htch hkey =>
    intro id o ho
    have hcnts := h.counts id o ho
    unfold CountsAt at hcnts ⊢
    rw [touchedBy_append]
    exact hcnts
  | touch htch hobj hkey =>
    refine counts_update (obj_incrementWriterFlag hobj) ?_ (fun i o hi ho hcnts => ?_) h.counts
    · have hcnts := (h.counts _ _ hobj).touchWriter
      unfold CountsAt
      rw [touchedBy_append, if_pos rfl]
      exact hcnts
    unfold CountsAt at hcnts ⊢
    rw [touchedBy_append, if_neg fun heq => hi (Option.some.inj heq).symm]
    exact hcnts
  | @getCached x rest id o hget hobj hkey =>
    have hid := h.id_eq (hget ▸ mem_cons_self) hobj hkey
    refine counts_update (obj_incrementWriterFlag hobj) ?_ (fun i o hi ho hcnts => ?_) h.counts
    · have hcnts := h.counts _ _ hobj
      unfold CountsAt at hcnts ⊢
      rw [hget, touchedBy_cons, if_pos hid] at hcnts
      dsimp only
      rw [pending_handed, pending_handed, h.base.length]
      simpa [getOf, touchOf] using hcnts.handOut
    unfold CountsAt at hcnts ⊢
    rw [hget, touchedBy_cons, hid, if_neg fun heq => hi (Option.some.inj heq).symm] at hcnts
    dsimp only
    rw [pending_handed, pending_handed]
    simpa [getOf, touchOf, Ne.symm hi] using hcnts
  | getRaw hget hkey hsto hr =>
    have hid := h.base.id_eq_none (hget ▸ mem_cons_self) hkey
    intro i o ho
    have hcnts := h.counts i o (hr.of_some ho)
    unfold CountsAt at hcnts ⊢
    rw [hget, touchedBy_cons, hid] at hcnts
    exact hcnts
  | @getNew x rest s1 s address id hget hkey hsto hr hfresh hobj hrd =>
    have hid := h.base.id_eq_none (hget ▸ mem_cons_self) hkey
    have hunused := h.base.not_inUse (h.guarded hn) hr hfresh
    have hcounts1 : ∀ i o, s1.obj i = some o → CountsAt n t i o :=
      fun i o ho => h.counts i o (hr.of_some ho)
    refine counts_update hobj ?_ (fun i o hi ho hcnts => ?_) hcounts1
    · -- nothing is to come for the new id but the pair that is handed out
      have hgets : pending (getOf id) t.readers t.handed = 0 :=
        Nat.eq_zero_of_not_pos fun hpos => hunused (.inl hpos)
      have htouches := h.base.pending_touch_le id
      rw [hgets, Nat.le_zero] at htouches
      have htouched : touchedBy id rest = 0 := by
        refine Nat.eq_zero_of_not_pos fun hpos => hunused (.inr ?_)
        obtain ⟨y, hy, hyid⟩ := touchedBy_pos_iff.mp hpos
        exact ⟨y, hget ▸ mem_cons_of_mem _ hy, hyid⟩
      unfold CountsAt
      dsimp only
      rw [pending_handed, pending_handed, hgets, htouches, htouched, h.base.length]
      simpa [getOf, touchOf] using Counts.new hn x.mmHash address
    unfold CountsAt at hcnts ⊢
    rw [hget, touchedBy_cons, hid] at hcnts
    dsimp only
    rw [pending_handed, pending_handed]
    simpa [getOf, touchOf, Ne.symm hi] using hcnts
  | send hperm =>
    intro i o ho
    unfold CountsAt
    dsimp only
    rw [pending_send hperm, pending_send hperm]
    exact h.counts i o ho
  | @passed r op rest pre post o hrd hr hobj hop =>
    intro i oi ho
    have hcnts := h.counts i oi ho
    unfold CountsAt at hcnts ⊢
    rw [hrd, pending_pop, pending_pop] at hcnts
    by_cases hi : op.id = i
    · rcases hop with ⟨a, id, rfl⟩ | ⟨a, id, c, rfl, -⟩
      · simpa [getOf, touchOf] using hcnts
      obtain rfl : id = i := hi
      rw [touchOf, if_pos rfl, add_comm 1] at hcnts
      simpa [getOf] using hcnts.touchSkipped
    · rw [getOf_of_ne hi, touchOf_of_ne hi, zero_add, zero_add] at hcnts
      exact hcnts
  | @counted r op rest pre post o s hrd hr hobj hop hsto hobj' hn' =>
    refine counts_update hobj' ?_ (fun i oi hi ho hcnts => ?_) h.counts
    · have hcnts := h.counts _ _ hobj
      have hle := hbase.pending_touch_le op.id
      unfold CountsAt at hcnts ⊢
      rw [hrd, pending_pop, pending_pop] at hcnts
      rcases hop with ⟨a, id, rfl⟩ | ⟨a, id, c, rfl, hge⟩
      · simp only [getOf, touchOf, ReaderOp.id, if_true, zero_add, add_comm 1] at hcnts
        exact hcnts.get hle
      · simp only [getOf, touchOf, ReaderOp.id, if_true, zero_add, add_comm 1] at hcnts
        exact hcnts.touchCounted (h.base.nReaders ▸ hge)
    unfold CountsAt at hcnts ⊢
    rw [hrd, pending_pop, pending_pop, getOf_of_ne (Ne.symm hi), touchOf_of_ne (Ne.symm hi),
      zero_add, zero_add] at hcnts
    exact hcnts

/-- Every step on distinct items keeps the objects in use from being freed. -/
lemma Safe.next (h : Safe n t) (hn : 0 < n) (hdis : Distinct l) (hmove : Move t l t') :
    Safe n t' := by
  have hbase := h.base.next hn (h.guarded hn) hmove
  have hcnts := h.next_counts hn hmove
  have hrest : ∀ {x : Entry} {rest : List Entry}, t.toGet = x :: rest →
      (rest.map Entry.mmHash ++ t.toTouch.map Entry.mmHash).Nodup ∧
        ∀ y ∈ rest, y.mmHash ≠ x.mmHash ∧ y ∈ t.toGet := by
    intro x rest hget
    have hnd := h.distinct
    rw [hget, map_cons, cons_append, nodup_cons] at hnd
    refine ⟨hnd.2, fun y hy => ⟨fun heq => hnd.1 ?_, hget ▸ mem_cons_of_mem _ hy⟩⟩
    exact mem_append_left _ (mem_map.mpr ⟨y, hy, heq⟩)
  have htouchRest : ∀ {x : Entry} {rest : List Entry} (id : Option ℕ), t.toTouch = x :: rest →
      ((t.toGet ++ [{ x with id := id }]).map Entry.mmHash ++ rest.map Entry.mmHash).Nodup := by
    intro x rest id htch
    have hnd := h.distinct
    rw [htch, map_cons] at hnd
    rw [map_append, append_assoc]
    exact hnd
  -- the keys of the objects after a change of one of them
  have hkeys : ∀ {s : ObjectStorage} {id : ℕ} {o o' : Obj}, t.storage.obj id = some o →
      s.obj = update t.storage.obj id (some o') → o'.key = o.key →
      ∀ x ∈ t.toGet, x.id = none → ∀ i oi, s.obj i = some oi → oi.key ≠ x.mmHash := by
    intro s id o o' ho hobj hkey x hx hnone
    refine counts_update (P := fun _ oi => oi.key ≠ x.mmHash) hobj ?_ (fun _ _ _ _ hne =>
      hne) (h.fresh x hx hnone)
    rw [hkey]
    exact h.fresh x hx hnone id o ho
  cases hmove with
  | @request items htch hget =>
    refine ⟨hbase, ?_, h.fresh, hcnts⟩
    dsimp only
    rw [hget, map_map]
    exact hdis
  | touchNew htch hkey =>
    refine ⟨hbase, htouchRest none htch, ?_, hcnts⟩
    rw [forall_mem_append, forall_mem_singleton]
    exact ⟨h.fresh, fun _ => h.base.stored.get?_keyIndex_eq_none.mp hkey⟩
  | touch htch hobj hkey =>
    refine ⟨hbase, htouchRest _ htch, ?_, hcnts⟩
    rw [forall_mem_append, forall_mem_singleton]
    exact ⟨hkeys hobj (obj_incrementWriterFlag hobj) rfl, nofun⟩
  | getCached hget hobj hkey =>
    obtain ⟨hnd, hmem⟩ := hrest hget
    exact ⟨hbase, hnd, fun y hy => hkeys hobj (obj_incrementWriterFlag hobj) rfl y (hmem y hy).2,
      hcnts⟩
  | getRaw hget hkey hsto hr =>
    obtain ⟨hnd, hmem⟩ := hrest hget
    exact ⟨hbase, hnd, fun y hy hnone i o ho => h.fresh y (hmem y hy).2 hnone i o (hr.of_some ho),
      hcnts⟩
  | getNew hget hkey hsto hr hfresh hobj hrd =>
    obtain ⟨hnd, hmem⟩ := hrest hget
    refine ⟨hbase, hnd, fun y hy hnone => ?_, hcnts⟩
    refine counts_update (P := fun _ oi => oi.key ≠ y.mmHash) hobj (hmem y hy).1.symm
      (fun _ _ _ _ hne => hne) ?_
    exact fun i o ho => h.fresh y (hmem y hy).2 hnone i o (hr.of_some ho)
  | send hperm => exact ⟨hbase, h.distinct, h.fresh, hcnts⟩
  | passed hrd hr hobj hop => exact ⟨hbase, h.distinct, h.fresh, hcnts⟩
  | counted hrd hr hobj hop hsto hobj' hn' =>
    exact ⟨hbase, h.distinct, hkeys hobj hobj' rfl, hcnts⟩

lemma Safe.step (h : Safe n t) (hn : 0 < n) (hiss : t.Issued l) (hdis : Distinct l)
    (hstep : t.step l = .ok t') : Safe n t' := by
  rcases h.base.move hiss hstep with rfl | hmove
  · exact h
  · exact h.next hn hdis hmove

/-! ## Runs -/

/-- Some reader has yet to get the object of a pair that was handed out. -/
def Awaited (t : SharedCaches) (address id : ℕ) : Prop :=
  ∃ q ∈ t.readers, .count address id ∈ q ∨ ∃ x ∈ t.handed, x.address = address ∧ x.id = id

lemma length_readers (hstep : t.step l = .ok t') : t'.readers.length = t.readers.length := by
  cases l with
  | request => cases hstep; rfl
  | touch =>
    simp only [step] at hstep
    split at hstep <;> cases hstep <;> rfl
  | get =>
    simp only [step] at hstep
    split at hstep
    · cases hstep; rfl
    · obtain ⟨_, -, hstep⟩ := of_bind hstep
      cases hstep; rfl
  | send =>
    cases hstep
    exact length_map _
  | reader r =>
    simp only [step] at hstep
    split at hstep
    · obtain ⟨_, -, ⟨⟩⟩ := of_bind hstep
      exact length_set
    · cases hstep; rfl

lemma Safe.init {n maxObjectSize dataBufferSize : ℕ} (hsize : 0 < dataBufferSize) (buf : Memory) :
    Safe n (init n maxObjectSize dataBufferSize buf) where
  base := .init n maxObjectSize hsize buf
  distinct := nodup_nil
  fresh := nofun
  counts := nofun

lemma Base.of_inUse (h : Base n t) (hguarded : t.Guarded) {address id : ℕ}
    (hknown : Known t.storage address id)
    (huse : t.InUse id) : t.storage.ringBuffer.metadata.get? id = some address ∧
      t.storage.defaultIsFreeCheck id (t.storage.ringBuffer.dataView address) = false ∧
      ∃ bytes, t.storage.ringBuffer.readObject address id = .ok bytes := by
  obtain ⟨o, ho, rfl⟩ := hknown
  obtain ⟨hadr, -, hflag, hcnt⟩ := obj_eq_some_iff.mp ho
  refine ⟨hadr, ?_, ?_⟩
  · have hlt := hguarded id o ho huse
    unfold defaultIsFreeCheck
    rw [hflag, decide_eq_false_iff_not, not_le]
    unfold RingBuffer.readerCount at hcnt
    rw [hcnt]
    exact hlt
  obtain ⟨blocks, hlive, -⟩ := h.stored.live
  obtain ⟨b, hb, hid, haddr⟩ := exists_block ho hlive
  unfold RingBuffer.readObject
  rw [← haddr, (hlive.ok b hb).header, hid, if_neg (by simp)]
  exact ⟨_, rfl⟩

/-- While a reader has yet to get the object of a pair that was handed out, the object is at its
address, a reader finds its data, and no step frees it. -/
theorem no_free_while_awaited {maxObjectSize dataBufferSize : ℕ} (hsize : 0 < dataBufferSize)
    {buf : Memory} {steps : List SharedStep} (hrun : Run step (fun t l => t.Issued l ∧ Distinct l)
      (init n maxObjectSize dataBufferSize buf) steps t) {address id : ℕ}
      (h : t.Awaited address id) :
    t.storage.ringBuffer.metadata.get? id = some address ∧
    t.storage.defaultIsFreeCheck id (t.storage.ringBuffer.dataView address) = false ∧
    (∃ bytes, t.storage.ringBuffer.readObject address id = .ok bytes) ∧
    ∀ l t', t.Issued l → t.step l = .ok t' →
    t'.storage.ringBuffer.metadata.get? id = some address := by
  obtain ⟨q, hq, hawaited⟩ := h
  have hlength : t.readers.length = n := hrun.invariant (P := fun t => t.readers.length = n)
    (fun _ _ _ hlen _ hstep => (length_readers hstep).trans hlen) length_replicate
  have hn : 0 < n := hlength ▸ length_pos_of_mem hq
  have hsafe : Safe n t := hrun.invariant (P := Safe n)
    (fun _ _ _ hsafe hok hstep => hsafe.step hn hok.1 hok.2 hstep) (.init hsize buf)
  have hguarded := hsafe.guarded hn
  obtain ⟨hknown, huse⟩ : Known t.storage address id ∧ t.InUse id := by
    rcases hawaited with hop | ⟨x, hx, rfl, rfl⟩
    · exact ⟨hsafe.base.known q hq _ hop, inUse_of_mem hq (hsafe.base.balanced q hq) hop⟩
    · exact ⟨hsafe.base.handed x hx, inUse_of_handed (hlength ▸ hn) hx⟩
  obtain ⟨haddress, hfree, hread⟩ := hsafe.base.of_inUse hguarded hknown huse
  refine ⟨haddress, hfree, hread, fun l t' hissued hstep => ?_⟩
  rcases hsafe.base.move hissued hstep with rfl | hmove
  · exact haddress
  obtain ⟨o, ho, rfl⟩ := (hmove.kept hguarded).known huse hknown
  exact (obj_eq_some_iff.mp ho).1

/-- The first reader is done, and the object stays for the second. -/
theorem awaited_by_second_reader : ∃ t : SharedCaches,
    Run step (fun t l => t.Issued l ∧ Distinct l) (init 2 100 200 fun _ => 0)
      [.request [⟨"x", [1], [2]⟩], .touch, .get, .send [⟨0, 0, false⟩], .reader 0, .reader 0,
        .reader 0] t ∧
    t.Awaited 0 0 ∧ t.storage.defaultIsFreeCheck 0 (t.storage.ringBuffer.dataView 0) = false := by
  refine Exists.imp (fun t (h : _ ∧ t.readers = [[], program [⟨0, 0, false⟩]]) => ⟨h.1, ?_⟩) ?_
  · have hawaited : t.Awaited 0 0 := by
      refine ⟨program [⟨0, 0, false⟩], ?_, .inl ?_⟩
      · rw [h.2]
        exact mem_cons_of_mem _ mem_cons_self
      · exact mem_append_right _ (mem_cons_of_mem _ mem_cons_self)
    exact ⟨hawaited, (no_free_while_awaited (by decide) h.1 hawaited).2.1⟩
  apply Exists.intro
  constructor
  · apply Run.cons ⟨by decide, nodup_singleton _⟩ rfl
    iterate 3 apply Run.cons ⟨by decide, trivial⟩ rfl
    iterate 3 apply Run.cons ⟨trivial, trivial⟩ (by with_unfolding_all rfl)
    apply Run.nil
  · rfl

end SharedCaches

end Vllm.Shm
