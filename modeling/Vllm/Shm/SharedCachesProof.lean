import Vllm.Shm.ObjectStorageProof
import Vllm.Shm.SharedCaches

/-! # The steps of the shared caches -/

namespace Vllm.Shm

open ObjectStorage List Function

/-! ## Counting operations -/

def weight (f : ReaderOp → ℕ) (ops : List ReaderOp) : ℕ := (ops.map f).sum

section weight

variable {f : ReaderOp → ℕ}

@[simp] lemma weight_cons (op : ReaderOp) (ops : List ReaderOp) :
    weight f (op :: ops) = f op + weight f ops :=
  sum_cons

@[simp] lemma weight_append (ops ops' : List ReaderOp) :
    weight f (ops ++ ops') = weight f ops + weight f ops' := by
  rw [weight, map_append, sum_append]
  rfl

variable (features : List Feature)

lemma weight_touches :
    weight f (touches features) =
    (features.map fun x => f (.touch x.address x.id x.counted)).sum := by
  rw [weight, touches, map_map]
  rfl

lemma weight_gets : weight f (gets features) =
    (features.map fun x => f (.read x.address x.id) + f (.count x.address x.id)).sum := by
  induction features with
  | nil => rfl
  | cons x features ih =>
    rw [gets, flatMap_cons, weight_append, map_cons, sum_cons, ← ih, weight_cons, weight_cons]
    rfl

lemma weight_program : weight f (program features) = (features.map fun x =>
    f (.touch x.address x.id x.counted) +
    (f (.read x.address x.id) + f (.count x.address x.id))).sum := by
  rw [program, weight_append, weight_touches, weight_gets]
  exact sum_map_add.symm

lemma weight_program_append (features features' : List Feature) :
    weight f (program (features ++ features')) = weight f (program features) +
    weight f (program features') := by
  simp only [weight_program, map_append, sum_append]

lemma weight_program_perm {features features' : List Feature} (h : features.Perm features') :
    weight f (program features) = weight f (program features') := by
  rw [weight_program, weight_program]
  exact (h.map _).sum_eq

end weight

def getOf (id : ℕ) : ReaderOp → ℕ
  | .count _ i => if i = id then 1 else 0
  | _ => 0

def touchOf (id : ℕ) : ReaderOp → ℕ
  | .touch _ i _ => if i = id then 1 else 0
  | _ => 0

lemma getOf_of_ne {op : ReaderOp} {id : ℕ} (h : op.id ≠ id) : getOf id op = 0 := by
  cases op with
  | touch | read => rfl
  | count a i => exact if_neg h

lemma touchOf_of_ne {op : ReaderOp} {id : ℕ} (h : op.id ≠ id) : touchOf id op = 0 := by
  cases op with
  | read | count => rfl
  | touch a i c => exact if_neg h

/-- In every rest an object is got at least as often as it is touched, and a get follows each
touch. -/
def Balanced : List ReaderOp → Prop
  | [] => True
  | op :: ops => ((∀ id, weight (touchOf id) (op :: ops) ≤ weight (getOf id) (op :: ops)) ∧
      0 < weight (getOf op.id) (op :: ops)) ∧ Balanced ops

namespace Balanced

variable {op : ReaderOp} {ops ops' : List ReaderOp}

lemma le (h : Balanced ops) (id : ℕ) : weight (touchOf id) ops ≤ weight (getOf id) ops := by
  cases ops with
  | nil => exact le_rfl
  | cons op ops => exact h.1.1 id

lemma weight_pos (h : Balanced ops) (hop : op ∈ ops) : 0 < weight (getOf op.id) ops := by
  induction ops with
  | nil => cases hop
  | cons op' ops ih =>
    rcases mem_cons.mp hop with rfl | hop
    · exact h.1.2
    rw [weight_cons]
    have := ih h.2 hop
    omega

lemma append (h : Balanced ops) (h' : Balanced ops') : Balanced (ops ++ ops') := by
  induction ops with
  | nil => exact h'
  | cons op ops ih =>
    refine ⟨?_, ih h.2⟩
    show (∀ id, weight _ ((op :: ops) ++ ops') ≤ weight _ ((op :: ops) ++ ops')) ∧
      0 < weight _ ((op :: ops) ++ ops')
    simp only [weight_append]
    exact ⟨fun id => add_le_add (h.1.1 id) (h'.le id), Nat.add_pos_left h.1.2 _⟩

lemma cons (h : Balanced ops) (htch : ∀ id, touchOf id op = 0)
    (hpos : 0 < weight (getOf op.id) (op :: ops)) :
    Balanced (op :: ops) := by
  refine ⟨⟨fun id => ?_, hpos⟩, h⟩
  rw [weight_cons, weight_cons, htch id]
  have := h.le id
  omega

variable (features)

lemma gets : Balanced (gets features) := by
  induction features with
  | nil => trivial
  | cons x features ih =>
    have hcnt : Balanced (.count x.address x.id :: Shm.gets features) :=
      ih.cons (fun _ => rfl) (by simp [getOf, ReaderOp.id])
    exact hcnt.cons (fun _ => rfl) (by simp [getOf, ReaderOp.id])

lemma program : Balanced (program features) := by
  -- behind some of the touches stand the gets of all objects
  have htouches : ∀ l, l <:+ features → Balanced (touches l ++ Shm.gets features) := by
    intro l
    induction l with
    | nil => exact fun _ => gets features
    | cons x l ih =>
      intro hsuffix
      refine ⟨?_, ih ((suffix_cons x l).trans hsuffix)⟩
      show (∀ id, weight _ (touches (x :: l) ++ Shm.gets features) ≤
        weight _ (touches (x :: l) ++ Shm.gets features)) ∧
        0 < weight (getOf x.id) (touches (x :: l) ++ Shm.gets features)
      have hle : ∀ id, ((x :: l).map fun x : Feature => if x.id = id then 1 else 0).sum ≤
          (features.map fun x : Feature => if x.id = id then 1 else 0).sum := fun id =>
        (hsuffix.sublist.map _).sum_le_sum fun _ _ => Nat.zero_le _
      simp only [weight_append, weight_touches, weight_gets]
      refine ⟨fun id => by simpa [touchOf, getOf] using hle id, ?_⟩
      have hpos := hle x.id
      simp only [map_cons, sum_cons, if_true] at hpos
      simp only [getOf, zero_add]
      omega
  exact htouches features suffix_rfl

variable {features}

end Balanced

/-- The weights of all operations to come; a pair that is not sent yet is one for every reader. -/
def pending (f : ReaderOp → ℕ) (readers : List (List ReaderOp)) (handed : List Feature) : ℕ :=
  (readers.map (weight f)).sum + readers.length * weight f (program handed)

section pending

variable {f : ReaderOp → ℕ} {readers : List (List ReaderOp)} {handed : List Feature}
  {g : ReaderOp → ℕ}

lemma weight_mono (h : ∀ op, f op ≤ g op) (ops : List ReaderOp) : weight f ops ≤ weight g ops :=
  sum_le_sum fun op _ => h op

lemma pending_mono (h : ∀ op, f op ≤ g op) : pending f readers handed ≤ pending g readers handed :=
  Nat.add_le_add (sum_le_sum fun q _ => weight_mono h q) (Nat.mul_le_mul_left _ (weight_mono h _))

lemma pending_add (f g : ReaderOp → ℕ) :
    pending (fun op => f op + g op) readers handed = pending f readers handed +
    pending g readers handed := by
  have hweight : ∀ ops, weight (fun op => f op + g op) ops = weight f ops + weight g ops :=
    fun ops => sum_map_add
  have hmap : (readers.map (weight fun op => f op + g op)).sum =
      (readers.map (weight f)).sum + (readers.map (weight g)).sum := by
    rw [← sum_map_add]
    exact congrArg sum (map_congr_left fun q _ => hweight q)
  rw [pending, pending, pending, hweight, mul_add]
  omega

lemma pending_send {features : List Feature} (h : features.Perm handed) :
    pending f (readers.map (· ++ program features)) [] = pending f readers handed := by
  have hmap : ((readers.map (· ++ program features)).map (weight f)) =
      readers.map fun q => weight f q + weight f (program features) := by
    rw [map_map]
    exact map_congr_left fun q _ => weight_append q _
  rw [pending, hmap, sum_map_add, weight_program_perm h, map_const', sum_replicate]
  show _ + _ + _ * 0 = _
  rfl

lemma pending_pop {op : ReaderOp} {rest : List ReaderOp} {pre post : List (List ReaderOp)} :
    pending f (pre ++ (op :: rest) :: post) handed = f op +
    pending f (pre ++ rest :: post) handed := by
  simp only [pending, map_append, map_cons, sum_append, sum_cons, weight_cons, length_append,
    length_cons]
  omega

lemma pending_handed (x : Feature) : pending f readers (handed ++ [x]) = pending f readers handed +
    readers.length *
    (f (.touch x.address x.id x.counted) +
    (f (.read x.address x.id) + f (.count x.address x.id))) := by
  rw [pending, weight_program_append, weight_program [x], map_singleton, mul_add, ← add_assoc]
  rfl

end pending

/-! ## What a step does -/

namespace SharedCaches

variable {t t' : SharedCaches}
variable {n : ℕ} {op : ReaderOp} {id : ℕ} {rest : List ReaderOp} {pre post : List (List ReaderOp)}
  {l : SharedStep}

/-- The object is stored at this address. -/
def Known (s : ObjectStorage) (address id : ℕ) :
    Prop := ∃ o, s.obj id = some o ∧ o.address = address

/-- The storage is in order, and whatever is to come is about objects that are there. -/
structure Base (n : ℕ) (t : SharedCaches) : Prop where
  stored : Stored t.storage
  nReaders : t.storage.nReaders = n
  length : t.readers.length = n
  known : ∀ q ∈ t.readers, ∀ op ∈ q, Known t.storage op.address op.id
  handed : ∀ x ∈ t.handed, Known t.storage x.address x.id
  touched : ∀ x ∈ t.toGet, ∀ id, x.id = some id → ∃ o, t.storage.obj id = some o ∧ o.key = x.mmHash
  balanced : ∀ q ∈ t.readers, Balanced q

variable (t)

/-- A reader or the sender will still get the object. -/
def InUse (id : ℕ) : Prop :=
  0 < pending (getOf id) t.readers t.handed ∨ ∃ x ∈ t.toGet, x.id = some id

/-- An object in use is not free. -/
def Guarded : Prop :=
  ∀ id o, t.storage.obj id = some o → t.InUse id → o.count < o.flag * t.storage.nReaders

variable {t}

/-- What a step does to the table of objects and to the operations that are still to come. -/
inductive Move (t : SharedCaches) : SharedStep → SharedCaches → Prop
  | request {items : List Item} (htouch : t.toTouch = []) (hget : t.toGet = []) :
    Move t (.request items) { t with toTouch := items.map t.lookUp }
  | touchNew {x : Entry} {rest : List Entry} (htouch : t.toTouch = x :: rest)
      (hkey : t.storage.keyIndex.get? x.mmHash = none) :
    Move t .touch { t with toTouch := rest, toGet := t.toGet ++ [{ x with id := none }] }
  | touch {x : Entry} {rest : List Entry} {id : ℕ} {o : Obj} (htouch : t.toTouch = x :: rest)
      (hobj : t.storage.obj id = some o) (hkey : o.key = x.mmHash) :
    Move t .touch { t with
      storage := t.storage.incrementWriterFlag id
      toTouch := rest
      toGet := t.toGet ++ [{ x with id := some id }] }
  | getCached {x : Entry} {rest : List Entry} {id : ℕ} {o : Obj} (hget : t.toGet = x :: rest)
      (hobj : t.storage.obj id = some o) (hkey : o.key = x.mmHash) :
    Move t .get { t with
      storage := t.storage.incrementWriterFlag id
      toGet := rest
      handed := t.handed ++ [⟨o.address, id, x.id.isSome⟩] }
  | getRaw {x : Entry} {rest : List Entry} {s : ObjectStorage} (hget : t.toGet = x :: rest)
      (hkey : t.storage.keyIndex.get? x.mmHash = none) (hstored : Stored s)
        (hremoved : Removed t.storage s) :
    Move t .get { t with storage := s, toGet := rest }
  | getNew {x : Entry} {rest : List Entry} {s₁ s : ObjectStorage} {address id : ℕ} (hget : t.toGet =
    x :: rest)
      (hkey : t.storage.keyIndex.get? x.mmHash = none) (hstored : Stored s)
        (hremoved : Removed t.storage s₁)
      (hfresh : s₁.obj id = none)
        (hobj : s.obj = Function.update s₁.obj id (some ⟨x.mmHash, address, 1, 0⟩))
      (hreaders : s.nReaders = t.storage.nReaders) :
    Move t .get
      { t with storage := s, toGet := rest, handed := t.handed ++ [⟨address, id, x.id.isSome⟩] }
  | send {features : List Feature} (hperm : features.Perm t.handed) :
    Move t (.send features)
      { t with readers := t.readers.map (· ++ program features), handed := [] }
  | passed {r : ℕ} {op : ReaderOp} {rest : List ReaderOp} {pre post : List (List ReaderOp)}
    {o : Obj}
      (hreaders : t.readers = pre ++ (op :: rest) :: post) (hr : pre.length = r)
        (hobj : t.storage.obj op.id = some o)
      (hop : (∃ a id, op = .read a id) ∨ ∃ a id c, op = .touch a id c ∧
        o.count < t.storage.nReaders) :
    Move t (.reader r) { t with readers := pre ++ rest :: post }
  | counted {r : ℕ} {op : ReaderOp} {rest : List ReaderOp} {pre post : List (List ReaderOp)}
    {o : Obj} {s : ObjectStorage}
      (hreaders : t.readers = pre ++ (op :: rest) :: post) (hr : pre.length = r)
        (hobj : t.storage.obj op.id = some o)
      (hop : (∃ a id, op = .count a id) ∨ ∃ a id c, op = .touch a id c ∧
        t.storage.nReaders ≤ o.count)
      (hstored : Stored s) (hobj' : s.obj =
        Function.update t.storage.obj op.id (some { o with count := o.count + 1 }))
      (hn : s.nReaders = t.storage.nReaders) :
    Move t (.reader r) { t with storage := s, readers := pre ++ rest :: post }

lemma Base.move_reader (h : Base n t) (hrd : t.readers = pre ++ (op :: rest) :: post)
    {rb : RingBuffer} {r : ℕ}
    (hr : pre.length = r) (hrun : op.run t.storage.nReaders t.storage.ringBuffer = .ok rb) :
    Move t (.reader r)
    { t with storage := { t.storage with ringBuffer := rb }, readers := pre ++ rest :: post } := by
  have hmem : op :: rest ∈ t.readers := hrd ▸ mem_append_right _ mem_cons_self
  obtain ⟨o, ho, haddr⟩ := h.known _ hmem op mem_cons_self
  have hcnt : t.storage.ringBuffer.readerCount op.address = o.count :=
    haddr ▸ (obj_eq_some_iff.mp ho).2.2.2
  cases op with
  | touch a id c =>
    simp only [ReaderOp.run, RingBuffer.touchReader] at hrun
    split at hrun
    next hge =>
      obtain ⟨hsto, hobj⟩ := h.stored.incrementReaderFlag ho (by rw [haddr]; exact hrun)
      exact .counted hrd hr ho (.inr ⟨a, id, c, rfl, hcnt ▸ hge⟩) hsto hobj rfl
    rename_i hlt
    cases hrun
    exact .passed hrd hr ho (.inr ⟨a, id, c, rfl, hcnt ▸ lt_of_not_ge hlt⟩)
  | read a id =>
    obtain ⟨_, -, ⟨⟩⟩ := of_bind hrun
    exact .passed hrd hr ho (.inl ⟨a, id, rfl⟩)
  | count a id =>
    obtain ⟨hsto, hobj⟩ := h.stored.incrementReaderFlag ho (by rw [haddr]; exact hrun)
    exact .counted hrd hr ho (.inl ⟨a, id, rfl⟩) hsto hobj rfl

lemma Base.move (h : Base n t) (hiss : t.Issued l) (hstep : t.step l = .ok t') :
    t' = t ∨ Move t l t' := by
  cases l with
  | request items =>
    cases hstep
    exact .inr (.request hiss.1 hiss.2.1)
  | touch =>
    simp only [step] at hstep
    split at hstep
    · cases hstep
      exact .inl rfl
    rename_i x rest htch
    cases hstep
    cases hkey : t.storage.keyIndex.get? x.mmHash with
    | none =>
      rw [touch_of_none hkey]
      exact .inr (.touchNew htch hkey)
    | some p =>
      obtain ⟨o, ho, hokey, -⟩ := h.stored.get?_keyIndex.mp hkey
      rw [touch_of_some hkey]
      exact .inr (.touch htch ho hokey)
  | get =>
    simp only [step] at hstep
    split at hstep
    · cases hstep
      exact .inl rfl
    rename_i x rest hget
    obtain ⟨⟨r, s⟩, hitem, ⟨⟩⟩ := of_bind hstep
    rcases h.stored.getAndUpdateItem hiss.2 hitem with
      ⟨id, o, ho, hkey, rfl, rfl⟩ | ⟨hkey, -, ⟨rfl, hsto, hrem⟩ | ⟨⟨address, id⟩, rfl, hput⟩⟩
    · exact .inr (.getCached hget ho hkey)
    · simp only [Option.toList_none, map_nil, append_nil]
      exact .inr (.getRaw hget hkey hsto hrem)
    cases hput with
    | added hsto hrem hfresh hobj hrd =>
    exact .inr (.getNew hget hkey hsto hrem hfresh hobj hrd)
  | send features =>
    cases hstep
    exact .inr (.send hiss.2.2)
  | reader r =>
    simp only [step] at hstep
    split at hstep
    next op rest hr =>
      obtain ⟨rb, hrun, ⟨⟩⟩ := of_bind hstep
      obtain ⟨hlt, hr⟩ := List.getElem?_eq_some_iff.mp hr
      obtain ⟨pre, post, hrd, hlen, hset⟩ : ∃ pre post, t.readers = pre ++ _ :: post ∧
        pre.length = r ∧
          t.readers.set r rest = pre ++ rest :: post := exists_of_set hlt
      rw [hr] at hrd
      rw [hset]
      exact .inr (h.move_reader hrd hlen hrun)
    next =>
      cases hstep
      exact .inl rfl

/-! ## What is to come stays known -/

/-- The objects of `s` are in `s'` with the same key and address, if `p` holds of their id. -/
def Kept (p : ℕ → Prop) (s s' : ObjectStorage) : Prop :=
  ∀ id o, s.obj id = some o → p id → ∃ o', s'.obj id = some o' ∧ o'.key = o.key ∧
    o'.address = o.address

variable {s s' : ObjectStorage} {p : ℕ → Prop}

lemma Kept.update {o o' : Obj} (ho : s.obj id = some o)
    (hobj : s'.obj = update s.obj id (some o')) (hkey : o'.key = o.key)
    (haddr : o'.address = o.address) :
    Kept p s s' := by
  intro i oi hoi _
  rcases eq_or_ne i id with rfl | hi
  · cases ho.symm.trans hoi
    exact ⟨o', by rw [hobj, update_self], hkey, haddr⟩
  · exact ⟨oi, by rw [hobj, update_of_ne hi, hoi], rfl, rfl⟩

lemma Kept.known (h : Kept p s s') {address id : ℕ} (hid : p id)
    (hknown : Known s address id) : Known s' address id := by
  obtain ⟨o, ho, rfl⟩ := hknown
  obtain ⟨o', ho', -, haddr⟩ := h id o ho hid
  exact ⟨o', ho', haddr⟩

lemma Move.kept (hmove : Move t l t') (hguarded : t.Guarded) :
    Kept t.InUse t.storage t'.storage := by
  have hrefl : Kept t.InUse t.storage t.storage := fun id o ho _ => ⟨o, ho, rfl, rfl⟩
  have hrem : ∀ {s}, Removed t.storage s → Kept t.InUse t.storage s := fun hr id o ho huse =>
    ⟨o, hr.stays ho (hguarded id o ho huse), rfl, rfl⟩
  cases hmove with
  | request | touchNew | send | passed => exact hrefl
  | touch _ hobj => exact .update hobj (obj_incrementWriterFlag hobj) rfl rfl
  | getCached _ hobj => exact .update hobj (obj_incrementWriterFlag hobj) rfl rfl
  | getRaw _ _ _ hr => exact hrem hr
  | getNew _ _ _ hr hfresh hobj =>
    intro id o ho huse
    obtain ⟨o', ho', hkept⟩ := hrem hr id o ho huse
    refine ⟨o', ?_, hkept⟩
    rw [hobj, update_of_ne, ho']
    rintro rfl
    rw [hfresh] at ho'
    cases ho'
  | counted _ _ hobj _ _ hobj' => exact .update hobj hobj' rfl rfl

lemma inUse_of_mem {q : List ReaderOp} (hq : q ∈ t.readers) (hbalanced : Balanced q)
    (hop : op ∈ q) :
    t.InUse op.id := by
  refine .inl ?_
  have hpos := hbalanced.weight_pos hop
  have hle : weight (getOf op.id) q ≤ (t.readers.map (weight (getOf op.id))).sum :=
    le_sum_of_mem (mem_map_of_mem hq)
  unfold pending
  omega

lemma inUse_of_handed {x : Feature} (hn : 0 < t.readers.length) (hx : x ∈ t.handed) :
    t.InUse x.id := by
  refine .inl ?_
  have hmem : Shm.ReaderOp.count x.address x.id ∈ program t.handed :=
    mem_append_right _ (mem_flatMap.mpr ⟨x, hx, by simp⟩)
  have hpos := (Balanced.program t.handed).weight_pos hmem
  exact Nat.add_pos_right _ (mul_pos hn hpos)

variable {s : ObjectStorage}

lemma known_of_mem_program {features : List Feature}
    (h : ∀ x ∈ features, Known s x.address x.id) (hop : op ∈ program features) :
    Known s op.address op.id := by
  rcases mem_append.mp hop with hop | hop
  · obtain ⟨x, hx, rfl⟩ := mem_map.mp hop
    exact h x hx
  · obtain ⟨x, hx, hop⟩ := mem_flatMap.mp hop
    rcases mem_pair.mp hop with rfl | rfl <;> exact h x hx

variable (hrd : t.readers = pre ++ (op :: rest) :: post)
include hrd

lemma forall_readers_pop {P : List ReaderOp → Prop}
    (h : ∀ q ∈ t.readers, P q) (hpop : P (op :: rest) → P rest) :
    ∀ q ∈ pre ++ rest :: post, P q := by
  rw [hrd] at h
  simp only [forall_mem_append, forall_mem_cons] at h ⊢
  exact ⟨h.1, hpop h.2.1, h.2.2⟩

lemma length_pop : (pre ++ rest :: post).length = t.readers.length := by
  rw [hrd, length_append, length_append, length_cons, length_cons]

omit hrd

/-- Every step keeps the storage and the readers' programs in agreement. -/
lemma Base.next (h : Base n t) (hn : 0 < n) (hguarded : t.Guarded) (hmove : Move t l t') :
    Base n t' := by
  have hkept := hmove.kept hguarded
  have hknown : ∀ q ∈ t.readers, ∀ op ∈ q, Known t'.storage op.address op.id := fun q hq op hop =>
    hkept.known (inUse_of_mem hq (h.balanced q hq) hop) (h.known q hq op hop)
  have hhanded : ∀ x ∈ t.handed, Known t'.storage x.address x.id := fun x hx =>
    hkept.known (inUse_of_handed (h.length ▸ hn) hx) (h.handed x hx)
  have htouched : ∀ x ∈ t.toGet, ∀ id, x.id = some id → ∃ o, t'.storage.obj id = some o ∧
    o.key = x.mmHash := by
    intro x hx id hid
    obtain ⟨o, ho, hkey⟩ := h.touched x hx id hid
    obtain ⟨o', ho', hkey', -⟩ := hkept id o ho (.inr ⟨x, hx, hid⟩)
    exact ⟨o', ho', hkey'.trans hkey⟩
  have hrest : ∀ {x : Entry} {rest : List Entry}, t.toGet = x :: rest → ∀ y ∈ rest, y ∈ t.toGet :=
    fun hget y hy =>
    hget ▸ mem_cons_of_mem _ hy
  cases hmove with
  | request => exact { h with }
  | touchNew htch hkey =>
    refine { h with touched := ?_ }
    rw [forall_mem_append, forall_mem_singleton]
    exact ⟨htouched, nofun⟩
  | touch htch hobj hkey =>
    refine { h with
      stored := h.stored.incrementWriterFlag hobj
      known := hknown
      handed := hhanded
      touched := ?_ }
    rw [forall_mem_append, forall_mem_singleton]
    refine ⟨htouched, fun id hid => ?_⟩
    cases hid
    exact ⟨_, obj_incrementWriterFlag_self hobj, hkey⟩
  | getCached hget hobj hkey =>
    refine { h with
      stored := h.stored.incrementWriterFlag hobj
      known := hknown
      handed := ?_
      touched := fun x hx => htouched x (hrest hget x hx) }
    rw [forall_mem_append, forall_mem_singleton]
    exact ⟨hhanded, _, obj_incrementWriterFlag_self hobj, rfl⟩
  | getRaw hget hkey hsto hr =>
    exact { h with
      stored := hsto
      nReaders := hr.nReaders.trans h.nReaders
      known := hknown
      handed := hhanded
      touched := fun x hx => htouched x (hrest hget x hx) }
  | getNew hget hkey hsto hr hfresh hobj hrd =>
    refine { h with
      stored := hsto
      nReaders := hrd.trans h.nReaders
      known := hknown
      handed := ?_
      touched := fun x hx => htouched x (hrest hget x hx) }
    rw [forall_mem_append, forall_mem_singleton]
    exact ⟨hhanded, _, by rw [hobj, update_self], rfl⟩
  | @send features hperm =>
    refine { h with
      length := (length_map _).trans h.length
      known := ?_
      handed := nofun
      balanced := ?_ }
    · rw [forall_mem_map]
      intro q hq
      rw [forall_mem_append]
      exact ⟨hknown q hq,
        fun op hop => known_of_mem_program (fun x hx => h.handed x (hperm.subset hx)) hop⟩
    · rw [forall_mem_map]
      exact fun q hq => (h.balanced q hq).append (.program features)
  | passed hrd hr hobj hop =>
    exact { h with
      length := (length_pop hrd).trans h.length
      known := forall_readers_pop hrd hknown fun hall => (forall_mem_cons.mp hall).2
      balanced := forall_readers_pop hrd h.balanced fun hall => hall.2 }
  | counted hrd hr hobj hop hsto hobj' hrd' =>
    exact { h with
      stored := hsto
      nReaders := hrd'.trans h.nReaders
      length := (length_pop hrd).trans h.length
      known := forall_readers_pop hrd hknown fun hall => (forall_mem_cons.mp hall).2
      handed := hhanded
      touched := htouched
      balanced := forall_readers_pop hrd h.balanced fun hall => hall.2 }

lemma exists_pos_of_sum_pos {α : Type} {f : α → ℕ} {l : List α} (h : 0 < (l.map f).sum) :
    ∃ x ∈ l, 0 < f x := by
  obtain ⟨_, hmem, hpos⟩ := List.sum_pos_iff_exists_pos_nat.mp h
  obtain ⟨x, hx, rfl⟩ := mem_map.mp hmem
  exact ⟨x, hx, hpos⟩

lemma Base.exists_obj (h : Base n t) (huse : t.InUse id) : ∃ o, t.storage.obj id = some o := by
  have hop : ∀ op, 0 < getOf id op → Known t.storage op.address op.id →
    ∃ o, t.storage.obj id = some o := by
    rintro op hpos ⟨o, ho, -⟩
    have hid : op.id = id := not_not.mp fun hne => hpos.ne' (getOf_of_ne hne)
    exact ⟨o, hid ▸ ho⟩
  rcases huse with hpos | ⟨x, hx, hid⟩
  · rcases Nat.add_pos_iff_pos_or_pos.mp hpos with hpos | hpos
    · obtain ⟨q, hq, hpos⟩ := exists_pos_of_sum_pos hpos
      obtain ⟨op, hmem, hpos⟩ := exists_pos_of_sum_pos hpos
      exact hop op hpos (h.known q hq op hmem)
    · obtain ⟨op, hmem, hpos⟩ := exists_pos_of_sum_pos (Nat.pos_of_mul_pos_left hpos)
      exact hop op hpos (known_of_mem_program h.handed hmem)
  · obtain ⟨o, ho, -⟩ := h.touched x hx id hid
    exact ⟨o, ho⟩

lemma Base.eq_of_key (h : Base n t) {x : Entry} (hx : x ∈ t.toGet) {j : ℕ} (hid : x.id = some j)
    {o : Obj} (ho : t.storage.obj id = some o) (hkey : o.key = x.mmHash) : j = id := by
  obtain ⟨o', ho', hkey'⟩ := h.touched x hx j hid
  have hpair := h.stored.get?_keyIndex.mpr ⟨o, ho, hkey, rfl⟩
  have hpair' := h.stored.get?_keyIndex.mpr ⟨o', ho', hkey', rfl⟩
  rw [hpair, Option.some.injEq, Prod.mk.injEq] at hpair'
  exact hpair'.2.symm

lemma Base.id_eq_none (h : Base n t) {x : Entry} (hx : x ∈ t.toGet)
    (hkey : t.storage.keyIndex.get? x.mmHash = none) : x.id = none := by
  refine Option.eq_none_iff_forall_ne_some.mpr fun id hid => ?_
  obtain ⟨o, ho, hkey'⟩ := h.touched x hx id hid
  exact h.stored.get?_keyIndex_eq_none.mp hkey id o ho hkey'

lemma Base.pending_touch_le (h : Base n t) (id : ℕ) :
    pending (touchOf id) t.readers t.handed ≤ pending (getOf id) t.readers t.handed := by
  refine Nat.add_le_add ?_ (Nat.mul_le_mul_left _ ((Balanced.program t.handed).le id))
  exact sum_le_sum fun q hq => (h.balanced q hq).le id

lemma Base.not_inUse (h : Base n t) (hguarded : t.Guarded)
    (hrem : Removed t.storage s) (hfresh : s.obj id = none) : ¬ t.InUse id := by
  intro huse
  obtain ⟨o, ho⟩ := h.exists_obj huse
  have hstays := hrem.stays ho (hguarded id o ho huse)
  rw [hfresh] at hstays
  cases hstays

lemma Base.init (n maxObjectSize : ℕ) {dataBufferSize : ℕ} (hsize : 0 < dataBufferSize)
    (buf : Memory) :
    Base n (SharedCaches.init n maxObjectSize dataBufferSize buf) where
  stored := {
    live := ⟨[], .init hsize buf, nofun⟩
    indexed := fun _ => rfl
    flagged := fun _ => rfl
    keyed := fun _ _ => iff_of_false nofun nofun }
  nReaders := rfl
  length := length_replicate
  known := by
    intro q hq
    rw [eq_of_mem_replicate hq]
    exact nofun
  handed := nofun
  touched := nofun
  balanced := by
    intro q hq
    rw [eq_of_mem_replicate hq]
    trivial

end SharedCaches

end Vllm.Shm
