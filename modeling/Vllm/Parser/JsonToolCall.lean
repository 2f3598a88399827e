import Vllm.Lib.Text

/-!
# Text before tool calls

The text mode of `JsonToolCallParser` in `rust/src/tool-parser/src/json/mod.rs`, for any parsers of
header and arguments, on lists of characters.
-/

namespace Vllm

open List Text

/-- The whitespace that may stand after the start marker. -/
inductive JsonToolCallWhitespace where
  | optional
  | exact (whitespace : List Char)

/-- The part of `JsonToolCallConfig` that the search for a tool call reads. -/
structure JsonToolCallConfig where
  startMarker : List Char
  markerWhitespace : JsonToolCallWhitespace

def isSpace (c : Char) : Bool := c = ' ' || c = '\t' || c = '\r' || c = '\n'

/-- What the parsers use of the crate `winnow` on partial input: `literal` and `multispace0` return
the rest of the input, and `alt` takes its second parser where the first one backtracks. -/
structure Winnow where
  ErrMode : Type
  /-- The pattern `ErrMode::Incomplete(_)`. -/
  isIncomplete : ErrMode → Bool
  /-- The pattern `ErrMode::Backtrack(_)`. -/
  isBacktrack : ErrMode → Bool
  /-- `ErrMode::Incomplete(Needed::Unknown)`. -/
  incomplete : ErrMode
  literal : List Char → List Char → Except ErrMode (List Char)
  multispace0 : List Char → Except ErrMode (List Char)
  alt {α : Type} : (List Char → Except ErrMode α) → (List Char → Except ErrMode α) →
    List Char → Except ErrMode α
  incomplete_spec : isIncomplete incomplete
  not_both : ∀ e, isIncomplete e → isBacktrack e = false
  literal_append : ∀ token rest, literal token (token ++ rest) = .ok rest
  literal_partial : ∀ token input, input <+: token → input ≠ token →
    ∃ e, literal token input = .error e ∧ isIncomplete e
  literal_other : ∀ token input, ¬ token <+: input → ¬ input <+: token →
    ∃ e, literal token input = .error e ∧ isBacktrack e
  multispace0_spaces : ∀ input : List Char, input.all isSpace →
    ∃ e, multispace0 input = .error e ∧ isIncomplete e
  multispace0_other : ∀ input : List Char, input.all isSpace = false →
    multispace0 input = .ok (input.dropWhile isSpace)
  alt_first : ∀ {α} (p q : List Char → Except ErrMode α) input,
    (∀ e, p input = .error e → isBacktrack e = false) → alt p q input = p input
  alt_second : ∀ {α} (p q : List Char → Except ErrMode α) input e, p input = .error e →
    isBacktrack e → (∀ e, q input = .error e → isBacktrack e = false) → alt p q input = q input

namespace JsonToolCall

variable (w : Winnow) (config : JsonToolCallConfig) {μ : Type}

def markerWhitespace (input : List Char) : Except w.ErrMode (List Char) :=
  match config.markerWhitespace with
  | .optional => w.multispace0 input
  | .exact whitespace => w.literal whitespace input

def toolCallStartEvent (input : List Char) : Except w.ErrMode (List Char) := do
  let rest ← w.literal config.startMarker input
  markerWhitespace w config rest

/-- `safe_text_len`: the rest of the input behind the text. -/
def safeTextLen (text : List Char) : Except w.ErrMode (List Char) :=
  if text = [] then .error w.incomplete
  else match find? config.startMarker text with
    | some startIdx => .ok (text.drop startIdx)
    | none =>
      let emitLen := text.length - heldBack [config.startMarker] text
      if emitLen = 0 then .error w.incomplete else .ok (text.drop emitLen)

/-- The events of text mode: text stays in it, and a start marker leads to the mode `header`. -/
def parseTextEvent (header : μ) : List Char → Except w.ErrMode (Option μ × List Char) :=
  w.alt (fun input => (toolCallStartEvent w config input).map (some header, ·))
    (fun input => (safeTextLen w config input).map (none, ·))

/-- `mode` is `none` in text mode. `entered` is history: the buffer when the mode was entered or the
call began. -/
structure State (μ : Type) where
  mode : Option μ
  buffer : List Char
  entered : List Char := []

variable (header : μ) (inCall : μ → List Char → Except w.ErrMode (Option μ × List Char))

/-- `parse_buffered_event` with `apply_event`: the state after the next event, if there is one. -/
def nextEvent (s : State μ) : Except Unit (Option (State μ)) :=
  match (match s.mode with
    | none => parseTextEvent w config header s.buffer
    | some mode => inCall mode s.buffer) with
  | .ok (mode, rest) =>
    let buffer := s.buffer.drop (s.buffer.length - rest.length)
    .ok (if s.buffer.length ≤ rest.length then none
      else some ⟨mode, buffer, if s.mode.isNone ∧ mode.isNone then s.entered else buffer⟩)
  | .error e => if w.isIncomplete e then .ok none else .error ()

/-- The `while` loop; every event consumes input. -/
def eventLoop : ℕ → State μ → Except Unit (State μ)
  | 0, s => .ok s
  | n + 1, s => do
    match ← nextEvent w config header inCall s with
    | none => .ok s
    | some s => eventLoop n s

/-- `parse_into`: the events of the buffer with the new chunk, until more input is needed. -/
def parseInto (s : State μ) (chunk : List Char) : Except Unit (State μ) :=
  eventLoop w config header inCall (s.buffer.length + chunk.length + 1)
    ⟨s.mode, s.buffer ++ chunk, s.buffer ++ chunk⟩

/-- The whitespace that may follow the start marker. -/
def Required (w : List Char) : Prop :=
  match config.markerWhitespace with
  | .optional => w.all isSpace
  | .exact whitespace => w = whitespace

/-- The buffer can be extended to the start marker and its whitespace. -/
def Pending (buffer : List Char) :
    Prop := ∃ w, Required config w ∧ buffer <+: config.startMarker ++ w

/-- What follows the first start marker begins the whitespace or begins with it. -/
def Followed (text : List Char) : Prop :=
  ∀ i, find? config.startMarker text = some i → ∃ w, Required config w ∧
    (text.drop (i + config.startMarker.length) <+: w ∨
      w <+: text.drop (i + config.startMarker.length) ∧ config.startMarker ++ w ≠ [])

variable {w config header inCall} {text rest : List Char} {s s' : State μ}

lemma literal_cases (w : Winnow) (token input : List Char) :
    (∃ rest, input = token ++ rest ∧ w.literal token input = .ok rest) ∨
    (input <+: token ∧ ∃ e, w.literal token input = .error e ∧ w.isIncomplete e) ∨
    (¬ token <+: input ∧ ¬ input <+: token ∧
      ∃ e, w.literal token input = .error e ∧ w.isBacktrack e) := by
  by_cases hok : token <+: input
  · obtain ⟨rest, rfl⟩ := hok
    exact .inl ⟨rest, rfl, w.literal_append token rest⟩
  by_cases hinc : input <+: token
  · refine .inr (.inl ⟨hinc, w.literal_partial token input hinc ?_⟩)
    rintro rfl
    exact hok prefix_rfl
  · exact .inr (.inr ⟨hok, hinc, w.literal_other token input hok hinc⟩)

lemma markerWhitespace_cases (w : Winnow) (config : JsonToolCallConfig) (input : List Char) :
    (∃ v rest, Required config v ∧ input = v ++ rest ∧ markerWhitespace w config input = .ok rest ∧
      ∀ v', Required config v' → v' <+: input → v'.length ≤ v.length) ∨
    (∃ v, Required config v ∧ input <+: v ∧
      ∃ e, markerWhitespace w config input = .error e ∧ w.isIncomplete e) ∨
    ((∀ v, Required config v → ¬ v <+: input ∧ ¬ input <+: v) ∧
      ∃ e, markerWhitespace w config input = .error e ∧ w.isBacktrack e) := by
  unfold markerWhitespace Required
  cases config.markerWhitespace with
  | optional =>
    dsimp only
    cases hall : input.all isSpace with
    | true => exact .inr (.inl ⟨input, hall, prefix_rfl, w.multispace0_spaces input hall⟩)
    | false =>
      refine .inl ⟨input.takeWhile isSpace, _, all_takeWhile, takeWhile_append_dropWhile.symm,
        w.multispace0_other input hall, ?_⟩
      rintro v' hv' ⟨rest, rfl⟩
      rw [takeWhile_append_of_pos (all_eq_true.mp hv'), length_append]
      exact Nat.le_add_right _ _
  | exact whitespace =>
    obtain ⟨rest, rfl, h⟩ | ⟨hpre, h⟩ | ⟨hno, hno', h⟩ := literal_cases w whitespace input
    · refine .inl ⟨whitespace, rest, rfl, rfl, h, ?_⟩
      rintro _ rfl -
      exact le_rfl
    · exact .inr (.inl ⟨whitespace, rfl, hpre, h⟩)
    refine .inr (.inr ⟨?_, h⟩)
    rintro _ rfl
    exact ⟨hno, hno'⟩

lemma exists_required (config : JsonToolCallConfig) : ∃ w, Required config w := by
  unfold Required
  cases config.markerWhitespace with
  | optional => exact ⟨[], rfl⟩
  | exact whitespace => exact ⟨whitespace, rfl⟩

lemma followed_of_find?_none (h : find? config.startMarker text = none) : Followed config text := by
  intro i hi
  cases h.symm.trans hi

lemma find?_append_self : find? config.startMarker (config.startMarker ++ rest) = some 0 :=
  find?_eq_some_iff.mpr ⟨Nat.zero_le _, prefix_append _ _,
    fun _ hj => absurd hj (Nat.not_lt_zero _)⟩

lemma followed_append : Followed config (config.startMarker ++ rest) ↔ ∃ w, Required config w ∧
    (rest <+: w ∨ w <+: rest ∧ config.startMarker ++ w ≠ []) := by
  unfold Followed
  rw [find?_append_self]
  simp only [Option.some.injEq, forall_eq', Nat.zero_add, drop_left]

lemma pending_append :
    Pending config (config.startMarker ++ rest) ↔ ∃ w, Required config w ∧ rest <+: w := by
  simp only [Pending, prefix_append_right_inj]

/-- The event of text mode, and when the text that stays is right. -/
lemma parseTextEvent_cases (w : Winnow) (config : JsonToolCallConfig) (header : μ)
    (text : List Char) :
    (∃ rest, parseTextEvent w config header text = .ok (some header, rest) ∧
      (text.length ≤ rest.length → (Pending config text ↔ Followed config text))) ∨
    (∃ n, parseTextEvent w config header text = .ok (none, text.drop n) ∧
      (0 < n → n ≤ text.length ∧ (Followed config (text.drop n) ↔ Followed config text)) ∧
      (n = 0 → (Pending config text ↔ Followed config text))) ∨
    ((∃ e, parseTextEvent w config header text = .error e ∧ w.isIncomplete e) ∧
      (Pending config text ↔ Followed config text)) := by
  have hok : ∀ {rest}, toolCallStartEvent w config text = .ok rest →
      parseTextEvent w config header text = .ok (some header, rest) := by
    intro rest h
    unfold parseTextEvent
    rw [w.alt_first _ _ _ (by rw [h]; rintro _ ⟨⟩), h]
    rfl
  have hinc : (∃ e, toolCallStartEvent w config text = .error e ∧ w.isIncomplete e) →
      ∃ e, parseTextEvent w config header text = .error e ∧ w.isIncomplete e := by
    rintro ⟨e, h, he⟩
    refine ⟨e, ?_, he⟩
    unfold parseTextEvent
    rw [w.alt_first _ _ _ (by rw [h]; rintro _ ⟨⟩; exact w.not_both e he), h]
    rfl
  have hback : ∀ {n}, (∃ e, toolCallStartEvent w config text = .error e ∧ w.isBacktrack e) →
      safeTextLen w config text = .ok (text.drop n) →
      parseTextEvent w config header text = .ok (none, text.drop n) := by
    rintro n ⟨e, h, he⟩ hsafe
    unfold parseTextEvent
    rw [w.alt_second _ _ _ e (by rw [h]; rfl) he (by rw [hsafe]; rintro _ ⟨⟩), hsafe]
    rfl
  obtain ⟨rest, rfl, h⟩ | ⟨hpre, e, h, he⟩ | ⟨hno, hno', e, h, he⟩ :=
    literal_cases w config.startMarker text
  · have hstart : toolCallStartEvent w config (config.startMarker ++ rest) =
        markerWhitespace w config rest := by
      unfold toolCallStartEvent
      rw [h]
      rfl
    rw [pending_append, followed_append]
    obtain ⟨v, rest', hv, rfl, hws, hmax⟩ | ⟨v, hv, hpre, hws⟩ | ⟨hnone, hws⟩ :=
      markerWhitespace_cases w config rest
    · refine .inl ⟨rest', hok (hstart.trans hws), fun hle =>
        exists_congr fun v' => and_congr_right fun hv' => ⟨.inl, ?_⟩⟩
      rintro (hpre | ⟨hpre, hne⟩)
      · exact hpre
      -- Nothing was consumed, so marker and whitespace are empty.
      have hlen := hmax v' hv' hpre
      simp only [length_append] at hle
      refine absurd ?_ hne
      rw [append_eq_nil_iff, ← length_eq_zero_iff, ← length_eq_zero_iff]
      omega
    · rw [← hstart] at hws
      exact .inr (.inr ⟨hinc hws, iff_of_true ⟨v, hv, hpre⟩ ⟨v, hv, .inl hpre⟩⟩)
    have hneither : ¬ (∃ v, Required config v ∧ rest <+: v) ∧ ¬ ∃ v, Required config v ∧
        (rest <+: v ∨ v <+: rest ∧ config.startMarker ++ v ≠ []) := by
      constructor
      · rintro ⟨v, hv, hpre⟩
        exact (hnone v hv).2 hpre
      rintro ⟨v, hv, hpre | ⟨hpre, -⟩⟩
      · exact (hnone v hv).2 hpre
      · exact (hnone v hv).1 hpre
    have hne : config.startMarker ++ rest ≠ [] := by
      intro hnil
      obtain ⟨v, hv⟩ := exists_required config
      rw [(append_eq_nil_iff.mp hnil).2] at hnone
      exact (hnone v hv).2 nil_prefix
    have hsafe : safeTextLen w config (config.startMarker ++ rest) =
        .ok ((config.startMarker ++ rest).drop 0) := by
      unfold safeTextLen
      rw [if_neg hne, find?_append_self]
    rw [← hstart] at hws
    exact .inr (.inl ⟨0, hback hws hsafe, fun h => absurd h (lt_irrefl 0),
      fun _ => iff_of_false hneither.1 hneither.2⟩)
  · have hstart : toolCallStartEvent w config text = .error e := by
      unfold toolCallStartEvent
      rw [h]
      rfl
    obtain ⟨v, hv⟩ := exists_required config
    refine .inr (.inr ⟨hinc ⟨e, hstart, he⟩, iff_of_true ⟨v, hv, hpre.trans (prefix_append _ v)⟩
      fun i _ => ⟨v, hv, .inl ?_⟩⟩)
    rw [drop_eq_nil_of_le (hpre.length_le.trans (Nat.le_add_left _ _))]
    exact nil_prefix
  have hne : text ≠ [] := by
    rintro rfl
    exact hno' nil_prefix
  have hstart : toolCallStartEvent w config text = .error e := by
    unfold toolCallStartEvent
    rw [h]
    rfl
  cases hfind : find? config.startMarker text with
  | some i =>
    obtain ⟨hi, ⟨rest, hrest⟩, -⟩ := find?_eq_some_iff.mp hfind
    refine .inr (.inl ⟨i, hback ⟨e, hstart, he⟩ ?_, fun _ => ⟨hi, ?_⟩, ?_⟩)
    · unfold safeTextLen
      rw [if_neg hne, hfind]
    · rw [← hrest, followed_append, Followed, hfind]
      simp only [Option.some.injEq, forall_eq', ← drop_drop, ← hrest, drop_left]
    · rintro rfl
      exact absurd ⟨rest, hrest⟩ hno
  | none =>
    have hle : heldBack [config.startMarker] text ≤ text.length := Nat.findGreatest_le _
    have hlt : heldBack [config.startMarker] text ≠ text.length := by
      intro heq
      obtain ⟨t, ht, -, hpre⟩ := Nat.findGreatest_of_ne_zero heq (length_pos_of_ne_nil hne).ne'
      rw [mem_singleton.mp ht, Nat.sub_self] at hpre
      exact hno' hpre
    refine .inr (.inl ⟨text.length - heldBack [config.startMarker] text, hback ⟨e, hstart, he⟩ ?_,
      fun _ => ⟨Nat.sub_le _ _, iff_of_true ?_ (followed_of_find?_none hfind)⟩, fun h => ?_⟩)
    · unfold safeTextLen
      rw [if_neg hne, hfind]
      dsimp only
      rw [if_neg (by omega)]
    · refine followed_of_find?_none (find?_eq_none_iff.mpr fun i => ?_)
      rw [drop_drop]
      exact find?_eq_none_iff.mp hfind _
    · omega

/-- Text that was emitted had no marker. -/
def Traced (config : JsonToolCallConfig) (s : State μ) : Prop :=
  s.mode = none → (Followed config s.entered ↔ Followed config s.buffer)

lemma nextEvent_some (hs : Traced config s)
    (h : nextEvent w config header inCall s = .ok (some s')) :
    Traced config s' ∧ s'.buffer.length < s.buffer.length := by
  unfold nextEvent at h
  split at h
  · rename_i mode rest hres
    have h := Except.ok.inj h
    rcases le_or_gt s.buffer.length rest.length with hle | hgt
    · rw [if_pos hle] at h
      cases h
    rw [if_neg hgt.not_ge] at h
    obtain rfl := Option.some.inj h
    refine ⟨fun hnone => ?_, ?_⟩
    · dsimp only at hnone ⊢
      subst hnone
      cases hmode : s.mode with
      | some _ => simp
      | none =>
        rw [hmode] at hres
        obtain ⟨_, hev, -⟩ | ⟨n, hev, hkeep, -⟩ | ⟨⟨_, hev, -⟩, -⟩ :=
          parseTextEvent_cases w config header s.buffer
        · cases hev.symm.trans hres
        · cases hev.symm.trans hres
          rw [length_drop] at hgt
          obtain ⟨hn, hkeep⟩ := hkeep (by omega)
          rw [length_drop, Nat.sub_sub_self hn, hkeep]
          exact hs hmode
        · cases hev.symm.trans hres
    dsimp only
    rw [length_drop]
    omega
  · split at h <;> cases h

lemma nextEvent_none (hmode : s.mode = none) (h : nextEvent w config header inCall s = .ok none) :
    Pending config s.buffer ↔ Followed config s.buffer := by
  unfold nextEvent at h
  rw [hmode] at h
  obtain ⟨rest, hev, hiff⟩ | ⟨n, hev, hkeep, hiff⟩ | ⟨-, hiff⟩ :=
    parseTextEvent_cases w config header s.buffer
  · rw [hev] at h
    have h := Except.ok.inj h
    split_ifs at h with hle
    exact hiff hle
  · rw [hev] at h
    have h := Except.ok.inj h
    split_ifs at h with hle
    rw [length_drop] at hle
    refine hiff (Nat.eq_zero_of_not_pos fun hn => ?_)
    have := (hkeep hn).1
    omega
  · exact hiff

lemma eventLoop_spec {n : ℕ} (hn : s.buffer.length < n) (hs : Traced config s)
    (h : eventLoop w config header inCall n s = .ok s') :
    Traced config s' ∧ nextEvent w config header inCall s' = .ok none := by
  induction n generalizing s with
  | zero => exact absurd hn (Nat.not_lt_zero _)
  | succ n ih =>
    unfold eventLoop at h
    cases hev : nextEvent w config header inCall s with
    | error e =>
      rw [hev] at h
      cases h
    | ok r =>
      rw [hev] at h
      cases r with
      | none =>
        cases h
        exact ⟨hs, hev⟩
      | some s1 =>
        obtain ⟨hs1, hlt⟩ := nextEvent_some hs hev
        exact ih (by omega) hs1 h

/-- What text mode retains can grow into a start marker with its whitespace just if the first start
marker of the text read in the call is followed by such whitespace. -/
theorem pending_iff_followed {chunk : List Char}
    (h : parseInto w config header inCall s chunk = .ok s') (hmode : s'.mode = none) :
    Pending config s'.buffer ↔ Followed config s'.entered := by
  obtain ⟨hs, hstop⟩ := eventLoop_spec (by simp) (fun _ => Iff.rfl) h
  rw [hs hmode]
  exact nextEvent_none hmode hstop

/-- The markers of `Qwen3XmlToolParser`. -/
def qwenConfig : JsonToolCallConfig := ⟨"<tool_call>".toList, .exact ['\n']⟩

/-- A `winnow` whose errors are `Incomplete` (`true`) and `Backtrack` (`false`). -/
def plainWinnow : Winnow where
  ErrMode := Bool
  isIncomplete e := e
  isBacktrack e := !e
  incomplete := true
  literal token input :=
    if token <+: input then .ok (input.drop token.length) else .error (input <+: token)
  multispace0 input := if input.all isSpace then .error true else .ok (input.dropWhile isSpace)
  alt p q input := match p input with
    | .error false => q input
    | r => r
  incomplete_spec := rfl
  not_both := by simp
  literal_append := by simp
  literal_partial token input h hne := by
    have hno : ¬ token <+: input := fun h' => hne (h.eq_of_length_le h'.length_le)
    exact ⟨_, if_neg hno, decide_eq_true h⟩
  literal_other token input hno hno' := ⟨_, if_neg hno, by simp [hno']⟩
  multispace0_spaces input h := ⟨true, if_pos h, rfl⟩
  multispace0_other input h := if_neg (by simp [h])
  alt_first p q input h := by
    cases hp : p input with
    | ok a => rfl
    | error e =>
      cases e with
      | true => rfl
      | false => exact absurd (h false hp) (by simp)
  alt_second p q input e h he _ := by
    cases e with
    | true => cases he
    | false => rw [h]

/-- A part of the start marker stays in the buffer. -/
theorem pending_part_of_marker :
    ∃ s, parseInto plainWinnow qwenConfig () (fun _ _ => .error false) ⟨none, [], []⟩
        "a<tool".toList = .ok s ∧ s.buffer = "<tool".toList ∧
      (Pending qwenConfig s.buffer ↔ Followed qwenConfig s.entered) := by
  have h : parseInto plainWinnow qwenConfig () (fun _ _ => .error false) ⟨none, [], []⟩
    "a<tool".toList = .ok ⟨none, "<tool".toList, "a<tool".toList⟩ := rfl
  exact ⟨_, h, rfl, pending_iff_followed h rfl⟩

/-- `<tool_call>` without a newline stays in the buffer with the text behind it. -/
theorem not_pending_without_newline :
    ∃ s, parseInto plainWinnow qwenConfig () (fun _ _ => .error false) ⟨none, [], []⟩
        "<tool_call> a".toList = .ok s ∧ s.mode = none ∧ ¬ Pending qwenConfig s.buffer := by
  refine ⟨_, rfl, rfl, ?_⟩
  rintro ⟨w, hw, hpre⟩
  obtain rfl : w = ['\n'] := hw
  exact absurd hpre (by decide)

end JsonToolCall

end Vllm
