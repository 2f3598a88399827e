import Vllm.Lib.Text

/-!
# Reasoning between delimiters

`DelimitedReasoningParser` of `rust/src/reasoning-parser/src/delimited.rs`. A string is the list of
its characters.
-/

namespace Vllm

open List Text

/-- `start_token` and `end_token`, of which none ends with a beginning of one of them. -/
structure Delimiters where
  startToken : List Char
  endToken : List Char
  start_ne : startToken ≠ []
  end_ne : endToken ≠ []
  apart : Apart [startToken, endToken]

/-- `ReasoningDelta`, with the empty text for `None`. -/
@[ext] structure ReasoningDelta where
  reasoning : List Char := []
  content : List Char := []

namespace ReasoningDelta

instance :
    Append ReasoningDelta := ⟨fun δ ε => ⟨δ.reasoning ++ ε.reasoning, δ.content ++ ε.content⟩⟩

/-- `push_reasoning` and `push_content` of an empty delta. -/
def of (inReasoning : Bool) (text : List Char) : ReasoningDelta :=
  if inReasoning then { reasoning := text } else { content := text }

lemma append_assoc (δ ε ζ : ReasoningDelta) : δ ++ ε ++ ζ = δ ++ (ε ++ ζ) :=
  ReasoningDelta.ext (List.append_assoc ..) (List.append_assoc ..)

lemma of_append (b : Bool) (u v : List Char) :
    of b (u ++ v) = of b u ++ of b v := by cases b <;> rfl

end ReasoningDelta

namespace Delimiters

variable (d : Delimiters)

def tokens : List (List Char) := [d.startToken, d.endToken]

/-- The delimiter that ends the current section. -/
def token (inReasoning : Bool) : List Char := if inReasoning then d.endToken else d.startToken

lemma apart_tokens : Apart d.tokens := d.apart

lemma token_mem (b : Bool) : d.token b ∈ d.tokens := by cases b <;> simp [token, tokens]

lemma token_pos (b : Bool) : 0 < (d.token b).length := by
  cases b
  · exact length_pos_of_ne_nil d.start_ne
  · exact length_pos_of_ne_nil d.end_ne

/-- `parse_stable_text`: the state and the delta after it. -/
def parseStableText (inReasoning : Bool) (stable : List Char) : Bool × ReasoningDelta :=
  if stable = [] then (inReasoning, {})
  else
    match find? (d.token inReasoning) stable with
    | some i =>
      let rest := parseStableText (!inReasoning) (stable.drop (i + (d.token inReasoning).length))
      (rest.1, .of inReasoning (stable.take i) ++ rest.2)
    | none => (inReasoning, .of inReasoning stable)
termination_by stable.length
decreasing_by
  have := d.token_pos inReasoning
  have := length_pos_of_ne_nil ‹stable ≠ []›
  rw [length_drop]
  omega

/-- `DelimitedReasoningParser`: which section the text is in, and what is held back. -/
structure Parser where
  currentInReasoning : Bool
  buffer : List Char := []

def push (p : Parser) (delta : List Char) : ReasoningDelta × Parser :=
  let buffer := p.buffer ++ delta
  let stableLen := buffer.length - heldBack d.tokens buffer
  let parsed := d.parseStableText p.currentInReasoning (buffer.take stableLen)
  (parsed.2, ⟨parsed.1, buffer.drop stableLen⟩)

def finish (p : Parser) : ReasoningDelta := (d.parseStableText p.currentInReasoning p.buffer).2

/-- All that `push` and `finish` return for the deltas of a stream. -/
def stream (p : Parser) : List (List Char) → ReasoningDelta
  | [] => d.finish p
  | delta :: deltas => (d.push p delta).1 ++ stream (d.push p delta).2 deltas

/-- The sections of a text: each ends at the first occurrence of its delimiter, which is removed. -/
inductive Sections : Bool → List Char → ReasoningDelta → Prop
  | last {b text} : (∀ i, ¬ d.token b <+: text.drop i) → Sections b text (.of b text)
  | next {b section_ rest δ} :
    (∀ i < section_.length, ¬ d.token b <+: (section_ ++ d.token b ++ rest).drop i) →
      Sections (!b) rest δ → Sections b (section_ ++ d.token b ++ rest) (.of b section_ ++ δ)

variable {d} {b : Bool} {u v text : List Char}

lemma parseStableText_some {i : ℕ} (h : find? (d.token b) text = some i) :
    d.parseStableText b text =
    ((d.parseStableText (!b) (text.drop (i + (d.token b).length))).1,
      .of b (text.take i) ++ (d.parseStableText (!b) (text.drop (i + (d.token b).length))).2) := by
  have hne : text ≠ [] := by
    rintro rfl
    have hpos := (d.token_pos b).trans_le (find?_eq_some_iff.mp h).2.1.length_le
    simp at hpos
  rw [parseStableText, if_neg hne, h]

lemma parseStableText_none (h : find? (d.token b) text = none) :
    d.parseStableText b text = (b, .of b text) := by
  rw [parseStableText, h]
  split
  · rename_i hnil
    rw [hnil]
    cases b <;> rfl
  · rfl

/-- A text may be parsed in two parts if no delimiter is cut. -/
lemma parseStableText_append (hcut : Uncut d.tokens u v) : d.parseStableText b (u ++ v) =
    ((d.parseStableText (d.parseStableText b u).1 v).1,
      (d.parseStableText b u).2 ++ (d.parseStableText (d.parseStableText b u).1 v).2) := by
  induction hn : u.length using Nat.strong_induction_on generalizing b u with
  | h n ih =>
    cases hu : find? (d.token b) u with
    | some i =>
      obtain ⟨hi, hocc, -⟩ := find?_eq_some_iff.mp hu
      have hlen := hocc.length_le
      have hpos := d.token_pos b
      rw [length_drop] at hlen
      have ih := @ih _ (by rw [length_drop]; omega) (!b) _ (hcut.drop (i + (d.token b).length)) rfl
      rw [parseStableText_some hu, parseStableText_some (hcut.find?_some (d.token_mem b) hu),
        take_append_of_le_length hi, drop_append_of_le_length (by omega), ih,
          ReasoningDelta.append_assoc]
    | none =>
      have hfind := hcut.find?_none (d.token_mem b) hu
      rw [parseStableText_none hu]
      cases hv : find? (d.token b) v with
      | some i =>
        rw [hv] at hfind
        rw [parseStableText_some hv, parseStableText_some hfind, take_length_add_append,
          Nat.add_assoc,
          drop_length_add_append, ReasoningDelta.of_append, ReasoningDelta.append_assoc]
      | none =>
        rw [hv] at hfind
        rw [parseStableText_none hv, parseStableText_none hfind, ReasoningDelta.of_append]

lemma stream_eq (p : Parser) (deltas : List (List Char)) :
    d.stream p deltas =
    (d.parseStableText p.currentInReasoning (p.buffer ++ deltas.flatten)).2 := by
  induction deltas generalizing p with
  | nil => simp [stream, finish]
  | cons delta deltas ih =>
    set buffer := p.buffer ++ delta with hbuf
    set n := buffer.length - heldBack d.tokens buffer with hn
    have hle : heldBack d.tokens buffer ≤ buffer.length := Nat.findGreatest_le _
    have hcut : Uncut d.tokens (buffer.take n) (buffer.drop n ++ deltas.flatten) := by
      refine uncut_of_heldBack d.apart_tokens ?_ _
      rw [take_append_drop, length_drop]
      omega
    rw [stream, ih, flatten_cons, ← List.append_assoc, ← hbuf, ← take_append_drop n buffer,
      List.append_assoc, parseStableText_append hcut]
    rfl

lemma sections_parseStableText : d.Sections b text (d.parseStableText b text).2 := by
  induction hn : text.length using Nat.strong_induction_on generalizing b text with
  | h n ih =>
    cases htext : find? (d.token b) text with
    | none =>
      rw [parseStableText_none htext]
      exact .last (find?_eq_none_iff.mp htext)
    | some i =>
      obtain ⟨hi, ⟨rest, hrest⟩, hfirst⟩ := find?_eq_some_iff.mp htext
      rw [parseStableText_some htext]
      have hsplit : text.take i ++ d.token b ++ rest = text := by
        rw [List.append_assoc, hrest, take_append_drop]
      have hdrop : text.drop (i + (d.token b).length) = rest := by
        rw [← drop_drop, ← hrest, drop_left]
      have hlen := congrArg length hsplit
      rw [length_append, length_append] at hlen
      have hpos := d.token_pos b
      rw [hdrop]
      have hnext := @Sections.next d b (text.take i) rest _ (by rwa [hsplit, length_take_of_le hi])
        (ih rest.length (by omega) rfl)
      rwa [hsplit] at hnext

/-- However a text is cut into deltas, the parser returns the sections between its delimiters. -/
theorem stream_sections (d : Delimiters) (inReasoning : Bool) (deltas : List (List Char)) :
    d.stream ⟨inReasoning, []⟩ deltas = d.stream ⟨inReasoning, []⟩ [deltas.flatten] ∧
      d.Sections inReasoning deltas.flatten (d.stream ⟨inReasoning, []⟩ deltas) := by
  rw [stream_eq, stream_eq]
  simpa using sections_parseStableText

lemma apart_think : Apart ["<think>".toList, "</think>".toList] :=
  apart_of_take (by decide)

lemma think_ne : "<think>".toList ≠ [] ∧ "</think>".toList ≠ [] := by decide

/-- The delimiters of most reasoning models. -/
def think : Delimiters :=
  ⟨"<think>".toList, "</think>".toList, think_ne.1, think_ne.2, apart_think⟩

/-- Both delimiters are cut: the deltas give the content `ac` and the reasoning `b`. -/
theorem think_stream_sections :
    think.stream ⟨false, []⟩ ["a<th".toList, "ink>b</".toList, "think>c".toList] =
        ⟨['b'], ['a', 'c']⟩ ∧
      think.Sections false "a<think>b</think>c".toList ⟨['b'], ['a', 'c']⟩ := by
  have hlast : (think.parseStableText false ['c']).2 = ⟨[], ['c']⟩ := by
    rw [parseStableText_none (by decide)]
    rfl
  have hend : (think.parseStableText true "b</think>c".toList).2 = ⟨['b'], ['c']⟩ := by
    rw [parseStableText_some (i := 1) (by decide)]
    exact congrArg (.of true ['b'] ++ ·) hlast
  have hparse : (think.parseStableText false "a<think>b</think>c".toList).2 =
      ⟨['b'], ['a', 'c']⟩ := by
    rw [parseStableText_some (i := 1) (by decide)]
    exact congrArg (.of false ['a'] ++ ·) hend
  obtain ⟨hwhole, hsections⟩ := stream_sections think false
    ["a<th".toList, "ink>b</".toList, "think>c".toList]
  have hstream := hwhole.trans ((stream_eq _ _).trans hparse)
  exact ⟨hstream, hstream ▸ hsections⟩
end Delimiters

end Vllm
