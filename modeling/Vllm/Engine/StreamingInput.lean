import Vllm.Basic
import Vllm.Lib.Run

/-!
# Streaming input

Sessions in `vllm/v1/engine/output_processor.py`, without statistics and what is sent to the user.
Text is a list of characters.
-/

namespace Vllm.Engine

open List Machine

/-- The prompt and the prompt token ids of an input chunk. -/
structure Chunk where
  prompt : Option (List Char)
  promptTokenIds : Option (List ℕ)

/-- `StreamingUpdate`: a chunk that waits for the one before it. -/
structure StreamingUpdate extends Chunk where
  final : Bool := false

/-- The part of the output processor's `RequestState` that streaming input reads. -/
structure RequestState extends Chunk where
  streamingInput : Bool
  inputChunkQueue : Option (List StreamingUpdate)

/-- The text and the token ids that `chunks` bring. -/
def contents (chunks : List Chunk) : List Char × List ℕ :=
  (chunks.flatMap (·.prompt.getD []), chunks.flatMap (·.promptTokenIds.getD []))

def applyStreamingUpdate (s : RequestState) (u : StreamingUpdate) : RequestState :=
  { s with
    streamingInput := !u.final
    prompt :=
      if u.prompt.getD [] = [] then s.prompt else some (s.prompt.getD [] ++ u.prompt.getD [])
    promptTokenIds := some (s.promptTokenIds.getD [] ++ u.promptTokenIds.getD []) }

/-- `queue[-1].final = True` -/
def markLast : List StreamingUpdate → List StreamingUpdate
  | [] => []
  | [u] => [{ u with final := true }]
  | u :: q => u :: markLast q

/-- `none` once `_finish_request` has removed the state. -/
def updateStreamingRequestState (s : RequestState) (c : Chunk) (resumable : Bool) :
    Option RequestState :=
  match resumable, s.inputChunkQueue with
  | false, none => none
  | false, some [] => some { s with streamingInput := false }
  | false, some q => some { s with inputChunkQueue := some (markLast q) }
  | true, none => some { applyStreamingUpdate s { toChunk := c } with inputChunkQueue := some [] }
  | true, some q => some { s with inputChunkQueue := some (q ++ [{ toChunk := c }]) }

def addRequest (s : Option RequestState) (c : Chunk) (resumable : Bool) : Option RequestState :=
  match s with
  | some s => updateStreamingRequestState s c resumable
  | none => some ⟨c, resumable, if resumable then some [] else none⟩

/-- An output, `finished` by the engine or with a stop string, and whether the engine is told to
abort. -/
def processOutput (s : RequestState) (finished stop : Bool) : Option RequestState × Bool :=
  if finished || stop then
    if s.streamingInput then
      match s.inputChunkQueue with
      | some (u :: q) => (some (applyStreamingUpdate { s with inputChunkQueue := some q } u), false)
      | _ => (some { s with inputChunkQueue := none }, false)
    else (none, !finished)
  else (some s, false)

/-- An input chunk that arrives, or an output of the engine for the current one. -/
inductive Event
  | request (c : Chunk) (resumable : Bool)
  | output (finished stop : Bool)

/-- The chunks that have arrived and how many sub-requests the engine has `ended`. -/
structure Session where
  state : Option RequestState := none
  chunks : List Chunk := []
  final : Bool := false
  ended : ℕ := 0
  removals : ℕ := 0

namespace Session

def put (w : Session) (s : Option RequestState) : Session :=
  { w with
    state := s
    removals := if w.state.isSome && s.isNone then w.removals + 1 else w.removals }

/-- An event at the output processor, with the chunks that have arrived. -/
def step (w : Session) : Event → Py Session
  | .request c resumable =>
    .ok { w.put (addRequest w.state c resumable) with
      chunks := if resumable then w.chunks ++ [c] else w.chunks, final := !resumable }
  | .output finished stop =>
    match w.state with
    | none => .ok w
    | some s =>
      .ok { w.put (processOutput s finished stop).1 with
        ended := if finished || (processOutput s finished stop).2 then w.ended + 1 else w.ended }

/-- Resumable requests come before the final one. An output is of the first sub-request that has not
ended, or late. -/
def Legal (w : Session) : Event → Prop
  | .request _ resumable => w.final = false ∧ (resumable = true ∨ w.chunks ≠ [])
  | .output _ _ => w.state = none ∨ w.ended < w.chunks.length

/-- A stop string is found only in what the engine has finished or in the last sub-request. -/
def Known (w : Session) : Event → Prop
  | .output finished stop => ∀ s ∈ w.state, s.streamingInput = true → stop = true → finished = true
  | _ => True

/-- While the engine has a sub-request to end, the prompt consists of the chunks up to it. -/
structure Follows (w : Session) : Prop where
  prompt : w.ended < w.chunks.length →
    ∃ s ∈ w.state, contents [s.toChunk] = contents (w.chunks.take (w.ended + 1))
  removals : w.removals = if w.final = true ∧ w.ended = w.chunks.length then 1 else 0
  state : w.state = none ↔ w.chunks = [] ∨ w.removals = 1

/-- The queue for `chunks` to come, of which the last may be `final`. -/
def updates (final : Bool) : List Chunk → List StreamingUpdate
  | [] => []
  | c :: chunks => ⟨c, final && chunks.isEmpty⟩ :: updates final chunks

/-- The queue of the front end holds the chunks behind the engine's sub-request. -/
inductive Mirrors : Session → Prop
  | fresh : Mirrors {}
  | running (final : Bool) (cs rest : List Chunk) {c₀ c : Chunk} (hc : contents [c₀] =
    contents (cs ++ [c])) : Mirrors
      ⟨some ⟨c₀, !(final && rest.isEmpty), some (updates final rest)⟩, cs ++ c :: rest, final,
        cs.length, 0⟩
  | waiting {c₀ : Chunk} {cs : List Chunk} (hc : contents [c₀] = contents cs) (hne : cs ≠ []) :
      Mirrors ⟨some ⟨c₀, true, none⟩, cs, false, cs.length, 0⟩
  | removed {cs : List Chunk} (hne : cs ≠ []) : Mirrors ⟨none, cs, true, cs.length, 1⟩

variable {c : Chunk} {cs : List Chunk} {w w' : Session} {finished stop : Bool}

lemma updates_concat : updates false (cs ++ [c]) = updates false cs ++ [{ toChunk := c }] := by
  induction cs with
  | nil => rfl
  | cons c' cs ih => simp [updates, ih]

lemma markLast_updates : markLast (updates false cs) = updates true cs := by
  induction cs with
  | nil => rfl
  | cons c cs ih =>
    cases cs with
    | nil => rfl
    | cons c' cs => exact congrArg _ ih

lemma contents_apply {s : RequestState} {u : StreamingUpdate}
    (h : contents [s.toChunk] = contents cs) :
    contents [(applyStreamingUpdate s u).toChunk] = contents (cs ++ [u.toChunk]) := by
  simp only [contents, flatMap_append, flatMap_singleton, Prod.mk.injEq] at h ⊢
  rw [← h.1, ← h.2]
  unfold applyStreamingUpdate
  split_ifs with hu
  · simp [hu]
  · simp

lemma Mirrors.follows (h : w.Mirrors) : w.Follows := by
  cases h with
  | fresh => exact ⟨by simp, rfl, by simp⟩
  | running final cs rest hc =>
    refine ⟨fun _ => ⟨_, rfl, ?_⟩, by simp, by simp⟩
    rw [take_length_add_append]
    exact hc
  | waiting hc hne => exact ⟨by simp, by simp, by simp [hne]⟩
  | removed hne => exact ⟨by simp, by simp, by simp⟩

lemma Mirrors.request {resumable : Bool} (h : w.Mirrors) (hl : w.Legal (.request c resumable))
    (hs : w.step (.request c resumable) = .ok w') : w'.Mirrors := by
  cases hs
  cases h with
  | fresh =>
    obtain ⟨-, rfl | h⟩ := hl
    · exact .running false [] [] rfl
    · cases h rfl
  | running final cs rest hc =>
    cases hl.1
    cases resumable with
    | true =>
      have := running false cs (rest ++ [c]) hc
      rw [updates_concat, ← cons_append, ← append_assoc] at this
      exact this
    | false =>
      have := running true cs rest hc
      rw [← markLast_updates] at this
      cases rest with
      | nil => exact this
      | cons c' rest => exact this
  | waiting hc hne =>
    cases resumable with
    | true => exact .running false _ [] (contents_apply (s := ⟨_, true, none⟩) (u := ⟨c, false⟩) hc)
    | false => exact .removed hne
  | removed => cases hl.1

lemma Mirrors.output (h : w.Mirrors) (hl : w.Legal (.output finished stop))
    (hk : w.Known (.output finished stop))
    (hs : w.step (.output finished stop) = .ok w') : w'.Mirrors := by
  cases h with
  | fresh =>
    cases hs
    exact .fresh
  | @running final cs rest c₀ c hc =>
    cases hs
    cases hend : finished || stop with
    | false =>
      obtain ⟨rfl, rfl⟩ := Bool.or_eq_false_iff.mp hend
      exact .running final cs rest hc
    | true =>
      -- a front end that goes on does so with the engine
      have hf (hstream : (!(final && rest.isEmpty)) = true) : finished = true := by
        cases finished with
        | true => rfl
        | false => exact hk _ rfl hstream hend
      cases rest with
      | nil =>
        cases final with
        | false =>
          cases hf rfl
          have := waiting hc (by simp)
          rw [length_append] at this
          exact this
        | true =>
          have := @removed (cs ++ [c]) (by simp)
          rw [length_append] at this
          cases finished with
          | true => exact this
          | false =>
            cases (hend : stop = true)
            exact this
      | cons c' rest =>
        cases hf (by simp)
        have :=
          running final (cs ++ [c]) rest
            (contents_apply (s := ⟨c₀, true, none⟩) (u := ⟨c', final && rest.isEmpty⟩) hc)
        rw [length_append, append_assoc] at this
        cases final <;> exact this
  | waiting => simp [Legal] at hl
  | removed hne =>
    cases hs
    exact .removed hne

end Session

end Vllm.Engine
