import Vllm.Request
import Vllm.Lib.Dict
import Mathlib.Data.Finset.Basic

/-!
# The encoder cache

`EncoderCacheManager` of `vllm/v1/core/encoder_cache_manager.py` and `_try_schedule_encoder_inputs`,
without encoder-decoder models.
-/

namespace Vllm

/-- A multimodal item with `mm_position.is_embed`, the positions that take an embedding; without it
all do. -/
structure EncoderInput extends MultiModalFeatureSpec where
  isEmbed : Option (List Bool) := none
  deriving DecidableEq, Repr

namespace EncoderInput

variable (f : EncoderInput)

def getNumEmbeds : ℕ :=
  match f.isEmbed with
  | none => f.mmPosition.length
  | some mask => mask.count true

def embedsBefore (mask : List Bool) (i : ℤ) : Py ℤ :=
  if i ≤ 0 then .ok 0
  else if i.toNat ≤ mask.length then .ok ((mask.take i.toNat).count true)
  else .error (.indexError "list index out of range")

def getEmbedsIndicesInRange (startIdx endIdx : ℤ) : Py (ℤ × ℤ) :=
  match f.isEmbed with
  | none => .ok (startIdx, endIdx)
  | some mask => do
    let embedsStart ← embedsBefore mask startIdx
    let embedsEnd ← embedsBefore mask endIdx
    .ok (embedsStart, embedsEnd)

end EncoderInput

/-- A request with its multi-modal inputs. -/
structure EncoderRequest where
  requestId : String
  mmFeatures : List EncoderInput := []
  deriving DecidableEq, Repr

def EncoderRequest.mmFeature (r : EncoderRequest) (inputId : ℕ) : Py EncoderInput :=
  match r.mmFeatures[inputId]? with
  | none => .error (.indexError "list index out of range")
  | some f => .ok f

/-! ## The manager -/

/-- `EncoderCacheManager`. -/
structure EncoderCacheManager where
  cacheSize : ℕ
  numFreeSlots : ℤ
  numFreeableSlots : ℤ
  cached : Dict String (Finset String) := ∅
  requestCachedIds : Dict String (Finset ℕ) := ∅
  /-- The cached items without references and their sizes, oldest first. -/
  freeable : List (String × ℕ) := []
  freed : List String := []

namespace EncoderCacheManager

def init (cacheSize : ℕ) : EncoderCacheManager where
  cacheSize := cacheSize
  numFreeSlots := cacheSize
  numFreeableSlots := cacheSize

variable (m : EncoderCacheManager)

def reset : EncoderCacheManager :=
  { m with
    cached := ∅
    requestCachedIds := ∅
    freeable := []
    freed := []
    numFreeSlots := m.cacheSize
    numFreeableSlots := m.cacheSize }

def getCachedInputIds (rid : String) : Finset ℕ := (m.requestCachedIds.lookup rid).getD ∅

def refer (rid mmHash : String) (inputId : ℕ) (refs : Finset String) : EncoderCacheManager :=
  { m with
    cached := m.cached.insert mmHash (insert rid refs)
    requestCachedIds := m.requestCachedIds.insert rid (insert inputId (m.getCachedInputIds rid)) }

variable (mmHash : String)

def popFreeable : Py EncoderCacheManager :=
  match m.freeable.lookup mmHash with
  | none => .error (.keyError mmHash)
  | some numEncoderEmbeds => .ok { m with
      freeable := m.freeable.filter (·.1 ≠ mmHash)
      numFreeableSlots := m.numFreeableSlots - numEncoderEmbeds }

def unfree (refs : Finset String) : Py EncoderCacheManager :=
  if refs = ∅ then m.popFreeable mmHash else .ok m

def checkAndUpdateCache (r : EncoderRequest) (inputId : ℕ) : Py (Bool × EncoderCacheManager) := do
  let f ← r.mmFeature inputId
  match m.cached.lookup f.identifier with
  | none => .ok (false, m)
  | some refs => do
    let m ← m.unfree f.identifier refs
    .ok (true, m.refer r.requestId f.identifier inputId refs)

/-- The loop of `can_allocate`: evict the oldest freeable items until `numEmbeds` slots are free. -/
def evictLoop (numEmbeds : ℤ) : List (String × ℕ) → EncoderCacheManager → Py EncoderCacheManager
  | [], m =>
    if numEmbeds > m.numFreeSlots then .error (.keyError "dictionary is empty") else .ok m
  | (mmHash, numFreeEmbeds) :: rest, m =>
    if numEmbeds > m.numFreeSlots then
      if m.cached.lookup mmHash = none then .error (.keyError mmHash)
      else evictLoop numEmbeds rest { m with
        freeable := rest
        cached := m.cached.erase mmHash
        freed := m.freed ++ [mmHash]
        numFreeSlots := m.numFreeSlots + numFreeEmbeds }
    else .ok m

def canAllocate (r : EncoderRequest) (inputId : ℕ) (encoderComputeBudget : ℤ)
    (numEmbedsToSchedule : ℕ) :
    Py (Bool × EncoderCacheManager) := do
  let f ← r.mmFeature inputId
  if f.getNumEmbeds > encoderComputeBudget then .ok (false, m)
  else
    let numEmbeds : ℤ := f.getNumEmbeds + numEmbedsToSchedule
    if numEmbeds ≤ m.numFreeSlots then .ok (true, m)
    else if numEmbeds > m.numFreeableSlots then .ok (false, m)
    else do
      let m ← evictLoop numEmbeds m.freeable m
      .ok (true, m)

def allocate (r : EncoderRequest) (inputId : ℕ) : Py EncoderCacheManager := do
  let f ← r.mmFeature inputId
  let refs := (m.cached.lookup f.identifier).getD ∅
  pyAssert (m.numFreeSlots ≥ f.getNumEmbeds) ""
  pyAssert (m.numFreeableSlots ≥ f.getNumEmbeds) ""
  .ok { m.refer r.requestId f.identifier inputId refs with
    numFreeSlots := m.numFreeSlots - f.getNumEmbeds
    numFreeableSlots := m.numFreeableSlots - f.getNumEmbeds }

def unlist (rid : String) (inputId : ℕ) : EncoderCacheManager :=
  match m.requestCachedIds.lookup rid with
  | none => m
  | some ids =>
    if ids.erase inputId = ∅ then { m with requestCachedIds := m.requestCachedIds.erase rid }
    else { m with requestCachedIds := m.requestCachedIds.insert rid (ids.erase inputId) }

def setFreeable (numEncoderEmbeds : ℕ) : List (String × ℕ) :=
  if mmHash ∈ m.freeable.map Prod.fst then
    m.freeable.map fun e => if e.1 = mmHash then (mmHash, numEncoderEmbeds) else e
  else m.freeable ++ [(mmHash, numEncoderEmbeds)]

def freeEncoderInput (r : EncoderRequest) (inputId : ℕ) : Py EncoderCacheManager := do
  let f ← r.mmFeature inputId
  let m := m.unlist r.requestId inputId
  let refs := (m.cached.lookup f.identifier).getD ∅
  if refs = ∅ then .ok m
  else
    let refs := refs.erase r.requestId
    let m := { m with cached := m.cached.insert f.identifier refs }
    if refs = ∅ then .ok { m with
        freeable := m.setFreeable f.identifier f.getNumEmbeds
        numFreeableSlots := m.numFreeableSlots + f.getNumEmbeds }
    else .ok m

/-- `free`. `inputIds` lists the cached inputs in Python's order of iteration. -/
def free (r : EncoderRequest) (inputIds : List ℕ) : Py EncoderCacheManager :=
  inputIds.foldlM (fun m inputId => m.freeEncoderInput r inputId) m

def getFreedMmHashes : List String × EncoderCacheManager := (m.freed, { m with freed := [] })

end EncoderCacheManager

/-- `bisect.bisect_left` with a key, between `lo` and `hi`. -/
def bisectLeft {α : Type} (key : α → ℤ) (xs : List α) (x : ℤ) : ℕ → ℕ → ℕ → ℕ
  | 0, lo, _ => lo
  | fuel + 1, lo, hi =>
    if lo < hi then
      let mid := (lo + hi) / 2
      if (xs[mid]?.map key).any (· < x) then bisectLeft key xs x fuel (mid + 1) hi
      else bisectLeft key xs x fuel lo mid
    else lo

def getMmFeaturesInWindow (features : List EncoderInput) (start stop : ℤ) : ℕ × ℕ :=
  let n := features.length
  (bisectLeft (fun f => (f.stop : ℤ)) features (start + 1) n 0 n,
    bisectLeft (fun f => (f.offset : ℤ)) features stop n 0 n)

/-- The arguments of `_try_schedule_encoder_inputs`. -/
structure TryArgs where
  numComputedTokens : ℤ
  numNewTokens : ℤ
  encoderComputeBudget : ℤ
  shiftComputedTokens : ℕ := 0
  disableChunkedMmInput : Bool := false
  hasCacheItem : Option (String → Bool) := none

/-- The local variables of the loop of `_try_schedule_encoder_inputs`. -/
structure TryState where
  manager : EncoderCacheManager
  numNewTokens : ℤ
  encoderComputeBudget : ℤ
  encoderInputsToSchedule : List ℕ := []
  externalLoadEncoderInput : List ℕ := []
  mmHashesToSchedule : List String := []
  numEmbedsToSchedule : ℕ := 0
  /-- History: the items that `check_and_update_cache` reported as cached. -/
  hits : List String := []

namespace TryState

def reserve (st : TryState) (f : EncoderInput) : TryState :=
  { st with
    mmHashesToSchedule := f.identifier :: st.mmHashesToSchedule
    numEmbedsToSchedule := st.numEmbedsToSchedule + f.getNumEmbeds }

def loop (a : TryArgs) (r : EncoderRequest) : List ℕ → TryState → Py TryState
  | [], st => .ok st
  | i :: is, st => do
    let f ← r.mmFeature i
    if f.identifier ∈ st.mmHashesToSchedule then loop a r is st
    else do
      let (hit, m) ← st.manager.checkAndUpdateCache r i
      let st := { st with manager := m }
      if hit then loop a r is { st with hits := f.identifier :: st.hits }
      else if a.disableChunkedMmInput ∧ a.numComputedTokens < f.offset ∧
          a.numComputedTokens + st.numNewTokens < f.stop then
        .ok { st with
          numNewTokens := max 0 (f.offset - (a.numComputedTokens + a.shiftComputedTokens)) }
      else do
        let (fits, m) ← st.manager.canAllocate r i st.encoderComputeBudget st.numEmbedsToSchedule
        let st := { st with manager := m }
        if ¬ fits then
          .ok { st with numNewTokens :=
            if a.numComputedTokens + a.shiftComputedTokens < f.offset then
              f.offset - (a.numComputedTokens + a.shiftComputedTokens)
            else 0 }
        else do
          let startIdxRel := max 0 (a.numComputedTokens - f.offset)
          let endIdxRel :=
            min (f.mmPosition.length : ℤ) (a.numComputedTokens + st.numNewTokens - f.offset)
          let (embedsStart, embedsEnd) ← f.getEmbedsIndicesInRange startIdxRel endIdxRel
          if embedsEnd - embedsStart = 0 then loop a r is st
          else if a.hasCacheItem.any (· f.identifier) then
            loop a r is { st.reserve f with
              externalLoadEncoderInput := st.externalLoadEncoderInput ++ [i] }
          else
            loop a r is { st.reserve f with
              encoderComputeBudget := st.encoderComputeBudget - f.getNumEmbeds
              encoderInputsToSchedule := st.encoderInputsToSchedule ++ [i] }

end TryState

/-- `Scheduler._try_schedule_encoder_inputs`. -/
def EncoderCacheManager.trySchedule (m : EncoderCacheManager) (r : EncoderRequest) (a : TryArgs) :
    Py TryState :=
  let st : TryState :=
    { manager := m, numNewTokens := a.numNewTokens, encoderComputeBudget := a.encoderComputeBudget }
  if a.numNewTokens = 0 ∨ r.mmFeatures = [] then .ok st
  else
    let (lo, hi) := getMmFeaturesInWindow r.mmFeatures a.numComputedTokens
      (a.numComputedTokens + a.numNewTokens + a.shiftComputedTokens)
    TryState.loop a r (List.range' lo (hi - lo)) st

end Vllm
