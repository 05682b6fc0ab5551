import Cloudx.Shared.Receipt

/-! # What the gateway tells the cloud maintenance

The receipts of run-time failures (`cpa_health.py`), the trigger of a sweep and the observation of the
pool (`cpa_sweep.py`). -/

namespace Cloudx.Cloud.Receipts

open Cloudx.Python.Text Cloudx.Python.Value
open Cloudx.Shared.Receipt

variable (py : Py)

/-- `_parse_receipt_time`: a text in ISO form, UTC if it names no zone. -/
def parseReceiptTime : Json → Option ℚ
  | .str raw => if strip raw = [] then none else py.fromisoformat (isoText (strip raw))
  | _ => none

/-- `_failure_receipt` -/
def failureReceipt (now : ℚ) (entry : Entry) : Except PyError (Option Failure) :=
  receipt py (parseReceiptTime py) now entry

/-- `load_trigger` -/
def loadTrigger (now : ℚ) (entry : Entry) : Except PyError (Option Trigger × TriggerStatus) :=
  Shared.Receipt.loadTrigger py now entry

/-- `POOL_SCHEMA` -/
def poolSchema : Str := lit "cloudx.cpa-pool-observation.v1"

/-- What `load_pool_observation` returns. -/
structure PoolObservation where
  state : Str
  observedAt : ℚ
deriving DecidableEq

/-- `value in {…}` for a set of texts; a list or a dict cannot be hashed. -/
def memberText (texts : List Str) : Json → Except PyError (Option Str)
  | .arr _ => .error .unhashable
  | .obj _ => .error .unhashable
  | .str s => .ok (if s ∈ texts then some s else none)
  | _ => .ok none

/-- The checks of an observation before its state. -/
def poolFields (d : Dict) : Bool :=
  keysAre d [lit "schema", lit "state", lit "observedAt"] && get d (lit "schema") = .str poolSchema

/-- `load_pool_observation` -/
def loadPoolObservation (entry : Entry) : Except PyError (Option PoolObservation) := do
  match ← document entry with
  | none => return none
  | some (_, d) =>
    if !poolFields d then return none
    match ← memberText [lit "available", lit "unavailable"] (get d (lit "state")) with
    | none => return none
    | some state => return (time py (get d (lit "observedAt"))).map (⟨state, ·⟩)

/-- A value that can be put into a set. -/
def Hashable : Json → Prop
  | .arr _ => False
  | .obj _ => False
  | _ => True

/-- **When loading an observation returns.** -/
theorem loadPoolObservation_returns (entry : Entry) : Returns (loadPoolObservation py entry) ↔
    Decodes entry ∧ ∀ d, objectOf entry = some d → poolFields d = true →
      Hashable (get d (lit "state")) := by
  unfold loadPoolObservation
  refine returns_document entry _ _ fun _ d => ?_
  by_cases hf : poolFields d = true
  · rw [if_neg (by simp [hf])]
    rcases get d (lit "state") with _ | b | n | x | s | items | fields
    · exact iff_of_true (returns_ok _) fun _ => trivial
    · exact iff_of_true (returns_ok _) fun _ => trivial
    · exact iff_of_true (returns_ok _) fun _ => trivial
    · exact iff_of_true (returns_ok _) fun _ => trivial
    · refine iff_of_true ?_ fun _ => trivial
      simp only [memberText]
      split_ifs
      · exact returns_ok _
      · exact returns_ok _
    · exact iff_of_false (not_returns_error _) fun h => h hf
    · exact iff_of_false (not_returns_error _) fun h => h hf
  · rw [if_pos (by simpa using hf)]
    exact iff_of_true (returns_ok _) fun h => absurd h hf

end Cloudx.Cloud.Receipts
