import Cloudx.Cloud.Receipts
import Cloudx.Local.Maintenance

/-! # Documents from outside

The five readers of receipts, triggers and pool observations on every content a file can have: each
raises exactly where the JSON decoder raises something else than a decode error, where a time has no
UTC form, and, for the pool, where the state cannot be hashed. -/

namespace Cloudx.Joint.Hostile

open Cloudx.Python.Text Cloudx.Python.Value Cloudx.Python.Dump
open Cloudx.Shared.Receipt
open Cloudx.Cloud Cloudx.Local

variable {py : Py}

/-- A loop over receipts returns if each of them is read. -/
theorem runtimeCandidates_returns (now : ℚ) (records : List Archive.AuthRecord) :
    ∀ receipts : List (FileName × Entry),
      Returns (Maintenance.runtimeCandidates py now records receipts) ↔
        ∀ x ∈ receipts, Returns (Maintenance.receipt py now x.2)
  | [] => iff_of_true (returns_ok _) (by simp)
  | (path, entry) :: rest => by
    rw [List.forall_mem_cons, ← runtimeCandidates_returns now records rest,
      Maintenance.runtimeCandidates]
    rcases Maintenance.receipt py now entry with e | document
    · exact iff_of_false (not_returns_error e) fun h => not_returns_error e h.1
    rcases Maintenance.runtimeCandidates py now records rest with e | more
    · exact iff_of_false (not_returns_error e) fun h => not_returns_error e h.2
    · refine iff_of_true ?_ ⟨returns_ok document, returns_ok more⟩
      rcases document with _ | found
      · exact returns_ok _
      · simp only [bind, Except.bind]
        generalize List.find? _ _ = matching
        rcases matching with _ | r
        · exact returns_ok _
        · simp only
          split_ifs
          · exact returns_ok _
          · exact returns_ok _

/-- **Which contents the five readers return on**, and that the local loop over the receipts returns
if it returns on each of them. -/
theorem readers_return_iff (py : Py) (now : ℚ) (entry : Entry) :
    (Returns (Receipts.failureReceipt py now entry) ↔
      Decodes entry ∧ ∀ d, objectOf entry = some d →
        TimeInRange (receiptFields py d).isSome
          (Receipts.parseReceiptTime py (get d (lit "observedAt")))) ∧
    (Returns (Receipts.loadTrigger py now entry) ↔
      Decodes entry ∧ ∀ d, objectOf entry = some d →
        TimeInRange (triggerFields d) (time py (get d (lit "observedAt")))) ∧
    (Returns (Receipts.loadPoolObservation py entry) ↔
      Decodes entry ∧ ∀ d, objectOf entry = some d → Receipts.poolFields d = true →
        Receipts.Hashable (get d (lit "state"))) ∧
    (Returns (Maintenance.receipt py now entry) ↔
      Decodes entry ∧ ∀ d, objectOf entry = some d →
        TimeInRange (receiptFields py d).isSome
          (Maintenance.parseTime py (get d (lit "observedAt")))) ∧
    (Returns (Maintenance.load py now entry) ↔
      Decodes entry ∧ ∀ d, objectOf entry = some d →
        TimeInRange (triggerFields d) (time py (get d (lit "observedAt")))) ∧
    ∀ (records : List Archive.AuthRecord) (receipts : List (FileName × Entry)),
      Returns (Maintenance.runtimeCandidates py now records receipts) ↔
        ∀ x ∈ receipts, Returns (Maintenance.receipt py now x.2) :=
  ⟨receipt_returns py _ now entry, loadTrigger_returns py now entry,
    Receipts.loadPoolObservation_returns py entry, receipt_returns py _ now entry,
    loadTrigger_returns py now entry, fun records => runtimeCandidates_returns now records⟩

/-- A pool observation whose state is a list. -/
def listPool : Entry := .file (jsonFile onePy true
  [(lit "schema", .str Receipts.poolSchema), (lit "state", .arr []),
    (lit "observedAt", .str (lit "2026-01-01T00:00:00+00:00"))])

/-- An observation makes its reader raise. -/
theorem readers_raise : ¬ ∀ (py : Py) (now : ℚ) (entry : Entry),
    Returns (Receipts.failureReceipt py now entry) ∧ Returns (Receipts.loadTrigger py now entry) ∧
      Returns (Receipts.loadPoolObservation py entry) ∧ Returns (Maintenance.receipt py now entry) ∧
      Returns (Maintenance.load py now entry) := by
  intro h
  have hpool : Receipts.loadPoolObservation onePy listPool = .error .unhashable := by
    decide +kernel
  have hreturn := (h onePy 0 listPool).2.2.1
  rw [hpool] at hreturn
  exact not_returns_error _ hreturn

end Cloudx.Joint.Hostile
