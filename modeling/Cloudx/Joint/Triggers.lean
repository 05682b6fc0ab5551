import Cloudx.Cloud.TriggeredSweep
import Cloudx.Local.RefreshDocument

/-! # No trigger is lost

Any number of runs of the cloud maintenance, or of the local one, and any writers of the trigger share the
files. Whatever the order of their accesses, only a run that had loaded the very bytes of the trigger, then
read the files of the credentials, and probed all contexts in them, removes it. -/

namespace Cloudx.Joint.Triggers

open Cloudx.Lib.Threads
open Cloudx.Python.Text Cloudx.Python.Value Cloudx.Python.Dump Cloudx.Python.Clock
open Cloudx.Shared.Trigger
open Cloudx.Cloud Cloudx.Local

/-- What holds of a state that was reached from `first`: the trigger was removed only after a complete sweep
of its bytes; and bytes that were written, and were not there before, are there still, were replaced by
newer ones, or were swept completely after they were written. -/
structure NoneLost {δ π ρ κ α : Type} (complete : List π → List ρ → κ → Prop) (first : Site δ)
    (c : System (Site δ) (Event π ρ κ) PyError α) : Prop where
  removed : ∀ before who raw after, c.history = before ++ (who, .removed raw) :: after →
    current (bytesOf first.trigger) before = some raw ∧ ∃ i, who = some i ∧ SweptBy complete i raw before
  written : ∀ before raw after, c.history = before ++ (none, .wrote raw) :: after →
    bytesOf first.trigger ≠ some raw → (∀ who, (who, .wrote raw) ∉ before) →
      bytesOf c.shared.trigger = some raw ∨ (∃ who raw', (who, .wrote raw') ∈ after) ∨
        ∃ front i back, after = front ++ (some i, .removed raw) :: back ∧ SweptBy complete i raw front

/-- **No trigger is lost**, on the cloud host and locally. -/
theorem no_trigger_lost {py : Py} (hinj : Function.Injective py.sha256) :
    (∀ cfg first c, TriggeredSweep.Reaches cfg py first c →
      NoneLost (TriggeredSweep.Complete cfg py) first c) ∧
    ∀ first c, RefreshDocument.Reaches py first c →
      NoneLost (RefreshDocument.Complete py) first c := by
  constructor
  · intro cfg first c h
    have htrace := h.trace hinj
    exact ⟨fun _ _ _ _ => removed_swept htrace, fun _ _ _ => kept_or_swept htrace⟩
  · intro first c h
    have htrace := h.trace hinj
    exact ⟨fun _ _ _ _ => removed_swept htrace, fun _ _ _ => kept_or_swept htrace⟩

/-- A trigger is written, and consumed by a run that has archived a file. -/
theorem sample_trigger_consumed : ∃ c, RefreshDocument.Reaches (epochPy []) RefreshDocument.sampleSite c ∧
    (some 0, .removed RefreshDocument.sampleRaw) ∈ c.history ∧
    NoneLost (RefreshDocument.Complete (epochPy [])) RefreshDocument.sampleSite c := by
  have hremoved : (some 0, .removed RefreshDocument.sampleRaw) ∈
      ((advance 0)^[12] RefreshDocument.sampleStart).history := by decide +kernel
  exact ⟨_, RefreshDocument.sample_reaches 12, hremoved,
    (no_trigger_lost RefreshDocument.injective_epochPy).2 _ _ (RefreshDocument.sample_reaches 12)⟩

end Cloudx.Joint.Triggers
