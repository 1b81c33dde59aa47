import ContentBlocking.Engine
import Mathlib.Data.List.Basic

/-!
# Attached artifacts

Artifacts are attached to a surface one after the other. They run there in that
order, and what the engine holds of them at the time of a request decides.

* `attachAll`: attaches artifacts to a surface;
* `evaluate_attachAll`: the verdict of a surface to which artifacts are attached.
-/

namespace ContentBlocking

namespace Engine

variable {P : Type}

/-- Attaches artifacts to a surface, in their order. -/
def attachAll (e : Engine P) (s : Surface) (artifacts : List Artifact) : Engine P :=
  artifacts.foldl (fun e a => e.attach a.identifier s) e

/-- Between `e` and `e'` nothing happens but on the surfaces. -/
def SameButAttachments (e e' : Engine P) : Prop := e' = { e with attachments := e'.attachments }

theorem SameButAttachments.stored {e e' : Engine P} (h : e.SameButAttachments e') :
    e'.stored = e.stored := by rw [h]

theorem SameButAttachments.trans {e e' e'' : Engine P} (h : e.SameButAttachments e')
    (h' : e'.SameButAttachments e'') : e.SameButAttachments e'' := by
  rw [SameButAttachments, h', h]

theorem detachAll_same (e : Engine P) (s : Surface) : e.SameButAttachments (e.detachAll s) := rfl

theorem attach_same (e : Engine P) (identifier : String) (s : Surface) :
    e.SameButAttachments (e.attach identifier s) := rfl

theorem attachAll_same (e : Engine P) (s : Surface) (artifacts : List Artifact) :
    e.SameButAttachments (e.attachAll s artifacts) := by
  induction artifacts generalizing e with
  | nil => rfl
  | cons a artifacts ih => exact (e.attach_same a.identifier s).trans (ih _)

theorem attached_attachAll (e : Engine P) (s s' : Surface) (artifacts : List Artifact) :
    (e.attachAll s artifacts).attached s' =
      if s' = s then e.attached s ++ artifacts.map (·.identifier) else e.attached s' := by
  induction artifacts generalizing e with
  | nil => split <;> simp_all [attachAll]
  | cons a artifacts ih =>
    rw [attachAll, List.foldl_cons, ← attachAll, ih, attached_attach, attached_attach, if_pos rfl]
    split <;> simp

/-- The verdict of a surface to which nothing but the given payloads are
    attached, all of which the engine holds. -/
theorem evaluate_attachAll [PatternLanguage P] {e : Engine P} {s : Surface} (hs : e.attached s = [])
    {compiled : List (Compiled P)}
    (hc : ∀ c ∈ compiled, e.stored.get? c.artifact.identifier = some c) (q : Request) :
    (e.attachAll s (compiled.map (·.artifact))).evaluate s q =
      (compiled.map fun c => c.matcher.verdict q).foldl combine {} := by
  -- Every identifier leads back to the artifact that it was taken from.
  have hlookup : (compiled.map (·.artifact.identifier)).filterMap e.stored.get? = compiled := by
    rw [List.filterMap_map]
    calc compiled.filterMap (e.stored.get? ∘ fun c => c.artifact.identifier)
        = compiled.filterMap some := List.filterMap_congr fun c h => hc c h
      _ = compiled := List.filterMap_some
  have hattached : (e.attachAll s (compiled.map (·.artifact))).attached s =
      compiled.map (·.artifact.identifier) := by
    rw [attached_attachAll, if_pos rfl, hs, List.nil_append, List.map_map]
    rfl
  simp only [evaluate, hattached, (e.attachAll_same s _).stored, hlookup]

end Engine

end ContentBlocking
