import Mathlib.Data.List.Induction

/-!
# Logs

Something is asked one thing after the other. Each call changes it, and leaves an entry in a log.
What is claimed of the state after all calls is claimed by their log, so the proof takes the
calls from the first one on, while the log grows at its end.

* `afterCalls`, `logOf`: the state after some calls, and their entries;
* `log_induction`: what every call keeps up holds after all calls.
-/

namespace ContentBlocking

variable {σ κ ε : Type}

/-- The state after some calls. -/
def afterCalls (step : σ → κ → σ × ε) (s : σ) (calls : List κ) : σ :=
  calls.foldl (fun s c => (step s c).1) s

/-- The entries of some calls, in their order. -/
def logOf (step : σ → κ → σ × ε) (s : σ) : List κ → List ε
  | [] => []
  | c :: calls => (step s c).2 :: logOf step (step s c).1 calls

theorem afterCalls_concat (step : σ → κ → σ × ε) (s : σ) (calls : List κ) (c : κ) :
    afterCalls step s (calls ++ [c]) = (step (afterCalls step s calls) c).1 := by
  rw [afterCalls, List.foldl_append]
  rfl

theorem logOf_concat (step : σ → κ → σ × ε) (s : σ) (calls : List κ) (c : κ) :
    logOf step s (calls ++ [c]) = logOf step s calls ++ [(step (afterCalls step s calls) c).2] := by
  induction calls generalizing s with
  | nil => rfl
  | cons c' calls ih =>
    rw [List.cons_append, logOf, ih, logOf, List.cons_append]
    rfl

/-- What holds before all calls, of no entries, and is kept up by every call and its entry holds
    after all calls, of all entries. -/
theorem log_induction {step : σ → κ → σ × ε} {P : List κ → List ε → σ → Prop} {s : σ}
    (h : P [] [] s)
    (hstep : ∀ calls entries s c, P calls entries s →
      P (calls ++ [c]) (entries ++ [(step s c).2]) (step s c).1) (calls : List κ) :
    P calls (logOf step s calls) (afterCalls step s calls) := by
  induction calls using List.reverseRecOn with
  | nil => exact h
  | append_singleton calls c ih =>
    rw [logOf_concat, afterCalls_concat]
    exact hstep _ _ _ c ih

end ContentBlocking
