import Mathlib.Data.List.Basic
import Throttle.Outcome

/-!
# Runs

A run is a list of calls, each with the clock that it sees. Its history holds for each
call the readings that it took and what it returned. What holds of a first state and
is kept by each call holds of the last one.
-/

namespace Throttle

variable {σ κ α : Type}

def Outcome.readings (o : Outcome σ α) (c : Clock) : List Instant :=
  (List.range o.samples).map c.reading

theorem Outcome.mem_readings {o : Outcome σ α} {c : Clock} {t : Instant} :
    t ∈ o.readings c ↔ ∃ n < o.samples, c.reading n = t := by
  simp [readings]

namespace Run

structure Step (κ α : Type) where
  call : κ
  readings : List Instant
  result : Except Fault α

variable (perform : σ → Clock → κ → Outcome σ α)

def final : σ → List (κ × Clock) → σ
  | s, [] => s
  | s, (call, c) :: rest => final (perform s c call).state rest

def history : σ → List (κ × Clock) → List (Step κ α)
  | _, [] => []
  | s, (call, c) :: rest =>
    let o := perform s c call
    ⟨call, o.readings c, o.result⟩ :: history o.state rest

def readings (s : σ) (run : List (κ × Clock)) : List Instant :=
  (history perform s run).flatMap Step.readings

theorem readings_cons (s : σ) (call : κ) (c : Clock) (rest : List (κ × Clock)) :
    readings perform s ((call, c) :: rest) =
      (perform s c call).readings c ++ readings perform (perform s c call).state rest := rfl

variable {perform}

theorem final_append (s : σ) (before since : List (κ × Clock)) :
    final perform s (before ++ since) = final perform (final perform s before) since := by
  induction before generalizing s with
  | nil => rfl
  | cons step rest ih => exact ih _

theorem final_keeps {P : σ → Prop} (step : ∀ s c call, P s → P (perform s c call).state)
    {s : σ} (h : P s) (run : List (κ × Clock)) : P (final perform s run) := by
  induction run generalizing s with
  | nil => exact h
  | cons head rest ih => exact ih (step s head.2 head.1 h)

/-- The invariant may speak of all the readings taken so far, and need be kept only by
the calls that the run makes. -/
theorem final_invariant {R : Instant → Instant → Prop} {P : List Instant → σ → Prop}
    {C : κ → Prop}
    (step : ∀ past s c call, C call → P past s →
      (past ++ (perform s c call).readings c).Pairwise R →
      P (past ++ (perform s c call).readings c) (perform s c call).state)
    {past : List Instant} {s : σ} {run : List (κ × Clock)} (made : ∀ step ∈ run, C step.1)
    (h : P past s) (ordered : (past ++ readings perform s run).Pairwise R) :
    P (past ++ readings perform s run) (final perform s run) := by
  induction run generalizing past s with
  | nil => simpa [readings, history, final] using h
  | cons head rest ih =>
    obtain ⟨call, c⟩ := head
    obtain ⟨hcall, hrest⟩ := List.forall_mem_cons.1 made
    rw [readings_cons, ← List.append_assoc] at ordered ⊢
    exact ih hrest (step past s c call hcall h (List.pairwise_append.1 ordered).1) ordered

end Run
end Throttle
