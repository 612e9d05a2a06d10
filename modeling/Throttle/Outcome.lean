import Throttle.Time.Clock
import Throttle.Event

/-!
# Outcomes

What an operation on a state returns: its result, the state it leaves, how often it
sampled the clock, and the events it reported. An operation fails when it would
step an instant past the last one; what it had done before then stays done.
-/

namespace Throttle

inductive Fault
  | pastLatest
  deriving DecidableEq, Repr

structure Outcome (σ α : Type) where
  result : Except Fault α
  state : σ
  samples : Nat := 0
  events : List Event := []

namespace Outcome

variable {σ τ α β : Type}

def lift (f : σ → τ) (o : Outcome σ α) : Outcome τ α :=
  ⟨o.result, f o.state, o.samples, o.events⟩

def map (f : α → β) (o : Outcome σ α) : Outcome σ β :=
  ⟨o.result.map f, o.state, o.samples, o.events⟩

def afterSamples (n : Nat) (o : Outcome σ α) : Outcome σ α := { o with samples := n + o.samples }

def report (f : α → List Event) (o : Outcome σ α) : Outcome σ α :=
  match o.result with
  | .ok a => { o with events := o.events ++ f a }
  | .error _ => o

/-- A second operation on what the first one left, with the clock `c` as it then
stands. -/
def andThen (c : Clock) (o : Outcome σ α) (f : Clock → α → σ → Outcome σ β) : Outcome σ β :=
  match o.result with
  | .ok a =>
    let r := f (c.skip o.samples) a o.state
    ⟨r.result, r.state, o.samples + r.samples, o.events ++ r.events⟩
  | .error e => ⟨.error e, o.state, o.samples, o.events⟩

@[simp] theorem result_lift (f : σ → τ) (o : Outcome σ α) : (o.lift f).result = o.result := rfl
@[simp] theorem state_lift (f : σ → τ) (o : Outcome σ α) : (o.lift f).state = f o.state := rfl
@[simp] theorem samples_lift (f : σ → τ) (o : Outcome σ α) : (o.lift f).samples = o.samples := rfl
@[simp] theorem events_lift (f : σ → τ) (o : Outcome σ α) : (o.lift f).events = o.events := rfl

@[simp] theorem result_map (f : α → β) (o : Outcome σ α) : (o.map f).result = o.result.map f := rfl
@[simp] theorem state_map (f : α → β) (o : Outcome σ α) : (o.map f).state = o.state := rfl
@[simp] theorem samples_map (f : α → β) (o : Outcome σ α) : (o.map f).samples = o.samples := rfl
@[simp] theorem events_map (f : α → β) (o : Outcome σ α) : (o.map f).events = o.events := rfl

theorem map_map {γ : Type} (f : α → β) (g : β → γ) (o : Outcome σ α) :
    (o.map f).map g = o.map (g ∘ f) := by
  cases o with
  | mk result state samples events => cases result <;> rfl

@[simp] theorem result_afterSamples (n : Nat) (o : Outcome σ α) :
    (o.afterSamples n).result = o.result := rfl
@[simp] theorem state_afterSamples (n : Nat) (o : Outcome σ α) :
    (o.afterSamples n).state = o.state := rfl
@[simp] theorem samples_afterSamples (n : Nat) (o : Outcome σ α) :
    (o.afterSamples n).samples = n + o.samples := rfl

theorem result_andThen_of_ok {c : Clock} {o : Outcome σ α} {f : Clock → α → σ → Outcome σ β} {a : α}
    (h : o.result = .ok a) :
    (o.andThen c f).result = (f (c.skip o.samples) a o.state).result := by
  simp [andThen, h]

theorem state_andThen_of_ok {c : Clock} {o : Outcome σ α} {f : Clock → α → σ → Outcome σ β} {a : α}
    (h : o.result = .ok a) :
    (o.andThen c f).state = (f (c.skip o.samples) a o.state).state := by
  simp [andThen, h]

theorem andThen_of_error {c : Clock} {o : Outcome σ α} {f : Clock → α → σ → Outcome σ β} {e : Fault}
    (h : o.result = .error e) : o.andThen c f = ⟨.error e, o.state, o.samples, o.events⟩ := by
  simp [andThen, h]

@[simp] theorem result_report (f : α → List Event) (o : Outcome σ α) :
    (o.report f).result = o.result := by
  unfold report; split <;> rfl
@[simp] theorem state_report (f : α → List Event) (o : Outcome σ α) :
    (o.report f).state = o.state := by
  unfold report; split <;> rfl
@[simp] theorem samples_report (f : α → List Event) (o : Outcome σ α) :
    (o.report f).samples = o.samples := by
  unfold report; split <;> rfl

end Outcome
end Throttle
