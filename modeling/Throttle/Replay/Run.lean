import Throttle.Replay.Ruling
import Throttle.Text.Lines

/-!
# Replays

A replay decides request lines in order: a hostile address is dropped, the gate is
asked about the authorization, and the limiter records the attempt. The whole input
is read before the first decision, so input that cannot be read decides nothing.
-/

namespace Throttle

namespace Limiter

def rule (l : Limiter) (c : Clock) (request : Request) (path : String) : Outcome Limiter Ruling :=
  if l.isHostile request.client then
    { result := .ok .dropped, state := l, events := [.hostileDropped request.client] }
  else
    match l.gate request.authorization with
    | .accepted =>
      match l.identity? request.client request.authorization path with
      | none => { result := .ok .unlimited, state := l }
      | some identity => (l.attempt c identity).map fun
        | none => .serviced
        | some refusal => .limited refusal
    | gate => { result := .ok (.refused gate), state := l }

def judge (l : Limiter) (c : Clock) (line : Nat) (request : Request) : Outcome Limiter Decision :=
  let path := endpointName request.verb request.resource
  (l.rule c request path).map fun ruling => ⟨line, request.client, path, ruling⟩

end Limiter

namespace Replay

/-- A numbered line that is neither blank nor a comment, as far as it was understood. -/
structure Entry where
  line : Nat
  request : Except RequestError Request

inductive Failure
  | notText
  | task
  deriving DecidableEq, Repr

def content? (line : String) : Option String :=
  match Text.trim line.toList with
  | [] => none
  | '#' :: _ => none
  | text => some (String.ofList text)

def Entry.ofLine? (number : Nat) (line : String) : Option Entry :=
  (content? line).map fun text => ⟨number, Request.parse text⟩

/-- The entries of lines numbered from `number`, up to the first that is not text, and whether all
the lines are texts. -/
def entriesFrom (number : Nat) : List (List UInt8) → List Entry × Bool
  | [] => ([], true)
  | line :: rest =>
    match Text.decode? line with
    | none => ([], false)
    | some text =>
      let (entries, complete) := entriesFrom (number + 1) rest
      ((Entry.ofLine? number text).toList ++ entries, complete)

def Entry.events (e : Entry) : List Event :=
  match e.request with
  | .ok _ => []
  | .error error => [.lineSkipped e.line error]

def judgeEntry (l : Limiter) (c : Clock) (e : Entry) : Outcome Limiter Decision :=
  match e.request with
  | .ok request => l.judge c e.line request
  | .error error => { result := .ok ⟨e.line, "", "", .malformed error⟩, state := l }

/-- Decides the entries in line order, which is one of the orders in which their tasks may run. A
decision that fails is missing, and it does not keep the others from being made. -/
def judgeAll (l : Limiter) (c : Clock) : List Entry → Outcome Limiter (List Decision)
  | [] => { result := .ok [], state := l }
  | e :: rest =>
    let first := judgeEntry l c e
    let others := judgeAll first.state (c.skip first.samples) rest
    { result := match first.result, others.result with
        | .ok decision, .ok decisions => .ok (decision :: decisions)
        | .error fault, _ => .error fault
        | _, .error fault => .error fault
      state := others.state
      samples := first.samples + others.samples
      events := first.events ++ others.events }

structure Result where
  decisions : Except Failure (List Decision)
  state : Limiter
  samples : Nat := 0
  events : List Event := []

def summary (decisions : List Decision) : Event :=
  .replayComplete decisions.length (decisions.countP (·.ruling.isLimited))

/-- Replays the lines of a byte stream. The tasks that decide them run in line order, and none runs
before the reading is over: `Progress.await_inOrder`. -/
def run (l : Limiter) (c : Clock) (input : List UInt8) : Result :=
  let (entries, complete) := entriesFrom 1 (Text.lines input)
  let skipped := entries.flatMap Entry.events
  if complete then
    let decided := judgeAll l c entries
    match decided.result with
    | .ok decisions =>
      { decisions := .ok decisions, state := decided.state, samples := decided.samples,
        events := skipped ++ decided.events ++ [summary decisions] }
    | .error _ =>
      { decisions := .error .task, state := decided.state, samples := decided.samples,
        events := skipped ++ decided.events }
  else { decisions := .error .notText, state := l, events := skipped }

end Replay
end Throttle
