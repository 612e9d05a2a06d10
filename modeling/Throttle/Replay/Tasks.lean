import Throttle.Replay.Run

/-!
# Tasks

A replay spawns a task for each entry as it reads, and the task decides its entry as soon as the
runtime lets it run: before the next line is read, at the end, or after the replay has returned.
What the runtime does is a list of turns.
-/

namespace Throttle.Replay

structure Task where
  entry : Entry
  result? : Option (Except Fault Decision) := none

/-- The replay goes on, its reader has nothing for it yet, or one of its tasks runs. -/
inductive Turn
  | read
  | pause
  | task (i : Nat)
  deriving DecidableEq, Repr

structure Progress where
  number : Nat := 1
  unread : List (List UInt8)
  paused : Bool := false
  tasks : List Task := []
  limiter : Limiter
  clock : Clock
  events : List Event := []
  returned? : Option (Except Failure (List Decision)) := none

namespace Progress

def start (l : Limiter) (c : Clock) (input : List UInt8) : Progress where
  unread := Text.lines input
  limiter := l
  clock := c

def spawn (p : Progress) (text : String) (rest : List (List UInt8)) : Progress :=
  let entry? := Entry.ofLine? p.number text
  { p with
    number := p.number + 1
    unread := rest
    paused := false
    tasks := p.tasks ++ entry?.toList.map fun e => { entry := e }
    events := p.events ++ entry?.toList.flatMap Entry.events }

def join (p : Progress) : Progress :=
  match (p.tasks.filterMap Task.result?).mapM id with
  | .ok decisions =>
    { p with returned? := some (.ok decisions), events := p.events ++ [summary decisions] }
  | .error _ => { p with returned? := some (.error .task) }

/-- Takes the next line. A line that is not text ends the replay at once, whatever has become of
the tasks, and after the last line it ends when all of them have run. -/
def read (p : Progress) : Progress :=
  match p.unread with
  | [] => if p.tasks.all (·.result?.isSome) then p.join else p
  | line :: rest =>
    match Text.decode? line with
    | none => { p with returned? := some (.error .notText) }
    | some text => p.spawn text rest

/-- A task decides its entry in one turn, and once. -/
def runTask (p : Progress) (i : Nat) : Progress :=
  match p.tasks[i]? with
  | some { entry := e, result? := none } =>
    let o := judgeEntry p.limiter p.clock e
    { p with
      tasks := p.tasks.set i { entry := e, result? := some o.result }
      limiter := o.state
      clock := p.clock.skip o.samples
      events := p.events ++ o.events }
  | _ => p

/-- The tasks of a replay that has returned may still run. -/
def take (p : Progress) : Turn → Progress
  | .read => if p.returned?.isSome then p else p.read
  | .pause => { p with paused := true }
  | .task i => p.runTask i

def play (p : Progress) : List Turn → Progress
  | [] => p
  | turn :: rest => (p.take turn).play rest

end Progress

end Throttle.Replay
