import Throttle.Command.Arguments
import Throttle.Command.Report
import Throttle.Config.Layers
import Throttle.Replay.Run

/-!
# Runs of the command

A run loads the settings, makes a limiter, fills its registries from the arguments and
replays the input. What it needs of its surroundings is given to it, and what it has to
say is returned: an exit code, lines for the standard output and the events on the way.
-/

namespace Throttle.Command

structure Surroundings where
  file? : String → Option (List UInt8)
  standardInput : List UInt8
  environment : List (String × String)
  clock : Clock

structure Report where
  exit : Nat
  lines : List String := []
  events : List Event := []

def versionLine : String := "turnstile 0.1.0"

def helpLines : List String := [
  "Replay request lines through the Turnstile admission engine.",
  "",
  "Each input line is `<client-ip> <VERB> <resource> [authorization]`.",
  "",
  "Usage: turnstile [OPTIONS]",
  "",
  "Options:",
  "  -c, --config <CONFIG>        YAML configuration file",
  "  -i, --input <INPUT>          Request lines to replay (stdin if omitted)",
  "      --log-level <LOG_LEVEL>  Log level, overrides the configured level (RUST_LOG wins over both)",
  "      --json                   Print verdicts as JSON lines",
  "      --hostile <IP>           Flag an IP as hostile before replaying (needs store_hostile_ips)",
  "      --approve <TOKEN>        Register an authorization value as approved before replaying",
  "  -h, --help                   Print help",
  "  -V, --version                Print version"]

def configFile (s : Surroundings) : Option String → Except Config.Error Config.File
  | none => .ok .unnamed
  | some path => match s.file? path with
    | none => .ok .missing
    | some bytes => match Text.decode? bytes with
      | some content => .ok (.text content)
      | none => .error .notText

def inputBytes (s : Surroundings) : Option String → Option (List UInt8)
  | none => some s.standardInput
  | some path => s.file? path

def register (a : Arguments) (l : Limiter) : Limiter × List Event :=
  let step (op : Limiter → String → Limiter × List Event) (acc : Limiter × List Event)
      (value : String) : Limiter × List Event :=
    let (l, events) := op acc.1 value
    (l, acc.2 ++ events)
  let hostile := a.hostile.foldl
    (step fun l ip => let o := l.markHostile ip; (o.state, o.events)) (l, [])
  a.approved.foldl
    (step fun l token => let o := l.approve token; (o.state, o.events)) hostile

def replay (s : Surroundings) (a : Arguments) : Report :=
  match configFile s a.config >>= fun file => Config.Settings.load file s.environment with
  | .error _ => { exit := 1 }
  | .ok settings =>
    match settings.policy >>= Limiter.create with
    | .error _ => { exit := 1 }
    | .ok (l, created) =>
      let (l, registered) := register a l
      match inputBytes s a.input with
      | none => { exit := 1, events := created ++ registered }
      | some bytes =>
        let done := Replay.run l s.clock bytes
        let events := created ++ registered ++ done.events
        match done.decisions with
        | .error _ => { exit := 1, events := events }
        | .ok decisions =>
          let line := if a.json then Decision.jsonLine else Decision.textLine
          { exit := 0, lines := decisions.map line, events := events }

def run (s : Surroundings) (words : List String) : Report :=
  match Arguments.read words with
  | .replay a => replay s a
  | .help => { exit := 0, lines := helpLines }
  | .version => { exit := 0, lines := [versionLine] }
  | .misuse _ => { exit := 2 }

end Throttle.Command
