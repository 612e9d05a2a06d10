import Throttle.Command.Run

/-!
# The command

Gives a run its files, its standard input, its environment and the time, and prints
what it returns: decisions to the standard output and events to the standard error.
-/

namespace Throttle.Command

def variablesOf (block : List UInt8) : List (String × String) :=
  let entries := (String.fromUTF8? ⟨block.toArray⟩).getD "" |>.splitOn "\x00"
  entries.filterMap fun entry =>
    let (name, value) := splitEquals entry.toList
    value.map fun value => (String.ofList name, String.ofList value)

def eventLine (e : Event) : String :=
  e.level.name ++ " " ++ e.message ++
    String.join (e.fields.map fun (name, value) => " " ++ name ++ "=" ++ value)

def readFile? (path : String) : IO (Option (List UInt8)) := do
  try
    let bytes ← IO.FS.readBinFile path
    return some bytes.toList
  catch _ => return none

def filesOf (words : List String) : IO (List (String × List UInt8)) := do
  match Arguments.read words with
  | .replay a =>
    (a.config.toList ++ a.input.toList).filterMapM fun path => do
      return (← readFile? path).map fun bytes => (path, bytes)
  | _ => return []

def readsStandardInput (words : List String) : Bool :=
  match Arguments.read words with
  | .replay a => a.input.isNone
  | _ => false

end Throttle.Command

open Throttle Throttle.Command

def main (words : List String) : IO UInt32 := do
  let files ← filesOf words
  let input ←
    if readsStandardInput words then (← IO.getStdin).readBinToEnd else pure ByteArray.empty
  let environment := variablesOf ((← readFile? "/proc/self/environ").getD [])
  let start := (Instant.ofNs? (← IO.monoNanosNow)).getD .earliest
  let report := run {
    file? := fun path => files.lookup path
    standardInput := input.toList
    environment := environment
    clock := (PacedClock.mk start .unit).clock } words
  for e in report.events do
    if e.level ≠ .debug then IO.eprintln (eventLine e)
  for line in report.lines do
    IO.println line
  return UInt32.ofNat report.exit
