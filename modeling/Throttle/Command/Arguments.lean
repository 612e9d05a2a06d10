/-!
# Arguments

The arguments of the command are read from left to right, and the first mistake ends
the reading. An option takes its value from the same word or from the next one; a word
that starts with a dash is no value. There are no arguments besides options.
-/

namespace Throttle.Command

structure Arguments where
  config : Option String := none
  input : Option String := none
  logLevel : Option String := none
  json : Bool := false
  hostile : List String := []
  approved : List String := []
  deriving DecidableEq, Repr

inductive Opt
  | config
  | input
  | logLevel
  | hostile
  | approve
  | json
  | help
  | version
  deriving DecidableEq, Repr

inductive UsageError
  | unknown (word : String)
  | missingValue (option : Opt)
  | emptyValue (option : Opt)
  | unexpectedValue (option : Opt)
  | repeated (option : Opt)
  deriving DecidableEq, Repr

inductive Invocation
  | replay (arguments : Arguments)
  | help
  | version
  | misuse (error : UsageError)
  deriving DecidableEq, Repr

namespace Opt

def ofLong? : String → Option Opt
  | "config" => some config
  | "input" => some input
  | "log-level" => some logLevel
  | "hostile" => some hostile
  | "approve" => some approve
  | "json" => some json
  | "help" => some help
  | "version" => some version
  | _ => none

def ofShort? : Char → Option Opt
  | 'c' => some config
  | 'i' => some input
  | 'h' => some help
  | 'V' => some version
  | _ => none

def takesValue : Opt → Bool
  | config | input | logLevel | hostile | approve => true
  | json | help | version => false

def isPath : Opt → Bool
  | config | input => true
  | _ => false

end Opt

def splitEquals (s : List Char) : List Char × Option (List Char) :=
  let name := s.takeWhile (· != '=')
  match s.drop name.length with
  | _ :: value => (name, some value)
  | [] => (name, none)

namespace Arguments

def give (a : Arguments) (o : Opt) (value : String) : Except UsageError Arguments :=
  if o.isPath && value = "" then .error (.emptyValue o)
  else
    let once (current : Option String) (b : Arguments) : Except UsageError Arguments :=
      if current.isSome then .error (.repeated o) else .ok b
    match o with
    | .config => once a.config { a with config := some value }
    | .input => once a.input { a with input := some value }
    | .logLevel => once a.logLevel { a with logLevel := some value }
    | .hostile => .ok { a with hostile := a.hostile ++ [value] }
    | .approve => .ok { a with approved := a.approved ++ [value] }
    | .json | .help | .version => .error (.unexpectedValue o)

def setJson (a : Arguments) : Except UsageError Arguments :=
  if a.json then .error (.repeated .json) else .ok { a with json := true }

inductive Flags
  | done (arguments : Arguments)
  | waiting (arguments : Arguments) (option : Opt)
  | ask (invocation : Invocation)

def apply (a : Arguments) (o : Opt) (value : Option String) : Flags :=
  let ofExcept : Except UsageError Arguments → Flags
    | .ok a => .done a
    | .error e => .ask (.misuse e)
  if o.takesValue then
    match value with
    | some value => ofExcept (a.give o value)
    | none => .waiting a o
  else if value.isSome then .ask (.misuse (.unexpectedValue o))
  else match o with
    | .help => .ask .help
    | .version => .ask .version
    | _ => ofExcept a.setJson

def applyShort (word : String) : List Char → Arguments → Flags
  | [], a => .done a
  | c :: rest, a =>
    match Opt.ofShort? c with
    | none => .ask (.misuse (.unknown word))
    | some o =>
      if o.takesValue then
        a.apply o (match rest with
          | [] => none
          | '=' :: value => some (String.ofList value)
          | value => some (String.ofList value))
      else match a.apply o none with
        | .done a => applyShort word rest a
        | other => other

def applyLong (word : String) (name : List Char) (value : Option (List Char)) (a : Arguments) :
    Flags :=
  match Opt.ofLong? (String.ofList name) with
  | none => .ask (.misuse (.unknown word))
  | some o => a.apply o (value.map String.ofList)

/-- The arguments that words add to `a`. While an option waits for its value, the next
word is that value unless it starts with a dash. -/
def readFrom (a : Arguments) : Option Opt → List String → Invocation
  | none, [] => .replay a
  | some o, [] => .misuse (.missingValue o)
  | waiting, word :: rest =>
    let next : Flags → Invocation
      | .done a => readFrom a none rest
      | .waiting a o => readFrom a (some o) rest
      | .ask invocation => invocation
    match word.toList, waiting with
    | ['-', '-'], none =>
      match rest with
      | [] => .replay a
      | word :: _ => .misuse (.unknown word)
    | '-' :: _ :: _, some o => .misuse (.missingValue o)
    | '-' :: '-' :: long, none =>
      let (name, value) := splitEquals long
      next (applyLong word name value a)
    | '-' :: c :: short, none => next (applyShort word (c :: short) a)
    | _, some o =>
      match a.give o word with
      | .ok a => readFrom a none rest
      | .error e => .misuse e
    | _, none => .misuse (.unknown word)

def read (words : List String) : Invocation := readFrom {} none words

end Arguments
end Throttle.Command
