import Throttle.Replay.Ruling

/-!
# Reports

A decision as a line of text or as a JSON object, in which quotes, backslashes and
control characters are escaped, the common ones by a letter. The time to come back is
left out where there is none.
-/

namespace Throttle.Text.Json

def hexPadded (n : Nat) : List Char :=
  let digits := Nat.toDigits 16 n
  List.replicate (4 - digits.length) '0' ++ digits

def escape (c : Char) : List Char :=
  match c with
  | '"' => ['\\', '"']
  | '\\' => ['\\', '\\']
  | '\n' => ['\\', 'n']
  | '\r' => ['\\', 'r']
  | '\t' => ['\\', 't']
  | '\x08' => ['\\', 'b']
  | '\x0c' => ['\\', 'f']
  | c => if c.toNat < 0x20 then '\\' :: 'u' :: hexPadded c.toNat else [c]

def string (s : String) : String := String.ofList ('"' :: s.toList.flatMap escape ++ ['"'])

def object (fields : List (String × String)) : String :=
  "\x7b" ++ ",".intercalate (fields.map fun (name, value) => string name ++ ":" ++ value) ++ "\x7d"

end Throttle.Text.Json

namespace Throttle

namespace Decision

def jsonLine (d : Decision) : String :=
  Text.Json.object ([
    ("line", toString d.line), ("client_ip", Text.Json.string d.client),
    ("endpoint", Text.Json.string d.path), ("status", toString d.ruling.status),
    ("message", Text.Json.string d.ruling.message)] ++
    d.ruling.retryAfter.toList.map fun seconds => ("retry_after_secs", toString seconds))

def textLine (d : Decision) : String :=
  let number := toString d.line
  String.ofList (List.replicate (4 - number.length) ' ') ++ number ++ " " ++
    toString d.ruling.status ++ " " ++ d.client ++ " " ++ d.path ++ " " ++ d.ruling.message ++
    match d.ruling.retryAfter with
    | some seconds => " (retry after " ++ toString seconds ++ "s)"
    | none => ""

end Decision
end Throttle
