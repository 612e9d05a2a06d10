import Throttle.Text.Blank
import Throttle.Text.Quoted

/-!
# Requests

A request line is a client address, a verb, a resource and an optional
authorization, separated by blanks. The verb is written in upper case, the resource
ends before its query, and the words after it make the authorization.
-/

namespace Throttle

structure Request where
  client : String
  verb : String
  resource : String
  authorization : String
  deriving DecidableEq, Repr

inductive RequestError
  | tooFewWords (line : String)
  | emptyResource (line : String)
  deriving DecidableEq, Repr

def RequestError.message : RequestError → String
  | tooFewWords line =>
    "Invalid request: expected `<client-ip> <VERB> <resource> [authorization]`, got " ++
      Text.Quoted.render line
  | emptyResource line => "Invalid request: empty resource in " ++ Text.Quoted.render line

namespace Request

def route (resource : List Char) : List Char := resource.takeWhile (· != '?')

def parse (line : String) : Except RequestError Request :=
  match Text.words line.toList with
  | client :: verb :: resource :: auth =>
    match route resource with
    | [] => .error (.emptyResource line)
    | resource =>
      .ok {
        client := String.ofList client
        verb := String.ofList (verb.map Char.toUpper)
        resource := String.ofList resource
        authorization := " ".intercalate (auth.map String.ofList) }
  | _ => .error (.tooFewWords line)

end Request
end Throttle
