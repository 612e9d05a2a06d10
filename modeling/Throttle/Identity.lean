import Throttle.Policy

/-!
# Identities

An identity is what a request is counted against: a client address, an
authorization token, or either of them at one endpoint. The policy picks it, with
the endpoint scope before the user scope before the address scope. Identities of
one kind are told apart by the key of their queue in the log.
-/

namespace Throttle

inductive IdentityKind
  | ip
  | user
  | endpoint
  deriving DecidableEq, Repr

def IdentityKind.name : IdentityKind → String
  | ip => "IP"
  | user => "User"
  | endpoint => "Endpoint"

inductive Identity
  | ip (address : String)
  | user (token : String)
  | endpoint (owner path : String)
  deriving DecidableEq, Repr

namespace Identity

/-- The unit separator, which no address, header value or route contains. -/
def separator : Char := '\x1f'

def kind : Identity → IdentityKind
  | ip _ => .ip
  | user _ => .user
  | endpoint _ _ => .endpoint

def key : Identity → String
  | ip address => address
  | user token => token
  | endpoint owner _ => owner

def path? : Identity → Option String
  | endpoint _ path => some path
  | _ => none

def isEndpoint (i : Identity) : Bool := i.path?.isSome

def logKey : Identity → String
  | ip address => address
  | user token => token
  | endpoint owner path => owner ++ separator.toString ++ path

def display (i : Identity) : String :=
  match i with
  | endpoint owner path => i.kind.name ++ " " ++ owner ++ " |" ++ path ++ "|"
  | ip _ | user _ => i.kind.name ++ " " ++ i.key

end Identity

/-- The identity that the policy counts a request against, if any scope applies to
it. A request without authorization has no user. -/
def Policy.identity? (p : Policy) (client authorization path : String) : Option Identity :=
  let hasUser := p.byUser && authorization != ""
  if p.byEndpoint then
    let owner := if hasUser then authorization else if p.byIp then client else ""
    if owner = "" then none else some (.endpoint owner path)
  else if hasUser then some (.user authorization)
  else if p.byIp then some (.ip client)
  else none

def endpointName (verb resource : String) : String := verb ++ "|" ++ resource

end Throttle
