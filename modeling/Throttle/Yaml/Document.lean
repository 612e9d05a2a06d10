import Throttle.Yaml.Lexer
import Throttle.Yaml.Node

/-!
# Documents

A reader makes the nodes of a document out of tokens. Entries that are left out are
empty scalars. A stream has one document or none; anything after the first document
but its end marks is refused.
-/

namespace Throttle.Yaml

structure Reader where
  version : Version
  tokens : List Token
  handles : List (String × String) := []
  names : List (String × Nat) := []
  count : Nat := 0
  anchors : List Anchored := []

namespace Reader

def peek (r : Reader) : Token := r.tokens.headD .streamEnd

def skip (r : Reader) : Reader := { r with tokens := r.tokens.drop 1 }

def number? (r : Reader) (name : String) : Option Nat := r.names.lookup name

/-- Gives an anchor name a number. The first version counts the names that are known,
so that a name used twice may share its number with a later one; the second counts
the anchors. -/
def declare (r : Reader) (name : String) : Nat × Reader :=
  let known := r.names.filter (·.1 != name)
  let number := match r.version with
    | .v11 => r.names.length
    | .v12 => r.count
  (r.count, { r with names := (name, number) :: known, count := r.count + 1 })

def resolve (r : Reader) (handle suffix : String) : Except Problem Tag :=
  if handle = "" then .ok ⟨"", suffix⟩
  else match r.handles.lookup handle with
    | some lead => .ok ⟨lead, suffix⟩
    | none =>
      if handle = "!" then .ok ⟨"!", suffix⟩
      else if handle = "!!" then .ok ⟨Tag.core, suffix⟩
      else .error .unknownHandle

structure Properties where
  anchor : Option String := none
  tag : Option Tag := none

def Properties.isEmpty (p : Properties) : Bool := p.anchor.isNone && p.tag.isNone

def anchorOf (r : Reader) (p : Properties) : Properties × Reader :=
  match r.peek with
  | .anchor name => ({ p with anchor := some name }, r.skip)
  | _ => (p, r)

def tagOf (r : Reader) (p : Properties) : Except Problem (Properties × Reader) :=
  match r.peek with
  | .tag handle suffix => do
    let tag ← r.resolve handle suffix
    pure ({ p with tag := some tag }, r.skip)
  | _ => .ok (p, r)

def properties (r : Reader) : Except Problem (Properties × Reader) := do
  let (p, r) := r.anchorOf {}
  let (p, r) ← r.tagOf p
  if p.anchor.isNone then pure (r.anchorOf p) else pure (p, r)

def remember (r : Reader) (name : Option String) (number order : Nat) (node : Node) : Reader :=
  match name with
  | some _ => { r with anchors := ⟨number, order, node⟩ :: r.anchors }
  | none => r

def referenceTo (r : Reader) (name : String) : Except Problem (Node × Reader) :=
  match r.number? name with
  | some number =>
    let known := (Document.mk .empty r.anchors).anchored? number
    .ok (.reference number known, r.skip)
  | none => .error .unknownAlias

structure Place where
  block : Bool
  indentless : Bool := false

def Place.flow : Place := ⟨false, false⟩

def scalarTag (r : Reader) (tag : Option Tag) : Option Tag :=
  if r.version = .v11 && tag.any (·.text = "!") then none else tag

mutual

def node (fuel : Nat) (p : Place) (r : Reader) : Except Problem (Node × Reader) :=
  match fuel with
  | 0 => .error .unexpectedToken
  | fuel + 1 =>
    match r.peek with
    | .reference name => r.referenceTo name
    | _ => do
      let (props, r) ← r.properties
      let (order, declared) := match props.anchor with
        | some name => r.declare name
        | none => (0, r)
      let number := (props.anchor.bind declared.number?).getD 0
      let (content, r) ← content fuel p props declared
      pure (content, r.remember props.anchor number order content)

def content (fuel : Nat) (p : Place) (props : Properties) (r : Reader) :
    Except Problem (Node × Reader) :=
  match fuel with
  | 0 => .error .unexpectedToken
  | fuel + 1 =>
    match r.peek with
    | .scalar style text => .ok (.scalar (r.scalarTag props.tag) style text, r.skip)
    | .flowSequenceStart => do
      let (items, r) ← flowItems fuel true r.skip
      pure (.sequence props.tag items, r)
    | .flowMappingStart => do
      let (entries, r) ← flowEntries fuel true r.skip
      pure (.mapping props.tag entries, r)
    | .blockSequenceStart =>
      if p.block then do
        let (items, r) ← blockItems fuel r.skip
        pure (.sequence props.tag items, r)
      else left props r
    | .blockMappingStart =>
      if p.block then do
        let (entries, r) ← blockEntries fuel r.skip
        pure (.mapping props.tag entries, r)
      else left props r
    | .blockEntry =>
      if p.indentless then do
        let (items, r) ← indentlessItems fuel r
        pure (.sequence props.tag items, r)
      else left props r
    | _ => left props r

def left (props : Properties) (r : Reader) : Except Problem (Node × Reader) :=
  if props.isEmpty then .error .unexpectedToken
  else .ok (.scalar (r.scalarTag props.tag) .plain "", r)

def nodeUnless (fuel : Nat) (p : Place) (stops : Token → Bool) (r : Reader) :
    Except Problem (Node × Reader) :=
  match fuel with
  | 0 => .error .unexpectedToken
  | fuel + 1 => if stops r.peek then .ok (.empty, r) else node fuel p r

def blockItems (fuel : Nat) (r : Reader) : Except Problem (List Node × Reader) :=
  match fuel with
  | 0 => .error .unexpectedToken
  | fuel + 1 =>
    match r.peek with
    | .blockEntry => do
      let (item, r) ← nodeUnless fuel { block := true }
        (fun t => t == .blockEntry || t == .blockEnd) r.skip
      let (items, r) ← blockItems fuel r
      pure (item :: items, r)
    | .blockEnd => .ok ([], r.skip)
    | _ => .error .unexpectedToken

def indentlessItems (fuel : Nat) (r : Reader) : Except Problem (List Node × Reader) :=
  match fuel with
  | 0 => .error .unexpectedToken
  | fuel + 1 =>
    match r.peek with
    | .blockEntry => do
      let (item, r) ← nodeUnless fuel { block := true }
        (fun t => t == .blockEntry || t == .key || t == .value || t == .blockEnd) r.skip
      let (items, r) ← indentlessItems fuel r
      pure (item :: items, r)
    | _ => .ok ([], r)

def blockEntries (fuel : Nat) (r : Reader) : Except Problem (List (Node × Node) × Reader) :=
  match fuel with
  | 0 => .error .unexpectedToken
  | fuel + 1 =>
    let stops (t : Token) : Bool := t == .key || t == .value || t == .blockEnd
    let place : Place := { block := true, indentless := true }
    match r.peek with
    | .blockEnd => .ok ([], r.skip)
    | .key => do
      let (key, r) ← nodeUnless fuel place stops r.skip
      let (value, r) ← valueAfter fuel place stops r
      let (entries, r) ← blockEntries fuel r
      pure ((key, value) :: entries, r)
    | .value =>
      match r.version with
      | .v11 => .error .unexpectedToken
      | .v12 => do
        let (value, r) ← valueAfter fuel place stops r
        let (entries, r) ← blockEntries fuel r
        pure ((.empty, value) :: entries, r)
    | _ => .error .unexpectedToken

def valueAfter (fuel : Nat) (p : Place) (stops : Token → Bool) (r : Reader) :
    Except Problem (Node × Reader) :=
  match fuel with
  | 0 => .error .unexpectedToken
  | fuel + 1 =>
    match r.peek with
    | .value => nodeUnless fuel p stops r.skip
    | _ => .ok (.empty, r)

def flowItems (fuel : Nat) (first : Bool) (r : Reader) : Except Problem (List Node × Reader) :=
  match fuel with
  | 0 => .error .unexpectedToken
  | fuel + 1 =>
    match r.peek with
    | .flowSequenceEnd => .ok ([], r.skip)
    | t => do
      if !first && t ≠ .flowEntry then .error .unexpectedToken
      let r := if first then r else r.skip
      match r.peek with
      | .flowSequenceEnd => pure ([], r.skip)
      | _ =>
        let (item, r) ← flowItem fuel r
        let (items, r) ← flowItems fuel false r
        pure (item :: items, r)

def flowItem (fuel : Nat) (r : Reader) : Except Problem (Node × Reader) :=
  match fuel with
  | 0 => .error .unexpectedToken
  | fuel + 1 =>
    let stops (t : Token) : Bool := t == .flowEntry || t == .flowSequenceEnd
    let isPair : Bool := r.peek == .key || (r.version == .v12 && r.peek == .value)
    if isPair then do
      let r := if r.peek == .key then r.skip else r
      if r.version == .v11 && (stops r.peek || r.peek == .value) then
        pure (.mapping none [(.empty, .empty)], r.skip)
      else
        let (key, r) ← nodeUnless fuel .flow (fun t => stops t || t == .value) r
        let (value, r) ← valueAfter fuel .flow stops r
        pure (.mapping none [(key, value)], r)
    else node fuel .flow r

def flowEntries (fuel : Nat) (first : Bool) (r : Reader) :
    Except Problem (List (Node × Node) × Reader) :=
  match fuel with
  | 0 => .error .unexpectedToken
  | fuel + 1 =>
    match r.peek with
    | .flowMappingEnd => .ok ([], r.skip)
    | t => do
      if !first && t ≠ .flowEntry then .error .unexpectedToken
      let r := if first then r else r.skip
      match r.peek with
      | .flowMappingEnd => pure ([], r.skip)
      | _ =>
        let (entry, r) ← flowPair fuel r
        let (entries, r) ← flowEntries fuel false r
        pure (entry :: entries, r)

def flowPair (fuel : Nat) (r : Reader) : Except Problem ((Node × Node) × Reader) :=
  match fuel with
  | 0 => .error .unexpectedToken
  | fuel + 1 =>
    let stops (t : Token) : Bool := t == .flowEntry || t == .flowMappingEnd
    match r.peek with
    | .key => do
      let (key, r) ← nodeUnless fuel .flow (fun t => stops t || t == .value) r.skip
      let (value, r) ← valueAfter fuel .flow stops r
      pure ((key, value), r)
    | .value =>
      match r.version with
      | .v11 => .error .unexpectedToken
      | .v12 => do
        let (value, r) ← valueAfter fuel .flow stops r
        pure ((.empty, value), r)
    | _ => do
      let (key, r) ← node fuel .flow r
      pure ((key, .empty), r)

end

def directives : Nat → Bool → Reader → Except Problem Reader
  | 0, _, r => .ok r
  | n + 1, seen, r =>
    match r.peek with
    | .version major minor =>
      if seen || (r.version == .v11 && !(major = 1 && (minor = 1 || minor = 2))) then
        .error .directive
      else directives n true r.skip
    | .handle name lead =>
      if (r.handles.lookup name).isSome then .error .directive
      else directives n seen { r.skip with handles := (name, lead) :: r.handles }
    | _ => .ok r

def skipEnds : List Token → List Token
  | .documentEnd :: rest => skipEnds rest
  | tokens => tokens

def atEnd (r : Reader) : Bool := skipEnds r.tokens == [.streamEnd]

def explicitDocument (r : Reader) : Except Problem (Node × Reader) := do
  let r ← directives r.tokens.length false r
  if r.peek ≠ .documentStart then .error .unexpectedToken
  let r := r.skip
  match r.peek with
  | .version _ _ | .handle _ _ | .documentStart | .documentEnd | .streamEnd => pure (.empty, r)
  | _ => node (10 * r.tokens.length + 10) { block := true } r

def document (r : Reader) : Except Problem (Node × Reader) :=
  match r.peek with
  | .version _ _ | .handle _ _ | .documentStart => explicitDocument r
  | _ => node (10 * r.tokens.length + 10) { block := true } r

end Reader

def Document.ofTokens (v : Version) (tokens : List Token) : Except Problem (Option Document) := do
  let tokens := match v with
    | .v11 => tokens
    | .v12 => Reader.skipEnds tokens
  if tokens == [.streamEnd] then return none
  let (root, r) ← Reader.document { version := v, tokens := tokens }
  if r.atEnd then return some ⟨root, r.anchors⟩
  else if r.peek == .documentStart || r.peek == .documentEnd then throw .manyDocuments
  else throw .unexpectedToken

def Document.parse (v : Version) (text : String) : Except Problem (Option Document) := do
  Document.ofTokens v (← Token.scan v text)

end Throttle.Yaml
