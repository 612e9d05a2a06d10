import Throttle.Yaml.Cursor
import Throttle.Yaml.Scalar

/-!
# Tags, anchors and directives

The parts of a text that name something: tags with their handles, anchors and
aliases, and the directives in front of a document.
-/

namespace Throttle.Yaml

def octet? : List Char → Option Nat
  | '%' :: rest => Scalar.hexNumber? 2 rest
  | _ => none

def octetCount? (n : Nat) : Option Nat :=
  if n < 0x80 then some 1
  else if n / 0x20 = 6 then some 2
  else if n / 0x10 = 14 then some 3
  else if n / 8 = 30 then some 4
  else none

def octets? : Nat → List Char → Option (List UInt8)
  | 0, _ => some []
  | n + 1, s => do
    let first ← octet? s
    let rest ← octets? n (s.drop 3)
    pure (UInt8.ofNat first :: rest)

def uriEscape? (s : List Char) : Option (List Char × Nat) := do
  let first ← octet? s
  let count ← octetCount? first
  let bytes ← octets? count s
  let text ← String.fromUTF8? ⟨bytes.toArray⟩
  pure (text.toList, 3 * count)

def tagText (v : Version) (verbatim : Bool) :
    Nat → List Char → Cursor → Except Problem (List Char × Cursor)
  | 0, acc, c => .ok (acc, c)
  | n + 1, acc, c =>
    match c.rest with
    | [] => .ok (acc, c)
    | d :: _ =>
      if !v.isTag verbatim d || (v == .v12 && !verbatim && d == '!') then .ok (acc, c)
      else if d == '%' then
        match uriEscape? c.rest with
        | some (text, length) => tagText v verbatim n (acc ++ text) (c.skip length)
        | none => .error .tag
      else tagText v verbatim n (acc ++ [d]) (c.skip 1)

def tagHandle (c : Cursor) : Except Problem (List Char × Cursor) :=
  match c.rest with
  | '!' :: _ =>
    let (word, c) := (c.skip 1).takeWhile isWord
    match c.rest with
    | '!' :: _ => .ok ('!' :: word ++ ['!'], c.skip 1)
    | _ => .ok ('!' :: word, c)
  | _ => .error .tag

def isHandle (s : List Char) : Bool := 2 ≤ s.length && s.getLast? == some '!'

def tagSuffix (v : Version) (head : List Char) (c : Cursor) :
    Except Problem (String × Cursor) := do
  let (text, next) ← tagText v false c.rest.length [] c
  if head = [] && next.index = c.index then .error .tag
  else pure (String.ofList (head.drop 1 ++ text), next)

def scanTag (v : Version) (inFlow : Bool) (c : Cursor) : Except Problem (Token × Cursor) := do
  let (token, c) ←
    if (c.rest.drop 1).head? == some '<' then do
      let start := c.skip 2
      let (text, c) ← tagText v true start.rest.length [] start
      if text = [] || c.next? ≠ some '>' then .error .tag
      else pure (Token.tag "" (String.ofList text), c.skip 1)
    else do
      let (head, c) ← tagHandle c
      if isHandle head then do
        let (suffix, c) ← tagSuffix v [] c
        pure (.tag (String.ofList head) suffix, c)
      else do
        let (suffix, c) ← tagSuffix v head c
        pure (if suffix = "" then .tag "" "!" else .tag "!" suffix, c)
  let closed := match v with
    | .v11 => c.next? == some ','
    | .v12 => c.next?.any isFlow
  if v.endsWord c.rest || (inFlow && closed) then pure (token, c) else .error .tag

def scanName (v : Version) (c : Cursor) : Except Problem (String × Cursor) :=
  let (name, c) := (c.skip 1).takeWhile v.isAnchor
  if name = [] || !v.followsAnchor c.rest then .error .anchor else .ok (String.ofList name, c)

def scanNumber (c : Cursor) : Except Problem (Nat × Cursor) :=
  let (digits, c) := c.takeWhile Char.isDigit
  match natOf? 10 digits with
  | some n => if digits.length ≤ 9 then .ok (n, c) else .error .directive
  | none => .error .directive

def scanVersionDirective (c : Cursor) : Except Problem (Token × Cursor) := do
  let (major, c) ← scanNumber c.skipBlanks
  if c.next? ≠ some '.' then .error .directive
  let (minor, c) ← scanNumber (c.skip 1)
  pure (.version major minor, c)

def scanHandleDirective (v : Version) (c : Cursor) : Except Problem (Token × Cursor) := do
  let (name, c) ← tagHandle c.skipBlanks
  if !isHandle name && name ≠ ['!'] then .error .directive
  if !c.next?.any isBlank then .error .directive
  let start := c.skipBlanks
  let (lead, c) ← tagText v true start.rest.length [] start
  if lead = [] || !v.endsWord c.rest then .error .directive
  pure (.handle (String.ofList name) (String.ofList lead), c)

/-- A directive with its percent sign at the cursor, to the end of its line. The
second version takes a directive that it does not know for one without a name. -/
def scanDirective (v : Version) (c : Cursor) : Except Problem (Token × Cursor) := do
  let (name, c) := (c.skip 1).takeWhile isWord
  if name = [] || !v.endsWord c.rest then .error .directive
  let (token, c) ←
    if name = ['Y', 'A', 'M', 'L'] then scanVersionDirective c
    else if name = ['T', 'A', 'G'] then scanHandleDirective v c
    else match v with
      | .v11 => .error .directive
      | .v12 => pure (.handle "" "", c.skipLine v)
  if v == .v12 && c.next? == some '#' then .error .comment
  let c := c.skipBlanks
  let c := if c.next? == some '#' then c.skipLine v else c
  if v.endsLine c.rest then pure (token, c.skipBreak v) else .error .directive

end Throttle.Yaml
