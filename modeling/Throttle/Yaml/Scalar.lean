import Throttle.Number.Int64
import Throttle.Yaml.Cursor
import Throttle.Yaml.Node

/-!
# Scalars

How scalars are read. Blanks and line breaks inside plain and quoted scalars are
gathered into gaps: a gap without a break stands for itself, a single break for a
space, and more breaks for all but the first of them. Block scalars keep their lines
or fold them by the same rule.
-/

namespace Throttle.Yaml

structure Gap where
  blanks : List Char := []
  broken : Bool := false
  first : List Char := []
  more : List Char := []

namespace Gap

def text (g : Gap) : List Char :=
  if g.broken then
    if g.first = ['\n'] then (if g.more = [] then [' '] else g.more) else g.first ++ g.more
  else g.blanks

def addBreak (g : Gap) (b : Char) : Gap :=
  if g.broken then { g with more := g.more ++ [Version.breakText b] }
  else { g with blanks := [], broken := true, first := [Version.breakText b] }

def read (v : Version) (noTab : Cursor → Bool) :
    Nat → Gap → Cursor → Except Problem (Gap × Cursor)
  | 0, g, c => .ok (g, c)
  | n + 1, g, c =>
    match c.rest with
    | [] => .ok (g, c)
    | b :: _ =>
      if isBlank b then
        if g.broken then
          if b == '\t' && noTab c then .error .tab else read v noTab n g (c.skip 1)
        else read v noTab n { g with blanks := g.blanks ++ [b] } (c.skip 1)
      else if v.isBreak b then read v noTab n (g.addBreak b) c.newline
      else .ok (g, c)

end Gap

namespace Scalar

structure Read where
  text : List Char
  cursor : Cursor
  broken : Bool := false

def plainWord (v : Version) (flow : Bool) : List Char → Except Problem (List Char)
  | [] => .ok []
  | c :: rest =>
    if isBlank c || v.isBreak c then .ok []
    else if v == .v11 && flow && c == ':' && rest.head?.any (fun d => isFlow d || d == '?') then
      .error (.unexpected ':')
    else if c == ':' && (v.endsWord rest || (flow && rest.head?.any isFlow)) then .ok []
    else if flow && isFlow c then .ok []
    else (plainWord v flow rest).map (c :: ·)

def tabInIndent (v : Version) (indent : Int) (c : Cursor) : Bool :=
  c.column < indent && !(v == .v12 && c.atLineEnd v)

def plainFrom (v : Version) (indent : Int) (flow : Bool) :
    Nat → List Char → Gap → Cursor → Except Problem Read
  | 0, text, gap, c => .ok ⟨text, c, gap.broken⟩
  | n + 1, text, gap, c =>
    if c.atDocument v || c.next? == some '#' then .ok ⟨text, c, gap.broken⟩
    else if v == .v12 && flow && c.next? == some '-' && (c.rest.drop 1).head?.any isFlow then
      .error (.unexpected '-')
    else do
      let word ← plainWord v flow c.rest
      let c := c.skip word.length
      let text := if word = [] then text else text ++ gap.text ++ word
      let gap := if word = [] then gap else {}
      if v.endsWord c.rest && c.rest ≠ [] then
        let (gap, c) ← Gap.read v (tabInIndent v indent) c.rest.length gap c
        if !flow && c.column < indent then .ok ⟨text, c, gap.broken⟩
        else plainFrom v indent flow n text gap c
      else .ok ⟨text, c, gap.broken⟩

def plain (v : Version) (indent : Int) (flow : Bool) (c : Cursor) : Except Problem Read :=
  plainFrom v indent flow (c.rest.length + 1) [] {} c

def hexNumber? (n : Nat) (s : List Char) : Option Nat :=
  if s.length < n then none else natOf? 16 (s.take n)

def codePoint? (n : Nat) (s : List Char) : Option (Char × Nat) := do
  let value ← hexNumber? n s
  if value.isValidChar then some (Char.ofNat value, n + 1) else none

def escape? : List Char → Option (Char × Nat)
  | '0' :: _ => some ('\x00', 1)
  | 'a' :: _ => some ('\x07', 1)
  | 'b' :: _ => some ('\x08', 1)
  | 't' :: _ | '\t' :: _ => some ('\t', 1)
  | 'n' :: _ => some ('\n', 1)
  | 'v' :: _ => some ('\x0b', 1)
  | 'f' :: _ => some ('\x0c', 1)
  | 'r' :: _ => some ('\r', 1)
  | 'e' :: _ => some ('\x1b', 1)
  | ' ' :: _ => some (' ', 1)
  | '"' :: _ => some ('"', 1)
  | '/' :: _ => some ('/', 1)
  | '\\' :: _ => some ('\\', 1)
  | 'N' :: _ => some ('\u0085', 1)
  | '_' :: _ => some ('\u00a0', 1)
  | 'L' :: _ => some ('\u2028', 1)
  | 'P' :: _ => some ('\u2029', 1)
  | 'x' :: s => codePoint? 2 s
  | 'u' :: s => codePoint? 4 s
  | 'U' :: s => codePoint? 8 s
  | _ => none

def quotedWord (v : Version) (quote : Char) :
    Nat → List Char → Cursor → Except Problem (List Char × Gap × Cursor)
  | 0, acc, c => .ok (acc, {}, c)
  | n + 1, acc, c =>
    match c.rest with
    | [] => .ok (acc, {}, c)
    | d :: rest =>
      if isBlank d || v.isBreak d then .ok (acc, {}, c)
      else if d == quote then
        if quote == '\'' && rest.head? == some quote then quotedWord v quote n (d :: acc) (c.skip 2)
        else .ok (acc, {}, c)
      else if quote == '"' && d == '\\' then
        if rest.head?.any v.isBreak then .ok (acc, { broken := true }, (c.skip 1).newline)
        else match escape? rest with
          | some (e, length) => quotedWord v quote n (e :: acc) (c.skip (1 + length))
          | none => .error .escape
      else quotedWord v quote n (d :: acc) (c.skip 1)

def quotedFrom (v : Version) (indent : Int) (quote : Char) :
    Nat → List Char → Cursor → Except Problem Read
  | 0, _, _ => .error .unterminated
  | n + 1, text, c =>
    if c.atDocument v || c.rest = [] then .error .unterminated
    else if c.column < indent then .error .indentation
    else do
      let (word, gap, c) ← quotedWord v quote c.rest.length [] c
      let text := text ++ word.reverse
      if c.next? == some quote then .ok ⟨text, c.skip 1, false⟩
      else
        let (gap, c) ← Gap.read v (fun c => c.column < indent) c.rest.length gap c
        quotedFrom v indent quote n (text ++ gap.text) c

def quoted (v : Version) (indent : Int) (quote : Char) (c : Cursor) : Except Problem Read :=
  quotedFrom v indent quote (c.rest.length + 1) [] (c.skip 1)

inductive Chomping
  | strip
  | clip
  | keep
  deriving DecidableEq, Repr

structure BlockHeader where
  chomping : Chomping := .clip
  increment : Nat := 0

def chomping? : Char → Option Chomping
  | '+' => some .keep
  | '-' => some .strip
  | _ => none

def BlockHeader.read (c : Cursor) : Except Problem (BlockHeader × Cursor) :=
  let digit (h : BlockHeader) (c : Cursor) : Except Problem (BlockHeader × Cursor) :=
    match c.rest with
    | d :: _ =>
      if d == '0' then .error .blockHeader
      else if d.isDigit then .ok ({ h with increment := d.toNat - 48 }, c.skip 1)
      else .ok (h, c)
    | [] => .ok (h, c)
  let sign (h : BlockHeader) (c : Cursor) : Option (BlockHeader × Cursor) :=
    (c.next?.bind chomping?).map fun k => ({ h with chomping := k }, c.skip 1)
  match sign {} c with
  | some (h, c) => digit h c
  | none => do
    let (h, c) ← digit {} c
    pure (if h.increment = 0 then (h, c) else (sign h c).getD (h, c))

/-- Skips indentation and empty lines up to the next line with content, collecting
their breaks. Returns the deepest indentation that was seen. A tab is content in the
second version and an error in the indentation of the first. -/
def blockBreaks (v : Version) (indent : Nat) :
    Nat → Nat → List Char → Cursor → Except Problem (Nat × List Char × Cursor)
  | 0, deepest, breaks, c => .ok (deepest, breaks, c)
  | n + 1, deepest, breaks, c =>
    match c.rest with
    | [] => .ok (max deepest c.column, breaks, c)
    | d :: _ =>
      let inside : Bool := indent = 0 || c.column < indent
      if d == ' ' && inside then blockBreaks v indent n deepest breaks (c.skip 1)
      else if d == '\t' && inside && v == .v11 then .error .tab
      else if v.isBreak d then
        blockBreaks v indent n (max deepest c.column) (breaks ++ [Version.breakText d]) c.newline
      else .ok (max deepest c.column, breaks, c)

structure BlockState where
  text : List Char := []
  last : List Char := []
  breaks : List Char := []
  blank : Bool := false

def blockLines (v : Version) (folded : Bool) (indent : Nat) :
    Nat → BlockState → Cursor → Except Problem (BlockState × Cursor)
  | 0, s, c => .ok (s, c)
  | n + 1, s, c =>
    if c.column = indent && c.rest ≠ [] then do
      let blank := c.next?.any isBlank
      let joined :=
        if folded && s.last == ['\n'] && !s.blank && !blank then
          if s.breaks = [] then [' '] else s.breaks
        else s.last ++ s.breaks
      let (line, c) := c.takeWhile (!v.isBreak ·)
      let last := c.next?.toList.map Version.breakText
      let (_, breaks, c) ← blockBreaks v indent (c.rest.length + 1) 0 [] (c.skipBreak v)
      blockLines v folded indent n ⟨s.text ++ joined ++ line, last, breaks, blank⟩ c
    else .ok (s, c)

/-- The end of a text that stops at the end of the stream. The second version ends its
last line even where the break is missing, and a text without any content is the break
after its header. -/
def lastBreak (v : Version) (h : BlockHeader) (indent : Nat) (s : BlockState) (c : Cursor) :
    List Char :=
  let added := if v == .v12 && c.rest = [] && max indent 1 ≤ c.column then ['\n'] else []
  match h.chomping with
  | .strip => []
  | .clip => s.last ++ added
  | .keep => s.last ++ added ++ s.breaks

def emptyBlock (h : BlockHeader) (broken : Bool) (breaks : List Char) : List Char :=
  if h.chomping = .strip || !broken then []
  else if h.chomping = .keep && breaks ≠ [] then breaks
  else ['\n']

def afterHeader (v : Version) (c : Cursor) : Except Problem Cursor :=
  if v == .v12 && c.next? == some '#' then .error .comment
  else
    let c := c.skipBlanks
    let c := if c.next? == some '#' then c.skipLine v else c
    if v.endsLine c.rest then .ok (c.skipBreak v) else .error .blockHeader

def block (v : Version) (parent : Int) (folded : Bool) (c : Cursor) : Except Problem Read := do
  let (h, header) ← BlockHeader.read (c.skip 1)
  let first ← afterHeader v header
  if v == .v12 && first.next? == some '\t' then throw .tab
  let given := if h.increment = 0 then 0 else (max parent 0).toNat + h.increment
  let (deepest, breaks, c) ← blockBreaks v given (first.rest.length + 1) 0 [] first
  if v == .v12 && c.rest = [] then
    return ⟨emptyBlock h (header.line < first.line) breaks, c, false⟩
  let indent := if given = 0 then max (max deepest (parent + 1).toNat) 1 else given
  let (s, c) ← blockLines v folded indent (c.rest.length + 1) { breaks := breaks } c
  return ⟨s.text ++ lastBreak v h indent s c, c, false⟩

end Scalar
end Throttle.Yaml
