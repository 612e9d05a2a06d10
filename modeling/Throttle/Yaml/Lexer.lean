import Throttle.Yaml.Tag

/-!
# Lexers

A lexer cuts a text into tokens. A simple key is recognised only at the colon that
follows it, so the place of every text that may turn out to be one is remembered for
each level of flow collections, and the tokens of the key are put there afterwards.

The second version lays texts out more strictly. What belongs to an entry of a block
collection is deeper than the collection, which is kept as a level of its own until a
plain or a block scalar settles where the entry stands.
-/

namespace Throttle.Yaml

structure Candidate where
  place : Nat
  required : Bool
  start : Cursor

/-- A level of indentation. A block collection is open at it, unless it only says how
deep the parts of an entry have to be. -/
structure Level where
  column : Int
  isOpen : Bool := true

def Level.outermost : Level := { column := -1 }

structure Lexer where
  version : Version
  cursor : Cursor
  tokens : Array Token := #[]
  levels : List Level := [.outermost]
  keyAllowed : Bool := true
  candidates : List (Option Candidate) := [none]
  adjacent : Option Nat := none

namespace Lexer

abbrev Step := Except Problem Lexer

def inFlow (x : Lexer) : Bool := 1 < x.candidates.length

def level (x : Lexer) : Level := x.levels.headD .outermost

def indent (x : Lexer) : Int := x.level.column

def inBlock (x : Lexer) : Bool := 1 < x.levels.length

def push (x : Lexer) (t : Token) : Lexer := { x with tokens := x.tokens.push t }

def moveTo (x : Lexer) (c : Cursor) : Lexer := { x with cursor := c }

def skip (x : Lexer) (n : Nat) : Lexer := x.moveTo (x.cursor.skip n)

def allowKey (x : Lexer) (allowed : Bool) : Lexer := { x with keyAllowed := allowed }

def put (x : Lexer) (place : Nat) (t : Token) : Lexer :=
  { x with tokens := x.tokens.take place ++ #[t] ++ x.tokens.drop place }

/-- Forgets the candidates that can be no keys any more: those that are too long or
on an earlier line. In flow collections the second version has no such limit. -/
def expire (x : Lexer) : Step := do
  if x.version == .v12 && x.inFlow then return x
  let candidates ← x.candidates.mapM fun
    | some k =>
      if k.start.line < x.cursor.line || k.start.index + 1024 < x.cursor.index then
        if k.required then .error .missingColon else .ok none
      else .ok (some k)
    | none => .ok none
  return { x with candidates := candidates }

def setCandidate (x : Lexer) (k : Option Candidate) : Lexer :=
  { x with candidates := k :: x.candidates.drop 1 }

def candidate? (x : Lexer) : Option Candidate := x.candidates.head?.join

def dropKey (x : Lexer) : Step :=
  if x.candidate?.any (·.required) then .error .missingColon else .ok (x.setCandidate none)

def saveKey (x : Lexer) : Step :=
  if x.keyAllowed then do
    let x ← x.dropKey
    pure (x.setCandidate (some {
      place := x.tokens.size
      required := !x.inFlow && x.level.isOpen && x.indent == (x.cursor.column : Int)
      start := x.cursor }))
  else .ok x

def settle (x : Lexer) : Lexer := { x with levels := x.levels.dropWhile (!·.isOpen) }

def deepen (x : Lexer) : Lexer :=
  if x.version == .v12 && x.inBlock && !x.inFlow && x.level.isOpen then
    { x with levels := { column := x.indent + 1, isOpen := false } :: x.levels }
  else x

def roll (x : Lexer) (column place : Nat) (t : Token) : Lexer :=
  if !x.inFlow && x.settle.indent < column then
    { x.settle.put place t with levels := { column := column } :: x.settle.levels }
  else x

def unroll (x : Lexer) (column : Int) : Lexer :=
  if x.inFlow then x
  else
    let closed := (x.levels.takeWhile (column < ·.column)).countP (·.isOpen)
    { x with
      tokens := x.tokens ++ (Array.replicate closed Token.blockEnd)
      levels := x.levels.dropWhile (column < ·.column) }

def refusesTab (x : Lexer) : Bool :=
  x.inBlock && x.cursor.leading && (x.cursor.column : Int) < x.indent &&
    !x.cursor.atLineEnd x.version

def toNext : Nat → Lexer → Step
  | 0, x => .ok x
  | n + 1, x =>
    match x.cursor.rest with
    | [] => .ok x
    | d :: _ =>
      if d == ' ' then toNext n (x.skip 1)
      else if d == '\ufeff' && x.version == .v11 && x.cursor.column = 0 then toNext n (x.skip 1)
      else if d == '\t' then
        match x.version with
        | .v11 => if x.inFlow || !x.keyAllowed then toNext n (x.skip 1) else .ok x
        | .v12 => if x.refusesTab then .error .tab else toNext n (x.skip 1)
      else if d == '#' then
        if x.version == .v12 && !x.cursor.spaced then .error .comment
        else toNext n (x.moveTo (x.cursor.skipLine x.version))
      else if x.version.isBreak d then
        let x := x.moveTo x.cursor.newline
        toNext n (if x.inFlow then x else x.allowKey true)
      else .ok x

def toNextToken (x : Lexer) : Step := toNext (x.cursor.rest.length + 1) x

def streamEnd (x : Lexer) : Step := do
  let x ← (x.unroll (-1)).dropKey
  pure ((x.allowKey false).push .streamEnd)

def directive (x : Lexer) : Step := do
  let x ← (x.unroll (-1)).dropKey
  let (t, c) ← scanDirective x.version x.cursor
  pure (((x.allowKey false).push t).moveTo c)

def documentMark (x : Lexer) (t : Token) : Step := do
  let x ← (x.unroll (-1)).dropKey
  pure (((x.allowKey false).push t).skip 3)

def deepestFlow : Nat := 255

def flowStart (x : Lexer) (t : Token) : Step := do
  let x := (← x.saveKey).deepen
  if x.version == .v12 && deepestFlow < x.candidates.length then .error .nesting
  let x := { x with candidates := none :: x.candidates }
  pure (((x.allowKey true).push t).skip 1)

def flowEnd (x : Lexer) (t : Token) : Step := do
  let x ← x.dropKey
  let x := if x.inFlow then { x with candidates := x.candidates.drop 1 } else x
  let x := ((x.allowKey false).push t).skip 1
  pure { x with adjacent := some x.cursor.skipBlanks.index }

def flowEntry (x : Lexer) : Step := do
  let x ← x.dropKey
  pure (((x.allowKey true).push .flowEntry).skip 1)

def tabAfterDash (x : Lexer) : Bool :=
  let rest := x.cursor.rest.drop 1
  let blanks := rest.takeWhile isBlank
  x.version == .v12 && blanks.contains '\t' &&
    match rest.drop blanks.length with
    | '-' :: rest => x.version.endsWord rest
    | _ => false

def entryOpens (x : Lexer) : Bool :=
  ((x.cursor.rest.drop 1).dropWhile isBlank).head?.any fun d =>
    x.version.isBreak d || d == '#' || isFlow d

def blockEntry (x : Lexer) : Step := do
  if x.inFlow && x.version == .v12 then .error .misplacedEntry
  if !x.inFlow && !x.keyAllowed then .error .misplacedEntry
  if x.tabAfterDash then .error .tab
  let next := x.roll x.cursor.column x.tokens.size .blockSequenceStart
  let next ← (if x.entryOpens then next.deepen else next).dropKey
  pure (((next.allowKey true).push .blockEntry).skip 1)

def pastSpace (v : Version) (inComment : Bool) : List Char → List Char
  | [] => []
  | d :: rest =>
    if v.isBreak d then pastSpace v false rest
    else if inComment || d == '#' then pastSpace v true rest
    else if d == ' ' then pastSpace v false rest
    else d :: rest

def spacedKey (x : Lexer) : Bool :=
  let rest := x.cursor.rest.drop 1
  x.version == .v11 ||
    (rest ≠ [] && rest.head? ≠ some '\t' &&
      (pastSpace x.version false rest).head? ≠ some '\t')

def key (x : Lexer) : Step := do
  if !x.inFlow && !x.keyAllowed then .error .misplacedKey
  if !x.spacedKey then .error .tab
  let x ← (x.roll x.cursor.column x.tokens.size .blockMappingStart).dropKey
  pure (((x.allowKey (!x.inFlow)).push .key).skip 1)

def tabAfterColon (x : Lexer) : Bool :=
  let rest := x.cursor.rest.drop 1
  let blanks := rest.takeWhile isBlank
  x.version == .v12 && rest.head? == some '\t' && !blanks.contains ' ' &&
    (rest.drop blanks.length).head?.any isWord

def value (x : Lexer) : Step := do
  if x.tabAfterColon then .error .tab
  match x.candidate? with
  | some k =>
    let x := ((x.put k.place .key).roll k.start.column k.place .blockMappingStart).deepen
    pure ((((x.setCandidate none).allowKey false).push .value).skip 1)
  | none =>
    if !x.inFlow && !x.keyAllowed then .error .misplacedValue
    let x := (x.roll x.cursor.column x.tokens.size .blockMappingStart).deepen
    pure (((x.allowKey (!x.inFlow)).push .value).skip 1)

def named (x : Lexer) (t : String → Token) : Step := do
  let x ← x.saveKey
  let (name, c) ← scanName x.version x.cursor
  pure (((x.allowKey false).push (t name)).moveTo c)

def tag (x : Lexer) : Step := do
  let x ← x.saveKey
  let (t, c) ← scanTag x.version x.inFlow x.cursor
  pure (((x.allowKey false).push t).moveTo c)

def blockScalar (x : Lexer) (style : Style) : Step := do
  let x := (← x.dropKey).settle
  let r ← Scalar.block x.version x.indent (style == .folded) x.cursor
  pure (((x.allowKey true).push (.scalar style (String.ofList r.text))).moveTo r.cursor)

def followsQuoted (x : Lexer) (line : Nat) (c : Cursor) : Bool :=
  c.atLineEnd x.version ||
    match c.skipBlanks.next? with
    | some ':' => x.inFlow || line = c.line
    | some d => x.inFlow && (d == ',' || d == ']' || d == '\x7d')
    | none => true

def quotedScalar (x : Lexer) (quote : Char) (style : Style) : Step := do
  let x ← x.saveKey
  let indent := match x.version with
    | .v11 => 0
    | .v12 => x.indent
  let r ← Scalar.quoted x.version indent quote x.cursor
  let next := ((x.allowKey false).push (.scalar style (String.ofList r.text))).moveTo r.cursor
  match x.version with
  | .v11 => pure next
  | .v12 =>
    if x.followsQuoted x.cursor.line r.cursor then
      let next ← next.toNextToken
      pure { next with adjacent := some next.cursor.index }
    else .error .trailing

def plainScalar (x : Lexer) : Step := do
  let x := (← x.saveKey).settle
  if x.version == .v12 && x.inFlow && (x.cursor.column : Int) ≤ x.indent then .error .indentation
  let r ← Scalar.plain x.version (x.indent + 1) x.inFlow x.cursor
  pure (((x.allowKey r.broken).push (.scalar .plain (String.ofList r.text))).moveTo r.cursor)

def isIndicator (x : Lexer) (d : Char) (rest : List Char) : Bool :=
  x.version.endsWord rest ||
    match x.version with
    | .v11 => x.inFlow
    | .v12 => x.inFlow && d == ':' &&
      (rest.head?.any isFlow || x.adjacent == some x.cursor.index)

def startsPlain (x : Lexer) (d : Char) (rest : List Char) : Bool :=
  let indicators : List Char :=
    ['-', '?', ':', ',', '[', ']', '\x7b', '\x7d', '#', '&', '*', '!', '|', '>', '\'', '"', '%',
      '@', '`']
  !indicators.contains d || (d == '-' && !rest.head?.any isBlank) ||
    ((d == '?' || d == ':') && (x.version == .v12 || !x.inFlow) && !x.version.endsWord rest) ||
    (x.version == .v12 && (d == '|' || d == '>'))

def dispatch (x : Lexer) (d : Char) (rest : List Char) : Step :=
  match d with
  | '[' => x.flowStart .flowSequenceStart
  | '\x7b' => x.flowStart .flowMappingStart
  | ']' => x.flowEnd .flowSequenceEnd
  | '\x7d' => x.flowEnd .flowMappingEnd
  | ',' => x.flowEntry
  | '*' => x.named .reference
  | '&' => x.named .anchor
  | '!' => x.tag
  | '\'' => x.quotedScalar d .singleQuoted
  | '"' => x.quotedScalar d .doubleQuoted
  | d =>
    if d == '-' && x.version.endsWord rest then x.blockEntry
    else if d == '?' && x.isIndicator d rest then x.key
    else if d == ':' && x.isIndicator d rest then x.value
    else if d == '|' && !x.inFlow then x.blockScalar .literal
    else if d == '>' && !x.inFlow then x.blockScalar .folded
    else if x.startsPlain d rest && !isBlank d then x.plainScalar
    else .error (.unexpected d)

def step (x : Lexer) : Step := do
  let x ← (← x.toNextToken).expire
  let x := x.unroll x.cursor.column
  match x.cursor.rest with
  | [] => x.streamEnd
  | d :: rest =>
    if x.cursor.column = 0 && d == '%' then x.directive
    else if x.cursor.atMark x.version '-' then x.documentMark .documentStart
    else if x.cursor.atMark x.version '.' then x.documentMark .documentEnd
    else if x.version == .v12 && (x.cursor.column : Int) < x.indent then .error .indentation
    else x.dispatch d rest

def run : Nat → Lexer → Except Problem (List Token)
  | 0, x => .ok x.tokens.toList
  | n + 1, x => do
    let x ← x.step
    if x.tokens.back? == some .streamEnd then pure x.tokens.toList else run n x

end Lexer

def Token.scan (v : Version) (text : String) : Except Problem (List Token) := do
  let s ← v.readable text.toList
  Lexer.run (s.length + 2) { version := v, cursor := { rest := s } }

end Throttle.Yaml
