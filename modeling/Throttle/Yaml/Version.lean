/-!
# Versions of YAML

The two versions differ in what ends a line, in which characters may stand in a
text, and in how strictly flow collections, comments and tabs are laid out. Every
rule that the versions do not share is named here or takes the version as an
argument.
-/

namespace Throttle.Yaml

inductive Version
  | v11
  | v12
  deriving DecidableEq, Repr

inductive Problem
  | unprintable (c : Char)
  | unexpected (c : Char)
  | tab
  | indentation
  | comment
  | missingColon
  | misplacedEntry
  | misplacedKey
  | misplacedValue
  | nesting
  | directive
  | anchor
  | tag
  | escape
  | blockHeader
  | unterminated
  | trailing
  | unknownHandle
  | unknownAlias
  | duplicateKey
  | manyDocuments
  | unexpectedToken
  deriving DecidableEq, Repr

def isBlank (c : Char) : Bool := c == ' ' || c == '\t'

def isFlow (c : Char) : Bool := c == ',' || c == '[' || c == ']' || c == '\x7b' || c == '\x7d'

def isWord (c : Char) : Bool := c.isAlphanum || c == '_' || c == '-'

namespace Version

/-- The first version also ends lines at the next-line character and the two
Unicode separators. -/
def isBreak (v : Version) (c : Char) : Bool :=
  c == '\n' || c == '\r' ||
    (v == v11 && (c == '\u0085' || c == '\u2028' || c == '\u2029'))

def endsWord (v : Version) : List Char → Bool
  | [] => true
  | c :: _ => isBlank c || v.isBreak c

def endsLine (v : Version) : List Char → Bool
  | [] => true
  | c :: _ => v.isBreak c

def breakLength : List Char → Nat
  | '\r' :: '\n' :: _ => 2
  | _ => 1

def breakText (c : Char) : Char := if c == '\u2028' || c == '\u2029' then c else '\n'

def isPrintable (c : Char) : Bool :=
  let n := c.toNat
  n == 0x09 || n == 0x0a || n == 0x0d || (0x20 ≤ n && n ≤ 0x7e) || n == 0x85 ||
    (0xa0 ≤ n && n ≤ 0xfffd) || 0x10000 ≤ n

/-- The characters that are read. The first version refuses a text with an unprintable
character in it, and for the second the text ends at a null character. -/
def readable (v : Version) (text : List Char) : Except Problem (List Char) :=
  match v with
  | v11 => match text.find? (!isPrintable ·) with
    | some c => .error (.unprintable c)
    | none => .ok text
  | v12 => .ok (text.takeWhile (· != '\x00'))

def isAnchor (v : Version) (c : Char) : Bool :=
  match v with
  | v11 => isWord c
  | v12 => !(isBlank c || v.isBreak c || isFlow c || c == '\ufeff')

def followsAnchor (v : Version) (s : List Char) : Bool :=
  v == v12 || v.endsWord s ||
    match s with
    | c :: _ => c ∈ ['?', ':', ',', ']', '\x7d', '%', '@', '`']
    | [] => true

def isTag (v : Version) (verbatim : Bool) (c : Char) : Bool :=
  isWord c || c ∈ [';', '/', '?', ':', '@', '&', '=', '+', '$', '.', '%', '!', '~', '*', '\'',
    '(', ')'] || (verbatim && c ∈ [',', '[', ']']) || (v == v12 && c == '#')

end Version
end Throttle.Yaml
