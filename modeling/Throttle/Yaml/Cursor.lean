import Throttle.Yaml.Version

/-!
# Cursors

A place in a text: the characters that are left and how far the place is from the
start of the text and of its line.
-/

namespace Throttle.Yaml

structure Cursor where
  rest : List Char
  index : Nat := 0
  line : Nat := 0
  column : Nat := 0
  spaced : Bool := true
  leading : Bool := true

namespace Cursor

def skip (c : Cursor) (n : Nat) : Cursor :=
  { c with
    rest := c.rest.drop n
    index := c.index + n
    column := c.column + n
    spaced := match (c.rest.take n).getLast? with
      | some last => isBlank last
      | none => c.spaced
    leading := c.leading && (c.rest.take n).all isBlank }

def newline (c : Cursor) : Cursor :=
  let n := Version.breakLength c.rest
  { rest := c.rest.drop n, index := c.index + n, line := c.line + 1, column := 0 }

def takeWhile (c : Cursor) (p : Char → Bool) : List Char × Cursor :=
  let s := c.rest.takeWhile p
  (s, c.skip s.length)

def skipWhile (c : Cursor) (p : Char → Bool) : Cursor := (c.takeWhile p).2

def skipBlanks (c : Cursor) : Cursor := c.skipWhile isBlank

def skipLine (c : Cursor) (v : Version) : Cursor := c.skipWhile (!v.isBreak ·)

def skipBreak (c : Cursor) (v : Version) : Cursor :=
  match c.rest with
  | b :: _ => if v.isBreak b then c.newline else c
  | [] => c

def next? (c : Cursor) : Option Char := c.rest.head?

def atMark (c : Cursor) (v : Version) (mark : Char) : Bool :=
  c.column == 0 && c.rest.take 3 == [mark, mark, mark] && v.endsWord (c.rest.drop 3)

def atDocument (c : Cursor) (v : Version) : Bool := c.atMark v '-' || c.atMark v '.'

def atLineEnd (c : Cursor) (v : Version) : Bool :=
  let s := c.rest.dropWhile isBlank
  v.endsLine s || (s.head? == some '#' && s.length < c.rest.length)

end Cursor
end Throttle.Yaml
