/-!
# Tokens and nodes

The parts that a YAML text is cut into, and the tree that a document describes. Block
collections have no brackets in the text; the tokens that open and close them stand for
changes of indentation. An alias stands for an anchored node of the same document. It may
name a node that it is itself a part of; the node as it was known when the alias was read is
kept beside the name.
-/

namespace Throttle.Yaml

inductive Style
  | plain
  | singleQuoted
  | doubleQuoted
  | literal
  | folded
  deriving DecidableEq, Repr

inductive Token
  | streamEnd
  | version (major minor : Nat)
  | handle (name lead : String)
  | documentStart
  | documentEnd
  | blockSequenceStart
  | blockMappingStart
  | blockEnd
  | flowSequenceStart
  | flowSequenceEnd
  | flowMappingStart
  | flowMappingEnd
  | blockEntry
  | flowEntry
  | key
  | value
  | reference (name : String)
  | anchor (name : String)
  | tag (handle suffix : String)
  | scalar (style : Style) (text : String)
  deriving DecidableEq, Repr

structure Tag where
  lead : String
  suffix : String
  deriving DecidableEq, Repr

namespace Tag

def core : String := "tag:yaml.org,2002:"

def text (t : Tag) : String := t.lead ++ t.suffix

end Tag

inductive Node
  | scalar (tag : Option Tag) (style : Style) (text : String)
  | sequence (tag : Option Tag) (items : List Node)
  | mapping (tag : Option Tag) (entries : List (Node × Node))
  | reference (anchor : Nat) (known : Option Node)

namespace Node

def empty : Node := .scalar none .plain ""

end Node

structure Anchored where
  number : Nat
  order : Nat
  node : Node

structure Document where
  root : Node
  anchors : List Anchored

namespace Document

def anchored? (d : Document) (number : Nat) : Option Node :=
  let later (best : Option Anchored) (a : Anchored) : Option Anchored :=
    if a.number = number && best.all (·.order < a.order) then some a else best
  (d.anchors.foldl later none).map (·.node)

def follow (d : Document) : Node → Option Node
  | .reference anchor _ => d.anchored? anchor
  | node => some node

end Document
end Throttle.Yaml
