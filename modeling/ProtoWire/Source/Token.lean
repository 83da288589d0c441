/-! # Source text as trees

A source text is a list of trees: words, lifetimes, literals and symbols, and groups of trees
between brackets. Text without spaces between its tokens is what is written back.
-/

namespace ProtoWire.Source

/-- The kinds of brackets. -/
inductive Bracket where
  | round
  | square
  | curly
deriving DecidableEq, Repr

namespace Bracket

/-- The opening bracket. -/
def opening : Bracket → Char
  | .round => '('
  | .square => '['
  | .curly => '\x7b'

/-- The closing bracket. -/
def closing : Bracket → Char
  | .round => ')'
  | .square => ']'
  | .curly => '\x7d'

/-- All kinds of brackets. -/
def all : List Bracket := [.round, .square, .curly]

/-- What a pair of brackets is called. -/
def description : Bracket → String
  | .round => "parentheses"
  | .square => "square brackets"
  | .curly => "curly braces"

end Bracket

/-- A token, or the trees between a pair of brackets. -/
inductive Tree where
  | word (text : String)
  | lifetime (text : String)
  | literal (text : String)
  /-- A symbol, and whether another symbol follows it at once. -/
  | symbol (char : Char) (joined : Bool)
  | group (bracket : Bracket) (trees : List Tree)
deriving Repr, BEq

mutual

/-- The text of a tree. -/
def Tree.write : Tree → String
  | .word text | .lifetime text | .literal text => text
  | .symbol char _ => char.toString
  | .group bracket trees =>
      bracket.opening.toString ++ writeTrees trees ++ bracket.closing.toString

/-- The text of trees, without spaces. -/
def writeTrees : List Tree → String
  | [] => ""
  | tree :: rest => tree.write ++ writeTrees rest

end

mutual

/-- The number of trees in a tree, itself among them. -/
def Tree.size : Tree → Nat
  | .word _ | .lifetime _ | .literal _ | .symbol _ _ => 1
  | .group _ trees => sizeOfTrees trees + 1

/-- The number of trees in trees, those inside groups among them. -/
def sizeOfTrees : List Tree → Nat
  | [] => 0
  | tree :: rest => tree.size + sizeOfTrees rest

end

end ProtoWire.Source
