/-
# Regular expressions: what Go's `regexp` matches

The expressions of Go's `regexp/syntax` after parsing, and the text they match.
`Re.run` lists the ends of the matches that start at one position, in the order
in which a backtracking matcher would try them.  That order is what Go means by
"leftmost-first": `Regexp.MatchString` asks whether some position has a match
at all, and a search returns the first end listed at the first such position.

A position is a pair: the characters already read, last first, and those still
to read.  The anchors look at both sides, everything else only at the right.
-/

import Mathlib.Data.List.Basic
import Mathlib.Tactic.Common

namespace IntegrityShield
namespace Regexp

/-- What was read, last character first, and what is still to read. -/
abbrev Pos := List Char × List Char

/-- A parsed expression. -/
inductive Re where
  /-- The empty string. -/
  | empty
  /-- One character of a class. -/
  | char (p : Char → Bool)
  | cat (a b : Re)
  | alt (a b : Re)
  /-- `a{min,max}`; `a*` is `a{0,}`, `a+` is `a{1,}`, `a?` is `a{0,1}`. -/
  | rep (min : ℕ) (max : Option ℕ) (greedy : Bool) (a : Re)
  | beginLine
  | endLine
  | beginText
  | endText
  | wordBoundary
  | noWordBoundary

/-- `\w`: the characters `\b` tells apart from the rest. -/
def isWordChar (c : Char) : Bool := c.isAlphanum || c == '_'

/-- Whether a word begins or ends at a position. -/
def atWordBoundary (p : Pos) : Bool :=
  ((p.1.head?.map isWordChar).getD false) != ((p.2.head?.map isWordChar).getD false)

/-- Exactly `n` rounds of `step`. -/
def times (step : Pos → List Pos) : ℕ → Pos → List Pos
  | 0, p => [p]
  | n + 1, p => (step p).flatMap (times step n)

/-- At most `n` rounds of `step`, each reading something: the longer runs first
if `greedy`, the shorter ones first otherwise. -/
def upTo (step : Pos → List Pos) (greedy : Bool) : ℕ → Pos → List Pos
  | 0, p => [p]
  | n + 1, p =>
      let more := ((step p).filter fun q => q.2.length < p.2.length).flatMap (upTo step greedy n)
      if greedy then more ++ [p] else p :: more

/-- The ends of the matches that start at a position, preferred ones first. -/
def Re.run : Re → Pos → List Pos
  | .empty, p => [p]
  | .char _, (_, []) => []
  | .char f, (b, c :: r) => if f c then [(c :: b, r)] else []
  | .cat a b, p => (a.run p).flatMap b.run
  | .alt a b, p => a.run p ++ b.run p
  | .rep min max greedy a, p =>
      (times a.run min p).flatMap fun q =>
        upTo a.run greedy ((max.map (· - min)).getD q.2.length) q
  | .beginLine, p => if p.1.head? = none ∨ p.1.head? = some '\n' then [p] else []
  | .endLine, p => if p.2.head? = none ∨ p.2.head? = some '\n' then [p] else []
  | .beginText, p => if p.1 = [] then [p] else []
  | .endText, p => if p.2 = [] then [p] else []
  | .wordBoundary, p => if atWordBoundary p then [p] else []
  | .noWordBoundary, p => if atWordBoundary p then [] else [p]

/-- Whether some match starts at the position or to the right of it. -/
def Re.search (re : Re) (before : List Char) : List Char → Bool
  | [] => !(re.run (before, [])).isEmpty
  | c :: r => !(re.run (before, c :: r)).isEmpty || re.search (c :: before) r

/-- The text after `ReplaceAllLiteralString`, from one position on.  `fresh`
says that no match has just ended here: an empty match right after another one
is not replaced. -/
def Re.replaceFrom (re : Re) (repl : List Char) : ℕ → Bool → Pos → List Char
  | 0, _, p => p.2
  | fuel + 1, fresh, (b, r) =>
      let skip := match r with
        | [] => []
        | c :: r' => c :: re.replaceFrom repl fuel true (c :: b, r')
      match (re.run (b, r)).head? with
      | none => skip
      | some e =>
          if e.2.length < r.length then repl ++ re.replaceFrom repl fuel false e
          else (if fresh then repl else []) ++ skip

/-- `Regexp.MatchString`: the match may lie anywhere in `s`. -/
def Re.matchString (re : Re) (s : String) : Bool := re.search [] s.toList

/-- `Regexp.ReplaceAllString`, for a replacement without `$`. -/
def Re.replaceAllString (re : Re) (s repl : String) : String :=
  String.ofList (re.replaceFrom repl.toList (s.length + 1) true ([], s.toList))

/-- `a*`. -/
def Re.star (a : Re) : Re := .rep 0 none true a

/-- A literal text. -/
def Re.literal (cs : List Char) : Re :=
  cs.foldr (fun c re => .cat (.char (· == c)) re) .empty

end Regexp
end IntegrityShield
