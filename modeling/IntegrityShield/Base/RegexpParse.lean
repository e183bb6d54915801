/-
# Regular expressions: Go's concrete form

The grammar of Go's `regexp/syntax` under the flags `syntax.Perl`, read from
left to right with the constructs of the current group on a stack, as Go's own
parser does.  `parse` answers `none` where `regexp.Compile` answers an error:
an operator with nothing to repeat, two repetition operators in a row, an
unbalanced bracket, an unknown escape, a range that runs backwards.

The tables of package `unicode` (the classes `\pN`, `\p{Greek}` and the case
orbits of `(?i)`) are data of the Go distribution and enter as a class.
-/

import IntegrityShield.Base.Regexp

namespace IntegrityShield
namespace Regexp

/-- The tables of package `unicode`. -/
class UnicodeTables where
  /-- `unicode.Categories` and `unicode.Scripts`. -/
  table : String → Option (Char → Bool)
  /-- The characters `unicode.SimpleFold` cycles through. -/
  orbit : Char → List Char

/-- Empty tables: an expression without `\p` and `(?i)` looks nothing up. -/
@[reducible] def UnicodeTables.empty : UnicodeTables := ⟨fun _ => none, fun c => [c]⟩

/-- The flags of a group: `(?i)`, `(?m)`, `(?s)`, `(?U)`. -/
structure Flags where
  foldCase : Bool := false
  multiLine : Bool := false
  dotNL : Bool := false
  nonGreedy : Bool := false

variable [UnicodeTables]

/-- A character class under the flags: `(?i)` closes it under case. -/
def Flags.cls (fl : Flags) (p : Char → Bool) : Re :=
  .char fun c => if fl.foldCase then (UnicodeTables.orbit c).any p || p c else p c

/-- A literal character under the flags. -/
def Flags.lit (fl : Flags) (c : Char) : Re := fl.cls (· == c)

def isOctal (c : Char) : Bool := '0' ≤ c && c ≤ '7'

def hexValue (c : Char) : Option ℕ :=
  if c.isDigit then some (c.toNat - '0'.toNat)
  else if 'a' ≤ c && c ≤ 'f' then some (c.toNat - 'a'.toNat + 10)
  else if 'A' ≤ c && c ≤ 'F' then some (c.toNat - 'A'.toNat + 10)
  else none

/-- The value of hexadecimal digits, `none` for anything else. -/
def hexDigits (cs : List Char) : Option ℕ :=
  if cs = [] then none else cs.foldl (fun n c => do return 16 * (← n) + (← hexValue c)) (some 0)

/-- `parseEscape`: the character after a backslash, as a character. -/
def parseEscape : List Char → Option (Char × List Char)
  | [] => none
  | 'x' :: '{' :: t =>
      let ds := t.takeWhile (· != '}')
      match t.drop ds.length, hexDigits ds with
      | _ :: rest, some n => if n ≤ 0x10FFFF then some (Char.ofNat n, rest) else none
      | _, _ => none
  | 'x' :: a :: b :: t => (hexDigits [a, b]).map fun n => (Char.ofNat n, t)
  | 'a' :: t => some (Char.ofNat 7, t)
  | 'f' :: t => some (Char.ofNat 12, t)
  | 'n' :: t => some ('\n', t)
  | 'r' :: t => some ('\r', t)
  | 't' :: t => some ('\t', t)
  | 'v' :: t => some (Char.ofNat 11, t)
  | c :: t =>
      if isOctal c then
        let ds := (t.take 2).takeWhile isOctal
        -- a lone non-zero digit would be a backreference
        if c ≠ '0' ∧ ds = [] then none
        else some (Char.ofNat ((c :: ds).foldl (fun n d => 8 * n + (d.toNat - '0'.toNat)) 0),
          t.drop ds.length)
      else if c.toNat < 128 ∧ ¬ c.isAlphanum then some (c, t)
      else none

/-- `\d`, `\s`, `\w` and their complements. -/
def perlClass : Char → Option (Char → Bool)
  | 'd' => some Char.isDigit
  | 'D' => some fun c => !c.isDigit
  | 's' => some fun c => ['\t', '\n', Char.ofNat 12, '\r', ' '].contains c
  | 'S' => some fun c => !(['\t', '\n', Char.ofNat 12, '\r', ' '].contains c)
  | 'w' => some isWordChar
  | 'W' => some fun c => !isWordChar c
  | _ => none

/-- The POSIX classes `[:name:]`. -/
def posixClass : String → Option (Char → Bool)
  | "alnum" => some Char.isAlphanum
  | "alpha" => some Char.isAlpha
  | "ascii" => some fun c => c.toNat < 128
  | "blank" => some fun c => c == '\t' || c == ' '
  | "cntrl" => some fun c => c.toNat < 32 || c.toNat == 127
  | "digit" => some Char.isDigit
  | "graph" => some fun c => 33 ≤ c.toNat && c.toNat ≤ 126
  | "lower" => some Char.isLower
  | "print" => some fun c => 32 ≤ c.toNat && c.toNat ≤ 126
  | "punct" => some fun c => 33 ≤ c.toNat && c.toNat ≤ 126 && !c.isAlphanum
  | "space" => some fun c => (9 ≤ c.toNat && c.toNat ≤ 13) || c == ' '
  | "upper" => some Char.isUpper
  | "word" => some isWordChar
  | "xdigit" => some fun c => (hexValue c).isSome
  | _ => none

/-- A named class, complemented if the name starts with `^`. -/
def namedClass (table : String → Option (Char → Bool)) : List Char → Option (Char → Bool)
  | '^' :: name => (table (String.ofList name)).map fun p c => !p c
  | name => table (String.ofList name)

/-- The tables `\p` looks names up in. -/
def unicodeTable (name : String) : Option (Char → Bool) :=
  if name = "Any" then some fun _ => true else UnicodeTables.table name

/-- `parseUnicodeClass`: what follows `\p` (or `\P` if `neg`). -/
def unicodeClass (neg : Bool) : List Char → Option ((Char → Bool) × List Char)
  | '{' :: t =>
      let name := t.takeWhile (· != '}')
      match t.drop name.length, namedClass unicodeTable name with
      | _ :: rest, some p => some (fun c => p c != neg, rest)
      | _, _ => none
  | c :: t => (unicodeTable (String.ofList [c])).map fun p => (fun c => p c != neg, t)
  | [] => none

/-- `parseClassChar`. -/
def classChar : List Char → Option (Char × List Char)
  | '\\' :: t => parseEscape t
  | c :: t => some (c, t)
  | [] => none

/-- The name of a POSIX class up to its `:]`, and what follows. -/
def posixName : List Char → Option (List Char × List Char)
  | ':' :: ']' :: t => some ([], t)
  | c :: t => (posixName t).map fun r => (c :: r.1, r.2)
  | [] => none

/-- The members of a class from the current item to its closing bracket. -/
def parseClass : ℕ → Bool → (Char → Bool) → List Char → Option ((Char → Bool) × List Char)
  | 0, _, _, _ => none
  | fuel + 1, first, p, t =>
      let add (q : Char → Bool) (rest : List Char) :=
        parseClass fuel false (fun c => p c || q c) rest
      let range (_ : Unit) := match classChar t with
        | none => none
        | some (lo, '-' :: d :: rest) =>
            if d = ']' then add (· == lo) ('-' :: d :: rest)
            else match classChar (d :: rest) with
              | some (hi, rest') =>
                  if hi < lo then none else add (fun c => lo ≤ c && c ≤ hi) rest'
              | none => none
        | some (lo, rest) => add (· == lo) rest
      match t with
      | ']' :: rest => if first then range () else some (p, rest)
      | '[' :: ':' :: rest =>
          match posixName rest with
          | some (name, rest') =>
              match namedClass posixClass name with
              | some q => add q rest'
              | none => none
          | none => range ()
      | '\\' :: 'p' :: rest => (unicodeClass false rest).bind fun r => add r.1 r.2
      | '\\' :: 'P' :: rest => (unicodeClass true rest).bind fun r => add r.1 r.2
      | '\\' :: c :: rest =>
          match perlClass c with
          | some q => add q rest
          | none => range ()
      | _ => range ()

/-- The number at the head of `{n,m}`; a leading zero makes the brace literal. -/
def repeatNumber (t : List Char) : Option (ℕ × List Char) :=
  let ds := t.takeWhile Char.isDigit
  if ds = [] ∨ (ds.head? = some '0' ∧ 1 < ds.length) then none
  else some (ds.foldl (fun n d => 10 * n + (d.toNat - '0'.toNat)) 0, t.drop ds.length)

/-- `{n}`, `{n,}` or `{n,m}` after the brace; `none` where the brace is a literal. -/
def repeatBounds (t : List Char) : Option (ℕ × Option ℕ × List Char) :=
  match repeatNumber t with
  | some (min, '}' :: rest) => some (min, some min, rest)
  | some (min, ',' :: '}' :: rest) => some (min, none, rest)
  | some (min, ',' :: rest) =>
      match repeatNumber rest with
      | some (max, '}' :: rest') => some (min, some max, rest')
      | _ => none
  | _ => none

/-- `repeatIsValid`: nested counted repetitions stay below `n` copies. -/
def Re.repeatIsValid : Re → ℕ → Bool
  | .rep min max _ a, n =>
      let m := max.getD min
      -- only counted repetitions are charged: `a*`, `a+` and `a?` are not
      if m ≤ 1 then a.repeatIsValid n
      else if n < m then false
      else a.repeatIsValid (n / m)
  | .cat a b, n => a.repeatIsValid n && b.repeatIsValid n
  | .alt a b, n => a.repeatIsValid n && b.repeatIsValid n
  | _, _ => true

/-- `(?flags)` or `(?flags:`, after the question mark: the new flags, and
whether a group opens. -/
def perlFlags (fl : Flags) (neg saw : Bool) : List Char → Option (Flags × Bool × List Char)
  | 'i' :: t => perlFlags { fl with foldCase := !neg } neg true t
  | 'm' :: t => perlFlags { fl with multiLine := !neg } neg true t
  | 's' :: t => perlFlags { fl with dotNL := !neg } neg true t
  | 'U' :: t => perlFlags { fl with nonGreedy := !neg } neg true t
  | '-' :: t => if neg then none else perlFlags fl true false t
  | ':' :: t => if neg ∧ ¬ saw then none else some (fl, true, t)
  | ')' :: t => if neg ∧ ¬ saw then none else some (fl, false, t)
  | _ => none

/-- What the current group holds: its alternatives so far and the items of the
last one, in reverse. -/
structure Group where
  alts : List Re := []
  items : List Re := []

def Group.concat (g : Group) : Re := g.items.foldl (fun re a => .cat a re) .empty

def Group.close (g : Group) : Re := g.alts.foldl (fun re a => .alt a re) g.concat

/-- The literal text of `\Q...\E`, and what follows it. -/
def quoted : List Char → List Char × List Char
  | '\\' :: 'E' :: t => ([], t)
  | c :: t => ((c :: (quoted t).1), (quoted t).2)
  | [] => ([], [])

/-- The items of a group, up to its closing bracket or the end.  `repeated`
says that the last token was a repetition operator; `names` are the names of
the named groups so far. -/
def parseGroup : ℕ → Flags → Group → Bool → List String → List Char →
    Option (Re × List String × List Char)
  | 0, _, _, _, _, _ => none
  | fuel + 1, fl, g, repeated, names, t =>
      let push (re : Re) (rest : List Char) :=
        parseGroup fuel fl { g with items := re :: g.items } false names rest
      let sub (fl' : Flags) (names' : List String) (rest : List Char) :=
        match parseGroup fuel fl' {} false names' rest with
        | some (re, names'', ')' :: rest') =>
            parseGroup fuel fl { g with items := re :: g.items } false names'' rest'
        | _ => none
      let again (min : ℕ) (max : Option ℕ) (rest : List Char) :=
        let lazy := rest.head? = some '?'
        match g.items with
        | [] => none
        | a :: items =>
            let re := Re.rep min max (fl.nonGreedy == decide lazy) a
            if repeated ∨ (2 ≤ max.getD min ∧ ¬ re.repeatIsValid 1000) then none
            else parseGroup fuel fl { g with items := re :: items } true names
              (if lazy then rest.tail else rest)
      match t with
      | [] => some (g.close, names, [])
      | ')' :: _ => some (g.close, names, t)
      | '|' :: rest => parseGroup fuel fl { alts := g.concat :: g.alts } false names rest
      | '(' :: '?' :: 'P' :: '<' :: rest =>
          let name := rest.takeWhile (· != '>')
          match rest.drop name.length with
          | [] => none
          | _ :: rest' =>
              if name = [] ∨ ¬ name.all isWordChar ∨ String.ofList name ∈ names then none
              else sub fl (String.ofList name :: names) rest'
      | '(' :: '?' :: rest =>
          match perlFlags fl false false rest with
          | some (fl', true, rest') => sub fl' names rest'
          | some (fl', false, rest') => parseGroup fuel fl' g false names rest'
          | none => none
      | '(' :: rest => sub fl names rest
      | '*' :: rest => again 0 none rest
      | '+' :: rest => again 1 none rest
      | '?' :: rest => again 0 (some 1) rest
      | '{' :: rest =>
          match repeatBounds rest with
          | none => push (fl.lit '{') rest
          | some (min, max, rest') =>
              if 1000 < max.getD min ∨ max.getD min < min then none else again min max rest'
      | '^' :: rest => push (if fl.multiLine then .beginLine else .beginText) rest
      | '$' :: rest => push (if fl.multiLine then .endLine else .endText) rest
      | '.' :: rest => push (.char fun c => fl.dotNL || c != '\n') rest
      | '[' :: '^' :: rest =>
          match parseClass rest.length true (fun _ => false) rest with
          | some (p, rest') => push (.char fun c =>
              !(if fl.foldCase then (UnicodeTables.orbit c).any p || p c else p c)) rest'
          | none => none
      | '[' :: rest =>
          match parseClass rest.length true (fun _ => false) rest with
          | some (p, rest') => push (fl.cls p) rest'
          | none => none
      | '\\' :: 'A' :: rest => push .beginText rest
      | '\\' :: 'z' :: rest => push .endText rest
      | '\\' :: 'b' :: rest => push .wordBoundary rest
      | '\\' :: 'B' :: rest => push .noWordBoundary rest
      | '\\' :: 'Q' :: rest =>
          let q := quoted rest
          parseGroup fuel fl { g with items := (q.1.map fl.lit).reverse ++ g.items } false names q.2
      | '\\' :: 'p' :: rest => (unicodeClass false rest).bind fun r => push (fl.cls r.1) r.2
      | '\\' :: 'P' :: rest => (unicodeClass true rest).bind fun r => push (fl.cls r.1) r.2
      | '\\' :: c :: rest =>
          match perlClass c with
          | some p => push (fl.cls p) rest
          | none => (parseEscape (c :: rest)).bind fun r => push (fl.lit r.1) r.2
      | ['\\'] => none
      | c :: rest => push (fl.lit c) rest

/-- `regexp.Compile`. -/
def parse (pattern : String) : Option Re :=
  match parseGroup (2 * pattern.length + 2) {} {} false [] pattern.toList with
  | some (re, _, []) => some re
  | _ => none

/-- `regexp.MatchString`, its error dropped: a pattern that does not compile
matches nothing. -/
def matchString (pattern s : String) : Bool :=
  match parse pattern with
  | some re => re.matchString s
  | none => false

end Regexp
end IntegrityShield
