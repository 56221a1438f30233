import ScriptHost.Text.Pattern.Basic

/-! Classes in brackets: single characters, ranges, named classes of ASCII, classes in classes, and
the signs `&&`, `--` and `~~` between parts. `room` counts down the characters that may be left. -/

namespace ScriptHost.Text.Pattern

def asciiClasses : List String :=
  ["alnum", "alpha", "ascii", "blank", "cntrl", "digit", "graph", "lower", "print", "punct",
   "space", "upper", "word", "xdigit"]

/-- A named class behind its opening bracket, and whether it is negated. -/
def namedClass? : List Char → Option (Bool × List Char)
  | ':' :: rest =>
    let (negated, rest) := match rest with
      | '^' :: rest => (true, rest)
      | rest => (false, rest)
    let name := rest.takeWhile (· ≠ ':')
    match rest.drop name.length with
    | ':' :: ']' :: rest => if String.ofList name ∈ asciiClasses then some (negated, rest) else none
    | _ => none
  | _ => none

inductive ClassPlace where
  /-- Nothing was read yet: a closing bracket stands for itself. -/
  | start
  /-- Behind minus signs in front, which stand for themselves. -/
  | front
  | inside
deriving DecidableEq, Repr

/-- Behind an opening bracket, past the sign that negates the class. -/
def openClass (mode : Mode) (s : List Char) : Option (List Char) :=
  match mode.skip s with
  | '^' :: rest => if mode.unicode then some rest else none
  | rest => some rest

def readItem (mode : Mode) : List Char → Option (Piece × List Char)
  | [] => none
  | '\\' :: rest => readEscape mode rest
  | c :: rest => some (.char c, rest)

/-- An item or a range. A minus sign before a closing bracket or another minus sign makes no
range. -/
def readRange (mode : Mode) (s : List Char) : Option (List Char) := do
  let (first, s) ← readItem mode s
  if !first.fitsClass mode then none
  else
    match mode.skip s with
    | '-' :: rest =>
      let behind := mode.skip rest
      if behind.head? = some ']' ∨ behind.head? = some '-' then return '-' :: rest
      else
        let (last, behind) ← readItem mode behind
        if last.fitsClass mode ∧ (← first.point?) ≤ (← last.point?) then return behind else none
    | s => return s

/-- How deeply nested the parts of a class are that were read so far. -/
structure ClassDepth where
  /-- What stands before the last sign between parts, if there is one. -/
  before : Option Nat := none
  /-- Items behind it, and the deepest of them. -/
  count : Nat := 0
  deepest : Nat := 0
deriving DecidableEq, Repr

def ClassDepth.add (d : ClassDepth) (item : Nat) : ClassDepth :=
  { d with count := d.count + 1, deepest := max d.deepest item }

/-- Items together are one level above the deepest of them, and so are two parts. -/
def ClassDepth.total (d : ClassDepth) : Nat :=
  let items := if d.count ≤ 1 then d.deepest else d.deepest + 1
  match d.before with
  | none => items
  | some before => max before items + 1

def ClassDepth.cut (d : ClassDepth) : ClassDepth := { before := some d.total }

/-- To the end of a class, and how deep it is. `outer` are the classes it stands in. -/
def readClass (mode : Mode) :
    Nat → List ClassDepth → ClassDepth → ClassPlace → List Char → Option (Nat × List Char)
  | 0, _, _, _, _ => none
  | room + 1, outer, depth, place, s =>
    let literal (place : ClassPlace) (rest : List Char) : Option (Nat × List Char) :=
      if (Piece.char ']').fitsClass mode then readClass mode room outer (depth.add 0) place rest
      else none
    match place, mode.skip s with
    | _, [] => none
    | .start, '-' :: rest => literal .front rest
    | .front, '-' :: rest => literal .front rest
    | .start, ']' :: rest => literal .inside rest
    | _, ']' :: rest =>
      match outer with
      | [] => some (depth.total + 1, rest)
      | around :: outer => readClass mode room outer (around.add (depth.total + 1)) .inside rest
    | _, '[' :: rest =>
      match namedClass? rest with
      | some (negated, rest) =>
        if mode.unicode ∨ !negated then literal .inside rest else none
      | none => do readClass mode room (depth :: outer) {} .start (← openClass mode rest)
    | _, '&' :: '&' :: rest => readClass mode room outer depth.cut .inside rest
    | _, '-' :: '-' :: rest => readClass mode room outer depth.cut .inside rest
    | _, '~' :: '~' :: rest => readClass mode room outer depth.cut .inside rest
    | _, s => do readClass mode room outer (depth.add 0) .inside (← readRange mode s)

end ScriptHost.Text.Pattern
