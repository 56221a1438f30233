import ScriptHost.Text.Pattern.Bracket

/-! Whether a text is a search pattern: groups are closed, what is repeated is there, and every
piece is admitted under the flags that are in force where it stands. -/

namespace ScriptHost.Text.Pattern

/-- Flags, and behind a minus sign flags that are taken back. Each stands once. -/
def isFlags (s : List Char) : Bool :=
  s.all (['i', 'm', 's', 'U', 'u', 'R', 'x', '-'].contains ·) && s.eraseDups = s &&
    s.getLast? ≠ some '-'

def Mode.set (mode : Mode) (flags : List Char) : Mode :=
  let raised := flags.takeWhile (· ≠ '-')
  let flag (c : Char) (before : Bool) : Bool :=
    if c ∈ raised then true else if c ∈ flags then false else before
  { folds := flag 'i' mode.folds, unicode := flag 'u' mode.unicode, spaced := flag 'x' mode.spaced }

def isGroupName : List Char → Bool
  | [] => false
  | c :: rest =>
    (c = '_' || isAlphabetic c) &&
      rest.all fun c => isAlphanumeric c || c = '_' || c = '.' || c = '[' || c = ']'

inductive Opening where
  /-- Flags for the rest of the group it stands in. -/
  | flags (mode : Mode)
  | group (mode : Mode) (name : Option (List Char))

def readName (mode : Mode) (s : List Char) : Option (Opening × List Char) :=
  let name := s.takeWhile (· ≠ '>')
  match s.drop name.length with
  | [] => none
  | _ :: rest => if isGroupName name then some (.group mode (some name), rest) else none

def readFlags (mode : Mode) (s : List Char) : Option (Opening × List Char) :=
  let flags := s.takeWhile fun c => c ≠ ':' && c ≠ ')'
  if !isFlags flags then none
  else
    match s.drop flags.length with
    | ':' :: rest => some (.group (mode.set flags) none, rest)
    | ')' :: rest => if flags = [] then none else some (.flags (mode.set flags), rest)
    | _ => none

/-- Behind an opening parenthesis. There is no looking around. -/
def readOpening (mode : Mode) (s : List Char) : Option (Opening × List Char) :=
  match mode.skip s with
  | '?' :: '<' :: '!' :: _ => none
  | '?' :: 'P' :: '<' :: rest => readName mode rest
  | '?' :: '<' :: rest => readName mode rest
  | '?' :: rest => readFlags mode rest
  | rest => some (.group mode none, rest)

structure GroupDepth where
  /-- Finished alternatives, and the deepest of them. -/
  alternatives : Nat := 0
  deepest : Nat := 0
  /-- Items of the alternative that is read, the deepest of them before the last, and the last. -/
  count : Nat := 0
  before : Nat := 0
  last : Nat := 0
deriving DecidableEq, Repr

namespace GroupDepth

def add (d : GroupDepth) (item : Nat) : GroupDepth :=
  { d with count := d.count + 1, before := max d.before d.last, last := item }

/-- The last item is repeated. -/
def lift (d : GroupDepth) : GroupDepth := { d with last := d.last + 1 }

def alternative (d : GroupDepth) : Nat := if d.count ≤ 1 then d.last else max d.before d.last + 1

/-- Another alternative begins. -/
def cut (d : GroupDepth) : GroupDepth :=
  { alternatives := d.alternatives + 1, deepest := max d.deepest d.alternative }

def total (d : GroupDepth) : Nat :=
  if d.alternatives = 0 then d.alternative else max d.deepest d.alternative + 1

end GroupDepth

def maxDepth : Nat := 250

structure Progress where
  mode : Mode := {}
  depth : GroupDepth := {}
  /-- Flags and depth around each open group, the innermost first. -/
  outer : List (Mode × GroupDepth) := []
  names : List (List Char) := []
  /-- Something stands before that can be repeated. -/
  repeatable : Bool := false

namespace Progress

def add (p : Progress) (depth : Nat) : Progress :=
  { p with depth := p.depth.add depth, repeatable := true }

def readRepeat (p : Progress) (rest : List Char) : Option (Progress × List Char) :=
  if p.repeatable then some ({ p with depth := p.depth.lift }, rest) else none

def pastLazy : List Char → List Char
  | '?' :: rest => rest
  | rest => rest

def readPiece (p : Progress) (found : Piece × List Char) : Option (Progress × List Char) :=
  if found.1.fits p.mode then some (p.add 0, found.2) else none

/-- One item further; `room` is that of a class. -/
def next (room : Nat) (p : Progress) : Char → List Char → Option (Progress × List Char)
  | '(', rest => do
    match ← readOpening p.mode rest with
    | (.flags mode, rest) => return ({ p.add 0 with mode, repeatable := false }, rest)
    | (.group mode name, rest) =>
      if name.any p.names.contains then none
      else
        return ({ mode, outer := (p.mode, p.depth) :: p.outer, names := name.toList ++ p.names },
          rest)
  | ')', rest =>
    match p.outer with
    | [] => none
    | (mode, around) :: outer =>
      some (add { p with mode, depth := around, outer } (p.depth.total + 1), rest)
  | '|', rest => some ({ p with depth := p.depth.cut, repeatable := false }, rest)
  | '*', rest => p.readRepeat (pastLazy rest)
  | '+', rest => p.readRepeat (pastLazy rest)
  | '?', rest => p.readRepeat (pastLazy rest)
  -- A count has no place in the values that patterns are given for.
  | '\x7b', _ => none
  | '[', rest => do
    let (depth, rest) ← readClass p.mode room [] {} .start (← openClass p.mode rest)
    return (p.add depth, rest)
  | '\\', rest => do p.readPiece (← readEscape p.mode rest)
  | '.', rest => p.readPiece (.any, rest)
  | '^', rest => p.readPiece (.edge, rest)
  | '$', rest => p.readPiece (.edge, rest)
  | c, rest => p.readPiece (.char c, rest)

end Progress

def accepts : Nat → Progress → List Char → Bool
  | 0, _, _ => false
  | room + 1, p, s =>
    match p.mode.skip s with
    | [] => p.outer.isEmpty && p.depth.total ≤ maxDepth
    | c :: rest =>
      match p.next room c rest with
      | none => false
      | some (p, rest) => accepts room p rest

end Pattern

def isPattern (s : List Char) : Bool := Pattern.accepts (s.length + 1) {} s

end ScriptHost.Text
