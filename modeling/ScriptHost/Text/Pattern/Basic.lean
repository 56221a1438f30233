import ScriptHost.Text.Alphanumeric
import ScriptHost.Text.Blank
import ScriptHost.Text.Hex

/-! What search patterns are made of: the flags in force, single pieces, and which piece is
admitted under which flags. No table of characters is at hand while a pattern is built. Under the
flag `u`, which is set at the start, everything that needs one is refused: the classes of digits,
blanks and words, properties, word boundaries and the folding of case. Without the flag a pattern
speaks of bytes, and whatever could match a byte that is no text is refused. -/

namespace ScriptHost.Text.Pattern

structure Mode where
  /-- Upper and lower case are the same. -/
  folds : Bool := false
  unicode : Bool := true
  /-- Blanks and comments say nothing. -/
  spaced : Bool := false
deriving DecidableEq, Repr

inductive Piece where
  | char (c : Char)
  /-- Two hexadecimal digits. -/
  | code (n : Nat)
  /-- Any character but a line break. -/
  | any
  /-- Digits, blanks or word characters, or all others. -/
  | shorthand (others : Bool)
  | property
  | wordBoundary
  /-- A place at the start or the end of a line or of the text. -/
  | edge
deriving DecidableEq, Repr

/-- The piece may stand outside of classes. -/
def Piece.fits (mode : Mode) : Piece → Bool
  | .char _ => !(mode.unicode && mode.folds)
  | .code n => if mode.unicode then !mode.folds else n < 0x80
  | .any => mode.unicode
  | .shorthand others => !mode.unicode && !others
  | .property => false
  | .wordBoundary => !mode.unicode
  | .edge => true

def Piece.fitsClass (mode : Mode) (p : Piece) : Bool :=
  match p with
  | .char c => p.fits mode && (mode.unicode || c.toNat < 0x80)
  | .code _ | .shorthand _ => p.fits mode
  | .any | .property | .wordBoundary | .edge => false

def Piece.point? : Piece → Option Nat
  | .char c => some c.toNat
  | .code n => some n
  | _ => none

/-- Passes over blanks and comments; a comment runs from a number sign to the end of its line. -/
def skipFree (inComment : Bool) : List Char → List Char
  | [] => []
  | c :: rest =>
    if inComment then skipFree (c ≠ '\n') rest
    else if isBlank c then skipFree false rest
    else if c = '#' then skipFree true rest
    else c :: rest

def Mode.skip (mode : Mode) (s : List Char) : List Char :=
  if mode.spaced then skipFree false s else s

def readHex (mode : Mode) : Nat → Nat → List Char → Option (Nat × List Char)
  | 0, n, s => some (n, s)
  | digits + 1, n, s =>
    match mode.skip s with
    | [] => none
    | c :: rest => do readHex mode digits (n * 16 + (← hexValue? c)) rest

def readPoint (mode : Mode) (digits : Nat) (s : List Char) : Option (Piece × List Char) := do
  let (n, rest) ← readHex mode digits 0 s
  if n.isValidChar then return (.char (Char.ofNat n), rest) else none

/-- What stands behind a backslash. Punctuation stands for itself. -/
def readEscape (mode : Mode) : List Char → Option (Piece × List Char)
  | [] => none
  | c :: rest =>
    match c with
    | 'x' => (readHex mode 2 0 rest).map fun (n, rest) => (.code n, rest)
    | 'u' => readPoint mode 4 rest
    | 'U' => readPoint mode 8 rest
    | 'd' | 's' | 'w' => some (.shorthand false, rest)
    | 'D' | 'S' | 'W' => some (.shorthand true, rest)
    | 'p' | 'P' => some (.property, rest)
    | 'b' | 'B' | '<' | '>' => some (.wordBoundary, rest)
    | 'A' | 'z' => some (.edge, rest)
    | 'a' => some (.char '\x07', rest)
    | 'f' => some (.char '\x0c', rest)
    | 'n' => some (.char '\n', rest)
    | 'r' => some (.char '\r', rest)
    | 't' => some (.char '\t', rest)
    | 'v' => some (.char '\x0b', rest)
    | c => if c.toNat < 0x80 ∧ !c.isAlphanum then some (.char c, rest) else none

end ScriptHost.Text.Pattern
