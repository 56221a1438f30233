import ScriptHost.Json.Fault

/-! Numerals. A numeral is read as it is written, then valued: without point and exponent it is
a whole number where it fits, and otherwise a binary64 number. That one is computed from the
leading digits that fit 64 bits and a power of ten, with a rounding at each step. -/

namespace ScriptHost.Json

structure Numeral where
  negative : Bool
  whole : List Char
  /-- The digits behind the point, if there is one. -/
  fraction : Option (List Char)
  /-- Whether the exponent is negative, and its digits. -/
  exponent : Option (Bool × List Char)
deriving DecidableEq, Repr

def digitsOf (s : List Char) : List Char := s.takeWhile Char.isDigit

def pastDigits (s : List Char) : List Char := s.dropWhile Char.isDigit

/-- The digits before the point: a zero stands alone. `atEnd` is the flaw of a text that ends
where a digit is due. -/
def readWhole (atEnd : Flaw) : List Char → Except Fault (List Char × List Char)
  | [] => .error (.here atEnd [])
  | '0' :: rest =>
    if digitsOf rest = [] then .ok (['0'], rest) else .error (.next .invalidNumber rest)
  | s => if digitsOf s = [] then .error (.next .invalidNumber s) else .ok (digitsOf s, pastDigits s)

def readFraction (atEnd : Flaw) : List Char → Except Fault (Option (List Char) × List Char)
  | '.' :: rest =>
    if rest = [] then .error (.here atEnd [])
    else if digitsOf rest = [] then .error (.next .invalidNumber rest)
    else .ok (some (digitsOf rest), pastDigits rest)
  | s => .ok (none, s)

def readSign : List Char → Bool × List Char
  | '-' :: rest => (true, rest)
  | '+' :: rest => (false, rest)
  | s => (false, s)

def readExponent (atEnd : Flaw) : List Char → Except Fault (Option (Bool × List Char) × List Char)
  | [] => .ok (none, [])
  | c :: rest =>
    if c = 'e' ∨ c = 'E' then
      let (negative, rest) := readSign rest
      if rest = [] then .error (.here atEnd [])
      else if digitsOf rest = [] then .error (.next .invalidNumber rest)
      else .ok (some (negative, digitsOf rest), pastDigits rest)
    else .ok (none, c :: rest)

def readNumeral (atEnd : Flaw) (s : List Char) : Except Fault (Numeral × List Char) := do
  let (negative, s) := match s with
    | '-' :: rest => (true, rest)
    | s => (false, s)
  let (whole, s) ← readWhole atEnd s
  let (fraction, s) ← readFraction atEnd s
  let (exponent, s) ← readExponent atEnd s
  return (⟨negative, whole, fraction, exponent⟩, s)

def digitValue (c : Char) : Nat := c.toNat - '0'.toNat

/-- Appends digits to a value as long as it stays at or below `most`, and returns the digits that
are left. -/
def absorb (most : Nat) : Nat → List Char → Nat × List Char
  | n, [] => (n, [])
  | n, c :: rest =>
    let next := n * 10 + digitValue c
    if next ≤ most then absorb most next rest else (n, c :: rest)

/-- Divides by `10^308` so many times and then by `10^last`; zero stays zero. -/
def divideByTens (x : Binary64) : Nat → Nat → Option Binary64
  | 0, last => do x.div? (← Binary64.tenTo? last)
  | times + 1, last =>
    if x.isZero then some x
    else do divideByTens (← x.div? (← Binary64.tenTo? 308)) times last

/-- `n · 10^e`, rounded after the conversion of `n` and after each step by a power of ten. -/
def scaled? (n : Nat) (e : Int) : Option Binary64 := do
  let x ← Binary64.ofNat? n
  if e < 0 then
    let tens := e.natAbs
    let times := (tens - 1) / 308
    divideByTens x times (tens - 308 * times)
  else if e ≤ 308 then x.mul? (← Binary64.tenTo? e.toNat)
  else if x.isZero then some x
  else none

def Binary64.signed (negative : Bool) (x : Binary64) : Binary64 := { x with negative := negative }

/-- The number of a numeral. When it is out of range, how many digits of the numeral are unread
where that shows. -/
def Numeral.value (x : Numeral) : Except Nat Number :=
  let (whole, dropped) := absorb (UInt64.size - 1) 0 x.whole
  let real (n : Nat) (e : Int) : Except Nat Number :=
    match scaled? n e with
    | some y => .ok (.real (Binary64.signed x.negative y))
    | none => .error 0
  match x.fraction, x.exponent, dropped with
  | none, none, [] =>
    if !x.negative then .ok (.integer whole)
    else if 0 < whole ∧ whole ≤ 0x8000000000000000 then .ok (.integer (-whole))
    else real whole 0
  | fraction, exponent, dropped =>
    let fraction := fraction.getD []
    let (n, unused) := absorb (UInt64.size - 1) whole fraction
    let e : Int := dropped.length - (fraction.length - unused.length : Nat)
    match exponent with
    | none => real n e
    | some (negative, digits) =>
      match absorb 0x7FFFFFFF 0 digits with
      | (written, []) => real n (if negative then e - written else e + written)
      | (_, _ :: behind) =>
        if n = 0 ∨ negative then .ok (.real (Binary64.signed x.negative Binary64.zero))
        else .error behind.length

def readNumber (s : List Char) : Except Fault (Number × List Char) := do
  let (x, rest) ← readNumeral .endInValue s
  match x.value with
  | .ok n => return (n, rest)
  | .error behind => .error ⟨.numberOutOfRange, .fixed (size rest + behind)⟩

end ScriptHost.Json
