import ScriptHost.Json.Basic
import ScriptHost.Number.Shortest
import ScriptHost.Text.Decimal

/-! Compact JSON text: no blanks, the shortest numbers that read back, and in strings an escape
for quotes, backslashes and control characters alone. -/

namespace ScriptHost.Json

def hexDigit (n : Nat) : Char := (Nat.digitChar n)

def escaped (c : Char) : List Char :=
  match c with
  | '"' => ['\\', '"']
  | '\\' => ['\\', '\\']
  | '\x08' => ['\\', 'b']
  | '\t' => ['\\', 't']
  | '\n' => ['\\', 'n']
  | '\x0c' => ['\\', 'f']
  | '\r' => ['\\', 'r']
  | c =>
    if c.toNat < 0x20 then ['\\', 'u', '0', '0', hexDigit (c.toNat / 16), hexDigit (c.toNat % 16)]
    else [c]

def printString (s : List Char) : List Char :=
  '"' :: s.flatMap escaped ++ ['"']

/-- Digits with the point behind the one of weight `10^0`, where the first weighs `10^e`. Whole
numbers get a zero behind the point. -/
def positional (digits : List Char) (e : Int) : List Char :=
  if e < 0 then '0' :: '.' :: List.replicate (-e - 1).toNat '0' ++ digits
  else
    let whole := e.toNat + 1
    let fraction := digits.drop whole
    digits.take whole ++ List.replicate (whole - digits.length) '0' ++
      '.' :: if fraction = [] then ['0'] else fraction

/-- One digit before the point, none of it where there is no other digit, and the exponent with
its sign. -/
def scientific (digits : List Char) (e : Int) : List Char :=
  let fraction := digits.drop 1
  digits.take 1 ++ (if fraction = [] then [] else '.' :: fraction) ++
    'e' :: (if e < 0 then '-' else '+') :: Text.decimal e.natAbs

/-- From `10^-5` up to `10^16` a magnitude is written positionally. -/
def printReal (x : Binary64) : List Char :=
  let sign := if x.negative then ['-'] else []
  if x.isZero then sign ++ ['0', '.', '0']
  else
    let d := x.shortest
    let all := Text.decimal d.digits
    let e := d.exp + (all.length - 1 : Nat)
    let digits := (all.reverse.dropWhile (· = '0')).reverse
    sign ++ if -5 ≤ e ∧ e < 16 then positional digits e else scientific digits e

def printNumber : Number → List Char
  | .integer i => if i < 0 then '-' :: Text.decimal i.natAbs else Text.decimal i.natAbs
  | .real x => printReal x

def commaSeparated : List (List Char) → List Char
  | [] => []
  | [part] => part
  | part :: rest => part ++ ',' :: commaSeparated rest

mutual

def print : Json → List Char
  | .null => ['n', 'u', 'l', 'l']
  | .bool true => ['t', 'r', 'u', 'e']
  | .bool false => ['f', 'a', 'l', 's', 'e']
  | .number n => printNumber n
  | .string s => printString s.toList
  | .array items => '[' :: commaSeparated (printItems items) ++ [']']
  | .object members => '\x7b' :: commaSeparated (printMembers members) ++ ['\x7d']

def printItems : List Json → List (List Char)
  | [] => []
  | item :: rest => print item :: printItems rest

def printMembers : List (String × Json) → List (List Char)
  | [] => []
  | (name, value) :: rest =>
    (printString name.toList ++ ':' :: print value) :: printMembers rest

end

def text (j : Json) : String := String.ofList (print j)

end ScriptHost.Json
