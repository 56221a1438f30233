/-! Decimal numbers as text. Unsigned ones, an optional plus sign and at least one digit, are read
from the left against a largest value; all others are only recognised. -/

namespace ScriptHost.Text

inductive DecimalError where
  | empty
  | invalidDigit
  | tooLarge
deriving DecidableEq, Repr

def DecimalError.message : DecimalError → String
  | .empty => "cannot parse integer from empty string"
  | .invalidDigit => "invalid digit found in string"
  | .tooLarge => "number too large to fit in target type"

def decimal (n : Nat) : List Char := Nat.toDigits 10 n

/-- Continues with the digits after a value. The first fault from the left wins: a bad character
behind an overflow is never reached. -/
def readDigits (most : Nat) : Nat → List Char → Except DecimalError Nat
  | n, [] => .ok n
  | n, c :: rest =>
    if c.isDigit then
      let next := n * 10 + (c.toNat - '0'.toNat)
      if next ≤ most then readDigits most next rest else .error .tooLarge
    else .error .invalidDigit

def readDecimal (most : Nat) : List Char → Except DecimalError Nat
  | [] => .error .empty
  | ['+'] => .error .invalidDigit
  | '+' :: rest => readDigits most 0 rest
  | s => readDigits most 0 s

/-- A number with a sign, a point and an exponent, each of which may be absent, or the name of one
that is not finite. -/
def isNumber (s : List Char) : Bool :=
  let body := unsigned s
  let whole := body.takeWhile Char.isDigit
  let behind := body.drop whole.length
  let fraction := if behind.head? = some '.' then (behind.drop 1).takeWhile Char.isDigit else []
  let behind := if behind.head? = some '.' then behind.drop (fraction.length + 1) else behind
  String.ofList (body.map Char.toLower) ∈ ["inf", "infinity", "nan"] ||
    (whole ++ fraction ≠ [] && match behind with
      | [] => true
      | c :: exponent =>
        let digits := unsigned exponent
        (c = 'e' || c = 'E') && digits ≠ [] && digits.all Char.isDigit)
where
  unsigned : List Char → List Char
    | '+' :: rest => rest
    | '-' :: rest => rest
    | rest => rest

end ScriptHost.Text
