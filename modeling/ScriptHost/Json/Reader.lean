import ScriptHost.Json.Numeral
import ScriptHost.Json.StringLiteral

/-! Reading one JSON value from the front of a text. `room` bounds the characters that may be
left and `levels` the lists and objects that may still be opened, one inside the other. -/

namespace ScriptHost.Json

abbrev Reader (α : Type) := List Char → Except Fault (α × List Char)

def isSpace (c : Char) : Bool := c = ' ' ∨ c = '\n' ∨ c = '\t' ∨ c = '\r'

def skipSpace (s : List Char) : List Char := s.dropWhile isSpace

/-- The letters that a word still needs. -/
def readWord : List Char → List Char → Except Fault (List Char)
  | [], s => .ok s
  | _ :: _, [] => .error (.here .endInValue [])
  | c :: cs, d :: s => if c = d then readWord cs s else .error (.next .wantWord (d :: s))

/-- The front of a value: a scalar as a whole, or the bracket of a list or an object. -/
inductive Front where
  | scalar (j : Json) (rest : List Char)
  | list (rest : List Char)
  | map (rest : List Char)

def readFront (room : Nat) (s : List Char) : Except Fault Front :=
  match skipSpace s with
  | [] => .error (.next .endInValue [])
  | 'n' :: rest => return .scalar .null (← readWord ['u', 'l', 'l'] rest)
  | 't' :: rest => return .scalar (.bool true) (← readWord ['r', 'u', 'e'] rest)
  | 'f' :: rest => return .scalar (.bool false) (← readWord ['a', 'l', 's', 'e'] rest)
  | '"' :: rest => do
    let (cs, rest) ← readString room rest
    return .scalar (.string (String.ofList cs)) rest
  | '[' :: rest => .ok (.list rest)
  | '\x7b' :: rest => .ok (.map rest)
  | c :: rest =>
    if c = '-' ∨ c.isDigit then do
      let (n, rest) ← readNumber (c :: rest)
      return .scalar (.number n) rest
    else .error (.next .wantValue (c :: rest))

/-- What follows inside a list or an object: its end, with the text behind the bracket, or
another element, with the text from there on. -/
inductive Turn where
  | over (rest : List Char)
  | more (rest : List Char)

def nextItem (first : Bool) (s : List Char) : Except Fault Turn :=
  match skipSpace s with
  | [] => .error (.next .endInList [])
  | ']' :: rest => .ok (.over rest)
  | c :: rest =>
    if first then .ok (.more (c :: rest))
    else if c = ',' then
      match skipSpace rest with
      | [] => .error (.next .endInValue [])
      | ']' :: rest => .error (.next .trailingComma (']' :: rest))
      | rest => .ok (.more rest)
    else .error (.next .wantCommaInList (c :: rest))

/-- The opening quote of a member's name is passed over. -/
def nextMember (first : Bool) (s : List Char) : Except Fault Turn :=
  match skipSpace s with
  | [] => .error (.next .endInObject [])
  | '\x7d' :: rest => .ok (.over rest)
  | c :: rest =>
    if first then
      if c = '"' then .ok (.more rest) else .error (.next .nameNotString (c :: rest))
    else if c = ',' then
      match skipSpace rest with
      | [] => .error (.next .endInValue [])
      | '"' :: rest => .ok (.more rest)
      | '\x7d' :: rest => .error (.next .trailingComma ('\x7d' :: rest))
      | rest => .error (.next .nameNotString rest)
    else .error (.next .wantCommaInObject (c :: rest))

def readColon (s : List Char) : Except Fault (List Char) :=
  match skipSpace s with
  | [] => .error (.next .endInObject [])
  | ':' :: rest => .ok rest
  | rest => .error (.next .wantColon rest)

def readItems (item : Reader Json) : Nat → Bool → Reader (List Json)
  | 0, _, s => .error (.next .endInList s)
  | room + 1, first, s => do
    match ← nextItem first s with
    | .over rest => return ([], rest)
    | .more rest =>
      let (j, rest) ← item rest
      let (js, rest) ← readItems item room false rest
      return (j :: js, rest)

def readMembers (item : Reader Json) : Nat → Bool → Reader (List (String × Json))
  | 0, _, s => .error (.next .endInObject s)
  | room + 1, first, s => do
    match ← nextMember first s with
    | .over rest => return ([], rest)
    | .more rest =>
      let (name, rest) ← readString room rest
      let rest ← readColon rest
      let (j, rest) ← item rest
      let (js, rest) ← readMembers item room false rest
      return ((String.ofList name, j) :: js, rest)

/-- A value whose own elements are read by `inner`, or are too deep where there is none. -/
def readNode (room : Nat) (inner : Option (Reader Json)) : Reader Json := fun s => do
  match ← readFront room s, inner with
  | .scalar j rest, _ => return (j, rest)
  | .list _, none => .error (.next .tooDeep (skipSpace s))
  | .map _, none => .error (.next .tooDeep (skipSpace s))
  | .list rest, some item =>
    let (js, rest) ← readItems item room true rest
    return (.array js, rest)
  | .map rest, some item =>
    let (js, rest) ← readMembers item room true rest
    return (ofMembers js, rest)

def readValue (room : Nat) : Nat → Reader Json
  | 0, s => readNode room none s
  | levels + 1, s => readNode room (some (readValue room levels)) s

end ScriptHost.Json
