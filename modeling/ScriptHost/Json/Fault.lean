import ScriptHost.Json.Printer
import ScriptHost.Text.Quoted

/-! What can be wrong with a JSON text, and where. A fault of the syntax or of a value's type is
placed when it arises. A fault found by a record as a whole has no place of its own: it moves to
the end of the innermost record around it, or stays without a place when there is none. -/

namespace ScriptHost.Json

/-- What stood where a value of another type was wanted. -/
inductive Found where
  | null
  | bool (b : Bool)
  | number (n : Number)
  | string (s : String)
  | list
  | map
deriving DecidableEq, Repr

inductive Flaw where
  | endInValue
  | endInList
  | endInObject
  | endInString
  | wantColon
  | wantCommaInList
  | wantCommaInObject
  | wantWord
  | wantValue
  | invalidEscape
  | invalidNumber
  | numberOutOfRange
  | controlCharacter
  | nameNotString
  | loneSurrogate
  | surrogateCutShort
  | trailingComma
  | trailingCharacters
  | tooDeep
  | wrongType (found : Found) (wanted : String)
  | outOfRange (i : Int) (wanted : String)
  | missingField (name : String)
  | duplicateField (name : String)
  /-- A list ended before all fields of a record were read from it. -/
  | tooFew (length : Nat) (record : String) (fields : Nat)
  /-- A list held more than the fields of a record. -/
  | tooMany (length : Nat)
  /-- A field's own grammar refused its text. -/
  | refused (reason : String)
deriving DecidableEq, Repr

def Found.message : Found → String
  | .null => "null"
  | .bool b => s!"boolean `{b}`"
  | .number (.integer i) => s!"integer `{String.ofList (printNumber (.integer i))}`"
  | .number (.real x) => s!"floating point `{String.ofList (printReal x)}`"
  | .string s => s!"string {Text.quoted s}"
  | .list => "sequence"
  | .map => "map"

def Flaw.message : Flaw → String
  | .endInValue => "EOF while parsing a value"
  | .endInList => "EOF while parsing a list"
  | .endInObject => "EOF while parsing an object"
  | .endInString => "EOF while parsing a string"
  | .wantColon => "expected `:`"
  | .wantCommaInList => "expected `,` or `]`"
  | .wantCommaInObject => "expected `,` or `\x7d`"
  | .wantWord => "expected ident"
  | .wantValue => "expected value"
  | .invalidEscape => "invalid escape"
  | .invalidNumber => "invalid number"
  | .numberOutOfRange => "number out of range"
  | .controlCharacter => "control character (\\u0000-\\u001F) found while parsing a string"
  | .nameNotString => "key must be a string"
  | .loneSurrogate => "lone leading surrogate in hex escape"
  | .surrogateCutShort => "unexpected end of hex escape"
  | .trailingComma => "trailing comma"
  | .trailingCharacters => "trailing characters"
  | .tooDeep => "recursion limit exceeded"
  | .wrongType found wanted => s!"invalid type: {found.message}, expected {wanted}"
  | .outOfRange i wanted =>
    s!"invalid value: integer `{String.ofList (printNumber (.integer i))}`, expected {wanted}"
  | .missingField name => s!"missing field `{name}`"
  | .duplicateField name => s!"duplicate field `{name}`"
  | .tooFew length record fields =>
    let noun := if fields = 1 then "element" else "elements"
    s!"invalid length {length}, expected struct {record} with {fields} {noun}"
  | .tooMany length => s!"invalid length {length}, expected fewer elements in array"
  | .refused reason => reason

/-- Bytes of a text. -/
def size (s : List Char) : Nat := s.foldr (fun c n => c.utf8Size + n) 0

inductive Place where
  /-- So many bytes are unread behind it. -/
  | fixed (unread : Nat)
  /-- It has no place yet; the text was read up to here when it arose. -/
  | floating (rest : List Char)
deriving DecidableEq, Repr

structure Fault where
  flaw : Flaw
  place : Place
deriving DecidableEq, Repr

/-- Behind all that was read. -/
def Fault.here (flaw : Flaw) (rest : List Char) : Fault := ⟨flaw, .fixed (size rest)⟩

/-- Behind the byte that is next, or at the end of the text. -/
def Fault.next (flaw : Flaw) (rest : List Char) : Fault := ⟨flaw, .fixed (size rest - 1)⟩

def Fault.floating (flaw : Flaw) (rest : List Char) : Fault := ⟨flaw, .floating rest⟩

/-- A line and a column of a text, the column in bytes. -/
structure Position where
  line : Nat
  column : Nat
deriving DecidableEq, Repr

/-- Moves on by a number of bytes, which may end inside a character. -/
def Position.advance (p : Position) : Nat → List Char → Position
  | 0, _ => p
  | _, [] => p
  | n + 1, c :: rest =>
    if c = '\n' then Position.advance ⟨p.line + 1, 0⟩ n rest
    else
      let step := min (n + 1) c.utf8Size
      Position.advance ⟨p.line, p.column + step⟩ (n + 1 - step) rest

def positionOf (text : List Char) (unread : Nat) : Position :=
  Position.advance ⟨1, 0⟩ (size text - unread) text

structure Error where
  flaw : Flaw
  position : Option Position
deriving DecidableEq, Repr

def Error.message (e : Error) : String :=
  match e.position with
  | none => e.flaw.message
  | some p => s!"{e.flaw.message} at line {p.line} column {p.column}"

def Fault.error (f : Fault) (text : List Char) : Error :=
  match f.place with
  | .fixed unread => ⟨f.flaw, some (positionOf text unread)⟩
  | .floating _ => ⟨f.flaw, none⟩

end ScriptHost.Json
