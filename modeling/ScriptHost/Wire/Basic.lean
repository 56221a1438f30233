import ScriptHost.Json.Reader

/-! How a type travels as JSON. A wire type is read in two ways, straight from a text or from a
value that was read before, and written in one. Types that are no records say what they accept
once, for values, and read a text by reading its front. -/

namespace ScriptHost

structure Wire (α : Type) where
  /-- `room` and `levels` are those of the JSON reader. -/
  read (room levels : Nat) : Json.Reader α
  ofJson : Json → Except Json.Flaw α
  print : α → List Char

namespace Json

def found : Json → Found
  | .null => .null
  | .bool b => .bool b
  | .number n => .number n
  | .string s => .string s
  | .array _ => .list
  | .object _ => .map

/-- A flaw of a value that was read up to `rest`. What a field's own grammar refuses has no
place of its own. -/
def Fault.ofValue (flaw : Flaw) (rest : List Char) : Fault :=
  match flaw with
  | .refused _ => .floating flaw rest
  | _ => .here flaw rest

def Fault.lift (rest : List Char) : Except Flaw α → Except Fault α
  | .ok a => .ok a
  | .error flaw => .error (.ofValue flaw rest)

/-- Reads the front of a value and asks `accept`. A list or an object is judged by its bracket,
which stays unread. -/
def readScalar (room : Nat) (accept : Json → Except Flaw α) : Reader α := fun s => do
  match ← readFront room s with
  | .scalar j rest => return (← Fault.lift rest (accept j), rest)
  | .list _ => return (← Fault.lift (skipSpace s) (accept (.array [])), skipSpace s)
  | .map _ => return (← Fault.lift (skipSpace s) (accept (.object [])), skipSpace s)

def acceptText : Json → Except Flaw String
  | .string s => .ok s
  | j => .error (.wrongType j.found "a string")

def acceptFlag : Json → Except Flaw Bool
  | .bool b => .ok b
  | j => .error (.wrongType j.found "a boolean")

def acceptUnsigned (bits : Nat) : Json → Except Flaw Nat
  | .number (.integer i) =>
    if 0 ≤ i ∧ i.toNat < Nat.pow 2 bits then .ok i.toNat else .error (.outOfRange i s!"u{bits}")
  | j => .error (.wrongType j.found s!"u{bits}")

end Json

namespace Wire

def scalar (accept : Json → Except Json.Flaw α) (print : α → List Char) : Wire α where
  read room _ := Json.readScalar room accept
  ofJson := accept
  print := print

def text : Wire String := scalar Json.acceptText fun s => Json.printString s.toList

def flag : Wire Bool := scalar Json.acceptFlag fun b => Json.print (.bool b)

def unsigned (bits : Nat) (ofNat : Nat → α) (toNat : α → Nat) : Wire α :=
  scalar (fun j => ofNat <$> Json.acceptUnsigned bits j) fun a => Text.decimal (toNat a)

def word16 : Wire UInt16 := unsigned 16 UInt16.ofNat UInt16.toNat

def word32 : Wire UInt32 := unsigned 32 UInt32.ofNat UInt32.toNat

def word64 : Wire UInt64 := unsigned 64 UInt64.ofNat UInt64.toNat

/-- A string that another grammar reads. What that grammar refuses is reported in its words. -/
def written (read : String → Except String α) (print : α → String) : Wire α :=
  scalar
    (fun j => do
      let s ← Json.acceptText j
      match read s with
      | .ok a => return a
      | .error reason => .error (.refused reason))
    fun a => Json.printString (print a).toList

def json : Wire Json where
  read room levels := Json.readValue room levels
  ofJson := .ok
  print := Json.print

def optional (wire : Wire α) : Wire (Option α) where
  read room levels s :=
    match Json.skipSpace s with
    | 'n' :: rest => return (none, ← Json.readWord ['u', 'l', 'l'] rest)
    | rest => do
      let (a, rest) ← wire.read room levels rest
      return (some a, rest)
  ofJson
    | .null => .ok none
    | j => some <$> wire.ofJson j
  print
    | none => Json.print .null
    | some a => wire.print a

def map (wire : Wire α) (make : α → β) (view : β → α) : Wire β where
  read room levels s := do
    let (a, rest) ← wire.read room levels s
    return (make a, rest)
  ofJson j := make <$> wire.ofJson j
  print b := wire.print (view b)

def maxLevels : Nat := 127

/-- Reads a whole text, blanks around the value included. -/
def decode (wire : Wire α) (text : String) : Except Json.Error α :=
  let s := text.toList
  match wire.read s.length maxLevels s with
  | .error fault => .error (fault.error s)
  | .ok (a, rest) =>
    match Json.skipSpace rest with
    | [] => .ok a
    | rest => .error ((Json.Fault.next .trailingCharacters rest).error s)

def encode (wire : Wire α) (a : α) : String := String.ofList (wire.print a)

def decodeByValue (wire : Wire α) (text : String) : Except Json.Error α := do
  let j ← json.decode text
  match wire.ofJson j with
  | .ok a => return a
  | .error flaw => .error ⟨flaw, none⟩

end Wire
end ScriptHost
