import ScriptHost.Wire.Basic
import ScriptHost.Json.Skip

/-! Records on the wire. A record is read from an object, whose members may come in any order
and among unknown ones, or from a list of its fields in their order. It is written as an object
with the fields in their order. -/

namespace ScriptHost

structure Field (α : Type) where
  name : String
  wire : Wire α
  /-- The value of a field that is absent; a field without one is required. -/
  absent : Option α := none
  /-- Which values are left out when the record is written. -/
  omits : α → Bool := fun _ => false

/-- The fields of a record: their values, one after the other, and as much of them as was read
so far. -/
inductive Fields : Type → Type → Type 1 where
  | nil : Fields Unit Unit
  | cons (f : Field α) (rest : Fields β σ) : Fields (α × β) (Option α × σ)

namespace Fields

open Json

def length : Fields β σ → Nat
  | .nil => 0
  | .cons _ rest => rest.length + 1

def blank : Fields β σ → σ
  | .nil => ()
  | .cons _ rest => (none, rest.blank)

/-- The record at the end of its members. The first absent field that is required is missing. -/
def finish : Fields β σ → σ → Except Flaw β
  | .nil, _ => .ok ()
  | .cons f rest, (slot, slots) =>
    match slot <|> f.absent with
    | none => .error (.missingField f.name)
    | some a => do
      let b ← rest.finish slots
      return (a, b)

/-- Reads the value of the member `name`, its colon included. A member that is no field is
passed over, and a field that was read before is refused at once. -/
def readMember (room levels : Nat) (name : String) : Fields β σ → σ → Reader σ
  | .nil, _, s => do
    let s ← readColon s
    let s ← skipValue room s
    return ((), s)
  | .cons f rest, (slot, slots), s =>
    if name = f.name then
      if slot.isSome then .error (.floating (.duplicateField name) s)
      else do
        let s ← readColon s
        let (a, s) ← f.wire.read room levels s
        return ((some a, slots), s)
    else do
      let (slots, s) ← readMember room levels name rest slots s
      return ((slot, slots), s)

def readMembers (fields : Fields β σ) (bound levels : Nat) : Nat → Bool → σ → Reader σ
  | 0, _, _, s => .error (.next .endInObject s)
  | room + 1, first, slots, s => do
    match ← nextMember first s with
    | .over rest => return (slots, rest)
    | .more rest =>
      let (name, rest) ← readString bound rest
      let (slots, rest) ← fields.readMember bound levels (String.ofList name) slots rest
      readMembers fields bound levels room false slots rest

def readObject (fields : Fields β σ) (room levels : Nat) : Reader β := fun s => do
  let (slots, rest) ← fields.readMembers room levels room true fields.blank s
  match fields.finish slots with
  | .ok b => return (b, rest)
  | .error flaw => .error (.here flaw rest)

def readListEnd (s : List Char) : Except Fault (List Char) :=
  match skipSpace s with
  | [] => .error (.next .endInList [])
  | ']' :: rest => .ok rest
  | ',' :: rest =>
    match skipSpace rest with
    | ']' :: rest => .error (.next .trailingComma (']' :: rest))
    | rest => .error (.next .trailingCharacters rest)
  | rest => .error (.next .trailingCharacters rest)

/-- The fields in their order, from the `k`-th of the record `name` with `total` fields. A list
may end early where all that is left may be absent. -/
def readList (room levels : Nat) (name : String) (total : Nat) : Nat → Fields β σ → Reader β
  | _, .nil, s => do
    let rest ← readListEnd s
    return ((), rest)
  | k, .cons f fields, s => do
    match ← nextItem (k = 0) s, f.absent with
    | .over rest, none => .error (.here (.tooFew k name total) rest)
    | .over _, some a =>
      let (b, rest) ← readList room levels name total (k + 1) fields s
      return ((a, b), rest)
    | .more rest, _ =>
      let (a, rest) ← f.wire.read room levels rest
      let (b, rest) ← readList room levels name total (k + 1) fields rest
      return ((a, b), rest)

/-- Sets the field `name` from a value; a member that is no field says nothing. -/
def setMember (name : String) (j : Json) : Fields β σ → σ → Except Flaw σ
  | .nil, _ => .ok ()
  | .cons f rest, (slot, slots) =>
    if name = f.name then
      if slot.isSome then .error (.duplicateField name)
      else do return (some (← f.wire.ofJson j), slots)
    else do return (slot, ← setMember name j rest slots)

def ofMembers (fields : Fields β σ) (members : List (String × Json)) : Except Flaw β := do
  fields.finish (← members.foldlM (fun slots kv => fields.setMember kv.1 kv.2 slots) fields.blank)

/-- The fields in their order from the items of a list, and the items that are left. -/
def takeItems (name : String) (total : Nat) :
    Nat → Fields β σ → List Json → Except Flaw (β × List Json)
  | _, .nil, items => .ok ((), items)
  | k, .cons f fields, [] =>
    match f.absent with
    | none => .error (.tooFew k name total)
    | some a => do
      let (b, rest) ← takeItems name total (k + 1) fields []
      return ((a, b), rest)
  | k, .cons f fields, j :: items => do
    let a ← f.wire.ofJson j
    let (b, rest) ← takeItems name total (k + 1) fields items
    return ((a, b), rest)

def ofItems (fields : Fields β σ) (name : String) (items : List Json) : Except Flaw β := do
  let (b, rest) ← fields.takeItems name fields.length 0 items
  if rest = [] then return b else .error (.tooMany items.length)

def printMembers : Fields β σ → β → List (List Char)
  | .nil, _ => []
  | .cons f rest, (a, b) =>
    if f.omits a then rest.printMembers b
    else (printString f.name.toList ++ ':' :: f.wire.print a) :: rest.printMembers b

end Fields

/-- Gives a fault without a place the end of the object it arose in: blanks are passed over, and
the closing bracket if it is next. -/
def Json.Fault.settleInObject (fault : Json.Fault) : Json.Fault :=
  match fault.place with
  | .fixed _ => fault
  | .floating rest =>
    match Json.skipSpace rest with
    | '\x7d' :: rest => .here fault.flaw rest
    | rest => .here fault.flaw rest

/-- The same for a list of fields, where a comma and the blanks behind it are passed over too. -/
def Json.Fault.settleInList (fault : Json.Fault) : Json.Fault :=
  match fault.place with
  | .fixed _ => fault
  | .floating rest =>
    match Json.skipSpace rest with
    | ']' :: rest => .here fault.flaw rest
    | ',' :: rest => .here fault.flaw (Json.skipSpace rest)
    | rest => .here fault.flaw rest

namespace Wire

def record (name : String) (fields : Fields β σ) (make : β → α) (view : α → β) : Wire α where
  read room levels s := do
    match ← Json.readFront room s, levels with
    | .scalar j rest, _ => .error (.here (.wrongType j.found s!"struct {name}") rest)
    | _, 0 => .error (.next .tooDeep (Json.skipSpace s))
    | .map rest, levels + 1 =>
      let (b, rest) ← (fields.readObject room levels rest).mapError Json.Fault.settleInObject
      return (make b, rest)
    | .list rest, levels + 1 =>
      let (b, rest) ← (fields.readList room levels name fields.length 0 rest).mapError
        Json.Fault.settleInList
      return (make b, rest)
  ofJson
    | .object members => make <$> fields.ofMembers members
    | .array items => make <$> fields.ofItems name items
    | j => .error (.wrongType j.found s!"struct {name}")
  print a := '\x7b' :: Json.commaSeparated (fields.printMembers (view a)) ++ ['\x7d']

end Wire
end ScriptHost
