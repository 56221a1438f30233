import ScriptHost.Json.Reader

/-! Passing over a value that nobody reads. Its syntax is checked, but it may be nested to any
depth, its numbers are never out of range and its surrogates need no partner. -/

namespace ScriptHost.Json

abbrev Skip := List Char → Except Fault (List Char)

def skipItems (item : Skip) : Nat → Skip
  | 0, s => .error (.next .endInValue s)
  | room + 1, s => do
    let s ← item s
    match skipSpace s with
    | [] => .error (.next .endInList [])
    | ',' :: rest => skipItems item room rest
    | ']' :: rest => .ok rest
    | rest => .error (.next .wantCommaInList rest)

def skipMembers (item : Skip) : Nat → Skip
  | 0, s => .error (.next .endInObject s)
  | room + 1, s =>
    match skipSpace s with
    | [] => .error (.next .endInObject [])
    | '"' :: rest => do
      let rest ← skipString room rest
      let rest ← readColon rest
      let rest ← item rest
      match skipSpace rest with
      | [] => .error (.next .endInObject [])
      | ',' :: rest => skipMembers item room rest
      | '\x7d' :: rest => .ok rest
      | rest => .error (.next .wantCommaInObject rest)
    | rest => .error (.next .nameNotString rest)

def skipNode (room : Nat) (item : Skip) : Skip := fun s =>
  match skipSpace s with
  | [] => .error (.next .endInValue [])
  | 'n' :: rest => readWord ['u', 'l', 'l'] rest
  | 't' :: rest => readWord ['r', 'u', 'e'] rest
  | 'f' :: rest => readWord ['a', 'l', 's', 'e'] rest
  | '"' :: rest => skipString room rest
  | '[' :: rest =>
    match skipSpace rest with
    | [] => .error (.next .endInList [])
    | ']' :: rest => .ok rest
    | rest => skipItems item room rest
  | '\x7b' :: rest =>
    match skipSpace rest with
    | [] => .error (.next .endInObject [])
    | '\x7d' :: rest => .ok rest
    | rest => skipMembers item room rest
  | c :: rest =>
    if c = '-' ∨ c.isDigit then do
      let (_, rest) ← readNumeral .invalidNumber (c :: rest)
      return rest
    else .error (.next .wantValue (c :: rest))

/-- The second count bounds how deep the value can be nested, and a level takes a character. -/
def skipDeep (room : Nat) : Nat → Skip
  | 0, s => .error (.next .endInValue s)
  | deep + 1, s => skipNode room (skipDeep room deep) s

def skipValue (room : Nat) : Skip := skipDeep room room

end ScriptHost.Json
