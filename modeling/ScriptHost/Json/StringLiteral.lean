import ScriptHost.Json.Fault
import ScriptHost.Text.Hex

/-! String literals, behind their opening quote. Every loop counts down the characters that may
still be left; when none is left the text has ended, so its last case is that fault. -/

namespace ScriptHost.Json

def hexQuad? : List Char → Option (Nat × List Char)
  | a :: b :: c :: d :: rest => do
    let a ← Text.hexValue? a
    let b ← Text.hexValue? b
    let c ← Text.hexValue? c
    let d ← Text.hexValue? d
    return (((a * 16 + b) * 16 + c) * 16 + d, rest)
  | _ => none

/-- Four hexadecimal digits. Four bytes are taken before they are looked at. -/
def readHexQuad (s : List Char) : Except Fault (Nat × List Char) :=
  match hexQuad? s with
  | some found => .ok found
  | none =>
    if size s < 4 then .error ⟨.endInString, .fixed 0⟩
    else .error ⟨.invalidEscape, .fixed (size s - 4)⟩

def shortEscape? : Char → Option Char
  | '"' => some '"'
  | '\\' => some '\\'
  | '/' => some '/'
  | 'b' => some '\x08'
  | 'f' => some '\x0c'
  | 'n' => some '\n'
  | 'r' => some '\r'
  | 't' => some '\t'
  | _ => none

def readLowSurrogate (high : Nat) : List Char → Except Fault (Char × List Char)
  | '\\' :: 'u' :: rest => do
    let (low, rest) ← readHexQuad rest
    if 0xDC00 ≤ low ∧ low ≤ 0xDFFF then
      return (Char.ofNat ((high - 0xD800) * 0x400 + (low - 0xDC00) + 0x10000), rest)
    else .error (.here .loneSurrogate rest)
  | [] => .error (.here .endInString [])
  | ['\\'] => .error (.here .endInString [])
  | '\\' :: rest => .error (.next .surrogateCutShort rest)
  | s => .error (.next .surrogateCutShort s)

def readEscape : List Char → Except Fault (Char × List Char)
  | [] => .error (.here .endInString [])
  | 'u' :: rest => do
    let (n, rest) ← readHexQuad rest
    if 0xDC00 ≤ n ∧ n ≤ 0xDFFF then .error (.here .loneSurrogate rest)
    else if 0xD800 ≤ n ∧ n ≤ 0xDBFF then readLowSurrogate n rest
    else return (Char.ofNat n, rest)
  | c :: rest =>
    match shortEscape? c with
    | some d => .ok (d, rest)
    | none => .error (.next .invalidEscape (c :: rest))

def readString : Nat → List Char → Except Fault (List Char × List Char)
  | 0, s => .error (.here .endInString s)
  | _ + 1, [] => .error (.here .endInString [])
  | room + 1, c :: rest =>
    if c = '"' then .ok ([], rest)
    else if c = '\\' then do
      let (d, rest) ← readEscape rest
      let (ds, rest) ← readString room rest
      return (d :: ds, rest)
    else if c.toNat < 0x20 then .error (.here .controlCharacter rest)
    else do
      let (ds, rest) ← readString room rest
      return (c :: ds, rest)

/-- Passes over an escape without a look at surrogates. -/
def skipEscape : List Char → Except Fault (List Char)
  | [] => .error (.here .endInString [])
  | 'u' :: rest => do
    let (_, rest) ← readHexQuad rest
    return rest
  | c :: rest =>
    match shortEscape? c with
    | some _ => .ok rest
    | none => .error (.next .invalidEscape (c :: rest))

def skipString : Nat → List Char → Except Fault (List Char)
  | 0, s => .error (.here .endInString s)
  | _ + 1, [] => .error (.here .endInString [])
  | room + 1, c :: rest =>
    if c = '"' then .ok rest
    else if c = '\\' then do skipString room (← skipEscape rest)
    else if c.toNat < 0x20 then .error (.here .controlCharacter (c :: rest))
    else skipString room rest

end ScriptHost.Json
