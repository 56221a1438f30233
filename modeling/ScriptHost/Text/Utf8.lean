/-! Bytes and text. Reading is one machine over the bytes: it puts out each character it
completes, and a gap for each longest run of bytes that starts a character and cannot finish it.
Strict reading refuses a gap, lossy reading shows it as U+FFFD. -/

namespace ScriptHost

abbrev Bytes := List UInt8

namespace Utf8

/-- A character begun and not finished: how many bytes it still needs, between which bounds the
next one must lie, and the bits read so far. -/
structure Begun where
  owed : Nat
  low : Nat
  high : Nat
  point : Nat
deriving DecidableEq, Repr

/-- What a byte means where a character may start. -/
inductive Lead where
  | whole (c : Char)
  | begun (p : Begun)
  | never
deriving DecidableEq, Repr

def lead (b : Nat) : Lead :=
  if b < 0x80 then .whole (Char.ofNat b)
  else if b < 0xC2 then .never
  else if b < 0xE0 then .begun ⟨1, 0x80, 0xBF, b - 0xC0⟩
  else if b = 0xE0 then .begun ⟨2, 0xA0, 0xBF, 0⟩
  else if b = 0xED then .begun ⟨2, 0x80, 0x9F, 0xD⟩
  else if b < 0xF0 then .begun ⟨2, 0x80, 0xBF, b - 0xE0⟩
  else if b = 0xF0 then .begun ⟨3, 0x90, 0xBF, 0⟩
  else if b < 0xF4 then .begun ⟨3, 0x80, 0xBF, b - 0xF0⟩
  else if b = 0xF4 then .begun ⟨3, 0x80, 0x8F, 4⟩
  else .never

/-- Puts out what `b` completes when no character is open. A gap is `none`. -/
def start (b : Nat) : List (Option Char) × Option Begun :=
  match lead b with
  | .whole c => ([some c], none)
  | .begun p => ([], some p)
  | .never => ([none], none)

def step : Option Begun → Nat → List (Option Char) × Option Begun
  | none, b => start b
  | some p, b =>
    if p.low ≤ b ∧ b ≤ p.high then
      let point := p.point * 64 + (b - 0x80)
      if p.owed = 1 then ([some (Char.ofNat point)], none)
      else ([], some ⟨p.owed - 1, 0x80, 0xBF, point⟩)
    else
      -- The open character is lost; the byte is read again as a first byte.
      (none :: (start b).1, (start b).2)

def scan : Option Begun → Bytes → List (Option Char)
  | none, [] => []
  | some _, [] => [none]
  | p, b :: rest => (step p b.toNat).1 ++ scan (step p b.toNat).2 rest

def encode (s : List Char) : Bytes :=
  s.flatMap String.utf8EncodeChar

def decode? (b : Bytes) : Option (List Char) :=
  (scan none b).mapM id

def replacement : Char := '\uFFFD'

/-- The text of any bytes, with U+FFFD for every gap. -/
def lossy (b : Bytes) : List Char :=
  (scan none b).map (·.getD replacement)

end Utf8

def bytesOf (s : String) : Bytes := Utf8.encode s.toList

def textOf? (b : Bytes) : Option String := (Utf8.decode? b).map String.ofList

def textOf (b : Bytes) : String := String.ofList (Utf8.lossy b)

end ScriptHost
