import ScriptHost.Text.Quoted
import ScriptHost.Text.Decimal

/-! Addresses to listen on, as far as they are looked at before the operating system is asked, and
what can go wrong with a listener or a client session. -/

namespace ScriptHost

inductive TransportError where
  | bind (addr : String) (reason : String)
  | connect (url : String) (reason : String)
  | io (reason : String)
deriving DecidableEq, Repr

def TransportError.message : TransportError → String
  | .bind addr reason => s!"Failed to bind session listener to {addr}: {reason}"
  | .connect url reason => s!"Failed to connect to {url}: {reason}"
  | .io reason => s!"I/O error: {reason}"

/-- Splits at the last occurrence of a character, which stands in neither part. -/
def splitAtLast (c : Char) (s : List Char) : Option (List Char × List Char) :=
  if c ∈ s then
    let behind := s.reverse.takeWhile (· ≠ c)
    some ((s.reverse.drop (behind.length + 1)).reverse, behind.reverse)
  else none

structure Address where
  host : String
  port : Nat
deriving DecidableEq, Repr

inductive AddressError where
  | noPort
  | badPort
deriving DecidableEq, Repr

def AddressError.message : AddressError → String
  | .noPort => "invalid socket address"
  | .badPort => "invalid port value"

def Address.parse (text : String) : Except AddressError Address :=
  match splitAtLast ':' text.toList with
  | none => .error .noPort
  | some (host, port) =>
    match Text.readDecimal (UInt16.size - 1) port with
    | .ok n => .ok ⟨String.ofList host, n⟩
    | .error _ => .error .badPort

/-- Binds an address; `os` is what the operating system says of it. An address in the message is
quoted. -/
def bindSession (os : Address → Except String Unit) (addr : String) : Except TransportError Unit :=
  match Address.parse addr with
  | .error e => .error (.bind (Text.quoted addr) e.message)
  | .ok a => (os a).mapError (.bind (Text.quoted addr))

end ScriptHost
