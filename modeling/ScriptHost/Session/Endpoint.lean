import ScriptHost.Session.Address

/-! URLs to connect to. A URL is a scheme and `://`, an authority, and a path with a query; or an
authority alone; or a path alone, which names no host. All of it is checked before the network is
asked. -/

namespace ScriptHost

/-- What of a URL matters for a connection. -/
structure Endpoint where
  /-- As it is written: schemes in other letters than small ones are not known. -/
  scheme : Option String
  host : String
  port : Option Nat
deriving DecidableEq, Repr

inductive UrlError where
  | empty
  | tooLong
  | longScheme
  | badCharacter
  | badAuthority
  | badFormat
  | noHost
  | badScheme
deriving DecidableEq, Repr

def UrlError.message : UrlError → String
  | .empty => "HTTP format error: empty string"
  | .tooLong => "HTTP format error: uri too long"
  | .longScheme => "HTTP format error: scheme too long"
  | .badCharacter => "HTTP format error: invalid uri character"
  | .badAuthority => "HTTP format error: invalid authority"
  | .badFormat => "HTTP format error: invalid format"
  | .noHost => "URL error: No host name in the URL"
  | .badScheme => "URL error: URL scheme not supported"

namespace Endpoint

def maxLength : Nat := 65534

def maxScheme : Nat := 64

def isSchemeChar (c : Char) : Bool :=
  c.isAlphanum || c = '+' || c = '-' || c = '.' || c = '~'

/-- The scheme before `://`, if there is one, and the rest. That mark alone is no scheme. -/
def splitScheme (s : List Char) : Except UrlError (Option String × List Char) :=
  let name := s.takeWhile isSchemeChar
  match s.drop name.length with
  | ':' :: '/' :: '/' :: rest =>
    if name = [] ∧ rest = [] then .ok (none, s)
    else if name.length ≤ maxScheme then .ok (some (String.ofList name), rest)
    else .error .longScheme
  | _ => .ok (none, s)

def isAuthorityChar (c : Char) : Bool :=
  c.isAlphanum || c ∈ ['!', '$', '&', '\'', '(', ')', '*', '+', ',', '-', '.', ';', '=', '_', '~']

/-- What was seen of an authority. Colons and percent signs count from the last at sign or closing
bracket on. -/
structure Seen where
  colons : Nat := 0
  opened : Bool := false
  shut : Bool := false
  percent : Bool := false
  endsInAt : Bool := false
deriving DecidableEq, Repr

def Seen.next (a : Seen) (c : Char) : Except UrlError Seen :=
  let a := { a with endsInAt := false }
  match c with
  | ':' => if a.colons < 8 then .ok { a with colons := a.colons + 1 } else .error .badAuthority
  | '[' => if a.percent || a.opened then .error .badAuthority else .ok { a with opened := true }
  | ']' =>
    if a.opened && !a.shut then .ok { a with shut := true, colons := 0, percent := false }
    else .error .badAuthority
  | '@' => .ok { a with colons := 0, percent := false, endsInAt := true }
  | '%' => .ok { a with percent := true }
  | c => if isAuthorityChar c then .ok a else .error .badCharacter

/-- One pair of brackets at most, one colon at most behind it, no percent sign there, and
something behind an at sign. -/
def Seen.fine (a : Seen) : Bool :=
  a.opened == a.shut && a.colons ≤ 1 && !a.percent && !a.endsInAt

def checkAuthority (s : List Char) : Except UrlError Unit := do
  if (← s.foldlM Seen.next {}).fine then return () else .error .badAuthority

def isShown (c : Char) : Bool := 0x20 < c.toNat && c.toNat ≠ 0x7F

def isPathChar (c : Char) : Bool := isShown c && c ∉ ['#', '<', '>', '?', '`']

def isQueryChar (c : Char) : Bool := isShown c && c ∉ ['"', '#', '<', '>']

/-- A path, and a query behind a question mark. What stands behind a number sign is not looked
at. -/
def checkPath (s : List Char) : Except UrlError Unit :=
  let s := s.takeWhile (· ≠ '#')
  let path := s.takeWhile (· ≠ '?')
  let query := s.drop (path.length + 1)
  if path.all isPathChar && query.all isQueryChar then .ok () else .error .badCharacter

def hostOf (authority : List Char) : List Char :=
  let named := (authority.reverse.takeWhile (· ≠ '@')).reverse
  match named with
  | '[' :: rest => rest.takeWhile (· ≠ ']')
  | _ => named.takeWhile (· ≠ ':')

def portOf (authority : List Char) : Option Nat := do
  let (_, port) ← splitAtLast ':' authority
  (Text.readDecimal (UInt16.size - 1) port).toOption

def parse (url : String) : Except UrlError Endpoint := do
  let s := url.toList
  if maxLength < url.utf8ByteSize then .error .tooLong
  else if s = [] then .error .empty
  else if s = ['*'] then .error .noHost
  else if s.head? = some '/' then
    checkPath s
    .error .noHost
  else
    let (scheme, rest) ← splitScheme s
    let authority := rest.takeWhile fun c => c ≠ '/' ∧ c ≠ '?' ∧ c ≠ '#'
    let path := rest.drop authority.length
    checkAuthority authority
    match scheme with
    | none =>
      if path = [] then return ⟨none, String.ofList (hostOf authority), portOf authority⟩
      -- A single character is held to be an authority.
      else .error (if s.length = 1 then .badCharacter else .badFormat)
    | some _ =>
      if rest = [] then .error .empty
      else if authority = [] then .error .badFormat
      else
        checkPath path
        return ⟨scheme, String.ofList (hostOf authority), portOf authority⟩

def dialPort (e : Endpoint) : Except UrlError Nat :=
  match e.port, e.scheme with
  | some n, _ => .ok n
  | none, some "ws" => .ok 80
  | none, some "wss" => .ok 443
  | none, _ => .error .badScheme

end Endpoint

/-- Connects to a URL; `os` is what the network says of the address. A scheme that is not known
is noticed at once where no port is named, and otherwise after the connection is made. -/
def connectSession (os : Address → Except String Unit) (url : String) :
    Except TransportError Unit := do
  let refuse (e : UrlError) : TransportError := .connect url e.message
  let endpoint ← (Endpoint.parse url).mapError refuse
  let port ← endpoint.dialPort.mapError refuse
  (os ⟨endpoint.host, port⟩).mapError fun reason => .connect url s!"IO error: {reason}"
  if endpoint.scheme = some "ws" ∨ endpoint.scheme = some "wss" then return ()
  else .error (refuse .badScheme)

end ScriptHost
