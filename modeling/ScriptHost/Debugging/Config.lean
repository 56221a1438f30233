import ScriptHost.Wire.Record
import ScriptHost.Text.Blank

/-! Where and how the debug bridge listens. A configuration comes from JSON, where every field
may be absent, or from three environment variables laid over the defaults. -/

namespace ScriptHost

structure BridgeConfig where
  host : String
  /-- Zero asks for any free port. -/
  port : UInt16
  pauseOnLoad : Bool
  shutdownTimeoutMs : UInt64
deriving DecidableEq, Repr

inductive ConfigError where
  | json (e : Json.Error)
  | badPort (raw : String)
  | badFlag (raw : String)
deriving DecidableEq, Repr

namespace BridgeConfig

def hostVariable : String := "JSRT_DEBUG_HOST"

def portVariable : String := "JSRT_DEBUG_PORT"

def pauseVariable : String := "JSRT_DEBUG_PAUSE_ON_LOAD"

def default : BridgeConfig := ⟨"127.0.0.1", 8888, true, 2000⟩

instance : Inhabited BridgeConfig := ⟨default⟩

def wire : Wire BridgeConfig :=
  .record "BridgeConfig"
    (.cons { name := "host", wire := Wire.text, absent := some default.host }
      (.cons { name := "port", wire := Wire.word16, absent := some default.port }
        (.cons { name := "pauseOnLoad", wire := Wire.flag, absent := some default.pauseOnLoad }
          (.cons { name := "shutdownTimeoutMs", wire := Wire.word64,
                   absent := some default.shutdownTimeoutMs } .nil))))
    (fun (host, port, pauseOnLoad, shutdownTimeoutMs, _) =>
      ⟨host, port, pauseOnLoad, shutdownTimeoutMs⟩)
    fun c => (c.host, c.port, c.pauseOnLoad, c.shutdownTimeoutMs, ())

def ofJson (text : String) : Except ConfigError BridgeConfig :=
  (wire.decode text).mapError .json

def readFlag (s : List Char) : Option Bool :=
  let word := String.ofList (s.map Char.toLower)
  if word ∈ ["1", "true", "yes", "on"] then some true
  else if word ∈ ["0", "false", "no", "off"] then some false
  else none

/-- A blank host is ignored. -/
def readHost (raw : String) : String :=
  let trimmed := Text.trim raw.toList
  if trimmed = [] then default.host else String.ofList trimmed

def readPort (raw : String) : Except ConfigError UInt16 :=
  match Text.readDecimal (UInt16.size - 1) (Text.trim raw.toList) with
  | .ok n => .ok (UInt16.ofNat n)
  | .error _ => .error (.badPort raw)

def readPause (raw : String) : Except ConfigError Bool :=
  match readFlag (Text.trim raw.toList) with
  | some b => .ok b
  | none => .error (.badFlag raw)

/-- A variable that is unset leaves the default. -/
def fieldOf (default : α) (read : String → Except ConfigError α) :
    Option String → Except ConfigError α
  | none => .ok default
  | some raw => read raw

/-- A port or a flag that is set must be valid; the port is looked at first. Blanks around a value
say nothing. -/
def ofVariables (lookup : String → Option String) : Except ConfigError BridgeConfig := do
  let host := (lookup hostVariable).elim default.host readHost
  let port ← fieldOf default.port readPort (lookup portVariable)
  let pauseOnLoad ← fieldOf default.pauseOnLoad readPause (lookup pauseVariable)
  return { default with host, port, pauseOnLoad }

/-- Host and port with a colon between them. A host that has colons of its own is put into
brackets, unless it begins with one. -/
def bindAddr (c : BridgeConfig) : String :=
  let host := c.host.toList
  let host := if ':' ∈ host ∧ host.head? ≠ some '[' then '[' :: host ++ [']'] else host
  String.ofList (host ++ ':' :: Text.decimal c.port.toNat)

end BridgeConfig

def ConfigError.reason : ConfigError → String
  | .json e => s!"invalid bridge config: {e.message}"
  | .badPort raw => s!"{BridgeConfig.portVariable} must be a port number, got {Text.quoted raw}"
  | .badFlag raw => s!"{BridgeConfig.pauseVariable} must be a boolean, got {Text.quoted raw}"

end ScriptHost
