import ScriptHost.Wire.Basic

/-! Script ids: 32-bit numbers that the engine assigns and that travel as text. -/

namespace ScriptHost

inductive FrameError where
  | json (e : Json.Error)
  | missingField (name : String)
  | invalidField (name : String) (reason : String)
deriving DecidableEq, Repr

def FrameError.message : FrameError → String
  | .json e => s!"invalid JSON frame: {e.message}"
  | .missingField name => s!"message has no `{name}` field"
  | .invalidField name reason => s!"invalid `{name}`: {reason}"

structure ScriptId where
  number : UInt32
deriving DecidableEq, Repr

namespace ScriptId

def read (text : String) : Except Text.DecimalError ScriptId := do
  return ⟨UInt32.ofNat (← Text.readDecimal (UInt32.size - 1) text.toList)⟩

def parse (text : String) : Except FrameError ScriptId :=
  match read text with
  | .ok id => .ok id
  | .error e => .error (.invalidField "scriptId" s!"{Text.quoted text}: {e.message}")

def text (id : ScriptId) : String := String.ofList (Text.decimal id.number.toNat)

def wire : Wire ScriptId := .written (fun s => (parse s).mapError FrameError.message) text

end ScriptId
end ScriptHost
