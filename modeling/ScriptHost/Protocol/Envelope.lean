import ScriptHost.Protocol.ScriptId
import ScriptHost.Wire.Record

/-! The envelope that every frame is decoded into: an id, a method and parameters, each of which
may be absent. A member that is `null` counts as absent. -/

namespace ScriptHost

/-- A request's id is opaque: any JSON value, sent back as it came. -/
structure RequestId where
  value : Json
deriving Repr

namespace RequestId

def ofInt (i : Int) : RequestId := ⟨.number (.integer i)⟩

def ofText (s : String) : RequestId := ⟨.string s⟩

def display (id : RequestId) : String :=
  match id.value with
  | .string s => s
  | j => j.text

def wire : Wire RequestId := Wire.json.map RequestId.mk RequestId.value

end RequestId

structure Envelope where
  id : Option RequestId
  method : Option String
  params : Option Json
deriving Repr

namespace Envelope

/-- A field that is left out when it is absent. -/
def field (name : String) (wire : Wire α) : Field (Option α) :=
  { name, wire := wire.optional, absent := some none, omits := Option.isNone }

def fields :
    Fields (Option RequestId × Option String × Option Json × Unit)
      (Option (Option RequestId) × Option (Option String) × Option (Option Json) × Unit) :=
  .cons (field "id" RequestId.wire) (.cons (field "method" Wire.text)
    (.cons (field "params" Wire.json) .nil))

def wire : Wire Envelope :=
  .record "Envelope" fields (fun (id, method, params, _) => ⟨id, method, params⟩)
    fun e => (e.id, e.method, e.params, ())

def parse (text : String) : Except FrameError Envelope :=
  (wire.decode text).mapError .json

def needId (e : Envelope) : Except FrameError RequestId :=
  match e.id with
  | some id => .ok id
  | none => .error (.missingField "id")

def needMethod (e : Envelope) : Except FrameError String :=
  match e.method with
  | some method => .ok method
  | none => .error (.missingField "method")

def needParams (e : Envelope) : Except FrameError Json :=
  match e.params with
  | some params => .ok params
  | none => .error (.missingField "params")

def paramsAs (wire : Wire α) (e : Envelope) : Except FrameError α := do
  let params ← e.needParams
  match wire.ofJson params with
  | .ok a => return a
  | .error flaw => .error (.invalidField "params" flaw.message)

end Envelope

structure Response (α : Type) where
  id : RequestId
  result : α
deriving Repr

namespace Response

def fields (result : Wire α) : Fields (RequestId × α × Unit) (Option RequestId × Option α × Unit) :=
  .cons { name := "id", wire := RequestId.wire } (.cons { name := "result", wire := result } .nil)

def wire (result : Wire α) : Wire (Response α) :=
  .record "Response" (fields result) (fun (id, result, _) => ⟨id, result⟩)
    fun r => (r.id, r.result, ())

end Response
end ScriptHost
