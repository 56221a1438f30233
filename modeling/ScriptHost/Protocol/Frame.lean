import ScriptHost.Protocol.Envelope

/-! The two methods that are interpreted. A client's fetch of a script's source is answered here;
the engine's notice of a parsed script tells which script id belongs to which URL. Every other
frame is opaque. -/

namespace ScriptHost

def getScriptSource : String := "Debugger.getScriptSource"

def scriptParsed : String := "Debugger.scriptParsed"

def sourceUnavailable : String := "<source unavailable>"

structure ScriptParsedParams where
  scriptId : ScriptId
  url : String
deriving DecidableEq, Repr

def ScriptParsedParams.wire : Wire ScriptParsedParams :=
  .record "ScriptParsedParams"
    (.cons { name := "scriptId", wire := ScriptId.wire }
      (.cons { name := "url", wire := Wire.text } .nil))
    (fun (scriptId, url, _) => ⟨scriptId, url⟩) fun p => (p.scriptId, p.url, ())

structure GetScriptSourceParams where
  scriptId : ScriptId
deriving DecidableEq, Repr

def GetScriptSourceParams.wire : Wire GetScriptSourceParams :=
  .record "GetScriptSourceParams" (.cons { name := "scriptId", wire := ScriptId.wire } .nil)
    (fun (scriptId, _) => ⟨scriptId⟩) fun p => (p.scriptId, ())

structure ScriptSourceResult where
  scriptSource : String
deriving DecidableEq, Repr

def ScriptSourceResult.wire : Wire ScriptSourceResult :=
  .record "ScriptSourceResult" (.cons { name := "scriptSource", wire := Wire.text } .nil)
    (fun (scriptSource, _) => ⟨scriptSource⟩) fun r => (r.scriptSource, ())

def sourceResponse (id : RequestId) (source : String) : String :=
  (Response.wire ScriptSourceResult.wire).encode ⟨id, ⟨source⟩⟩

inductive ClientCommand where
  | getScriptSource (id : RequestId) (scriptId : ScriptId)
  | forward (method : String)
deriving Repr

/-- A frame without a method is refused. A fetch must carry an id and then its parameters; of any
other method nothing else is looked at. -/
def ClientCommand.parse (text : String) : Except FrameError ClientCommand := do
  let envelope ← Envelope.parse text
  let method ← envelope.needMethod
  if method = ScriptHost.getScriptSource then
    let id ← envelope.needId
    let params ← envelope.paramsAs GetScriptSourceParams.wire
    return .getScriptSource id params.scriptId
  else return .forward method

inductive DebuggerEvent where
  | scriptParsed (params : ScriptParsedParams)
  | other
deriving DecidableEq, Repr

def DebuggerEvent.parse (text : String) : Except FrameError DebuggerEvent := do
  let envelope ← Envelope.parse text
  if envelope.method = some ScriptHost.scriptParsed then
    return .scriptParsed (← envelope.paramsAs ScriptParsedParams.wire)
  else return .other

end ScriptHost
