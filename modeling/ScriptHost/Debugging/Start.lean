import ScriptHost.Debugging.Bridge
import ScriptHost.Session.Address

/-! Starting a bridge. The socket, its address, the bridge's executor and its worker thread come
from the operating system, and each of them can be refused. -/

namespace ScriptHost

inductive SetupError where
  | transport (e : TransportError)
  | frame (e : FrameError)
  | config (reason : String)
  | worker (reason : String)
deriving DecidableEq, Repr

def SetupError.message : SetupError → String
  | .transport e => e.message
  | .frame e => e.message
  | .config reason => s!"Invalid configuration: {reason}"
  | .worker reason => s!"Failed to start debug bridge worker: {reason}"

def SetupError.ofConfig (e : ConfigError) : SetupError := .config e.reason

structure StartHost where
  bind : String → Except String Unit
  localAddr : Except String Unit
  executor : Except String Unit
  worker : Except String Unit

namespace Bridge

/-- Binds, reads the address back, builds the executor, prepares the engine and starts the
worker, in this order. -/
def start (host : StartHost) (engine : Engine σ V E) (config : BridgeConfig) :
    StateM σ (Except SetupError Bridge) := do
  let addr := config.bindAddr
  match host.bind addr, host.localAddr, host.executor with
  | .error reason, _, _ => return .error (.transport (.bind addr reason))
  | _, .error reason, _ => return .error (.transport (.io reason))
  | _, _, .error reason => return .error (.worker reason)
  | .ok (), .ok (), .ok () =>
    engine.setPauseOnLoad config.pauseOnLoad
    engine.connectDebugger
    match host.worker with
    | .error reason => return .error (.worker reason)
    | .ok () => return .ok {}

end Bridge

def debugRuntime (host : StartHost) (engine : Engine σ V E) (config : BridgeConfig)
    (record : String → String → StateM σ Unit) :
    StateM σ (Except SetupError (Runtime σ V E × Bridge)) := do
  match ← Bridge.start host engine config with
  | .error e => return .error e
  | .ok bridge => return .ok (⟨engine, [Bridge.link record]⟩, bridge)

end ScriptHost
