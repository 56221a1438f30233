import ScriptHost.Debugging.Registry
import ScriptHost.Debugging.Config
import ScriptHost.Engine.Chain

/-! The bridge between one debugger client and the engine's native debugger. Its operations are
functions on its state; what they make others do comes out as a list of effects, in order. Clients
are sessions, named by numbers. A newer client replaces the current one; when a client goes away
the native debugger is detached until the next one arrives. -/

namespace ScriptHost

inductive NativeCall where
  | connect (session : Nat) (accepted : Bool)
  | disconnect
  | send (message : String)
deriving DecidableEq, Repr

inductive Effect where
  | native (call : NativeCall)
  | write (session : Nat) (message : String)
  | close (session : Nat)
  /-- From now on the session's messages are routed, and its end is watched. -/
  | follow (session : Nat)
  | report (event : Event)
deriving DecidableEq, Repr

structure Bridge where
  registry : ScriptRegistry := {}
  client : Option Nat := none
  /-- Set once the bridge shuts down; later clients are turned away. -/
  closed : Bool := false
  /-- The worker that accepts clients was told to stop. -/
  stopped : Bool := false
deriving DecidableEq, Repr

namespace Bridge

def event (level : Level) (message : String) (fields : List (String × String)) : Effect :=
  .report { topic := .debug, level, message, fields }

/-- A new client; `accepts` is the native debugger's answer to the connect. -/
def attach (session : Nat) (accepts : Bool) (b : Bridge) : Bridge × List Effect :=
  if b.closed then
    (b, [event .debug "bridge is shut down; rejecting client" [], .close session])
  else
    let replacing := match b.client with
      | some previous =>
        [event .info "new debugger client replaces current one" [], .close previous,
          .native .disconnect]
      | none => []
    let connecting := [Effect.native (.connect session accepts)]
    if accepts then
      ({ b with client := some session }, replacing ++ connecting ++ [.follow session])
    else
      ({ b with client := none },
        replacing ++ connecting ++
          [event .warn "native debugger refused the connection" [], .close session])

/-- A session is over. Only the current client is forgotten. -/
def detach (session : Nat) (b : Bridge) : Bridge × List Effect :=
  if b.client = some session then
    ({ b with client := none },
      [.native .disconnect, event .info "debugger client disconnected" []])
  else (b, [])

/-- Turns clients away from now on. -/
def close (b : Bridge) : Bridge × List Effect :=
  ({ b with client := none, closed := true },
    (match b.client with
      | some session => [.close session]
      | none => []) ++ [.native .disconnect])

def shutdown (b : Bridge) : Bridge × List Effect :=
  if b.stopped then (b, [])
  else
    let (b, effects) := b.close
    ({ b with stopped := true }, effects ++ [event .info "debug bridge stopped" []])

/-- What a client's frame leads to. Replies go to the session that the frame came from. -/
def route (session : Nat) (text : String) (b : Bridge) : List Effect :=
  match ClientCommand.parse text with
  | .ok (.getScriptSource id scriptId) =>
    match b.registry.source? scriptId with
    | some source => [.write session (sourceResponse id source)]
    | none =>
      [event .debug "no source recorded for script" [("script_id", scriptId.text)],
        .write session (sourceResponse id sourceUnavailable)]
  | .ok (.forward method) =>
    [event .trace "forwarding to native debugger" [("method", method)], .native (.send text)]
  | .error e => [event .warn "dropping malformed debugger message" [("error", e.message)]]

def learn (message : String) (b : Bridge) : Bridge × List Effect :=
  match DebuggerEvent.parse message with
  | .ok (.scriptParsed p) =>
    ({ b with registry := b.registry.recordScript p.scriptId p.url },
      [event .trace "script parsed" [("script_id", p.scriptId.text), ("url", p.url)]])
  | .ok .other => (b, [])
  | .error e => (b, [event .debug "uninterpreted debugger message" [("error", e.message)]])

def relay (session : Nat) (message : String) (b : Bridge) : Bridge × List Effect :=
  let (b, effects) := b.learn message
  (b, effects ++ [.write session message])

def nativeDetached (session : Nat) : List Effect :=
  [event .debug "native debugger detached" [], .close session]

def recordSource (url source : String) (b : Bridge) : Bridge :=
  { b with registry := b.registry.recordSource url source }

/-- The link that evaluates under the debugger. The text is recorded before the engine gets it,
and the script's own result is seen by the debugger alone. `record` puts a source into this
bridge, wherever the world keeps it. -/
def link (record : String → String → StateM σ Unit) : Link σ V E := fun source url next => do
  if next.engine.isBytecode source then
    Act.report { topic := .debug, level := .debug,
                 message := "bytecode cannot be source-debugged; passing through",
                 fields := [("url", url)] }
    next.run source url
  else
    let text := textOf source
    Act.call (record url text)
    match ← Act.call (next.engine.debugEvaluate text url {}) with
    | .ok () => return .ok next.engine.undefined
    | .error e => return .error e

def describe (b : Bridge) (localAddr : String) : String :=
  s!"DebugBridge \x7b local_addr: {localAddr}, has_client: {b.client.isSome}, .. \x7d"

end Bridge
end ScriptHost
