import ScriptHost.Debugging.Bridge
import ScriptHost.Session.Basic

/-! A bridge together with the sessions of its clients. The effects of the bridge on sessions are
carried out at once; calls on the native debugger and events come out in order. Everything else
interleaves: a session told to close goes on delivering what it received, and the bridge hears of
its end only when it is over. -/

namespace ScriptHost

/-- A session's only callback routes its messages through the bridge. -/
structure LiveBridge where
  bridge : Bridge := {}
  sessions : Nat → Session Unit := fun _ => { role := .server }

inductive LiveStep where
  /-- A client's handshake is done. -/
  | attach (session : Nat) (accepts : Bool)
  /-- The watcher of a session that is over reports it. -/
  | watch (session : Nat)
  | shutdown
  | inside (session : Nat) (step : SessionStep Unit)
  /-- The callback that runs on a session routes its message and returns. -/
  | route (session : Nat)
  /-- The native debugger hands a message to a session's adapter. -/
  | relay (session : Nat) (message : String)
  | nativeDetached (session : Nat)
  | record (url source : String)

namespace LiveBridge

def update (session : Nat) (f : Session Unit → Session Unit) (l : LiveBridge) : LiveBridge :=
  { l with sessions := fun i => if i = session then f (l.sessions i) else l.sessions i }

def perform (l : LiveBridge) : Effect → LiveBridge
  | .write session message => l.update session (Session.write message)
  | .close session => l.update session Session.close
  | .follow session => l.update session (Session.setOnRead ())
  | .native _ => l
  | .report _ => l

def performAll (l : LiveBridge) (effects : List Effect) : LiveBridge := effects.foldl perform l

def operate (l : LiveBridge) (f : Bridge → Bridge × List Effect) : LiveBridge × List Effect :=
  let (b, effects) := f l.bridge
  ({ l with bridge := b }.performAll effects, effects)

def apply (l : LiveBridge) : LiveStep → LiveBridge × List Effect
  | .attach session accepts => l.operate (Bridge.attach session accepts)
  | .watch session =>
    if (l.sessions session).state = .closed then l.operate (Bridge.detach session) else (l, [])
  | .shutdown => l.operate Bridge.shutdown
  | .inside session step => (l.update session fun s => (s.apply step).1, [])
  | .route session =>
    match (l.sessions session).running with
    | none => (l, [])
    | some (_, text) =>
      let (l, effects) := l.operate fun b => (b, b.route session text)
      (l.update session Session.callbackDone, effects)
  | .relay session message => l.operate (Bridge.relay session message)
  | .nativeDetached session => l.operate fun b => (b, Bridge.nativeDetached session)
  | .record url source => ({ l with bridge := l.bridge.recordSource url source }, [])

def run (l : LiveBridge) : List LiveStep → LiveBridge × List Effect
  | [] => (l, [])
  | step :: rest =>
    let (l, effects) := l.apply step
    let (l, more) := l.run rest
    (l, effects ++ more)

end LiveBridge
end ScriptHost
