import ScriptHost.Session.Basic

/-! The accept loop. Every connection that is accepted gets a session and a task of its own; the
loop itself remembers its sessions weakly and forgets those that nobody holds any more whenever it
accepts another. When it ends it closes all that are left. -/

namespace ScriptHost

/-- What a connection's task is at. Both phases hold the session. -/
inductive TaskPhase where
  | handshake
  | driving
deriving DecidableEq, Repr

/-- Sessions are named by numbers. -/
structure Listener where
  /-- The weak list, the oldest first. -/
  live : List Nat := []
  tasks : List (Nat × TaskPhase) := []
  /-- Sessions that somebody outside the loop holds. -/
  held : List Nat := []
  signal : Bool := false
  senderAlive : Bool := true
  running : Bool := true
deriving Repr

inductive ListenerStep where
  | accept (session : Nat)
  | acceptFails
  | handshakeFails (session : Nat)
  /-- The handshake is done. The callback may keep the session. -/
  | connected (session : Nat) (keeps : Bool)
  | sessionEnds (session : Nat)
  | release (session : Nat)
  | setSignal (value : Bool)
  | dropSender
  | look
deriving DecidableEq, Repr

inductive ListenerNote where
  | connected (session : Nat)
  | close (session : Nat)
deriving DecidableEq, Repr

namespace Listener

/-- Somebody holds the session: its task, or somebody outside. -/
def isAlive (l : Listener) (session : Nat) : Bool :=
  l.tasks.any (·.1 = session) || l.held.contains session

def endTask (session : Nat) (l : Listener) : Listener :=
  { l with tasks := l.tasks.filter (·.1 ≠ session) }

def apply (l : Listener) : ListenerStep → Listener × List ListenerNote
  | .accept session =>
    if l.running then
      ({ l with
          live := l.live.filter l.isAlive ++ [session]
          tasks := l.tasks ++ [(session, .handshake)] }, [])
    else (l, [])
  | .acceptFails => (l, [])
  | .handshakeFails session =>
    if (session, TaskPhase.handshake) ∈ l.tasks then (l.endTask session, []) else (l, [])
  | .connected session keeps =>
    if (session, TaskPhase.handshake) ∈ l.tasks then
      ({ l with
          tasks := l.tasks.map fun t => if t.1 = session then (session, .driving) else t
          held := if keeps then session :: l.held else l.held }, [.connected session])
    else (l, [])
  | .sessionEnds session =>
    if (session, TaskPhase.driving) ∈ l.tasks then (l.endTask session, []) else (l, [])
  | .release session => ({ l with held := l.held.filter (· ≠ session) }, [])
  | .setSignal value => (if l.senderAlive then { l with signal := value } else l, [])
  | .dropSender => ({ l with senderAlive := false }, [])
  | .look =>
    if l.running ∧ (l.signal ∨ !l.senderAlive) then
      ({ l with running := false }, (l.live.filter l.isAlive).map .close)
    else (l, [])

def run (l : Listener) : List ListenerStep → Listener × List ListenerNote
  | [] => (l, [])
  | step :: rest =>
    let (l, notes) := l.apply step
    let (l, more) := l.run rest
    (l, notes ++ more)

end Listener
end ScriptHost
