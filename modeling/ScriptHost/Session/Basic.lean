import ScriptHost.Text.Utf8

/-! A session is one connection that carries text messages both ways. Whoever writes appends to a
queue; a writer takes up to 64 items at a time from it and puts them on the wire, up to the close
marker. A reader appends what arrives to an inbox; a dispatcher hands that on, one message at a
time, to the callback that is installed when its turn comes. All of it runs at once: each
transition below is one of the steps that may interleave. -/

namespace ScriptHost

inductive SessionRole where
  | server
  | client
deriving DecidableEq, Repr

inductive SessionState where
  | connecting
  | open
  | closing
  | closed
deriving DecidableEq, Repr

def SessionRole.name : SessionRole → String
  | .server => "Server"
  | .client => "Client"

def SessionState.name : SessionState → String
  | .connecting => "Connecting"
  | .open => "Open"
  | .closing => "Closing"
  | .closed => "Closed"

/-- States only move to a higher rank. -/
def SessionState.rank : SessionState → Nat
  | .connecting => 0
  | .open => 1
  | .closing => 2
  | .closed => 3

inductive Outbound where
  | text (message : String)
  | close
deriving DecidableEq, Repr

inductive Sent where
  | text (message : String)
  | pong (payload : Bytes)
  | close
deriving DecidableEq, Repr

/-- What comes from the far end. A failure ends the stream as a close frame does. -/
inductive Frame where
  | text (message : String)
  | binary (payload : Bytes)
  | ping (payload : Bytes)
  | pong (payload : Bytes)
  | close
  | failure
deriving DecidableEq, Repr

inductive Half where
  | idle
  | running
  | ended
deriving DecidableEq, Repr

/-- `κ` stands for the callbacks that can be installed. -/
structure Session (κ : Type) where
  role : SessionRole
  state : SessionState := .connecting
  callback : Option κ := none
  /-- Sends that passed their check and have not reached the queue. -/
  pending : List Outbound := []
  queue : List Outbound := []
  wire : List Sent := []
  reader : Half := .idle
  writer : Half := .idle
  inbox : List String := []
  /-- The callback that is running, and its message. -/
  running : Option (κ × String) := none
deriving Repr

inductive Discard where
  | empty
  | noCallback
  | notUtf8
deriving DecidableEq, Repr

def Discard.message : Discard → String
  | .empty => "discarding empty message"
  | .noCallback => "no read callback; message dropped"
  | .notUtf8 => "dropping binary frame that is not UTF-8"

inductive Note (κ : Type) where
  | delivered (callback : κ) (message : String)
  | dropped (why : Discard)
deriving Repr

namespace Session

def isOpen (s : Session κ) : Bool := s.state.rank < SessionState.closing.rank

/-- The first half of a write: the check. -/
def beginWrite (message : String) (s : Session κ) : Session κ :=
  if s.isOpen then { s with pending := s.pending ++ [.text message] } else s

/-- The first half of a close, which only the first caller passes. -/
def beginClose (s : Session κ) : Session κ :=
  if s.isOpen then { s with state := .closing, pending := s.pending ++ [.close] } else s

/-- Appends to the queue. Nobody takes from it any more once the writer has ended. -/
def push (item : Outbound) (s : Session κ) : Session κ :=
  if s.writer = .ended then s else { s with queue := s.queue ++ [item] }

/-- The second half of a write or a close: the `i`-th pending send reaches the queue. -/
def commit (i : Nat) (s : Session κ) : Session κ :=
  match s.pending[i]? with
  | none => s
  | some item => push item { s with pending := s.pending.eraseIdx i }

/-- A write without a step of another in between. -/
def write (message : String) (s : Session κ) : Session κ :=
  if s.isOpen then push (.text message) s else s

def close (s : Session κ) : Session κ :=
  if s.isOpen then push .close { s with state := .closing } else s

/-- The connection is driven from now on. A session that was closed before stays closing. -/
def start (s : Session κ) : Session κ :=
  if s.reader = .idle ∧ s.writer = .idle then
    { s with
      state := if s.state = .connecting then .open else s.state
      reader := .running, writer := .running }
  else s

/-- The connection was given up before it was driven. -/
def abandon (s : Session κ) : Session κ :=
  if s.reader = .idle ∧ s.writer = .idle then
    { s with reader := .ended, writer := .ended, queue := [] }
  else s

def maxBatch : Nat := 64

/-- What a batch puts on the wire, and whether it met the close marker. -/
def feed : List Outbound → List Sent × Bool
  | [] => ([], false)
  | .text message :: rest => (.text message :: (feed rest).1, (feed rest).2)
  | .close :: _ => ([.close], true)

/-- The writer takes a batch of up to `n` items. Behind the close marker nothing is written. -/
def batch (n : Nat) (s : Session κ) : Session κ :=
  if s.writer = .running then
    let taken := s.queue.take (min n maxBatch)
    let (sent, met) := feed taken
    if met then { s with wire := s.wire ++ sent, queue := [], writer := .ended }
    else { s with wire := s.wire ++ sent, queue := s.queue.drop taken.length }
  else s

def breakWriter (s : Session κ) : Session κ :=
  if s.writer = .running then { s with queue := [], writer := .ended } else s

/-- The reader takes a frame. A binary frame counts as text if it is UTF-8; a ping is answered as
long as nothing was said to end the connection. -/
def receive (frame : Frame) (s : Session κ) : Session κ × List (Note κ) :=
  if s.reader = .running then
    match frame with
    | .text message => ({ s with inbox := s.inbox ++ [message] }, [])
    | .binary payload =>
      match textOf? payload with
      | some message => ({ s with inbox := s.inbox ++ [message] }, [])
      | none => (s, [.dropped .notUtf8])
    | .ping payload =>
      (if .close ∈ s.wire then s else { s with wire := s.wire ++ [.pong payload] }, [])
    | .pong _ => (s, [])
    | .close | .failure => ({ s with reader := .ended }, [])
  else (s, [])

/-- Once one direction has ended the session is closed from this side too. -/
def windUp (s : Session κ) : Session κ :=
  if s.reader = .ended ∨ s.writer = .ended then s.beginClose else s

def dispatch (s : Session κ) : Session κ × List (Note κ) :=
  match s.running, s.inbox with
  | none, message :: rest =>
    let s := { s with inbox := rest }
    if message = "" then (s, [.dropped .empty])
    else
      match s.callback with
      | none => (s, [.dropped .noCallback])
      | some k => ({ s with running := some (k, message) }, [.delivered k message])
  | _, _ => (s, [])

def callbackDone (s : Session κ) : Session κ := { s with running := none }

def setOnRead (callback : κ) (s : Session κ) : Session κ := { s with callback := some callback }

def clearOnRead (s : Session κ) : Session κ := { s with callback := none }

def drained (s : Session κ) : Bool :=
  s.reader = .ended && s.writer = .ended && s.inbox.isEmpty && s.running.isNone

/-- The end of a session that was closed: it forgets its callback. -/
def finish (s : Session κ) : Session κ :=
  if s.drained ∧ s.state = .closing then { s with state := .closed, callback := none } else s

end Session

inductive SessionStep (κ : Type) where
  | beginWrite (message : String)
  | beginClose
  | commit (i : Nat)
  | start
  | abandon
  | batch (n : Nat)
  | breakWriter
  | receive (frame : Frame)
  | windUp
  | dispatch
  | callbackDone
  | setOnRead (callback : κ)
  | clearOnRead
  | finish
deriving Repr

namespace Session

def apply (s : Session κ) : SessionStep κ → Session κ × List (Note κ)
  | .beginWrite message => (s.beginWrite message, [])
  | .beginClose => (s.beginClose, [])
  | .commit i => (s.commit i, [])
  | .start => (s.start, [])
  | .abandon => (s.abandon, [])
  | .batch n => (s.batch n, [])
  | .breakWriter => (s.breakWriter, [])
  | .receive frame => s.receive frame
  | .windUp => (s.windUp, [])
  | .dispatch => s.dispatch
  | .callbackDone => (s.callbackDone, [])
  | .setOnRead k => (s.setOnRead k, [])
  | .clearOnRead => (s.clearOnRead, [])
  | .finish => (s.finish, [])

def run (s : Session κ) : List (SessionStep κ) → Session κ × List (Note κ)
  | [] => (s, [])
  | step :: rest =>
    let (s, notes) := s.apply step
    let (s, more) := s.run rest
    (s, notes ++ more)

theorem run_append (s : Session κ) (first rest : List (SessionStep κ)) :
    s.run (first ++ rest) =
      (((s.run first).1.run rest).1, (s.run first).2 ++ ((s.run first).1.run rest).2) := by
  induction first generalizing s with
  | nil => rfl
  | cons step first ih => simp only [List.cons_append, run, ih, List.append_assoc]

def written (s : Session κ) : List String :=
  s.wire.filterMap fun
    | .text message => some message
    | _ => none

def describe (s : Session κ) (id peer : String) : String :=
  s!"Session \x7b id: {id}, role: {s.role.name}, peer_addr: Some({peer}), state: {s.state.name} \x7d"

end Session
end ScriptHost
