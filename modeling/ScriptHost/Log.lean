/-! Log events. The library reports what it does as values, in order; who shows them is not its
business. -/

namespace ScriptHost

/-- How much an event matters, the most severe first. -/
inductive Level where
  | error
  | warn
  | info
  | debug
  | trace
deriving DecidableEq, Repr

namespace Level

def all : List Level := [.error, .warn, .info, .debug, .trace]

def name : Level → String
  | .error => "error"
  | .warn => "warn"
  | .info => "info"
  | .debug => "debug"
  | .trace => "trace"

def rank : Level → Nat
  | .error => 1
  | .warn => 2
  | .info => 3
  | .debug => 4
  | .trace => 5

end Level

inductive Topic where
  | cache
  | debug
deriving DecidableEq, Repr

structure Event where
  topic : Topic
  level : Level
  message : String
  fields : List (String × String) := []
deriving DecidableEq, Repr

end ScriptHost
