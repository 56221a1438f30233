import ScriptHost.Engine.Basic

/-! A runtime is an engine behind a chain of links. Every evaluation enters at the first link; a
link answers for itself or hands the evaluation on, perhaps with other bytes or under another
URL, as often as it likes. Behind the last link stands the engine. -/

namespace ScriptHost

structure Next (σ V E : Type) where
  engine : Engine σ V E
  run : Bytes → String → Act σ (Except E V)

abbrev Link (σ V E : Type) := Bytes → String → Next σ V E → Act σ (Except E V)

def Next.through (engine : Engine σ V E) : List (Link σ V E) → Next σ V E
  | [] => ⟨engine, fun source url => .call (engine.evaluate source url)⟩
  | link :: rest => ⟨engine, fun source url => link source url (through engine rest)⟩

structure Runtime (σ V E : Type) where
  engine : Engine σ V E
  links : List (Link σ V E)

namespace Runtime

def evaluate (r : Runtime σ V E) (source : Bytes) (url : String) : Act σ (Except E V) :=
  (Next.through r.engine r.links).run source url

def push (r : Runtime σ V E) (link : Link σ V E) : Runtime σ V E :=
  { r with links := r.links ++ [link] }

def describe (r : Runtime σ V E) : String :=
  s!"DecoratedRuntime \x7b interceptors: {r.links.length}, .. \x7d"

end Runtime
end ScriptHost
