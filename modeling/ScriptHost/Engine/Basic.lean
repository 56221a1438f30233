import ScriptHost.Engine.Signature
import ScriptHost.Text.Utf8
import ScriptHost.Log

/-! The engine and what surrounds it. `σ` is the state of everything outside this library: the
engine, compilers and stores may read and change it with every call. -/

namespace ScriptHost

structure DebugFlags where
  /-- Compile functions at once, so that breakpoints bind. -/
  eager : Bool := false
deriving DecidableEq, Repr

/-- An engine whose evaluations give values `V` or errors `E`. -/
structure Engine (σ V E : Type) where
  signature : RuntimeSignature
  isBytecode : Bytes → Bool
  /-- The value of an evaluation that has no result of its own. -/
  undefined : V
  evaluate : Bytes → String → StateM σ (Except E V)
  debugEvaluate : String → String → DebugFlags → StateM σ (Except E Unit)
  setPauseOnLoad : Bool → StateM σ Unit
  connectDebugger : StateM σ Unit

structure World (σ : Type) where
  outside : σ
  log : List Event

abbrev Act (σ α : Type) := StateM (World σ) α

def Act.call (f : StateM σ α) : Act σ α := fun w =>
  let (a, s) := f w.outside
  (a, { w with outside := s })

def Act.report (e : Event) : Act σ Unit := fun w => ((), { w with log := w.log ++ [e] })

end ScriptHost
