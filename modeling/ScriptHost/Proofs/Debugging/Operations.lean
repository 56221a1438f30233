import ScriptHost.Debugging.Bridge

/-! The operations of a bridge as the steps of a run. What one step does to each part of a bridge is
said once here: to the registry, to the slot that holds the client, and to the native debugger. -/

namespace ScriptHost

/-- The operations of a bridge that come from clients, from the native debugger and from its owner.
Evaluations are not among them: they come through a runtime. -/
inductive BridgeStep where
  | attach (session : Nat) (accepts : Bool)
  | detach (session : Nat)
  | shutdown
  | route (session : Nat) (text : String)
  | relay (session : Nat) (message : String)
  | nativeDetached (session : Nat)
deriving DecidableEq, Repr

def replies (effects : List Effect) : List (Nat × String) :=
  effects.filterMap fun
    | .write session message => some (session, message)
    | _ => none

namespace Bridge

def apply (b : Bridge) : BridgeStep → Bridge × List Effect
  | .attach session accepts => b.attach session accepts
  | .detach session => b.detach session
  | .shutdown => b.shutdown
  | .route session text => (b, b.route session text)
  | .relay session message => b.relay session message
  | .nativeDetached session => (b, nativeDetached session)

def run (b : Bridge) : List BridgeStep → Bridge × List Effect
  | [] => (b, [])
  | step :: rest =>
    let (b, effects) := b.apply step
    let (b, more) := b.run rest
    (b, effects ++ more)

theorem run_append (b : Bridge) (first rest : List BridgeStep) :
    b.run (first ++ rest) =
      (((b.run first).1.run rest).1, (b.run first).2 ++ ((b.run first).1.run rest).2) := by
  induction first generalizing b with
  | nil => rfl
  | cons step first ih => simp only [List.cons_append, run, ih, List.append_assoc]

theorem run_concat (b : Bridge) (steps : List BridgeStep) (step : BridgeStep) :
    b.run (steps ++ [step]) =
      (((b.run steps).1.apply step).1, (b.run steps).2 ++ ((b.run steps).1.apply step).2) := by
  rw [run_append]
  simp only [run, List.append_nil]

def announced? (message : String) : Option ScriptParsedParams :=
  match DebuggerEvent.parse message with
  | .ok (.scriptParsed p) => some p
  | _ => none

theorem registry_learn (b : Bridge) (message : String) :
    (b.learn message).1.registry =
      match announced? message with
      | some p => b.registry.recordScript p.scriptId p.url
      | none => b.registry := by
  unfold learn announced?
  cases DebuggerEvent.parse message with
  | error e => rfl
  | ok event => cases event <;> rfl

/-- Of all operations only a native message reaches the registry. -/
theorem registry_apply_of_ne_relay (b : Bridge) (step : BridgeStep)
    (h : ∀ session message, step ≠ .relay session message) :
    (b.apply step).1.registry = b.registry := by
  cases step with
  | attach session accepts =>
    simp only [apply, attach]
    split
    · rfl
    · split <;> rfl
  | detach session =>
    simp only [apply, detach]
    split <;> rfl
  | shutdown =>
    simp only [apply, shutdown]
    split <;> rfl
  | route session text => rfl
  | relay session message => exact absurd rfl (h session message)
  | nativeDetached session => rfl

end Bridge
end ScriptHost
