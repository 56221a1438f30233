import ScriptHost.Debugging.Start
import ScriptHost.Proofs.Calls

/-! Starting a bridge. The engine is prepared behind the socket, its address and the executor, and
in front of the worker: of all refusals that of the worker alone comes to an engine that was
touched. -/

namespace ScriptHost

/-- The operating system grants all that a start asks for before the worker. -/
structure StartHost.Equips (host : StartHost) (config : BridgeConfig) : Prop where
  bind : host.bind config.bindAddr = .ok ()
  localAddr : host.localAddr = .ok ()
  executor : host.executor = .ok ()

namespace Bridge

variable (host : StartHost) (engine : Engine σ V E) (config : BridgeConfig) (s : σ)

def observeStart : Except SetupError Bridge × Recorded σ OutsideCall :=
  start host (engine.recorded id) config ⟨s, []⟩

def preparation : List OutsideCall := [.setPauseOnLoad config.pauseOnLoad, .connectDebugger]

variable {host config}

/-- A host that does not equip the start refuses it, and the engine is as before. -/
theorem observeStart_of_not_equips (h : ¬ host.Equips config) :
    ∃ e, observeStart host engine config s = (.error e, ⟨s, []⟩) := by
  unfold observeStart start
  cases hbind : host.bind config.bindAddr with
  | error reason => exact ⟨_, rfl⟩
  | ok =>
    cases haddr : host.localAddr with
    | error reason => exact ⟨_, rfl⟩
    | ok =>
      cases hexecutor : host.executor with
      | error reason => exact ⟨_, rfl⟩
      | ok => exact absurd ⟨hbind, haddr, hexecutor⟩ h

theorem start_of_equips (h : host.Equips config) :
    start host engine config = do
      engine.setPauseOnLoad config.pauseOnLoad
      engine.connectDebugger
      match host.worker with
      | .error reason => return .error (.worker reason)
      | .ok () => return .ok {} := by
  simp only [start]
  rewrite [h.bind, h.localAddr, h.executor]
  rfl

/-- On a host that equips it a start prepares the engine, whatever becomes of the worker. -/
theorem observeStart_of_equips (h : host.Equips config) :
    (observeStart host engine config s).2.notes = preparation config ∧
      ((∃ e, (observeStart host engine config s).1 = .error e) ↔
        ∃ reason, host.worker = .error reason) := by
  rw [observeStart, start_of_equips (engine.recorded id) h]
  cases host.worker with
  | error reason => exact ⟨rfl, ⟨fun _ => ⟨reason, rfl⟩, fun _ => ⟨.worker reason, rfl⟩⟩⟩
  | ok => exact ⟨rfl, ⟨fun ⟨_, he⟩ => (nomatch he), fun ⟨_, hr⟩ => (nomatch hr)⟩⟩

variable (host config)

/-- A start fails exactly if one of its steps is refused. A failed start leaves the engine without a
call and as it was, unless the refusal is the worker's on a host that grants all the rest. -/
theorem failed_start_untouched_iff :
    ((∃ e, (observeStart host engine config s).1 = .error e) ↔
      ¬ host.Equips config ∨ ∃ reason, host.worker = .error reason) ∧
    (((∃ e, (observeStart host engine config s).1 = .error e) →
        (observeStart host engine config s).2 = ⟨s, []⟩) ↔
      ¬ (host.Equips config ∧ ∃ reason, host.worker = .error reason)) := by
  by_cases h : host.Equips config
  · obtain ⟨hcalls, hfails⟩ := observeStart_of_equips engine s h
    have htouched : (observeStart host engine config s).2 ≠ ⟨s, []⟩ := by
      intro heq
      rw [heq] at hcalls
      cases hcalls
    rw [hfails]
    exact ⟨by simp [h], by simp [h, htouched]⟩
  · obtain ⟨e, he⟩ := observeStart_of_not_equips engine s h
    rw [he]
    exact ⟨by simp [h], by simp [h]⟩

def threadless : StartHost where
  bind _ := .ok ()
  localAddr := .ok ()
  executor := .ok ()
  worker := .error "Resource temporarily unavailable (os error 11)"

/-- What a start may change in an engine. -/
structure Endpoint where
  pauseOnLoad : Bool
  connected : Bool

def idleEngine : Engine Endpoint Unit Unit where
  signature := ⟨"idle", 1⟩
  isBytecode _ := false
  undefined := ()
  evaluate _ _ := return .ok ()
  debugEvaluate _ _ _ := return .ok ()
  setPauseOnLoad on := modify fun endpoint => { endpoint with pauseOnLoad := on }
  connectDebugger := modify fun endpoint => { endpoint with connected := true }

/-- Where the worker alone is refused, the start fails and the engine was called twice: it pauses on
load and its debugger is connected. -/
theorem refused_worker_leaves_engine_prepared :
    observeStart threadless idleEngine .default ⟨false, false⟩ =
      (.error (.worker "Resource temporarily unavailable (os error 11)"),
        ⟨⟨true, true⟩, [.setPauseOnLoad true, .connectDebugger]⟩) := rfl

end Bridge
end ScriptHost
