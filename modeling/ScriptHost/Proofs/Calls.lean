import ScriptHost.Prepared.Cache

/-! What is asked of an engine, a compiler and a store. One that is recorded answers as it does
otherwise and leaves a note of every call, so an act can be observed from the outside. -/

namespace ScriptHost

inductive OutsideCall where
  | evaluate (bytes : Bytes) (url : String)
  | debugEvaluate (text url : String) (flags : DebugFlags)
  | setPauseOnLoad (on : Bool)
  | connectDebugger
  | compile (text url : String)
  | get (script : ScriptSignature) (runtime : RuntimeSignature) (purpose : String)
  | put (bytes : Bytes) (script : ScriptSignature) (runtime : RuntimeSignature)
      (provenance : String)
deriving DecidableEq, Repr

namespace OutsideCall

def compilesAt (url : String) : OutsideCall → Bool
  | .compile _ place => place = url
  | _ => false

def keepsAt (url : String) : OutsideCall → Bool
  | .put _ script _ _ => script.url = url
  | _ => false

def isLookup : OutsideCall → Bool
  | .get .. => true
  | _ => false

def effect (engine : Engine σ V E) (compiler : Compiler σ) (store : ScriptStore σ) (s : σ) :
    OutsideCall → σ
  | .evaluate bytes url => (engine.evaluate bytes url s).2
  | .debugEvaluate text url flags => (engine.debugEvaluate text url flags s).2
  | .setPauseOnLoad on => (engine.setPauseOnLoad on s).2
  | .connectDebugger => (engine.connectDebugger s).2
  | .compile text url => (compiler.compile text url s).2
  | .get script runtime purpose => (store.get script runtime purpose s).2
  | .put bytes script runtime provenance => (store.put bytes script runtime provenance s).2

end OutsideCall

structure Recorded (σ ε : Type) where
  outside : σ
  notes : List ε

def Recorded.call (note : ε) (f : StateM σ α) : StateM (Recorded σ ε) α := fun s =>
  ((f s.outside).1, ⟨(f s.outside).2, s.notes ++ [note]⟩)

variable (note : OutsideCall → ε)

def Engine.recorded (e : Engine σ V E) : Engine (Recorded σ ε) V E where
  signature := e.signature
  isBytecode := e.isBytecode
  undefined := e.undefined
  evaluate bytes url := Recorded.call (note (.evaluate bytes url)) (e.evaluate bytes url)
  debugEvaluate text url flags :=
    Recorded.call (note (.debugEvaluate text url flags)) (e.debugEvaluate text url flags)
  setPauseOnLoad on := Recorded.call (note (.setPauseOnLoad on)) (e.setPauseOnLoad on)
  connectDebugger := Recorded.call (note .connectDebugger) e.connectDebugger

def Compiler.recorded (c : Compiler σ) : Compiler (Recorded σ ε) where
  compile text url := Recorded.call (note (.compile text url)) (c.compile text url)

def ScriptStore.recorded (s : ScriptStore σ) : ScriptStore (Recorded σ ε) where
  get script runtime purpose :=
    Recorded.call (note (.get script runtime purpose)) (s.get script runtime purpose)
  put bytes script runtime provenance :=
    Recorded.call (note (.put bytes script runtime provenance))
      (s.put bytes script runtime provenance)

def PreparedCache.recorded (c : PreparedCache σ) : PreparedCache (Recorded σ ε) where
  compiler := c.compiler.recorded note
  store := c.store.map (·.recorded note)
  scriptVersion := c.scriptVersion

/-- Does an act and tells what was noted on the way. -/
def Act.observe (act : Act (Recorded σ ε) α) : Act σ (α × List ε) := fun w =>
  let (a, v) := act ⟨⟨w.outside, []⟩, w.log⟩
  ((a, v.outside.notes), ⟨v.outside.outside, v.log⟩)

/-- A note is all that recording adds. -/
theorem OutsideCall.effect_recorded (engine : Engine σ V E) (compiler : Compiler σ)
    (store : ScriptStore σ) (s : Recorded σ ε) (call : OutsideCall) :
    call.effect (engine.recorded note) (compiler.recorded note) (store.recorded note) s =
      ⟨call.effect engine compiler store s.outside, s.notes ++ [note call]⟩ := by
  cases call <;> rfl

theorem OutsideCall.foldl_effect_recorded (engine : Engine σ V E) (compiler : Compiler σ)
    (store : ScriptStore σ) (calls : List OutsideCall) (s : Recorded σ ε) :
    calls.foldl (effect (engine.recorded note) (compiler.recorded note) (store.recorded note)) s =
      ⟨calls.foldl (effect engine compiler store) s.outside, s.notes ++ calls.map note⟩ := by
  induction calls generalizing s with
  | nil => simp
  | cons call calls ih => simp [effect_recorded, ih]

end ScriptHost
