import ScriptHost.Prepared.Store
import ScriptHost.Engine.Chain

/-! The link that compiles a script once, keeps the bytecode and evaluates that from then on.
Input that is bytecode, and all input where no store is configured, passes through. Otherwise the
script is looked up; valid bytecode is evaluated in its place, and anything else counts as a miss:
the source is compiled, and an artifact that is not empty is kept and evaluated. No failure of a
store or a compiler fails an evaluation. -/

namespace ScriptHost

inductive CompileError where
  | unsupported (url : String)
  | failed (url : String) (reason : String)
deriving DecidableEq, Repr

def CompileError.message : CompileError → String
  | .unsupported url => s!"bytecode compilation not supported for {url}"
  | .failed url reason => s!"failed to compile {url}: {reason}"

structure Compiler (σ : Type) where
  /-- An empty artifact means the same as `unsupported`. -/
  compile : String → String → StateM σ (Except CompileError Bytes)

def prepareTag : String := "perf"

def provenanceTag : String := "jsrt.prepared"

/-- The version of every script whose cache names no other. -/
def defaultScriptVersion : UInt64 := 1

structure PreparedCache (σ : Type) where
  compiler : Compiler σ
  store : Option (ScriptStore σ)
  scriptVersion : UInt64 := defaultScriptVersion

namespace PreparedCache

def event (level : Level) (message : String) (fields : List (String × String)) : Event :=
  { topic := .cache, level, message, fields }

/-- A lookup that fails finds nothing. -/
def lookup (store : ScriptStore σ) (script : ScriptSignature) (runtime : RuntimeSignature) :
    Act σ (Option Bytes) := do
  match ← Act.call (store.get script runtime prepareTag) with
  | .ok found => return found
  | .error e =>
    Act.report (event .warn "prepared script lookup failed"
      [("error", e.message), ("script", script.text)])
    return none

def compile (compiler : Compiler σ) (source : Bytes) (url : String) : Act σ (Option Bytes) := do
  match textOf? source with
  | none =>
    Act.report (event .debug "source is not UTF-8; not compiling" [("url", url)])
    return none
  | some text =>
    match ← Act.call (compiler.compile text url) with
    | .ok [] | .error (.unsupported _) =>
      Act.report (event .debug "compiler produced no bytecode" [("url", url)])
      return none
    | .ok bytecode => return some bytecode
    | .error e =>
      Act.report (event .warn "bytecode compilation failed" [("error", e.message), ("url", url)])
      return none

def keep (store : ScriptStore σ) (bytecode : Bytes) (script : ScriptSignature)
    (runtime : RuntimeSignature) : Act σ Unit := do
  match ← Act.call (store.put bytecode script runtime provenanceTag) with
  | .ok () =>
    Act.report (event .debug "persisted prepared script"
      [("bytes", toString bytecode.length), ("runtime", runtime.text), ("script", script.text)])
  | .error e =>
    Act.report (event .warn "failed to persist prepared script"
      [("error", e.message), ("script", script.text)])

def lookupValid (isBytecode : Bytes → Bool) (store : ScriptStore σ) (script : ScriptSignature)
    (runtime : RuntimeSignature) : Act σ (Option Bytes) := do
  let fields := [("runtime", runtime.text), ("script", script.text)]
  match ← lookup store script runtime with
  | none => return none
  | some kept =>
    if isBytecode kept then
      Act.report (event .trace "prepared script hit" fields)
      return some kept
    else
      Act.report (event .debug "stored artifact is not valid bytecode; recompiling" fields)
      return none

def link (c : PreparedCache σ) : Link σ V E := fun source url next => do
  match c.store with
  | none => next.run source url
  | some store =>
    if next.engine.isBytecode source then next.run source url
    else
      let script : ScriptSignature := ⟨url, c.scriptVersion⟩
      let runtime := next.engine.signature
      match ← lookupValid next.engine.isBytecode store script runtime with
      | some kept => next.run kept url
      | none =>
        match ← compile c.compiler source url with
        | none => next.run source url
        | some bytecode =>
          keep store bytecode script runtime
          next.run bytecode url

def describe (c : PreparedCache σ) : String :=
  s!"PreparedScriptCache \x7b has_store: {c.store.isSome}, " ++
    s!"script_version: {c.scriptVersion.toNat} \x7d"

end PreparedCache

def preparedRuntime (engine : Engine σ V E) (compiler : Compiler σ)
    (store : Option (ScriptStore σ)) : Runtime σ V E :=
  ⟨engine, [PreparedCache.link { compiler, store }]⟩

end ScriptHost
