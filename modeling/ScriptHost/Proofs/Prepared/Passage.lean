import ScriptHost.Proofs.Calls
import ScriptHost.Proofs.Prepared.Preparation
import ScriptHost.Proofs.Prepared.Stores

/-! The ways an evaluation can take through a cache. The way is settled by the input and by what the
store and the compiler answer; it tells which bytes go on, and every call that was made. -/

namespace ScriptHost

inductive Passage where
  /-- The input is bytecode. -/
  | straight
  /-- Valid bytecode was kept. -/
  | hit (kept : Bytes)
  /-- The input is no text. -/
  | unreadable
  /-- The compiler makes nothing of the text. -/
  | refused (text : String)
  | made (text : String) (artifact : Bytes)
deriving DecidableEq, Repr

def valid? (isBytecode : Bytes → Bool) : Except StoreError (Option Bytes) → Option Bytes
  | .ok found => found.filter isBytecode
  | .error _ => none

def artifact? : Except CompileError Bytes → Option Bytes
  | .ok artifact => if artifact = [] then none else some artifact
  | .error _ => none

theorem artifact?_eq_some {answer : Except CompileError Bytes} {artifact : Bytes} :
    artifact? answer = some artifact ↔ artifact ≠ [] ∧ answer = .ok artifact := by
  cases answer with
  | error e => simp [artifact?]
  | ok made =>
    simp only [artifact?, Option.ite_none_left_eq_some, Option.some.injEq, Except.ok.injEq]
    refine and_congr_left ?_
    rintro rfl
    rfl

namespace Passage

def choose (isBytecode : Bytes → Bool) (source : Bytes)
    (found : Except StoreError (Option Bytes)) (compiled : String → Except CompileError Bytes) :
    Passage :=
  if isBytecode source then .straight
  else
    match valid? isBytecode found with
    | some kept => .hit kept
    | none =>
      match textOf? source with
      | none => .unreadable
      | some text =>
        match artifact? (compiled text) with
        | none => .refused text
        | some artifact => .made text artifact

variable {isBytecode : Bytes → Bool} {source : Bytes}
  {found : Except StoreError (Option Bytes)} {answer : String → Except CompileError Bytes}

theorem choose_of_valid? (hsource : isBytecode source = false) {kept : Bytes}
    (h : valid? isBytecode found = some kept) :
    choose isBytecode source found answer = .hit kept := by
  simp [choose, hsource, h]

theorem choose_of_not_text (hsource : isBytecode source = false)
    (h : valid? isBytecode found = none) (htext : textOf? source = none) :
    choose isBytecode source found answer = .unreadable := by
  simp [choose, hsource, h, htext]

theorem choose_of_text (hsource : isBytecode source = false)
    (h : valid? isBytecode found = none) {text : String} (htext : textOf? source = some text) :
    choose isBytecode source found answer =
      (artifact? (answer text)).elim (.refused text) (.made text) := by
  simp only [choose, hsource, Bool.false_eq_true, if_false, h, htext]
  cases artifact? (answer text) <;> rfl

/-- What each way says about the input and the answers. -/
theorem choose_spec (isBytecode : Bytes → Bool) (source : Bytes)
    (found : Except StoreError (Option Bytes)) (answer : String → Except CompileError Bytes) :
    match choose isBytecode source found answer with
    | .straight => isBytecode source = true
    | .hit kept => isBytecode source = false ∧ valid? isBytecode found = some kept
    | .unreadable =>
      isBytecode source = false ∧ valid? isBytecode found = none ∧ textOf? source = none
    | .refused text =>
      isBytecode source = false ∧ valid? isBytecode found = none ∧ textOf? source = some text ∧
        artifact? (answer text) = none
    | .made text artifact =>
      isBytecode source = false ∧ valid? isBytecode found = none ∧ textOf? source = some text ∧
        artifact? (answer text) = some artifact := by
  cases hsource : isBytecode source with
  | true =>
    rw [choose, if_pos hsource]
  | false =>
    cases hfound : valid? isBytecode found with
    | some kept =>
      rw [choose_of_valid? hsource hfound]
      exact ⟨rfl, rfl⟩
    | none =>
      cases htext : textOf? source with
      | none =>
        rw [choose_of_not_text hsource hfound htext]
        exact ⟨rfl, rfl, rfl⟩
      | some text =>
        rw [choose_of_text hsource hfound htext]
        cases hmade : artifact? (answer text) with
        | none => exact ⟨rfl, rfl, rfl, hmade⟩
        | some artifact => exact ⟨rfl, rfl, rfl, hmade⟩

theorem choose_eq_straight (h : choose isBytecode source found answer = .straight) :
    isBytecode source = true := by
  have hspec := choose_spec isBytecode source found answer
  rwa [h] at hspec

theorem choose_eq_made {text : String} {artifact : Bytes}
    (h : choose isBytecode source found answer = .made text artifact) :
    isBytecode source = false ∧ valid? isBytecode found = none ∧ textOf? source = some text ∧
      artifact? (answer text) = some artifact := by
  have hspec := choose_spec isBytecode source found answer
  rwa [h] at hspec

def bytes (source : Bytes) : Passage → Bytes
  | .hit kept => kept
  | .made _ artifact => artifact
  | .straight | .unreadable | .refused _ => source

def calls (script : ScriptSignature) (runtime : RuntimeSignature) : Passage → List OutsideCall
  | .straight => []
  | .hit _ | .unreadable => [.get script runtime prepareTag]
  | .refused text => [.get script runtime prepareTag, .compile text script.url]
  | .made text artifact =>
    [.get script runtime prepareTag, .compile text script.url,
      .put artifact script runtime provenanceTag]

variable {way : Passage} {script : ScriptSignature} {runtime : RuntimeSignature}
  {call : OutsideCall} {url : String}

theorem made_of_keepsAt (hmem : call ∈ way.calls script runtime)
    (hkeeps : call.keepsAt url = true) :
    script.url = url ∧ ∃ text artifact, way = .made text artifact := by
  cases way <;> grind [calls, OutsideCall.keepsAt]

theorem compiled_of_compilesAt (hmem : call ∈ way.calls script runtime)
    (hcompiles : call.compilesAt url = true) :
    script.url = url ∧ ∃ text, way = .refused text ∨ ∃ artifact, way = .made text artifact := by
  cases way <;> grind [calls, OutsideCall.compilesAt]

def compiled (compiler : Compiler τ) (url : String) (t : τ) : Passage → τ
  | .refused text | .made text _ => (compiler.compile text url t).2
  | .straight | .hit _ | .unreadable => t

def kept (key : StoreKey) (s : MemoryStore) : Passage → MemoryStore
  | .made _ artifact => s.put key ⟨artifact, provenanceTag⟩
  | .straight | .hit _ | .unreadable | .refused _ => s

end Passage

theorem MemoryStore.AgreeOn.kept {P : StoreKey → Prop} {s t : MemoryStore} (h : AgreeOn P s t)
    (way : Passage) (key : StoreKey) : AgreeOn P (way.kept key s) (way.kept key t) := by
  cases way with
  | made text artifact => exact h.put key _
  | straight | hit | unreadable | refused => exact h

theorem MemoryStore.AgreeOn.kept_left {P : StoreKey → Prop} {s t : MemoryStore}
    (h : AgreeOn P s t) (way : Passage) {key : StoreKey} (hkey : ¬ P key) :
    AgreeOn P (way.kept key s) t := by
  cases way with
  | made text artifact => exact h.put_left hkey _
  | straight | hit | unreadable | refused => exact h

namespace PreparedCache

open Act

variable {store : ScriptStore σ} {c : PreparedCache σ}

theorem lookupValid_spec (isBytecode : Bytes → Bool) (store : ScriptStore σ)
    (script : ScriptSignature) (runtime : RuntimeSignature) (w : World σ) :
    (lookupValid isBytecode store script runtime w).1 =
        valid? isBytecode (store.get script runtime prepareTag w.outside).1 ∧
      (lookupValid isBytecode store script runtime w).2.outside =
        (store.get script runtime prepareTag w.outside).2 := by
  simp only [lookupValid, lookup, bind_assoc, call_bind]
  rcases (store.get script runtime prepareTag w.outside).1 with e | _ | kept
  · exact ⟨rfl, rfl⟩
  · exact ⟨rfl, rfl⟩
  · simp only [pure_bind, valid?, Option.filter_some]
    split <;> exact ⟨rfl, rfl⟩

theorem compile_spec (compiler : Compiler σ) (source : Bytes) (url : String) (w : World σ) :
    (compile compiler source url w).1 =
        (textOf? source).bind (fun text => artifact? (compiler.compile text url w.outside).1) ∧
      (compile compiler source url w).2.outside =
        (textOf? source).elim w.outside fun text => (compiler.compile text url w.outside).2 := by
  unfold compile
  cases textOf? source with
  | none => exact ⟨rfl, rfl⟩
  | some text =>
    simp only [call_bind, Option.bind_some, Option.elim_some]
    rcases (compiler.compile text url w.outside).1 with (_ | _) | (_ | _) <;> exact ⟨rfl, rfl⟩

theorem keep_spec (store : ScriptStore σ) (bytecode : Bytes) (script : ScriptSignature)
    (runtime : RuntimeSignature) (w : World σ) :
    (keep store bytecode script runtime w).2.outside =
      (store.put bytecode script runtime provenanceTag w.outside).2 := by
  simp only [keep, call_bind]
  cases (store.put bytecode script runtime provenanceTag w.outside).1 <;> rfl

/-- The way of an evaluation that begins where the outside is `s`. -/
def passage (c : PreparedCache σ) (engine : Engine σ V E) (store : ScriptStore σ) (source : Bytes)
    (url : String) (s : σ) : Passage :=
  let got := store.get ⟨url, c.scriptVersion⟩ engine.signature prepareTag s
  .choose engine.isBytecode source got.1 fun text => (c.compiler.compile text url got.2).1

def settled (c : PreparedCache σ) (engine : Engine σ V E) (store : ScriptStore σ) (source : Bytes)
    (url : String) (s : σ) : σ :=
  ((c.passage engine store source url s).calls ⟨url, c.scriptVersion⟩ engine.signature).foldl
    (OutsideCall.effect engine c.compiler store) s

theorem prepare_spec (engine : Engine σ V E) (hstore : c.store = some store) (source : Bytes)
    (url : String) (w : World σ) :
    (c.prepare engine source url w).1 =
        (c.passage engine store source url w.outside).bytes source ∧
      (c.prepare engine source url w).2.outside =
        c.settled engine store source url w.outside := by
  simp only [prepare, hstore, settled, passage, Passage.choose]
  by_cases hsource : engine.isBytecode source = true
  · simp only [hsource, if_true]
    exact ⟨rfl, rfl⟩
  · simp only [if_neg hsource, bind_apply]
    obtain ⟨hfound, hgot⟩ :=
      lookupValid_spec engine.isBytecode store ⟨url, c.scriptVersion⟩ engine.signature w
    rw [hfound]
    cases valid? engine.isBytecode
        (store.get ⟨url, c.scriptVersion⟩ engine.signature prepareTag w.outside).1 with
    | some kept => exact ⟨rfl, hgot⟩
    | none =>
      obtain ⟨hmade, hcompiled⟩ := compile_spec c.compiler source url
        (lookupValid engine.isBytecode store ⟨url, c.scriptVersion⟩ engine.signature w).2
      rw [hgot] at hmade hcompiled
      simp only [bind_apply, hmade]
      cases htext : textOf? source with
      | none =>
        rw [htext] at hcompiled
        exact ⟨rfl, hcompiled⟩
      | some text =>
        rw [htext] at hcompiled
        dsimp only [Option.bind_some]
        cases artifact? (c.compiler.compile text url _).1 with
        | none => exact ⟨rfl, hcompiled⟩
        | some artifact =>
          refine ⟨rfl, ?_⟩
          simp only [bind_apply]
          refine (keep_spec ..).trans ?_
          rw [hcompiled]
          rfl

def runtime (c : PreparedCache σ) (engine : Engine σ V E) : Runtime σ V E := ⟨engine, [c.link]⟩

theorem evaluate_eq_prepare (c : PreparedCache σ) (engine : Engine σ V E) (source : Bytes)
    (url : String) :
    (c.runtime engine).evaluate source url =
      c.prepare engine source url >>= fun bytes => Act.call (engine.evaluate bytes url) :=
  link_eq_prepare c source url _

/-- The engine evaluates what the cache settled, and nothing else happens. -/
theorem evaluate_spec (engine : Engine σ V E) (hstore : c.store = some store) (source : Bytes)
    (url : String) (w : World σ) :
    let ran := engine.evaluate ((c.passage engine store source url w.outside).bytes source) url
      (c.settled engine store source url w.outside)
    ((c.runtime engine).evaluate source url w).1 = ran.1 ∧
      ((c.runtime engine).evaluate source url w).2.outside = ran.2 := by
  obtain ⟨hbytes, hsettled⟩ := prepare_spec engine hstore source url w
  rw [evaluate_eq_prepare, bind_apply, hbytes]
  change (engine.evaluate _ url _).1 = _ ∧ (engine.evaluate _ url _).2 = _
  rw [hsettled]
  exact ⟨rfl, rfl⟩

/-- Recorded, the same happens, and the notes are the calls of the way and that of the engine. -/
theorem observe_spec (engine : Engine σ V E) (note : OutsideCall → ε)
    (hstore : c.store = some store) (source : Bytes) (url : String) (w : World σ) :
    let way := c.passage engine store source url w.outside
    let ran := engine.evaluate (way.bytes source) url (c.settled engine store source url w.outside)
    let seen := (((c.recorded note).runtime (engine.recorded note)).evaluate source url).observe w
    seen.1.1 = ran.1 ∧
      seen.1.2 = (way.calls ⟨url, c.scriptVersion⟩ engine.signature ++
        [OutsideCall.evaluate (way.bytes source) url]).map note ∧
      seen.2.outside = ran.2 := by
  have hrecorded : (c.recorded note).store = some (store.recorded note) := by
    simp [recorded, hstore]
  obtain ⟨hanswer, houtside⟩ := evaluate_spec (engine.recorded note) hrecorded source url
    ⟨⟨w.outside, []⟩, w.log⟩
  have hsettled : (c.recorded note).settled (engine.recorded note) (store.recorded note) source url
      ⟨w.outside, []⟩ = ⟨c.settled engine store source url w.outside,
        ((c.passage engine store source url w.outside).calls ⟨url, c.scriptVersion⟩
          engine.signature).map note⟩ :=
    OutsideCall.foldl_effect_recorded ..
  rw [hsettled] at hanswer houtside
  refine ⟨hanswer, (congrArg Recorded.notes houtside).trans ?_, congrArg Recorded.outside houtside⟩
  rw [List.map_append]
  rfl

end PreparedCache
end ScriptHost
