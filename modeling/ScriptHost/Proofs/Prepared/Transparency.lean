import ScriptHost.Proofs.Prepared.Host

/-! Caching is transparent. Whatever a store holds for a URL evaluates as the source of that URL
does, so what a chain of caches hands to the engine does too, and a run through the caches answers
as the engine alone. -/

namespace ScriptHost

open Act

variable {γ κ V E : Type}

def Engine.evaluateAll (engine : Engine γ V E) : List (Bytes × String) →
    StateM γ (List (Except E V))
  | [] => return []
  | input :: rest => do return (← engine.evaluate input.1 input.2) :: (← engine.evaluateAll rest)

theorem Engine.evaluateAll_append (engine : Engine γ V E) (a b : List (Bytes × String)) (g : γ) :
    engine.evaluateAll (a ++ b) g =
      ((engine.evaluateAll a g).1 ++ (engine.evaluateAll b (engine.evaluateAll a g).2).1,
        (engine.evaluateAll b (engine.evaluateAll a g).2).2) := by
  induction a generalizing g with
  | nil => rfl
  | cons input a ih =>
    change (_ :: (engine.evaluateAll (a ++ b) _).1, (engine.evaluateAll (a ++ b) _).2) = _
    rw [ih]
    rfl

namespace CacheStep

/-- All inputs of a run at one URL are the same, apart from bytecode. -/
def OneSource (engine : Engine γ V E) (steps : List CacheStep) : Prop :=
  ∀ url a b, .evaluate a url ∈ steps → .evaluate b url ∈ steps →
    engine.isBytecode a = false → engine.isBytecode b = false → a = b

/-- The artifacts of the sources of a run are bytecode that evaluates as the sources do. -/
def Faithful (engine : Engine γ V E) (specs : List (CacheSpec κ)) (steps : List CacheStep) :
    Prop :=
  ∀ spec ∈ specs, ∀ source url text, .evaluate source url ∈ steps →
    engine.isBytecode source = false → textOf? source = some text →
      ∀ k artifact, artifact ≠ [] → (spec.compiler.compile text url k).1 = .ok artifact →
        engine.isBytecode artifact = true ∧
          engine.evaluate artifact url = engine.evaluate source url

/-- An entry evaluates as the source of its URL does. -/
def StandsIn (engine : Engine γ V E) (steps : List CacheStep) (key : StoreKey)
    (stored : StoredScript) : Prop :=
  ∀ source, .evaluate source key.script.url ∈ steps → engine.isBytecode source = false →
    engine.evaluate stored.bytes key.script.url = engine.evaluate source key.script.url

/-- The outside during a run: the engine's state, and stores whose entries stand in. -/
def Sound (engine : Engine γ V E) (steps : List CacheStep) (g : γ) (h : CacheHost γ κ) : Prop :=
  h.engine = g ∧ h.Holds (StandsIn engine steps)

/-- The bytes are the source, or bytecode that evaluates as the source does. -/
def Serves (engine : Engine γ V E) (source : Bytes) (url : String) (bytes : Bytes) : Prop :=
  engine.evaluate bytes url = engine.evaluate source url ∧
    (bytes = source ∨ engine.isBytecode bytes = true)

variable {engine : Engine γ V E} {specs : List (CacheSpec κ)} {steps : List CacheStep}
  {source : Bytes} {url : String} {g : γ} (faults : Nat → Option Fault)

theorem prepare_sound (hfaithful : Faithful engine specs steps) (hone : OneSource engine steps)
    (hmem : .evaluate source url ∈ steps) {spec : CacheSpec κ} (hspec : spec ∈ specs)
    {bytes : Bytes} (hbytes : Serves engine source url bytes) :
    Keeps (Sound engine steps g)
      ((spec.cache faults).prepare (CacheHost.enginePart.engine engine) bytes url)
      (Serves engine source url) := by
  have hsource : engine.isBytecode bytes = false → bytes = source := fun hbytecode =>
    hbytes.2.resolve_right (by simp [hbytecode])
  refine PreparedCache.prepare_keeps (A := fun b => engine.isBytecode b = true ∧
    engine.evaluate b url = engine.evaluate source url ∧ engine.isBytecode source = false) hbytes
    ?_ ?_ ?_ fun b hb => ⟨hb.2.1, Or.inr hb.1⟩
  · rintro hbytecode store hstore h ⟨hengine, hholds⟩
    obtain ⟨i, -, rfl⟩ := Option.map_eq_some_iff.1 hstore
    obtain ⟨hkeeps, hsame, hkept⟩ := hholds.faulty_get
    refine ⟨⟨hsame.trans hengine, hkeeps⟩, fun kept hget hvalid => ?_⟩
    obtain ⟨_, hstands⟩ := hkept kept hget
    exact ⟨hstands source hmem (hsource hbytecode ▸ hbytecode), Or.inr hvalid⟩
  · intro hbytecode text htext h hsound
    refine ⟨hsound, fun artifact hartifact hcompile => ?_⟩
    obtain rfl := hsource hbytecode
    obtain ⟨hvalid, hsame⟩ :=
      hfaithful spec hspec bytes url text hmem hbytecode htext _ artifact hartifact hcompile
    exact ⟨hvalid, hsame, hbytecode⟩
  · rintro store hstore artifact ⟨-, hsame, hbytecode⟩ h ⟨hengine, hholds⟩
    obtain ⟨i, -, rfl⟩ := Option.map_eq_some_iff.1 hstore
    have hstands : StandsIn engine steps ⟨⟨url, spec.scriptVersion⟩, engine.signature⟩
        ⟨artifact, provenanceTag⟩ := fun other hother hbytecode' => by
      rw [hone url other source hother hmem hbytecode' hbytecode]
      exact hsame
    obtain ⟨hkeeps, hsame⟩ := hholds.faulty_put hstands
    exact ⟨hsame.trans hengine, hkeeps⟩

theorem prepareAll_sound (hfaithful : Faithful engine specs steps) (hone : OneSource engine steps)
    (hmem : .evaluate source url ∈ steps) :
    Keeps (Sound engine steps g)
      (PreparedCache.prepareAll (specs.map (CacheSpec.cache faults))
        (CacheHost.enginePart.engine engine) source url) (Serves engine source url) := by
  refine PreparedCache.prepareAll_keeps (fun c hc bytes hbytes => ?_) ⟨rfl, Or.inl rfl⟩
  obtain ⟨spec, hspec, rfl⟩ := List.mem_map.1 hc
  exact prepare_sound faults hfaithful hone hmem hspec hbytes

/-- An evaluation through the caches is the engine's own, once the bytes are settled. -/
theorem evaluate_sound (hfaithful : Faithful engine specs steps) (hone : OneSource engine steps)
    (hmem : .evaluate source url ∈ steps) {w : World (CacheHost γ κ)}
    (hw : Sound engine steps g w.outside) :
    ((cachedRuntime engine specs faults).evaluate source url w).1 =
        (engine.evaluate source url g).1 ∧
      Sound engine steps (engine.evaluate source url g).2
        ((cachedRuntime engine specs faults).evaluate source url w).2.outside := by
  have hrun : (cachedRuntime engine specs faults).evaluate source url = _ :=
    PreparedCache.through_run (specs.map (CacheSpec.cache faults))
      (CacheHost.enginePart.engine engine) source url
  obtain ⟨⟨hengine, hholds⟩, hsame, -⟩ :=
    prepareAll_sound faults hfaithful hone hmem w hw
  rw [hrun, Act.bind_apply]
  change (engine.evaluate _ url _).1 = _ ∧ (engine.evaluate _ url _).2 = _ ∧ _
  rw [hsame, show CacheHost.enginePart.get _ = g from hengine]
  exact ⟨rfl, rfl, hholds⟩

/-- One step of a run: an evaluation answers as the engine alone, anything else leaves the engine
as it is. -/
theorem act_sound (hfaithful : Faithful engine specs steps) (hone : OneSource engine steps)
    {step : CacheStep} (hmem : step ∈ steps) {w : World (CacheHost γ κ)}
    (hw : Sound engine steps g w.outside) :
    (step.act (cachedRuntime engine specs faults) w).1 =
        (engine.evaluateAll step.input?.toList g).1 ∧
      Sound engine steps (engine.evaluateAll step.input?.toList g).2
        (step.act (cachedRuntime engine specs faults) w).2.outside := by
  cases step with
  | evaluate source url =>
    obtain ⟨hanswer, hsound⟩ := evaluate_sound faults hfaithful hone hmem hw
    exact ⟨congrArg (fun a => [a]) hanswer, hsound⟩
  | invalidate store url => exact ⟨rfl, hw.1, hw.2.without store url⟩
  | clear store => exact ⟨rfl, hw.1, hw.2.clear store⟩

theorem inputs_cons (step : CacheStep) (rest : List CacheStep) :
    (step :: rest).filterMap input? = step.input?.toList ++ rest.filterMap input? := by
  cases step <;> rfl

theorem answers_sound (hfaithful : Faithful engine specs steps) (hone : OneSource engine steps)
    {rest : List CacheStep} (hrest : rest ⊆ steps) {w : World (CacheHost γ κ)}
    (hw : Sound engine steps g w.outside) :
    (answers (cachedRuntime engine specs faults) rest w).1 =
        (engine.evaluateAll (rest.filterMap input?) g).1 ∧
      (answers (cachedRuntime engine specs faults) rest w).2.outside.engine =
        (engine.evaluateAll (rest.filterMap input?) g).2 := by
  induction rest generalizing g w with
  | nil => exact ⟨rfl, hw.1⟩
  | cons step rest ih =>
    obtain ⟨hstep, hrest⟩ := List.cons_subset.1 hrest
    obtain ⟨hanswer, hsound⟩ := act_sound faults hfaithful hone hstep hw
    obtain ⟨hanswers, hengine⟩ := ih hrest hsound
    rw [inputs_cons, Engine.evaluateAll_append]
    refine ⟨?_, hengine⟩
    change (step.act (cachedRuntime engine specs faults) w).1 ++
      (answers (cachedRuntime engine specs faults) rest
        (step.act (cachedRuntime engine specs faults) w).2).1 = _
    rw [hanswer, hanswers]

/-- Values, errors and the engine's end state are those of the engine alone, whatever the stores
do. -/
theorem answers_eq_evaluateAll (engine : Engine γ V E) (specs : List (CacheSpec κ))
    (faults : Nat → Option Fault) (steps : List CacheStep) (g : γ) (k : κ)
    (hfaithful : Faithful engine specs steps) (hone : OneSource engine steps) :
    let cached := answers (cachedRuntime engine specs faults) steps
      ⟨{ engine := g, compiling := k }, []⟩
    let direct := engine.evaluateAll (steps.filterMap input?) g
    cached.1 = direct.1 ∧ cached.2.outside.engine = direct.2 :=
  answers_sound faults hfaithful hone (List.Subset.refl steps) ⟨rfl, CacheHost.holds_empty⟩

/-- An engine that numbers what it runs and keeps it. Bytecode is a zero with the source behind. -/
def recorder : Engine (List Bytes) Nat Unit where
  signature := ⟨"recorder", 1⟩
  isBytecode source := source.head? = some 0
  undefined := 0
  evaluate source _ := fun ran =>
    (.ok ran.length, ran ++ [if source.head? = some 0 then source.tail else source])
  debugEvaluate _ _ _ := return .error ()
  setPauseOnLoad _ := return
  connectDebugger := return

def zeroCompiler : Compiler Unit := ⟨fun text _ => return .ok (0 :: bytesOf text)⟩

/-- Two caches that share a store, with one between them that has none. -/
def threeCaches : List (CacheSpec Unit) :=
  [⟨zeroCompiler, some 0, 1⟩, ⟨zeroCompiler, none, 1⟩, ⟨zeroCompiler, some 0, 2⟩]

/-- The first write fails late, the second lookup fails. -/
def twoFaults : Nat → Option Fault
  | 1 => some ⟨.unavailable "offline", true⟩
  | 2 => some ⟨.io "on fire", false⟩
  | _ => none

/-- A script again and again, its bytecode, and a source that is no text. -/
def mixed : List CacheStep :=
  [.evaluate [112] "a.js", .evaluate [112] "a.js", .evaluate [0, 113] "a.js", .invalidate 0 "a.js",
    .evaluate [255] "b.js", .evaluate [112] "a.js", .clear 0, .evaluate [112] "a.js"]

theorem evaluate_mem_mixed {source : Bytes} {url : String} (h : .evaluate source url ∈ mixed)
    (hbytecode : recorder.isBytecode source = false) :
    (source = [112] ∧ url = "a.js") ∨ (source = [255] ∧ url = "b.js") := by
  simp only [mixed, List.mem_cons, CacheStep.evaluate.injEq, reduceCtorEq, List.not_mem_nil,
    or_false, false_or] at h
  rcases h with h | h | ⟨rfl, -⟩ | h | h | h
  · exact Or.inl h
  · exact Or.inl h
  · cases hbytecode
  · exact Or.inr h
  · exact Or.inl h
  · exact Or.inl h

theorem faithful_mixed : Faithful recorder threeCaches mixed := by
  intro spec hspec source url text hmem hbytecode htext k artifact _ hcompile
  have hcompiler : spec.compiler = zeroCompiler := by
    simp only [threeCaches, List.mem_cons, List.not_mem_nil, or_false] at hspec
    rcases hspec with rfl | rfl | rfl <;> rfl
  rw [hcompiler] at hcompile
  obtain rfl : 0 :: bytesOf text = artifact := Except.ok.inj hcompile
  rcases evaluate_mem_mixed hmem hbytecode with ⟨rfl, -⟩ | ⟨rfl, -⟩
  · obtain rfl : "p" = text := Option.some.inj htext
    exact ⟨rfl, rfl⟩
  · cases htext

theorem oneSource_mixed : OneSource recorder mixed := by
  intro url a b ha hb hbytecode hbytecode'
  rcases evaluate_mem_mixed ha hbytecode with ⟨rfl, rfl⟩ | ⟨rfl, rfl⟩
  · rcases evaluate_mem_mixed hb hbytecode' with ⟨rfl, -⟩ | ⟨-, hurl⟩
    · rfl
    · simp at hurl
  · rcases evaluate_mem_mixed hb hbytecode' with ⟨-, hurl⟩ | ⟨rfl, -⟩
    · simp at hurl
    · rfl

theorem answers_mixed :
    Faithful recorder threeCaches mixed ∧ OneSource recorder mixed ∧
      (answers (cachedRuntime recorder threeCaches twoFaults) mixed
        ⟨{ engine := [], compiling := () }, []⟩).1 =
          [.ok 0, .ok 1, .ok 2, .ok 3, .ok 4, .ok 5] :=
  ⟨faithful_mixed, oneSource_mixed,
    (answers_eq_evaluateAll recorder threeCaches twoFaults mixed [] () faithful_mixed
      oneSource_mixed).1.trans rfl⟩

end CacheStep
end ScriptHost
