import ScriptHost.Proofs.Calls
import ScriptHost.Proofs.Prepared.Passage

/-! What is asked of the outside, with the answers. An act that is transcribed does what it does
otherwise; `Act.Tells` says so, and says of the transcript what follows from the way the act is put
together. A cache is opened here once: `CacheWork` lists everything it can ask for. -/

namespace ScriptHost

/-- A call and its answer. The calls of a cache carry the place of the cache in its chain. -/
inductive Asked (V E : Type) where
  | evaluate (bytes : Bytes) (url : String) (answer : Except E V)
  | debugEvaluate (text url : String) (flags : DebugFlags) (answer : Except E Unit)
  | compile (place : Nat) (text url : String) (answer : Except CompileError Bytes)
  | get (place : Nat) (script : ScriptSignature) (runtime : RuntimeSignature) (purpose : String)
      (answer : Except StoreError (Option Bytes))
  | put (place : Nat) (bytes : Bytes) (script : ScriptSignature) (runtime : RuntimeSignature)
      (provenance : String) (answer : Except StoreError Unit)

namespace Asked

def place? : Asked V E → Option Nat
  | .evaluate .. | .debugEvaluate .. => none
  | .compile place .. | .get place .. | .put place .. => some place

def runs : Asked V E → Bool
  | .evaluate .. | .debugEvaluate .. => true
  | _ => false

def yields : Asked V E → Bool
  | .compile _ _ _ answer => (artifact? answer).isSome
  | _ => false

def persists : Asked V E → Bool
  | .put .. => true
  | _ => false

theorem runs_eq_false {a : Asked V E} {place : Nat} (h : a.place? = some place) :
    a.runs = false := by
  cases a <;> simp_all [place?, runs]

/-- A lookup that finds bytecode, or a compilation that yields it. -/
def settles (isBytecode : Bytes → Bool) : Asked V E → Bool
  | .get _ _ _ _ answer => (valid? isBytecode answer).isSome
  | .compile _ _ _ answer => (artifact? answer).isSome
  | _ => false

end Asked

namespace Recorded

def ask (note : α → ε) (f : StateM σ α) : StateM (Recorded σ ε) α := fun s =>
  ((f s.outside).1, ⟨(f s.outside).2, s.notes ++ [note (f s.outside).1]⟩)

def silent (f : StateM σ α) : StateM (Recorded σ ε) α := fun s =>
  ((f s.outside).1, ⟨(f s.outside).2, s.notes⟩)

end Recorded

/-- An act as one call that is noted with its result. -/
def Act.noted (note : α → ε) (act : Act σ α) : Act (Recorded σ ε) α := fun w =>
  ((act ⟨w.outside.outside, w.log⟩).1,
    ⟨⟨(act ⟨w.outside.outside, w.log⟩).2.outside,
      w.outside.notes ++ [note (act ⟨w.outside.outside, w.log⟩).1]⟩,
      (act ⟨w.outside.outside, w.log⟩).2.log⟩)

def Engine.transcribed (e : Engine σ V E) : Engine (Recorded σ (Asked V E)) V E where
  signature := e.signature
  isBytecode := e.isBytecode
  undefined := e.undefined
  evaluate bytes url := Recorded.ask (.evaluate bytes url) (e.evaluate bytes url)
  debugEvaluate text url flags :=
    Recorded.ask (.debugEvaluate text url flags) (e.debugEvaluate text url flags)
  setPauseOnLoad on := Recorded.silent (e.setPauseOnLoad on)
  connectDebugger := Recorded.silent e.connectDebugger

/-- What follows a link, where every continuation is noted as an evaluation. -/
def Next.transcribed (next : Next σ V E) : Next (Recorded σ (Asked V E)) V E where
  engine := next.engine.transcribed
  run bytes url := Act.noted (.evaluate bytes url) (next.run bytes url)

def Compiler.transcribed (place : Nat) (c : Compiler σ) : Compiler (Recorded σ (Asked V E)) where
  compile text url := Recorded.ask (.compile place text url) (c.compile text url)

def ScriptStore.transcribed (place : Nat) (s : ScriptStore σ) :
    ScriptStore (Recorded σ (Asked V E)) where
  get script runtime purpose :=
    Recorded.ask (.get place script runtime purpose) (s.get script runtime purpose)
  put bytes script runtime provenance :=
    Recorded.ask (.put place bytes script runtime provenance)
      (s.put bytes script runtime provenance)

def PreparedCache.transcribed (place : Nat) (c : PreparedCache σ) :
    PreparedCache (Recorded σ (Asked V E)) where
  compiler := c.compiler.transcribed place
  store := c.store.map (·.transcribed place)
  scriptVersion := c.scriptVersion

namespace Act

/-- The act does what `plain` does, and its result and what it notes on the way meet `P`. -/
def Tells (act : Act (Recorded σ ε) α) (plain : Act σ α) (P : α → List ε → Prop) : Prop :=
  ∀ s notes log, ∃ told, P (plain ⟨s, log⟩).1 told ∧
    act ⟨⟨s, notes⟩, log⟩ = ((plain ⟨s, log⟩).1,
      ⟨⟨(plain ⟨s, log⟩).2.outside, notes ++ told⟩, (plain ⟨s, log⟩).2.log⟩)

variable {P : α → List ε → Prop} {Q : β → List ε → Prop}

theorem Tells.pure {a : α} (h : P a []) :
    Tells (Pure.pure a : Act (Recorded σ ε) α) (Pure.pure a) P := fun s notes log =>
  ⟨[], h, by rw [List.append_nil]; rfl⟩

/-- A report leaves no note. -/
theorem Tells.report {e : Event} {next : Unit → Act (Recorded σ ε) α} {plainNext : Unit → Act σ α}
    (h : Tells (next ()) (plainNext ()) P) :
    Tells (Act.report e >>= next) (Act.report e >>= plainNext) P := fun s notes log =>
  h s notes (log ++ [e])

theorem Tells.ask {note : α → ε} {f : StateM σ α} (h : ∀ s, P (f s).1 [note (f s).1]) :
    Tells (call (Recorded.ask note f)) (call f) P := fun s _ _ => ⟨_, h s, rfl⟩

theorem Tells.silent {f : StateM σ α} (h : ∀ s, P (f s).1 []) :
    Tells (call (Recorded.silent f)) (call f) P := fun s notes log =>
  ⟨[], h s, by rw [List.append_nil]; rfl⟩

theorem Tells.noted {note : α → ε} {act : Act σ α} (h : ∀ a, P a [note a]) :
    Tells (act.noted note) act P := fun _ _ _ => ⟨_, h _, rfl⟩

theorem Tells.bind {act : Act (Recorded σ ε) α} {plain : Act σ α}
    {next : α → Act (Recorded σ ε) β} {plainNext : α → Act σ β} (h : Tells act plain P)
    (hnext : ∀ a told, P a told →
      Tells (next a) (plainNext a) fun b more => Q b (told ++ more)) :
    Tells (act >>= next) (plain >>= plainNext) Q := by
  intro s notes log
  obtain ⟨told, htold, hact⟩ := h s notes log
  obtain ⟨more, hmore, hnext⟩ := hnext _ told htold (plain ⟨s, log⟩).2.outside (notes ++ told)
    (plain ⟨s, log⟩).2.log
  refine ⟨told ++ more, hmore, ?_⟩
  rw [bind_apply, hact, bind_apply, ← List.append_assoc]
  exact hnext

theorem Tells.mono {act : Act (Recorded σ ε) α} {plain : Act σ α} {P' : α → List ε → Prop}
    (h : Tells act plain P) (hP : ∀ a told, P a told → P' a told) : Tells act plain P' := by
  intro s notes log
  obtain ⟨told, htold, hact⟩ := h s notes log
  exact ⟨told, hP _ _ htold, hact⟩

/-- A transcript is complete: observed, the act gives the result and the outside of `plain`. -/
theorem Tells.observe {act : Act (Recorded σ ε) α} {plain : Act σ α} (h : Tells act plain P)
    (w : World σ) :
    P (act.observe w).1.1 (act.observe w).1.2 ∧
      ((act.observe w).1.1, (act.observe w).2) = plain w := by
  obtain ⟨told, htold, hact⟩ := h w.outside [] w.log
  simp only [Act.observe, hact, List.nil_append]
  exact ⟨htold, rfl⟩

end Act

theorem isBytecode_of_valid? {isBytecode : Bytes → Bool}
    {found : Except StoreError (Option Bytes)} {kept : Bytes}
    (h : valid? isBytecode found = some kept) : isBytecode kept = true := by
  cases found with
  | error e => cases h
  | ok found => exact (Option.filter_eq_some_iff.1 h).2

section CacheWork

variable (isBytecode : Bytes → Bool) (c : PreparedCache σ) (place : Nat)
  (runtime : RuntimeSignature) (source : Bytes) (url : String)

/-- The bytes that a cache hands on, and what it asks for on the way. -/
inductive CacheWork : Bytes → List (Asked V E) → Prop where
  | idle (h : c.store = none ∨ isBytecode source = true) : CacheWork source []
  | hit (hsource : isBytecode source = false) {found kept} (hfound : valid? isBytecode found = some kept) :
      CacheWork kept [.get place ⟨url, c.scriptVersion⟩ runtime prepareTag found]
  | unreadable (hsource : isBytecode source = false) {found} (hfound : valid? isBytecode found = none)
      (htext : textOf? source = none) :
      CacheWork source [.get place ⟨url, c.scriptVersion⟩ runtime prepareTag found]
  | refused (hsource : isBytecode source = false) {found} (hfound : valid? isBytecode found = none)
      {text} (htext : textOf? source = some text) {s : σ}
      (hcompiled : artifact? (c.compiler.compile text url s).1 = none) :
      CacheWork source [.get place ⟨url, c.scriptVersion⟩ runtime prepareTag found,
        .compile place text url (c.compiler.compile text url s).1]
  | made (hsource : isBytecode source = false) {found} (hfound : valid? isBytecode found = none)
      {text} (htext : textOf? source = some text) {s : σ} {artifact}
      (hcompiled : artifact? (c.compiler.compile text url s).1 = some artifact) {kept} :
      CacheWork artifact [.get place ⟨url, c.scriptVersion⟩ runtime prepareTag found,
        .compile place text url (c.compiler.compile text url s).1,
        .put place artifact ⟨url, c.scriptVersion⟩ runtime provenanceTag kept]

end CacheWork

namespace PreparedCache

open Act

variable {isBytecode : Bytes → Bool} {store : ScriptStore σ} {place : Nat}
  {script : ScriptSignature} {runtime : RuntimeSignature}

theorem lookupValid_tells {P : Option Bytes → List (Asked V E) → Prop}
    (h : ∀ answer, P (valid? isBytecode answer) [.get place script runtime prepareTag answer]) :
    Tells (lookupValid isBytecode (store.transcribed place) script runtime)
      (lookupValid isBytecode store script runtime) P := by
  simp only [lookupValid, lookup, bind_assoc]
  refine .bind (P := fun answer told => told = [.get place script runtime prepareTag answer])
    (.ask fun _ => rfl) ?_
  rintro answer _ rfl
  have hanswer := h answer
  rcases answer with e | _ | kept
  · simp only [bind_assoc, pure_bind]
    exact .report (.pure hanswer)
  · exact .pure hanswer
  · simp only [pure_bind, valid?, Option.filter_some] at hanswer ⊢
    split
    · next hvalid =>
      rw [if_pos hvalid] at hanswer
      exact .report (.pure hanswer)
    · next hvalid =>
      rw [if_neg hvalid] at hanswer
      exact .report (.pure hanswer)

theorem compile_tells {compiler : Compiler σ} {source : Bytes} {url : String}
    {P : Option Bytes → List (Asked V E) → Prop} (hnone : textOf? source = none → P none [])
    (hsome : ∀ text, textOf? source = some text → ∀ s,
      P (artifact? (compiler.compile text url s).1)
        [.compile place text url (compiler.compile text url s).1]) :
    Tells (compile (compiler.transcribed place) source url) (compile compiler source url) P := by
  unfold compile
  cases htext : textOf? source with
  | none => exact .report (.pure (hnone htext))
  | some text =>
    refine .bind (P := fun answer told => P (artifact? answer) told) (.ask (hsome text htext)) ?_
    intro answer told hanswer
    rw [← List.append_nil told] at hanswer
    rcases answer with (_ | _) | (_ | _)
    · exact .report (.pure hanswer)
    · exact .report (.pure hanswer)
    · exact .report (.pure hanswer)
    · exact .pure hanswer

theorem keep_tells {bytecode : Bytes} :
    Tells (keep (store.transcribed place) bytecode script runtime)
      (keep store bytecode script runtime) fun _ told =>
        ∃ answer, told = [(.put place bytecode script runtime provenanceTag answer : Asked V E)] := by
  refine .bind (P := fun answer told =>
    told = [.put place bytecode script runtime provenanceTag answer]) (.ask fun _ => rfl) ?_
  rintro answer _ rfl
  cases answer with
  | ok _ => exact .report (.pure ⟨_, rfl⟩)
  | error e => exact .report (.pure ⟨_, rfl⟩)

/-- Everything that a cache does before it hands the evaluation on. -/
theorem prepare_tells (c : PreparedCache σ) (place : Nat) (engine : Engine σ V E) (source : Bytes)
    (url : String) :
    Tells ((c.transcribed place).prepare engine.transcribed source url)
      (c.prepare engine source url)
      (CacheWork (V := V) (E := E) engine.isBytecode c place engine.signature source url) := by
  unfold prepare transcribed
  cases hstore : c.store with
  | none => exact .pure (.idle (Or.inl hstore))
  | some store =>
    change Tells (ite (engine.isBytecode source = true) _ _) (ite _ _ _) _
    split
    · next hsource => exact .pure (.idle (Or.inr hsource))
    · next hsource =>
      have hsource : engine.isBytecode source = false := Bool.eq_false_iff.2 hsource
      refine .bind (P := fun found told => ∃ answer, found = valid? engine.isBytecode answer ∧
        told = [.get place ⟨url, c.scriptVersion⟩ engine.signature prepareTag answer])
        (lookupValid_tells fun answer => ⟨answer, rfl, rfl⟩) ?_
      rintro found _ ⟨answer, hfound, rfl⟩
      cases found with
      | some kept => exact .pure (.hit hsource hfound.symm)
      | none =>
        refine .bind (compile_tells (P := fun artifact told =>
          (artifact = none ∧ told = [] ∧ textOf? source = none) ∨ ∃ text s,
            textOf? source = some text ∧ artifact = artifact? (c.compiler.compile text url s).1 ∧
              told = [.compile place text url (c.compiler.compile text url s).1])
          (fun htext => Or.inl ⟨rfl, rfl, htext⟩)
          fun text htext s => Or.inr ⟨text, s, htext, rfl, rfl⟩) ?_
        rintro artifact _ (⟨rfl, rfl, htext⟩ | ⟨text, s, htext, hmade, rfl⟩)
        · exact .pure (.unreadable hsource hfound.symm htext)
        · cases artifact with
          | none => exact .pure (.refused hsource hfound.symm htext hmade.symm)
          | some artifact =>
            refine .bind keep_tells ?_
            rintro _ _ ⟨kept, rfl⟩
            exact .pure (.made hsource hfound.symm htext hmade.symm)

end PreparedCache
end ScriptHost
