import ScriptHost.Proofs.Prepared.Passage

/-! A cache compiles once. Whatever it keeps for a URL is evaluated at that URL from then on, until
the entry is removed. -/

namespace ScriptHost

/-- A cache over a store in memory that nobody else writes to. The engine and the compiler share the
rest of the outside. -/
structure SoleCache (τ V E : Type) where
  engine : Engine τ V E
  compiler : Compiler τ
  scriptVersion : UInt64 := defaultScriptVersion

inductive SoleStep where
  | evaluate (source : Bytes) (url : String)
  | invalidate (url : String)
  | clear
deriving DecidableEq, Repr

namespace SoleCache

def store : ScriptStore (τ × MemoryStore) where
  get script runtime purpose := Part.snd.run (MemoryStore.store.get script runtime purpose)
  put bytes script runtime provenance :=
    Part.snd.run (MemoryStore.store.put bytes script runtime provenance)

variable (c : SoleCache τ V E)

def cache : PreparedCache (τ × MemoryStore) where
  compiler := ⟨fun text url => Part.fst.run (c.compiler.compile text url)⟩
  store := some store
  scriptVersion := c.scriptVersion

def step : SoleStep → Act (τ × MemoryStore) (List OutsideCall)
  | .evaluate source url => do
    let runtime := (c.cache.recorded id).runtime ((Part.fst.engine c.engine).recorded id)
    return (← (runtime.evaluate source url).observe).2
  | .invalidate url => do
    let _ ← Part.snd.act (MemoryStore.invalidate url)
    return []
  | .clear => do
    Act.call (Part.snd.run fun _ => ((), .empty))
    return []

def after (w : World (τ × MemoryStore)) : List SoleStep → World (τ × MemoryStore)
  | [] => w
  | step :: rest => after (c.step step w).2 rest

def calls (w : World (τ × MemoryStore)) : List SoleStep → List OutsideCall
  | [] => []
  | step :: rest => (c.step step w).1 ++ calls (c.step step w).2 rest

def key (url : String) : StoreKey := ⟨⟨url, c.scriptVersion⟩, c.engine.signature⟩

def way (source : Bytes) (url : String) (s : τ × MemoryStore) : Passage :=
  .choose c.engine.isBytecode source (.ok ((s.2.find? (c.key url)).map (·.bytes)))
    fun text => (c.compiler.compile text url s.1).1

theorem settled_eq (c : SoleCache τ V E) (source : Bytes) (url : String) (s : τ × MemoryStore) :
    c.cache.settled (Part.fst.engine c.engine) store source url s =
      ((c.way source url s).compiled c.compiler url s.1,
        (c.way source url s).kept (c.key url) s.2) := by
  have hway : c.cache.passage (Part.fst.engine c.engine) store source url s =
    c.way source url s := rfl
  rw [PreparedCache.settled, hway]
  cases c.way source url s <;> rfl

theorem step_evaluate (c : SoleCache τ V E) (source : Bytes) (url : String)
    (w : World (τ × MemoryStore)) :
    let way := c.way source url w.outside
    (c.step (.evaluate source url) w).1 =
        way.calls ⟨url, c.scriptVersion⟩ c.engine.signature ++
          [.evaluate (way.bytes source) url] ∧
      (c.step (.evaluate source url) w).2.outside =
        ((c.engine.evaluate (way.bytes source) url (way.compiled c.compiler url w.outside.1)).2,
          way.kept (c.key url) w.outside.2) := by
  have hspec := PreparedCache.observe_spec (Part.fst.engine c.engine) id
    (rfl : c.cache.store = some store) source url w
  rw [settled_eq] at hspec
  obtain ⟨-, hcalls, houtside⟩ := hspec
  rw [List.map_id] at hcalls
  exact ⟨hcalls, houtside⟩

/-- What a step does to an entry: nothing, or it removes it, or it makes a new one. -/
theorem find?_step (c : SoleCache τ V E) (step : SoleStep) (w : World (τ × MemoryStore))
    (key : StoreKey) :
    (c.step step w).2.outside.2.find? key = w.outside.2.find? key ∨
      ((step = .invalidate key.script.url ∨ step = .clear) ∧
        (c.step step w).2.outside.2.find? key = none) ∨
      ∃ source text made, step = .evaluate source key.script.url ∧
        c.way source key.script.url w.outside = .made text made ∧
        (c.step step w).2.outside.2.find? key = some ⟨made, provenanceTag⟩ := by
  cases step with
  | evaluate source url =>
    rw [(step_evaluate c source url w).2]
    cases hway : c.way source url w.outside with
    | straight | hit | unreadable | refused => exact Or.inl rfl
    | made text made =>
      simp only [Passage.kept, MemoryStore.find?_put]
      by_cases hkey : key = c.key url
      · subst hkey
        exact Or.inr (Or.inr ⟨source, text, made, rfl, hway, if_pos rfl⟩)
      · exact Or.inl (if_neg hkey)
  | invalidate url =>
    change (w.outside.2.without url).find? key = _ ∨ _ ∧ (w.outside.2.without url).find? key = _ ∨ _
    rw [MemoryStore.find?_without]
    by_cases hurl : key.script.url = url
    · exact Or.inr (Or.inl ⟨Or.inl (hurl ▸ rfl), if_pos hurl⟩)
    · exact Or.inl (if_neg hurl)
  | clear => exact Or.inr (Or.inl ⟨Or.inr rfl, rfl⟩)

section Stretch

variable (c : SoleCache τ V E)

def Removes (url : String) (step : SoleStep) (w : World (τ × MemoryStore)) : Prop :=
  ∃ key : StoreKey, key.script.url = url ∧ w.outside.2.find? key ≠ none ∧
    (c.step step w).2.outside.2.find? key = none

def Undisturbed (url : String) (w : World (τ × MemoryStore)) : List SoleStep → Prop
  | [] => True
  | step :: rest => ¬ c.Removes url step w ∧ Undisturbed url (c.step step w).2 rest

/-- Every artifact that is not empty is bytecode. -/
def MakesBytecode : Prop :=
  ∀ text url t artifact, artifact ≠ [] → (c.compiler.compile text url t).1 = .ok artifact →
    c.engine.isBytecode artifact = true

def Held (url : String) (bytes : Bytes) (w : World (τ × MemoryStore)) : Prop :=
  (w.outside.2.find? (c.key url)).map (·.bytes) = some bytes ∧ c.engine.isBytecode bytes = true

end Stretch

variable {c : SoleCache τ V E} {w : World (τ × MemoryStore)} {url : String} {artifact : Bytes}

theorem Held.way (h : c.Held url artifact w) {source : Bytes}
    (hsource : c.engine.isBytecode source = false) :
    c.way source url w.outside = .hit artifact := by
  refine Passage.choose_of_valid? hsource ?_
  rw [h.1]
  exact Option.filter_some_pos h.2

theorem Held.calls (h : c.Held url artifact w) {source : Bytes}
    (hsource : c.engine.isBytecode source = false) :
    (c.step (.evaluate source url) w).1 =
      [.get ⟨url, c.scriptVersion⟩ c.engine.signature prepareTag, .evaluate artifact url] := by
  rw [(step_evaluate c source url w).1, h.way hsource]
  rfl

theorem way_eq_straight {source : Bytes} (hsource : c.engine.isBytecode source = true)
    (url : String) (s : τ × MemoryStore) : c.way source url s = .straight :=
  if_pos hsource

/-- Calls are made where something is evaluated, by the cache or of the engine. -/
theorem mem_calls_step {step : SoleStep} {call : OutsideCall} (hmem : call ∈ (c.step step w).1) :
    ∃ source url, step = .evaluate source url ∧
      (call ∈ (c.way source url w.outside).calls ⟨url, c.scriptVersion⟩ c.engine.signature ∨
        ∃ bytes, call = .evaluate bytes url) := by
  cases step with
  | invalidate other => cases hmem
  | clear => cases hmem
  | evaluate source url =>
    rw [(step_evaluate c source url w).1, List.mem_append, List.mem_singleton] at hmem
    exact ⟨source, url, rfl, hmem.imp_right fun hcall => ⟨_, hcall⟩⟩

theorem made_of_keepsAt {step : SoleStep} {call : OutsideCall} (hmem : call ∈ (c.step step w).1)
    (hkeeps : call.keepsAt url = true) :
    ∃ source text made, step = .evaluate source url ∧
      c.way source url w.outside = .made text made := by
  obtain ⟨source, other, hstep, hcall | ⟨bytes, rfl⟩⟩ := mem_calls_step hmem
  · obtain ⟨rfl, text, made, hway⟩ := Passage.made_of_keepsAt hcall hkeeps
    exact ⟨source, text, made, hstep, hway⟩
  · cases hkeeps

theorem compiled_of_compilesAt {step : SoleStep} {call : OutsideCall}
    (hmem : call ∈ (c.step step w).1) (hcompiles : call.compilesAt url = true) :
    ∃ source text, step = .evaluate source url ∧ (c.way source url w.outside = .refused text ∨
      ∃ made, c.way source url w.outside = .made text made) := by
  obtain ⟨source, other, hstep, hcall | ⟨bytes, rfl⟩⟩ := mem_calls_step hmem
  · obtain ⟨rfl, text, hway⟩ := Passage.compiled_of_compilesAt hcall hcompiles
    exact ⟨source, text, hstep, hway⟩
  · cases hcompiles

theorem Held.way_cases (h : c.Held url artifact w) (source : Bytes) :
    c.way source url w.outside = .straight ∨ c.way source url w.outside = .hit artifact := by
  cases hsource : c.engine.isBytecode source with
  | true => exact Or.inl (way_eq_straight hsource url w.outside)
  | false => exact Or.inr (h.way hsource)

theorem Held.idle (h : c.Held url artifact w) {step : SoleStep} {call : OutsideCall}
    (hmem : call ∈ (c.step step w).1) :
    call.compilesAt url = false ∧ call.keepsAt url = false := by
  constructor <;> refine Bool.eq_false_iff.2 fun htrue => ?_
  · obtain ⟨source, text, -, hway⟩ := compiled_of_compilesAt hmem htrue
    rcases h.way_cases source with hheld | hheld <;> simp [hheld] at hway
  · obtain ⟨source, text, made, -, hway⟩ := made_of_keepsAt hmem htrue
    rcases h.way_cases source with hheld | hheld <;> simp [hheld] at hway

/-- What is held stays, as long as no step removes it. -/
theorem Held.step (h : c.Held url artifact w) {step : SoleStep} (hkeep : ¬ c.Removes url step w) :
    c.Held url artifact (c.step step w).2 := by
  refine ⟨?_, h.2⟩
  rw [← h.1]
  rcases find?_step c step w (c.key url) with hsame | ⟨-, hgone⟩ | ⟨source, text, made, -, hway, -⟩
  · rw [hsame]
  · have hthere : w.outside.2.find? (c.key url) ≠ none := by
      intro hnone
      simpa [hnone] using h.1
    exact absurd ⟨c.key url, rfl, hthere, hgone⟩ hkeep
  · change c.way source url w.outside = _ at hway
    rcases h.way_cases source with hheld | hheld <;> simp [hheld] at hway

/-- A step that keeps something for a URL holds it afterwards. -/
theorem held_of_made (hmakes : c.MakesBytecode) {source : Bytes} {text : String}
    (hway : c.way source url w.outside = .made text artifact) :
    c.Held url artifact (c.step (.evaluate source url) w).2 := by
  obtain ⟨-, -, -, hartifact⟩ := Passage.choose_eq_made hway
  obtain ⟨hne, hanswer⟩ := artifact?_eq_some.1 hartifact
  refine ⟨?_, hmakes text url w.outside.1 artifact hne hanswer⟩
  rw [(step_evaluate c source url w).2, hway]
  simp only [Passage.kept, MemoryStore.find?_put, if_pos, Option.map_some]

/-- In an undisturbed run what is held serves every input, and nothing is compiled or kept. -/
theorem Held.run (h : c.Held url artifact w) {steps : List SoleStep}
    (hsteps : c.Undisturbed url w steps) :
    (∀ call ∈ c.calls w steps, call.compilesAt url = false ∧ call.keepsAt url = false) ∧
      ∀ before after, steps = before ++ after → c.Held url artifact (c.after w before) := by
  induction steps generalizing w with
  | nil =>
    refine ⟨by simp [SoleCache.calls], fun before after hsplit => ?_⟩
    obtain ⟨rfl, -⟩ := List.append_eq_nil_iff.1 hsplit.symm
    exact h
  | cons step rest ih =>
    obtain ⟨hcalls, hheld⟩ := ih (h.step hsteps.1) hsteps.2
    constructor
    · intro call hcall
      rcases List.mem_append.1 hcall with hcall | hcall
      · exact h.idle hcall
      · exact hcalls call hcall
    · intro before after hsplit
      cases before with
      | nil => exact h
      | cons first before =>
        obtain ⟨rfl, rfl⟩ := List.cons.inj hsplit
        exact hheld before after rfl

theorem countP_keepsAt_calls (hmakes : c.MakesBytecode) {steps : List SoleStep}
    (hsteps : c.Undisturbed url w steps) : (c.calls w steps).countP (·.keepsAt url) ≤ 1 := by
  induction steps generalizing w with
  | nil => exact Nat.zero_le 1
  | cons step rest ih =>
    rw [calls, List.countP_append]
    by_cases hkeeps : ∃ call ∈ (c.step step w).1, call.keepsAt url = true
    · obtain ⟨call, hmem, htrue⟩ := hkeeps
      obtain ⟨source, text, made, rfl, hway⟩ := made_of_keepsAt hmem htrue
      have hrest : (c.calls (c.step (.evaluate source url) w).2 rest).countP (·.keepsAt url) = 0 :=
        List.countP_eq_zero.2 fun call hcall => by
          simp [(((held_of_made hmakes hway).run hsteps.2).1 call hcall).2]
      rw [hrest, (step_evaluate c source url w).1, hway]
      simp [Passage.calls, OutsideCall.keepsAt]
    · have hstep : (c.step step w).1.countP (·.keepsAt url) = 0 :=
        List.countP_eq_zero.2 fun call hcall htrue => hkeeps ⟨call, hcall, htrue⟩
      rw [hstep, Nat.zero_add]
      exact ih hsteps.2

/-- Only input that is text and no bytecode makes an entry. -/
theorem absent_step (habsent : w.outside.2.find? (c.key url) = none) {step : SoleStep}
    (hstep : ∀ source, step = .evaluate source url →
      c.engine.isBytecode source = true ∨ textOf? source = none) :
    (c.step step w).2.outside.2.find? (c.key url) = none := by
  rcases find?_step c step w (c.key url) with
    hsame | ⟨-, hgone⟩ | ⟨source, text, made, hevaluate, hway, -⟩
  · rw [hsame, habsent]
  · exact hgone
  · obtain ⟨hsource, -, htext, -⟩ := Passage.choose_eq_made hway
    rcases hstep source hevaluate with hbytecode | hnone
    · simp [hsource] at hbytecode
    · simp [htext] at hnone

theorem absent_after (habsent : w.outside.2.find? (c.key url) = none) {steps : List SoleStep}
    (hsteps : ∀ source, .evaluate source url ∈ steps →
      c.engine.isBytecode source = true ∨ textOf? source = none) :
    (c.after w steps).outside.2.find? (c.key url) = none := by
  induction steps generalizing w with
  | nil => exact habsent
  | cons step rest ih =>
    have hstep : ∀ source, step = .evaluate source url →
        c.engine.isBytecode source = true ∨ textOf? source = none := by
      rintro source rfl
      exact hsteps source List.mem_cons_self
    exact ih (absent_step habsent hstep) fun source hmem =>
      hsteps source (List.mem_cons_of_mem _ hmem)

theorem compiles_of_absent (habsent : w.outside.2.find? (c.key url) = none) {source : Bytes}
    {text : String} (hsource : c.engine.isBytecode source = false)
    (htext : textOf? source = some text) :
    [.get ⟨url, c.scriptVersion⟩ c.engine.signature prepareTag, .compile text url] <+:
      (c.step (.evaluate source url) w).1 := by
  have hway : c.way source url w.outside = _ :=
    Passage.choose_of_text hsource (by rw [habsent]; rfl) htext
  rw [(step_evaluate c source url w).1, hway]
  cases artifact? (c.compiler.compile text url w.outside.1).1 <;> exact ⟨_, rfl⟩

theorem calls_isLookup {source : Bytes} (hsource : c.engine.isBytecode source = false)
    (url : String) (w : World (τ × MemoryStore)) :
    (c.step (.evaluate source url) w).1.filter (·.isLookup) =
      [.get ⟨url, c.scriptVersion⟩ c.engine.signature prepareTag] := by
  rw [(step_evaluate c source url w).1]
  cases hway : c.way source url w.outside with
  | straight => simp [Passage.choose_eq_straight hway] at hsource
  | hit | unreadable | refused | made => rfl

/-- An entry goes when its URL is invalidated or everything is cleared. -/
theorem removal_of_removes {step : SoleStep} (h : c.Removes url step w) :
    step = .invalidate url ∨ step = .clear := by
  obtain ⟨key, rfl, hthere, hgone⟩ := h
  rcases find?_step c step w key with hsame | ⟨hstep, -⟩ | ⟨source, text, made, -, -, hnew⟩
  · exact absurd (hsame ▸ hgone) hthere
  · exact hstep
  · simp [hgone] at hnew

/-- Two worlds that differ at most in what is kept for a URL. -/
def AlikeBut (url : String) (w v : World (τ × MemoryStore)) : Prop :=
  w.outside.1 = v.outside.1 ∧ w.outside.2.AgreeOn (·.script.url ≠ url) v.outside.2

theorem AlikeBut.step {v : World (τ × MemoryStore)} (h : AlikeBut url w v) {step : SoleStep}
    (hstep : ∀ source, step ≠ .evaluate source url) :
    (c.step step w).1 = (c.step step v).1 ∧
      AlikeBut url (c.step step w).2 (c.step step v).2 := by
  obtain ⟨hrest, hagree⟩ := h
  cases step with
  | evaluate source other =>
    have hother : other ≠ url := by
      rintro rfl
      exact hstep source rfl
    have hway : c.way source other w.outside = c.way source other v.outside := by
      rw [way, way, hrest, hagree (c.key other) hother]
    obtain ⟨hcalls, houtside⟩ := step_evaluate c source other w
    obtain ⟨hcalls', houtside'⟩ := step_evaluate c source other v
    refine ⟨by rw [hcalls, hcalls', hway], ?_⟩
    rw [AlikeBut, houtside, houtside', hway, hrest]
    refine ⟨rfl, ?_⟩
    exact hagree.kept _ _
  | invalidate other => exact ⟨rfl, hrest, hagree.without other⟩
  | clear => exact ⟨rfl, hrest, .refl _⟩

theorem AlikeBut.calls {v : World (τ × MemoryStore)} (h : AlikeBut url w v)
    {steps : List SoleStep} (hsteps : ∀ source, .evaluate source url ∉ steps) :
    c.calls w steps = c.calls v steps := by
  induction steps generalizing w v with
  | nil => rfl
  | cons step rest ih =>
    have hstep : ∀ source, step ≠ .evaluate source url := by
      rintro source rfl
      exact hsteps source List.mem_cons_self
    obtain ⟨hcalls, hnext⟩ := h.step (c := c) hstep
    rw [SoleCache.calls, SoleCache.calls, hcalls,
      ih hnext fun source hmem => hsteps source (List.mem_cons_of_mem _ hmem)]

theorem alikeBut_invalidate (c : SoleCache τ V E) (url : String) (w : World (τ × MemoryStore)) :
    AlikeBut url (c.step (.invalidate url) w).2 w :=
  ⟨rfl, (MemoryStore.AgreeOn.refl _).without_left fun _ => id⟩

structure CompilesOnce (c : SoleCache τ V E) (w : World (τ × MemoryStore)) : Prop where
  /-- Until an entry of a URL is removed, one artifact at most is kept for it. -/
  kept_once : ∀ url steps, c.Undisturbed url w steps →
    (c.calls w steps).countP (·.keepsAt url) ≤ 1
  /-- An artifact that is kept was just compiled. Until it is removed it is evaluated in place of
  every source at its URL, and nothing else is compiled or kept for that. -/
  serves_kept : ∀ url step rest, c.Undisturbed url w (step :: rest) →
    (∃ call ∈ (c.step step w).1, call.keepsAt url = true) →
    ∃ source text artifact, step = .evaluate source url ∧ textOf? source = some text ∧
      (c.step step w).1 =
        [.get ⟨url, c.scriptVersion⟩ c.engine.signature prepareTag, .compile text url,
          .put artifact ⟨url, c.scriptVersion⟩ c.engine.signature provenanceTag,
          .evaluate artifact url] ∧
      (∀ call ∈ c.calls (c.step step w).2 rest,
        call.compilesAt url = false ∧ call.keepsAt url = false) ∧
      ∀ before source' after, rest = before ++ .evaluate source' url :: after →
        c.engine.isBytecode source' = false →
        (c.step (.evaluate source' url) (c.after (c.step step w).2 before)).1 =
          [.get ⟨url, c.scriptVersion⟩ c.engine.signature prepareTag, .evaluate artifact url]
  /-- Once the entries of a URL were removed, the next text at the URL is compiled. -/
  compiled_again : ∀ url removal between source text,
    removal = .invalidate url ∨ removal = .clear →
    (∀ source', .evaluate source' url ∈ between →
      c.engine.isBytecode source' = true ∨ textOf? source' = none) →
    c.engine.isBytecode source = false → textOf? source = some text →
    [.get ⟨url, c.scriptVersion⟩ c.engine.signature prepareTag, .compile text url] <+:
      (c.step (.evaluate source url) (c.after w (removal :: between))).1
  removed_by : ∀ url step, c.Removes url step w → step = .invalidate url ∨ step = .clear
  /-- No other URL notices that one is invalidated. -/
  others_unmoved : ∀ url steps, (∀ source, .evaluate source url ∉ steps) →
    c.calls (c.step (.invalidate url) w).2 steps = c.calls w steps
  one_lookup : ∀ source url, c.engine.isBytecode source = false →
    (c.step (.evaluate source url) w).1.filter (·.isLookup) =
      [.get ⟨url, c.scriptVersion⟩ c.engine.signature prepareTag]

theorem compiles_once (c : SoleCache τ V E) (hmakes : c.MakesBytecode)
    (w : World (τ × MemoryStore)) : CompilesOnce c w where
  kept_once _ _ := countP_keepsAt_calls hmakes
  serves_kept := by
    rintro url step rest hsteps ⟨call, hmem, hkeeps⟩
    obtain ⟨source, text, artifact, rfl, hway⟩ := made_of_keepsAt hmem hkeeps
    obtain ⟨-, -, htext, -⟩ := Passage.choose_eq_made hway
    obtain ⟨hcalls, hheld⟩ := (held_of_made hmakes hway).run hsteps.2
    refine ⟨source, text, artifact, rfl, htext, ?_, hcalls, ?_⟩
    · rw [(step_evaluate c source url w).1, hway]
      rfl
    · intro before source' after hrest hsource'
      exact (hheld before _ hrest).calls hsource'
  compiled_again := by
    intro url removal between source text hremoval hbetween hsource htext
    refine compiles_of_absent (absent_after ?_ hbetween) hsource htext
    rcases hremoval with rfl | rfl
    · exact (MemoryStore.find?_without _ url (c.key url)).trans (if_pos rfl)
    · rfl
  removed_by _ _ := removal_of_removes
  others_unmoved url _ := (alikeBut_invalidate c url w).calls
  one_lookup _ url hsource := calls_isLookup hsource url w

/-- Artifacts are a zero and the number of the compilation; empty text has none. -/
def numbering : SoleCache Nat Unit Unit where
  engine :=
    { signature := ⟨"numbering", 1⟩
      isBytecode := fun source => source.head? = some 0
      undefined := ()
      evaluate := fun _ _ => return .ok ()
      debugEvaluate := fun _ _ _ => return .ok ()
      setPauseOnLoad := fun _ => return
      connectDebugger := return }
  compiler := ⟨fun text _ n => (.ok (if text = "" then [] else [0, UInt8.ofNat n]), n + 1)⟩

theorem makesBytecode_numbering : numbering.MakesBytecode := by
  intro text url t artifact hne hanswer
  obtain rfl : (if text = "" then [] else [0, UInt8.ofNat t]) = artifact := Except.ok.inj hanswer
  split at hne
  · exact absurd rfl hne
  · next htext =>
    rw [if_neg htext]
    rfl

/-- Two texts, bytecode and an input that is no text at one URL, with removals in between. -/
def changing : List SoleStep :=
  [.evaluate [112] "a.js", .evaluate [113] "a.js", .invalidate "b.js", .evaluate [0, 9] "a.js",
    .evaluate [255] "a.js", .invalidate "a.js", .evaluate [255] "a.js", .evaluate [113] "a.js"]

theorem compiles_once_changing :
    numbering.MakesBytecode ∧ CompilesOnce numbering ⟨(0, .empty), []⟩ ∧
      (numbering.calls ⟨(0, .empty), []⟩ changing).filter (!·.isLookup) =
        [.compile "p" "a.js", .put [0, 0] ⟨"a.js", 1⟩ ⟨"numbering", 1⟩ "jsrt.prepared",
          .evaluate [0, 0] "a.js", .evaluate [0, 0] "a.js", .evaluate [0, 9] "a.js",
          .evaluate [0, 0] "a.js", .evaluate [255] "a.js", .compile "q" "a.js",
          .put [0, 1] ⟨"a.js", 1⟩ ⟨"numbering", 1⟩ "jsrt.prepared", .evaluate [0, 1] "a.js"] :=
  ⟨makesBytecode_numbering, compiles_once numbering makesBytecode_numbering _, rfl⟩

end SoleCache
end ScriptHost
