import ScriptHost.Proofs.Debugging.LiveRun
import ScriptHost.Proofs.Debugging.SourceHistory

/-! A client never hears of a script that the bridge does not know. A native message is learned from
before it is passed on, and a source is recorded before the engine gets it; these halves belong to
different threads, and here any of them may run between any others. -/

namespace ScriptHost

def LiveStep.undivided : LiveStep → Bool
  | .relay .. | .record .. => false
  | _ => true

structure BusyBridge where
  live : LiveBridge := {}
  /-- Native messages that were learned from and wait to be written, with their sessions. -/
  passing : List (Nat × String) := []
  passed : List (Nat × String) := []
  /-- The URLs of the sources that were recorded and wait for the engine. -/
  evaluating : List String := []
  debugged : List String := []

inductive BusyStep where
  | live (step : { step : LiveStep // step.undivided })
  /-- The first half of a relay. -/
  | learn (session : Nat) (message : String)
  /-- The second half: the `i`-th of the waiting messages is written. -/
  | pass (i : Nat)
  /-- An evaluation gets to the bridge, which records the source unless it is bytecode. -/
  | record (source : Bytes) (url : String)
  /-- The engine is asked to debug the `i`-th of the waiting sources. -/
  | debug (i : Nat)

namespace BusyBridge

variable (isBytecode : Bytes → Bool)

def apply (t : BusyBridge) : BusyStep → BusyBridge
  | .live step => { t with live := (t.live.apply step).1 }
  | .learn session message =>
    { t with
      live := (t.live.operate (Bridge.learn message)).1
      passing := t.passing ++ [(session, message)] }
  | .pass i =>
    match t.passing[i]? with
    | none => t
    | some (session, message) =>
      { t with
        live := t.live.update session (Session.write message)
        passing := t.passing.eraseIdx i
        passed := t.passed ++ [(session, message)] }
  | .record source url =>
    if isBytecode source then t
    else
      { t with
        live := { t.live with bridge := t.live.bridge.recordSource url (textOf source) }
        evaluating := t.evaluating ++ [url] }
  | .debug i =>
    match t.evaluating[i]? with
    | none => t
    | some url =>
      { t with evaluating := t.evaluating.eraseIdx i, debugged := t.debugged ++ [url] }

def run (t : BusyBridge) (steps : List BusyStep) : BusyBridge := steps.foldl (apply isBytecode) t

theorem run_concat (t : BusyBridge) (steps : List BusyStep) (step : BusyStep) :
    t.run isBytecode (steps ++ [step]) = (t.run isBytecode steps).apply isBytecode step := by
  simp only [run, List.foldl_append, List.foldl_cons, List.foldl_nil]

/-- With nothing in between, the two halves of a relay are a relay. -/
theorem learn_pass (t : BusyBridge) (session : Nat) (message : String) :
    (t.apply isBytecode (.learn session message)).apply isBytecode (.pass t.passing.length) =
      { t with
        live := (t.live.apply (.relay session message)).1
        passed := t.passed ++ [(session, message)] } := by
  have hkept : (t.passing ++ [(session, message)]).eraseIdx t.passing.length = t.passing := by
    simp [List.eraseIdx_append_of_length_le]
  simp only [apply, List.getElem?_concat_length, hkept]
  simp only [LiveBridge.apply, LiveBridge.operate, Bridge.relay, LiveBridge.performAll,
    List.foldl_append, List.foldl_cons, List.foldl_nil]
  rfl

theorem record_debug (t : BusyBridge) {source : Bytes} (h : isBytecode source = false)
    (url : String) :
    (t.apply isBytecode (.record source url)).apply isBytecode (.debug t.evaluating.length) =
      { t with
        live := (t.live.apply (.record url (textOf source))).1
        debugged := t.debugged ++ [url] } := by
  have hkept : (t.evaluating ++ [url]).eraseIdx t.evaluating.length = t.evaluating := by
    simp [List.eraseIdx_append_of_length_le]
  simp only [apply, h, Bool.false_eq_true, if_false, List.getElem?_concat_length, hkept]
  rfl

end BusyBridge

/-- With nothing in between, the two halves of an evaluation are the bridge's link. -/
theorem Bridge.link_of_source (record : String → String → StateM σ Unit) {source : Bytes}
    {next : Next σ V E} (h : next.engine.isBytecode source = false) (url : String) :
    Bridge.link record source url next = do
      Act.call (record url (textOf source))
      let answer ← Act.call (next.engine.debugEvaluate (textOf source) url {})
      return answer.map fun _ => next.engine.undefined := by
  simp only [Bridge.link, h, Bool.false_eq_true, if_false]
  refine bind_congr fun _ => bind_congr fun answer => ?_
  cases answer <;> rfl

namespace BusyStep

/-- What a step means to the history of the registry. -/
def occurrence? : BusyStep → Option Occurrence
  | .learn session message => some (.operate (.relay session message))
  | .record source url => some (.evaluate source url)
  | _ => none

def history (steps : List BusyStep) : List Occurrence := steps.filterMap occurrence?

theorem history_append (a b : List BusyStep) : history (a ++ b) = history a ++ history b :=
  List.filterMap_append

/-- An announcement in a history was learned by a step. -/
theorem learn_of_urlOf? {steps : List BusyStep} {script : ScriptId} {url : String}
    (h : last? (Occurrence.urlOf? script) (history steps) = some url) :
    ∃ session message p, .learn session message ∈ steps ∧
      Bridge.announced? message = some p ∧ p.scriptId = script ∧ p.url = url := by
  obtain ⟨o, ho, hurl⟩ := exists_of_last?_eq_some h
  obtain ⟨step, hstep, hoccurrence⟩ := List.mem_filterMap.1 ho
  cases step with
  | learn session message =>
    obtain rfl := Option.some.inj hoccurrence
    simp only [Occurrence.urlOf?] at hurl
    split at hurl
    · next p hp =>
      obtain ⟨hscript, hurl⟩ := Option.ite_none_right_eq_some.1 hurl
      exact ⟨session, message, p, hstep, hp, hscript, Option.some.inj hurl⟩
    · cases hurl
  | record source place =>
    obtain rfl := Option.some.inj hoccurrence
    cases hurl
  | live step => cases hoccurrence
  | pass i => cases hoccurrence
  | debug i => cases hoccurrence

end BusyStep

/-- Steps that nothing comes between leave the registry alone. -/
theorem LiveBridge.registry_apply (l : LiveBridge) {step : LiveStep} (h : step.undivided = true) :
    (l.apply step).1.bridge.registry = l.bridge.registry := by
  have hoperate (step : BridgeStep) (hstep : ∀ session message, step ≠ .relay session message) :
      (l.operate (Bridge.apply · step)).1.bridge.registry = l.bridge.registry := by
    rw [bridge_operate]
    exact Bridge.registry_apply_of_ne_relay l.bridge step hstep
  cases step with
  | attach session accepts => exact hoperate (.attach session accepts) (by simp)
  | watch session =>
    simp only [apply]
    split
    · exact hoperate (.detach session) (by simp)
    · rfl
  | shutdown => exact hoperate .shutdown (by simp)
  | inside session step => rfl
  | route session =>
    simp only [apply]
    split
    · rfl
    · next text _ => exact hoperate (.route session text) (by simp)
  | nativeDetached session => exact hoperate (.nativeDetached session) (by simp)
  | relay session message => cases h
  | record url source => cases h

namespace BusyBridge

open BusyStep

variable {isBytecode : Bytes → Bool} {steps : List BusyStep} {t : BusyBridge}

/-- What a run keeps: the registry is the history's, no message is ahead of being learned from, and no
URL is ahead of its source. -/
structure Minds (isBytecode : Bytes → Bool) (steps : List BusyStep) (t : BusyBridge) : Prop where
  records : t.live.bridge.registry.Records isBytecode (history steps)
  learned : ∀ session message, (session, message) ∈ t.passing ++ t.passed →
    .learn session message ∈ steps
  recorded : ∀ url ∈ t.evaluating ++ t.debugged,
    ∃ text, last? (Occurrence.textAt? isBytecode url) (history steps) = some text

theorem minds_nil : Minds isBytecode [] {} where
  records := .nil
  learned _ _ h := by simp at h
  recorded _ h := by simp at h

/-- A source that is in a history is there in every longer one, or a newer one is. -/
theorem recorded_append {url text : String}
    (h : last? (Occurrence.textAt? isBytecode url) (history steps) = some text)
    (more : List BusyStep) :
    ∃ text, last? (Occurrence.textAt? isBytecode url) (history (steps ++ more)) = some text := by
  rw [history_append, last?_append, h]
  cases last? (Occurrence.textAt? isBytecode url) (history more) with
  | none => exact ⟨text, rfl⟩
  | some newer => exact ⟨newer, rfl⟩

/-- One more step, if the registry follows it and all that is new was learned or recorded by it. -/
theorem Minds.concat (h : Minds isBytecode steps t) {step : BusyStep} {t' : BusyBridge}
    (hrecords : t'.live.bridge.registry.Records isBytecode (history (steps ++ [step])))
    (hlearned : ∀ entry ∈ t'.passing ++ t'.passed,
      entry ∈ t.passing ++ t.passed ∨ step = .learn entry.1 entry.2)
    (hrecorded : ∀ url ∈ t'.evaluating ++ t'.debugged, url ∈ t.evaluating ++ t.debugged ∨
      ∃ text, last? (Occurrence.textAt? isBytecode url) (history (steps ++ [step])) = some text) :
    Minds isBytecode (steps ++ [step]) t' where
  records := hrecords
  learned session message hmem := by
    rcases hlearned _ hmem with hmem | rfl
    · exact List.mem_append_left _ (h.learned session message hmem)
    · simp
  recorded url hmem := by
    rcases hrecorded url hmem with hmem | hnew
    · obtain ⟨text, htext⟩ := h.recorded url hmem
      exact recorded_append htext [step]
    · exact hnew

theorem history_concat_of_none {step : BusyStep} (h : step.occurrence? = none) :
    history (steps ++ [step]) = history steps := by
  simp [history, h]

/-- What is done now was waiting or done before. -/
theorem mem_of_mem_eraseIdx_append {waiting done : List α} {i : Nat} {a b : α}
    (hi : waiting[i]? = some a) (hb : b ∈ waiting.eraseIdx i ++ (done ++ [a])) :
    b ∈ waiting ++ done := by
  simp only [List.mem_append, List.mem_singleton] at hb ⊢
  rcases hb with hb | hb | rfl
  · exact Or.inl (List.mem_of_mem_eraseIdx hb)
  · exact Or.inr hb
  · exact Or.inl (List.mem_of_getElem? hi)

theorem Minds.live (h : Minds isBytecode steps t) (step : { step : LiveStep // step.undivided }) :
    Minds isBytecode (steps ++ [.live step]) (t.apply isBytecode (.live step)) := by
  refine h.concat ?_ (fun _ hmem => Or.inl hmem) (fun _ hmem => Or.inl hmem)
  rw [history_concat_of_none rfl]
  simp only [BusyBridge.apply, t.live.registry_apply step.2]
  exact h.records

theorem Minds.learn (h : Minds isBytecode steps t) (session : Nat) (message : String) :
    Minds isBytecode (steps ++ [.learn session message])
      (t.apply isBytecode (.learn session message)) := by
  refine h.concat ?_ ?_ (fun _ hmem => Or.inl hmem)
  · have hregistry := Bridge.registry_learn t.live.bridge message
    simp only [BusyBridge.apply, LiveBridge.bridge_operate, hregistry, history_append]
    cases hp : Bridge.announced? message with
    | some p => exact h.records.recordScript hp session
    | none =>
      refine h.records.silent fun p hparse => ?_
      simp [Bridge.announced?, hparse] at hp
  · intro entry hmem
    simp only [BusyBridge.apply, List.mem_append, List.mem_singleton] at hmem ⊢
    rcases hmem with (hmem | rfl) | hmem
    · exact Or.inl (Or.inl hmem)
    · exact Or.inr rfl
    · exact Or.inl (Or.inr hmem)

theorem Minds.pass (h : Minds isBytecode steps t) (i : Nat) :
    Minds isBytecode (steps ++ [.pass i]) (t.apply isBytecode (.pass i)) := by
  have hrecords : t.live.bridge.registry.Records isBytecode (history (steps ++ [.pass i])) := by
    rw [history_concat_of_none rfl]
    exact h.records
  simp only [BusyBridge.apply]
  split
  · exact h.concat hrecords (fun _ hmem => Or.inl hmem) (fun _ hmem => Or.inl hmem)
  · next session message hi =>
    refine h.concat hrecords (fun entry hmem => Or.inl ?_) (fun _ hmem => Or.inl hmem)
    exact mem_of_mem_eraseIdx_append hi hmem

theorem Minds.record (h : Minds isBytecode steps t) (source : Bytes) (url : String) :
    Minds isBytecode (steps ++ [.record source url]) (t.apply isBytecode (.record source url)) := by
  cases hsource : isBytecode source with
  | true =>
    simp only [BusyBridge.apply, hsource, if_true]
    refine h.concat ?_ (fun _ hmem => Or.inl hmem) (fun _ hmem => Or.inl hmem)
    rw [history_append]
    exact h.records.silent hsource
  | false =>
    simp only [BusyBridge.apply, hsource, Bool.false_eq_true, if_false]
    have hrecords : (t.live.bridge.registry.recordSource url (textOf source)).Records isBytecode
        (history (steps ++ [.record source url])) := by
      rw [history_append]
      exact h.records.recordSource hsource url
    refine h.concat hrecords (fun _ hmem => Or.inl hmem) ?_
    intro place hmem
    simp only [List.mem_append, List.mem_singleton] at hmem ⊢
    rcases hmem with (hmem | rfl) | hmem
    · exact Or.inl (Or.inl hmem)
    · refine Or.inr ⟨textOf source, ?_⟩
      rw [← hrecords.sources]
      simp [ScriptRegistry.recordSource]
    · exact Or.inl (Or.inr hmem)

theorem Minds.debug (h : Minds isBytecode steps t) (i : Nat) :
    Minds isBytecode (steps ++ [.debug i]) (t.apply isBytecode (.debug i)) := by
  have hrecords : t.live.bridge.registry.Records isBytecode (history (steps ++ [.debug i])) := by
    rw [history_concat_of_none rfl]
    exact h.records
  simp only [BusyBridge.apply]
  split
  · exact h.concat hrecords (fun _ hmem => Or.inl hmem) (fun _ hmem => Or.inl hmem)
  · next url hi =>
    refine h.concat hrecords (fun _ hmem => Or.inl hmem) (fun place hmem => Or.inl ?_)
    exact mem_of_mem_eraseIdx_append hi hmem

/-- One step of any thread. -/
theorem Minds.apply (h : Minds isBytecode steps t) (step : BusyStep) :
    Minds isBytecode (steps ++ [step]) (t.apply isBytecode step) := by
  cases step with
  | live step => exact h.live step
  | learn session message => exact h.learn session message
  | pass i => exact h.pass i
  | record source url => exact h.record source url
  | debug i => exact h.debug i

theorem minds_run (isBytecode : Bytes → Bool) (steps : List BusyStep) :
    Minds isBytecode steps (run isBytecode {} steps) := by
  induction steps using List.reverseRecOn with
  | nil => exact minds_nil
  | append_singleton steps step ih =>
    rw [run_concat]
    exact ih.apply step

/-- The native debugger announces a URL only once it was asked to debug there. -/
def Prudent (isBytecode : Bytes → Bool) (steps : List BusyStep) : Prop :=
  ∀ before session message after p, steps = before ++ .learn session message :: after →
    Bridge.announced? message = some p → p.url ∈ (run isBytecode {} before).debugged

/-- The native debugger is prudent, so every URL in the registry has a source. -/
theorem Prudent.recorded (h : Prudent isBytecode steps) {script : ScriptId} {url : String}
    (hurl : last? (Occurrence.urlOf? script) (history steps) = some url) :
    ∃ text, last? (Occurrence.textAt? isBytecode url) (history steps) = some text := by
  obtain ⟨session, message, p, hmem, hp, -, rfl⟩ := learn_of_urlOf? hurl
  obtain ⟨before, after, hsteps⟩ := List.append_of_mem hmem
  have hdebugged := h before session message after p hsteps hp
  obtain ⟨text, htext⟩ :=
    (minds_run isBytecode before).recorded p.url (List.mem_append_right _ hdebugged)
  rw [hsteps]
  exact recorded_append htext _

structure NeverAhead (isBytecode : Bytes → Bool) (steps : List BusyStep) (t : BusyBridge) : Prop where
  /-- The bridge has learned from it, and has its URL for the script or one that it learned later. -/
  known : ∀ session message p, (session, message) ∈ t.passed →
    Bridge.announced? message = some p → .learn session message ∈ steps ∧
      ∀ before after, steps = before ++ .learn session message :: after →
        t.live.bridge.registry.url? p.scriptId =
          some ((last? (Occurrence.urlOf? p.scriptId) (history after)).getD p.url)
  /-- If the debugger is prudent there is a source, the last one recorded at the script's URL, and
  every fetch of the script gets it. -/
  answered : Prudent isBytecode steps → ∀ session message p, (session, message) ∈ t.passed →
    Bridge.announced? message = some p →
      ∃ url text, t.live.bridge.registry.url? p.scriptId = some url ∧
        last? (Occurrence.textAt? isBytecode url) (history steps) = some text ∧
        t.live.bridge.registry.source? p.scriptId = some text ∧
        ∀ client frame id, ClientCommand.parse frame = .ok (.getScriptSource id p.scriptId) →
          t.live.bridge.route client frame = [.write client (sourceResponse id text)]
  /-- With nothing in between, the halves of a relay and of an evaluation are the whole ones. -/
  relay : ∀ session message,
    (t.apply isBytecode (.learn session message)).apply isBytecode (.pass t.passing.length) =
      { t with
        live := (t.live.apply (.relay session message)).1
        passed := t.passed ++ [(session, message)] }
  evaluation : ∀ source url, isBytecode source = false →
    (t.apply isBytecode (.record source url)).apply isBytecode (.debug t.evaluating.length) =
      { t with
        live := (t.live.apply (.record url (textOf source))).1
        debugged := t.debugged ++ [url] }

theorem Minds.url?_of_learn (h : Minds isBytecode steps t) {before after : List BusyStep}
    {session : Nat} {message : String} {p : ScriptParsedParams}
    (hsteps : steps = before ++ .learn session message :: after)
    (hp : Bridge.announced? message = some p) :
    t.live.bridge.registry.url? p.scriptId =
      some ((last? (Occurrence.urlOf? p.scriptId) (history after)).getD p.url) := by
  have hone : last? (Occurrence.urlOf? p.scriptId) (history [.learn session message]) =
      some p.url := by
    simp [history, occurrence?, last?, Occurrence.urlOf?, hp]
  rw [h.records.urls, hsteps, ← List.singleton_append, history_append, history_append,
    last?_append, last?_append, hone]
  cases last? (Occurrence.urlOf? p.scriptId) (history after) <;> rfl

/-- However the threads interleave, a client that hears of a script can ask for it. -/
theorem never_ahead (isBytecode : Bytes → Bool) (steps : List BusyStep) :
    NeverAhead isBytecode steps (run isBytecode {} steps) := by
  have hminds := minds_run isBytecode steps
  constructor
  · intro session message p hmem hp
    refine ⟨hminds.learned session message (List.mem_append_right _ hmem), ?_⟩
    intro before after hsteps
    exact hminds.url?_of_learn hsteps hp
  · intro hprudent session message p hmem hp
    have hlearn := hminds.learned session message (List.mem_append_right _ hmem)
    obtain ⟨before, after, hsteps⟩ := List.append_of_mem hlearn
    have hurl := hminds.url?_of_learn hsteps hp
    have hlast := hurl
    rw [hminds.records.urls] at hlast
    obtain ⟨text, htext⟩ := hprudent.recorded hlast
    have hsource : (run isBytecode {} steps).live.bridge.registry.source? p.scriptId =
        some text := by
      rw [hminds.records.source?, historicSource?, hlast]
      exact htext
    refine ⟨_, text, hurl, htext, hsource, ?_⟩
    intro client frame id hframe
    simp only [Bridge.route, hframe, hsource]
  · exact learn_pass isBytecode _
  · intro source url hsource
    exact record_debug isBytecode _ hsource url

def zeroFirst (source : Bytes) : Bool := source.head? = some 0

/-- Script 7 is announced while its source is debugged; before the message is passed on, the client
is replaced and the source is evaluated anew. -/
def overlapping : List BusyStep := [
  .record (bytesOf "old()") "a.js",
  .live ⟨.attach 1 true, rfl⟩,
  .debug 0,
  .learn 1 (Bridge.announcement "\"7\"" "a.js"),
  .live ⟨.attach 2 true, rfl⟩,
  .record (bytesOf "new()") "a.js",
  .pass 0]

theorem announced?_seven :
    Bridge.announced? (Bridge.announcement "\"7\"" "a.js") = some ⟨⟨7⟩, "a.js"⟩ := by
  decide +kernel

theorem prudent_overlapping : Prudent zeroFirst overlapping := by
  intro before session message after p hsteps hp
  obtain _ | ⟨_, _ | ⟨_, _ | ⟨_, _ | ⟨_, _ | ⟨_, _ | ⟨_, _ | ⟨_, before⟩⟩⟩⟩⟩⟩⟩ := before <;>
    simp [overlapping] at hsteps
  obtain ⟨rfl, rfl, rfl, ⟨rfl, rfl⟩, rfl⟩ := hsteps
  rw [announced?_seven] at hp
  cases hp
  decide +kernel

theorem never_ahead_overlapping :
    Prudent zeroFirst overlapping ∧
      (1, Bridge.announcement "\"7\"" "a.js") ∈ (run zeroFirst {} overlapping).passed ∧
      (run zeroFirst {} overlapping).live.bridge.route 2 Bridge.fetchOfSeven =
        [.write 2 (sourceResponse (.ofInt 1) "new()")] := by
  have hpassed : (1, Bridge.announcement "\"7\"" "a.js") ∈ (run zeroFirst {} overlapping).passed := by
    decide +kernel
  obtain ⟨url, text, hurl, htext, -, hroute⟩ := (never_ahead zeroFirst overlapping).answered
    prudent_overlapping 1 _ _ hpassed announced?_seven
  have hplace : (run zeroFirst {} overlapping).live.bridge.registry.url? ⟨7⟩ = some "a.js" := by
    decide +kernel
  obtain rfl : "a.js" = url := Option.some.inj (hplace.symm.trans hurl)
  have hnewest : last? (Occurrence.textAt? zeroFirst "a.js") (history overlapping) =
      some "new()" := by
    decide +kernel
  obtain rfl : "new()" = text := Option.some.inj (hnewest.symm.trans htext)
  exact ⟨prudent_overlapping, hpassed, hroute 2 _ _ rfl⟩

end BusyBridge
end ScriptHost
