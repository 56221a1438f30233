import Mathlib.Data.List.Induction
import ScriptHost.Proofs.Outside
import ScriptHost.Proofs.Debugging.Operations

/-! What a client gets when it fetches a source is fixed by the history of the bridge: by the last
announcement of the script id and the last source that was evaluated at the URL it names. The
registry holds exactly these two, whatever else happens in between. -/

namespace ScriptHost

/-- What can happen to a bridge: an evaluation gets as far as its link, or it is operated on. -/
inductive Occurrence where
  | evaluate (source : Bytes) (url : String)
  | operate (step : BridgeStep)
deriving DecidableEq, Repr

/-- The newest entry of a history that says something says it. -/
def last? (f : α → Option β) (history : List α) : Option β := history.reverse.findSome? f

theorem last?_concat (f : α → Option β) (history : List α) (a : α) :
    last? f (history ++ [a]) = (f a).or (last? f history) := by
  unfold last?
  rw [List.reverse_append]
  cases h : f a <;> simp [h]

theorem last?_append (f : α → Option β) (a b : List α) :
    last? f (a ++ b) = (last? f b).or (last? f a) := by
  simp [last?, List.findSome?_append]

theorem exists_of_last?_eq_some {f : α → Option β} {history : List α} {b : β}
    (h : last? f history = some b) : ∃ a ∈ history, f a = some b := by
  obtain ⟨a, ha, hb⟩ := List.exists_of_findSome?_eq_some h
  exact ⟨a, List.mem_reverse.1 ha, hb⟩

/-- An entry that says nothing can be left out. -/
theorem last?_erase {f : α → Option β} {a : α} (h : f a = none) (before after : List α) :
    last? f (before ++ a :: after) = last? f (before ++ after) := by
  simp [last?, List.findSome?_append, h]

namespace Occurrence

def urlOf? (script : ScriptId) : Occurrence → Option String
  | .operate (.relay _ message) =>
    match Bridge.announced? message with
    | some p => if p.scriptId = script then some p.url else none
    | none => none
  | _ => none

def textAt? (isBytecode : Bytes → Bool) (url : String) : Occurrence → Option String
  | .evaluate source place =>
    if place = url ∧ isBytecode source = false then some (textOf source) else none
  | .operate _ => none

/-- Neither a source nor a well-formed announcement. -/
def Silent (isBytecode : Bytes → Bool) : Occurrence → Prop
  | .evaluate source _ => isBytecode source = true
  | .operate (.relay _ message) => ∀ p, DebuggerEvent.parse message ≠ .ok (.scriptParsed p)
  | .operate _ => True

theorem Silent.urlOf? {isBytecode : Bytes → Bool} {o : Occurrence} (h : o.Silent isBytecode)
    (script : ScriptId) : o.urlOf? script = none := by
  cases o with
  | evaluate source url => rfl
  | operate step =>
    cases step with
    | relay session message =>
      have hnone : Bridge.announced? message = none := by
        unfold Bridge.announced?
        split
        · next p hp => exact absurd hp (h p)
        · rfl
      simp only [Occurrence.urlOf?, hnone]
    | _ => rfl

theorem Silent.textAt? {isBytecode : Bytes → Bool} {o : Occurrence} (h : o.Silent isBytecode)
    (url : String) : o.textAt? isBytecode url = none := by
  cases o with
  | evaluate source place =>
    have hb : isBytecode source = true := h
    simp [Occurrence.textAt?, hb]
  | operate step => rfl

end Occurrence

/-- The source that a history gives a script: the last text evaluated at its last URL. -/
def historicSource? (isBytecode : Bytes → Bool) (history : List Occurrence) (script : ScriptId) :
    Option String := do
  last? (Occurrence.textAt? isBytecode (← last? (Occurrence.urlOf? script) history)) history

theorem historicSource?_erase {isBytecode : Bytes → Bool} {o : Occurrence}
    (h : o.Silent isBytecode) (before later : List Occurrence) (script : ScriptId) :
    historicSource? isBytecode (before ++ later) script =
      historicSource? isBytecode (before ++ o :: later) script := by
  unfold historicSource?
  rw [last?_erase (h.urlOf? script)]
  congr 1
  funext url
  rw [last?_erase (h.textAt? url)]

namespace ScriptRegistry

/-- Both tables hold what the history said last. -/
structure Records (isBytecode : Bytes → Bool) (history : List Occurrence) (r : ScriptRegistry) :
    Prop where
  urls : ∀ script, r.url? script = last? (Occurrence.urlOf? script) history
  sources : ∀ url, r.sources.lookup url = last? (Occurrence.textAt? isBytecode url) history

variable {isBytecode : Bytes → Bool} {history : List Occurrence} {r : ScriptRegistry}

theorem Records.source? (h : Records isBytecode history r) (script : ScriptId) :
    r.source? script = historicSource? isBytecode history script := by
  unfold ScriptRegistry.source? historicSource?
  rw [h.urls]
  cases last? (Occurrence.urlOf? script) history with
  | none => rfl
  | some url => exact h.sources url

theorem Records.nil : Records isBytecode [] {} := ⟨fun _ => rfl, fun _ => rfl⟩

theorem Records.silent (h : Records isBytecode history r) {o : Occurrence}
    (ho : o.Silent isBytecode) : Records isBytecode (history ++ [o]) r where
  urls script := by rw [last?_concat, ho.urlOf?, h.urls]; rfl
  sources url := by rw [last?_concat, ho.textAt?, h.sources]; rfl

theorem Records.recordSource (h : Records isBytecode history r) {source : Bytes}
    (hb : isBytecode source = false) (url : String) :
    Records isBytecode (history ++ [.evaluate source url])
      (r.recordSource url (textOf source)) where
  urls script := by rw [url?_recordSource, last?_concat, h.urls]; rfl
  sources other := by
    rw [last?_concat, ← h.sources]
    simp only [ScriptRegistry.recordSource, lookup_cons_eq_ite, Occurrence.textAt?, hb, and_true]
    by_cases hu : other = url
    · simp [hu]
    · simp [hu, Ne.symm hu]

theorem Records.recordScript (h : Records isBytecode history r) {message : String}
    {p : ScriptParsedParams} (hp : Bridge.announced? message = some p) (session : Nat) :
    Records isBytecode (history ++ [.operate (.relay session message)])
      (r.recordScript p.scriptId p.url) where
  urls script := by
    rw [url?_recordScript, last?_concat, ← h.urls]
    simp only [Occurrence.urlOf?, hp]
    by_cases hs : script = p.scriptId
    · simp [hs]
    · simp [hs, Ne.symm hs]
  sources url := by rw [last?_concat, ← h.sources]; rfl

end ScriptRegistry

namespace Bridge

variable (engine : Engine σ V E) (behind : Bytes → String → Act σ (Except E V))

/-- What follows the bridge in its chain. Neither the links nor the engine have a part in it. -/
def beyond : Next (Bridge × σ) V E :=
  ⟨Part.snd.engine engine, fun source url => Part.snd.act (behind source url)⟩

def evaluate (source : Bytes) (url : String) : Act (Bridge × σ) (Except E V) :=
  link (fun url text => Part.fst.run (modify (·.recordSource url text))) source url
    (beyond engine behind)

/-- The text is in the bridge whatever the engine makes of it. -/
theorem evaluate_bridge (source : Bytes) (url : String) (w : World (Bridge × σ)) :
    (evaluate engine behind source url w).2.outside.1 =
      if engine.isBytecode source then w.outside.1
      else w.outside.1.recordSource url (textOf source) := by
  have he : (beyond engine behind).engine.isBytecode source = engine.isBytecode source := rfl
  cases hb : engine.isBytecode source with
  | true =>
    rw [hb] at he
    simp only [evaluate, link, he, if_true, Act.report_bind]
    rfl
  | false =>
    rw [hb] at he
    simp only [evaluate, link, he, Bool.false_eq_true, if_false]
    rw [Act.call_bind, Act.call_bind]
    -- the registry is written before the engine is asked, so both answers leave it written
    cases ((beyond engine behind).engine.debugEvaluate (textOf source) url {}
        (Part.fst.run (modify (·.recordSource url (textOf source))) w.outside).2).1 with
    | ok done => rfl
    | error e => rfl

/-- An occurrence in a world with a bridge, and the effects that the bridge has on others. -/
def happen (w : World (Bridge × σ)) : Occurrence → World (Bridge × σ) × List Effect
  | .evaluate source url => ((evaluate engine behind source url w).2, [])
  | .operate step =>
    (⟨((w.outside.1.apply step).1, w.outside.2), w.log⟩, (w.outside.1.apply step).2)

def worldAfter (s : σ) (log : List Event) (history : List Occurrence) : World (Bridge × σ) :=
  history.foldl (fun w o => (happen engine behind w o).1) ⟨({}, s), log⟩

theorem worldAfter_concat (s : σ) (log : List Event) (history : List Occurrence) (o : Occurrence) :
    worldAfter engine behind s log (history ++ [o]) =
      (happen engine behind (worldAfter engine behind s log history) o).1 := by
  simp only [worldAfter, List.foldl_append, List.foldl_cons, List.foldl_nil]

/-- One occurrence keeps the registry in step with the history. -/
theorem records_happen {history : List Occurrence} {w : World (Bridge × σ)}
    (h : w.outside.1.registry.Records engine.isBytecode history) (o : Occurrence) :
    (happen engine behind w o).1.outside.1.registry.Records engine.isBytecode (history ++ [o]) := by
  cases o with
  | evaluate source url =>
    simp only [happen, evaluate_bridge]
    cases hb : engine.isBytecode source with
    | true => exact h.silent hb
    | false => exact h.recordSource hb url
  | operate step =>
    cases step with
    | relay session message =>
      have hr := registry_learn w.outside.1 message
      simp only [happen, apply, relay, hr]
      cases hp : announced? message with
      | some p => exact h.recordScript hp session
      | none =>
        refine h.silent fun p hparse => ?_
        simp [announced?, hparse] at hp
    | _ =>
      simp only [happen]
      rw [registry_apply_of_ne_relay _ _ (by simp)]
      exact h.silent trivial

theorem records_worldAfter (s : σ) (log : List Event) (history : List Occurrence) :
    (worldAfter engine behind s log history).outside.1.registry.Records engine.isBytecode
      history := by
  induction history using List.reverseRecOn with
  | nil => exact .nil
  | append_singleton history o ih =>
    rw [worldAfter_concat]
    exact records_happen engine behind ih o

theorem replies_route_fetch (b : Bridge) (session : Nat) {text : String} {id : RequestId}
    {script : ScriptId} (h : ClientCommand.parse text = .ok (.getScriptSource id script)) :
    replies (b.route session text) =
      [(session, sourceResponse id ((b.registry.source? script).getD sourceUnavailable))] := by
  simp only [route, h]
  cases b.registry.source? script with
  | some source => rfl
  | none => rfl

def repliesAfter (s : σ) (log : List Event) (history : List Occurrence) (session : Nat)
    (text : String) : List (Nat × String) :=
  replies (happen engine behind (worldAfter engine behind s log history)
    (.operate (.route session text))).2

theorem repliesAfter_fetch (s : σ) (log : List Event) (history : List Occurrence) (session : Nat)
    {text : String} {id : RequestId} {script : ScriptId}
    (h : ClientCommand.parse text = .ok (.getScriptSource id script)) :
    repliesAfter engine behind s log history session text =
      [(session, sourceResponse id
        ((historicSource? engine.isBytecode history script).getD sourceUnavailable))] := by
  rw [← (records_worldAfter engine behind s log history).source?]
  exact replies_route_fetch _ session h

/-- A fetch gets one reply, with the text that was evaluated last at the URL that was announced
last for its script; and it gets the same one if anything else is left out of the history. -/
theorem fetch_answered_from_history (s : σ) (log : List Event) (history : List Occurrence)
    (session : Nat) {text : String} {id : RequestId} {script : ScriptId}
    (h : ClientCommand.parse text = .ok (.getScriptSource id script)) :
    repliesAfter engine behind s log history session text =
        [(session, (Response.wire ScriptSourceResult.wire).encode
          ⟨id, ⟨(historicSource? engine.isBytecode history script).getD sourceUnavailable⟩⟩)] ∧
      ∀ before o later, history = before ++ o :: later → o.Silent engine.isBytecode →
        repliesAfter engine behind s log (before ++ later) session text =
          repliesAfter engine behind s log history session text := by
  refine ⟨repliesAfter_fetch engine behind s log history session h, ?_⟩
  intro before o later hsplit hsilent
  subst hsplit
  rw [repliesAfter_fetch _ _ _ _ _ _ h, repliesAfter_fetch _ _ _ _ _ _ h,
    historicSource?_erase hsilent]

/-- An engine that has no debugger. Bytecode begins with a zero. -/
def undebuggable : Engine Unit Unit Unit where
  signature := ⟨"undebuggable", 1⟩
  isBytecode source := source.head? = some 0
  undefined := ()
  evaluate _ _ := return .ok ()
  debugEvaluate _ _ _ := return .error ()
  setPauseOnLoad _ := return
  connectDebugger := return

/-- An announcement as the engine writes it, its script id in any JSON spelling. -/
def announcement (script url : String) : String :=
  "\x7b\"method\":\"Debugger.scriptParsed\",\"params\":\x7b\"scriptId\":" ++ script ++
    ",\"url\":\"" ++ url ++ "\"\x7d\x7d"

/-- Script 7 moves from one URL to another whose source is evaluated twice; then come bytecode, an
announcement with a number for an id, and the end of a client. -/
def entangled : List Occurrence := [
  .evaluate (bytesOf "old()") "a.js",
  .operate (.relay 1 (announcement "\"7\"" "b.js")),
  .operate (.relay 1 (announcement "\"+07\"" "a.js")),
  .operate (.attach 2 true),
  .evaluate (bytesOf "new()") "a.js",
  .evaluate [0, 1] "a.js",
  .operate (.relay 2 (announcement "7" "b.js")),
  .operate (.detach 1)]

def fetchOfSeven : String :=
  "\x7b\"id\":1,\"method\":\"Debugger.getScriptSource\",\"params\":\x7b\"scriptId\":\"7\"\x7d\x7d"

theorem historicSource?_entangled :
    historicSource? undebuggable.isBytecode entangled ⟨7⟩ = some "new()" := by decide +kernel

theorem fetch_answered_after_entangled :
    ClientCommand.parse fetchOfSeven = .ok (.getScriptSource (.ofInt 1) ⟨7⟩) ∧
      repliesAfter undebuggable (fun _ _ => return .ok ()) () [] entangled 2 fetchOfSeven =
        [(2, "\x7b\"id\":1,\"result\":\x7b\"scriptSource\":\"new()\"\x7d\x7d")] := by
  have hparse : ClientCommand.parse fetchOfSeven = .ok (.getScriptSource (.ofInt 1) ⟨7⟩) := rfl
  refine ⟨hparse, ?_⟩
  rw [(fetch_answered_from_history undebuggable (fun _ _ => return .ok ()) () [] entangled 2
    hparse).1, historicSource?_entangled]
  rfl

end Bridge
end ScriptHost
