import ScriptHost.Proofs.Debugging.Operations
import ScriptHost.Proofs.Protocol.Envelopes

/-! What becomes of the frames of clients. Each is answered, forwarded as it came or dropped, and
its envelope alone decides which; the bridge is the same afterwards, so no frame has a part in what
becomes of another. -/

namespace ScriptHost

def isForwarded (text : String) : Bool :=
  match Envelope.parse text with
  | .ok ⟨_, some method, _⟩ => method ≠ getScriptSource
  | _ => false

/-- The id and the script of a frame that asks for a source. An envelope that lacks one of them
asks for nothing. -/
def fetched? (text : String) : Option (RequestId × ScriptId) :=
  match Envelope.parse text with
  | .ok ⟨some id, some method, some params⟩ =>
    if method = getScriptSource then
      match GetScriptSourceParams.wire.ofJson params with
      | .ok p => some (id, p.scriptId)
      | .error _ => none
    else none
  | _ => none

def nativeCalls (effects : List Effect) : List NativeCall :=
  effects.filterMap fun
    | .native call => some call
    | _ => none

/-- The two readings of a frame tell how the bridge classifies it. -/
theorem clientCommand_cases (text : String) :
    (∃ method, ClientCommand.parse text = .ok (.forward method) ∧ isForwarded text = true ∧
        fetched? text = none) ∨
      (∃ id script, ClientCommand.parse text = .ok (.getScriptSource id script) ∧
        isForwarded text = false ∧ fetched? text = some (id, script)) ∨
      ∃ e, ClientCommand.parse text = .error e ∧ isForwarded text = false ∧
        fetched? text = none := by
  unfold ClientCommand.parse isForwarded fetched?
  cases Envelope.parse text with
  | error e => exact Or.inr (Or.inr ⟨e, rfl, rfl, rfl⟩)
  | ok envelope =>
    obtain ⟨id, method, params⟩ := envelope
    cases method with
    | none => exact Or.inr (Or.inr ⟨.missingField "method", rfl, rfl, by cases id <;> rfl⟩)
    | some method =>
      by_cases hmethod : method = getScriptSource
      · subst hmethod
        refine Or.inr ?_
        -- the id is looked for before the parameters, which decides the error alone
        cases id with
        | none => exact Or.inr ⟨.missingField "id", rfl, rfl, rfl⟩
        | some id =>
          cases params with
          | none => exact Or.inr ⟨.missingField "params", rfl, rfl, rfl⟩
          | some params =>
            cases hparams : GetScriptSourceParams.wire.ofJson params with
            | ok p =>
              refine Or.inl ⟨id, p.scriptId, ?_, rfl, by simp [hparams]⟩
              simp only [Envelope.paramsAs, Envelope.needParams, Envelope.needMethod,
                Envelope.needId, bind, Except.bind, hparams]
              rfl
            | error flaw =>
              refine Or.inr ⟨.invalidField "params" flaw.message, ?_, rfl, by simp [hparams]⟩
              simp only [Envelope.paramsAs, Envelope.needParams, Envelope.needMethod,
                Envelope.needId, bind, Except.bind, hparams]
              rfl
      · refine Or.inl ⟨method, if_neg hmethod, by simp [hmethod], ?_⟩
        cases id <;> cases params <;> simp [hmethod]

theorem fetched?_id_ne_null {text : String} {id : RequestId} {script : ScriptId}
    (h : fetched? text = some (id, script)) : id.value ≠ .null := by
  unfold fetched? at h
  split at h
  · next id' method params hparse =>
    split at h
    · split at h
      · cases h
        exact Envelope.id_ne_null hparse _ rfl
      · cases h
    · cases h
  · cases h

/-- A reply is an object with the id that it answers. -/
theorem sourceResponse_eq (id : RequestId) (source : String) :
    sourceResponse id source = (Json.object [("id", id.value),
      ("result", .object [("scriptSource", .string source)])]).text :=
  rfl

namespace Bridge

variable (b : Bridge)

def reply (id : RequestId) (script : ScriptId) : String :=
  (Json.object [("id", id.value), ("result", .object [("scriptSource",
    .string ((b.registry.source? script).getD sourceUnavailable))])]).text

theorem nativeCalls_route (session : Nat) (text : String) :
    nativeCalls (b.route session text) = if isForwarded text then [.send text] else [] := by
  rcases clientCommand_cases text with
    ⟨method, hparse, hforward, -⟩ | ⟨id, script, hparse, hforward, -⟩ | ⟨e, hparse, hforward, -⟩
  · simp only [route, hparse, hforward]
    rfl
  · simp only [route, hparse, hforward]
    cases b.registry.source? script <;> rfl
  · simp only [route, hparse, hforward]
    rfl

theorem replies_route (session : Nat) (text : String) :
    replies (b.route session text) =
      ((fetched? text).map fun fetch => (session, b.reply fetch.1 fetch.2)).toList := by
  rcases clientCommand_cases text with
    ⟨method, hparse, -, hfetch⟩ | ⟨id, script, hparse, -, hfetch⟩ | ⟨e, hparse, -, hfetch⟩
  · simp only [route, hparse, hfetch]
    rfl
  · rw [hfetch, Option.map_some, reply, ← sourceResponse_eq]
    simp only [route, hparse]
    cases b.registry.source? script <;> rfl
  · simp only [route, hparse, hfetch]
    rfl

theorem route_of_neither {text : String} (hforward : isForwarded text = false)
    (hfetch : fetched? text = none) (session : Nat) :
    ∃ event, b.route session text = [.report event] := by
  rcases clientCommand_cases text with
    ⟨method, -, h, -⟩ | ⟨id, script, -, -, h⟩ | ⟨e, hparse, -, -⟩
  · simp [hforward] at h
  · simp [hfetch] at h
  · simp only [route, hparse]
    exact ⟨_, rfl⟩

def routes (frames : List (Nat × String)) : List BridgeStep :=
  frames.map fun frame => .route frame.1 frame.2

theorem run_routes (frames : List (Nat × String)) :
    b.run (routes frames) = (b, frames.flatMap fun frame => b.route frame.1 frame.2) := by
  induction frames with
  | nil => rfl
  | cons frame frames ih =>
    simp only [routes, List.map_cons, run, apply, List.flatMap_cons] at ih ⊢
    rw [ih]

theorem nativeCalls_run_routes (frames : List (Nat × String)) :
    nativeCalls (b.run (routes frames)).2 =
      ((frames.map Prod.snd).filter isForwarded).map .send := by
  rw [run_routes, ← List.filterMap_eq_filter, List.filterMap_map, List.map_filterMap,
    List.filterMap_eq_flatMap_toList]
  refine (List.filterMap_flatMap ..).trans (congrArg (frames.flatMap ·) ?_)
  funext frame
  refine (b.nativeCalls_route frame.1 frame.2).trans ?_
  cases h : isForwarded frame.2 <;> simp [h]

theorem replies_run_routes (frames : List (Nat × String)) :
    replies (b.run (routes frames)).2 = frames.filterMap fun frame =>
      (fetched? frame.2).map fun fetch => (frame.1, b.reply fetch.1 fetch.2) := by
  rw [run_routes, List.filterMap_eq_flatMap_toList]
  refine (List.filterMap_flatMap ..).trans (congrArg (frames.flatMap ·) ?_)
  funext frame
  exact b.replies_route frame.1 frame.2

structure HandlesApart (b : Bridge) (frames : List (Nat × String)) : Prop where
  /-- Each leads to what it leads to alone, and leaves the bridge as it is. -/
  apart : b.run (routes frames) = (b, frames.flatMap fun frame => b.route frame.1 frame.2)
  /-- A frame among other operations changes nothing about them. -/
  among : ∀ before session text after,
    b.run (before ++ .route session text :: after) =
      ((b.run (before ++ after)).1,
        (b.run before).2 ++ (b.run before).1.route session text ++
          ((b.run before).1.run after).2)
  /-- The native debugger gets those that are meant for it, as they came, and no other call. -/
  sent : nativeCalls (b.run (routes frames)).2 =
    ((frames.map Prod.snd).filter isForwarded).map .send
  /-- Every fetch is answered once, with its own id. -/
  replied : replies (b.run (routes frames)).2 = frames.filterMap fun frame =>
    (fetched? frame.2).map fun fetch => (frame.1, b.reply fetch.1 fetch.2)
  /-- The id of a fetch is a value. -/
  named : ∀ text id script, fetched? text = some (id, script) → id.value ≠ .null
  /-- A fetch is not forwarded, nor is a frame that only names its method. -/
  unforwarded : ∀ text e, Envelope.parse text = .ok e → e.method = some getScriptSource →
    isForwarded text = false
  exclusive : ∀ text, isForwarded text = true → fetched? text = none
  /-- Of every other frame nobody but the log hears. -/
  dropped : ∀ session text, isForwarded text = false → fetched? text = none →
    ∃ event, b.route session text = [.report event]

theorem run_among (before : List BridgeStep) (session : Nat) (text : String)
    (after : List BridgeStep) :
    b.run (before ++ .route session text :: after) =
      ((b.run (before ++ after)).1,
        (b.run before).2 ++ (b.run before).1.route session text ++
          ((b.run before).1.run after).2) := by
  simp only [run_append, run, apply, List.append_assoc]

theorem frames_handled_apart (b : Bridge) (frames : List (Nat × String)) :
    HandlesApart b frames where
  apart := b.run_routes frames
  among := b.run_among
  sent := b.nativeCalls_run_routes frames
  replied := b.replies_run_routes frames
  named _ _ _ := fetched?_id_ne_null
  unforwarded text e hparse hmethod := by
    obtain ⟨id, method, params⟩ := e
    obtain rfl : method = some getScriptSource := hmethod
    simp [isForwarded, hparse]
  exclusive text hforward := by
    rcases clientCommand_cases text with
      ⟨_, -, -, h⟩ | ⟨_, _, -, h, -⟩ | ⟨_, -, -, h⟩
    · exact h
    · simp [hforward] at h
    · exact h
  dropped session text hforward hfetch := b.route_of_neither hforward hfetch session

/-- A method counts as the string that it spells, and a list of the fields is an envelope too. -/
example : fetched? "[\"a\",\"\\u0044ebugger.getScriptSource\",[\"+7\"]]" =
    some (.ofText "a", ⟨7⟩) := rfl

end Bridge
end ScriptHost
