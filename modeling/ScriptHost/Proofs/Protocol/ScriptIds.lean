import ScriptHost.Proofs.Protocol.RoundTrip

/-! Script ids as texts, and the frames that hold them: which texts are ids and how every other text is
refused, in which parameters a frame may hold one, and what is then made of its envelope. -/

namespace ScriptHost

open Json

namespace ScriptId

variable {text : String} {id : ScriptId} {why : Text.DecimalError}

/-- How a text that is no script id is refused. -/
def refusal (text : String) (why : Text.DecimalError) : FrameError :=
  .invalidField "scriptId" s!"{Text.quoted text}: {why.message}"

/-- The reason of a refusal can be told from its text. -/
theorem refusal_injective (text : String) : Function.Injective (refusal text) := by
  intro why why' h
  have hreason : why.message = why'.message := by
    have htext := congrArg String.toList (FrameError.invalidField.inj h).2
    simpa [String.toList_append, toString, String.toList_inj] using htext
  cases why <;> cases why' <;> first | rfl | exact absurd hreason (by decide)

theorem read_eq_ok : read text = .ok id ↔
    Text.readDecimal 4294967295 text.toList = .ok id.number.toNat := by
  have hmost : UInt32.size - 1 = 4294967295 := rfl
  rw [read, hmost, bind_eq_ok]
  constructor
  · rintro ⟨n, hn, hid⟩
    cases hid
    have hle := (Text.readDecimal_eq_ok.1 hn).2
    have hround : (UInt32.ofNat n).toNat = n := UInt32.toNat_ofNat_of_lt' (by
      rw [UInt32.size]
      omega)
    rw [hn, hround]
  · intro h
    exact ⟨_, h, by simp [pure, Except.pure]⟩

theorem read_eq_error : read text = .error why ↔
    Text.readDecimal 4294967295 text.toList = .error why := by
  have hmost : UInt32.size - 1 = 4294967295 := rfl
  rw [read, hmost]
  cases Text.readDecimal 4294967295 text.toList <;> simp [bind, Except.bind, pure, Except.pure]

theorem parse_eq_ok : parse text = .ok id ↔ read text = .ok id := by
  unfold parse
  cases read text <;> simp

theorem parse_eq_refusal : parse text = .error (refusal text why) ↔
    Text.readDecimal 4294967295 text.toList = .error why := by
  rw [← read_eq_error, parse]
  cases read text with
  | ok id => simp
  | error why' =>
    rw [Except.error.injEq, Except.error.injEq]
    exact (refusal_injective text).eq_iff

/-- A text is an id exactly if it spells its number. -/
theorem parse_spells : parse text = .ok id ↔ Text.Spells text.toList id.number.toNat := by
  have hlt := id.number.toNat_lt_size
  have hsize : UInt32.size = 4294967296 := rfl
  rw [parse_eq_ok, read_eq_ok, Text.readDecimal_eq_ok, and_iff_left (by omega)]

theorem exists_spelled {n : Nat} (h : Text.Spells text.toList n) (hn : n ≤ 4294967295) :
    ∃ id, parse text = .ok id ∧ id.number.toNat = n := by
  have hround : (UInt32.ofNat n).toNat = n := UInt32.toNat_ofNat_of_lt' (by
    rw [UInt32.size]
    omega)
  exact ⟨⟨UInt32.ofNat n⟩, parse_spells.2 (by rw [hround]; exact h), hround⟩

theorem number_inj {id other : ScriptId} : id.number.toNat = other.number.toNat ↔ id = other := by
  cases id
  cases other
  simp [UInt32.toNat_inj]

theorem ofJson_eq_ok {j : Json} : wire.ofJson j = .ok id ↔ ∃ s, j = .string s ∧ parse s = .ok id := by
  cases j with
  | string s =>
    simp only [wire, Wire.written, Wire.scalar, acceptText, bind, Except.bind, Json.string.injEq,
      exists_eq_left']
    cases parse s <;> simp [Except.mapError, pure, Except.pure]
  | _ => simp [wire, Wire.written, Wire.scalar, acceptText, bind, Except.bind]

/-- A text of JSON is an id if it is a string that is one. -/
theorem decode_eq_ok : wire.decode text = .ok id ↔
    ∃ s : String, Says text (.string (units s.toList)) ∧ parse s = .ok id := by
  have hagrees : wire.Agrees := Wire.agrees_written ..
  rw [hagrees.decode_eq_ok]
  constructor
  · rintro ⟨j, hj, hid⟩
    obtain ⟨s, rfl, hs⟩ := ofJson_eq_ok.1 hid
    obtain ⟨v, hsays, hholds, -⟩ := Wire.says_of_decode hj
    cases hholds with
    | string h => exact ⟨s, h ▸ hsays, hs⟩
    | object _ hobject => cases hobject
  · rintro ⟨s, hsays, hs⟩
    exact ⟨.string s, Wire.decode_of_says hsays (.string rfl) (Nat.zero_le _),
      ofJson_eq_ok.2 ⟨s, rfl, hs⟩⟩

end ScriptId

section Parameters

theorem text_ofJson_eq_ok {j : Json} {s : String} : Wire.text.ofJson j = .ok s ↔ j = .string s := by
  cases j <;> simp [Wire.text, Wire.scalar, acceptText]

/-- The parameters of a notice are these texts, the members of an object or the items of a list. -/
inductive NoticeTexts : Json → String → String → Prop where
  | members (hscript : under "scriptId" ms = [("scriptId", .string script)])
      (hurl : under "url" ms = [("url", .string url)]) : NoticeTexts (.object ms) script url
  | items : NoticeTexts (.array [.string script, .string url]) script url

inductive FetchText : Json → String → Prop where
  | member (hscript : under "scriptId" ms = [("scriptId", .string script)]) :
      FetchText (.object ms) script
  | item : FetchText (.array [.string script]) script

variable {j : Json}

theorem ScriptParsedParams.ofJson_eq_ok {p : ScriptParsedParams} :
    ScriptParsedParams.wire.ofJson j = .ok p ↔
      ∃ script, NoticeTexts j script p.url ∧ ScriptId.parse script = .ok p.scriptId := by
  rw [ScriptParsedParams.wire, Wire.record_ofJson_eq_ok (by decide)]
  constructor
  · rintro ⟨⟨id, url, _⟩, rfl, ⟨ms, rfl, hid, hurl, -⟩ | ⟨items, rfl, hitems⟩⟩
    · obtain ⟨j, hj, hid⟩ := hid.required rfl
      obtain ⟨k, hk, hurl⟩ := hurl.required rfl
      obtain ⟨script, rfl, hscript⟩ := ScriptId.ofJson_eq_ok.1 hid
      obtain rfl := text_ofJson_eq_ok.1 hurl
      exact ⟨script, .members hj hk, hscript⟩
    · obtain ⟨j, _, rfl, hid, hitems⟩ :=
        (Fields.takeItems_required rfl).1 (Fields.ofItems_eq_ok.1 hitems)
      obtain ⟨k, _, rfl, hurl, hitems⟩ := (Fields.takeItems_required rfl).1 hitems
      cases hitems
      obtain ⟨script, rfl, hscript⟩ := ScriptId.ofJson_eq_ok.1 hid
      obtain rfl := text_ofJson_eq_ok.1 hurl
      exact ⟨script, .items, hscript⟩
  · rintro ⟨script, htexts, hscript⟩
    have hid : ScriptId.wire.ofJson (.string script) = .ok p.scriptId :=
      ScriptId.ofJson_eq_ok.2 ⟨script, rfl, hscript⟩
    refine ⟨(p.scriptId, p.url, ()), rfl, ?_⟩
    cases htexts with
    | members hj hk =>
      exact .inl ⟨_, rfl, .inr ⟨_, hj, hid⟩, .inr ⟨_, hk, text_ofJson_eq_ok.2 rfl⟩, trivial⟩
    | items =>
      refine .inr ⟨_, rfl, Fields.ofItems_eq_ok.2 ((Fields.takeItems_required rfl).2 ?_)⟩
      refine ⟨_, _, rfl, hid, (Fields.takeItems_required rfl).2 ?_⟩
      exact ⟨_, _, rfl, text_ofJson_eq_ok.2 rfl, rfl⟩

theorem GetScriptSourceParams.ofJson_eq_ok {p : GetScriptSourceParams} :
    GetScriptSourceParams.wire.ofJson j = .ok p ↔
      ∃ script, FetchText j script ∧ ScriptId.parse script = .ok p.scriptId := by
  rw [GetScriptSourceParams.wire, Wire.record_ofJson_eq_ok (by decide)]
  constructor
  · rintro ⟨⟨id, _⟩, rfl, ⟨ms, rfl, hid, -⟩ | ⟨items, rfl, hitems⟩⟩
    · obtain ⟨j, hj, hid⟩ := hid.required rfl
      obtain ⟨script, rfl, hscript⟩ := ScriptId.ofJson_eq_ok.1 hid
      exact ⟨script, .member hj, hscript⟩
    · obtain ⟨j, _, rfl, hid, hitems⟩ :=
        (Fields.takeItems_required rfl).1 (Fields.ofItems_eq_ok.1 hitems)
      cases hitems
      obtain ⟨script, rfl, hscript⟩ := ScriptId.ofJson_eq_ok.1 hid
      exact ⟨script, .item, hscript⟩
  · rintro ⟨script, htext, hscript⟩
    have hid : ScriptId.wire.ofJson (.string script) = .ok p.scriptId :=
      ScriptId.ofJson_eq_ok.2 ⟨script, rfl, hscript⟩
    refine ⟨(p.scriptId, ()), rfl, ?_⟩
    cases htext with
    | member hj => exact .inl ⟨_, rfl, .inr ⟨_, hj, hid⟩, trivial⟩
    | item =>
      refine .inr ⟨_, rfl, Fields.ofItems_eq_ok.2 ((Fields.takeItems_required rfl).2 ?_)⟩
      exact ⟨_, _, rfl, hid, rfl⟩

end Parameters

section Frames

variable {text : String} {e : Envelope}

theorem Envelope.paramsAs_eq_ok {wire : Wire α} {a : α} : e.paramsAs wire = .ok a ↔
    ∃ params, e.params = some params ∧ wire.ofJson params = .ok a := by
  obtain ⟨id, method, params⟩ := e
  cases params with
  | none => simp [paramsAs, needParams, bind, Except.bind]
  | some params =>
    simp only [paramsAs, needParams, bind, Except.bind, Option.some.injEq, exists_eq_left']
    cases wire.ofJson params <;> simp [pure, Except.pure]

theorem Envelope.needMethod_eq_ok {method : String} :
    e.needMethod = .ok method ↔ e.method = some method := by
  unfold needMethod
  cases e.method <;> simp

theorem Envelope.needId_eq_ok {id : RequestId} : e.needId = .ok id ↔ e.id = some id := by
  unfold needId
  cases e.id <;> simp

def Envelope.Announces (e : Envelope) (script url : String) : Prop :=
  e.method = some scriptParsed ∧ ∃ params, e.params = some params ∧ NoticeTexts params script url

def Envelope.Fetches (e : Envelope) (id : RequestId) (script : String) : Prop :=
  e.method = some getScriptSource ∧ e.id = some id ∧
    ∃ params, e.params = some params ∧ FetchText params script

def Envelope.Asks (e : Envelope) : ClientCommand → Prop
  | .getScriptSource id named => ∃ script, e.Fetches id script ∧ ScriptId.parse script = .ok named
  | .forward method => e.method = some method ∧ method ≠ getScriptSource

def Envelope.Tells (e : Envelope) : DebuggerEvent → Prop
  | .scriptParsed p => ∃ script, e.Announces script p.url ∧ ScriptId.parse script = .ok p.scriptId
  | .other => e.method ≠ some scriptParsed

theorem ClientCommand.parse_eq_ok {command : ClientCommand} : parse text = .ok command ↔
    ∃ e, Envelope.parse text = .ok e ∧ e.Asks command := by
  rw [parse, bind_eq_ok]
  refine exists_congr fun e => and_congr_right fun _ => ?_
  constructor
  · intro h
    obtain ⟨method, hmethod, h⟩ := bind_eq_ok.1 h
    rw [Envelope.needMethod_eq_ok] at hmethod
    split at h
    · next heq =>
      subst heq
      obtain ⟨id, hid, h⟩ := bind_eq_ok.1 h
      obtain ⟨p, hp, h⟩ := bind_eq_ok.1 h
      cases h
      obtain ⟨params, hparams, hp⟩ := Envelope.paramsAs_eq_ok.1 hp
      obtain ⟨script, htext, hscript⟩ := GetScriptSourceParams.ofJson_eq_ok.1 hp
      exact ⟨script, ⟨hmethod, Envelope.needId_eq_ok.1 hid, params, hparams, htext⟩, hscript⟩
    · next hne =>
      cases h
      exact ⟨hmethod, hne⟩
  · intro h
    cases command with
    | getScriptSource id named =>
      obtain ⟨script, ⟨hmethod, hid, params, hparams, htext⟩, hscript⟩ := h
      have hp : e.paramsAs GetScriptSourceParams.wire = .ok ⟨named⟩ :=
        Envelope.paramsAs_eq_ok.2
          ⟨params, hparams, GetScriptSourceParams.ofJson_eq_ok.2 ⟨script, htext, hscript⟩⟩
      refine bind_eq_ok.2 ⟨_, Envelope.needMethod_eq_ok.2 hmethod, ?_⟩
      rw [if_pos rfl]
      exact bind_eq_ok.2 ⟨id, Envelope.needId_eq_ok.2 hid, bind_eq_ok.2 ⟨_, hp, rfl⟩⟩
    | forward method =>
      obtain ⟨hmethod, hne⟩ := h
      refine bind_eq_ok.2 ⟨method, Envelope.needMethod_eq_ok.2 hmethod, ?_⟩
      rw [if_neg hne]
      rfl

theorem DebuggerEvent.parse_eq_ok {event : DebuggerEvent} : parse text = .ok event ↔
    ∃ e, Envelope.parse text = .ok e ∧ e.Tells event := by
  rw [parse, bind_eq_ok]
  refine exists_congr fun e => and_congr_right fun _ => ?_
  by_cases hmethod : e.method = some ScriptHost.scriptParsed
  · rw [if_pos hmethod]
    constructor
    · intro h
      obtain ⟨p, hp, h⟩ := bind_eq_ok.1 h
      cases h
      obtain ⟨params, hparams, hp⟩ := Envelope.paramsAs_eq_ok.1 hp
      obtain ⟨script, htexts, hscript⟩ := ScriptParsedParams.ofJson_eq_ok.1 hp
      exact ⟨script, ⟨hmethod, params, hparams, htexts⟩, hscript⟩
    · intro h
      cases event with
      | scriptParsed p =>
        obtain ⟨script, ⟨-, params, hparams, htexts⟩, hscript⟩ := h
        refine bind_eq_ok.2 ⟨p, Envelope.paramsAs_eq_ok.2 ⟨params, hparams, ?_⟩, rfl⟩
        exact ScriptParsedParams.ofJson_eq_ok.2 ⟨script, htexts, hscript⟩
      | other => exact absurd hmethod h
  · rw [if_neg hmethod]
    cases event with
    | scriptParsed p =>
      refine iff_of_false (fun h => by cases h) ?_
      rintro ⟨_, ⟨h, -⟩, -⟩
      exact hmethod h
    | other => exact iff_of_true rfl hmethod

end Frames

end ScriptHost
