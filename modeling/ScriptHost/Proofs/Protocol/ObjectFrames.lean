import ScriptHost.Debugging.Bridge
import ScriptHost.Proofs.Protocol.Envelopes

/-! Texts that are no JSON objects. A list that could hold the fields of an envelope in their order is
taken for one; every other such text is refused by each way of reading a frame, and the bridge does
no more than report it. -/

namespace ScriptHost

open Json

def ObjectText (text : String) : Prop := ∃ members, Says text (.object members)

/-- A readable list of at most three items, the second of which, if there is one, may be a method. -/
def ListsFields (text : String) : Prop :=
  ∃ items, Wire.json.decode text = .ok (.array items) ∧ items.length ≤ 3 ∧
    ∀ j, items[1]? = some j → j = .null ∨ ∃ s, j = .string s

namespace Envelope

theorem id_isOk (j : Json) : ∃ id, RequestId.wire.optional.ofJson j = .ok id := by
  cases j <;> exact ⟨_, rfl⟩

theorem params_isOk (j : Json) : ∃ params, Wire.json.optional.ofJson j = .ok params := by
  cases j <;> exact ⟨_, rfl⟩

theorem method_isOk_iff {j : Json} :
    (∃ m, Wire.text.optional.ofJson j = .ok m) ↔ j = .null ∨ ∃ s, j = .string s := by
  cases j <;> simp [Wire.optional, Wire.text, Wire.scalar, acceptText, Functor.map, Except.map]

theorem ofItems_isOk_iff {items : List Json} :
    (∃ b, fields.ofItems "Envelope" items = .ok b) ↔
      items.length ≤ 3 ∧ ∀ j, items[1]? = some j → j = .null ∨ ∃ s, j = .string s := by
  simp only [Fields.ofItems_eq_ok, ← method_isOk_iff]
  constructor
  · rintro ⟨b, hb⟩
    refine ⟨Fields.length_le_of_takeItems hb, fun j hj => ?_⟩
    match items with
    | [] => cases hj
    | [_] => cases hj
    | _ :: method :: _ =>
      cases hj
      obtain ⟨_, -, hb⟩ := bind_eq_ok.1 hb
      obtain ⟨_, htail, -⟩ := bind_eq_ok.1 hb
      obtain ⟨m, hm, -⟩ := bind_eq_ok.1 htail
      exact ⟨m, hm⟩
  · rintro ⟨hlength, hmethod⟩
    match items with
    | [] => exact ⟨_, rfl⟩
    | [id] =>
      obtain ⟨a, ha⟩ := id_isOk id
      exact ⟨_, bind_eq_ok.2 ⟨a, ha, rfl⟩⟩
    | [id, method] =>
      obtain ⟨a, ha⟩ := id_isOk id
      obtain ⟨m, hm⟩ := hmethod method rfl
      exact ⟨_, bind_eq_ok.2 ⟨a, ha, bind_eq_ok.2 ⟨_, bind_eq_ok.2 ⟨m, hm, rfl⟩, rfl⟩⟩⟩
    | [id, method, params] =>
      obtain ⟨a, ha⟩ := id_isOk id
      obtain ⟨m, hm⟩ := hmethod method rfl
      obtain ⟨p, hp⟩ := params_isOk params
      exact ⟨_, bind_eq_ok.2 ⟨a, ha, bind_eq_ok.2 ⟨_, bind_eq_ok.2 ⟨m, hm,
        bind_eq_ok.2 ⟨_, bind_eq_ok.2 ⟨p, hp, rfl⟩, rfl⟩⟩, rfl⟩⟩⟩
    | _ :: _ :: _ :: _ :: _ =>
      simp only [List.length_cons] at hlength
      omega

/-- Of the texts that are no objects, those that list fields are taken for envelopes. -/
theorem parse_isOk_iff {text : String} (h : ¬ ObjectText text) :
    (∃ e, parse text = .ok e) ↔ ListsFields text := by
  constructor
  · rintro ⟨e, he⟩
    obtain ⟨rest, hread, hrest⟩ := Wire.decode_eq_ok.1 (mapError_eq_ok.1 he)
    rcases Wire.record_sound fields_agree fields_nodup le_rfl hread with
      ⟨ms, _, hms, -⟩ | ⟨items, b, hitems, hb, -⟩
    · exact absurd ⟨ms, rest, hms, hrest⟩ h
    · exact ⟨items, Wire.decode_eq_ok.2 ⟨rest, hitems, hrest⟩, ofItems_isOk_iff.1 ⟨b, hb⟩⟩
  · rintro ⟨items, hitems, hshape⟩
    obtain ⟨rest, hread, hrest⟩ := Wire.decode_eq_ok.1 hitems
    obtain ⟨b, hb⟩ := ofItems_isOk_iff.2 hshape
    exact ⟨_, mapError_eq_ok.2
      (Wire.decode_eq_ok.2 ⟨rest, Wire.record_list fields_agree hread hb, hrest⟩)⟩

end Envelope

/-- A text that no envelope is read from is refused by both ways of reading a frame; the bridge
reports it, forwards and answers nothing, and learns nothing from it. -/
theorem refused_of_no_envelope {text : String} {e : FrameError}
    (h : Envelope.parse text = .error e) :
    ClientCommand.parse text = .error e ∧ DebuggerEvent.parse text = .error e ∧
      ∀ (b : Bridge) session, (∃ event, b.route session text = [.report event]) ∧
        (b.learn text).1 = b := by
  have hcommand : ClientCommand.parse text = .error e := by
    rw [ClientCommand.parse, h]
    rfl
  have hevent : DebuggerEvent.parse text = .error e := by
    rw [DebuggerEvent.parse, h]
    rfl
  refine ⟨hcommand, hevent, fun b session => ⟨?_, ?_⟩⟩
  · rw [Bridge.route, hcommand]
    exact ⟨_, rfl⟩
  · rw [Bridge.learn, hevent]

/-- A text that is no object is taken for an envelope exactly if it lists the fields of one. Any
other is refused by both ways of reading a frame; the bridge reports it, forwards and answers
nothing, and learns nothing from it. -/
theorem non_object_refused_unless_listed (text : String) (h : ¬ ObjectText text) :
    ((∃ e, Envelope.parse text = .ok e) ↔ ListsFields text) ∧
      (¬ ListsFields text → ∃ e, ClientCommand.parse text = .error e ∧
        DebuggerEvent.parse text = .error e ∧
        ∀ (b : Bridge) session, (∃ event, b.route session text = [.report event]) ∧
          (b.learn text).1 = b) := by
  refine ⟨Envelope.parse_isOk_iff h, fun hlists => ?_⟩
  cases hparse : Envelope.parse text with
  | ok e => exact absurd ((Envelope.parse_isOk_iff h).1 ⟨e, hparse⟩) hlists
  | error e => exact ⟨e, refused_of_no_envelope hparse⟩

theorem ObjectText.lead {text : String} (h : ObjectText text) :
    (skipSpace text.toList).head? = some '\x7b' := by
  obtain ⟨ms, rest, hms, -⟩ := h
  cases hms with
  | object hopen => rw [hopen]; rfl

def threeNumbers : String := "[1,2,3]"

theorem three_numbers_refused : ¬ ObjectText threeNumbers ∧ ¬ ListsFields threeNumbers ∧
    ∃ e, ClientCommand.parse threeNumbers = .error e ∧ DebuggerEvent.parse threeNumbers = .error e ∧
      ∀ (b : Bridge) session, (∃ event, b.route session threeNumbers = [.report event]) ∧
        (b.learn threeNumbers).1 = b := by
  have hobject : ¬ ObjectText threeNumbers := fun h => absurd h.lead (by decide)
  have hparse : (Envelope.parse threeNumbers).isOk = false := by decide +kernel
  obtain ⟨hiff, hrefused⟩ := non_object_refused_unless_listed threeNumbers hobject
  have hlists : ¬ ListsFields threeNumbers := by
    intro hlists
    obtain ⟨e, he⟩ := hiff.2 hlists
    rw [he] at hparse
    cases hparse
  exact ⟨hobject, hlists, hrefused hlists⟩

/-- A fetch as a list of its fields, its parameters too. -/
def listedFetch : String := "[1,\"Debugger.getScriptSource\",[\"7\"]]"

/-- Such a list is no object, yet it is answered as the object with these members is. -/
theorem listed_fetch_answered : ¬ ObjectText listedFetch ∧
    (∃ e, Envelope.parse listedFetch = .ok e) ∧
    ({} : Bridge).route 0 listedFetch =
      [Bridge.event .debug "no source recorded for script" [("script_id", "7")],
        .write 0 "\x7b\"id\":1,\"result\":\x7b\"scriptSource\":\"<source unavailable>\"\x7d\x7d"] := by
  have hparse : (Envelope.parse listedFetch).isOk = true := by decide +kernel
  refine ⟨fun h => absurd h.lead (by decide), ?_, by decide +kernel⟩
  cases h : Envelope.parse listedFetch with
  | ok e => exact ⟨e, rfl⟩
  | error e =>
    rw [h] at hparse
    cases hparse

end ScriptHost
