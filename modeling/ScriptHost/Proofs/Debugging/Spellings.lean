import ScriptHost.Proofs.Debugging.ClientFrames
import ScriptHost.Proofs.Protocol.ScriptIds

/-! The spellings of script ids. A text is read from the left as a number of 32 bits, and the first
fault decides how it is refused; what is shown of a number is its canonical spelling. Only the number
counts afterwards, so a fetch finds what a notice announced however the two frames spell it. -/

namespace ScriptHost

open Json

section Frames

variable {message fetch script url : String} {id : RequestId}

def NoticeOf (message script url : String) : Prop :=
  ∃ e, Envelope.parse message = .ok e ∧ e.Announces script url

def FetchOf (fetch : String) (id : RequestId) (script : String) : Prop :=
  ∃ e, Envelope.parse fetch = .ok e ∧ e.Fetches id script

theorem announced?_eq_some {p : ScriptParsedParams} : Bridge.announced? message = some p ↔
    ∃ script, NoticeOf message script p.url ∧ ScriptId.parse script = .ok p.scriptId := by
  have hparse : Bridge.announced? message = some p ↔
      DebuggerEvent.parse message = .ok (.scriptParsed p) := by
    unfold Bridge.announced?
    cases DebuggerEvent.parse message with
    | error e => simp
    | ok event => cases event <;> simp
  rw [hparse, DebuggerEvent.parse_eq_ok]
  constructor
  · rintro ⟨e, he, script, hnotice, hscript⟩
    exact ⟨script, ⟨e, he, hnotice⟩, hscript⟩
  · rintro ⟨script, ⟨e, he, hnotice⟩, hscript⟩
    exact ⟨e, he, script, hnotice, hscript⟩

theorem fetched?_eq_some {named : ScriptId} : fetched? fetch = some (id, named) ↔
    ∃ script, FetchOf fetch id script ∧ ScriptId.parse script = .ok named := by
  have hparse : fetched? fetch = some (id, named) ↔
      ClientCommand.parse fetch = .ok (.getScriptSource id named) := by
    rcases clientCommand_cases fetch with
      ⟨method, hparse, -, hfetch⟩ | ⟨id', named', hparse, -, hfetch⟩ | ⟨e, hparse, -, hfetch⟩
    · simp [hparse, hfetch]
    · simp [hparse, hfetch]
    · simp [hparse, hfetch]
  rw [hparse, ClientCommand.parse_eq_ok]
  constructor
  · rintro ⟨e, he, script, hfetch, hscript⟩
    exact ⟨script, ⟨e, he, hfetch⟩, hscript⟩
  · rintro ⟨script, ⟨e, he, hfetch⟩, hscript⟩
    exact ⟨e, he, script, hfetch, hscript⟩

/-- Whichever of its spellings a notice and a fetch have, they name the entry of the number. -/
theorem entry_of_spelled (b : Bridge) {script' : String} {n n' : Nat}
    (hnotice : NoticeOf message script url) (hscript : Text.Spells script.toList n)
    (hn : n ≤ 4294967295) (hfetch : FetchOf fetch id script')
    (hscript' : Text.Spells script'.toList n') (hn' : n' ≤ 4294967295) :
    ∃ named, fetched? fetch = some (id, named) ∧ named.number.toNat = n' ∧
      (b.learn message).1.registry.url? named =
        if n' = n then some url else b.registry.url? named := by
  obtain ⟨announced, hannounced, rfl⟩ := ScriptId.exists_spelled hscript hn
  obtain ⟨named, hnamed, rfl⟩ := ScriptId.exists_spelled hscript' hn'
  have hlearn : Bridge.announced? message = some ⟨announced, url⟩ :=
    announced?_eq_some.2 ⟨script, hnotice, hannounced⟩
  refine ⟨named, fetched?_eq_some.2 ⟨script', hfetch, hnamed⟩, rfl, ?_⟩
  rw [Bridge.registry_learn, hlearn]
  simp only [ScriptRegistry.url?_recordScript, ScriptId.number_inj]

end Frames

structure SpellingsOfScriptIds : Prop where
  accepts : ∀ text n, (∃ id, ScriptId.parse text = .ok id ∧ id.number.toNat = n) ↔
    Text.Spells text.toList n ∧ n ≤ 4294967295
  empty : ∀ text, ScriptId.parse text = .error (ScriptId.refusal text .empty) ↔ text = ""
  tooLarge : ∀ text, ScriptId.parse text = .error (ScriptId.refusal text .tooLarge) ↔
    Text.Exceeds 4294967295 text.toList
  /-- Every other text has a bad character before its digits are worth too much. -/
  invalidDigit : ∀ text, ScriptId.parse text = .error (ScriptId.refusal text .invalidDigit) ↔
    text ≠ "" ∧ ¬ Text.Exceeds 4294967295 text.toList ∧
      ∀ n ≤ 4294967295, ¬ Text.Spells text.toList n
  returns : ∀ id, ScriptId.parse (ScriptId.text id) = .ok id
  showsCanonical : ∀ text id, ScriptId.parse text = .ok id →
    (ScriptId.text id).toList = Text.canonical text.toList
  byValue : ∀ j id, ScriptId.wire.ofJson j = .ok id ↔
    ∃ s, j = .string s ∧ ScriptId.parse s = .ok id
  direct : ∀ text id, ScriptId.wire.decode text = .ok id ↔
    ∃ s : String, Says text (.string (units s.toList)) ∧ ScriptId.parse s = .ok id
  announced : ∀ message p, Bridge.announced? message = some p ↔
    ∃ script, NoticeOf message script p.url ∧ ScriptId.parse script = .ok p.scriptId
  fetched : ∀ fetch id named, fetched? fetch = some (id, named) ↔
    ∃ script, FetchOf fetch id script ∧ ScriptId.parse script = .ok named
  /-- Spellings of one number name one entry, and spellings of another number another. -/
  sameEntry : ∀ (b : Bridge) message fetch script script' url id n n',
    NoticeOf message script url → Text.Spells script.toList n → n ≤ 4294967295 →
    FetchOf fetch id script' → Text.Spells script'.toList n' → n' ≤ 4294967295 →
    ∃ named, fetched? fetch = some (id, named) ∧ named.number.toNat = n' ∧
      (b.learn message).1.registry.url? named =
        if n' = n then some url else b.registry.url? named

theorem script_ids_by_number : SpellingsOfScriptIds where
  accepts text n := by
    constructor
    · rintro ⟨id, hid, rfl⟩
      have hlt := id.number.toNat_lt_size
      have hsize : UInt32.size = 4294967296 := rfl
      exact ⟨ScriptId.parse_spells.1 hid, by omega⟩
    · rintro ⟨hspells, hn⟩
      exact ScriptId.exists_spelled hspells hn
  empty text := by
    rw [ScriptId.parse_eq_refusal, Text.readDecimal_eq_empty, String.toList_eq_nil_iff]
  tooLarge text := by rw [ScriptId.parse_eq_refusal, Text.readDecimal_eq_tooLarge]
  invalidDigit text := by
    rw [ScriptId.parse_eq_refusal, Text.readDecimal_eq_invalidDigit, ne_eq, ne_eq,
      String.toList_eq_nil_iff]
  returns := ScriptId.parse_text
  showsCanonical text id hid := by
    rw [ScriptId.text, String.toList_ofList]
    exact (ScriptId.parse_spells.1 hid).decimal_eq
  byValue _ _ := ScriptId.ofJson_eq_ok
  direct _ _ := ScriptId.decode_eq_ok
  announced _ _ := announced?_eq_some
  fetched _ _ _ := fetched?_eq_some
  sameEntry b _ _ _ _ _ _ _ _ hnotice hscript hn hfetch hscript' hn' :=
    entry_of_spelled b hnotice hscript hn hfetch hscript' hn'

/-- Which fault comes first from the left decides. -/
example : ScriptId.parse "+42949672960x" = .error (ScriptId.refusal "+42949672960x" .tooLarge) ∧
    ScriptId.parse "+4294967295x0" = .error (ScriptId.refusal "+4294967295x0" .invalidDigit) := by
  decide +kernel

end ScriptHost
