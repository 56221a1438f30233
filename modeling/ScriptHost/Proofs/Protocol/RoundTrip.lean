import ScriptHost.Proofs.Protocol.Envelopes
import ScriptHost.Proofs.Text.Decimals
import ScriptHost.Proofs.Wire.ReadBack
import ScriptHost.Debugging.Config
import ScriptHost.Engine.Signature
import ScriptHost.Protocol.Frame

/-! Decoding undoes encoding for every type that travels. Only the JSON values that some of them
hold must be such as a text carries; a record around such a value takes one level. -/

namespace ScriptHost

open Json

namespace Wire

variable {levels : Nat}

theorem text_returns (s : String) : text.Returns levels (tree (.string s)) s :=
  agrees_text.returns .string rfl rfl

theorem flag_returns (b : Bool) : flag.Returns levels (tree (.bool b)) b :=
  agrees_flag.returns .bool rfl rfl

theorem unsigned_ofJson {bits : Nat} {ofNat : Nat → α} {toNat : α → Nat} {a : α}
    (hbits : toNat a < Nat.pow 2 bits) (hof : ofNat (toNat a) = a) :
    (unsigned bits ofNat toNat).ofJson (.number (.integer (toNat a))) = .ok a := by
  have haccept : acceptUnsigned bits (.number (.integer (toNat a))) = .ok (toNat a) :=
    if_pos ⟨Int.natCast_nonneg _, hbits⟩
  exact map_eq_ok.2 ⟨_, haccept, hof⟩

theorem unsigned_returns {bits : Nat} {ofNat : Nat → α} {toNat : α → Nat} {a : α}
    (hbits : toNat a < Nat.pow 2 bits) (hword : toNat a < UInt64.size)
    (hof : ofNat (toNat a) = a) :
    (unsigned bits ofNat toNat).Returns levels (tree (.number (.integer (toNat a)))) a := by
  have hsize : UInt64.size = 0x10000000000000000 := rfl
  refine (agrees_unsigned bits ofNat toNat).returns (.integer (by omega)) ?_
    (unsigned_ofJson hbits hof)
  have hsign : ¬ (toNat a : Int) < 0 := by omega
  simp [unsigned, scalar, Json.print, printNumber, hsign]

theorem word16_returns (n : UInt16) :
    word16.Returns levels (tree (.number (.integer n.toNat))) n :=
  unsigned_returns n.toNat_lt_size (n.toNat_lt_size.trans (by decide)) n.ofNat_toNat

theorem word32_returns (n : UInt32) :
    word32.Returns levels (tree (.number (.integer n.toNat))) n :=
  unsigned_returns n.toNat_lt_size (n.toNat_lt_size.trans (by decide)) n.ofNat_toNat

theorem word64_returns (n : UInt64) :
    word64.Returns levels (tree (.number (.integer n.toNat))) n :=
  unsigned_returns n.toNat_lt_size n.toNat_lt_size n.ofNat_toNat

theorem written_returns {read : String → Except String α} {print : α → String} {a : α}
    (h : read (print a) = .ok a) :
    (written read print).Returns levels (tree (.string (print a))) a := by
  refine (agrees_written read print).returns .string rfl ?_
  simp [written, scalar, acceptText, h, bind, Except.bind, pure, Except.pure]

/-- A field that may be left out is left out exactly if it is absent. -/
theorem field_written (name : String) {wire : Wire α} (h : wire.Agrees) {fields : Fields β σ}
    {a : Option α} {b : β} {ms : List (List Nat × Tree)} (hrest : fields.Returns levels b ms)
    (ha : ∀ x ∈ a, ∃ j, j ≠ .null ∧ Portable levels j ∧ wire.print x = j.print ∧
      wire.ofJson j = .ok x) :
    ∃ ms, (Fields.cons (Envelope.field name wire) fields).Returns levels (a, b) ms := by
  cases a with
  | none => exact ⟨ms, .omitted rfl rfl hrest⟩
  | some x =>
    obtain ⟨j, hnull, hj, hprint, hx⟩ := ha x rfl
    have hvalue : wire.optional.ofJson j = .ok (some x) :=
      (optional_ofJson hnull).trans (map_eq_ok.2 ⟨x, hx, rfl⟩)
    exact ⟨_, .member rfl (h.optional.returns hj hprint hvalue) hrest⟩

end Wire

section Types

variable {levels : Nat}

theorem ScriptId.parse_text (id : ScriptId) : ScriptId.parse id.text = .ok id := by
  have hread : ScriptId.read id.text = .ok id := by
    have hle : id.number.toNat ≤ UInt32.size - 1 := by
      have hlt := id.number.toNat_lt_size
      omega
    refine bind_eq_ok.2 ⟨id.number.toNat, ?_, ?_⟩
    · rw [ScriptId.text, String.toList_ofList]
      exact Text.readDecimal_decimal hle
    · simp [pure, Except.pure]
  rw [ScriptId.parse, hread]

theorem ScriptId.returns (id : ScriptId) :
    ScriptId.wire.Returns levels (tree (.string id.text)) id :=
  Wire.written_returns (mapError_eq_ok.2 id.parse_text)

theorem RequestId.agrees : RequestId.wire.Agrees := Wire.agrees_json.map _ _

theorem RequestId.returns {id : RequestId} (h : Portable levels id.value) :
    RequestId.wire.Returns levels id.value.tree id :=
  RequestId.agrees.returns h rfl rfl

theorem ScriptParsedParams.returns (p : ScriptParsedParams) :
    ∃ v, ScriptParsedParams.wire.Returns (levels + 1) v p :=
  ⟨_, Wire.record_returns (by decide)
    (.member rfl p.scriptId.returns (.member rfl (Wire.text_returns p.url) .nil)) rfl⟩

theorem GetScriptSourceParams.returns (p : GetScriptSourceParams) :
    ∃ v, GetScriptSourceParams.wire.Returns (levels + 1) v p :=
  ⟨_, Wire.record_returns (by decide) (.member rfl p.scriptId.returns .nil) rfl⟩

theorem ScriptSourceResult.returns (r : ScriptSourceResult) :
    ScriptSourceResult.wire.Returns (levels + 1)
      (tree (.object [("scriptSource", .string r.scriptSource)])) r :=
  Wire.record_returns (by decide) (.member rfl (Wire.text_returns r.scriptSource) .nil) rfl

theorem Response.returns {result : Wire α} {r : Response α} {v : Tree}
    (hid : Portable levels r.id.value) (h : result.Returns levels v r.result) :
    ∃ v, (Response.wire result).Returns (levels + 1) v r :=
  ⟨_, Wire.record_returns (by simp [Response.fields, Fields.names])
    (.member rfl (RequestId.returns hid) (.member rfl h .nil)) rfl⟩

/-- A record takes one of the levels, so the reply takes two. -/
theorem Response.source_roundTrip {r : Response ScriptSourceResult}
    (hid : Portable (Wire.maxLevels - 1) r.id.value) :
    (Response.wire ScriptSourceResult.wire).RoundTrip r := by
  obtain ⟨v, hv⟩ : ∃ v, (Response.wire ScriptSourceResult.wire).Returns (125 + 1 + 1) v r :=
    Response.returns hid r.result.returns
  exact hv.roundTrip

theorem ScriptSignature.returns (s : ScriptSignature) :
    ∃ v, ScriptSignature.wire.Returns (levels + 1) v s :=
  ⟨_, Wire.record_returns (by decide)
    (.member rfl (Wire.text_returns s.url) (.member rfl (Wire.word64_returns s.version) .nil)) rfl⟩

theorem RuntimeSignature.returns (s : RuntimeSignature) :
    ∃ v, RuntimeSignature.wire.Returns (levels + 1) v s :=
  ⟨_, Wire.record_returns (by decide)
    (.member rfl (Wire.text_returns s.runtime) (.member rfl (Wire.word32_returns s.version) .nil))
    rfl⟩

theorem BridgeConfig.returns (c : BridgeConfig) :
    ∃ v, BridgeConfig.wire.Returns (levels + 1) v c :=
  ⟨_, Wire.record_returns (by decide)
    (.member rfl (Wire.text_returns c.host) (.member rfl (Wire.word16_returns c.port)
      (.member rfl (Wire.flag_returns c.pauseOnLoad)
        (.member rfl (Wire.word64_returns c.shutdownTimeoutMs) .nil)))) rfl⟩

/-- An envelope is returned if what it holds is not `null`, which counts as absent. -/
theorem Envelope.returns {e : Envelope}
    (hid : ∀ id ∈ e.id, id.value ≠ .null ∧ Portable levels id.value)
    (hparams : ∀ params ∈ e.params, params ≠ .null ∧ Portable levels params) :
    ∃ v, Envelope.wire.Returns (levels + 1) v e := by
  obtain ⟨ms₁, h₁⟩ : ∃ ms, Fields.Returns levels (.cons (field "params" Wire.json) .nil)
      (e.params, ()) ms :=
    Wire.field_written "params" Wire.agrees_json .nil fun params hmem =>
      ⟨params, (hparams params hmem).1, (hparams params hmem).2, rfl, rfl⟩
  obtain ⟨ms₂, h₂⟩ : ∃ ms, Fields.Returns levels (.cons (field "method" Wire.text)
      (.cons (field "params" Wire.json) .nil)) (e.method, e.params, ()) ms :=
    Wire.field_written "method" Wire.agrees_text h₁ fun method _ =>
      ⟨.string method, nofun, .string, rfl, rfl⟩
  obtain ⟨ms₃, h₃⟩ : ∃ ms, Fields.Returns levels fields (e.id, e.method, e.params, ()) ms :=
    Wire.field_written "id" RequestId.agrees h₂ fun id hmem =>
      ⟨id.value, (hid id hmem).1, (hid id hmem).2, rfl, rfl⟩
  exact ⟨_, Wire.record_returns (by decide) h₃ rfl⟩

end Types

/-- What is encoded of any of these types is decoded again. -/
structure WireRoundTrips : Prop where
  scriptId : ∀ id : ScriptId, ScriptId.wire.RoundTrip id
  requestId : ∀ id : RequestId, Portable Wire.maxLevels id.value → RequestId.wire.RoundTrip id
  scriptParsedParams : ∀ p : ScriptParsedParams, ScriptParsedParams.wire.RoundTrip p
  getScriptSourceParams : ∀ p : GetScriptSourceParams, GetScriptSourceParams.wire.RoundTrip p
  scriptSourceResult : ∀ r : ScriptSourceResult, ScriptSourceResult.wire.RoundTrip r
  /-- The record takes one of the levels. -/
  response : ∀ r : Response Json, Portable (Wire.maxLevels - 1) r.id.value →
    Portable (Wire.maxLevels - 1) r.result → (Response.wire Wire.json).RoundTrip r
  sourceResponse : ∀ r : Response ScriptSourceResult, Portable (Wire.maxLevels - 1) r.id.value →
    (Response.wire ScriptSourceResult.wire).RoundTrip r
  scriptSignature : ∀ s : ScriptSignature, ScriptSignature.wire.RoundTrip s
  runtimeSignature : ∀ s : RuntimeSignature, RuntimeSignature.wire.RoundTrip s
  bridgeConfig : ∀ c : BridgeConfig, BridgeConfig.wire.RoundTrip c
  /-- A member that is `null` counts as absent. -/
  envelope : ∀ e : Envelope,
    (∀ id ∈ e.id, id.value ≠ .null ∧ Portable (Wire.maxLevels - 1) id.value) →
    (∀ params ∈ e.params, params ≠ .null ∧ Portable (Wire.maxLevels - 1) params) →
    Envelope.wire.RoundTrip e

theorem wire_round_trips : WireRoundTrips where
  scriptId id := id.returns.roundTrip
  requestId _ h := (RequestId.returns h).roundTrip
  scriptParsedParams p := p.returns.elim fun _ h => h.roundTrip
  getScriptSourceParams p := p.returns.elim fun _ h => h.roundTrip
  scriptSourceResult r := r.returns.roundTrip
  response _ hid hresult :=
    (Response.returns hid (Wire.agrees_json.returns hresult rfl rfl)).elim fun _ h => h.roundTrip
  sourceResponse _ hid := Response.source_roundTrip hid
  scriptSignature s := s.returns.elim fun _ h => h.roundTrip
  runtimeSignature s := s.returns.elim fun _ h => h.roundTrip
  bridgeConfig c := c.returns.elim fun _ h => h.roundTrip
  envelope _ hid hparams := (Envelope.returns hid hparams).elim fun _ h => h.roundTrip

/-- Both ends of the whole numbers, and names and strings of all kinds of characters. -/
def mixedValue : Json :=
  .object [("", .array [.null, .number (.integer (-0x8000000000000000))]),
    ("\n\"\\\u2028", .string "\x00\x7f😀"), ("é", .number (.integer 0xFFFFFFFFFFFFFFFF))]

theorem portable_mixedValue (levels : Nat) : Portable (levels + 2) mixedValue := by
  refine .object (by unfold Ordered; decide +kernel) ?_
  simp only [List.forall_mem_cons]
  refine ⟨.array ?_, .string, .integer (by decide), nofun⟩
  simp only [List.forall_mem_cons]
  exact ⟨.null, .integer (by decide), nofun⟩

theorem mixed_round_trips : RequestId.wire.RoundTrip ⟨mixedValue⟩ ∧
    (Response.wire Wire.json).RoundTrip ⟨⟨mixedValue⟩, mixedValue⟩ ∧
    Envelope.wire.RoundTrip ⟨some ⟨mixedValue⟩, none, some mixedValue⟩ := by
  have hvalue := portable_mixedValue 124
  have hnull : mixedValue ≠ .null := nofun
  refine ⟨wire_round_trips.requestId _ (portable_mixedValue 125),
    wire_round_trips.response _ hvalue hvalue, wire_round_trips.envelope _ ?_ ?_⟩
  · intro id hid
    cases hid
    exact ⟨hnull, hvalue⟩
  · intro params hparams
    cases hparams
    exact ⟨hnull, hvalue⟩

end ScriptHost
