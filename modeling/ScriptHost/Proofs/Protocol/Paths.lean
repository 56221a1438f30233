import ScriptHost.Proofs.Protocol.RoundTrip
import ScriptHost.Proofs.Wire.Paths

/-! The types that travel, and the names that each of them knows. For every one of them the two ways
of reading a text agree, unless one of these names is repeated. -/

namespace ScriptHost

open Json

/-- The types that travel. A response may hold any of them. -/
inductive WireType : Type → Type 1 where
  | value : WireType Json
  | scriptId : WireType ScriptId
  | requestId : WireType RequestId
  | envelope : WireType Envelope
  | scriptParsedParams : WireType ScriptParsedParams
  | getScriptSourceParams : WireType GetScriptSourceParams
  | scriptSourceResult : WireType ScriptSourceResult
  | response {α : Type} (result : WireType α) : WireType (Response α)
  | scriptSignature : WireType ScriptSignature
  | runtimeSignature : WireType RuntimeSignature
  | bridgeConfig : WireType BridgeConfig

namespace WireType

def wire : WireType α → Wire α
  | value => Wire.json
  | scriptId => ScriptId.wire
  | requestId => RequestId.wire
  | envelope => Envelope.wire
  | scriptParsedParams => ScriptParsedParams.wire
  | getScriptSourceParams => GetScriptSourceParams.wire
  | scriptSourceResult => ScriptSourceResult.wire
  | response result => Response.wire result.wire
  | scriptSignature => ScriptSignature.wire
  | runtimeSignature => RuntimeSignature.wire
  | bridgeConfig => BridgeConfig.wire

/-- The names that the type knows, and those that a type nested in it knows. -/
def known : WireType α → Names
  | value => .plain
  | scriptId => .plain
  | requestId => .plain
  | envelope => .record [("id", .plain), ("method", .plain), ("params", .plain)]
  | scriptParsedParams => .record [("scriptId", .plain), ("url", .plain)]
  | getScriptSourceParams => .record [("scriptId", .plain)]
  | scriptSourceResult => .record [("scriptSource", .plain)]
  | response result => .record [("id", .plain), ("result", result.known)]
  | scriptSignature => .record [("url", .plain), ("version", .plain)]
  | runtimeSignature => .record [("runtime", .plain), ("version", .plain)]
  | bridgeConfig =>
    .record [("host", .plain), ("port", .plain), ("pauseOnLoad", .plain),
      ("shutdownTimeoutMs", .plain)]

theorem knows (T : WireType α) : T.wire.Knows T.known := by
  have hscriptId : ScriptId.wire.Agrees := Wire.agrees_written ..
  have hword16 : Wire.word16.Agrees := Wire.agrees_unsigned ..
  have hword32 : Wire.word32.Agrees := Wire.agrees_unsigned ..
  have hword64 : Wire.word64.Agrees := Wire.agrees_unsigned ..
  induction T with
  | value => exact Wire.agrees_json.knows
  | scriptId => exact hscriptId.knows
  | requestId => exact RequestId.agrees.knows
  | envelope =>
    rw [wire, known]
    refine Wire.record_knows ?_ (by decide)
    exact .cons RequestId.agrees.optional.knows (.cons Wire.agrees_text.optional.knows
      (.cons Wire.agrees_json.optional.knows .nil))
  | scriptParsedParams =>
    rw [wire, known]
    refine Wire.record_knows ?_ (by decide)
    exact .cons hscriptId.knows (.cons Wire.agrees_text.knows .nil)
  | getScriptSourceParams =>
    rw [wire, known]
    refine Wire.record_knows ?_ (by decide)
    exact .cons hscriptId.knows .nil
  | scriptSourceResult =>
    rw [wire, known]
    refine Wire.record_knows ?_ (by decide)
    exact .cons Wire.agrees_text.knows .nil
  | response result ih =>
    rw [wire, known]
    refine Wire.record_knows ?_ (by simp [Response.fields, Fields.names])
    exact .cons RequestId.agrees.knows (.cons ih .nil)
  | scriptSignature =>
    rw [wire, known]
    refine Wire.record_knows ?_ (by decide)
    exact .cons Wire.agrees_text.knows (.cons hword64.knows .nil)
  | runtimeSignature =>
    rw [wire, known]
    refine Wire.record_knows ?_ (by decide)
    exact .cons Wire.agrees_text.knows (.cons hword32.knows .nil)
  | bridgeConfig =>
    rw [wire, known]
    refine Wire.record_knows ?_ (by decide)
    exact .cons Wire.agrees_text.knows (.cons hword16.knows
      (.cons Wire.agrees_flag.knows (.cons hword64.knows .nil)))

end WireType

theorem paths_agree (T : WireType α) : T.wire.PathsAgree T.known := T.knows.pathsAgree

def repeatedSource : String :=
  "\x7b\"id\":1,\"result\":\x7b\"scriptSource\":\"a\",\"scriptSource\":\"b\"\x7d\x7d"

/-- By way of a value the last source counts. -/
theorem repeated_source_refused :
    ((WireType.response .scriptSourceResult).wire.decodeByValue repeatedSource).toOption.map
        Response.result = some ⟨"b"⟩ ∧
      (WireType.response .scriptSourceResult).known.RepeatedIn repeatedSource ∧
      ∃ e, (WireType.response .scriptSourceResult).wire.decode repeatedSource = .error e := by
  let reply : Json := .object [("id", .number (.integer 1)),
    ("result", .object [("scriptSource", .string "a"), ("scriptSource", .string "b")])]
  have htext : repeatedSource = reply.text := by decide +kernel
  have hrepeated : (WireType.response .scriptSourceResult).known.RepeatedIn repeatedSource := by
    refine ⟨reply.tree, htext ▸ says_text reply, ?_⟩
    refine .member (List.mem_cons_of_mem _ (List.mem_singleton_self _))
      (List.mem_cons_of_mem _ (List.mem_singleton_self _)) ?_
    exact .here (List.mem_singleton_self _) (by decide +kernel)
  exact ⟨by decide +kernel, hrepeated, (paths_agree _).refused hrepeated⟩

end ScriptHost
