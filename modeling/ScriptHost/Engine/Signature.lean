import ScriptHost.Wire.Record

/-! What names a script and what names an engine build. Compiled scripts are kept under both. -/

namespace ScriptHost

/-- A script by its URL and a version. There is no digest of the content: two sources under one
URL and version are one script. -/
structure ScriptSignature where
  url : String
  version : UInt64
deriving DecidableEq, Repr

namespace ScriptSignature

def text (s : ScriptSignature) : String := s!"{s.url}@{s.version.toNat}"

def wire : Wire ScriptSignature :=
  .record "ScriptSignature"
    (.cons { name := "url", wire := Wire.text } (.cons { name := "version", wire := Wire.word64 } .nil))
    (fun (url, version, _) => ⟨url, version⟩) fun s => (s.url, s.version, ())

end ScriptSignature

/-- An engine by its name and the version of its bytecode, which is valid for that build alone. -/
structure RuntimeSignature where
  runtime : String
  version : UInt32
deriving DecidableEq, Repr

namespace RuntimeSignature

def text (s : RuntimeSignature) : String := s!"{s.runtime}/{s.version.toNat}"

def wire : Wire RuntimeSignature :=
  .record "RuntimeSignature"
    (.cons { name := "runtime", wire := Wire.text }
      (.cons { name := "version", wire := Wire.word32 } .nil))
    (fun (runtime, version, _) => ⟨runtime, version⟩) fun s => (s.runtime, s.version, ())

end RuntimeSignature
end ScriptHost
