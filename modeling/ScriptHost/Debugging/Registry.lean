import ScriptHost.Lookup
import ScriptHost.Protocol.Frame

/-! Which script id belongs to which URL, and which source was evaluated there. Nothing is ever
removed; what is recorded last counts. -/

namespace ScriptHost

/-- Both tables hold the newest entry first. -/
structure ScriptRegistry where
  urls : List (ScriptId × String) := []
  sources : List (String × String) := []
deriving DecidableEq, Repr

namespace ScriptRegistry

def recordScript (r : ScriptRegistry) (id : ScriptId) (url : String) : ScriptRegistry :=
  { r with urls := (id, url) :: r.urls }

def recordSource (r : ScriptRegistry) (url source : String) : ScriptRegistry :=
  { r with sources := (url, source) :: r.sources }

def url? (r : ScriptRegistry) (id : ScriptId) : Option String := r.urls.lookup id

def source? (r : ScriptRegistry) (id : ScriptId) : Option String := do
  r.sources.lookup (← r.url? id)

theorem url?_recordScript (r : ScriptRegistry) (id other : ScriptId) (url : String) :
    (r.recordScript id url).url? other = if other = id then some url else r.url? other :=
  lookup_cons_eq_ite ..

@[simp] theorem url?_recordSource (r : ScriptRegistry) (id : ScriptId) (url source : String) :
    (r.recordSource url source).url? id = r.url? id := rfl

end ScriptRegistry
end ScriptHost
