import ScriptHost.Engine.Basic
import ScriptHost.Lookup

/-! Where prepared scripts are kept: what any store offers, and the store that keeps them in
memory. A purpose or a provenance says why a call is made; neither is part of the key. -/

namespace ScriptHost

inductive StoreError where
  | io (reason : String)
  | unavailable (reason : String)
deriving DecidableEq, Repr

def StoreError.message : StoreError → String
  | .io reason => s!"script store I/O error: {reason}"
  | .unavailable reason => s!"script store unavailable: {reason}"

structure ScriptStore (σ : Type) where
  get : ScriptSignature → RuntimeSignature → String → StateM σ (Except StoreError (Option Bytes))
  put : Bytes → ScriptSignature → RuntimeSignature → String → StateM σ (Except StoreError Unit)

structure StoreKey where
  script : ScriptSignature
  runtime : RuntimeSignature
deriving DecidableEq, Repr

structure StoredScript where
  bytes : Bytes
  provenance : String
deriving DecidableEq, Repr

structure MemoryStore where
  entries : List (StoreKey × StoredScript)
  distinct : (entries.map Prod.fst).Nodup

namespace MemoryStore

def empty : MemoryStore := ⟨[], by simp⟩

instance : Inhabited MemoryStore := ⟨empty⟩

theorem nodup_filter {entries : List (StoreKey × StoredScript)}
    (h : (entries.map Prod.fst).Nodup) (p : StoreKey × StoredScript → Bool) :
    ((entries.filter p).map Prod.fst).Nodup :=
  h.sublist (List.filter_sublist.map _)

def find? (s : MemoryStore) (key : StoreKey) : Option StoredScript := s.entries.lookup key

def put (s : MemoryStore) (key : StoreKey) (stored : StoredScript) : MemoryStore where
  entries := (key, stored) :: s.entries.filter (·.1 ≠ key)
  distinct := by
    simp only [List.map_cons, List.nodup_cons]
    exact ⟨by simp, nodup_filter s.distinct _⟩

def without (s : MemoryStore) (url : String) : MemoryStore where
  entries := s.entries.filter (·.1.script.url ≠ url)
  distinct := nodup_filter s.distinct _

@[simp] theorem find?_empty (key : StoreKey) : empty.find? key = none := rfl

theorem find?_put (s : MemoryStore) (key other : StoreKey) (stored : StoredScript) :
    (s.put key stored).find? other = if other = key then some stored else s.find? other := by
  have hf := lookup_filter_fst (fun k => k ≠ key) other s.entries
  by_cases h : other = key <;> simp_all [find?, put, lookup_cons_eq_ite]

theorem find?_without (s : MemoryStore) (url : String) (key : StoreKey) :
    (s.without url).find? key = if key.script.url = url then none else s.find? key := by
  have hf := lookup_filter_fst (fun k => k.script.url ≠ url) key s.entries
  simp only [find?, without, hf]
  by_cases h : key.script.url = url <;> simp [h]

def size (s : MemoryStore) : Nat := s.entries.length

def isEmpty (s : MemoryStore) : Bool := s.entries.isEmpty

def provenance? (s : MemoryStore) (key : StoreKey) : Option String :=
  (s.find? key).map (·.provenance)

/-- Drops every entry of a URL, of all versions and engine builds, and says how many. -/
def invalidate (url : String) : Act MemoryStore Nat := fun w =>
  let after := w.outside.without url
  let removed := w.outside.size - after.size
  let event : Event :=
    { topic := .cache, level := .debug, message := "invalidated prepared scripts",
      fields := [("removed", toString removed), ("url", url)] }
  (removed, ⟨after, w.log ++ [event]⟩)

/-- The store as caches use it; it never fails. -/
def store : ScriptStore MemoryStore where
  get script runtime _ := fun s => (.ok ((s.find? ⟨script, runtime⟩).map (·.bytes)), s)
  put bytes script runtime provenance := fun s =>
    (.ok (), s.put ⟨script, runtime⟩ ⟨bytes, provenance⟩)

end MemoryStore
end ScriptHost
