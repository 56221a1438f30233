import ScriptHost.Proofs.Prepared.Preparation

/-! A chain of caches together with what it works on: an engine and compilers that have states of
their own, and stores in memory whose calls may fail at any time. Between evaluations entries may
be removed from the stores. -/

namespace ScriptHost

/-- How a call on a store fails. A write that fails late was made all the same. -/
structure Fault where
  error : StoreError
  late : Bool := false
deriving DecidableEq, Repr

structure CacheHost (γ κ : Type) where
  engine : γ
  compiling : κ
  stores : Nat → MemoryStore := fun _ => .empty
  calls : Nat := 0

namespace CacheHost

def enginePart : Part (CacheHost γ κ) γ :=
  ⟨engine, fun g h => { h with engine := g }, fun _ _ => rfl⟩

def compilerPart : Part (CacheHost γ κ) κ :=
  ⟨compiling, fun k h => { h with compiling := k }, fun _ _ => rfl⟩

def storePart (i : Nat) : Part (CacheHost γ κ) MemoryStore :=
  ⟨fun h => h.stores i, fun s h => { h with stores := fun j => if j = i then s else h.stores j },
    fun _ _ => if_pos rfl⟩

/-- The `i`-th store. The `n`-th call on the stores fails if `faults n` says so. -/
def faultyStore (faults : Nat → Option Fault) (i : Nat) : ScriptStore (CacheHost γ κ) where
  get script runtime purpose := fun h =>
    let next := { h with calls := h.calls + 1 }
    match faults h.calls with
    | some fault => (.error fault.error, next)
    | none => (storePart i).run (MemoryStore.store.get script runtime purpose) next
  put bytes script runtime provenance := fun h =>
    let next := { h with calls := h.calls + 1 }
    let written := (storePart i).run (MemoryStore.store.put bytes script runtime provenance) next
    match faults h.calls with
    | some fault => (.error fault.error, if fault.late then written.2 else next)
    | none => written

end CacheHost

structure CacheSpec (κ : Type) where
  compiler : Compiler κ
  store : Option Nat
  scriptVersion : UInt64 := defaultScriptVersion

def CacheSpec.cache (faults : Nat → Option Fault) (c : CacheSpec κ) :
    PreparedCache (CacheHost γ κ) where
  compiler := ⟨fun text url => CacheHost.compilerPart.run (c.compiler.compile text url)⟩
  store := c.store.map (CacheHost.faultyStore faults)
  scriptVersion := c.scriptVersion

def cachedRuntime (engine : Engine γ V E) (specs : List (CacheSpec κ))
    (faults : Nat → Option Fault) : Runtime (CacheHost γ κ) V E :=
  ⟨CacheHost.enginePart.engine engine, (specs.map (CacheSpec.cache faults)).map PreparedCache.link⟩

inductive CacheStep where
  | evaluate (source : Bytes) (url : String)
  | invalidate (store : Nat) (url : String)
  | clear (store : Nat)
deriving DecidableEq, Repr

namespace CacheStep

def act (r : Runtime (CacheHost γ κ) V E) : CacheStep → Act (CacheHost γ κ) (List (Except E V))
  | .evaluate source url => do return [← r.evaluate source url]
  | .invalidate store url => do
    let _ ← (CacheHost.storePart store).act (MemoryStore.invalidate url)
    return []
  | .clear store => do
    Act.call ((CacheHost.storePart store).run fun _ => ((), .empty))
    return []

def answers (r : Runtime (CacheHost γ κ) V E) :
    List CacheStep → Act (CacheHost γ κ) (List (Except E V))
  | [] => return []
  | step :: rest => do return (← step.act r) ++ (← answers r rest)

def input? : CacheStep → Option (Bytes × String)
  | .evaluate source url => some (source, url)
  | _ => none

end CacheStep

namespace CacheHost

def Holds (P : StoreKey → StoredScript → Prop) (h : CacheHost γ κ) : Prop :=
  ∀ i key stored, (h.stores i).find? key = some stored → P key stored

variable {P : StoreKey → StoredScript → Prop} {h : CacheHost γ κ}

theorem holds_empty {g : γ} {k : κ} :
    Holds P ({ engine := g, compiling := k } : CacheHost γ κ) := by
  intro i key stored hfound
  simp at hfound

theorem Holds.set (hP : h.Holds P) {i : Nat} {s : MemoryStore}
    (hs : ∀ key stored, s.find? key = some stored → P key stored) :
    ((storePart i).set s h).Holds P := by
  intro j key stored hfound
  simp only [storePart] at hfound
  split at hfound
  · exact hs key stored hfound
  · exact hP j key stored hfound

theorem Holds.put (hP : h.Holds P) (i : Nat) {key : StoreKey} {stored : StoredScript}
    (hstored : P key stored) : ((storePart i).set ((h.stores i).put key stored) h).Holds P := by
  refine hP.set fun other found hfound => ?_
  rw [MemoryStore.find?_put] at hfound
  split at hfound
  · next hkey =>
    cases hfound
    exact hkey ▸ hstored
  · exact hP i other found hfound

theorem Holds.without (hP : h.Holds P) (i : Nat) (url : String) :
    ((storePart i).set ((h.stores i).without url) h).Holds P := by
  refine hP.set fun key found hfound => ?_
  rw [MemoryStore.find?_without] at hfound
  split at hfound
  · cases hfound
  · exact hP i key found hfound

theorem Holds.clear (hP : h.Holds P) (i : Nat) : ((storePart i).set .empty h).Holds P :=
  hP.set fun key found hfound => by simp at hfound

variable {faults : Nat → Option Fault} {i : Nat} {script : ScriptSignature}
  {runtime : RuntimeSignature} {tag : String}

theorem Holds.faulty_get (hP : h.Holds P) :
    ((faultyStore faults i).get script runtime tag h).2.Holds P ∧
      ((faultyStore faults i).get script runtime tag h).2.engine = h.engine ∧
      ∀ kept, ((faultyStore faults i).get script runtime tag h).1 = .ok (some kept) →
        ∃ provenance, P ⟨script, runtime⟩ ⟨kept, provenance⟩ := by
  simp only [faultyStore]
  cases faults h.calls with
  | some fault => exact ⟨hP, rfl, nofun⟩
  | none =>
    refine ⟨hP.set (hP i), rfl, fun kept hkept => ?_⟩
    obtain ⟨⟨bytes, provenance⟩, hfound, rfl⟩ := Option.map_eq_some_iff.1 (Except.ok.inj hkept)
    exact ⟨provenance, hP i _ _ hfound⟩

theorem Holds.faulty_put (hP : h.Holds P) {bytes : Bytes}
    (hbytes : P ⟨script, runtime⟩ ⟨bytes, tag⟩) :
    ((faultyStore faults i).put bytes script runtime tag h).2.Holds P ∧
      ((faultyStore faults i).put bytes script runtime tag h).2.engine = h.engine := by
  simp only [faultyStore]
  cases faults h.calls with
  | some fault =>
    dsimp only
    split
    · exact ⟨hP.put i hbytes, rfl⟩
    · exact ⟨hP, rfl⟩
  | none => exact ⟨hP.put i hbytes, rfl⟩

end CacheHost
end ScriptHost
