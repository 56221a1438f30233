import ScriptHost.Proofs.Prepared.Host
import ScriptHost.Proofs.Prepared.Passage

/-! Runtimes with a cache each, which may share their stores. How the outside answers is given with
each evaluation: whether its lookup or its write fails, and what the compiler makes of a text. -/

namespace ScriptHost

namespace CacheHost

theorem storePart_set_self (i : Nat) (h : CacheHost γ κ) :
    (storePart i).set (h.stores i) h = h := by
  have hstores : (fun j => if j = i then h.stores i else h.stores j) = h.stores := by
    funext j
    split
    · next hj => rw [hj]
    · rfl
  simp only [storePart, hstores]

end CacheHost

/-- How the outside answers during an evaluation. -/
structure Given where
  getFault : Option StoreError := none
  putFault : Option Fault := none
  compiled : String → String → Except CompileError Bytes

namespace Given

def found (given : Given) (entry : Option StoredScript) : Except StoreError (Option Bytes) :=
  match given.getFault with
  | some e => .error e
  | none => .ok (entry.map (·.bytes))

def lands (given : Given) : Bool := given.putFault.all (·.late)

def store (given : Given) (i : Nat) : ScriptStore (CacheHost γ Unit) where
  get script runtime purpose := fun h =>
    match given.getFault with
    | some e => (.error e, h)
    | none => (CacheHost.storePart i).run (MemoryStore.store.get script runtime purpose) h
  put bytes script runtime provenance := fun h =>
    let written :=
      (CacheHost.storePart i).run (MemoryStore.store.put bytes script runtime provenance) h
    match given.putFault with
    | some fault => (.error fault.error, if fault.late then written.2 else h)
    | none => written

variable (given : Given) (i : Nat) (script : ScriptSignature) (runtime : RuntimeSignature)
  (h : CacheHost γ Unit)

theorem get_eq (purpose : String) :
    (given.store i).get script runtime purpose h =
      (given.found ((h.stores i).find? ⟨script, runtime⟩), h) := by
  simp only [store, found]
  cases given.getFault with
  | some e => rfl
  | none => exact congrArg (Prod.mk _) (CacheHost.storePart_set_self i h)

theorem put_snd (bytes : Bytes) (provenance : String) :
    ((given.store i).put bytes script runtime provenance h).2 =
      (CacheHost.storePart i).set
        (if given.lands then (h.stores i).put ⟨script, runtime⟩ ⟨bytes, provenance⟩
          else h.stores i) h := by
  obtain ⟨getFault, putFault, compiled⟩ := given
  cases putFault with
  | none => rfl
  | some fault =>
    obtain ⟨error, late⟩ := fault
    cases late with
    | true => rfl
    | false => exact (CacheHost.storePart_set_self i h).symm

end Given

structure Place where
  store : Nat
  key : StoreKey
deriving DecidableEq, Repr

structure Tenant (γ V E : Type) where
  engine : Engine γ V E
  store : Nat
  scriptVersion : UInt64 := defaultScriptVersion

namespace Tenant

variable (tenant : Tenant γ V E) (given : Given)

def place (url : String) : Place :=
  ⟨tenant.store, ⟨url, tenant.scriptVersion⟩, tenant.engine.signature⟩

def cache : PreparedCache (CacheHost γ Unit) where
  compiler := ⟨fun text url => return given.compiled text url⟩
  store := some (given.store tenant.store)
  scriptVersion := tenant.scriptVersion

/-- The way of an evaluation, where the entry of its place is known. -/
def way (source : Bytes) (url : String) (entry : Option StoredScript) : Passage :=
  .choose tenant.engine.isBytecode source (given.found entry) fun text => given.compiled text url

variable {tenant given}

theorem passage_eq (source : Bytes) (url : String) (h : CacheHost γ Unit) :
    (tenant.cache given).passage (CacheHost.enginePart.engine tenant.engine)
        (given.store tenant.store) source url h =
      tenant.way given source url ((h.stores tenant.store).find? (tenant.place url).key) :=
  congrArg (fun got : Except StoreError (Option Bytes) × CacheHost γ Unit =>
    Passage.choose tenant.engine.isBytecode source got.1 fun text => given.compiled text url)
    (given.get_eq ..)

/-- At most the entry of the place has changed. -/
theorem settled_eq (source : Bytes) (url : String) (h : CacheHost γ Unit) :
    (tenant.cache given).settled (CacheHost.enginePart.engine tenant.engine)
        (given.store tenant.store) source url h =
      (CacheHost.storePart tenant.store).set
        (if given.lands then
          (tenant.way given source url
            ((h.stores tenant.store).find? (tenant.place url).key)).kept (tenant.place url).key
              (h.stores tenant.store)
          else h.stores tenant.store) h := by
  rw [PreparedCache.settled, passage_eq]
  cases tenant.way given source url ((h.stores tenant.store).find? (tenant.place url).key) with
  | made text artifact =>
    simp only [Passage.calls, List.foldl, OutsideCall.effect, Given.get_eq]
    exact Given.put_snd ..
  | straight => simp [Passage.calls, Passage.kept, CacheHost.storePart_set_self]
  | hit | unreadable =>
    simp only [Passage.calls, List.foldl, OutsideCall.effect, Given.get_eq, Passage.kept, ite_self,
      CacheHost.storePart_set_self]
  | refused text =>
    simp only [Passage.calls, List.foldl, OutsideCall.effect, Given.get_eq, Passage.kept, ite_self,
      CacheHost.storePart_set_self]
    rfl

end Tenant

/-- The steps of runtimes `ι` and of whoever removes entries. -/
inductive SharedStep (ι : Type) where
  | evaluate (runtime : ι) (source : Bytes) (url : String) (given : Given)
  | invalidate (store : Nat) (url : String)
  | clear (store : Nat)

structure Observation (ι V E : Type) where
  runtime : ι
  place : Place
  calls : List OutsideCall
  answer : Except E V

namespace SharedStep

variable (tenants : ι → Tenant γ V E)

def act : SharedStep ι → Act (CacheHost γ Unit) (List (Observation ι V E))
  | .evaluate runtime source url given => do
    let tenant := tenants runtime
    let recorded := ((tenant.cache given).recorded id).runtime
      ((CacheHost.enginePart.engine tenant.engine).recorded id)
    let (answer, calls) ← (recorded.evaluate source url).observe
    return [⟨runtime, tenant.place url, calls, answer⟩]
  | .invalidate store url => do
    let _ ← (CacheHost.storePart store).act (MemoryStore.invalidate url)
    return []
  | .clear store => do
    Act.call ((CacheHost.storePart store).run fun _ => ((), .empty))
    return []

def observations : List (SharedStep ι) → Act (CacheHost γ Unit) (List (Observation ι V E))
  | [] => return []
  | step :: rest => do return (← step.act tenants) ++ (← observations rest)

theorem act_evaluate (runtime : ι) (source : Bytes) (url : String) (given : Given)
    (w : World (CacheHost γ Unit)) :
    let tenant := tenants runtime
    let place := tenant.place url
    let kept := w.outside.stores place.store
    let way := tenant.way given source url (kept.find? place.key)
    let ran := tenant.engine.evaluate (way.bytes source) url w.outside.engine
    let did := act tenants (.evaluate runtime source url given) w
    did.1 = [⟨runtime, place,
      way.calls place.key.script place.key.runtime ++ [.evaluate (way.bytes source) url], ran.1⟩] ∧
    did.2.outside = CacheHost.enginePart.set ran.2 ((CacheHost.storePart place.store).set
      (if given.lands then way.kept place.key kept else kept) w.outside) := by
  have hspec := PreparedCache.observe_spec
    (CacheHost.enginePart.engine (tenants runtime).engine) id
    (rfl : ((tenants runtime).cache given).store = some (given.store (tenants runtime).store))
    source url w
  rw [Tenant.settled_eq, Tenant.passage_eq] at hspec
  obtain ⟨hanswer, hcalls, houtside⟩ := hspec
  rw [List.map_id] at hcalls
  refine ⟨?_, houtside⟩
  exact (congr (congrArg (fun calls answer => [Observation.mk runtime _ calls answer]) hcalls)
    hanswer : _)

end SharedStep
end ScriptHost
