import ScriptHost.Engine.Basic

/-! The outside is made of parts. An engine, a compiler or a bridge has a part of its own and leaves
the rest alone; what acts on a part acts on the whole outside by way of it. -/

namespace ScriptHost

namespace Act

theorem bind_apply (act : Act σ α) (next : α → Act σ β) (w : World σ) :
    (act >>= next) w = next (act w).1 (act w).2 := rfl

theorem call_bind (f : StateM σ α) (g : α → Act σ β) (w : World σ) :
    (call f >>= g) w = g (f w.outside).1 ⟨(f w.outside).2, w.log⟩ := rfl

theorem report_bind (e : Event) (g : Unit → Act σ β) (w : World σ) :
    (report e >>= g) w = g () ⟨w.outside, w.log ++ [e]⟩ := rfl

/-- From an outside that meets `I` the act leads to one, and its result meets `Q`. -/
def Keeps (I : σ → Prop) (act : Act σ α) (Q : α → Prop) : Prop :=
  ∀ w : World σ, I w.outside → I (act w).2.outside ∧ Q (act w).1

variable {I : σ → Prop} {Q : α → Prop} {R : β → Prop}

theorem Keeps.pure {a : α} (h : Q a) : Keeps I (Pure.pure a : Act σ α) Q := fun _ hw => ⟨hw, h⟩

theorem Keeps.report (e : Event) : Keeps I (report e) fun _ => True := fun _ hw => ⟨hw, trivial⟩

theorem Keeps.call {f : StateM σ α} (h : ∀ s, I s → I (f s).2 ∧ Q (f s).1) : Keeps I (call f) Q :=
  fun w hw => h w.outside hw

theorem Keeps.bind {act : Act σ α} {next : α → Act σ β} (h : Keeps I act Q)
    (hnext : ∀ a, Q a → Keeps I (next a) R) : Keeps I (act >>= next) R := fun w hw =>
  have ⟨hw', ha⟩ := h w hw
  hnext _ ha _ hw'

end Act

/-- A place in `σ` where a `τ` stands. -/
structure Part (σ τ : Type) where
  get : σ → τ
  set : τ → σ → σ
  get_set : ∀ t s, get (set t s) = t

namespace Part

def fst : Part (τ × υ) τ := ⟨Prod.fst, fun t s => (t, s.2), fun _ _ => rfl⟩

def snd : Part (τ × υ) υ := ⟨Prod.snd, fun u s => (s.1, u), fun _ _ => rfl⟩

def run (p : Part σ τ) (f : StateM τ α) : StateM σ α := fun s =>
  ((f (p.get s)).1, p.set (f (p.get s)).2 s)

def act (p : Part σ τ) (f : Act τ α) : Act σ α := fun w =>
  let (a, v) := f ⟨p.get w.outside, w.log⟩
  (a, ⟨p.set v.outside w.outside, v.log⟩)

def engine (p : Part σ τ) (e : Engine τ V E) : Engine σ V E where
  signature := e.signature
  isBytecode := e.isBytecode
  undefined := e.undefined
  evaluate source url := p.run (e.evaluate source url)
  debugEvaluate source url flags := p.run (e.debugEvaluate source url flags)
  setPauseOnLoad on := p.run (e.setPauseOnLoad on)
  connectDebugger := p.run e.connectDebugger

end Part
end ScriptHost
