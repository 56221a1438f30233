import ScriptHost.Debugging.Live
import ScriptHost.Proofs.Debugging.Operations
import ScriptHost.Proofs.Session.Inbound

/-! Runs of a bridge with its sessions, and what the effects of the bridge do to a session. Only a
client that is let in gets a callback; nothing else the bridge does reaches the inbound side. -/

namespace ScriptHost

/-- Only a client that was let in is followed. -/
theorem Bridge.follow_mem_apply {b : Bridge} (step : BridgeStep) {session : Nat}
    (h : .follow session ∈ (b.apply step).2) :
    step = .attach session true ∧ b.closed = false := by
  cases step with
  | attach other accepts =>
    simp only [Bridge.apply, attach] at h
    cases hclosed : b.closed with
    | true => simp [hclosed, event] at h
    | false =>
      cases accepts <;> cases hc : b.client <;>
        simp [hclosed, hc, event] at h <;> simp [h]
  | detach other =>
    simp only [Bridge.apply, detach] at h
    split at h <;> simp [event] at h
  | shutdown =>
    simp only [Bridge.apply, shutdown, close] at h
    cases hc : b.client <;> cases hs : b.stopped <;> simp [hc, hs, event] at h
  | route other text =>
    simp only [Bridge.apply, route] at h
    split at h
    · split at h <;> simp [event] at h
    · simp [event] at h
    · simp [event] at h
  | relay other message =>
    simp only [Bridge.apply, relay, learn] at h
    split at h <;> simp [event] at h
  | nativeDetached other => simp [Bridge.apply, nativeDetached, event] at h

namespace LiveBridge

open Session

variable {l : LiveBridge}

theorem run_append (l : LiveBridge) (first rest : List LiveStep) :
    l.run (first ++ rest) =
      (((l.run first).1.run rest).1, (l.run first).2 ++ ((l.run first).1.run rest).2) := by
  induction first generalizing l with
  | nil => rfl
  | cons step first ih => simp only [List.cons_append, run, ih, List.append_assoc]

theorem run_concat (l : LiveBridge) (steps : List LiveStep) (step : LiveStep) :
    l.run (steps ++ [step]) =
      (((l.run steps).1.apply step).1, (l.run steps).2 ++ ((l.run steps).1.apply step).2) := by
  rw [run_append]
  simp only [run, List.append_nil]

theorem bridge_performAll (l : LiveBridge) (effects : List Effect) :
    (l.performAll effects).bridge = l.bridge := by
  induction effects generalizing l with
  | nil => rfl
  | cons effect rest ih =>
    rw [performAll, List.foldl_cons]
    refine (ih _).trans ?_
    cases effect <;> rfl

theorem bridge_operate (l : LiveBridge) (f : Bridge → Bridge × List Effect) :
    (l.operate f).1.bridge = (f l.bridge).1 := bridge_performAll ..

theorem sessions_update (session : Nat) (f : Session Unit → Session Unit) (l : LiveBridge)
    (i : Nat) :
    (l.update session f).sessions i = if i = session then f (l.sessions i) else l.sessions i := rfl

section Relations

variable {R : Session Unit → Session Unit → Prop} {i : Nat} (hrefl : ∀ s, R s s)

include hrefl in
/-- How a session relates to what it becomes when another, or it, is changed. -/
theorem rel_update {f : Session Unit → Session Unit} {session : Nat}
    (h : i = session → R (l.sessions i) (f (l.sessions i))) :
    R (l.sessions i) ((l.update session f).sessions i) := by
  rw [sessions_update]
  split
  · next hi => exact h hi
  · exact hrefl _

include hrefl in
theorem rel_performAll (htrans : ∀ {s t u}, R s t → R t u → R s u) {effects : List Effect}
    (h : ∀ effect ∈ effects, ∀ l : LiveBridge, R (l.sessions i) ((l.perform effect).sessions i)) :
    R (l.sessions i) ((l.performAll effects).sessions i) := by
  induction effects generalizing l with
  | nil => exact hrefl _
  | cons effect rest ih =>
    have hrest := ih (l := l.perform effect) fun e he => h e (List.mem_cons_of_mem _ he)
    exact htrans (h effect List.mem_cons_self l) hrest

end Relations

theorem sameInbound_update {f : Session Unit → Session Unit} {session i : Nat}
    (h : i = session → SameInbound (l.sessions i) (f (l.sessions i))) :
    SameInbound (l.sessions i) ((l.update session f).sessions i) := rel_update .refl h

theorem sameInbound_perform {effect : Effect} {i : Nat} (h : .follow i ≠ effect) :
    SameInbound (l.sessions i) ((l.perform effect).sessions i) := by
  cases effect with
  | native call => exact .refl _
  | write session message => exact sameInbound_update fun _ => sameInbound_write ..
  | close session => exact sameInbound_update fun _ => sameInbound_close _
  | follow session => exact sameInbound_update fun hi => absurd (congrArg Effect.follow hi) h
  | report event => exact .refl _

/-- Effects that do not follow a session leave its inbound side alone. -/
theorem sameInbound_performAll {effects : List Effect} {i : Nat} (h : .follow i ∉ effects) :
    SameInbound (l.sessions i) ((l.performAll effects).sessions i) := by
  refine rel_performAll .refl .trans fun effect heffect l => sameInbound_perform ?_
  rintro rfl
  exact h heffect

theorem quiet_performAll {effects : List Effect} {i : Nat} (h : (l.sessions i).Quiet) :
    ((l.performAll effects).sessions i).Quiet := by
  induction effects generalizing l with
  | nil => exact h
  | cons effect rest ih =>
    refine ih (l := l.perform effect) ?_
    by_cases heffect : .follow i = effect
    · subst heffect
      simp only [perform, sessions_update, if_true]
      exact h
    · exact (sameInbound_perform heffect).quiet h

/-- An operation that does not follow a session engages it no more than it was. -/
theorem engaged_of_operate {f : Bridge → Bridge × List Effect} {i : Nat}
    (h : .follow i ∉ (f l.bridge).2) (hnext : ((l.operate f).1.sessions i).Engaged) :
    (l.sessions i).Engaged :=
  (sameInbound_performAll (l := { l with bridge := (f l.bridge).1 }) h).engaged hnext

end LiveBridge
end ScriptHost
