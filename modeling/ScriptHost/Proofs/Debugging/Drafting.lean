import Mathlib.Data.List.Induction
import ScriptHost.Proofs.Debugging.Announcements
import ScriptHost.Proofs.Session.Queueing

/-! Two threads write to a client's session: the native debugger's, which passes its messages on, and
the session's dispatcher, which answers some of the client's frames. Each looks whether the session is
open before it writes, and everything may come between. What reaches the queue is what the two wrote,
merged and otherwise unchanged. -/

namespace ScriptHost

inductive Producer where
  | native
  | dispatcher
deriving DecidableEq, Repr

inductive Draft where
  | none
  | ready (message : String)
  /-- The session was open when the producer looked. -/
  | cleared (message : String)
deriving DecidableEq, Repr

def Draft.text? : Draft → Option String
  | .none => Option.none
  | .ready message => some message
  | .cleared message => some message

def ofProducer (p : Producer) (texts : List (Producer × String)) : List String :=
  (texts.filter (·.1 = p)).map Prod.snd

def LiveStep.mute : LiveStep → Bool
  | .relay .. | .route _ | .inside _ (.beginWrite _) => false
  | _ => true

/-- A bridge whose producers are in the middle of writes. -/
structure DraftingBridge where
  live : LiveBridge := {}
  drafts : Nat → Producer → Draft := fun _ _ => .none

inductive DraftingStep where
  | live (step : { step : LiveStep // step.mute })
  /-- The native debugger hands a message to the adapter of a session, which learns from it. -/
  | learn (session : Nat) (message : String)
  /-- The callback that runs on a session routes its frame. -/
  | answer (session : Nat)
  /-- A producer looks whether the session is open. -/
  | check (session : Nat) (producer : Producer)
  /-- Its text goes to the queue. -/
  | send (session : Nat) (producer : Producer)

def Bridge.reply? (b : Bridge) (session : Nat) (text : String) : Option String :=
  (replies (b.route session text)).head?.map Prod.snd

namespace DraftingBridge

variable (r : DraftingBridge)

def draft (session : Nat) (producer : Producer) (draft : Draft) : DraftingBridge :=
  { r with drafts := fun i p => if i = session ∧ p = producer then draft else r.drafts i p }

/-- A write is over. The dispatcher's callback returns. -/
def settle (session : Nat) (producer : Producer) : DraftingBridge :=
  match producer with
  | .native => r.draft session .native .none
  | .dispatcher =>
    { r.draft session .dispatcher .none with
      live := r.live.update session Session.callbackDone }

def frame? (session : Nat) : Option String :=
  if r.drafts session .dispatcher = .none then (r.live.sessions session).running.map Prod.snd
  else none

def apply : DraftingStep → DraftingBridge
  | .live step => { r with live := (r.live.apply step).1 }
  | .learn session message =>
    if r.drafts session .native = .none then
      { r.draft session .native (.ready message) with
        live := (r.live.operate (Bridge.learn message)).1 }
    else r
  | .answer session =>
    match r.frame? session with
    | none => r
    | some text =>
      match r.live.bridge.reply? session text with
      | none => r.settle session .dispatcher
      | some reply => r.draft session .dispatcher (.ready reply)
  | .check session producer =>
    match r.drafts session producer with
    | .ready message =>
      if (r.live.sessions session).isOpen then r.draft session producer (.cleared message)
      else r.settle session producer
    | _ => r
  | .send session producer =>
    match r.drafts session producer with
    | .cleared message =>
      { r with live := r.live.update session (Session.push (.text message)) }.settle session
        producer
    | _ => r

def run (r : DraftingBridge) : List DraftingStep → DraftingBridge
  | [] => r
  | step :: rest => (r.apply step).run rest

def made? (i : Nat) : DraftingStep → Option (Producer × String)
  | .learn session message =>
    if session = i ∧ r.drafts session .native = .none then some (.native, message) else none
  | .answer session =>
    if session = i then
      (r.frame? session).bind fun text =>
        (r.live.bridge.reply? session text).map (.dispatcher, ·)
    else none
  | _ => none

def sent? (i : Nat) : DraftingStep → Option (Producer × String)
  | .send session producer =>
    match r.drafts session producer with
    | .cleared message => if session = i then some (producer, message) else none
    | _ => none
  | _ => none

def collect (show? : DraftingBridge → DraftingStep → Option α) (r : DraftingBridge) :
    List DraftingStep → List α
  | [] => []
  | step :: rest => (show? r step).toList ++ collect show? (r.apply step) rest

end DraftingBridge

/-- What a step may do to a session and its drafts: it makes a text, or sends one to the queue, or
neither. -/
inductive DraftMove (s : Session Unit) (d : Producer → Draft) : Option (Producer × String) →
    Option (Producer × String) → Session Unit → (Producer → Draft) → Prop where
  | apart {t} (h : s.Proceeds t) : DraftMove s d none none t d
  | made {t p} {message : String} (hd : d p = .none) (h : s.Proceeds t) :
    DraftMove s d (some (p, message)) none t fun q => if q = p then .ready message else d q
  | cleared {p message} (hd : d p = .ready message) (hopen : s.isOpen = true) :
    DraftMove s d none none s fun q => if q = p then .cleared message else d q
  | dropped {t p message} (hd : d p = .ready message) (hclosing : s.isOpen = false)
    (h : s.Proceeds t) : DraftMove s d none none t fun q => if q = p then .none else d q
  | sent {t p message} (hd : d p = .cleared message)
    (h : (s.push (.text message)).Proceeds t) :
    DraftMove s d none (some (p, message)) t fun q => if q = p then .none else d q

theorem ofProducer_append (p : Producer) (a b : List (Producer × String)) :
    ofProducer p (a ++ b) = ofProducer p a ++ ofProducer p b := by
  simp [ofProducer]

theorem ofProducer_self (p : Producer) (message : String) : ofProducer p [(p, message)] = [message] := by
  simp [ofProducer]

theorem ofProducer_of_ne {p q : Producer} (h : q ≠ p) (message : String) :
    ofProducer q [(p, message)] = [] := by
  simp [ofProducer, Ne.symm h]

/-- Of each producer no more was sent than `bound` tells, nor will be. -/
structure Bounded (bound line : List (Producer × String)) (d : Producer → Draft) : Prop where
  within : ∀ p, ofProducer p line <+: ofProducer p bound
  cleared : ∀ p message, d p = .cleared message →
    ofProducer p line ++ [message] <+: ofProducer p bound

section Moves

variable {made line bound : List (Producer × String)} {s t : Session Unit} {d d' : Producer → Draft}
  {new out : Option (Producer × String)}

theorem DraftMove.of_eq (hdrafts : d' = d) (h : s.Proceeds t) : DraftMove s d none none t d' :=
  hdrafts ▸ .apart h

theorem DraftMove.isOpen (h : DraftMove s d new out t d') (ht : t.isOpen = true) :
    s.isOpen = true := by
  cases h with
  | apart hnext => exact hnext.isOpen ht
  | made _ hnext => exact hnext.isOpen ht
  | cleared _ hopen => exact hopen
  | dropped _ _ hnext => exact hnext.isOpen ht
  | sent _ hnext =>
    have hpush := hnext.isOpen ht
    rwa [Session.isOpen_push] at hpush

theorem Bounded.mono (h : Bounded bound line d) (more : List (Producer × String)) :
    Bounded (bound ++ more) line d where
  within p := by
    rw [ofProducer_append]
    exact (h.within p).trans (List.prefix_append ..)
  cleared p message hd := by
    rw [ofProducer_append]
    exact (h.cleared p message hd).trans (List.prefix_append ..)

/-- A change of one draft, to one that is cleared only if it may be sent. -/
theorem Bounded.draft (h : Bounded bound line d) {p : Producer} {w : Draft}
    (hw : ∀ message, w = .cleared message → ofProducer p line ++ [message] <+: ofProducer p bound) :
    Bounded bound line fun q => if q = p then w else d q where
  within := h.within
  cleared q message hd := by
    by_cases hq : q = p
    · subst hq
      exact hw message (by simpa using hd)
    · exact h.cleared q message (by simpa [hq] using hd)

theorem Bounded.send (h : Bounded bound line d) {p : Producer} {message : String}
    (hd : d p = .cleared message) :
    Bounded bound (line ++ [(p, message)]) fun q => if q = p then .none else d q where
  within q := by
    by_cases hq : q = p
    · subst hq
      rw [ofProducer_append, ofProducer_self]
      exact h.cleared q message hd
    · rw [ofProducer_append, ofProducer_of_ne hq, List.append_nil]
      exact h.within q
  cleared q other hother := by
    by_cases hq : q = p
    · simp [hq] at hother
    · rw [ofProducer_append, ofProducer_of_ne hq, List.append_nil]
      exact h.cleared q other (by simpa [hq] using hother)

end Moves

namespace LiveBridge

open Session

variable {l : LiveBridge} {i : Nat}

theorem proceeds_update {f : Session Unit → Session Unit} {session : Nat}
    (h : ∀ s, Proceeds s (f s)) :
    Proceeds (l.sessions i) ((l.update session f).sessions i) := rel_update .refl fun _ => h _

theorem proceeds_perform (l : LiveBridge) (i : Nat) {effect : Effect}
    (h : ∀ session message, effect ≠ .write session message) :
    Proceeds (l.sessions i) ((l.perform effect).sessions i) := by
  cases effect with
  | native call => exact .refl _
  | write session message => exact absurd rfl (h session message)
  | close session => exact proceeds_update proceeds_close
  | follow session =>
    exact proceeds_update fun s => proceeds_apply s (.setOnRead ()) (by simp)
  | report event => exact .refl _

theorem proceeds_performAll (l : LiveBridge) (i : Nat) {effects : List Effect}
    (h : replies effects = []) :
    Proceeds (l.sessions i) ((l.performAll effects).sessions i) := by
  refine rel_performAll .refl .trans fun effect heffect l => proceeds_perform l i ?_
  rintro session message rfl
  simp only [replies, List.filterMap_eq_nil_iff] at h
  simpa using h _ heffect

theorem proceeds_operate (l : LiveBridge) (i : Nat) {f : Bridge → Bridge × List Effect}
    (h : replies (f l.bridge).2 = []) :
    Proceeds (l.sessions i) ((l.operate f).1.sessions i) :=
  proceeds_performAll { l with bridge := (f l.bridge).1 } i h

end LiveBridge

namespace Bridge

/-- Of all operations only a route and a relay write to sessions. -/
theorem replies_apply (b : Bridge) {step : BridgeStep}
    (hroute : ∀ session text, step ≠ .route session text)
    (hrelay : ∀ session message, step ≠ .relay session message) :
    replies (b.apply step).2 = [] := by
  cases step with
  | attach session accepts =>
    simp only [apply, attach]
    cases b.closed <;> cases b.client <;> cases accepts <;> rfl
  | detach session =>
    simp only [apply, detach]
    split <;> rfl
  | shutdown =>
    simp only [apply, shutdown, close]
    cases b.stopped <;> cases b.client <;> rfl
  | route session text => exact absurd rfl (hroute session text)
  | relay session message => exact absurd rfl (hrelay session message)
  | nativeDetached session => rfl

end Bridge

/-- A step that writes nothing leaves to every session the texts that it has. -/
theorem LiveBridge.proceeds_apply (l : LiveBridge) (i : Nat) {step : LiveStep}
    (h : step.mute = true) : Session.Proceeds (l.sessions i) ((l.apply step).1.sessions i) := by
  have hoperate (act : BridgeStep) (hroute : ∀ session text, act ≠ .route session text)
      (hrelay : ∀ session message, act ≠ .relay session message) :
      Session.Proceeds (l.sessions i) ((l.operate (·.apply act)).1.sessions i) :=
    l.proceeds_operate i (l.bridge.replies_apply hroute hrelay)
  cases step with
  | attach session accepts => exact hoperate (.attach session accepts) (by simp) (by simp)
  | watch session =>
    simp only [apply]
    split
    · exact hoperate (.detach session) (by simp) (by simp)
    · exact .refl _
  | shutdown => exact hoperate .shutdown (by simp) (by simp)
  | inside session inner =>
    refine proceeds_update fun s => Session.proceeds_apply s inner ?_
    rintro message rfl
    cases h
  | route session => cases h
  | relay session message => cases h
  | nativeDetached session => exact hoperate (.nativeDetached session) (by simp) (by simp)
  | record url source => exact .refl _

namespace DraftingBridge

open Session

variable (r : DraftingBridge) (i : Nat)

end DraftingBridge
end ScriptHost
