import ScriptHost.Session.Basic

/-! The inbound side of a session: what arrived, the callback and its run. Writing and closing leave
it alone, and a session that is closed has nothing on it any more. -/

namespace ScriptHost
namespace Session

/-- Two sessions with the same inbound side, both closed or both not. -/
structure SameInbound (s t : Session κ) : Prop where
  reader : t.reader = s.reader
  inbox : t.inbox = s.inbox
  callback : t.callback = s.callback
  running : t.running = s.running
  closed : t.state = .closed ↔ s.state = .closed

theorem SameInbound.refl (s : Session κ) : SameInbound s s := ⟨rfl, rfl, rfl, rfl, Iff.rfl⟩

theorem SameInbound.trans {s t u : Session κ} (h : SameInbound s t) (h' : SameInbound t u) :
    SameInbound s u :=
  ⟨h'.reader.trans h.reader, h'.inbox.trans h.inbox, h'.callback.trans h.callback,
    h'.running.trans h.running, h'.closed.trans h.closed⟩

variable {s t : Session κ}

theorem state_ne_closed_of_isOpen (h : s.isOpen = true) : s.state ≠ .closed := by
  intro hclosed
  simp [isOpen, hclosed, SessionState.rank] at h

theorem sameInbound_push (item : Outbound) (s : Session κ) : SameInbound s (s.push item) := by
  unfold push
  split
  · exact .refl s
  · exact ⟨rfl, rfl, rfl, rfl, Iff.rfl⟩

theorem sameInbound_closing (h : s.isOpen = true) :
    SameInbound s { s with state := .closing } :=
  ⟨rfl, rfl, rfl, rfl, by simp [state_ne_closed_of_isOpen h]⟩

theorem sameInbound_write (message : String) (s : Session κ) :
    SameInbound s (s.write message) := by
  unfold write
  split
  · exact sameInbound_push _ s
  · exact .refl s

theorem sameInbound_close (s : Session κ) : SameInbound s s.close := by
  unfold close
  split
  · next h => exact (sameInbound_closing h).trans (sameInbound_push _ _)
  · exact .refl s

theorem sameInbound_beginWrite (message : String) (s : Session κ) :
    SameInbound s (s.beginWrite message) := by
  unfold beginWrite
  split <;> exact ⟨rfl, rfl, rfl, rfl, Iff.rfl⟩

theorem sameInbound_beginClose (s : Session κ) : SameInbound s s.beginClose := by
  unfold beginClose
  split
  · next h => exact ⟨rfl, rfl, rfl, rfl, (sameInbound_closing h).closed⟩
  · exact .refl s

theorem sameInbound_commit (i : Nat) (s : Session κ) : SameInbound s (s.commit i) := by
  unfold commit
  split
  · exact .refl s
  · next item _ =>
    exact (⟨rfl, rfl, rfl, rfl, Iff.rfl⟩ : SameInbound s { s with pending := s.pending.eraseIdx i })
      |>.trans (sameInbound_push item _)

theorem sameInbound_batch (n : Nat) (s : Session κ) : SameInbound s (s.batch n) := by
  unfold batch
  split
  · dsimp only
    split <;> exact ⟨rfl, rfl, rfl, rfl, Iff.rfl⟩
  · exact .refl s

theorem sameInbound_breakWriter (s : Session κ) : SameInbound s s.breakWriter := by
  unfold breakWriter
  split <;> exact ⟨rfl, rfl, rfl, rfl, Iff.rfl⟩

theorem sameInbound_windUp (s : Session κ) : SameInbound s s.windUp := by
  unfold windUp
  split
  · exact sameInbound_beginClose s
  · exact .refl s

/-- Once a session is closed its reader has ended and everything that arrived was handed on. -/
def Quiet (s : Session κ) : Prop :=
  s.state = .closed → s.reader = .ended ∧ s.inbox = [] ∧ s.running = none

def Engaged (s : Session κ) : Prop :=
  s.state ≠ .closed ∧ (s.callback ≠ none ∨ s.running ≠ none)

theorem SameInbound.quiet (h : SameInbound s t) (hs : s.Quiet) : t.Quiet := by
  intro hclosed
  rw [h.reader, h.inbox, h.running]
  exact hs (h.closed.1 hclosed)

theorem SameInbound.engaged (h : SameInbound s t) (ht : t.Engaged) : s.Engaged := by
  obtain ⟨hopen, htask⟩ := ht
  rw [h.callback, h.running] at htask
  exact ⟨fun hclosed => hopen (h.closed.2 hclosed), htask⟩

theorem Quiet.not_closed_of_running (h : s.Quiet) (hrun : s.running ≠ none) :
    s.state ≠ .closed :=
  fun hclosed => hrun (h hclosed).2.2

/-- A turn of the dispatcher takes a message off the inbox, and may run the callback with it. -/
theorem dispatch_cases (s : Session κ) :
    s.dispatch.1 = s ∨ ∃ message rest, s.running = none ∧ s.inbox = message :: rest ∧
      (s.dispatch.1 = { s with inbox := rest } ∨ ∃ k, s.callback = some k ∧
        s.dispatch.1 = { s with inbox := rest, running := some (k, message) }) := by
  unfold dispatch
  split
  · next message rest hrun hinbox =>
    refine Or.inr ⟨message, rest, hrun, hinbox, ?_⟩
    dsimp only
    split
    · exact Or.inl rfl
    · split
      · exact Or.inl rfl
      · next k hk => exact Or.inr ⟨k, hk, rfl⟩
  · exact Or.inl rfl

/-- A frame extends the inbox or ends the reader; only a running reader takes one. -/
theorem receive_cases (frame : Frame) (s : Session κ) :
    SameInbound s (s.receive frame).1 ∨ s.reader = .running ∧
      ((∃ message, (s.receive frame).1 = { s with inbox := s.inbox ++ [message] }) ∨
        (s.receive frame).1 = { s with reader := .ended }) := by
  unfold receive
  split
  · next hreader =>
    cases frame with
    | text message => exact Or.inr ⟨hreader, Or.inl ⟨message, rfl⟩⟩
    | binary payload =>
      dsimp only
      split
      · next message _ => exact Or.inr ⟨hreader, Or.inl ⟨message, rfl⟩⟩
      · exact Or.inl (.refl s)
    | ping payload =>
      dsimp only
      split
      · exact Or.inl (.refl s)
      · exact Or.inl ⟨rfl, rfl, rfl, rfl, Iff.rfl⟩
    | pong payload => exact Or.inl (.refl s)
    | close => exact Or.inr ⟨hreader, Or.inr rfl⟩
    | failure => exact Or.inr ⟨hreader, Or.inr rfl⟩
  · exact Or.inl (.refl s)

theorem Quiet.start (h : s.Quiet) : s.start.Quiet := by
  unfold Session.start
  split
  · next hidle =>
    intro hclosed
    have : s.state = .closed := by
      dsimp only at hclosed
      split at hclosed
      · cases hclosed
      · exact hclosed
    rw [(h this).1] at hidle
    cases hidle.1
  · exact h

theorem Quiet.receive (h : s.Quiet) (frame : Frame) : (s.receive frame).1.Quiet := by
  rcases receive_cases frame s with hsame | ⟨hreader, hresult⟩
  · exact hsame.quiet h
  · have hopen : s.state ≠ .closed := by
      intro hclosed
      rw [(h hclosed).1] at hreader
      cases hreader
    rcases hresult with ⟨message, hnext⟩ | hnext
    · rw [hnext]
      exact fun hclosed => absurd hclosed hopen
    · rw [hnext]
      exact fun hclosed => absurd hclosed hopen

theorem Quiet.dispatch (h : s.Quiet) : s.dispatch.1.Quiet := by
  rcases dispatch_cases s with hnext | ⟨message, rest, -, hinbox, hresult⟩
  · rwa [hnext]
  · have hopen : s.state ≠ .closed := by
      intro hclosed
      rw [(h hclosed).2.1] at hinbox
      cases hinbox
    rcases hresult with hnext | ⟨k, -, hnext⟩
    · rw [hnext]
      exact fun hclosed => absurd hclosed hopen
    · rw [hnext]
      exact fun hclosed => absurd hclosed hopen

theorem Quiet.finish (h : s.Quiet) : s.finish.Quiet := by
  unfold Session.finish
  split
  · next hdone =>
    intro _
    obtain ⟨hdrained, -⟩ := hdone
    simp only [drained, Bool.and_eq_true, decide_eq_true_eq, List.isEmpty_iff,
      Option.isNone_iff_eq_none] at hdrained
    obtain ⟨⟨⟨hreader, -⟩, hinbox⟩, hrun⟩ := hdrained
    exact ⟨hreader, hinbox, hrun⟩
  · exact h

/-- Every step of a session keeps it quiet once closed. -/
theorem Quiet.apply (h : s.Quiet) (step : SessionStep κ) : (s.apply step).1.Quiet := by
  cases step with
  | beginWrite message => exact (sameInbound_beginWrite message s).quiet h
  | beginClose => exact (sameInbound_beginClose s).quiet h
  | commit i => exact (sameInbound_commit i s).quiet h
  | start => exact h.start
  | abandon =>
    simp only [Session.apply, abandon]
    split
    · exact fun hclosed => ⟨rfl, (h hclosed).2⟩
    · exact h
  | batch n => exact (sameInbound_batch n s).quiet h
  | breakWriter => exact (sameInbound_breakWriter s).quiet h
  | receive frame => exact h.receive frame
  | windUp => exact (sameInbound_windUp s).quiet h
  | dispatch => exact h.dispatch
  | callbackDone => exact fun hclosed => ⟨(h hclosed).1, (h hclosed).2.1, rfl⟩
  | setOnRead k => exact h
  | clearOnRead => exact h
  | finish => exact h.finish

/-- Nothing but an installation engages a session. -/
theorem engaged_of_apply (h : s.Quiet) {step : SessionStep κ} (hstep : ∀ k, step ≠ .setOnRead k)
    (hnext : (s.apply step).1.Engaged) : s.Engaged := by
  cases step with
  | beginWrite message => exact (sameInbound_beginWrite message s).engaged hnext
  | beginClose => exact (sameInbound_beginClose s).engaged hnext
  | commit i => exact (sameInbound_commit i s).engaged hnext
  | start =>
    simp only [Session.apply, start] at hnext
    split at hnext
    · next hidle =>
      refine ⟨fun hclosed => ?_, hnext.2⟩
      rw [(h hclosed).1] at hidle
      cases hidle.1
    · exact hnext
  | abandon =>
    simp only [Session.apply, abandon] at hnext
    split at hnext
    · exact hnext
    · exact hnext
  | batch n => exact (sameInbound_batch n s).engaged hnext
  | breakWriter => exact (sameInbound_breakWriter s).engaged hnext
  | receive frame =>
    rcases receive_cases frame s with hsame | ⟨-, ⟨message, hresult⟩ | hresult⟩
    · exact hsame.engaged hnext
    · simp only [Session.apply, hresult] at hnext
      exact hnext
    · simp only [Session.apply, hresult] at hnext
      exact hnext
  | windUp => exact (sameInbound_windUp s).engaged hnext
  | dispatch =>
    rcases dispatch_cases s with hresult | ⟨message, rest, -, -, hresult | ⟨k, hk, hresult⟩⟩
    · simpa only [Session.apply, hresult] using hnext
    · simp only [Session.apply, hresult] at hnext
      exact hnext
    · simp only [Session.apply, hresult] at hnext
      exact ⟨hnext.1, Or.inl (by simp [hk])⟩
  | callbackDone => exact ⟨hnext.1, hnext.2.imp_right fun hrun => absurd rfl hrun⟩
  | setOnRead k => exact absurd rfl (hstep k)
  | clearOnRead => exact ⟨hnext.1, hnext.2.imp_left fun hcallback => absurd rfl hcallback⟩
  | finish =>
    simp only [Session.apply, finish] at hnext
    split at hnext
    · exact absurd rfl hnext.1
    · exact hnext

end Session
end ScriptHost
