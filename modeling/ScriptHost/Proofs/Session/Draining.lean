import ScriptHost.Proofs.Session.Delivery
import ScriptHost.Proofs.Session.Outbound

/-! How a session ends. It is closed only after both directions have ended and the dispatcher has
got through the inbox, so what was received is never lost on the way out; and a session that is
closed is silent. -/

namespace ScriptHost
namespace Session

variable {s : Session κ}

theorem state_eq_closed_of_rank (h : SessionState.closed.rank ≤ s.state.rank) :
    s.state = .closed := by
  cases hstate : s.state <;> simp [hstate, SessionState.rank] at h ⊢

theorem closed_run (h : s.state = .closed) (steps : List (SessionStep κ)) :
    (s.run steps).1.state = .closed :=
  state_eq_closed_of_rank (h ▸ rank_le_run s steps)

/-- A closed session has nothing left that a step could tell of. -/
theorem notes_of_closed (hquiet : s.Quiet) (h : s.state = .closed) (step : SessionStep κ) :
    (s.apply step).2 = [] := by
  obtain ⟨hreader, hinbox, hrun⟩ := hquiet h
  cases step with
  | receive frame => simp [apply, receive, hreader]
  | dispatch => simp [apply, dispatch, hinbox, hrun]
  | _ => rfl

theorem notes_run_closed (hquiet : s.Quiet) (h : s.state = .closed)
    (steps : List (SessionStep κ)) : (s.run steps).2 = [] := by
  induction steps generalizing s with
  | nil => rfl
  | cons step rest ih =>
    have hrest := ih (hquiet.apply step) (closed_run h [step])
    simp only [run, notes_of_closed hquiet h step, hrest, List.append_nil]

theorem Quiet.run (h : s.Quiet) (steps : List (SessionStep κ)) : (s.run steps).1.Quiet := by
  induction steps generalizing s with
  | nil => exact h
  | cons step rest ih => exact ih (h.apply step)

theorem writer_push (item : Outbound) (s : Session κ) : (s.push item).writer = s.writer := by
  unfold Session.push
  split <;> rfl

theorem writer_write (message : String) (s : Session κ) :
    (s.write message).writer = s.writer := by
  unfold Session.write
  split
  · exact writer_push ..
  · rfl

theorem writer_close (s : Session κ) : s.close.writer = s.writer := by
  unfold Session.close
  split
  · exact writer_push ..
  · rfl

/-- A writer that has ended is not started again. -/
theorem writer_ended_apply (h : s.writer = .ended) (step : SessionStep κ) :
    (s.apply step).1.writer = .ended := by
  cases step with
  | beginWrite message =>
    simp only [apply, beginWrite]
    split <;> exact h
  | beginClose => rwa [apply, writer_beginClose]
  | commit i => rwa [apply, writer_commit]
  | start => simp [apply, start, h]
  | abandon => simp [apply, abandon, h]
  | batch n => simp [apply, batch_of_ne, h]
  | breakWriter => simp [apply, breakWriter, h]
  | receive frame =>
    rcases sameOutbound_receive frame s with hsame | ⟨-, -, payload, hnext⟩
    · rwa [apply, hsame.writer]
    · rwa [apply, hnext]
  | windUp =>
    simp only [apply, windUp]
    split
    · rwa [writer_beginClose]
    · exact h
  | dispatch => rwa [apply, (sameOutbound_dispatch s).writer]
  | finish => rwa [apply, (sameOutbound_finish s).writer]
  | callbackDone | setOnRead | clearOnRead => exact h

/-- Both directions have ended and the session knows it. -/
structure WoundUp (s : Session κ) : Prop where
  reader : s.reader = .ended
  writer : s.writer = .ended
  rank : SessionState.closing.rank ≤ s.state.rank

theorem WoundUp.apply (h : s.WoundUp) (step : SessionStep κ) : (s.apply step).1.WoundUp where
  reader := by
    have hpaired : s.Paired := by simp [Paired, h.reader, h.writer]
    rw [(inflow_apply hpaired step).reader, h.reader]
    cases step <;> simp [SessionStep.reader]
  writer := writer_ended_apply h.writer step
  rank := Nat.le_trans h.rank (rank_le_apply s step)

theorem WoundUp.run (h : s.WoundUp) (steps : List (SessionStep κ)) : (s.run steps).1.WoundUp := by
  induction steps generalizing s with
  | nil => exact h
  | cons step rest ih => exact ih (h.apply step)

theorem woundUp_windUp (hreader : s.reader = .ended) (hwriter : s.writer = .ended) :
    s.windUp.WoundUp := by
  have hnext : s.windUp = s.beginClose := by simp [windUp, hreader]
  rw [hnext]
  refine ⟨(sameInbound_beginClose s).reader.trans hreader, (writer_beginClose s).trans hwriter, ?_⟩
  have hmem : .beginClose ∈ ([.beginClose] : List (SessionStep κ)) := by simp
  exact rank_le_of_beginClose_mem hmem s

/-- The last callback returns and there is nothing more to hand on. -/
theorem WoundUp.closed_finish (h : s.WoundUp) (hinbox : s.inbox = []) :
    s.callbackDone.finish.state = .closed := by
  have hdrained : s.callbackDone.drained = true := by
    simp [drained, callbackDone, h.reader, h.writer, hinbox]
  have hstate : s.callbackDone.state = s.state := rfl
  unfold finish
  split
  · rfl
  · next hnot =>
    rw [hstate] at hnot ⊢
    have hrank := h.rank
    cases hs : s.state <;> simp_all [SessionState.rank]

/-- A connection that is not driven brings nothing. -/
theorem fresh_apply (hpaired : s.Paired) (hidle : s.reader ≠ .running) (hempty : s.inbox = [])
    {step : SessionStep κ} (hstep : step ≠ .start) :
    (s.apply step).1.reader ≠ .running ∧ (s.apply step).1.inbox = [] := by
  have hflow := inflow_apply hpaired step
  have hinbox := hflow.inbox
  rw [hempty, carried?, if_neg hidle, Option.toList_none, List.append_nil] at hinbox
  refine ⟨?_, (List.append_eq_nil_iff.1 hinbox).2⟩
  rw [hflow.reader]
  cases step with
  | start => exact absurd rfl hstep
  | abandon =>
    simp only [SessionStep.reader]
    split <;> simp [hidle]
  | receive frame => simp [SessionStep.reader, hidle]
  | _ => exact hidle

/-- Turns decide what runs, until the callback returns. -/
theorem running_apply (s : Session κ) {step : SessionStep κ} (h : step ≠ .callbackDone) :
    (s.apply step).1.running =
      match s.turn? step with
      | some message => handed (message, s.callback)
      | none => s.running := by
  cases step with
  | beginWrite message => exact (sameInbound_beginWrite message s).running
  | beginClose => exact (sameInbound_beginClose s).running
  | commit i => exact (sameInbound_commit i s).running
  | start =>
    simp only [apply, start]
    split <;> rfl
  | abandon =>
    simp only [apply, abandon]
    split <;> rfl
  | batch n => exact (sameInbound_batch n s).running
  | breakWriter => exact (sameInbound_breakWriter s).running
  | receive frame =>
    rcases receive_cases frame s with hsame | ⟨-, ⟨message, hnext⟩ | hnext⟩
    · exact hsame.running
    · simp [apply, hnext, turn?]
    · simp [apply, hnext, turn?]
  | windUp => exact (sameInbound_windUp s).running
  | dispatch =>
    cases hturn : s.turn? .dispatch with
    | none => simp [apply, dispatch_of_no_turn hturn]
    | some message =>
      obtain ⟨rest, -, hnext, -⟩ := dispatch_of_turn hturn
      simp [apply, hnext]
  | callbackDone => exact absurd rfl h
  | finish =>
    simp only [apply, finish]
    split <;> rfl
  | setOnRead k => rfl
  | clearOnRead => rfl

structure DrainsBeforeClosing (role : SessionRole) (steps : List (SessionStep κ)) : Prop where
  /-- A turn hands its message to the callback installed then, or tells why it is dropped. -/
  told : (({ role } : Session κ).run steps).2.filter Note.isTurn =
    (turns { role } none steps).map Note.ofTurn
  /-- When the session is closed, all that it ever receives has had its turn and nothing runs. -/
  drained : ∀ before after, steps = before ++ after →
    (({ role } : Session κ).run before).1.state = .closed →
      (turns { role } none before).map Prod.fst = received steps ∧
      (({ role } : Session κ).run before).1.running = none
  /-- From then on it stays closed and invokes no callback. -/
  silent : ∀ before after, steps = before ++ after →
    (({ role } : Session κ).run before).1.state = .closed →
      (({ role } : Session κ).run steps).1.state = .closed ∧
      (({ role } : Session κ).run steps).2 = (({ role } : Session κ).run before).2
  /-- It does come to that: once both directions have ended the rest is up to the session. -/
  closes : (({ role } : Session κ).run steps).1.reader = .ended →
    (({ role } : Session κ).run steps).1.writer = .ended →
      (({ role } : Session κ).run (steps ++ .windUp ::
        (rounds (({ role } : Session κ).run steps).1.inbox.length ++
          [.callbackDone, .finish]))).1.state = .closed

theorem paired_new (role : SessionRole) : ({ role } : Session κ).Paired := by simp [Paired]

theorem quiet_new (role : SessionRole) : ({ role } : Session κ).Quiet := fun h => nomatch h

theorem run_concat (s : Session κ) (steps : List (SessionStep κ)) (step : SessionStep κ) :
    (s.run (steps ++ [step])).1 = ((s.run steps).1.apply step).1 := by
  rw [run_append]
  rfl

/-- A step adds to what is received what it brings to the inbox. -/
theorem received_concat (role : SessionRole) (steps : List (SessionStep κ))
    (step : SessionStep κ) :
    received (steps ++ [step]) =
      received steps ++ ((({ role } : Session κ).run steps).1.carried? step).toList := by
  rw [← carried_idle (paired_new role) rfl, ← carried_idle (paired_new role) rfl, carried_append]
  simp only [carried, List.append_nil]

/-- Behind the end of its stream a session receives nothing. -/
theorem received_append_of_ended {role : SessionRole} {before : List (SessionStep κ)}
    (h : (({ role } : Session κ).run before).1.reader = .ended)
    (after : List (SessionStep κ)) : received (before ++ after) = received before := by
  rw [← carried_idle (paired_new role) rfl, ← carried_idle (paired_new role) rfl, carried_append,
    carried_ended ((paired_new role).run before) h, List.append_nil]

theorem closed_run_of_ended (hreader : s.reader = .ended) (hwriter : s.writer = .ended) :
    (s.run (.windUp :: (rounds s.inbox.length ++ [.callbackDone, .finish]))).1.state =
      .closed := by
  have hwound := (woundUp_windUp hreader hwriter).run (rounds s.inbox.length)
  have hinbox : (s.windUp.run (rounds s.inbox.length)).1.inbox = [] := by
    rw [inbox_rounds, (sameInbound_windUp s).inbox, List.drop_length]
  simp only [run, apply, run_append]
  exact hwound.closed_finish hinbox

/-- A session is drained before it is closed, whatever the order of its steps. -/
theorem drains_before_closing (role : SessionRole) (steps : List (SessionStep κ)) :
    DrainsBeforeClosing role steps where
  told := turnNotes_run (quiet_new role) (paired_new role) (fun _ => rfl) steps
  drained before after hsteps hclosed := by
    obtain ⟨hreader, hinbox, hrun⟩ := (quiet_new role).run before hclosed
    have hturns := turns_append_inbox (paired_new role) none before
    rw [hinbox, List.append_nil, List.nil_append, carried_idle (paired_new role) rfl] at hturns
    rw [hsteps, received_append_of_ended hreader]
    exact ⟨hturns, hrun⟩
  silent before after hsteps hclosed := by
    rw [hsteps, run_append]
    refine ⟨closed_run hclosed after, ?_⟩
    rw [notes_run_closed ((quiet_new role).run before) hclosed, List.append_nil]
  closes hreader hwriter := by
    rw [run_append]
    exact closed_run_of_ended hreader hwriter

end Session
end ScriptHost
