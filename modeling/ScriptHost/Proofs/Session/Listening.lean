import ScriptHost.Proofs.Session.Draining
import ScriptHost.Session.Listener

/-! Listeners and the sessions that they create. All sessions are numbered by one counter. A listener
remembers its sessions weakly, but the task of a connection holds its session, so whoever is still at
work is found when the loop ends. -/

namespace ScriptHost

/-- The steps with which a phase of a session's task is over. -/
inductive ListenerStep.Concludes (session : Nat) : TaskPhase → ListenerStep → Prop where
  | connected (keeps : Bool) : Concludes session .handshake (.connected session keeps)
  | handshakeFails : Concludes session .handshake (.handshakeFails session)
  | sessionEnds : Concludes session .driving (.sessionEnds session)

namespace Listener

def Busy (l : Listener) (session : Nat) : Prop := ∃ phase, (session, phase) ∈ l.tasks

variable {l : Listener} {session other : Nat} {phase : TaskPhase} {step : ListenerStep}

theorem Busy.isAlive (h : l.Busy session) : l.isAlive session = true := by
  obtain ⟨phase, htask⟩ := h
  simp only [Listener.isAlive, Bool.or_eq_true, List.any_eq_true, decide_eq_true_eq]
  exact Or.inl ⟨_, htask, rfl⟩

/-- A task that is there after a step was there before, unless its handshake is done now or its
connection was accepted. -/
theorem task_of_apply (h : (session, phase) ∈ (l.apply step).1.tasks) :
    (session, phase) ∈ l.tasks ∨
      (phase = .driving ∧ (session, .handshake) ∈ l.tasks ∧ ∃ keeps, step = .connected session keeps) ∨
      (phase = .handshake ∧ step = .accept session ∧ l.running = true) := by
  cases step with
  | accept s =>
    simp only [apply] at h
    split at h
    · next hrun =>
      rcases List.mem_append.1 h with hold | hnew
      · exact Or.inl hold
      · cases List.mem_singleton.1 hnew
        exact Or.inr (Or.inr ⟨rfl, rfl, hrun⟩)
    · exact Or.inl h
  | connected s keeps =>
    simp only [apply] at h
    split at h
    · next hpending =>
      obtain ⟨⟨s', p⟩, htask, heq⟩ := List.mem_map.1 h
      split at heq
      · cases heq
        exact Or.inr (Or.inl ⟨rfl, hpending, keeps, rfl⟩)
      · exact Or.inl (heq ▸ htask)
    · exact Or.inl h
  | handshakeFails s =>
    simp only [apply] at h
    split at h
    · exact Or.inl (List.mem_filter.1 h).1
    · exact Or.inl h
  | sessionEnds s =>
    simp only [apply] at h
    split at h
    · exact Or.inl (List.mem_filter.1 h).1
    · exact Or.inl h
  | setSignal value =>
    simp only [apply] at h
    split at h <;> exact Or.inl h
  | look =>
    simp only [apply] at h
    split at h <;> exact Or.inl h
  | acceptFails | release s | dropSender => exact Or.inl h

/-- Whose task is under way stays in the weak list, whatever is pruned. -/
theorem live_of_apply (hlive : ∀ s, l.Busy s → s ∈ l.live) (h : (l.apply step).1.Busy session) :
    session ∈ (l.apply step).1.live := by
  obtain ⟨phase, htask⟩ := h
  have hbefore (hbusy : l.Busy session) : session ∈ (l.apply step).1.live := by
    have hmem := hlive session hbusy
    cases step with
    | accept s =>
      simp only [apply]
      split
      · exact List.mem_append_left _ (List.mem_filter.2 ⟨hmem, hbusy.isAlive⟩)
      · exact hmem
    | acceptFails | release s | dropSender => exact hmem
    | handshakeFails s | connected s keeps | sessionEnds s | setSignal value | look =>
      simp only [apply]
      split <;> exact hmem
  rcases task_of_apply htask with hold | ⟨-, hpending, -⟩ | ⟨-, rfl, hrun⟩
  · exact hbefore ⟨_, hold⟩
  · exact hbefore ⟨_, hpending⟩
  · simp [apply, hrun]

/-- The weak list gets no session but one that was accepted. -/
theorem mem_live_apply (h : session ∈ (l.apply step).1.live) :
    session ∈ l.live ∨ step = .accept session ∧ l.running = true := by
  cases step with
  | accept s =>
    simp only [apply] at h
    split at h
    · next hrun =>
      rcases List.mem_append.1 h with hold | hnew
      · exact Or.inl (List.mem_filter.1 hold).1
      · exact Or.inr ⟨congrArg _ (List.mem_singleton.1 hnew).symm, hrun⟩
    · exact Or.inl h
  | acceptFails | release s | dropSender => exact Or.inl h
  | handshakeFails s | connected s keeps | sessionEnds s | setSignal value | look =>
    simp only [apply] at h
    split at h <;> exact Or.inl h

theorem not_busy_endTask (session : Nat) (l : Listener) : ¬ (l.endTask session).Busy session := by
  rintro ⟨phase, htask⟩
  simp [endTask] at htask

theorem mem_endTask (hne : session ≠ other) (htask : (session, phase) ∈ l.tasks) :
    (session, phase) ∈ (l.endTask other).tasks :=
  List.mem_filter.2 ⟨htask, by simpa using hne⟩

theorem not_mem_of_concludes (h : step.Concludes session phase) (htask : (session, phase) ∈ l.tasks) :
    (session, phase) ∉ (l.apply step).1.tasks := by
  cases h with
  | connected keeps =>
    simp only [apply, if_pos htask, List.mem_map, not_exists, not_and]
    intro t _
    split
    · simp
    · next hne =>
      rintro rfl
      exact hne rfl
  | handshakeFails | sessionEnds =>
    simp only [apply, if_pos htask]
    exact fun hstill => not_busy_endTask session l ⟨_, hstill⟩

theorem driving_of_connected (keeps : Bool) (hpending : (session, .handshake) ∈ l.tasks) :
    (session, .driving) ∈ (l.apply (.connected session keeps)).1.tasks := by
  simp only [apply, if_pos hpending]
  exact List.mem_map.2 ⟨_, hpending, if_pos rfl⟩

/-- A task in one phase only is not ended by what concludes the other. -/
theorem mem_of_not_concludes
    (hone : (session, .driving) ∈ l.tasks → (session, .handshake) ∉ l.tasks)
    (h : ¬ step.Concludes session phase) (htask : (session, phase) ∈ l.tasks) :
    (session, phase) ∈ (l.apply step).1.tasks := by
  cases step with
  | accept s =>
    simp only [apply]
    split
    · exact List.mem_append_left _ htask
    · exact htask
  | connected s keeps =>
    simp only [apply]
    split
    · next hpending =>
      refine List.mem_map.2 ⟨_, htask, ?_⟩
      split
      · next heq =>
        obtain rfl : session = s := heq
        cases phase with
        | handshake => exact absurd (.connected keeps) h
        | driving => rfl
      · rfl
    · exact htask
  | handshakeFails s =>
    simp only [apply]
    split
    · next hpending =>
      refine mem_endTask ?_ htask
      rintro rfl
      cases phase with
      | handshake => exact h .handshakeFails
      | driving => exact hone htask hpending
    · exact htask
  | sessionEnds s =>
    simp only [apply]
    split
    · next hdriving =>
      refine mem_endTask ?_ htask
      rintro rfl
      cases phase with
      | handshake => exact hone hdriving htask
      | driving => exact h .sessionEnds
    · exact htask
  | setSignal value | look =>
    simp only [apply]
    split <;> exact htask
  | acceptFails | release s | dropSender => exact htask

/-- The loop tells of a session that is connected when its handshake is done. -/
theorem connected_mem_notes :
    .connected session ∈ (l.apply step).2 ↔
      (∃ keeps, step = .connected session keeps) ∧ (session, .handshake) ∈ l.tasks := by
  cases step with
  | connected s keeps =>
    simp only [apply]
    split
    · next hpending =>
      constructor
      · intro h
        obtain rfl : session = s := by simpa using h
        exact ⟨⟨keeps, rfl⟩, hpending⟩
      · rintro ⟨⟨keeps', heq⟩, -⟩
        cases heq
        simp
    · next hnot =>
      constructor
      · intro h
        cases h
      · rintro ⟨⟨keeps', heq⟩, hpending⟩
        cases heq
        exact absurd hpending hnot
  | look =>
    simp only [apply]
    split <;> simp
  | accept s | handshakeFails s | sessionEnds s =>
    simp only [apply]
    split <;> simp
  | acceptFails | release s | dropSender | setSignal value => simp [apply]

theorem notes_of_connected (h : .connected session ∈ (l.apply step).2) :
    (l.apply step).2 = [.connected session] := by
  obtain ⟨⟨keeps, rfl⟩, hpending⟩ := connected_mem_notes.1 h
  simp [apply, hpending]

/-- The loop closes sessions when it ends, all that are in the weak list and alive. -/
theorem close_mem_notes :
    .close session ∈ (l.apply step).2 ↔ step = .look ∧ l.running = true ∧
      (l.signal = true ∨ l.senderAlive = false) ∧ session ∈ l.live ∧ l.isAlive session = true := by
  cases step with
  | look =>
    simp only [apply]
    split
    · next h =>
      obtain ⟨hrun, hsignal⟩ := h
      simp [hrun, by simpa using hsignal]
    · next h =>
      constructor
      · intro hmem
        cases hmem
      · rintro ⟨-, hrun, hsignal, -⟩
        exact absurd ⟨hrun, by simpa using hsignal⟩ h
  | connected s keeps =>
    simp only [apply]
    split <;> simp
  | accept s | handshakeFails s | sessionEnds s =>
    simp only [apply]
    split <;> simp
  | acceptFails | release s | dropSender | setSignal value => simp [apply]

/-- The loop ends when it looks and its signal is set or the sender is gone. -/
theorem running_apply (l : Listener) (step : ListenerStep) :
    (l.apply step).1.running = false ↔ l.running = false ∨
      step = .look ∧ (l.signal = true ∨ l.senderAlive = false) := by
  cases step with
  | look =>
    simp only [apply]
    split
    · next h => simpa using Or.inr h.2
    · next h =>
      constructor
      · exact Or.inl
      · rintro (hended | ⟨-, hsignal⟩)
        · exact hended
        · by_contra hrun
          exact h ⟨by simpa using hrun, by simpa using hsignal⟩
  | connected s keeps =>
    simp only [apply]
    split <;> simp
  | accept s | handshakeFails s | sessionEnds s | setSignal value =>
    simp only [apply]
    split <;> simp [endTask]
  | acceptFails | release s | dropSender => simp [apply]

/-- The signal is what was sent last while there was a sender. -/
theorem signal_apply (h : (l.apply step).1.signal = true) :
    l.signal = true ∨ step = .setSignal true := by
  cases step with
  | setSignal value =>
    simp only [apply] at h
    split at h
    · exact Or.inr (congrArg _ h)
    · exact Or.inl h
  | acceptFails | release s | dropSender => exact Or.inl h
  | accept s | handshakeFails s | connected s keeps | sessionEnds s | look =>
    simp only [apply] at h
    split at h <;> exact Or.inl h

theorem senderAlive_apply (h : (l.apply step).1.senderAlive = false) :
    l.senderAlive = false ∨ step = .dropSender := by
  cases step with
  | dropSender => exact Or.inr rfl
  | acceptFails | release s => exact Or.inl h
  | accept s | handshakeFails s | connected s keeps | sessionEnds s | setSignal value | look =>
    simp only [apply] at h
    split at h <;> exact Or.inl h

end Listener

structure Listening (κ : Type) where
  listeners : Nat → Listener := fun _ => {}
  sessions : Nat → Session κ := fun _ => { role := .server }
  next : Nat := 0

inductive ListeningStep (κ : Type) where
  /-- A listener that runs accepts a connection. -/
  | accept (listener : Nat)
  | listen (listener : Nat) (step : { step : ListenerStep // ∀ session, step ≠ .accept session })
  /-- The task of a connection drives it, once the callback has returned. -/
  | drive (listener session : Nat)
  /-- Anything else that happens on a session. -/
  | inside (session : Nat) (step : { step : SessionStep κ // step ≠ .start })

namespace Listening

open Session

def setListener (j : Nat) (l : Listener) (h : Listening κ) : Listening κ :=
  { h with listeners := fun k => if k = j then l else h.listeners k }

def update (session : Nat) (f : Session κ → Session κ) (h : Listening κ) : Listening κ :=
  { h with sessions := fun s => if s = session then f (h.sessions s) else h.sessions s }

/-- A session that the loop closes is closed. What the callback does to a session that is connected
are steps of their own. -/
def perform (h : Listening κ) : ListenerNote → Listening κ
  | .close session => h.update session Session.close
  | .connected _ => h

def apply (h : Listening κ) : ListeningStep κ → Listening κ × List (Nat × ListenerNote)
  | .accept j =>
    if (h.listeners j).running then
      ({ h.setListener j ((h.listeners j).apply (.accept h.next)).1 with next := h.next + 1 }, [])
    else (h, [])
  | .listen j step =>
    let next := (h.listeners j).apply step
    (next.2.foldl perform (h.setListener j next.1), next.2.map (j, ·))
  | .drive j session =>
    (if (h.listeners j).tasks.contains (session, .driving) then h.update session Session.start
      else h, [])
  | .inside session step => (h.update session fun s => (s.apply step).1, [])

def run (h : Listening κ) : List (ListeningStep κ) → Listening κ × List (Nat × ListenerNote)
  | [] => (h, [])
  | step :: rest =>
    let (h, notes) := h.apply step
    let (h, more) := h.run rest
    (h, notes ++ more)

theorem run_append (h : Listening κ) (first rest : List (ListeningStep κ)) :
    h.run (first ++ rest) =
      (((h.run first).1.run rest).1, (h.run first).2 ++ ((h.run first).1.run rest).2) := by
  induction first generalizing h with
  | nil => rfl
  | cons step first ih => simp only [List.cons_append, run, ih, List.append_assoc]

theorem run_concat (h : Listening κ) (steps : List (ListeningStep κ)) (step : ListeningStep κ) :
    h.run (steps ++ [step]) =
      (((h.run steps).1.apply step).1, (h.run steps).2 ++ ((h.run steps).1.apply step).2) := by
  rw [run_append]
  simp only [run, List.append_nil]

variable {h : Listening κ} {j session : Nat} {steps : List (ListeningStep κ)}
  {step : ListeningStep κ}

theorem listeners_perform (notes : List ListenerNote) (h : Listening κ) :
    (notes.foldl perform h).listeners = h.listeners ∧ (notes.foldl perform h).next = h.next := by
  induction notes generalizing h with
  | nil => exact ⟨rfl, rfl⟩
  | cons note rest ih =>
    obtain ⟨hlisteners, hnext⟩ := ih (h.perform note)
    rw [List.foldl_cons, hlisteners, hnext]
    cases note <;> exact ⟨rfl, rfl⟩

theorem listeners_listen (h : Listening κ) (j : Nat)
    (inner : { step : ListenerStep // ∀ session, step ≠ .accept session }) :
    (h.apply (.listen j inner)).1.listeners j = ((h.listeners j).apply inner).1 := by
  simp only [apply, (listeners_perform _ _).1]
  exact if_pos rfl

theorem listeners_accept (hrun : (h.listeners j).running = true) :
    (h.apply (.accept j)).1.listeners j = ((h.listeners j).apply (.accept h.next)).1 := by
  simp only [apply, hrun, if_true]
  exact if_pos rfl

/-- A listener changes by a step of its own, and by none but an accept with a new number. -/
theorem listener_apply (h : Listening κ) (step : ListeningStep κ) (j : Nat) :
    ((h.apply step).1.listeners j = h.listeners j ∧ ∀ inner, step ≠ .listen j inner) ∨
      (step = .accept j ∧ (h.listeners j).running = true ∧
        (h.apply step).1.listeners j = ((h.listeners j).apply (.accept h.next)).1) ∨
      ∃ inner, step = .listen j inner ∧
        (h.apply step).1.listeners j = ((h.listeners j).apply inner).1 := by
  cases step with
  | accept k =>
    simp only [apply]
    split
    · next hrun =>
      by_cases hj : j = k
      · subst hj
        exact Or.inr (Or.inl ⟨rfl, hrun, if_pos rfl⟩)
      · exact Or.inl ⟨if_neg hj, nofun⟩
    · exact Or.inl ⟨rfl, nofun⟩
  | listen k inner =>
    simp only [apply, (listeners_perform _ _).1]
    by_cases hj : j = k
    · subst hj
      exact Or.inr (Or.inr ⟨inner, rfl, if_pos rfl⟩)
    · refine Or.inl ⟨if_neg hj, ?_⟩
      rintro inner' heq
      cases heq
      exact hj rfl
  | drive k session =>
    simp only [apply]
    split <;> exact Or.inl ⟨rfl, nofun⟩
  | inside session inner => exact Or.inl ⟨rfl, nofun⟩

theorem next_apply (h : Listening κ) (step : ListeningStep κ) :
    (h.apply step).1.next = h.next ∨
      ∃ j, step = .accept j ∧ (h.listeners j).running = true ∧ (h.apply step).1.next = h.next + 1 := by
  cases step with
  | accept j =>
    simp only [apply]
    split
    · next hrun => exact Or.inr ⟨j, rfl, hrun, rfl⟩
    · exact Or.inl rfl
  | listen j inner => exact Or.inl (listeners_perform _ _).2
  | drive j session =>
    simp only [apply]
    split <;> exact Or.inl rfl
  | inside session inner => exact Or.inl rfl

theorem notes_apply (h : Listening κ) (step : ListeningStep κ) (j : Nat) (note : ListenerNote) :
    (j, note) ∈ (h.apply step).2 ↔
      ∃ inner, step = .listen j inner ∧ note ∈ ((h.listeners j).apply inner).2 := by
  cases step with
  | accept k =>
    simp only [apply]
    split <;> simp
  | listen k inner =>
    simp only [apply, List.mem_map, Prod.mk.injEq]
    constructor
    · rintro ⟨note', hmem, rfl, rfl⟩
      exact ⟨inner, rfl, hmem⟩
    · rintro ⟨inner', heq, hmem⟩
      cases heq
      exact ⟨note, hmem, rfl, rfl⟩
  | drive k session => simp [apply]
  | inside session inner => simp [apply]

section Sessions

theorem sessions_update (s : Nat) (f : Session κ → Session κ) (h : Listening κ) :
    (h.update session f).sessions s = if s = session then f (h.sessions s) else h.sessions s := rfl

/-- What the loop does to a session: it closes it, if it says so. -/
theorem sessions_perform (notes : List ListenerNote) (h : Listening κ) (s : Nat) :
    SameInbound (h.sessions s) ((notes.foldl perform h).sessions s) ∧
      ((notes.foldl perform h).sessions s).writer = (h.sessions s).writer ∧
      (.close s ∉ notes → (notes.foldl perform h).sessions s = h.sessions s) := by
  induction notes generalizing h with
  | nil => exact ⟨.refl _, rfl, fun _ => rfl⟩
  | cons note rest ih =>
    obtain ⟨hsame, hwriter, hnone⟩ := ih (h.perform note)
    rw [List.foldl_cons]
    cases note with
    | connected session => exact ⟨hsame, hwriter, fun hmem => hnone (by simpa using hmem)⟩
    | close session =>
      have hfirst : SameInbound (h.sessions s) ((h.perform (.close session)).sessions s) ∧
          ((h.perform (.close session)).sessions s).writer = (h.sessions s).writer := by
        simp only [perform, sessions_update]
        split
        · exact ⟨sameInbound_close _, writer_close _⟩
        · exact ⟨.refl _, rfl⟩
      refine ⟨hfirst.1.trans hsame, hwriter.trans hfirst.2, fun hmem => ?_⟩
      obtain ⟨hne, hrest⟩ := not_or.1 (mt List.mem_cons.2 hmem)
      rw [hnone hrest]
      simp only [perform, sessions_update]
      refine if_neg ?_
      rintro rfl
      exact hne rfl

theorem rank_le_close (s : Session κ) : s.state.rank ≤ s.close.state.rank ∧
    SessionState.closing.rank ≤ s.close.state.rank := by
  unfold Session.close
  split
  · next hopen =>
    have hrank := (isOpen_iff s).1 hopen
    unfold push
    split <;> exact ⟨Nat.le_of_lt hrank, Nat.le_refl _⟩
  · next hclosing => exact ⟨Nat.le_refl _, Nat.le_of_not_lt (mt (isOpen_iff s).2 hclosing)⟩

theorem rank_le_perform (notes : List ListenerNote) (h : Listening κ) (s : Nat) :
    (h.sessions s).state.rank ≤ ((notes.foldl perform h).sessions s).state.rank ∧
      (.close s ∈ notes →
        SessionState.closing.rank ≤ ((notes.foldl perform h).sessions s).state.rank) := by
  induction notes generalizing h with
  | nil => exact ⟨Nat.le_refl _, nofun⟩
  | cons note rest ih =>
    obtain ⟨hrank, hclosing⟩ := ih (h.perform note)
    rw [List.foldl_cons]
    cases note with
    | connected session => exact ⟨hrank, fun hmem => hclosing (by simpa using hmem)⟩
    | close session =>
      have hstep : (h.sessions s).state.rank ≤
          ((h.perform (.close session)).sessions s).state.rank := by
        simp only [perform, sessions_update]
        split
        · exact (rank_le_close _).1
        · exact Nat.le_refl _
      refine ⟨Nat.le_trans hstep hrank, fun hmem => ?_⟩
      rcases List.mem_cons.1 hmem with heq | hrest
      · cases heq
        refine Nat.le_trans ?_ hrank
        simp only [perform, sessions_update, if_true]
        exact (rank_le_close _).2
      · exact hclosing hrest

/-- No step moves the state of a session back. -/
theorem rank_le_apply (h : Listening κ) (step : ListeningStep κ) (s : Nat) :
    (h.sessions s).state.rank ≤ ((h.apply step).1.sessions s).state.rank := by
  cases step with
  | accept j =>
    simp only [apply]
    split <;> exact Nat.le_refl _
  | listen j inner => exact (rank_le_perform _ (h.setListener j _) s).1
  | drive j session =>
    simp only [apply]
    split
    · rw [sessions_update]
      split
      · exact rank_le_start _
      · exact Nat.le_refl _
    · exact Nat.le_refl _
  | inside session inner =>
    simp only [apply, sessions_update]
    split
    · exact Session.rank_le_apply _ _
    · exact Nat.le_refl _

theorem rank_le_run (h : Listening κ) (steps : List (ListeningStep κ)) (s : Nat) :
    (h.sessions s).state.rank ≤ ((h.run steps).1.sessions s).state.rank := by
  induction steps generalizing h with
  | nil => exact Nat.le_refl _
  | cons step rest ih => exact Nat.le_trans (h.rank_le_apply step s) (ih _)

end Sessions

end Listening
end ScriptHost
