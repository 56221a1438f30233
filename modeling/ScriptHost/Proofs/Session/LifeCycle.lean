import Mathlib.Data.List.Induction
import ScriptHost.Lookup
import ScriptHost.Proofs.Session.Listening

/-! The life cycle of a listener. Its loop ends for its signal alone; its callback is called once for
every handshake that is done, in front of all reading; and when it ends it closes whoever is at work. -/

namespace ScriptHost
namespace Listening

open Session

variable {h : Listening κ} {j session : Nat} {steps : List (ListeningStep κ)}
  {step : ListeningStep κ}

def Concludes (j session : Nat) (phase : TaskPhase) (step : ListeningStep κ) : Prop :=
  ∃ inner, step = .listen j inner ∧ inner.1.Concludes session phase

/-- The connection that got the number of a session was accepted by a listener. -/
def Accepted (steps : List (ListeningStep κ)) (j session : Nat) : Prop :=
  ∃ before after, steps = before ++ .accept j :: after ∧
    (({} : Listening κ).run before).1.next = session ∧
    ((({} : Listening κ).run before).1.listeners j).running = true

theorem accepted_concat_iff : Accepted (steps ++ [step]) j session ↔
    Accepted steps j session ∨ step = .accept j ∧
      (({} : Listening κ).run steps).1.next = session ∧
      ((({} : Listening κ).run steps).1.listeners j).running = true := by
  unfold Accepted
  rw [exists_place_concat, or_comm]

structure Attentive (steps : List (ListeningStep κ)) (h : Listening κ)
    (notes : List (Nat × ListenerNote)) : Prop where
  /-- Whose task is under way is in the weak list, and in it are sessions of the listener alone. -/
  busy : ∀ j s, (h.listeners j).Busy s → s ∈ (h.listeners j).live
  accepted : ∀ j s, s ∈ (h.listeners j).live → Accepted steps j s
  /-- Numbers are given once. -/
  numbered : ∀ j s, Accepted steps j s → s < h.next
  apart : ∀ j k s, Accepted steps j s → Accepted steps k s → j = k
  /-- The callback was not called as long as the handshake is pending, and once before the
  connection is driven. -/
  pending : ∀ j k s, (s, .handshake) ∈ (h.listeners j).tasks → (k, .connected s) ∉ notes
  driving : ∀ j s, (s, .driving) ∈ (h.listeners j).tasks → (j, .connected s) ∈ notes
  told : ∀ j s, (j, .connected s) ∈ notes → Accepted steps j s
  once : ∀ j s, notes.count (j, .connected s) ≤ 1
  /-- Until then nothing is read. -/
  paired : ∀ s, (h.sessions s).Paired
  unread : ∀ s, (∀ j, (j, .connected s) ∉ notes) →
    (h.sessions s).reader ≠ .running ∧ (h.sessions s).inbox = []

theorem attentive_nil : Attentive [] ({} : Listening κ) [] where
  busy j s hbusy := by
    obtain ⟨phase, htask⟩ := hbusy
    cases htask
  accepted j s hlive := by cases hlive
  numbered j s haccepted := by simp [Accepted] at haccepted
  apart j k s haccepted := by simp [Accepted] at haccepted
  pending j k s htask := by cases htask
  driving j s htask := by cases htask
  told j s hmem := by cases hmem
  once j s := by simp
  paired s := paired_new .server
  unread s _ := ⟨by simp, rfl⟩

variable {notes : List (Nat × ListenerNote)}

/-- A task after a step: an old one, one whose handshake is done now, or one of a new connection. -/
theorem task_cases {phase : TaskPhase} (htask : (session, phase) ∈ ((h.apply step).1.listeners j).tasks) :
    (session, phase) ∈ (h.listeners j).tasks ∨
      (phase = .driving ∧ (j, .connected session) ∈ (h.apply step).2) ∨
      (phase = .handshake ∧ session = h.next ∧ step = .accept j ∧
        (h.listeners j).running = true) := by
  rcases listener_apply h step j with ⟨hsame, -⟩ | ⟨rfl, hrun, hnext⟩ | ⟨inner, rfl, hnext⟩
  · exact Or.inl (hsame ▸ htask)
  · rw [hnext] at htask
    rcases Listener.task_of_apply htask with hold | ⟨-, -, keeps, heq⟩ | ⟨hphase, heq, -⟩
    · exact Or.inl hold
    · cases heq
    · cases heq
      exact Or.inr (Or.inr ⟨hphase, rfl, rfl, hrun⟩)
  · rw [hnext] at htask
    rcases Listener.task_of_apply htask with hold | ⟨hphase, hpending, hkeeps⟩ | ⟨-, heq, -⟩
    · exact Or.inl hold
    · refine Or.inr (Or.inl ⟨hphase, (notes_apply ..).2 ⟨inner, rfl, ?_⟩⟩)
      exact Listener.connected_mem_notes.2 ⟨hkeeps, hpending⟩
    · exact absurd heq (inner.2 session)

/-- The callback is called just when a handshake that is pending is done. -/
theorem connected_mem_apply : (j, .connected session) ∈ (h.apply step).2 ↔
    ∃ keeps, step = .listen j ⟨.connected session keeps, nofun⟩ ∧
      (session, .handshake) ∈ (h.listeners j).tasks := by
  rw [notes_apply]
  constructor
  · rintro ⟨inner, rfl, hnote⟩
    obtain ⟨⟨keeps, heq⟩, hpending⟩ := Listener.connected_mem_notes.1 hnote
    exact ⟨keeps, congrArg _ (Subtype.ext heq), hpending⟩
  · rintro ⟨keeps, rfl, hpending⟩
    exact ⟨_, rfl, Listener.connected_mem_notes.2 ⟨⟨keeps, rfl⟩, hpending⟩⟩

/-- The session is driven then and waits no more. -/
theorem pending_of_connected (hmem : (j, .connected session) ∈ (h.apply step).2) :
    (session, .handshake) ∈ (h.listeners j).tasks ∧
      (session, .handshake) ∉ ((h.apply step).1.listeners j).tasks ∧
      (session, .driving) ∈ ((h.apply step).1.listeners j).tasks ∧
      (h.apply step).2 = [(j, .connected session)] := by
  obtain ⟨keeps, rfl, hpending⟩ := connected_mem_apply.1 hmem
  have hnote : .connected session ∈ ((h.listeners j).apply (.connected session keeps)).2 :=
    Listener.connected_mem_notes.2 ⟨⟨keeps, rfl⟩, hpending⟩
  refine ⟨hpending, ?_, ?_, congrArg (List.map (j, ·)) (Listener.notes_of_connected hnote)⟩
  · rw [listeners_listen]
    exact Listener.not_mem_of_concludes (.connected keeps) hpending
  · rw [listeners_listen]
    exact Listener.driving_of_connected keeps hpending

theorem Accepted.concat (h : Accepted steps j session) (step : ListeningStep κ) :
    Accepted (steps ++ [step]) j session := accepted_concat_iff.2 (Or.inl h)

section Step

variable (hrun : ({} : Listening κ).run steps = (h, notes)) (hall : Attentive steps h notes)

include hall in
theorem Attentive.owner {phase : TaskPhase}
    (htask : (session, phase) ∈ (h.listeners j).tasks) : Accepted steps j session :=
  hall.accepted j session (hall.busy j session ⟨phase, htask⟩)

include hall in
/-- A number that is given now was not given before. -/
theorem Attentive.not_accepted_next (j : Nat) : ¬ Accepted steps j h.next :=
  fun hold => Nat.lt_irrefl _ (hall.numbered j _ hold)

include hrun in
theorem accepted_concat_cases (haccepted : Accepted (steps ++ [step]) j session) :
    Accepted steps j session ∨
      step = .accept j ∧ session = h.next ∧ (h.listeners j).running = true := by
  rcases accepted_concat_iff.1 haccepted with hold | ⟨hstep, hnext, hlistener⟩
  · exact Or.inl hold
  · rw [hrun] at hnext hlistener
    exact Or.inr ⟨hstep, hnext.symm, hlistener⟩

include hrun in
theorem accepted_next (haccept : step = .accept j) (hlistener : (h.listeners j).running = true) :
    Accepted (steps ++ [step]) j h.next := by
  refine accepted_concat_iff.2 (Or.inr ⟨haccept, ?_, ?_⟩)
  · rw [hrun]
  · rw [hrun]
    exact hlistener

include hrun hall in
/-- The weak lists of a step hold sessions of their listeners. -/
theorem Attentive.accepted_apply (hlive : session ∈ ((h.apply step).1.listeners j).live) :
    Accepted (steps ++ [step]) j session := by
  rcases listener_apply h step j with ⟨hsame, -⟩ | ⟨hstep, hlistener, hnext⟩ | ⟨inner, -, hnext⟩
  · exact (hall.accepted j session (hsame ▸ hlive)).concat step
  · rw [hnext] at hlive
    rcases Listener.mem_live_apply hlive with hold | ⟨heq, -⟩
    · exact (hall.accepted j session hold).concat step
    · cases heq
      exact accepted_next hrun hstep hlistener
  · rw [hnext] at hlive
    rcases Listener.mem_live_apply hlive with hold | ⟨heq, -⟩
    · exact (hall.accepted j session hold).concat step
    · exact absurd heq (inner.2 session)

include hall in
theorem Attentive.busy_apply (hbusy : ((h.apply step).1.listeners j).Busy session) :
    session ∈ ((h.apply step).1.listeners j).live := by
  rcases listener_apply h step j with ⟨hsame, -⟩ | ⟨-, -, hnext⟩ | ⟨inner, -, hnext⟩
  · rw [hsame] at hbusy ⊢
    exact hall.busy j session hbusy
  · rw [hnext] at hbusy ⊢
    exact Listener.live_of_apply (hall.busy j) hbusy
  · rw [hnext] at hbusy ⊢
    exact Listener.live_of_apply (hall.busy j) hbusy

include hrun hall in
theorem Attentive.numbered_apply (haccepted : Accepted (steps ++ [step]) j session) :
    session < (h.apply step).1.next := by
  have hnext := next_apply h step
  rcases accepted_concat_cases hrun haccepted with hold | ⟨rfl, rfl, hlistener⟩
  · have hlt := hall.numbered j session hold
    rcases hnext with hnext | ⟨_, _, _, hnext⟩ <;> omega
  · simp only [apply, hlistener, if_true]
    exact Nat.lt_succ_self _

include hrun hall in
theorem Attentive.apart_apply {k : Nat} (hj : Accepted (steps ++ [step]) j session)
    (hk : Accepted (steps ++ [step]) k session) : j = k := by
  rcases accepted_concat_cases hrun hj with hold | ⟨hstep, rfl, -⟩
  · rcases accepted_concat_cases hrun hk with hold' | ⟨-, rfl, -⟩
    · exact hall.apart j k session hold hold'
    · exact absurd hold (hall.not_accepted_next j)
  · rcases accepted_concat_cases hrun hk with hold | ⟨hstep', -, -⟩
    · exact absurd hold (hall.not_accepted_next k)
    · exact ListeningStep.accept.inj (hstep.symm.trans hstep')

include hall in
/-- As long as its handshake is pending the callback is not called for a session. -/
theorem Attentive.pending_apply {k : Nat}
    (htask : (session, .handshake) ∈ ((h.apply step).1.listeners j).tasks) :
    (k, .connected session) ∉ notes ++ (h.apply step).2 := by
  intro hmem
  rcases task_cases htask with hold | ⟨hphase, -⟩ | ⟨-, rfl, rfl, -⟩
  · rcases List.mem_append.1 hmem with hbefore | hnow
    · exact hall.pending j k session hold hbefore
    · obtain ⟨hpending, hgone, -, -⟩ := pending_of_connected hnow
      obtain rfl := hall.apart j k session (hall.owner hold) (hall.owner hpending)
      exact hgone htask
  · cases hphase
  · rcases List.mem_append.1 hmem with hbefore | hnow
    · exact hall.not_accepted_next k (hall.told k _ hbefore)
    · obtain ⟨inner, heq, -⟩ := (notes_apply ..).1 hnow
      cases heq

include hall in
theorem Attentive.driving_apply
    (htask : (session, .driving) ∈ ((h.apply step).1.listeners j).tasks) :
    (j, .connected session) ∈ notes ++ (h.apply step).2 := by
  rcases task_cases htask with hold | ⟨-, hnow⟩ | ⟨hphase, -⟩
  · exact List.mem_append_left _ (hall.driving j session hold)
  · exact List.mem_append_right _ hnow
  · cases hphase

include hall in
theorem Attentive.told_apply (hmem : (j, .connected session) ∈ notes ++ (h.apply step).2) :
    Accepted (steps ++ [step]) j session := by
  rcases List.mem_append.1 hmem with hbefore | hnow
  · exact (hall.told j session hbefore).concat step
  · exact (hall.owner (pending_of_connected hnow).1).concat step

include hall in
theorem Attentive.once_apply (j session : Nat) :
    (notes ++ (h.apply step).2).count (j, .connected session) ≤ 1 := by
  rw [List.count_append]
  by_cases hnow : (j, .connected session) ∈ (h.apply step).2
  · obtain ⟨hpending, -, -, hnotes⟩ := pending_of_connected hnow
    rw [List.count_eq_zero.2 (hall.pending j j session hpending), hnotes]
    simp
  · rw [List.count_eq_zero.2 hnow]
    exact hall.once j session

include hall in
theorem Attentive.paired_apply (s : Nat) : ((h.apply step).1.sessions s).Paired := by
  have hpaired := hall.paired s
  cases step with
  | accept k =>
    simp only [apply]
    split <;> exact hpaired
  | listen k inner =>
    obtain ⟨hsame, hwriter, -⟩ :=
      sessions_perform ((h.listeners k).apply inner).2 (h.setListener k _) s
    rw [Paired]
    exact hsame.reader.symm ▸ hwriter.symm ▸ hpaired
  | drive k session =>
    simp only [apply]
    split
    · rw [sessions_update]
      split
      · exact hpaired.apply .start
      · exact hpaired
    · exact hpaired
  | inside session inner =>
    simp only [apply, sessions_update]
    split
    · exact hpaired.apply inner
    · exact hpaired

include hall in
/-- A connection is driven only once the callback has returned, so nothing was read before. -/
theorem Attentive.unread_apply {s : Nat}
    (hnot : ∀ j, (j, .connected s) ∉ notes ++ (h.apply step).2) :
    ((h.apply step).1.sessions s).reader ≠ .running ∧ ((h.apply step).1.sessions s).inbox = [] := by
  have hbefore (j : Nat) : (j, .connected s) ∉ notes :=
    fun hmem => hnot j (List.mem_append_left _ hmem)
  have hunread := hall.unread s hbefore
  cases step with
  | accept k =>
    simp only [apply]
    split <;> exact hunread
  | listen k inner =>
    obtain ⟨hsame, -, -⟩ :=
      sessions_perform ((h.listeners k).apply inner).2 (h.setListener k _) s
    exact ⟨fun hrunning => hunread.1 (hsame.reader.symm.trans hrunning),
      hsame.inbox.trans hunread.2⟩
  | drive k session =>
    simp only [apply]
    split
    · next hdriving =>
      have hs : s ≠ session := by
        rintro rfl
        exact hbefore k (hall.driving k s (List.contains_iff_mem.1 hdriving))
      rw [sessions_update, if_neg hs]
      exact hunread
    · exact hunread
  | inside session inner =>
    simp only [apply, sessions_update]
    split
    · exact fresh_apply (hall.paired s) hunread.1 hunread.2 inner.2
    · exact hunread

include hrun hall in
theorem Attentive.apply (step : ListeningStep κ) :
    Attentive (steps ++ [step]) (h.apply step).1 (notes ++ (h.apply step).2) where
  busy _ _ := hall.busy_apply
  accepted _ _ := hall.accepted_apply hrun
  numbered _ _ := hall.numbered_apply hrun
  apart _ _ _ := hall.apart_apply hrun
  pending _ _ _ := hall.pending_apply
  driving _ _ := hall.driving_apply
  told _ _ := hall.told_apply
  once := hall.once_apply
  paired := hall.paired_apply
  unread _ := hall.unread_apply

include hall in
theorem Attentive.one_phase (hdriving : (session, .driving) ∈ (h.listeners j).tasks) :
    (session, .handshake) ∉ (h.listeners j).tasks :=
  fun hpending => hall.pending j j session hpending (hall.driving j session hdriving)

include hall in
/-- What was under way goes on until it is concluded. -/
theorem Attentive.goes_on_iff {phase : TaskPhase} (htask : (session, phase) ∈ (h.listeners j).tasks) :
    (session, phase) ∈ ((h.apply step).1.listeners j).tasks ↔ ¬ Concludes j session phase step := by
  constructor
  · rintro hstill ⟨inner, rfl, hconcludes⟩
    rw [listeners_listen] at hstill
    exact Listener.not_mem_of_concludes hconcludes htask hstill
  · intro hgoes
    rcases listener_apply h step j with ⟨hsame, -⟩ | ⟨-, -, hnext⟩ | ⟨inner, rfl, hnext⟩
    · rwa [hsame]
    · rw [hnext]
      exact Listener.mem_of_not_concludes hall.one_phase nofun htask
    · rw [hnext]
      exact Listener.mem_of_not_concludes hall.one_phase (fun h => hgoes ⟨inner, rfl, h⟩) htask

include hall in
/-- A handshake is pending from when its connection is accepted. -/
theorem Attentive.handshake_apply_iff :
    (session, .handshake) ∈ ((h.apply step).1.listeners j).tasks ↔
      (step = .accept j ∧ h.next = session ∧ (h.listeners j).running = true) ∨
        (session, .handshake) ∈ (h.listeners j).tasks ∧
          ¬ Concludes j session .handshake step := by
  constructor
  · intro htask
    rcases task_cases htask with hold | ⟨hphase, -⟩ | ⟨-, hnext, hstep, hrun⟩
    · exact Or.inr ⟨hold, (hall.goes_on_iff hold).1 htask⟩
    · cases hphase
    · exact Or.inl ⟨hstep, hnext.symm, hrun⟩
  · rintro (⟨rfl, rfl, hrun⟩ | ⟨hold, hgoes⟩)
    · rw [listeners_accept hrun]
      simp [Listener.apply, hrun]
    · exact (hall.goes_on_iff hold).2 hgoes

include hall in
/-- A connection is driven from when its handshake is done. -/
theorem Attentive.driving_apply_iff :
    (session, .driving) ∈ ((h.apply step).1.listeners j).tasks ↔
      (j, .connected session) ∈ (h.apply step).2 ∨
        (session, .driving) ∈ (h.listeners j).tasks ∧ ¬ Concludes j session .driving step := by
  constructor
  · intro htask
    rcases task_cases htask with hold | ⟨-, hnow⟩ | ⟨hphase, -⟩
    · exact Or.inr ⟨hold, (hall.goes_on_iff hold).1 htask⟩
    · exact Or.inl hnow
    · cases hphase
  · rintro (hnow | ⟨hold, hgoes⟩)
    · exact (pending_of_connected hnow).2.2.1
    · exact (hall.goes_on_iff hold).2 hgoes

end Step

theorem attentive_run (steps : List (ListeningStep κ)) :
    Attentive steps (({} : Listening κ).run steps).1 (({} : Listening κ).run steps).2 := by
  induction steps using List.reverseRecOn with
  | nil => exact attentive_nil
  | append_singleton steps step ih =>
    rw [run_concat]
    exact ih.apply rfl step

section Tasks

theorem handshake_run (steps : List (ListeningStep κ)) (j session : Nat) :
    (session, .handshake) ∈ ((({} : Listening κ).run steps).1.listeners j).tasks ↔
      ∃ before after, steps = before ++ .accept j :: after ∧
        ((({} : Listening κ).run before).1.next = session ∧
          ((({} : Listening κ).run before).1.listeners j).running = true) ∧
        ∀ step ∈ after, ¬ Concludes j session .handshake step := by
  induction steps using List.reverseRecOn with
  | nil => simp [run]
  | append_singleton steps step ih =>
    rw [run_concat, (attentive_run steps).handshake_apply_iff, ih, exists_place_since_concat]

theorem driving_run (steps : List (ListeningStep κ)) (j session : Nat) :
    (session, .driving) ∈ ((({} : Listening κ).run steps).1.listeners j).tasks ↔
      ∃ keeps before after, steps = before ++ .listen j ⟨.connected session keeps, nofun⟩ :: after ∧
        (session, .handshake) ∈ ((({} : Listening κ).run before).1.listeners j).tasks ∧
        ∀ step ∈ after, ¬ Concludes j session .driving step := by
  induction steps using List.reverseRecOn with
  | nil => simp [run]
  | append_singleton steps step ih =>
    simp only [run_concat, (attentive_run steps).driving_apply_iff, ih, exists_place_since_concat,
      exists_or, exists_and_right, connected_mem_apply]

end Tasks

/-- The loop of a listener would end if it looked now. -/
def Signalled (h : Listening κ) (j : Nat) : Prop :=
  (h.listeners j).signal = true ∨ (h.listeners j).senderAlive = false

section Ends

theorem running_apply (h : Listening κ) (step : ListeningStep κ) (j : Nat) :
    ((h.apply step).1.listeners j).running = false ↔ (h.listeners j).running = false ∨
      step = .listen j ⟨.look, nofun⟩ ∧ h.Signalled j := by
  rcases listener_apply h step j with ⟨hsame, hother⟩ | ⟨rfl, hlistener, hnext⟩ | ⟨inner, rfl, hnext⟩
  · rw [hsame]
    exact ⟨Or.inl, fun h => h.resolve_right fun hlook => hother _ hlook.1⟩
  · rw [hnext, Listener.running_apply]
    simp
  · rw [hnext, Listener.running_apply]
    refine or_congr_right (and_congr_left fun _ => ?_)
    constructor
    · intro hlook
      exact congrArg _ (Subtype.ext hlook)
    · intro hlook
      cases hlook
      rfl

theorem signalled_apply (hsignalled : (h.apply step).1.Signalled j) : h.Signalled j ∨
    step = .listen j ⟨.setSignal true, nofun⟩ ∨ step = .listen j ⟨.dropSender, nofun⟩ := by
  rcases listener_apply h step j with ⟨hsame, -⟩ | ⟨rfl, -, hnext⟩ | ⟨inner, rfl, hnext⟩
  · exact Or.inl (by rwa [Signalled, hsame] at hsignalled)
  · rw [Signalled, hnext] at hsignalled
    rcases hsignalled with hsignal | hsender
    · exact Or.inl (Or.inl ((Listener.signal_apply hsignal).resolve_right nofun))
    · exact Or.inl (Or.inr ((Listener.senderAlive_apply hsender).resolve_right nofun))
  · rw [Signalled, hnext] at hsignalled
    rcases hsignalled with hsignal | hsender
    · rcases Listener.signal_apply hsignal with hold | heq
      · exact Or.inl (Or.inl hold)
      · exact Or.inr (Or.inl (congrArg _ (Subtype.ext heq)))
    · rcases Listener.senderAlive_apply hsender with hold | heq
      · exact Or.inl (Or.inr hold)
      · exact Or.inr (Or.inr (congrArg _ (Subtype.ext heq)))

theorem running_run (steps : List (ListeningStep κ)) (j : Nat) :
    ((({} : Listening κ).run steps).1.listeners j).running = false ↔
      ∃ before after, steps = before ++ .listen j ⟨.look, nofun⟩ :: after ∧
        (({} : Listening κ).run before).1.Signalled j := by
  induction steps using List.reverseRecOn with
  | nil => simp [run]
  | append_singleton steps step ih =>
    rw [run_concat, running_apply, ih, exists_place_concat, or_comm]

theorem signalled_run (h : (({} : Listening κ).run steps).1.Signalled j) :
    .listen j ⟨.setSignal true, nofun⟩ ∈ steps ∨ .listen j ⟨.dropSender, nofun⟩ ∈ steps := by
  induction steps using List.reverseRecOn with
  | nil => simp [run, Signalled] at h
  | append_singleton steps step ih =>
    rw [run_concat] at h
    rcases signalled_apply h with hold | rfl | rfl
    · exact (ih hold).imp (List.mem_append_left _) (List.mem_append_left _)
    · exact Or.inl (by simp)
    · exact Or.inr (by simp)

end Ends

section Calls

/-- The callback is called just when a handshake that was pending is done. -/
theorem connected_mem_run (steps : List (ListeningStep κ)) (j session : Nat) :
    (j, .connected session) ∈ (({} : Listening κ).run steps).2 ↔
      ∃ keeps before after, steps = before ++ .listen j ⟨.connected session keeps, nofun⟩ :: after ∧
        (session, .handshake) ∈ ((({} : Listening κ).run before).1.listeners j).tasks := by
  induction steps using List.reverseRecOn with
  | nil => simp [run]
  | append_singleton steps step ih =>
    simp only [run_concat, List.mem_append, ih, exists_place_concat, exists_or,
      connected_mem_apply]
    rw [or_comm]

/-- A session that was accepted and has no task gets none, and the callback is not called for it. -/
theorem gone_run {before : List (ListeningStep κ)} (haccepted : Accepted before j session)
    (hgone : ∀ k, ¬ ((({} : Listening κ).run before).1.listeners k).Busy session)
    (hnot : ∀ k, (k, .connected session) ∉ (({} : Listening κ).run before).2)
    (after : List (ListeningStep κ)) :
    (∀ k, ¬ ((({} : Listening κ).run (before ++ after)).1.listeners k).Busy session) ∧
      ∀ k, (k, .connected session) ∉ (({} : Listening κ).run (before ++ after)).2 := by
  induction after using List.reverseRecOn with
  | nil =>
    rw [List.append_nil]
    exact ⟨hgone, hnot⟩
  | append_singleton after step ih =>
    obtain ⟨hgone, hnot⟩ := ih
    have hall := attentive_run (before ++ after)
    have hold : Accepted (before ++ after) j session := by
      obtain ⟨first, rest, rfl, hnext⟩ := haccepted
      exact ⟨first, rest ++ after, by simp, hnext⟩
    have hnow (k : Nat) : (k, .connected session) ∉
        ((({} : Listening κ).run (before ++ after)).1.apply step).2 := fun hmem =>
      hgone k ⟨_, (pending_of_connected hmem).1⟩
    rw [← List.append_assoc, run_concat]
    refine ⟨?_, fun k hmem => ?_⟩
    · rintro k ⟨phase, htask⟩
      rcases task_cases htask with hbefore | ⟨-, hmem⟩ | ⟨-, hnext, -⟩
      · exact hgone k ⟨phase, hbefore⟩
      · exact hnow k hmem
      · exact hall.not_accepted_next j (hnext ▸ hold)
    · exact (List.mem_append.1 hmem).elim (hnot k) (hnow k)

/-- Of a session whose handshake failed the callback never hears. -/
theorem not_connected_of_failed {before : List (ListeningStep κ)}
    (hpending : (session, .handshake) ∈ ((({} : Listening κ).run before).1.listeners j).tasks)
    (after : List (ListeningStep κ)) (k : Nat) :
    (k, .connected session) ∉ (({} : Listening κ).run
      (before ++ .listen j ⟨.handshakeFails session, nofun⟩ :: after)).2 := by
  have hall := attentive_run before
  have howner := (hall.owner hpending).concat (.listen j ⟨.handshakeFails session, nofun⟩)
  rw [List.append_cons]
  refine (gone_run howner (fun k hbusy => ?_) (fun k hmem => ?_) after).2 k
  · obtain ⟨phase, htask⟩ := hbusy
    -- a listener has tasks of its own sessions alone, and this one just ended that of the session
    obtain rfl := (attentive_run _).apart _ _ _ ((attentive_run _).owner htask) howner
    rw [run_concat] at htask
    simp only [apply, (listeners_perform _ _).1, setListener, if_true, Listener.apply,
      if_pos hpending] at htask
    exact Listener.not_busy_endTask session _ ⟨phase, htask⟩
  · rw [run_concat] at hmem
    rcases List.mem_append.1 hmem with hbefore | hnow
    · exact hall.pending j k session hpending hbefore
    · obtain ⟨inner, heq, hnote⟩ := (notes_apply ..).1 hnow
      cases heq
      obtain ⟨⟨keeps, heq⟩, -⟩ := Listener.connected_mem_notes.1 hnote
      cases heq

end Calls

section Closes

/-- The loop that ends closes the sessions of all tasks under way. -/
theorem closed_of_look {before : List (ListeningStep κ)}
    (hlistener : ((({} : Listening κ).run before).1.listeners j).running = true)
    (hsignalled : (({} : Listening κ).run before).1.Signalled j)
    (hbusy : ((({} : Listening κ).run before).1.listeners j).Busy session)
    (after : List (ListeningStep κ)) :
    (j, .close session) ∈
        ((({} : Listening κ).run before).1.apply (.listen j ⟨.look, nofun⟩)).2 ∧
      SessionState.closing.rank ≤ ((({} : Listening κ).run
        (before ++ .listen j ⟨.look, nofun⟩ :: after)).1.sessions session).state.rank := by
  have hlive := (attentive_run before).busy j session hbusy
  have hnote : .close session ∈ (((({} : Listening κ).run before).1.listeners j).apply .look).2 :=
    Listener.close_mem_notes.2 ⟨rfl, hlistener, hsignalled, hlive, hbusy.isAlive⟩
  refine ⟨(notes_apply ..).2 ⟨_, rfl, hnote⟩, ?_⟩
  rw [List.append_cons, run_append]
  refine Nat.le_trans ?_ (rank_le_run _ after session)
  rw [run_concat]
  exact (rank_le_perform _ _ session).2 hnote

/-- A close that a listener issues is for a session of its own. -/
theorem accepted_of_close (hmem : (j, .close session) ∈ (({} : Listening κ).run steps).2) :
    Accepted steps j session := by
  induction steps using List.reverseRecOn with
  | nil => cases hmem
  | append_singleton steps step ih =>
    rw [run_concat] at hmem
    rcases List.mem_append.1 hmem with hbefore | hnow
    · exact (ih hbefore).concat step
    · obtain ⟨inner, -, hnote⟩ := (notes_apply ..).1 hnow
      obtain ⟨-, -, -, hlive, -⟩ := Listener.close_mem_notes.1 hnote
      exact ((attentive_run steps).accepted j session hlive).concat step

/-- A look leaves the sessions of other listeners as they are. -/
theorem sessions_look {before : List (ListeningStep κ)} (hother : ¬ Accepted before j session) :
    ((({} : Listening κ).run before).1.apply (.listen j ⟨.look, nofun⟩)).1.sessions session =
      (({} : Listening κ).run before).1.sessions session := by
  refine (sessions_perform (((({} : Listening κ).run before).1.listeners j).apply .look).2 _
    session).2.2 fun hnote => hother ?_
  obtain ⟨-, -, -, hlive, -⟩ := Listener.close_mem_notes.1 hnote
  exact (attentive_run before).accepted j session hlive

end Closes

structure KeepsLifeCycle (steps : List (ListeningStep κ)) : Prop where
  /-- A loop ends when it looks while its signal is set or the sender is gone, and never else. -/
  ends : ∀ j, ((({} : Listening κ).run steps).1.listeners j).running = false ↔
    ∃ before after, steps = before ++ .listen j ⟨.look, nofun⟩ :: after ∧
      (({} : Listening κ).run before).1.Signalled j
  signalled : ∀ j, (({} : Listening κ).run steps).1.Signalled j →
    .listen j ⟨.setSignal true, nofun⟩ ∈ steps ∨ .listen j ⟨.dropSender, nofun⟩ ∈ steps
  /-- Whatever a running loop accepts has a task, whose handshake is pending until it is done or
  fails, and which drives the session from then on until that ends. -/
  pending : ∀ j session,
    (session, .handshake) ∈ ((({} : Listening κ).run steps).1.listeners j).tasks ↔
      ∃ before after, steps = before ++ .accept j :: after ∧
        ((({} : Listening κ).run before).1.next = session ∧
          ((({} : Listening κ).run before).1.listeners j).running = true) ∧
        ∀ step ∈ after, ¬ Concludes j session .handshake step
  driven : ∀ j session,
    (session, .driving) ∈ ((({} : Listening κ).run steps).1.listeners j).tasks ↔
      ∃ keeps before after, steps = before ++ .listen j ⟨.connected session keeps, nofun⟩ :: after ∧
        (session, .handshake) ∈ ((({} : Listening κ).run before).1.listeners j).tasks ∧
        ∀ step ∈ after, ¬ Concludes j session .driving step
  /-- The callback is called for the handshakes that are done, once for each. -/
  connected : ∀ j session, (j, .connected session) ∈ (({} : Listening κ).run steps).2 ↔
    ∃ keeps before after, steps = before ++ .listen j ⟨.connected session keeps, nofun⟩ :: after ∧
      (session, .handshake) ∈ ((({} : Listening κ).run before).1.listeners j).tasks
  once : ∀ j session, (({} : Listening κ).run steps).2.count (j, .connected session) ≤ 1
  failed : ∀ before j session after,
    steps = before ++ .listen j ⟨.handshakeFails session, nofun⟩ :: after →
      (session, .handshake) ∈ ((({} : Listening κ).run before).1.listeners j).tasks →
        ∀ k, (k, .connected session) ∉ (({} : Listening κ).run steps).2
  /-- Nothing of a connection is read before the callback is called for it. -/
  unread : ∀ session, ((({} : Listening κ).run steps).1.sessions session).reader = .running ∨
    ((({} : Listening κ).run steps).1.sessions session).inbox ≠ [] →
      ∃ j, (j, .connected session) ∈ (({} : Listening κ).run steps).2
  /-- A loop that ends closes the session of every task that is under way then. -/
  closes : ∀ before j after session, steps = before ++ .listen j ⟨.look, nofun⟩ :: after →
    ((({} : Listening κ).run before).1.listeners j).running = true →
    (({} : Listening κ).run before).1.Signalled j →
    ((({} : Listening κ).run before).1.listeners j).Busy session →
      (j, .close session) ∈
          ((({} : Listening κ).run before).1.apply (.listen j ⟨.look, nofun⟩)).2 ∧
        SessionState.closing.rank ≤
          ((({} : Listening κ).run steps).1.sessions session).state.rank
  /-- It closes sessions of its own alone, and each session has one listener. -/
  own : ∀ j session, (j, .close session) ∈ (({} : Listening κ).run steps).2 →
    Accepted steps j session
  apart : ∀ j k session, Accepted steps j session → Accepted steps k session → j = k
  /-- The number of the next session is none that was given. -/
  numbered : ∀ j session, Accepted steps j session →
    session < (({} : Listening κ).run steps).1.next
  others : ∀ before j after session, steps = before ++ .listen j ⟨.look, nofun⟩ :: after →
    ¬ Accepted before j session →
      ((({} : Listening κ).run before).1.apply (.listen j ⟨.look, nofun⟩)).1.sessions session =
        (({} : Listening κ).run before).1.sessions session

/-- Whatever connections do, and in whatever order. -/
theorem keeps_life_cycle (steps : List (ListeningStep κ)) : KeepsLifeCycle steps where
  ends := running_run steps
  signalled _ := signalled_run
  pending := handshake_run steps
  driven := driving_run steps
  connected := connected_mem_run steps
  once := (attentive_run steps).once
  failed before j session after hsteps hpending := by
    subst hsteps
    exact not_connected_of_failed hpending after
  unread session hread := by
    by_contra hnot
    obtain ⟨hidle, hempty⟩ := (attentive_run steps).unread session (not_exists.1 hnot)
    exact hread.elim hidle (absurd hempty)
  closes before j after session hsteps hlistener hsignalled hbusy := by
    subst hsteps
    exact closed_of_look hlistener hsignalled hbusy after
  own _ _ := accepted_of_close
  apart := (attentive_run steps).apart
  numbered := (attentive_run steps).numbered
  others _ _ _ _ _ := sessions_look

/-- The first session is forgotten when another is accepted; those that are at work are closed, and
the session of the other listener is left alone. -/
example :
    let steps : List (ListeningStep Unit) :=
      [.accept 0, .accept 1, .accept 0, .listen 0 ⟨.handshakeFails 0, nofun⟩,
        .listen 0 ⟨.connected 2 false, nofun⟩, .drive 0 2, .accept 0,
        .listen 0 ⟨.setSignal true, nofun⟩, .listen 0 ⟨.look, nofun⟩]
    ((({} : Listening Unit).run steps).1.listeners 0).live = [2, 3] ∧
      (({} : Listening Unit).run steps).2 = [(0, .connected 2), (0, .close 2), (0, .close 3)] ∧
      ((({} : Listening Unit).run steps).1.sessions 1).state = .connecting := by
  cbv

end Listening
end ScriptHost
